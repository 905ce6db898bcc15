import Mathlib.Data.Finset.Card
import Mathlib.Data.Finset.Lattice.Fold
import Mathlib.Order.Lattice.Nat
import ReleaseTracker.Proofs.Lists.Newcomers

/-! Groups of entries that have one key. To take one entry of each group makes every group smaller
by one, so as many rounds of this as the largest group has entries leave nothing. -/

namespace ReleaseTracker
variable {α β κ : Type} [DecidableEq κ] {key : α → κ} {all : Finset α} {taken : List α}

def group (key : α → κ) (all : Finset α) (k : κ) : Finset α := all.filter (key · = k)

def largestGroup (key : α → κ) (all : Finset α) : Nat :=
  (all.image key).sup fun k => (group key all k).card

theorem mem_group {a : α} {k : κ} : a ∈ group key all k ↔ a ∈ all ∧ key a = k := Finset.mem_filter

theorem group_nonempty_iff {k : κ} : (group key all k).Nonempty ↔ k ∈ all.image key := by
  simp [Finset.Nonempty, mem_group]

theorem largestGroup_le_iff {n : Nat} :
    largestGroup key all ≤ n ↔ ∀ k, (group key all k).card ≤ n := by
  unfold largestGroup
  rw [Finset.sup_le_iff]
  constructor
  · intro h k
    by_cases hk : k ∈ all.image key
    · exact h k hk
    · have hnone := Finset.not_nonempty_iff_eq_empty.mp (mt group_nonempty_iff.mp hk)
      rw [hnone, Finset.card_empty]
      exact Nat.zero_le n
  · exact fun h k _ => h k

theorem eq_empty_iff_groups (key : α → κ) : all = ∅ ↔ ∀ k, (group key all k).card = 0 := by
  constructor
  · rintro rfl k
    rfl
  · intro h
    rw [Finset.eq_empty_iff_forall_notMem]
    intro a ha
    have hnone := Finset.card_eq_zero.mp (h (key a))
    exact Finset.notMem_empty a (hnone ▸ mem_group.mpr ⟨ha, rfl⟩)

structure OneOfEach (key : α → κ) (all : Finset α) (taken : List α) : Prop where
  subset : ∀ a ∈ taken, a ∈ all
  nodup : (taken.map key).Nodup
  keys : (taken.map key).toFinset = all.image key

theorem OneOfEach.length_eq (h : OneOfEach key all taken) :
    taken.length = (all.image key).card := by
  rw [← h.keys, List.toFinset_card_of_nodup h.nodup, List.length_map]

theorem OneOfEach.taken_nodup (h : OneOfEach key all taken) : taken.Nodup := h.nodup.of_map key

variable [DecidableEq α]

theorem OneOfEach.card_group (h : OneOfEach key all taken) (k : κ) :
    (group key (all \ taken.toFinset) k).card = (group key all k).card - 1 := by
  by_cases hk : k ∈ all.image key
  · rw [← h.keys, List.mem_toFinset] at hk
    obtain ⟨a, ha, rfl⟩ := List.mem_map.mp hk
    -- no other entry of this group was taken
    have hgroup : group key (all \ taken.toFinset) (key a) = (group key all (key a)).erase a := by
      ext b
      simp only [mem_group, Finset.mem_sdiff, Finset.mem_erase, List.mem_toFinset]
      constructor
      · rintro ⟨⟨hb, hleft⟩, hkey⟩
        exact ⟨fun hab => hleft (hab ▸ ha), hb, hkey⟩
      · rintro ⟨hne, hb, hkey⟩
        exact ⟨⟨hb, fun hmem => hne (List.inj_on_of_nodup_map h.nodup hmem ha hkey)⟩, hkey⟩
    rw [hgroup, Finset.card_erase_of_mem (mem_group.mpr ⟨h.subset a ha, rfl⟩)]
  · have hnone := Finset.not_nonempty_iff_eq_empty.mp (mt group_nonempty_iff.mp hk)
    have hsub : group key (all \ taken.toFinset) k ⊆ group key all k :=
      Finset.filter_subset_filter _ Finset.sdiff_subset
    rw [hnone, Finset.subset_empty] at hsub
    rw [hsub, hnone]
    rfl

theorem newcomers_oneOfEach (key : α → κ) (name : β → α) (qualified : β → Bool) (xs : List β) :
    OneOfEach key ((xs.filter qualified).map name).toFinset
      ((newcomers (fun b => key (name b)) qualified [] xs).map name) where
  subset a ha := by
    obtain ⟨b, hb, rfl⟩ := List.mem_map.mp ha
    obtain ⟨hmem, hqualified⟩ := mem_of_mem_newcomers hb
    exact List.mem_toFinset.mpr (List.mem_map_of_mem (List.mem_filter.mpr ⟨hmem, hqualified⟩))
  nodup := by
    rw [List.map_map]
    exact newcomers_keys_nodup _ qualified [] xs
  keys := by
    ext k
    simp only [List.mem_toFinset, List.mem_map, Finset.mem_image, List.mem_filter]
    constructor
    · rintro ⟨_, ⟨b, hb, rfl⟩, rfl⟩
      exact ⟨name b, ⟨b, mem_of_mem_newcomers hb, rfl⟩, rfl⟩
    · rintro ⟨_, ⟨b, ⟨hb, hqualified⟩, rfl⟩, rfl⟩
      obtain ⟨c, hc, hkey⟩ := exists_newcomer (fun b => key (name b)) hb hqualified
        List.not_mem_nil
      exact ⟨name c, ⟨c, hc, rfl⟩, hkey⟩

end ReleaseTracker
