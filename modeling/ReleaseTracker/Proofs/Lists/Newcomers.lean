import Mathlib.Data.List.FinRange
import Mathlib.Tactic.Common

/-! The entries of a list that qualify, without those whose key was there before. Reading the list
from its front finds the same entries as looking back from each position. -/

namespace ReleaseTracker
variable {α κ : Type}

/-- The entry at a position qualifies, and its key was not seen and is not that of an earlier
qualified entry. -/
def IsNewcomer (key : α → κ) (qualified : α → Bool) (seen : List κ) (xs : List α)
    (i : Fin xs.length) : Prop :=
  qualified (xs.get i) = true ∧ key (xs.get i) ∉ seen ∧
    ∀ j < i, qualified (xs.get j) = true → key (xs.get j) ≠ key (xs.get i)

variable {key : α → κ} {qualified : α → Bool} {seen : List κ} {xs : List α}

theorem isNewcomer_zero {a : α} {rest : List α} :
    IsNewcomer key qualified seen (a :: rest) (0 : Fin (rest.length + 1)) ↔
      qualified a = true ∧ key a ∉ seen := by
  refine and_congr_right fun _ => and_iff_left fun j hj => ?_
  exact absurd hj (Fin.not_lt_zero j)

theorem isNewcomer_succ {a : α} {rest : List α} (i : Fin rest.length) :
    IsNewcomer key qualified seen (a :: rest) i.succ ↔
      IsNewcomer key qualified seen rest i ∧ (qualified a = true → key a ≠ key (rest.get i)) := by
  have hearlier : (∀ j < i.succ, qualified ((a :: rest).get j) = true →
      key ((a :: rest).get j) ≠ key (rest.get i)) ↔
        (qualified a = true → key a ≠ key (rest.get i)) ∧
          ∀ j < i, qualified (rest.get j) = true → key (rest.get j) ≠ key (rest.get i) := by
    rw [Fin.forall_fin_succ]
    simp [Fin.succ_lt_succ_iff]
  have hlater : IsNewcomer key qualified seen (a :: rest) i.succ ↔
      qualified (rest.get i) = true ∧ key (rest.get i) ∉ seen ∧
        (qualified a = true → key a ≠ key (rest.get i)) ∧
          ∀ j < i, qualified (rest.get j) = true → key (rest.get j) ≠ key (rest.get i) :=
    and_congr_right fun _ => and_congr_right fun _ => hearlier
  rw [hlater, IsNewcomer]
  tauto

variable [DecidableEq κ]

instance (seen : List κ) (xs : List α) : DecidablePred (IsNewcomer key qualified seen xs) :=
  fun _ => inferInstanceAs (Decidable (_ ∧ _ ∧ _))

/-- The qualified entries whose key is neither among those seen nor that of an earlier one. -/
def newcomers (key : α → κ) (qualified : α → Bool) : (seen : List κ) → List α → List α
  | _, [] => []
  | seen, a :: rest =>
    if qualified a = true ∧ key a ∉ seen then a :: newcomers key qualified (key a :: seen) rest
    else newcomers key qualified seen rest

theorem newcomers_cons_of_new {a : α} {rest : List α} (h : qualified a = true ∧ key a ∉ seen) :
    newcomers key qualified seen (a :: rest) = a :: newcomers key qualified (key a :: seen) rest :=
  if_pos h

theorem newcomers_cons_of_old {a : α} {rest : List α} (h : ¬ (qualified a = true ∧ key a ∉ seen)) :
    newcomers key qualified seen (a :: rest) = newcomers key qualified seen rest :=
  if_neg h

theorem mem_of_mem_newcomers {a : α} (h : a ∈ newcomers key qualified seen xs) :
    a ∈ xs ∧ qualified a = true := by
  induction xs generalizing seen with
  | nil => cases h
  | cons b rest ih =>
    by_cases hb : qualified b = true ∧ key b ∉ seen
    · rw [newcomers_cons_of_new hb] at h
      rcases List.mem_cons.mp h with rfl | h
      · exact ⟨List.mem_cons_self, hb.1⟩
      · exact (ih h).imp_left (List.mem_cons_of_mem b)
    · rw [newcomers_cons_of_old hb] at h
      exact (ih h).imp_left (List.mem_cons_of_mem b)

theorem exists_newcomer (key : α → κ) {a : α} (ha : a ∈ xs) (hqualified : qualified a = true)
    (hnew : key a ∉ seen) : ∃ b ∈ newcomers key qualified seen xs, key b = key a := by
  induction xs generalizing seen with
  | nil => cases ha
  | cons b rest ih =>
    by_cases hb : qualified b = true ∧ key b ∉ seen
    · rw [newcomers_cons_of_new hb]
      by_cases hkey : key b = key a
      · exact ⟨b, List.mem_cons_self, hkey⟩
      have ha : a ∈ rest := (List.mem_cons.mp ha).resolve_left fun h => hkey (h ▸ rfl)
      have hnew : key a ∉ key b :: seen := by simp [hnew, Ne.symm hkey]
      obtain ⟨c, hc, hckey⟩ := ih ha hnew
      exact ⟨c, List.mem_cons_of_mem b hc, hckey⟩
    · rw [newcomers_cons_of_old hb]
      have hne : a ≠ b := by
        rintro rfl
        exact hb ⟨hqualified, hnew⟩
      exact ih ((List.mem_cons.mp ha).resolve_left hne) hnew

theorem newcomers_eq_nil (h : ∀ a ∈ xs, qualified a = false) :
    newcomers key qualified seen xs = [] := by
  rw [List.eq_nil_iff_forall_not_mem]
  intro a ha
  obtain ⟨hmem, hqualified⟩ := mem_of_mem_newcomers ha
  rw [h a hmem] at hqualified
  cases hqualified

theorem newcomers_prefix_append (key : α → κ) (qualified : α → Bool) (seen : List κ)
    (xs ys : List α) :
    newcomers key qualified seen xs <+: newcomers key qualified seen (xs ++ ys) := by
  induction xs generalizing seen with
  | nil => exact List.nil_prefix
  | cons a rest ih =>
    by_cases ha : qualified a = true ∧ key a ∉ seen
    · rw [List.cons_append, newcomers_cons_of_new ha, newcomers_cons_of_new ha]
      exact (List.prefix_cons_inj a).mpr (ih _)
    · rw [List.cons_append, newcomers_cons_of_old ha, newcomers_cons_of_old ha]
      exact ih seen

theorem key_not_mem_of_mem_newcomers {a : α} (h : a ∈ newcomers key qualified seen xs) :
    key a ∉ seen := by
  induction xs generalizing seen with
  | nil => cases h
  | cons b rest ih =>
    by_cases hb : qualified b = true ∧ key b ∉ seen
    · rw [newcomers_cons_of_new hb] at h
      rcases List.mem_cons.mp h with rfl | h
      · exact hb.2
      · exact fun hseen => ih h (List.mem_cons_of_mem _ hseen)
    · rw [newcomers_cons_of_old hb] at h
      exact ih h

theorem newcomers_keys_nodup (key : α → κ) (qualified : α → Bool) (seen : List κ) (xs : List α) :
    ((newcomers key qualified seen xs).map key).Nodup := by
  induction xs generalizing seen with
  | nil => exact List.nodup_nil
  | cons a rest ih =>
    by_cases ha : qualified a = true ∧ key a ∉ seen
    · rw [newcomers_cons_of_new ha, List.map_cons, List.nodup_cons]
      refine ⟨fun hmem => ?_, ih _⟩
      obtain ⟨b, hb, hkey⟩ := List.mem_map.mp hmem
      exact key_not_mem_of_mem_newcomers hb (hkey ▸ List.mem_cons_self)
    · rw [newcomers_cons_of_old ha]
      exact ih seen

/-! Fewer entries that qualify -/

section Fewer
variable {other : α → Bool}

theorem mem_newcomers_of_fewer {seen' : List κ} {a : α}
    (hfewer : ∀ b ∈ xs, other b = true → qualified b = true) (hseen : seen' ⊆ seen)
    (h : a ∈ newcomers key qualified seen xs) (ha : other a = true) :
    a ∈ newcomers key other seen' xs := by
  induction xs generalizing seen seen' with
  | nil => cases h
  | cons b rest ih =>
    have hrest : ∀ c ∈ rest, other c = true → qualified c = true :=
      fun c hc => hfewer c (List.mem_cons_of_mem b hc)
    by_cases hb : qualified b = true ∧ key b ∉ seen
    · have hother (hold : other b = true) : other b = true ∧ key b ∉ seen' :=
        ⟨hold, fun hmem => hb.2 (hseen hmem)⟩
      rw [newcomers_cons_of_new hb] at h
      rcases List.mem_cons.mp h with rfl | h
      · rw [newcomers_cons_of_new (hother ha)]
        exact List.mem_cons_self
      by_cases hb' : other b = true
      · rw [newcomers_cons_of_new (hother hb')]
        exact List.mem_cons_of_mem b (ih hrest (List.cons_subset_cons _ hseen) h)
      · rw [newcomers_cons_of_old fun hnew => hb' hnew.1]
        exact ih hrest (List.subset_cons_of_subset _ hseen) h
    · rw [newcomers_cons_of_old hb] at h
      by_cases hb' : other b = true ∧ key b ∉ seen'
      -- the entry was passed over because its key was seen, so it is no news now
      · have hold : key b ∈ seen := by
          by_contra hnew
          exact hb ⟨hfewer b List.mem_cons_self hb'.1, hnew⟩
        rw [newcomers_cons_of_new hb']
        exact List.mem_cons_of_mem b (ih hrest (List.cons_subset.mpr ⟨hold, hseen⟩) h)
      · rw [newcomers_cons_of_old hb']
        exact ih hrest hseen h

theorem newcomers_eq_filter_of_fewer {seen' : List κ}
    (hfewer : ∀ a ∈ xs, other a = true → qualified a = true)
    (htogether : ∀ a ∈ xs, ∀ b ∈ xs, qualified a = true → qualified b = true → key a = key b →
      other a = other b)
    (hseen : ∀ a ∈ xs, other a = true → (key a ∈ seen' ↔ key a ∈ seen)) :
    newcomers key other seen' xs = (newcomers key qualified seen xs).filter other := by
  induction xs generalizing seen seen' with
  | nil => rfl
  | cons b rest ih =>
    have hfewer' : ∀ a ∈ rest, other a = true → qualified a = true :=
      fun a ha => hfewer a (List.mem_cons_of_mem b ha)
    have htogether' : ∀ a ∈ rest, ∀ c ∈ rest, qualified a = true → qualified c = true →
        key a = key c → other a = other c := fun a ha c hc =>
      htogether a (List.mem_cons_of_mem b ha) c (List.mem_cons_of_mem b hc)
    have hseen₁ : ∀ a ∈ rest, other a = true → (key a ∈ seen' ↔ key a ∈ seen) :=
      fun a ha => hseen a (List.mem_cons_of_mem b ha)
    by_cases hb : qualified b = true ∧ key b ∉ seen
    · rw [newcomers_cons_of_new hb, List.filter_cons]
      by_cases hb' : other b = true
      · have hnew : key b ∉ seen' := mt (hseen b List.mem_cons_self hb').mp hb.2
        rw [newcomers_cons_of_new ⟨hb', hnew⟩, if_pos hb', ih hfewer' htogether']
        intro a ha hother
        rw [List.mem_cons, List.mem_cons, hseen₁ a ha hother]
      · rw [newcomers_cons_of_old fun hnew => hb' hnew.1, if_neg hb', ih hfewer' htogether']
        intro a ha hother
        have hne : key a ≠ key b := by
          intro hkey
          have hsame := htogether a (List.mem_cons_of_mem b ha) b List.mem_cons_self
            (hfewer' a ha hother) hb.1 hkey
          exact hb' (hsame ▸ hother)
        rw [List.mem_cons, or_iff_right hne, hseen₁ a ha hother]
    · have hold : ¬ (other b = true ∧ key b ∉ seen') := by
        rintro ⟨hb', hnew⟩
        exact hb ⟨hfewer b List.mem_cons_self hb', mt (hseen b List.mem_cons_self hb').mpr hnew⟩
      rw [newcomers_cons_of_old hb, newcomers_cons_of_old hold]
      exact ih hfewer' htogether' hseen₁

end Fewer

theorem newcomers_eq_filter (seen : List κ) (xs : List α) :
    newcomers key qualified seen xs =
      ((List.finRange xs.length).filter (IsNewcomer key qualified seen xs ·)).map xs.get := by
  induction xs generalizing seen with
  | nil => rfl
  | cons a rest ih =>
    -- the positions behind the first are those of the rest, where other keys have been seen
    have hlater (seen' : List κ) (h : ∀ i : Fin rest.length,
        IsNewcomer key qualified seen (a :: rest) i.succ ↔ IsNewcomer key qualified seen' rest i) :
        (((List.finRange rest.length).map Fin.succ).filter
          (IsNewcomer key qualified seen (a :: rest) ·)).map (a :: rest).get =
            newcomers key qualified seen' rest := by
      rw [ih seen', List.filter_map, List.map_map]
      refine congrArg (List.map rest.get) (List.filter_congr fun i _ => ?_)
      exact decide_eq_decide.mpr (h i)
    have hpositions : List.finRange (a :: rest).length =
        (0 : Fin (rest.length + 1)) :: (List.finRange rest.length).map Fin.succ :=
      List.finRange_succ
    rw [hpositions, List.filter_cons]
    by_cases ha : qualified a = true ∧ key a ∉ seen
    · rw [newcomers_cons_of_new ha, if_pos (decide_eq_true (isNewcomer_zero.mpr ha)),
        List.map_cons, hlater (key a :: seen)]
      · rfl
      intro i
      rw [isNewcomer_succ]
      unfold IsNewcomer
      simp only [List.mem_cons, not_or, ha.1, true_implies, ne_comm (a := key a)]
      tauto
    · rw [newcomers_cons_of_old ha, if_neg (mt of_decide_eq_true (mt isNewcomer_zero.mp ha)),
        hlater seen]
      intro i
      rw [isNewcomer_succ]
      refine and_iff_left_of_imp fun hi hqualified hkey => ha ⟨hqualified, ?_⟩
      rw [hkey]
      exact hi.2.1

end ReleaseTracker
