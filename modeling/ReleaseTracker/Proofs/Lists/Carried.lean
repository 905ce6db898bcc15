import Mathlib.Data.List.Forall2

/-! Lists that are related entry by entry. If the entries of a list stay in their places, each
changed at most in some way, and new ones come behind them, then the list is carried on. What is
carried on twice is carried on. -/

namespace ReleaseTracker

section Related
variable {α β γ : Type} {R : α → β → Prop} {S : β → γ → Prop} {T : α → γ → Prop} {xs : List α}
  {ys : List β} {zs : List γ}

theorem forall₂_trans (h : List.Forall₂ R xs ys) (h' : List.Forall₂ S ys zs)
    (htrans : ∀ a b c, R a b → S b c → T a c) : List.Forall₂ T xs zs := by
  induction h generalizing zs with
  | nil => rw [List.forall₂_nil_left_iff.mp h', List.forall₂_nil_left_iff]
  | cons hfirst _ ih =>
    obtain ⟨c, rest, hc, hrest, rfl⟩ := List.forall₂_cons_left_iff.mp h'
    exact .cons (htrans _ _ _ hfirst hc) (ih hrest)

theorem exists_of_forall₂ (h : List.Forall₂ R xs ys) {a : α} (ha : a ∈ xs) : ∃ b ∈ ys, R a b := by
  induction h with
  | nil => cases ha
  | cons hab _ ih =>
    rcases List.mem_cons.mp ha with rfl | ha
    · exact ⟨_, List.mem_cons_self, hab⟩
    · obtain ⟨b, hb, hR⟩ := ih ha
      exact ⟨b, List.mem_cons_of_mem _ hb, hR⟩

theorem exists_of_forall₂' (h : List.Forall₂ R xs ys) {b : β} (hb : b ∈ ys) : ∃ a ∈ xs, R a b :=
  exists_of_forall₂ h.flip hb

end Related

variable {α β : Type} {changed : α → α → Prop} {added added' : α → Prop} {xs ys zs : List α}

theorem forall₂_map_self {f : α → α} (h : ∀ a, changed a (f a)) (xs : List α) :
    List.Forall₂ changed xs (xs.map f) :=
  List.forall₂_map_right_iff.mpr (List.forall₂_same.mpr fun a _ => h a)

theorem forall_mem_of_forall₂ (h : List.Forall₂ changed xs ys)
    (hkept : ∀ a b, changed a b → added a → added b) (hxs : ∀ a ∈ xs, added a) :
    ∀ b ∈ ys, added b := by
  induction h with
  | nil => exact hxs
  | cons hfirst _ ih =>
    obtain ⟨ha, hrest⟩ := List.forall_mem_cons.mp hxs
    exact List.forall_mem_cons.mpr ⟨hkept _ _ hfirst ha, ih hrest⟩

theorem map_eq_of_forall₂ {f : α → β} (h : List.Forall₂ changed xs ys)
    (hf : ∀ a b, changed a b → f b = f a) : ys.map f = xs.map f := by
  induction h with
  | nil => rfl
  | cons hfirst _ ih => rw [List.map_cons, List.map_cons, hf _ _ hfirst, ih]

/-- The entries of a list in their places, each changed at most in some way, and new ones behind
them. -/
def Carried (changed : α → α → Prop) (added : α → Prop) (xs ys : List α) : Prop :=
  ∃ kept new, ys = kept ++ new ∧ List.Forall₂ changed xs kept ∧ ∀ a ∈ new, added a

theorem Carried.refl (h : ∀ a, changed a a) (xs : List α) : Carried changed added xs xs :=
  ⟨xs, [], (List.append_nil xs).symm, List.forall₂_same.mpr fun a _ => h a, List.forall_mem_nil _⟩

theorem Carried.cons {a b : α} (hfirst : changed a b) (h : Carried changed added xs ys) :
    Carried changed added (a :: xs) (b :: ys) := by
  obtain ⟨kept, new, rfl, hkept, hnew⟩ := h
  exact ⟨b :: kept, new, rfl, .cons hfirst hkept, hnew⟩

theorem Carried.imp (h : Carried changed added xs ys) (hadded : ∀ a, added a → added' a) :
    Carried changed added' xs ys := by
  obtain ⟨kept, new, hys, hkept, hnew⟩ := h
  exact ⟨kept, new, hys, hkept, fun a ha => hadded a (hnew a ha)⟩

theorem Carried.trans (h : Carried changed added xs ys) (h' : Carried changed added ys zs)
    (htrans : ∀ a b c, changed a b → changed b c → changed a c)
    (hkept : ∀ a b, changed a b → added a → added b) : Carried changed added xs zs := by
  obtain ⟨kept, new, rfl, hxs, hnew⟩ := h
  obtain ⟨kept', new', rfl, hys, hnew'⟩ := h'
  -- what was new in between is kept as the rest is
  have hfirst := (List.forall₂_take_append _ kept new hys.flip).flip
  have hlast := (List.forall₂_drop_append _ kept new hys.flip).flip
  refine ⟨kept'.take kept.length, kept'.drop kept.length ++ new', ?_,
    forall₂_trans hxs hfirst htrans, ?_⟩
  · rw [← List.append_assoc, List.take_append_drop]
  · exact List.forall_mem_append.mpr ⟨forall_mem_of_forall₂ hlast hkept hnew, hnew'⟩

end ReleaseTracker
