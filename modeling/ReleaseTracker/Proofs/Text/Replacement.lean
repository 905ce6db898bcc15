import Mathlib.Data.List.Basic
import ReleaseTracker.Text.Search

/-! Replacing every occurrence of a mark. The text is cut at the marks into pieces without any, and
what is put for the marks joins the pieces again. Whoever knows the cut reads what was put, as soon
as it was put once. -/

namespace ReleaseTracker.Text

variable {mark s t : List Char} {piece : List Char} {pieces : List (List Char)}

structure Cut (mark s : List Char) (pieces : List (List Char)) : Prop where
  inhabited : pieces ≠ []
  joined : mark.intercalate pieces = s
  clear : ∀ piece ∈ pieces, ¬ mark <:+: piece

theorem replaceFrom_skip (mark new : List Char) (n : Nat) (s : List Char) :
    replaceFrom mark new n s = replaceFrom mark new 0 (s.drop n) := by
  induction n generalizing s with
  | zero => rfl
  | succ n ih =>
    cases s with
    | nil => rfl
    | cons c rest => rw [replaceFrom, List.drop_succ_cons, ih]

theorem replaceAll_mark (hmark : mark ≠ []) (new t : List Char) :
    replaceAll mark new (mark ++ t) = new ++ replaceAll mark new t := by
  obtain ⟨c, rest, rfl⟩ := List.exists_cons_of_ne_nil hmark
  have hfound : (c :: rest).isPrefixOf (c :: (rest ++ t)) = true :=
    List.isPrefixOf_iff_prefix.mpr (List.prefix_append (c :: rest) t)
  rw [replaceAll, List.cons_append, replaceFrom, if_pos hfound, replaceFrom_skip]
  simp [replaceAll]

theorem replaceAll_cons {c : Char} (h : ¬ mark <+: c :: t) (new : List Char) :
    replaceAll mark new (c :: t) = c :: replaceAll mark new t := by
  rw [replaceAll, replaceFrom, if_neg (by rwa [List.isPrefixOf_iff_prefix])]
  rfl

theorem Cut.marked (h : Cut mark t pieces) (hmark : mark ≠ []) :
    Cut mark (mark ++ t) ([] :: pieces) where
  inhabited := List.cons_ne_nil _ _
  joined := by rw [List.intercalate_cons_of_ne_nil h.inhabited, h.joined, List.nil_append]
  clear := List.forall_mem_cons.mpr ⟨by simpa using hmark, h.clear⟩

theorem Cut.cons {c : Char} (h : Cut mark t (piece :: pieces)) (hno : ¬ mark <+: c :: t) :
    Cut mark (c :: t) ((c :: piece) :: pieces) where
  inhabited := List.cons_ne_nil _ _
  joined := by rw [List.intercalate_cons_cons_left, h.joined]
  clear := by
    obtain ⟨hpiece, hpieces⟩ := List.forall_mem_cons.mp h.clear
    refine List.forall_mem_cons.mpr ⟨fun hmark => ?_, hpieces⟩
    obtain hfirst | hlater := List.infix_cons_iff.mp hmark
    · refine hno (hfirst.trans ((List.prefix_cons_inj c).mpr ?_))
      rw [← h.joined]
      cases pieces with
      | nil => simp
      | cons next pieces => simp [List.append_assoc]
    · exact hpiece hlater

theorem exists_cut (hmark : mark ≠ []) (s : List Char) :
    ∃ pieces, Cut mark s pieces ∧ ∀ new, replaceAll mark new s = new.intercalate pieces := by
  induction hlength : s.length using Nat.strongRecOn generalizing s with
  | _ n ih =>
    subst hlength
    by_cases hfirst : mark <+: s
    · obtain ⟨t, rfl⟩ := hfirst
      have hshorter : t.length < (mark ++ t).length := by
        have hpos := List.length_pos_of_ne_nil hmark
        rw [List.length_append]
        omega
      obtain ⟨pieces, hcut, hreplace⟩ := ih _ hshorter t rfl
      refine ⟨_, hcut.marked hmark, fun new => ?_⟩
      rw [replaceAll_mark hmark, hreplace, List.intercalate_cons_of_ne_nil hcut.inhabited,
        List.nil_append]
    · cases s with
      | nil =>
        refine ⟨[[]], ⟨by simp, by simp, by simpa using hmark⟩, fun new => ?_⟩
        simp [replaceAll, replaceFrom]
      | cons c t =>
        obtain ⟨pieces, hcut, hreplace⟩ := ih _ (Nat.lt_succ_self _) t rfl
        obtain ⟨piece, pieces, rfl⟩ := List.exists_cons_of_ne_nil hcut.inhabited
        refine ⟨_, hcut.cons hfirst, fun new => ?_⟩
        rw [replaceAll_cons hfirst, hreplace, List.intercalate_cons_cons_left]

theorem Cut.two (h : Cut mark s pieces) (hmark : mark <:+: s) :
    ∃ first second rest, pieces = first :: second :: rest := by
  obtain ⟨first, rest, rfl⟩ := List.exists_cons_of_ne_nil h.inhabited
  cases rest with
  | nil =>
    refine absurd hmark (h.clear s ?_)
    rw [← h.joined, List.intercalate_singleton]
    exact List.mem_cons_self ..
  | cons second rest => exact ⟨first, second, rest, rfl⟩

theorem length_intercalate (new piece : List Char) (pieces : List (List Char)) :
    (new.intercalate (piece :: pieces)).length =
      (piece :: pieces).flatten.length + pieces.length * new.length := by
  induction pieces generalizing piece with
  | nil => simp
  | cons next pieces ih =>
    simp only [List.intercalate_cons_cons, List.length_append, ih, List.flatten_cons,
      List.length_cons, Nat.succ_mul]
    omega

theorem intercalate_injective (first second : List Char) (rest : List (List Char)) :
    Function.Injective fun new : List Char => new.intercalate (first :: second :: rest) := by
  intro new other h
  have hlength := congrArg List.length h
  simp only [length_intercalate, List.length_cons, Nat.add_left_cancel_iff,
    Nat.mul_right_inj (Nat.succ_ne_zero _)] at hlength
  simp only [List.intercalate_cons_cons, List.append_assoc, List.append_cancel_left_eq] at h
  exact (List.append_inj h hlength).1

end ReleaseTracker.Text
