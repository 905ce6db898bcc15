import Mathlib.Data.List.Infix
import Mathlib.Tactic.Common
import ReleaseTracker.Sync.Signature

/-! Stripping the signature off a message. The message is cut where the mark occurs first, so that
none is left before the cut, and the blanks right before the cut go too. -/

namespace ReleaseTracker
namespace Text
variable {mark s before found : List Char}

/-! Trimming the end -/

theorem trimEnd_eq_nil_iff : trimEnd s = [] ↔ ∀ c ∈ s, isBlank c = true := by
  induction s with
  | nil => simp [trimEnd]
  | cons c rest ih =>
    rw [trimEnd, List.forall_mem_cons, ← ih]
    cases hrest : trimEnd rest <;> simp

theorem exists_blanks (s : List Char) :
    ∃ blanks, s = trimEnd s ++ blanks ∧ ∀ c ∈ blanks, isBlank c = true := by
  induction s with
  | nil => exact ⟨[], rfl, List.forall_mem_nil _⟩
  | cons c rest ih =>
    obtain ⟨blanks, hsplit, hblank⟩ := ih
    rw [trimEnd]
    cases hrest : trimEnd rest with
    | cons d kept =>
      rw [hrest] at hsplit
      exact ⟨blanks, congrArg (c :: ·) hsplit, hblank⟩
    | nil =>
      have hall : ∀ d ∈ rest, isBlank d = true := trimEnd_eq_nil_iff.mp hrest
      by_cases hc : isBlank c = true
      · exact ⟨c :: rest, by simp [hc], List.forall_mem_cons.mpr ⟨hc, hall⟩⟩
      · exact ⟨rest, by simp [hc], hall⟩

theorem trimEnd_getLast? {c : Char} (h : c ∈ (trimEnd s).getLast?) : isBlank c = false := by
  induction s with
  | nil => cases h
  | cons d rest ih =>
    rw [trimEnd] at h
    cases hrest : trimEnd rest with
    | cons e kept =>
      rw [hrest] at h ih
      exact ih (by simpa using h)
    | nil =>
      by_cases hd : isBlank d = true
      · simp [hrest, hd] at h
      · obtain rfl : d = c := by simpa [hrest, hd] using h
        simpa using hd

theorem trimEnd_eq_self (h : ∀ c ∈ s.getLast?, isBlank c = false) : trimEnd s = s := by
  obtain ⟨blanks, hsplit, hblank⟩ := exists_blanks s
  cases hlast : blanks.getLast? with
  | none =>
    rw [List.getLast?_eq_none_iff.mp hlast, List.append_nil] at hsplit
    exact hsplit.symm
  | some c =>
    have hc : c ∈ s.getLast? := by
      rw [hsplit, List.getLast?_append, hlast]
      rfl
    have hc' : isBlank c = true := hblank c (List.mem_of_mem_getLast? hlast)
    rw [h c hc] at hc'
    cases hc'

/-! Cutting at the first mark -/

/-- A text in two parts. The second one starts where the mark occurs first, or it is empty because
there is no mark. -/
structure FirstCut (mark s before found : List Char) : Prop where
  joined : s = before ++ found
  first : ∀ earlier later, s = earlier ++ mark ++ later → before <+: earlier
  marked : (found = [] ∧ ¬ mark <:+: s) ∨ mark <+: found

theorem FirstCut.cons {c : Char} (h : FirstCut mark s before found) (hno : ¬ mark <+: c :: s) :
    FirstCut mark (c :: s) (c :: before) found where
  joined := congrArg (c :: ·) h.joined
  first earlier later hsplit := by
    cases earlier with
    | nil => exact absurd ⟨later, hsplit.symm⟩ hno
    | cons d earlier =>
      obtain ⟨rfl, hrest⟩ := List.cons.inj hsplit
      exact (List.prefix_cons_inj c).mpr (h.first earlier later hrest)
  marked := by
    refine h.marked.imp_left fun ⟨hnone, hclear⟩ => ⟨hnone, fun hmark => ?_⟩
    exact (List.infix_cons_iff.mp hmark).elim hno hclear

theorem firstCut_cutAtFirst (hmark : mark ≠ []) (s : List Char) :
    FirstCut mark s (cutAtFirst mark s).1 (cutAtFirst mark s).2 := by
  induction s with
  | nil => exact ⟨rfl, fun _ _ _ => List.nil_prefix, .inl ⟨rfl, by simpa using hmark⟩⟩
  | cons c rest ih =>
    rw [cutAtFirst]
    by_cases hfirst : mark <+: c :: rest
    · rw [if_pos (List.isPrefixOf_iff_prefix.mpr hfirst)]
      exact ⟨rfl, fun _ _ _ => List.nil_prefix, .inr hfirst⟩
    · rw [if_neg (by rwa [List.isPrefixOf_iff_prefix])]
      exact ih.cons hfirst

theorem FirstCut.clear (h : FirstCut mark s before found) (hmark : mark ≠ []) :
    ¬ mark <:+: before := by
  rintro ⟨earlier, later, hsplit⟩
  have hlong : before <+: earlier := by
    refine h.first earlier (later ++ found) ?_
    rw [h.joined, ← hsplit, List.append_assoc]
  have hlength := hlong.length_le
  have hpos := List.length_pos_of_ne_nil hmark
  rw [← hsplit, List.length_append, List.length_append] at hlength
  omega

theorem cutAtFirst_of_clear (hmark : mark ≠ []) (h : ¬ mark <:+: s) :
    (cutAtFirst mark s).1 = s := by
  obtain ⟨hjoined, -, ⟨hnone, -⟩ | hfound⟩ := firstCut_cutAtFirst hmark s
  · rw [hnone, List.append_nil] at hjoined
    exact hjoined.symm
  · refine absurd ?_ h
    rw [hjoined]
    exact hfound.isInfix.trans (List.suffix_append _ _).isInfix

end Text

open Text

/-- What is left of a message is what comes before the first signature, or all of it, without the
blanks at the end. So nothing is left exactly if only blanks come before the signature, and there is
nothing to strip any more. -/
theorem stripSignature_cuts_signature (message : List Char) :
    let mark := "-----BEGIN PGP SIGNATURE-----".toList
    ∃ before blanks signature, message = before ++ signature ∧
      before = stripSignature message ++ blanks ∧
      ((signature = [] ∧ ¬ mark <:+: message) ∨ (mark <+: signature ∧
        ∀ earlier later, message = earlier ++ mark ++ later → before <+: earlier)) ∧
      (∀ c ∈ blanks, isBlank c = true) ∧
      (∀ c ∈ (stripSignature message).getLast?, isBlank c = false) ∧
      ¬ mark <:+: stripSignature message ∧
      stripSignature message <+: message ∧
      stripSignature (stripSignature message) = stripSignature message ∧
      (stripSignature message = [] ↔ ∀ c ∈ before, isBlank c = true) := by
  intro mark
  have hmark : mark ≠ [] := by decide
  have hcut : FirstCut mark message (cutAtFirst mark message).1 (cutAtFirst mark message).2 :=
    firstCut_cutAtFirst hmark message
  obtain ⟨blanks, hsplit, hblank⟩ := exists_blanks (cutAtFirst mark message).1
  have hprefix : stripSignature message <+: (cutAtFirst mark message).1 := ⟨blanks, hsplit.symm⟩
  have hclear : ¬ mark <:+: stripSignature message :=
    fun hheld => hcut.clear hmark (hheld.trans hprefix.isInfix)
  have hlast : ∀ c ∈ (stripSignature message).getLast?, isBlank c = false :=
    fun c hc => trimEnd_getLast? hc
  refine ⟨_, blanks, _, hcut.joined, hsplit, hcut.marked.imp_right fun hfound =>
    ⟨hfound, hcut.first⟩, hblank, hlast, hclear, ?_, ?_, trimEnd_eq_nil_iff⟩
  · exact hprefix.trans ⟨_, hcut.joined.symm⟩
  · calc stripSignature (stripSignature message)
        = trimEnd (stripSignature message) := congrArg trimEnd (cutAtFirst_of_clear hmark hclear)
      _ = stripSignature message := trimEnd_eq_self hlast

/-- A mark with a dash too many is still found, and a part of one is kept. -/
example : stripSignature "v1\n-----BEGIN PGP\u2003\n------BEGIN PGP SIGNATURE-----\nabc".toList =
    "v1\n-----BEGIN PGP\u2003\n-".toList := by decide

end ReleaseTracker
