import Mathlib.Tactic.Common
import ReleaseTracker.Proofs.Text.Utf8
import ReleaseTracker.Text.Percent

/-! Percent-encoding is undone by decoding, as long as the percent sign itself is escaped. A form is
read back pair by pair, since no field holds what separates them. -/

namespace ReleaseTracker.Text

theorem splitOn_eq (mark : Char) (s : List Char) : splitOn mark s = s.splitOn mark := by
  induction s with
  | nil => rfl
  | cons c rest ih =>
    rw [List.splitOn_eq_splitOnP] at ih ⊢
    rw [splitOn, ih, List.splitOnP_cons_eq_if_modifyHead]
    by_cases h : c = mark
    · simp [h]
    · obtain ⟨piece, pieces, hsplit⟩ :=
        List.exists_cons_of_ne_nil (List.splitOnP_ne_nil (· == mark) rest)
      simp [h, hsplit]

theorem splitOn_intercalate {mark : Char} {pieces : List (List Char)} (hne : pieces ≠ [])
    (h : ∀ piece ∈ pieces, mark ∉ piece) : splitOn mark ([mark].intercalate pieces) = pieces := by
  rw [splitOn_eq]
  exact List.splitOn_intercalate mark h hne

theorem splitOnce_eq_none {mark : Char} {s : List Char} (h : mark ∉ s) :
    splitOnce mark s = none := by
  induction s with
  | nil => rfl
  | cons c rest ih =>
    rw [List.mem_cons, not_or] at h
    rw [splitOnce, if_neg (Ne.symm h.1), ih h.2, Option.map_none]

theorem splitOnce_append {mark : Char} {before : List Char} (h : mark ∉ before)
    (after : List Char) : splitOnce mark (before ++ mark :: after) = some (before, after) := by
  induction before with
  | nil => rw [List.nil_append, splitOnce, if_pos rfl]
  | cons c rest ih =>
    rw [List.mem_cons, not_or] at h
    rw [List.cons_append, splitOnce, if_neg (Ne.symm h.1), ih h.2, Option.map_some]

namespace Percent

theorem hexDigit?_hexDigit : ∀ {n : Nat}, n < 16 → Numeral.hexDigit? (hexDigit n) = some n := by
  decide

theorem isAlphanum_hexDigit : ∀ {n : Nat}, n < 16 → (hexDigit n).isAlphanum = true := by
  decide

theorem decode_escape (b : UInt8) (rest : List Char) :
    decode (escape b ++ rest) = b :: decode rest := by
  have hb : b.toNat < 256 := b.toNat_lt
  rw [escape, List.cons_append, List.cons_append, List.cons_append, List.nil_append, decode,
    hexDigit?_hexDigit (by omega), hexDigit?_hexDigit (by omega)]
  simp only
  rw [Nat.div_add_mod', UInt8.ofNat_toNat]

theorem decode_escapes (bytes : List UInt8) (rest : List Char) :
    decode (bytes.flatMap escape ++ rest) = bytes ++ decode rest := by
  induction bytes with
  | nil => rfl
  | cons b more ih => rw [List.flatMap_cons, List.append_assoc, decode_escape, ih, List.cons_append]

theorem decode_cons {c : Char} (h : c ≠ '%') (rest : List Char) :
    decode (c :: rest) = String.utf8EncodeChar c ++ decode rest := by
  rw [decode]
  rintro _ _ _ rfl
  exact absurd rfl h

variable {kept : Char → Bool}

theorem encode_cons (kept : Char → Bool) (c : Char) (s : List Char) :
    encode kept (c :: s) =
      (if kept c then [c] else (String.utf8EncodeChar c).flatMap escape) ++ encode kept s :=
  List.flatMap_cons

theorem decode_encode_append (hpercent : kept '%' = false) (s rest : List Char) :
    decode (encode kept s ++ rest) = Utf8.encode s ++ decode rest := by
  induction s with
  | nil => rfl
  | cons c s ih =>
    rw [encode_cons, List.append_assoc, Utf8.encode, List.flatMap_cons, List.append_assoc]
    by_cases hkept : kept c = true
    · have hc : c ≠ '%' := fun h => by simp [h, hpercent] at hkept
      rw [if_pos hkept, List.singleton_append, decode_cons hc, ih]
      rfl
    · rw [if_neg hkept, decode_escapes, ih]
      rfl

theorem decode_encode (hpercent : kept '%' = false) (s : List Char) :
    decode (encode kept s) = Utf8.encode s := by
  have h := decode_encode_append hpercent s []
  rwa [List.append_nil, decode, List.append_nil] at h

theorem mem_encode {s : List Char} {c : Char} (h : c ∈ encode kept s) :
    kept c = true ∨ c = '%' ∨ c.isAlphanum = true := by
  obtain ⟨d, -, hd⟩ := List.mem_flatMap.mp h
  split at hd
  · rename_i hkept
    exact .inl (List.mem_singleton.mp hd ▸ hkept)
  · obtain ⟨b, -, hb⟩ := List.mem_flatMap.mp hd
    have hlt : b.toNat < 256 := b.toNat_lt
    simp only [escape, List.mem_cons, List.not_mem_nil, or_false] at hb
    obtain rfl | rfl | rfl := hb
    · exact .inr (.inl rfl)
    · exact .inr (.inr (isAlphanum_hexDigit (by omega)))
    · exact .inr (.inr (isAlphanum_hexDigit (by omega)))

theorem isAlphanum_bounds {c : Char} (h : c.isAlphanum = true) :
    48 ≤ c.toNat ∧ c.toNat ≤ 57 ∨ 65 ≤ c.toNat ∧ c.toNat ≤ 90 ∨ 97 ≤ c.toNat ∧ c.toNat ≤ 122 := by
  have hupper (h : c.isUpper = true) : 65 ≤ c.toNat ∧ c.toNat ≤ 90 := of_decide_eq_true h
  have hlower (h : c.isLower = true) : 97 ≤ c.toNat ∧ c.toNat ≤ 122 :=
    (Bool.and_eq_true_iff.mp h).imp of_decide_eq_true of_decide_eq_true
  have hdigit (h : c.isDigit = true) : 48 ≤ c.toNat ∧ c.toNat ≤ 57 :=
    (Bool.and_eq_true_iff.mp h).imp of_decide_eq_true of_decide_eq_true
  obtain hletter | hnumeral := Bool.or_eq_true_iff.mp h
  · exact .inr ((Bool.or_eq_true_iff.mp hletter).imp hupper hlower)
  · exact .inl (hdigit hnumeral)

def Sent (c : Char) : Prop :=
  0x21 ≤ c.toNat ∧ c.toNat ≤ 0x7E ∧ c ≠ '?' ∧ c ≠ '#' ∧ c ≠ '\\'

theorem sent_of_inSegment {c : Char} (h : inSegment c = true) : Sent c ∧ c ≠ '/' := by
  simp only [inSegment, Bool.and_eq_true, decide_eq_true_eq, Bool.not_eq_true',
    List.contains_eq_mem, decide_eq_false_iff_not, List.mem_cons, List.not_mem_nil, or_false,
    not_or] at h
  obtain ⟨⟨hlow, hhigh⟩, -, hhash, -, -, hquestion, -, -, -, hslash, -, hback⟩ := h
  exact ⟨⟨hlow, Nat.le_of_lt_succ hhigh, hquestion, hhash, hback⟩, hslash⟩

theorem sent_of_isAlphanum {c : Char} (h : c.isAlphanum = true) : Sent c ∧ c ≠ '/' := by
  have hbounds := isAlphanum_bounds h
  refine ⟨⟨by omega, by omega, ?_, ?_, ?_⟩, ?_⟩
  all_goals
    rintro rfl
    revert hbounds
    decide

theorem sent_of_mem_segment {s : List Char} {c : Char} (h : c ∈ segment s) : Sent c ∧ c ≠ '/' := by
  obtain hkept | rfl | hdigit := mem_encode h
  · exact sent_of_inSegment hkept
  · unfold Sent
    decide
  · exact sent_of_isAlphanum hdigit

theorem mem_encode_inForm {s : List Char} {c : Char} (h : c ∈ encode inForm s) :
    c = '%' ∨ inForm c = true := by
  obtain hkept | hpercent | hdigit := mem_encode h
  · exact .inr hkept
  · exact .inl hpercent
  · exact .inr (by rw [inForm, hdigit, Bool.true_or])

theorem mem_formField {s : List Char} {c : Char} (h : c ∈ formField s) :
    c = '+' ∨ c = '%' ∨ inForm c = true := by
  obtain ⟨d, -, hd⟩ := List.mem_flatMap.mp h
  split at hd
  · exact .inl (List.mem_singleton.mp hd)
  · exact .inr (mem_encode_inForm hd)

theorem formField_spaced (s : List Char) :
    ((formField s).map fun c => if c = '+' then ' ' else c) =
      encode (fun c => inForm c || c = ' ') s := by
  induction s with
  | nil => rfl
  | cons c s ih =>
    rw [formField, List.flatMap_cons, List.map_append, encode_cons _ c s, ← formField, ih]
    congr 1
    by_cases hspace : c = ' '
    · simp [hspace]
    · have hplus : ∀ d ∈ encode inForm [c], (if d = '+' then ' ' else d) = d := by
        rintro d hd
        refine if_neg ?_
        rintro rfl
        exact absurd (mem_encode_inForm hd) (by decide)
      rw [if_neg hspace, List.map_congr_left hplus, List.map_id']
      simp [encode, hspace]

theorem formText_formField (s : String) : formText (formField s.toList) = s := by
  rw [formText, formField_spaced, decode_encode (by decide), Utf8.read_encode, String.ofList_toList]

theorem decodeForm_encodeForm (pairs : List (String × String)) :
    decodeForm (encodeForm pairs) = pairs := by
  have hand {s : List Char} : '&' ∉ formField s := fun h => absurd (mem_formField h) (by decide)
  have hequals {s : List Char} : '=' ∉ formField s := fun h => absurd (mem_formField h) (by decide)
  by_cases hne : pairs = []
  · rw [hne]
    rfl
  · rw [decodeForm, encodeForm, splitOn_intercalate (by simpa using hne), List.filter_eq_self.mpr,
      List.map_map, List.map_congr_left (g := id), List.map_id]
    · rintro ⟨name, value⟩ -
      simp only [Function.comp_apply, splitOnce_append hequals, formText_formField, id]
    · rintro _ hpiece
      obtain ⟨⟨name, value⟩, -, rfl⟩ := List.mem_map.mp hpiece
      simp
    · rintro _ hpiece
      obtain ⟨⟨name, value⟩, -, rfl⟩ := List.mem_map.mp hpiece
      simp [hand]

end Percent
end ReleaseTracker.Text
