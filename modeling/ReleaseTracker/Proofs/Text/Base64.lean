import Mathlib.Tactic.Common
import ReleaseTracker.Proofs.Text.Utf8
import ReleaseTracker.Text.Base64
import ReleaseTracker.Text.Blank

/-! Base64 is read exactly where it is the written form of some octets (`decode_eq_some_iff`). That
form is the one by bits: a sign for each six of them, and marks up to a whole number of four signs
(`padded`). -/

namespace ReleaseTracker.Text
namespace Base64

/-! Signs -/

theorem value?_digit : ∀ n < 64, value? (digit n) = some n := by decide

theorem digit_eq_slash {n : Nat} (h : 63 ≤ n) : digit n = '/' := by
  unfold digit
  repeat rw [if_neg (by omega)]

theorem digit_ne_mark (n : Nat) : digit n ≠ '=' := by
  rcases Nat.lt_or_ge n 63 with h | h
  · revert n
    decide
  · rw [digit_eq_slash h]
    decide

theorem digit_of_value? {c : Char} {n : Nat} (h : value? c = some n) : n < 64 ∧ digit n = c := by
  simp only [value?] at h
  split_ifs at h with hupper hlower hnumeral hplus hslash
  all_goals obtain rfl := Option.some.inj h
  · have hn : c.toNat - 65 < 26 := by omega
    refine ⟨by omega, ?_⟩
    rw [digit, if_pos hn, Nat.sub_add_cancel hupper.1, Char.ofNat_toNat]
  · have hn : ¬ c.toNat - 97 + 26 < 26 := by omega
    have hn' : c.toNat - 97 + 26 < 52 := by omega
    refine ⟨by omega, ?_⟩
    rw [digit, if_neg hn, if_pos hn', Nat.add_sub_cancel, Nat.sub_add_cancel hlower.1,
      Char.ofNat_toNat]
  · have hn : ¬ c.toNat - 48 + 52 < 26 := by omega
    have hn' : ¬ c.toNat - 48 + 52 < 52 := by omega
    have hn'' : c.toNat - 48 + 52 < 62 := by omega
    refine ⟨by omega, ?_⟩
    rw [digit, if_neg hn, if_neg hn', if_pos hn'', Nat.add_sub_cancel,
      Nat.sub_add_cancel hnumeral.1, Char.ofNat_toNat]
  · exact ⟨by decide, hplus.symm⟩
  · exact ⟨by decide, hslash.symm⟩

/-! Reading what is written -/

variable {p q r s : Nat}

theorem decode_two (hp : p < 64) (hq : q < 64) : decode [digit p, digit q, '=', '='] =
    if q % 16 = 0 then some [UInt8.ofNat (p * 4 + q / 16)] else none := by
  rw [decode, value?_digit p hp, value?_digit q hq]
  rfl

theorem decode_three (hp : p < 64) (hq : q < 64) (hr : r < 64) :
    decode [digit p, digit q, digit r, '='] =
      if r % 4 = 0 then
        some [UInt8.ofNat (p * 4 + q / 16), UInt8.ofNat (q % 16 * 16 + r / 4)]
      else none := by
  rw [decode]
  · rw [value?_digit p hp, value?_digit q hq, value?_digit r hr]
    rfl
  · exact digit_ne_mark r

theorem decode_four (hp : p < 64) (hq : q < 64) (hr : r < 64) (hs : s < 64) (rest : List Char) :
    decode (digit p :: digit q :: digit r :: digit s :: rest) =
      (decode rest).map fun bytes => UInt8.ofNat (p * 4 + q / 16) ::
        UInt8.ofNat (q % 16 * 16 + r / 4) :: UInt8.ofNat (r % 4 * 64 + s) :: bytes := by
  rw [decode]
  · rw [value?_digit p hp, value?_digit q hq, value?_digit r hr, value?_digit s hs]
    cases decode rest <;> rfl
  · rintro - hmark
    exact absurd hmark (digit_ne_mark s)
  · intro hmark
    exact absurd hmark (digit_ne_mark s)

theorem ofNat_of_eq_toNat {b : UInt8} {n : Nat} (h : n = b.toNat) : UInt8.ofNat n = b := by
  rw [h, UInt8.ofNat_toNat]

theorem decode_encode (bytes : List UInt8) : decode (encode bytes) = some bytes := by
  induction bytes using encode.induct with
  | case1 => rfl
  | case2 a =>
    have ha := a.toNat_lt
    rw [encode, decode_two (by omega) (by omega), if_pos (by omega),
      ofNat_of_eq_toNat (b := a) (by omega)]
  | case3 a b =>
    have ha := a.toNat_lt
    have hb := b.toNat_lt
    rw [encode, decode_three (by omega) (by omega) (by omega), if_pos (by omega),
      ofNat_of_eq_toNat (b := a) (by omega), ofNat_of_eq_toNat (b := b) (by omega)]
  | case4 a b c rest ih =>
    have ha := a.toNat_lt
    have hb := b.toNat_lt
    have hc := c.toNat_lt
    rw [encode, decode_four (by omega) (by omega) (by omega) (by omega), ih, Option.map_some,
      ofNat_of_eq_toNat (b := a) (by omega), ofNat_of_eq_toNat (b := b) (by omega),
      ofNat_of_eq_toNat (b := c) (by omega)]

/-! Writing what is read -/

theorem encode_two (hp : p < 64) (hq : q < 64) (hunused : q % 16 = 0) :
    encode [UInt8.ofNat (p * 4 + q / 16)] = [digit p, digit q, '=', '='] := by
  have hfirst : (p * 4 + q / 16) / 4 = p := by omega
  have hsecond : (p * 4 + q / 16) % 4 * 16 = q := by omega
  rw [encode, Utf8.ofNat_toNat_of_lt (by omega), hfirst, hsecond]

theorem encode_three (hp : p < 64) (hq : q < 64) (hr : r < 64) (hunused : r % 4 = 0) :
    encode [UInt8.ofNat (p * 4 + q / 16), UInt8.ofNat (q % 16 * 16 + r / 4)] =
      [digit p, digit q, digit r, '='] := by
  have hfirst : (p * 4 + q / 16) / 4 = p := by omega
  have hsecond : (p * 4 + q / 16) % 4 * 16 + (q % 16 * 16 + r / 4) / 16 = q := by omega
  have hthird : (q % 16 * 16 + r / 4) % 16 * 4 = r := by omega
  rw [encode, Utf8.ofNat_toNat_of_lt (by omega), Utf8.ofNat_toNat_of_lt (by omega), hfirst,
    hsecond, hthird]

theorem encode_four (hp : p < 64) (hq : q < 64) (hr : r < 64) (hs : s < 64)
    (bytes : List UInt8) : encode (UInt8.ofNat (p * 4 + q / 16) ::
        UInt8.ofNat (q % 16 * 16 + r / 4) :: UInt8.ofNat (r % 4 * 64 + s) :: bytes) =
      digit p :: digit q :: digit r :: digit s :: encode bytes := by
  have hfirst : (p * 4 + q / 16) / 4 = p := by omega
  have hsecond : (p * 4 + q / 16) % 4 * 16 + (q % 16 * 16 + r / 4) / 16 = q := by omega
  have hthird : (q % 16 * 16 + r / 4) % 16 * 4 + (r % 4 * 64 + s) / 64 = r := by omega
  have hfourth : (r % 4 * 64 + s) % 64 = s := by omega
  rw [encode, Utf8.ofNat_toNat_of_lt (by omega), Utf8.ofNat_toNat_of_lt (by omega),
    Utf8.ofNat_toNat_of_lt (by omega), hfirst, hsecond, hthird, hfourth]

theorem eq_encode_of_decode {text : List Char} {bytes : List UInt8}
    (h : decode text = some bytes) : text = encode bytes := by
  fun_induction decode text generalizing bytes with
  | case1 =>
    obtain rfl := Option.some.inj h
    rfl
  | case2 a b =>
    simp only [Option.bind_eq_bind, Option.bind_eq_some_iff, Option.ite_none_right_eq_some] at h
    obtain ⟨p, ha, q, hb, hunused, hbytes⟩ := h
    obtain rfl := Option.some.inj hbytes
    obtain ⟨hp, rfl⟩ := digit_of_value? ha
    obtain ⟨hq, rfl⟩ := digit_of_value? hb
    exact (encode_two hp hq hunused).symm
  | case3 a b c =>
    simp only [Option.bind_eq_bind, Option.bind_eq_some_iff, Option.ite_none_right_eq_some] at h
    obtain ⟨p, ha, q, hb, r, hc, hunused, hbytes⟩ := h
    obtain rfl := Option.some.inj hbytes
    obtain ⟨hp, rfl⟩ := digit_of_value? ha
    obtain ⟨hq, rfl⟩ := digit_of_value? hb
    obtain ⟨hr, rfl⟩ := digit_of_value? hc
    exact (encode_three hp hq hr hunused).symm
  | case4 a b c d rest _ _ ih =>
    simp only [Option.bind_eq_bind, Option.bind_eq_some_iff] at h
    obtain ⟨p, ha, q, hb, r, hc, s, hd, octets, hoctets, hbytes⟩ := h
    obtain rfl := Option.some.inj hbytes
    obtain ⟨hp, rfl⟩ := digit_of_value? ha
    obtain ⟨hq, rfl⟩ := digit_of_value? hb
    obtain ⟨hr, rfl⟩ := digit_of_value? hc
    obtain ⟨hs, rfl⟩ := digit_of_value? hd
    rw [encode_four hp hq hr hs, ← ih hoctets]
  | case5 => cases h

theorem decode_eq_some_iff {text : List Char} {bytes : List UInt8} :
    decode text = some bytes ↔ text = encode bytes :=
  ⟨eq_encode_of_decode, fun h => h ▸ decode_encode bytes⟩

/-! The written form by bits -/

def alphabet : List Char :=
  "ABCDEFGHIJKLMNOPQRSTUVWXYZabcdefghijklmnopqrstuvwxyz0123456789+/".toList

def bits (b : UInt8) : List Nat := [128, 64, 32, 16, 8, 4, 2, 1].map fun unit => b.toNat / unit % 2

def number (bits : List Nat) : Nat := bits.foldl (fun n bit => 2 * n + bit) 0

def sextets : List Nat → List Nat
  | a :: b :: c :: d :: e :: f :: rest => number [a, b, c, d, e, f] :: sextets rest
  | [] => []
  | rest => [number (rest ++ List.replicate (6 - rest.length) 0)]

def signs (bytes : List UInt8) : List Char :=
  (sextets (bytes.flatMap bits)).map (alphabet.getD · '=')

/-- The padded form of octets: their signs, and as many marks as a whole number of four signs
lacks. -/
def padded (bytes : List UInt8) : List Char :=
  signs bytes ++ List.replicate ((4 - (signs bytes).length % 4) % 4) '='

theorem digit_eq_getD : ∀ n < 64, digit n = alphabet.getD n '=' := by decide

theorem signs_one (a : UInt8) : signs [a] = [digit (a.toNat / 4), digit (a.toNat % 4 * 16)] := by
  have ha := a.toNat_lt
  have hsextets : sextets ([a].flatMap bits) = [a.toNat / 4, a.toNat % 4 * 16] := by
    simp [bits, sextets, number, List.replicate]
    omega
  rw [signs, hsextets, digit_eq_getD _ (by omega), digit_eq_getD _ (by omega)]
  rfl

theorem signs_two (a b : UInt8) : signs [a, b] = [digit (a.toNat / 4),
    digit (a.toNat % 4 * 16 + b.toNat / 16), digit (b.toNat % 16 * 4)] := by
  have ha := a.toNat_lt
  have hb := b.toNat_lt
  have hsextets : sextets ([a, b].flatMap bits) =
      [a.toNat / 4, a.toNat % 4 * 16 + b.toNat / 16, b.toNat % 16 * 4] := by
    simp [bits, sextets, number, List.replicate]
    omega
  rw [signs, hsextets, digit_eq_getD _ (by omega), digit_eq_getD _ (by omega),
    digit_eq_getD _ (by omega)]
  rfl

theorem signs_three (a b c : UInt8) (rest : List UInt8) : signs (a :: b :: c :: rest) =
    digit (a.toNat / 4) :: digit (a.toNat % 4 * 16 + b.toNat / 16) ::
      digit (b.toNat % 16 * 4 + c.toNat / 64) :: digit (c.toNat % 64) :: signs rest := by
  have ha := a.toNat_lt
  have hb := b.toNat_lt
  have hc := c.toNat_lt
  have hsextets : sextets ((a :: b :: c :: rest).flatMap bits) =
      a.toNat / 4 :: (a.toNat % 4 * 16 + b.toNat / 16) :: (b.toNat % 16 * 4 + c.toNat / 64) ::
        c.toNat % 64 :: sextets (rest.flatMap bits) := by
    simp [bits, sextets, number]
    omega
  rw [signs, hsextets, digit_eq_getD _ (by omega), digit_eq_getD _ (by omega),
    digit_eq_getD _ (by omega), digit_eq_getD _ (by omega)]
  rfl

theorem padded_eq_encode (bytes : List UInt8) : padded bytes = encode bytes := by
  induction bytes using encode.induct with
  | case1 => rfl
  | case2 a =>
    rw [padded, signs_one]
    rfl
  | case3 a b =>
    rw [padded, signs_two]
    rfl
  | case4 a b c rest ih =>
    rw [encode, ← ih, padded, padded, signs_three]
    simp only [List.length_cons, List.cons_append, Nat.add_assoc, Nat.reduceAdd,
      Nat.add_mod_right]

theorem isBlank_of_mem_padded {bytes : List UInt8} {c : Char} (h : c ∈ padded bytes) :
    isBlank c = false := by
  have hsigns : ('=' :: alphabet).all (!isBlank ·) = true := by decide
  suffices hc : c ∈ '=' :: alphabet by simpa using List.all_eq_true.mp hsigns c hc
  rcases List.mem_append.mp h with hsign | hmark
  · obtain ⟨n, -, rfl⟩ := List.mem_map.mp hsign
    rw [List.getD_eq_getElem?_getD]
    cases hn : alphabet[n]? with
    | none => exact List.mem_cons_self
    | some d => exact List.mem_cons_of_mem _ (List.mem_of_getElem? hn)
  · rw [List.eq_of_mem_replicate hmark]
    exact List.mem_cons_self

end Base64

/-! Blanks put in -/

inductive Spaced : List Char → List Char → Prop
  | nil : Spaced [] []
  | keep (c : Char) {s t : List Char} (rest : Spaced s t) : Spaced (c :: s) (c :: t)
  | blank {c : Char} {s t : List Char} (isBlank : isBlank c = true) (rest : Spaced s t) :
      Spaced s (c :: t)

theorem Spaced.dropBlanks_eq {s t : List Char} (h : Spaced s t)
    (hs : ∀ c ∈ s, isBlank c = false) : dropBlanks t = s := by
  induction h with
  | nil => rfl
  | keep c _ ih =>
    obtain ⟨hc, hrest⟩ := List.forall_mem_cons.mp hs
    rw [dropBlanks, List.filter_cons_of_pos (by simpa using hc)]
    exact congrArg (c :: ·) (ih hrest)
  | blank hblank _ ih =>
    rw [dropBlanks, List.filter_cons_of_neg (by simpa using hblank)]
    exact ih hs

theorem spaced_dropBlanks (t : List Char) : Spaced (dropBlanks t) t := by
  induction t with
  | nil => exact .nil
  | cons c rest ih =>
    by_cases hblank : isBlank c = true
    · rw [dropBlanks, List.filter_cons_of_neg (by simpa using hblank)]
      exact .blank hblank ih
    · rw [dropBlanks, List.filter_cons_of_pos (by simpa using hblank)]
      exact .keep c ih

theorem spaced_padded_iff {bytes : List UInt8} {t : List Char} :
    Spaced (Base64.padded bytes) t ↔ dropBlanks t = Base64.padded bytes := by
  constructor
  · exact fun h => h.dropBlanks_eq fun c hc => Base64.isBlank_of_mem_padded hc
  · intro h
    rw [← h]
    exact spaced_dropBlanks t

end ReleaseTracker.Text
