import Mathlib.Logic.Function.Basic
import ReleaseTracker.Text.Utf8

/-! The octets of a text determine it: reading them gives it back, and nothing is replaced. Texts
compare as their octets do. -/

namespace ReleaseTracker.Text.Utf8

variable {v : Nat} {c d : Char}

theorem number_bounds (c : Char) :
    c.toNat < 0xD800 ∨ 0xDFFF < c.toNat ∧ c.toNat < 0x110000 := c.valid

theorem ofNat_toNat_of_lt (h : v < 256) : (UInt8.ofNat v).toNat = v := by
  simpa using h

def later (v : Nat) : UInt8 := UInt8.ofNat (v % 64 + 0x80)

theorem later_toNat (v : Nat) : (later v).toNat = v % 64 + 0x80 :=
  ofNat_toNat_of_lt (by omega)

theorem encodeChar_one (h : c.toNat ≤ 0x7F) :
    String.utf8EncodeChar c = [UInt8.ofNat c.toNat] := if_pos h

theorem encodeChar_two (h : 0x7F < c.toNat) (h' : c.toNat ≤ 0x7FF) :
    String.utf8EncodeChar c = [UInt8.ofNat (c.toNat / 64 % 32 + 0xC0), later c.toNat] :=
  (if_neg (Nat.not_le_of_lt h)).trans (if_pos h')

theorem encodeChar_three (h : 0x7FF < c.toNat) (h' : c.toNat ≤ 0xFFFF) :
    String.utf8EncodeChar c =
      [UInt8.ofNat (c.toNat / 4096 % 16 + 0xE0), later (c.toNat / 64), later c.toNat] :=
  (if_neg (by unfold Char.toNat at h; omega)).trans
    ((if_neg (Nat.not_le_of_lt h)).trans (if_pos h'))

theorem encodeChar_four (h : 0xFFFF < c.toNat) :
    String.utf8EncodeChar c =
      [UInt8.ofNat (c.toNat / 262144 % 8 + 0xF0), later (c.toNat / 4096), later (c.toNat / 64),
        later c.toNat] :=
  (if_neg (by unfold Char.toNat at h; omega)).trans
    ((if_neg (by unfold Char.toNat at h; omega)).trans (if_neg (Nat.not_le_of_lt h)))

variable {least greatest : UInt8} {value : Nat} {b : UInt8} {rest : List UInt8}

theorem readFrom_last (h : least ≤ b ∧ b ≤ greatest) :
    readFrom (some ⟨1, least, greatest, value⟩) (b :: rest) =
      Char.ofNat (value * 64 + (b.toNat - 0x80)) :: readFrom none rest := by
  simp [readFrom, h]

theorem readFrom_later {owed : Nat} (howed : owed ≠ 0) (h : least ≤ b ∧ b ≤ greatest) :
    readFrom (some ⟨owed + 1, least, greatest, value⟩) (b :: rest) =
      readFrom (some ⟨owed, 0x80, 0xBF, value * 64 + (b.toNat - 0x80)⟩) rest := by
  simp [readFrom, h, howed]

theorem readFrom_begun {state : Begun} (h : start b = .begun state) :
    readFrom none (b :: rest) = readFrom (some state) rest := by
  simp [readFrom, h]

theorem later_bounds (v : Nat) : 0x80 ≤ later v ∧ later v ≤ 0xBF := by
  have h := later_toNat v
  constructor
  · rw [UInt8.le_iff_toNat_le, h]
    exact Nat.le_add_left _ _
  · rw [UInt8.le_iff_toNat_le, h]
    exact Nat.add_le_add_right (Nat.le_of_lt_succ (Nat.mod_lt _ (by decide))) _

theorem start_two (h : 0x7F < v) (h' : v ≤ 0x7FF) :
    start (UInt8.ofNat (v / 64 % 32 + 0xC0)) = .begun ⟨1, 0x80, 0xBF, v / 64⟩ := by
  have hb : (UInt8.ofNat (v / 64 % 32 + 0xC0)).toNat = v / 64 + 0xC0 := by
    rw [ofNat_toNat_of_lt (by omega)]
    omega
  simp only [start, hb]
  rw [if_neg (by omega), if_pos (by omega), Nat.add_sub_cancel]

theorem start_three (h : 0x7FF < v) (h' : v ≤ 0xFFFF) (hno : v < 0xD800 ∨ 0xDFFF < v) :
    ∃ least greatest, start (UInt8.ofNat (v / 4096 % 16 + 0xE0)) =
        .begun ⟨2, least, greatest, v / 4096⟩ ∧
      least ≤ later (v / 64) ∧ later (v / 64) ≤ greatest := by
  have hb : (UInt8.ofNat (v / 4096 % 16 + 0xE0)).toNat = v / 4096 + 0xE0 := by
    rw [ofNat_toNat_of_lt (by omega)]
    omega
  have hsecond := later_toNat (v / 64)
  obtain ⟨hleast, hgreatest⟩ := later_bounds (v / 64)
  simp only [start, hb]
  rw [if_neg (by omega), if_neg (by omega)]
  by_cases hlow : v / 4096 = 0
  · rw [if_pos (by omega), hlow]
    refine ⟨_, _, rfl, ?_, hgreatest⟩
    rw [UInt8.le_iff_toNat_le, hsecond]
    simp
    omega
  · by_cases hhigh : v / 4096 = 13
    · rw [if_neg (by omega), if_pos (by omega), hhigh]
      refine ⟨_, _, rfl, hleast, ?_⟩
      rw [UInt8.le_iff_toNat_le, hsecond]
      simp
      omega
    · rw [if_neg (by omega), if_neg (by omega), if_pos (by omega), Nat.add_sub_cancel]
      exact ⟨_, _, rfl, hleast, hgreatest⟩

theorem start_four (h : 0xFFFF < v) (h' : v < 0x110000) :
    ∃ least greatest, start (UInt8.ofNat (v / 262144 % 8 + 0xF0)) =
        .begun ⟨3, least, greatest, v / 262144⟩ ∧
      least ≤ later (v / 4096) ∧ later (v / 4096) ≤ greatest := by
  have hb : (UInt8.ofNat (v / 262144 % 8 + 0xF0)).toNat = v / 262144 + 0xF0 := by
    rw [ofNat_toNat_of_lt (by omega)]
    omega
  have hsecond := later_toNat (v / 4096)
  obtain ⟨hleast, hgreatest⟩ := later_bounds (v / 4096)
  simp only [start, hb]
  rw [if_neg (by omega), if_neg (by omega), if_neg (by omega), if_neg (by omega), if_neg (by omega)]
  by_cases hlow : v / 262144 = 0
  · rw [if_pos (by omega), hlow]
    refine ⟨_, _, rfl, ?_, hgreatest⟩
    rw [UInt8.le_iff_toNat_le, hsecond]
    simp
    omega
  · by_cases hhigh : v / 262144 = 4
    · rw [if_neg (by omega), if_neg (by omega), if_pos (by omega), hhigh]
      refine ⟨_, _, rfl, hleast, ?_⟩
      rw [UInt8.le_iff_toNat_le, hsecond]
      simp
      omega
    · rw [if_neg (by omega), if_pos (by omega), Nat.add_sub_cancel]
      exact ⟨_, _, rfl, hleast, hgreatest⟩

theorem readFrom_encodeChar (c : Char) (rest : List UInt8) :
    readFrom none (String.utf8EncodeChar c ++ rest) = c :: readFrom none rest := by
  have hbounds := number_bounds c
  have hend {n : Nat} (h : n = c.toNat) : Char.ofNat n = c := by rw [h, Char.ofNat_toNat]
  rcases Nat.lt_or_ge 0x7F c.toNat with h1 | h1
  · rcases Nat.lt_or_ge 0x7FF c.toNat with h2 | h2
    · rcases Nat.lt_or_ge 0xFFFF c.toNat with h3 | h3
      · obtain ⟨least, greatest, hstart, hsecond⟩ := start_four h3 (by omega)
        rw [encodeChar_four h3, List.cons_append, readFrom_begun hstart, List.cons_append,
          readFrom_later (by decide) hsecond, List.cons_append,
          readFrom_later (by decide) (later_bounds _), List.cons_append,
          readFrom_last (later_bounds _), List.nil_append, hend]
        simp only [later_toNat, Nat.add_sub_cancel]
        omega
      · obtain ⟨least, greatest, hstart, hsecond⟩ := start_three h2 h3 (by omega)
        rw [encodeChar_three h2 h3, List.cons_append, readFrom_begun hstart, List.cons_append,
          readFrom_later (by decide) hsecond, List.cons_append, readFrom_last (later_bounds _),
          List.nil_append, hend]
        simp only [later_toNat, Nat.add_sub_cancel]
        omega
    · rw [encodeChar_two h1 h2, List.cons_append, readFrom_begun (start_two h1 h2),
        List.cons_append, readFrom_last (later_bounds _), List.nil_append, hend]
      simp only [later_toNat, Nat.add_sub_cancel]
      omega
  · have hstart : start (UInt8.ofNat c.toNat) = .whole c := by
      have hb : (UInt8.ofNat c.toNat).toNat = c.toNat := ofNat_toNat_of_lt (by omega)
      simp only [start, hb]
      rw [if_pos (by omega), Char.ofNat_toNat]
    rw [encodeChar_one h1, List.cons_append, readFrom, hstart, List.nil_append]

theorem read_encode (s : List Char) : read (encode s) = s := by
  induction s with
  | nil => rfl
  | cons c rest ih =>
    rw [encode, List.flatMap_cons, read, readFrom_encodeChar]
    exact congrArg (c :: ·) ih

theorem encode_injective : Function.Injective encode := fun s t h => by
  rw [← read_encode s, h, read_encode]

def Rising (bound : Nat) (octets : Nat → List UInt8) : Prop :=
  ∀ u v, u < v → v < bound → ∀ s t, octets u ++ s < octets v ++ t

theorem rising_lead (bound offset : Nat) (h : bound + offset ≤ 256) :
    Rising bound fun v => [UInt8.ofNat (v % bound + offset)] := by
  intro u v huv hv s t
  refine List.cons_lt_cons_iff.mpr (.inl ?_)
  rw [UInt8.lt_iff_toNat_lt, Nat.mod_eq_of_lt hv, Nat.mod_eq_of_lt (Nat.lt_trans huv hv),
    ofNat_toNat_of_lt (by omega), ofNat_toNat_of_lt (by omega)]
  omega

theorem Rising.later {bound : Nat} {octets : Nat → List UInt8} (h : Rising bound octets) :
    Rising (64 * bound) fun v => octets (v / 64) ++ [Utf8.later v] := by
  intro u v huv hv s t
  simp only [List.append_assoc]
  by_cases heq : u / 64 = v / 64
  · rw [heq]
    refine List.append_left_lt (List.cons_lt_cons_iff.mpr (.inl ?_))
    rw [UInt8.lt_iff_toNat_lt, later_toNat, later_toNat]
    omega
  · exact h _ _ (by omega) (by omega) _ _

theorem encodeChar_lt (h : c < d) (s t : List UInt8) :
    String.utf8EncodeChar c ++ s < String.utf8EncodeChar d ++ t := by
  have hlt : c.toNat < d.toNat := h
  have hbounds := number_bounds d
  -- Of two lengths, the shorter starts lower. At one length, the octets rise with the number.
  have hfirst {u v : Nat} {x y : List UInt8} (huv : u < v) (hv : v < 256) :
      UInt8.ofNat u :: x < UInt8.ofNat v :: y := by
    refine List.cons_lt_cons_iff.mpr (.inl ?_)
    rwa [UInt8.lt_iff_toNat_lt, ofNat_toNat_of_lt (Nat.lt_trans huv hv), ofNat_toNat_of_lt hv]
  rcases Nat.lt_or_ge 0xFFFF c.toNat with h4 | h4
  · rw [encodeChar_four h4, encodeChar_four (by omega)]
    have hrising := (rising_lead 8 0xF0 (by decide)).later.later.later
    simpa [Nat.div_div_eq_div_mul] using hrising _ _ hlt (by omega) s t
  rcases Nat.lt_or_ge 0x7FF c.toNat with h3 | h3
  · rw [encodeChar_three h3 h4]
    rcases Nat.lt_or_ge 0xFFFF d.toNat with hd | hd
    · rw [encodeChar_four hd]
      exact hfirst (by omega) (by omega)
    · rw [encodeChar_three (by omega) hd]
      have hrising := (rising_lead 16 0xE0 (by decide)).later.later
      simpa [Nat.div_div_eq_div_mul] using hrising _ _ hlt (by omega) s t
  rcases Nat.lt_or_ge 0x7F c.toNat with h2 | h2
  · rw [encodeChar_two h2 h3]
    rcases Nat.lt_or_ge 0xFFFF d.toNat with hd | hd
    · rw [encodeChar_four hd]
      exact hfirst (by omega) (by omega)
    rcases Nat.lt_or_ge 0x7FF d.toNat with hd' | hd'
    · rw [encodeChar_three hd' hd]
      exact hfirst (by omega) (by omega)
    · rw [encodeChar_two (by omega) hd']
      simpa using (rising_lead 32 0xC0 (by decide)).later _ _ hlt (by omega) s t
  · rw [encodeChar_one h2]
    rcases Nat.lt_or_ge 0xFFFF d.toNat with hd | hd
    · rw [encodeChar_four hd]
      exact hfirst (by omega) (by omega)
    rcases Nat.lt_or_ge 0x7FF d.toNat with hd' | hd'
    · rw [encodeChar_three hd' hd]
      exact hfirst (by omega) (by omega)
    rcases Nat.lt_or_ge 0x7F d.toNat with hd'' | hd''
    · rw [encodeChar_two hd'' hd']
      exact hfirst (by omega) (by omega)
    · rw [encodeChar_one hd'']
      exact hfirst hlt (by omega)

theorem encode_lt {s t : List Char} (h : s < t) : encode s < encode t := by
  induction s generalizing t with
  | nil =>
    cases t with
    | nil => exact absurd h (List.lt_irrefl _)
    | cons d t =>
      have hne : String.utf8EncodeChar d ≠ [] := String.utf8EncodeChar_ne_nil
      obtain ⟨first, more, hoctets⟩ := List.exists_cons_of_ne_nil hne
      rw [encode, encode, List.flatMap_cons, hoctets]
      exact List.nil_lt_cons _ _
  | cons c s ih =>
    cases t with
    | nil => exact absurd h (List.not_lt_nil _)
    | cons d t =>
      rw [encode, encode, List.flatMap_cons, List.flatMap_cons]
      obtain hlt | ⟨rfl, hlt⟩ := List.cons_lt_cons_iff.mp h
      · exact encodeChar_lt hlt _ _
      · exact List.append_left_lt (ih hlt)

end ReleaseTracker.Text.Utf8
