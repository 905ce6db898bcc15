/-! Reading octets as UTF-8 text. Octets that are no text are replaced: each longest start of a
character that does not go on, and each octet that starts none, becomes one replacement
character. -/

namespace ReleaseTracker.Text.Utf8

def encode (s : List Char) : List UInt8 := s.flatMap String.utf8EncodeChar

structure Begun where
  owed : Nat
  least : UInt8
  greatest : UInt8
  value : Nat
deriving DecidableEq

inductive Start where
  | whole (c : Char)
  | begun (state : Begun)

/-- Read the first octet of a character. The ranges exclude over-long forms, surrogates and numbers
above the last character. -/
def start (b : UInt8) : Start :=
  let n := b.toNat
  if n < 0x80 then .whole (Char.ofNat n)
  else if 0xC2 ≤ n ∧ n ≤ 0xDF then .begun ⟨1, 0x80, 0xBF, n - 0xC0⟩
  else if n = 0xE0 then .begun ⟨2, 0xA0, 0xBF, 0⟩
  else if n = 0xED then .begun ⟨2, 0x80, 0x9F, 0xD⟩
  else if 0xE1 ≤ n ∧ n ≤ 0xEF then .begun ⟨2, 0x80, 0xBF, n - 0xE0⟩
  else if n = 0xF0 then .begun ⟨3, 0x90, 0xBF, 0⟩
  else if 0xF1 ≤ n ∧ n ≤ 0xF3 then .begun ⟨3, 0x80, 0xBF, n - 0xF0⟩
  else if n = 0xF4 then .begun ⟨3, 0x80, 0x8F, 4⟩
  else .whole '\uFFFD'

def readFrom : Option Begun → List UInt8 → List Char
  | none, [] => []
  | some _, [] => ['\uFFFD']
  | none, b :: rest =>
    match start b with
    | .whole c => c :: readFrom none rest
    | .begun state => readFrom (some state) rest
  | some ⟨owed, least, greatest, value⟩, b :: rest =>
    if least ≤ b ∧ b ≤ greatest then
      let value := value * 64 + (b.toNat - 0x80)
      if owed = 1 then Char.ofNat value :: readFrom none rest
      else readFrom (some ⟨owed - 1, 0x80, 0xBF, value⟩) rest
    else
      '\uFFFD' ::
        match start b with
        | .whole c => c :: readFrom none rest
        | .begun state => readFrom (some state) rest

def read (bytes : List UInt8) : List Char := readFrom none bytes

end ReleaseTracker.Text.Utf8
