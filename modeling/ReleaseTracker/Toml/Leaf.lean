import ReleaseTracker.Number.Decimal
import ReleaseTracker.Number.Word
import ReleaseTracker.Toml.Basic

/-! Values without parts as a document has them. Numbers are kept as texts until all of a document
has been read; only then are they found too large, or not to be numbers at all. -/

namespace ReleaseTracker.Toml

inductive Leaf where
  | text (s : String)
  | bool (b : Bool)
  | dateTime (s : String)
  | integer (radix : Nat) (s : List Char)
  | float (s : List Char)
deriving DecidableEq, Repr

namespace Leaf

def kindName : Leaf → String
  | .text _ => "string"
  | .bool _ => "boolean"
  | .dateTime _ => "datetime"
  | .integer _ _ => "integer"
  | .float _ => "float"

def digitsWithin (radix limit : Nat) (tooFar : String) (n : Nat) : List Char → Except String Nat
  | [] => .ok n
  | c :: rest =>
    match (Numeral.hexDigit? c).filter (· < radix) with
    | none => .error "invalid digit found in string"
    | some digit =>
      let n := n * radix + digit
      if limit < n then .error tooFar else digitsWithin radix limit tooFar n rest

def integer64 (radix : Nat) (s : List Char) : Except String Int :=
  let large := "number too large to fit in target type"
  let small := "number too small to fit in target type"
  match s with
  | [] => .error "cannot parse integer from empty string"
  | ['-'] | ['+'] => .error "invalid digit found in string"
  | '-' :: digits =>
    (digitsWithin radix Word.greatestNegative64 small 0 digits).map fun n => -(n : Int)
  | '+' :: digits | digits =>
    (digitsWithin radix Word.greatestInteger64 large 0 digits).map fun n => (n : Int)

def float64 (s : List Char) : Except String Binary64 :=
  match Binary64.ofText? s with
  | none => .error "invalid float literal"
  | some (.infinite negative) =>
    if s.contains 'n' then .ok (.infinite negative) else .error "floating-point number overflowed"
  | some x => .ok x

def scalar : Leaf → Except String Scalar
  | .text s | .dateTime s => .ok (.text s)
  | .bool b => .ok (.bool b)
  | .integer radix s => (integer64 radix s).map .int
  | .float s => (float64 s).map .float

end Leaf
end ReleaseTracker.Toml
