import ReleaseTracker.Number.Binary64
import ReleaseTracker.Number.Word

/-! JSON values as they stand in a text: the order of fields and repeated names are kept. -/

namespace ReleaseTracker

/-- A JSON value. A number is of double precision if it has a fraction or an exponent, or if it is
too large for an integer of 64 bits. `unreadable` stands where the text is well-formed and can be
passed over, but has no value: a lone surrogate, a number out of range, or nesting that goes too
deep. -/
inductive Json where
  | null
  | bool (b : Bool)
  | int (n : Int)
  | float (x : Binary64)
  | str (s : String)
  | arr (items : List Json)
  | obj (fields : List (String × Json))
  | unreadable
deriving Repr

namespace Json

mutual

def isReadable : Json → Bool
  | .unreadable => false
  | .arr items => allReadable items
  | .obj fields => allFieldsReadable fields
  | _ => true

def allReadable : List Json → Bool
  | [] => true
  | v :: rest => v.isReadable && allReadable rest

def allFieldsReadable : List (String × Json) → Bool
  | [] => true
  | (_, v) :: rest => v.isReadable && allFieldsReadable rest

end

def insertField (name : String) (v : Json) : List (String × Json) → List (String × Json)
  | [] => [(name, v)]
  | (other, w) :: rest =>
    if name = other then (name, v) :: rest
    else if name < other then (name, v) :: (other, w) :: rest
    else (other, w) :: insertField name v rest

mutual

/-- The value with the fields of each object sorted by name; of repeated names the last counts. -/
def canonical : Json → Json
  | .arr items => .arr (canonicalItems items)
  | .obj fields => .obj (canonicalFields [] fields)
  | v => v

def canonicalItems : List Json → List Json
  | [] => []
  | v :: rest => v.canonical :: canonicalItems rest

def canonicalFields (sorted : List (String × Json)) :
    List (String × Json) → List (String × Json)
  | [] => sorted
  | (name, v) :: rest => canonicalFields (insertField name v.canonical sorted) rest

end

def get? (name : String) : Json → Option Json
  | .obj fields => (fields.find? (·.1 = name)).map (·.2)
  | _ => none

def str? : Json → Option String
  | .str s => some s
  | _ => none

def bool? : Json → Option Bool
  | .bool b => some b
  | _ => none

def arr? : Json → Option (List Json)
  | .arr items => some items
  | _ => none

def isNull : Json → Bool
  | .null => true
  | _ => false

def int64? : Json → Option Int
  | .int n => if Word.isInteger64 n then some n else none
  | _ => none

def nat64? : Json → Option Nat
  | .int n => if 0 ≤ n ∧ Word.isNatural64 n.toNat then some n.toNat else none
  | _ => none

end Json
end ReleaseTracker
