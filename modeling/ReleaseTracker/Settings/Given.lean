import ReleaseTracker.Toml.Basic

/-! Settings as they are given, before it is known what they are for: each value with the source
that it comes from. -/

namespace ReleaseTracker.Settings

inductive Origin where
  | file (path : String)
  | environment
deriving DecidableEq, Repr

def Origin.text : Origin → String
  | .file path => path
  | .environment => "the environment"

/-- A value. Tables and lists that came about on the way to another value have no source, and
neither have the gaps of a list. -/
inductive Given where
  | gap
  | scalar (origin : Origin) (v : Scalar)
  | list (origin : Option Origin) (items : List Given)
  | table (origin : Option Origin) (entries : List (String × Given))
deriving Repr

namespace Given

mutual

def decEq : (v w : Given) → Decidable (v = w)
  | .gap, .gap => isTrue rfl
  | .scalar origin v, .scalar other w =>
    decidable_of_iff (origin = other ∧ v = w) (by simp)
  | .list origin items, .list other others =>
    have := decEqItems items others
    decidable_of_iff (origin = other ∧ items = others) (by simp)
  | .table origin entries, .table other others =>
    have := decEqEntries entries others
    decidable_of_iff (origin = other ∧ entries = others) (by simp)
  | .gap, .scalar _ _ | .gap, .list _ _ | .gap, .table _ _ | .scalar _ _, .gap
  | .scalar _ _, .list _ _ | .scalar _ _, .table _ _ | .list _ _, .gap | .list _ _, .scalar _ _
  | .list _ _, .table _ _ | .table _ _, .gap | .table _ _, .scalar _ _
  | .table _ _, .list _ _ => isFalse nofun

def decEqItems : (items others : List Given) → Decidable (items = others)
  | [], [] => isTrue rfl
  | v :: items, w :: others =>
    have := decEq v w
    have := decEqItems items others
    decidable_of_iff (v = w ∧ items = others) (by simp)
  | [], _ :: _ | _ :: _, [] => isFalse nofun

def decEqEntries : (entries others : List (String × Given)) → Decidable (entries = others)
  | [], [] => isTrue rfl
  | (key, v) :: entries, (other, w) :: others =>
    have := decEq v w
    have := decEqEntries entries others
    decidable_of_iff ((key = other ∧ v = w) ∧ entries = others) (by simp)
  | [], _ :: _ | _ :: _, [] => isFalse nofun

end

instance : DecidableEq Given := decEq

mutual

def ofToml (origin : Origin) : Toml → Given
  | .scalar v => .scalar origin v
  | .list items => .list (some origin) (ofItems origin items)
  | .table entries => .table (some origin) (ofEntries origin entries)

def ofItems (origin : Origin) : List Toml → List Given
  | [] => []
  | v :: rest => ofToml origin v :: ofItems origin rest

def ofEntries (origin : Origin) : List (String × Toml) → List (String × Given)
  | [] => []
  | (key, v) :: rest => (key, ofToml origin v) :: ofEntries origin rest

end

def origin? : Given → Option Origin
  | .gap => none
  | .scalar origin _ => some origin
  | .list origin _ => origin
  | .table origin _ => origin

def entries : Given → List (String × Given)
  | .table _ entries => entries
  | _ => []

def items : Given → List Given
  | .list _ items => items
  | _ => []

def isTable : Given → Bool
  | .table _ _ => true
  | _ => false

def isList : Given → Bool
  | .list _ _ => true
  | _ => false

end Given
end ReleaseTracker.Settings
