import ReleaseTracker.Number.Binary64

/-! Values in TOML. Dates and times are kept as texts. -/

namespace ReleaseTracker

inductive Scalar where
  | bool (b : Bool)
  | int (n : Int)
  | float (x : Binary64)
  | text (s : String)
deriving DecidableEq, Repr

inductive Toml where
  | scalar (v : Scalar)
  | list (items : List Toml)
  | table (entries : List (String × Toml))
deriving Repr

namespace Toml

mutual

def decEq : (v w : Toml) → Decidable (v = w)
  | .scalar v, .scalar w => decidable_of_iff (v = w) ⟨congrArg _, scalar.inj⟩
  | .list items, .list others =>
    have := decEqItems items others
    decidable_of_iff (items = others) ⟨congrArg _, list.inj⟩
  | .table entries, .table others =>
    have := decEqEntries entries others
    decidable_of_iff (entries = others) ⟨congrArg _, table.inj⟩
  | .scalar _, .list _ | .scalar _, .table _ | .list _, .scalar _ | .list _, .table _
  | .table _, .scalar _ | .table _, .list _ => isFalse nofun

def decEqItems : (items others : List Toml) → Decidable (items = others)
  | [], [] => isTrue rfl
  | v :: items, w :: others =>
    have := decEq v w
    have := decEqItems items others
    decidable_of_iff (v = w ∧ items = others) (by simp)
  | [], _ :: _ | _ :: _, [] => isFalse nofun

def decEqEntries : (entries others : List (String × Toml)) → Decidable (entries = others)
  | [], [] => isTrue rfl
  | (key, v) :: entries, (other, w) :: others =>
    have := decEq v w
    have := decEqEntries entries others
    decidable_of_iff ((key = other ∧ v = w) ∧ entries = others) (by simp)
  | [], _ :: _ | _ :: _, [] => isFalse nofun

end

instance : DecidableEq Toml := decEq

def under? {α : Type} (key : String) (entries : List (String × α)) : Option α :=
  (entries.find? (·.1 = key)).map (·.2)

def putEntry {α : Type} (key : String) (a : α) : List (String × α) → List (String × α)
  | [] => [(key, a)]
  | (other, b) :: rest =>
    if other = key then (key, a) :: rest else (other, b) :: putEntry key a rest

end Toml
end ReleaseTracker
