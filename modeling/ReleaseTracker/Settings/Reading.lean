import ReleaseTracker.Settings.Basic
import ReleaseTracker.Settings.Misfit
import ReleaseTracker.Text.LowerCase

/-! Reading a given value as a text, a number or a choice, and the values of a section. -/

namespace ReleaseTracker.Settings

namespace Given

def misfit {α : Type} (found : Given) (flaw : Flaw) : Except Misfit α := .error ⟨[], found, flaw⟩

def text : Given → Except Misfit String
  | .scalar _ (.text s) => .ok s
  | .scalar _ (.int n) => .ok (toString n)
  | .scalar _ (.float x) => .ok x.plainText
  | .scalar _ (.bool b) => .ok (if b then "true" else "false")
  | found => found.misfit .noText

def naturalIn? (s : String) : Option Nat :=
  let lower := Text.lowerCase s
  if lower = "true" ∨ lower = "on" ∨ lower = "yes" then some 1
  else if lower = "false" ∨ lower = "off" ∨ lower = "no" then some 0
  else (Numeral.unsigned? s.toList).filter Word.isNatural64

def natural (found : Given) : Except Misfit Nat :=
  match found with
  | .scalar _ (.int n) => if 0 ≤ n then .ok n.toNat else found.misfit (.negative n)
  | .scalar _ (.bool b) => .ok (if b then 1 else 0)
  | .scalar _ (.float x) => .ok (x.roundWithin 0 Word.greatest64).toNat
  | .scalar _ (.text s) =>
    match naturalIn? s with
    | some n => .ok n
    | none => found.misfit .noNumber
  | _ => found.misfit .noNumber

def natural32 (found : Given) : Except Misfit Nat :=
  found.natural.bind fun n =>
    if Word.isNatural32 n then .ok n else found.misfit (.tooLarge n)

def listing (found : Given) : Except Misfit ListingKind :=
  let named (name : String) : Except Misfit ListingKind :=
    match ListingKind.ofName? name with
    | some kind => .ok kind
    | none => found.misfit (.unknownChoice "ListingKind" name)
  match found with
  | .scalar _ (.text name) | .table _ [(name, _)] => named name
  | _ => found.misfit (.noChoice "ListingKind")

end Given

structure Section where
  values : List (Option Given)
  steps : List Step

namespace Section

/-- A section of a kind: a table that may be missing, or a list in the order of the keys. -/
def ofGiven (kind : String) (keys : List String) : Option Given → Except Misfit Section
  | none => .ok ⟨keys.map fun _ => none, keys.map .key⟩
  | some (.table _ entries) => .ok ⟨keys.map (Toml.under? · entries), keys.map .key⟩
  | some (.list _ items) =>
    let positions := List.range keys.length
    .ok ⟨positions.map (items[·]?), positions.map fun (n : Nat) => .index n⟩
  | some found => found.misfit (.noSection kind)

def value {α : Type} (s : Section) (n : Nat) (read : Given → Except Misfit α) :
    Except Misfit (Option α) :=
  match s.values[n]?.join, s.steps[n]? with
  | some found, some step => ((read found).map some).mapError (·.under step)
  | _, _ => .ok none

def text (s : Section) (n : Nat) : Except Misfit (Option String) :=
  match s.values[n]?.join with
  | some .gap => .ok none
  | _ => s.value n Given.text

end Section
end ReleaseTracker.Settings
