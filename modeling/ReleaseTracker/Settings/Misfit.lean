import ReleaseTracker.Number.Shortest
import ReleaseTracker.Settings.Place
import ReleaseTracker.Text.Quoted

/-! Settings that do not fit what they are for, and how that is told. -/

namespace ReleaseTracker.Settings

inductive Flaw where
  | noText
  | noNumber
  | negative (n : Int)
  /-- It takes more than 32 bits. -/
  | tooLarge (n : Nat)
  | noSection (name : String)
  | noChoice (choice : String)
  | unknownChoice (choice name : String)
deriving DecidableEq, Repr

structure Misfit where
  place : Place
  found : Given
  flaw : Flaw
deriving DecidableEq, Repr

namespace Misfit

def under (step : Step) (misfit : Misfit) : Misfit := { misfit with place := step :: misfit.place }

def floatText (x : Binary64) : String :=
  let text := x.plainText
  if x.isFinite ∧ ¬text.toList.contains '.' then text ++ ".0" else text

def kindText : Given → String
  | .gap => "unit value"
  | .scalar _ (.bool b) => "boolean \x60" ++ (if b then "true" else "false") ++ "\x60"
  | .scalar _ (.int n) => "integer \x60" ++ toString n ++ "\x60"
  | .scalar _ (.float x) => "floating point \x60" ++ floatText x ++ "\x60"
  | .scalar _ (.text s) => "string " ++ Text.Quoted.encode s
  | .list _ _ => "sequence"
  | .table _ _ => "map"

def flawText (found : Given) : Flaw → String
  | .noText => "invalid type: " ++ kindText found ++ ", expected a string"
  | .noNumber => "invalid type: " ++ kindText found ++ ", expected an integer"
  | .negative n =>
    "invalid type: 64-bit integer \x60" ++ toString n ++
      "\x60, expected an unsigned 64 bit or less integer"
  | .tooLarge n =>
    "invalid type: 64-bit unsigned integer \x60" ++ toString n ++
      "\x60, expected an unsigned 32 bit integer"
  | .noSection name => "invalid type: " ++ kindText found ++ ", expected struct " ++ name
  | .noChoice choice =>
    "value of enum " ++ choice ++
      " should be represented by either string or table with exactly one key"
  | .unknownChoice choice name =>
    "enum " ++ choice ++ " does not have variant constructor " ++ name

def tellsOrigin : Flaw → Bool
  | .noText | .noNumber | .negative _ => true
  | _ => false

def text (misfit : Misfit) : String :=
  let origin := if tellsOrigin misfit.flaw then misfit.found.origin? else none
  flawText misfit.found misfit.flaw ++ " for key \x60" ++ misfit.place.text ++ "\x60" ++
    (origin.map fun origin => " in " ++ origin.text).getD ""

end Misfit
end ReleaseTracker.Settings
