import ReleaseTracker.Number.Decimal
import ReleaseTracker.Number.Word
import ReleaseTracker.Settings.Layer
import ReleaseTracker.Text.LowerCase
import ReleaseTracker.Text.Search

/-! Settings in environment variables. A value that looks like a truth value or a number is one. -/

namespace ReleaseTracker.Settings

def valueOf (text : String) : Scalar :=
  let lower := Text.lowerCase text
  if lower = "true" then .bool true
  else if lower = "false" then .bool false
  else
    match (Numeral.signed? text.toList).filter Word.isInteger64 with
    | some n => .int n
    | none =>
      match Binary64.ofText? text.toList with
      | some x => .float x
      | none => .text text

def variableMark : List Char := "starfeed_".toList

/-- The setting that a variable sets, if it is one of the program's: two underscores part a table
from a key in it. -/
def ofVariable? (name value : String) : Option (Place × Given) :=
  let lower := (Text.lowerCase name).toList
  if variableMark.isPrefixOf lower then
    let key := Text.replaceAll ['_', '_'] ['.'] (lower.drop variableMark.length)
    some (.ofName (String.ofList key), .scalar .environment (valueOf value))
  else none

def Layer.ofEnvironment (environment : List (String × String)) : Layer :=
  environment.filterMap fun (name, value) => ofVariable? name value

end ReleaseTracker.Settings
