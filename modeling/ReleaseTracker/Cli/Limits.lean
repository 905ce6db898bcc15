import ReleaseTracker.Credential.Basic
import ReleaseTracker.Json.Printer

/-! The display of the identity that the next unit of work would use, as a table or in JSON. -/

namespace ReleaseTracker.Cli

structure LimitsRow where
  credential : String
  remaining : String
  threshold : String
  usable : Bool
deriving DecidableEq, Repr

namespace LimitsRow

def thresholdOf : Identity → Nat
  | .app => defaultAppThreshold
  | .user _ _ => defaultUserThreshold

def ofClient (client : SelectedClient) : LimitsRow where
  credential := client.identity.text
  remaining := client.quota.text
  threshold := toString (thresholdOf client.identity)
  usable := client.quota.isUsable

def none : LimitsRow := ⟨"none", "-", "-", false⟩

def usableText (row : LimitsRow) : String := if row.usable then "true" else "false"

def cell (width : Nat) (text : String) : String :=
  " " ++ text ++ String.ofList (List.replicate (width - text.length) ' ') ++ " "

def rowLine (widths : List Nat) (texts : List String) : String :=
  "│" ++ "│".intercalate (List.zipWith cell widths texts) ++ "│"

def rule (left middle right : String) (widths : List Nat) : String :=
  left ++ middle.intercalate
    (widths.map fun width => String.ofList (List.replicate (width + 2) '─')) ++ right

def table (row : LimitsRow) : List String :=
  let names := ["Credential", "Remaining", "Threshold", "Usable"]
  let texts := [row.credential, row.remaining, row.threshold, row.usableText]
  let widths := List.zipWith (fun name text => max name.length text.length) names texts
  [rule "╭" "┬" "╮" widths, rowLine widths names, rule "├" "┼" "┤" widths,
    rowLine widths texts, rule "╰" "┴" "╯" widths]

def json (row : LimitsRow) : List String :=
  Json.prettyFields [("credential", .str row.credential), ("remaining", .str row.remaining),
    ("threshold", .str row.threshold), ("usable", .bool row.usable)]

end LimitsRow
end ReleaseTracker.Cli
