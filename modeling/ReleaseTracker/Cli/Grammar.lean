/-! The form of command lines: commands within commands, and options with values. -/

namespace ReleaseTracker.Cli

inductive ValueKind where
  | integer
  | count
  | oneOf (names : List String)
deriving DecidableEq, Repr

structure OptionForm where
  name : String
  letter : Char
  valueName : String
  about : String
  kind : ValueKind
  required : Bool
deriving DecidableEq, Repr

inductive Form where
  | command (name about : String) (options : List OptionForm)
  | group (name about : String) (commands : List Form)

namespace Form

def name : Form → String
  | .command name _ _ | .group name _ _ => name

def about : Form → String
  | .command _ about _ | .group _ about _ => about

def options : Form → List OptionForm
  | .command _ _ options => options
  | .group _ _ _ => []

def commands : Form → List Form
  | .command _ _ _ => []
  | .group _ _ commands => commands

def isGroup : Form → Bool
  | .command _ _ _ => false
  | .group _ _ _ => true

def find? (form : Form) (name : String) : Option Form := form.commands.find? (·.name = name)

end Form

/-! The forms of this program -/

def concurrencyOption : OptionForm where
  name := "concurrency"
  letter := 'c'
  valueName := "CONCURRENCY"
  about := "Work items processed at once (default from config or 4)"
  kind := .count
  required := false

def idOption (name : String) (letter : Char) (valueName about : String) : OptionForm :=
  ⟨name, letter, valueName, about, .integer, true⟩

def outputOption : OptionForm where
  name := "output"
  letter := 'o'
  valueName := "OUTPUT"
  about := "Output format [default: table]"
  kind := .oneOf ["table", "json"]
  required := false

def migrateForm : Form := .group "migrate" "Run database migrations" [
  .command "up" "Apply all pending migrations" [],
  .command "down" "Rollback the last migration" [],
  .command "status" "Show migration status" [],
  .command "fresh" "Fresh install - drop all tables and reapply migrations" []]

def syncForm : Form := .group "sync" "Run synchronizers directly" [
  .command "stars" "Sync the starred repositories of one user"
    [idOption "user" 'u' "USER" "GitHub account id of the user"],
  .command "versions" "Sync the versions of one repository"
    [idOption "repo" 'r' "REPO" "GitHub id of the repository"],
  .command "all-stars" "Sync the starred repositories of every active user" [concurrencyOption],
  .command "all-versions" "Sync the versions of every active repository" [concurrencyOption]]

def limitsForm : Form :=
  .command "limits" "Show which credential would be selected and its remaining quota"
    [outputOption]

def programForm : Form :=
  .group "starfeed" "Release feeds for starred GitHub repositories"
    [migrateForm, syncForm, limitsForm]

end ReleaseTracker.Cli
