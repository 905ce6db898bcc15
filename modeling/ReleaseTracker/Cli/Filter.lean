import ReleaseTracker.Cli.Directive

/-! Which log records are shown: those that a filter lets through by their level, by the part of the
program that they come from, and by the fields that they have. -/

namespace ReleaseTracker.Cli

abbrev Filter := List Directive

namespace Filter

def default : Filter := [⟨some "starfeed".toList, none, false, Level.info.rank⟩]

/-- Directives between commas. Without any, only errors are shown; if one is unreadable, all are
those of the default. The first flaw decides, and a crash leaves no filter. -/
def ofText? (text : String) : Option Filter :=
  match (Text.splitOn ',' text.toList).filter (· ≠ []) with
  | [] => some [⟨none, none, false, Level.error.rank⟩]
  | pieces =>
    match pieces.mapM Directive.read with
    | .ok filter => some filter
    | .error .unreadable => some default
    | .error .crash => none

def deciding? (filter : Filter) (r : LogRecord) : Option Directive :=
  (filter.filter (·.fits r)).foldl
    (fun best directive =>
      match best with
      | none => some directive
      | some other => if other.isBefore directive then some directive else some other) none

def show? (filter : Filter) : Line → Option String
  | .printed text => some text
  | .logged r =>
    match filter.deciding? r with
    | some directive => if r.level.rank ≤ directive.rank then some r.text else none
    | none => none

def shown (filter : Filter) (lines : List Line) : List String :=
  (lines.filterMap filter.show?).flatMap fun text =>
    (Text.splitLines text.toList).map String.ofList

end Filter
end ReleaseTracker.Cli
