import ReleaseTracker.Fault
import ReleaseTracker.Hub.Retry

/-! An operation whose attempts end as scripted: a success tells how many attempts came before it.
The last outcome of the script stays. A clock of milliseconds takes the time between them. -/

namespace ReleaseTracker.Rehearsal

structure Attempts where
  script : List (Option String)
  made : Nat
  pauses : List Nat
deriving DecidableEq, Repr

namespace Attempts

def next : List (Option String) → Option String × List (Option String)
  | [] => (none, [])
  | [last] => (last, [last])
  | first :: rest => (first, rest)

def longestPause : Nat := 30 * 365 * 86400 * 1000

def elapsed (nanoseconds : Nat) : Nat :=
  min ((nanoseconds + 999999) / RetryPolicy.perMillisecond) longestPause

def answer : Handler (Repeating String Nat) Fault Attempts
  | .attempt, a =>
    let (outcome, script) := next a.script
    let result : Except String Nat :=
      match outcome with
      | none => .ok a.made
      | some e => .error e
    (.ok result, { a with script, made := a.made + 1 })
  | .pause delay, a => (.ok (), { a with pauses := a.pauses ++ [elapsed delay] })

end Attempts
end ReleaseTracker.Rehearsal
