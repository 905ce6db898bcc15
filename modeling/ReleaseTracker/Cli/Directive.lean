import ReleaseTracker.Cli.Log
import ReleaseTracker.Number.Decimal
import ReleaseTracker.Text.Pattern

/-! Directives of a log filter: an origin, between brackets a span and a field with a value, and a
level behind an equals sign. Any of these may be missing. -/

namespace ReleaseTracker.Cli

structure Directive where
  origin : Option (List Char)
  field : Option (List Char)
  /-- Is it about what happens within a span of work, or about the value of a field? Nothing here
  does, and no field has its value by the time that the filter asks. -/
  elsewhere : Bool
  rank : Nat
deriving DecidableEq, Repr

namespace Directive

def everything : Directive := ⟨none, none, false, Level.trace.rank⟩

def fits (directive : Directive) (r : LogRecord) : Bool :=
  !directive.elsewhere && directive.origin.all (·.isPrefixOf r.origin.toList) &&
    directive.field.all r.hasField

/-- Directives that say more about a record come after others: by the length of the origin, then
by having a field, then by its name. -/
def isBefore (a b : Directive) : Bool :=
  let length (d : Directive) : Nat := (d.origin.map (·.length + 1)).getD 0
  let name (d : Directive) : String := (d.field.map fun name => String.ofList ('=' :: name)).getD ""
  length a < length b || (length a == length b && name a ≤ name b)

inductive Flaw where
  | unreadable
  /-- The program itself breaks down, because it cuts a text within a character. -/
  | crash
deriving DecidableEq, Repr

/-! Pieces -/

def cutAt : List Char → (octet : Nat) → Except Flaw (List Char × List Char)
  | [], octet => if octet = 0 then .ok ([], []) else .error .crash
  | c :: rest, octet =>
    if octet = 0 then .ok ([], c :: rest)
    else if octet < c.utf8Size then .error .crash
    else (cutAt rest (octet - c.utf8Size)).map fun (before, after) => (c :: before, after)

def pieceFrom (s : List Char) (first : Nat) : Except Flaw (List Char) := (cutAt s first).map (·.2)

def piece (s : List Char) (first last : Nat) : Except Flaw (List Char) := do
  let (before, _) ← cutAt s last
  pieceFrom before first

def rank? (word : List Char) : Option Nat :=
  match Numeral.unsigned? word with
  | some n => if n ≤ 5 then some n else none
  | none =>
    if word = [] then some Level.error.rank
    else
      let lower := String.ofList (Text.lowerAscii word)
      ["off", "error", "warn", "info", "debug", "trace"].findIdx? (· = lower)

def withRank (directive : Directive) (word : List Char) : Except Flaw Directive :=
  if word = [] then .ok { directive with rank := Level.trace.rank }
  else
    match rank? word with
    | some rank => .ok { directive with rank }
    | none => .error .unreadable

def ofWord (word : List Char) : Directive :=
  match rank? word with
  | some rank => { everything with rank }
  | none => { everything with origin := some word }

def withField (directive : Directive) (text : List Char) : Except Flaw Directive :=
  if text = [] then .error .unreadable
  else
    match Text.splitOn '=' text with
    | name :: value :: _ =>
      if (Binary64.ofText? value).isSome || Text.isPattern value then
        .ok { directive with field := some name, elsewhere := true }
      else .error .unreadable
    | _ => .ok { directive with field := some text }

/-! Reading -/

inductive Stage where
  | start
  | word (first : Nat)
  | span (first : Nat)
  | field (first : Nat)
  | behindField
  | behindBracket
  | level (first : Nat)

def canBegin (c : Char) : Bool := Text.isAlphanumeric c || ['-', ':', '_'].contains c

def step (s : List Char) (directive : Directive) (octet : Nat) (c : Char) :
    Stage → Except Flaw (Directive × Stage)
  | .start =>
    if c = '[' then .ok (directive, .span (octet + 1))
    else if canBegin c then .ok (directive, .word octet)
    else .error .unreadable
  | .word first =>
    if c = '=' ∨ c = '[' then
      (piece s first octet).map fun origin =>
        ({ directive with origin := some origin },
          if c = '=' then .level (octet + 1) else .span (octet + 1))
    else .ok (directive, .word first)
  | .span first =>
    if c = ']' then
      (piece s first octet).map fun _ => ({ directive with elsewhere := true }, .behindBracket)
    else if c = '\x7b' then
      (piece s first octet).map fun span =>
        ({ directive with elsewhere := span ≠ [] }, .field (octet + 1))
    else .ok (directive, .span first)
  | .field first =>
    if c = '\x7d' then do
      let text ← piece s first octet
      return (← directive.withField text, .behindField)
    else .ok (directive, .field first)
  | .behindField =>
    if c = ']' then .ok (directive, .behindBracket) else .error .unreadable
  | .behindBracket =>
    if c = '=' then .ok (directive, .level (octet + 1)) else .error .unreadable
  | .level first => .ok (directive, .level first)

def finish (s : List Char) (directive : Directive) : Stage → Except Flaw Directive
  | .word first => (pieceFrom s first).map ofWord
  | .behindBracket => .ok directive
  | .level first => do directive.withRank (← pieceFrom s first)
  | _ => .error .unreadable

def readFrom (s : List Char) (directive : Directive) (octet : Nat) (stage : Stage) :
    List Char → Except Flaw Directive
  | [] => finish s directive stage
  | c :: rest => do
    let (directive, stage) ← step s directive octet c stage
    readFrom s directive (octet + c.utf8Size) stage rest

/-- A directive. Octets are counted from the first character that is no blank, but its parts are
taken as many octets from the front. -/
def read (s : List Char) : Except Flaw Directive :=
  readFrom s everything 0 .start (Text.trimEnd (Text.trimStart s))

end Directive
end ReleaseTracker.Cli
