import ReleaseTracker.Number.Numeral
import ReleaseTracker.Toml.Syntax

/-! Texts in four kinds of quotes: in one line or several, with escapes or without. -/

namespace ReleaseTracker.Toml.Quotation
open Syntax (loneReturn)

structure Cursor where
  octet : Nat
  rest : List Char

namespace Cursor

def here (cursor : Cursor) : Span := .point cursor.octet

def pass (cursor : Cursor) (chars : List Char) : Cursor :=
  ⟨cursor.octet + size chars, cursor.rest.drop chars.length⟩

def passWhile (cursor : Cursor) (holds : Char → Bool) : Cursor :=
  cursor.pass (cursor.rest.takeWhile holds)

end Cursor

def isVisible (c : Char) : Bool := c = '\t' || (0x20 ≤ c.toNat && c ≠ '\x7f')

def inside (message : String) (quote : Char) (length : Nat) (piece : Piece) :
    Except Fault Cursor :=
  let body := piece.chars.drop length
  let quotes := List.replicate length quote
  if quotes.isSuffixOf body then
    .ok ⟨piece.first + length, body.take (body.length - length)⟩
  else .error (.wanting message [.exact (String.singleton quote)] (.point piece.last))

/-! Escapes -/

def escapeNames : List Expected :=
  ["b", "e", "f", "n", "r", "\\", "\"", "x", "u", "U"].map .exact

def letterEscape? (c : Char) : Option Char :=
  if c = 'b' then some '\x08'
  else if c = 't' then some '\t'
  else if c = 'n' then some '\n'
  else if c = 'f' then some '\x0c'
  else if c = 'e' then some '\x1b'
  else if c = 'r' then some '\r'
  else if c = '"' then some '"'
  else if c = '\\' then some '\\'
  else none

def digitCount? (c : Char) : Option Nat :=
  if c = 'x' then some 2 else if c = 'u' then some 4 else if c = 'U' then some 8 else none

def hexadecimal : List Expected := [.named "unicode hexadecimal value"]

def numbered (count : Nat) (cursor : Cursor) : Except Fault (Char × Cursor) :=
  let digits := (cursor.rest.take count).takeWhile fun c => (Numeral.hexDigit? c).isSome
  let behind := cursor.pass digits
  let n := digits.foldl (fun n c => 16 * n + (Numeral.hexDigit? c).getD 0) 0
  if digits.length < count then
    .error (.wanting "too few unicode value digits" hexadecimal behind.here)
  else if n < 0xD800 ∨ (0xDFFF < n ∧ n < 0x110000) then .ok (Char.ofNat n, behind)
  else .error (.wanting "invalid value" hexadecimal cursor.here)

def escape (cursor : Cursor) : Except Fault (Char × Cursor) :=
  let none' : Fault := .wanting "missing escaped value" escapeNames cursor.here
  match cursor.rest with
  | [] => .error none'
  | c :: rest =>
    match digitCount? c, letterEscape? c with
    | some count, _ => numbered count ⟨cursor.octet + 1, rest⟩
    | none, some d => .ok (d, ⟨cursor.octet + 1, rest⟩)
    | none, none => .error none'

/-! Texts of one line -/

def before (c : Char) (read : Except Fault (List Char)) : Except Fault (List Char) :=
  read.map (c :: ·)

def badRun (message : String) (expected : List Expected) (isBad : Char → Bool) (cursor : Cursor) :
    Fault :=
  .wanting message expected ⟨cursor.octet, (cursor.passWhile isBad).octet⟩

def basicFrom : (fuel : Nat) → Cursor → Except Fault (List Char)
  | 0, _ => .ok []
  | fuel + 1, cursor =>
    match cursor.rest with
    | [] => .ok []
    | c :: _ =>
      let next := cursor.pass [c]
      if c = '\\' then do
        let (d, next) ← escape next
        before d (basicFrom fuel next)
      else if isVisible c then before c (basicFrom fuel next)
      else
        .error (badRun "invalid basic string"
          [.named "non-double-quote visible characters", .exact "\\"] (!isVisible ·) cursor)

def basic (piece : Piece) : Except Fault (List Char) := do
  let cursor ← inside "invalid basic string" '"' 1 piece
  basicFrom (cursor.rest.length + 1) cursor

def literalFrom (octet : Nat) : List Char → Except Fault (List Char)
  | [] => .ok []
  | c :: rest =>
    if isVisible c then before c (literalFrom (octet + c.utf8Size) rest)
    else
      .error (.wanting "invalid literal string" [.named "non-single-quote visible characters"]
        (.point octet))

def literal (piece : Piece) : Except Fault (List Char) := do
  let cursor ← inside "invalid literal string" '\x27' 1 piece
  literalFrom cursor.octet cursor.rest

/-! Texts of several lines -/

def passBreak (cursor : Cursor) : Cursor :=
  match cursor.rest with
  | '\n' :: _ => cursor.pass ['\n']
  | '\r' :: '\n' :: _ => cursor.pass ['\r', '\n']
  | _ => cursor

def isSpace (c : Char) : Bool := c = ' ' || c = '\t'

def passBlanks (octet : Nat) : List Char → Except Fault Cursor
  | '\r' :: '\n' :: rest => passBlanks (octet + 2) rest
  | '\r' :: _ => .error (loneReturn (octet + 1))
  | c :: rest =>
    if isSpace c || c = '\n' then passBlanks (octet + 1) rest else .ok ⟨octet, c :: rest⟩
  | [] => .ok ⟨octet, []⟩

def fold (cursor : Cursor) : Except Fault Cursor :=
  let behind := cursor.passWhile isSpace
  match behind.rest with
  | '\n' :: _ | '\r' :: _ => passBlanks behind.octet behind.rest
  | _ => .error (.wanting "invalid multi-line basic string" [.exact "\n"] behind.here)

def inLongBasic (c : Char) : Bool := isVisible c || c = '\n'

def longBasicFrom : (fuel : Nat) → Cursor → Except Fault (List Char)
  | 0, _ => .ok []
  | fuel + 1, cursor =>
    match cursor.rest with
    | [] => .ok []
    | '\\' :: rest =>
      let next := cursor.pass ['\\']
      if (rest.head?.map fun c => isSpace c || c = '\n' || c = '\r') = some true then do
        longBasicFrom fuel (← fold next)
      else do
        let (d, next) ← escape next
        before d (longBasicFrom fuel next)
    | '\r' :: '\n' :: _ =>
      before '\r' (before '\n' (longBasicFrom fuel (cursor.pass ['\r', '\n'])))
    | '\r' :: _ => .error (loneReturn (cursor.octet + 1))
    | c :: _ =>
      if inLongBasic c then before c (longBasicFrom fuel (cursor.pass [c]))
      else
        .error (badRun "invalid multi-line basic string" [.exact "\\", .named "characters"]
          (fun c => !inLongBasic c && c ≠ '\r') cursor)

def longBasic (piece : Piece) : Except Fault (List Char) := do
  let cursor ← inside "invalid multi-line basic string" '"' 3 piece
  let cursor := passBreak cursor
  longBasicFrom (cursor.rest.length + 1) cursor

def longLiteralFrom (octet : Nat) : List Char → Except Fault (List Char)
  | [] => .ok []
  | '\r' :: '\n' :: rest => before '\r' (before '\n' (longLiteralFrom (octet + 2) rest))
  | '\r' :: _ => .error (loneReturn (octet + 1))
  | c :: rest =>
    if isVisible c || c = '\n' then before c (longLiteralFrom (octet + c.utf8Size) rest)
    else
      .error (.wanting "invalid multi-line literal string" [.named "non-single-quote characters"]
        (.point octet))

def longLiteral (piece : Piece) : Except Fault (List Char) := do
  let cursor ← inside "invalid multi-line literal string" '\x27' 3 piece
  let cursor := passBreak cursor
  longLiteralFrom cursor.octet cursor.rest

end ReleaseTracker.Toml.Quotation
