import ReleaseTracker.Toml.DateTime
import ReleaseTracker.Toml.Fault
import ReleaseTracker.Toml.Leaf
import ReleaseTracker.Text.Search

/-! Values without quotes: numbers, constants, dates and times. What a value is meant to be is told
by its first characters, and then its form is checked. -/

namespace ReleaseTracker.Toml.Bare

structure Part where
  whole : Piece
  octet : Nat
  chars : List Char

namespace Part

def ofPiece (piece : Piece) : Part := ⟨piece, piece.first, piece.chars⟩

def drop (part : Part) (count : Nat) : Part :=
  ⟨part.whole, part.octet + size (part.chars.take count), part.chars.drop count⟩

def front (part : Part) (count : Nat) : Span :=
  ⟨part.octet, part.octet + size (part.chars.take count)⟩

def span (part : Part) : Span := part.front part.chars.length

end Part

def unquoted (piece : Piece) : Fault :=
  -- perhaps only the opening quotes are missing
  let endings := ["\x27\x27\x27", "\"\"\"", "\x27", "\""]
  match endings.find? fun quotes => quotes.toList.isSuffixOf piece.chars with
  | some quotes => .wanting "missing opening quote" [.exact quotes] (.point piece.first)
  | none => .wanting "string values must be quoted" [.named "literal string"] piece.span

/-! Constants -/

def constant (message word : String) (leaf : Leaf) (part : Part) : Except Fault Leaf :=
  if part.chars = word.toList then .ok leaf
  else if part.chars.contains ' ' then .error (unquoted part.whole)
  else .error (.wanting message [.exact word] part.span)

def boolean (b : Bool) (part : Part) : Except Fault Leaf :=
  constant "invalid boolean" (if b then "true" else "false") (.bool b) part

def wordFloat (word : String) (part : Part) : Except Fault Leaf :=
  constant "invalid float" word (.float part.whole.chars) part

/-! Underscores -/

def pieces (octet : Nat) (s : List Char) : List (Nat × List Char) :=
  (Text.splitOn '_' s).foldl
    (fun (read : Nat × List (Nat × List Char)) piece =>
      (read.1 + size piece + 1, read.2 ++ [(read.1, piece)]))
    (octet, []) |>.2

def strayBeside? (isDigit : Char → Bool) (whole : Piece) (octet : Nat) (piece : List Char) :
    Option Span :=
  let behind := octet + size piece
  let isInner := whole.first < octet
  if isInner ∧ (piece.head?.map isDigit) = some false then some ⟨octet - 1, octet⟩
  else if 1 < size piece ∧ behind < whole.last ∧ (piece.getLast?.map isDigit) = some false then
    some ⟨behind, behind + 1⟩
  else if piece = [] ∧ isInner ∧ octet ≠ whole.last then some ⟨octet, octet + 1⟩
  else none

def stray? (isDigit : Char → Bool) (part : Part) : Option Span :=
  let s := part.chars
  let behind := part.span.last
  if ¬s.contains '_' then none
  else if s.head? = some '_' then some ⟨part.whole.first, part.whole.first + 1⟩
  else if 1 < size s ∧ s.getLast? = some '_' then some ⟨behind - 1, behind⟩
  else (pieces part.octet s).findSome? fun (octet, piece) =>
    strayBeside? isDigit part.whole octet piece

def number (isDigit : Char → Bool) (leaf : List Char → Leaf) (part : Part) : Except Fault Leaf :=
  match stray? isDigit part with
  | some span => .error (.wanting "\x60_\x60 may only go between digits" [] span)
  | none => .ok (leaf (part.chars.filter (· ≠ '_')))

def isHexDigit (c : Char) : Bool := (Numeral.hexDigit? c).isSome

def integer (radix : Nat) (part : Part) : Except Fault Leaf :=
  number isHexDigit (.integer radix) part

/-! Decimal numbers -/

def spareZero (part : Part) : Fault := .wanting "unexpected leading zero" [] (part.front 1)

/-- Pass over digits and underscores. At least one digit must be there, and a zero may not be the
first of several where it counts. -/
def passDigits (message : String) (mayLeadZero : Bool) (part : Part) : Except Fault Part :=
  let run := part.chars.takeWhile fun c => c.isDigit || c = '_'
  let count := (run.filter Char.isDigit).length
  if count = 0 then .error (.wanting message [.named "digits"] (part.front 0))
  else if 1 < count ∧ run.head? = some '0' ∧ ¬mayLeadZero then .error (spareZero part)
  else .ok (part.drop run.length)

def passFraction (part : Part) : Except Fault Part :=
  match part.chars with
  | '.' :: _ => passDigits "invalid fraction" true (part.drop 1)
  | _ => .ok part

def passExponent (part : Part) : Except Fault Part :=
  match part.chars with
  | mark :: sign :: _ =>
    if mark = 'e' ∨ mark = 'E' then
      passDigits "invalid exponent" true (part.drop (if sign = '+' ∨ sign = '-' then 2 else 1))
    else .ok part
  | [mark] =>
    if mark = 'e' ∨ mark = 'E' then passDigits "invalid exponent" true (part.drop 1) else .ok part
  | [] => .ok part

def checkFloat (part : Part) : Except Fault Unit := do
  let part ← passDigits "invalid mantissa" false part
  let part ← passFraction part
  let part ← passExponent part
  if part.chars = [] then return
  else .error (.wanting "invalid float" [] part.span)

def float (part : Part) : Except Fault Leaf := do
  checkFloat part
  number Char.isDigit .float (.ofPiece part.whole)

def decimal (part : Part) : Except Fault Leaf :=
  if part.chars.head? = some '0' then .error (spareZero part)
  else integer 10 (.ofPiece part.whole)

def numeral (part : Part) : Except Fault Leaf :=
  let rest := part.chars.dropWhile Char.isDigit
  match rest with
  | [] => decimal part
  | c :: _ =>
    if c = '-' ∨ c = ':' then
      match DateTime.canonical part.whole.chars with
      | .ok chars => .ok (.dateTime (String.ofList chars))
      | .error message => .error (.plain message part.whole.span)
    else if rest.contains ' ' then .error (unquoted part.whole)
    else if rest.any fun c => ['.', 'e', 'E'].contains c then float part
    else if c = '_' then decimal part
    else .error (unquoted part.whole)

/-! Numbers with a radix -/

structure Radix where
  value : Nat
  letter : Char
  name : String

def radixes : List Radix :=
  [⟨16, 'x', "hexadecimal"⟩, ⟨8, 'o', "octal"⟩, ⟨2, 'b', "binary"⟩]

def Radix.isDigit (radix : Radix) (c : Char) : Bool :=
  (Numeral.hexDigit? c).any (· < radix.value)

def Radix.check (radix : Radix) (octet : Nat) : List Char → Except Fault Unit
  | [] => .ok ()
  | c :: rest =>
    if radix.isDigit c || c = '_' then radix.check (octet + 1) rest
    else .error (.plain ("invalid " ++ radix.name ++ " number") (.point octet))

def signedRadix (span : Span) : Fault :=
  .wanting "integers with a radix cannot be signed" [] span

def Radix.number (radix : Radix) (letter : Char) (isSigned : Bool) (part : Part) :
    Except Fault Leaf :=
  let digits := part.drop 2
  if isSigned then .error (signedRadix ((Part.ofPiece part.whole).front 1))
  else if letter ≠ radix.letter then
    .error (.wanting "radix must be lowercase" [.exact (String.ofList ['0', radix.letter])]
      (part.front 2))
  else if digits.chars.head?.any fun c => c = '+' || c = '-' then
    .error (signedRadix (digits.front 1))
  else do
    radix.check digits.octet digits.chars
    integer radix.value digits

def zero (isSigned : Bool) (part : Part) : Except Fault Leaf :=
  match part.chars with
  | [_] => integer 10 (.ofPiece part.whole)
  | _ :: letter :: _ =>
    match radixes.find? (·.letter = letter.toLower) with
    | some radix => radix.number letter isSigned part
    | none =>
      if letter = 'd' ∨ letter = 'D' then
        .error (if isSigned then signedRadix ((Part.ofPiece part.whole).front 1)
          else .wanting "redundant integer number prefix" [] (part.front 2))
      else numeral part
  | [] => .error (unquoted part.whole)

/-! All values -/

def signed (part : Part) : Except Fault Leaf :=
  match part.chars with
  | [] => .error (unquoted part.whole)
  | c :: _ =>
    if c = '+' ∨ c = '-' then .error (.wanting "redundant numeric sign" [] (part.front 1))
    else if c = '0' then zero true part
    else if c = '_' ∨ c.isDigit then numeral part
    else if c = '.' then float (.ofPiece part.whole)
    else if c = 'i' ∨ c = 'I' then wordFloat "inf" part
    else if c = 'n' ∨ c = 'N' then wordFloat "nan" part
    else .error (unquoted part.whole)

def read (piece : Piece) : Except Fault Leaf :=
  let part := Part.ofPiece piece
  match piece.chars with
  | [] => .error (unquoted piece)
  | c :: _ =>
    if c = '+' ∨ c = '-' then signed (part.drop 1)
    else if c = '0' then zero false part
    else if c = '_' ∨ c.isDigit then numeral part
    else if c = '.' then float part
    else if c = 't' ∨ c = 'T' then boolean true part
    else if c = 'f' ∨ c = 'F' then boolean false part
    else if c = 'i' ∨ c = 'I' then wordFloat "inf" part
    else if c = 'n' ∨ c = 'N' then wordFloat "nan" part
    else .error (unquoted piece)

end ReleaseTracker.Toml.Bare
