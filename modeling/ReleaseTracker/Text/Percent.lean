import ReleaseTracker.Number.Numeral
import ReleaseTracker.Text.Search
import ReleaseTracker.Text.Utf8

/-! Percent-encoding: an octet outside a kept class is written as a percent sign and two hexadecimal
digits. Path segments and form fields keep different classes. -/

namespace ReleaseTracker.Text.Percent

def hexDigit (n : Nat) : Char :=
  if n < 10 then Char.ofNat (n + 48) else Char.ofNat (n - 10 + 65)

def escape (b : UInt8) : List Char := ['%', hexDigit (b.toNat / 16), hexDigit (b.toNat % 16)]

def encode (kept : Char → Bool) (s : List Char) : List Char :=
  s.flatMap fun c => if kept c then [c] else (String.utf8EncodeChar c).flatMap escape

/-- Put octets for the escapes. A percent sign without two digits stands for itself. -/
def decode : List Char → List UInt8
  | [] => []
  | '%' :: high :: low :: rest =>
    match Numeral.hexDigit? high, Numeral.hexDigit? low with
    | some h, some l => UInt8.ofNat (h * 16 + l) :: decode rest
    | _, _ => UInt8.ofNat 37 :: decode (high :: low :: rest)
  | c :: rest => String.utf8EncodeChar c ++ decode rest

/-- The characters that a path segment keeps: printable ASCII without the space, the marks that end
a path, quotes and braces, the separators, and the percent sign itself. -/
def inSegment (c : Char) : Bool :=
  0x20 < c.toNat && c.toNat < 0x7F &&
    !(['"', '#', '<', '>', '?', '\x60', '\x7b', '\x7d', '/', '%', '\\'].contains c)

def segment (s : List Char) : List Char :=
  encode inSegment (s.filter fun c => !(['\t', '\n', '\r'].contains c))

def inForm (c : Char) : Bool :=
  c.isAlphanum || ['*', '-', '.', '_'].contains c

def formField (s : List Char) : List Char :=
  s.flatMap fun c => if c = ' ' then ['+'] else encode inForm [c]

def encodeForm (pairs : List (String × String)) : List Char :=
  ['&'].intercalate
    (pairs.map fun (name, value) => formField name.toList ++ '=' :: formField value.toList)

def formText (s : List Char) : String :=
  String.ofList (Utf8.read (decode (s.map fun c => if c = '+' then ' ' else c)))

/-- The pairs of a form. A piece without an equals sign is a name with an empty value, and empty
pieces are skipped. -/
def decodeForm (s : List Char) : List (String × String) :=
  ((splitOn '&' s).filter (· ≠ [])).map fun piece =>
    match splitOnce '=' piece with
    | some (name, value) => (formText name, formText value)
    | none => (formText piece, "")

end ReleaseTracker.Text.Percent
