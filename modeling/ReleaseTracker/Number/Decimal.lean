import ReleaseTracker.Number.Binary64
import ReleaseTracker.Number.Numeral
import ReleaseTracker.Text.Search

/-! Texts of numbers of double precision: digits with or without a point, a sign and an exponent, or
a word for infinity or for no number. -/

namespace ReleaseTracker.Binary64

def exponent? : List Char → Option Int
  | [] => some 0
  | mark :: rest => if mark = 'e' ∨ mark = 'E' then Numeral.signed? rest else none

def decimal? (negative : Bool) (s : List Char) : Option Binary64 := do
  let whole := s.takeWhile Char.isDigit
  let (part, rest) :=
    match s.drop whole.length with
    | '.' :: rest => (rest.takeWhile Char.isDigit, rest.dropWhile Char.isDigit)
    | rest => ([], rest)
  let exponent ← exponent? rest
  let digits ← Numeral.natural? (whole ++ part)
  return ofDecimal negative digits (exponent - part.length)

def ofText? (s : List Char) : Option Binary64 :=
  let (negative, rest) := Numeral.sign s
  let lower := Text.lowerAscii rest
  if lower = "inf".toList ∨ lower = "infinity".toList then some (.infinite negative)
  else if lower = "nan".toList then some .nan
  else decimal? negative rest

end ReleaseTracker.Binary64
