import ReleaseTracker.Number.Numeral
import ReleaseTracker.Text.Blank
import ReleaseTracker.Time.Instant

/-! Times written as RFC 3339 texts and read from them, or from a laxer form: blanks may stand
before each number and around the colons and hyphens, numbers may be shorter than their field, a
year may have a sign, and the colon in the offset may be missing. -/

namespace ReleaseTracker.Rfc3339
open Text

def padded (width : Nat) (n : Nat) : List Char :=
  let digits := Nat.toDigits 10 n
  List.replicate (width - digits.length) '0' ++ digits

def year (y : Int) : List Char :=
  if 0 ≤ y ∧ y ≤ 9999 then padded 4 y.toNat
  else (if y < 0 then '-' else '+') :: padded 4 y.natAbs

def fraction (nanos : Nat) : List Char :=
  if nanos = 0 then []
  else if nanos % 1000000 = 0 then '.' :: padded 3 (nanos / 1000000)
  else if nanos % 1000 = 0 then '.' :: padded 6 (nanos / 1000)
  else '.' :: padded 9 nanos

def offset (seconds : Int) : List Char :=
  if seconds = 0 then ['Z']
  else
    let minutes := seconds.natAbs / 60
    (if seconds < 0 then '-' else '+') ::
      (padded 2 (minutes / 60) ++ ':' :: padded 2 (minutes % 60))

/-- A time in its own offset. Within a leap second the seconds are 60. -/
def write (t : ZonedTime) : String :=
  let shown := t.instant.seconds + t.offset
  let date := Date.ofDays (shown / 86400)
  let second := (shown % 86400).toNat
  let leap := t.instant.nanos / 1000000000
  String.ofList <|
    year date.year ++ '-' :: padded 2 date.month ++ '-' :: padded 2 date.day ++
    'T' :: padded 2 (second / 3600) ++ ':' :: padded 2 (second / 60 % 60) ++
    ':' :: padded 2 (second % 60 + leap) ++ fraction (t.instant.nanos % 1000000000) ++
    offset t.offset

def writeUtc (t : Instant) : String := write (.utc t)

def number? (most : Nat) (s : List Char) : Option (Nat × List Char) :=
  let digits := (s.take most).takeWhile Char.isDigit
  if digits.isEmpty then none else some (Numeral.value digits, s.drop digits.length)

def literal? (c : Char) (s : List Char) : Option (List Char) :=
  match s with
  | d :: rest => if d = c then some rest else none
  | [] => none

def year? (s : List Char) : Option (Int × List Char) :=
  match s with
  | '-' :: rest => (number? rest.length rest).map fun (n, rest) => (-(n : Int), rest)
  | '+' :: rest => (number? rest.length rest).map fun (n, rest) => ((n : Int), rest)
  | _ => (number? 4 s).map fun (n, rest) => ((n : Int), rest)

def fraction? (s : List Char) : Option (Nat × List Char) :=
  match s with
  | '.' :: rest =>
    let digits := rest.takeWhile Char.isDigit
    if digits.isEmpty then none
    else
      let kept := digits.take 9
      some (Numeral.value kept * Nat.pow 10 (9 - kept.length), rest.dropWhile Char.isDigit)
  | _ => some (0, s)

def offset? (s : List Char) : Option (Int × List Char) :=
  if (s.take 3).map Char.toUpper = ['U', 'T', 'C'] then some (0, s.drop 3)
  else
    let signed (sign : Int) (rest : List Char) : Option (Int × List Char) :=
      match rest with
      | h₁ :: h₂ :: rest =>
        match rest.dropWhile fun c => c = ':' || isBlank c with
        | m₁ :: m₂ :: rest =>
          if [h₁, h₂, m₁, m₂].all Char.isDigit && m₁.toNat < 54 then
            let seconds := Numeral.value [h₁, h₂] * 3600 + Numeral.value [m₁, m₂] * 60
            if seconds < 86400 then some (sign * seconds, rest) else none
          else none
        | _ => none
      | _ => none
    match s with
    | 'Z' :: rest | 'z' :: rest => some (0, rest)
    | '+' :: rest => signed 1 rest
    | '-' :: rest | '−' :: rest => signed (-1) rest
    | _ => none

/-- A time from its date, its time of day and its offset. The date must be in the calendar, in UTC
too; a second may be 60. -/
def time? (date : Date) (hour minute second nanos : Nat) (offset : Int) : Option ZonedTime :=
  if date.isReal ∧ -262143 ≤ date.year ∧ date.year ≤ 262142 ∧
      hour ≤ 23 ∧ minute ≤ 59 ∧ second ≤ 60 then
    let leap := second / 60
    let secondOfDay := hour * 3600 + minute * 60 + (second - leap)
    (Instant.subSeconds? ⟨date.toDays * 86400 + secondOfDay, nanos + leap * 1000000000⟩ offset).map
      (⟨·, offset⟩)
  else none

def parting? : List Char → Option (List Char)
  | 'T' :: rest | 't' :: rest | ' ' :: rest => some rest
  | _ => none

def read (text : String) : Option ZonedTime := do
  let (year, s) ← year? (trimStart text.toList)
  let s ← literal? '-' (trimStart s)
  let (month, s) ← number? 2 (trimStart s)
  let s ← literal? '-' (trimStart s)
  let (day, s) ← number? 2 (trimStart s)
  let s ← parting? s
  let (hour, s) ← number? 2 (trimStart s)
  let s ← literal? ':' (trimStart s)
  let (minute, s) ← number? 2 (trimStart s)
  let s ← literal? ':' (trimStart s)
  let (second, s) ← number? 2 (trimStart s)
  let (nanos, s) ← fraction? s
  let (offset, s) ← offset? (trimStart s)
  if trimStart s = [] then time? ⟨year, month, day⟩ hour minute second nanos offset else none

def digits? (count : Nat) (s : List Char) : Option (Nat × List Char) :=
  let digits := s.take count
  if digits.length = count ∧ digits.all Char.isDigit then some (Numeral.value digits, s.drop count)
  else none

def exactOffset? (s : List Char) : Option (Int × List Char) :=
  match s with
  | 'Z' :: rest | 'z' :: rest => some (0, rest)
  | _ :: _ :: _ :: ':' :: _ :: _ :: rest =>
    (offset? (s.take 6)).bind fun (seconds, left) =>
      if left = [] then some (seconds, rest) else none
  | _ => none

def readExact (text : String) : Option ZonedTime := do
  let (year, s) ← digits? 4 text.toList
  let (month, s) ← digits? 2 (← literal? '-' s)
  let (day, s) ← digits? 2 (← literal? '-' s)
  let (hour, s) ← digits? 2 (← parting? s)
  let (minute, s) ← digits? 2 (← literal? ':' s)
  let (second, s) ← digits? 2 (← literal? ':' s)
  let (nanos, s) ← fraction? s
  let (offset, s) ← exactOffset? s
  if s = [] then time? ⟨year, month, day⟩ hour minute second nanos offset else none

end ReleaseTracker.Rfc3339
