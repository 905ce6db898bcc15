import ReleaseTracker.Time.Rfc3339

/-! Dates and times in TOML: a date, a time of day, or both, and with both an offset. They are read
for their canonical text. The lengths and ranges of numbers are checked once all numbers of a part
are there. -/

namespace ReleaseTracker.Toml.DateTime
open Rfc3339 (padded)

inductive Sign where
  | digits (s : List Char)
  | dash
  | colon
  | t
  | space
  | z
  | plus
  | dot
  | other
deriving DecidableEq, Repr

def Sign.ofChar (c : Char) : Sign :=
  if c = '-' then .dash
  else if c = ':' then .colon
  else if c = 'T' ∨ c = 't' then .t
  else if c = ' ' then .space
  else if c = 'Z' ∨ c = 'z' then .z
  else if c = '+' then .plus
  else if c = '.' then .dot
  else .other

def signs : List Char → List Sign
  | [] => []
  | c :: rest =>
    if c.isDigit then
      match signs rest with
      | .digits s :: more => .digits (c :: s) :: more
      | more => .digits [c] :: more
    else .ofChar c :: signs rest

def wrong {α : Type} (part expected : String) : Except String α :=
  .error ("invalid " ++ part ++ ", expected " ++ expected)

def number (part expected : String) : List Sign → Except String (List Char × List Sign)
  | .digits s :: rest => .ok (s, rest)
  | _ => wrong part expected

def mark (part expected : String) (sign : Sign) : List Sign → Except String (List Sign)
  | [] => wrong part expected
  | found :: rest => if found = sign then .ok rest else wrong part expected

def sized (part expected : String) (count : Nat) (s : List Char) : Except String Nat :=
  if s.length = count then .ok (Numeral.value s) else wrong part expected

def within (part expected : String) (least greatest n : Nat) : Except String Unit :=
  if least ≤ n ∧ n ≤ greatest then .ok () else wrong part expected

/-! Dates -/

def date (year : List Char) (s : List Sign) : Except String (List Char × List Sign) := do
  let (month, s) ← number "date" "month" s
  let s ← mark "date" "\x60-\x60 (MM-DD)" .dash s
  let (day, s) ← number "date" "day" s
  let year ← sized "date" "a four-digit year (YYYY)" 4 year
  let month ← sized "date" "a two-digit month (MM)" 2 month
  let day ← sized "date" "a two-digit day (DD)" 2 day
  within "date" "month between 01 and 12" 1 12 month
  let longest := Date.monthLength year month
  within "date" ("day between 01 and " ++ toString longest) 1 longest day
  return (padded 4 year ++ '-' :: padded 2 month ++ '-' :: padded 2 day, s)

/-! Times of day -/

def optional (sign : Sign) (expected : String) (s : List Sign) :
    Except String (Option (List Char) × List Sign) :=
  match s with
  | found :: rest =>
    if found = sign then (number "time" expected rest).map fun (digits, rest) => (some digits, rest)
    else .ok (none, s)
  | [] => .ok (none, s)

/-- The fraction of a second. Nine digits count, zeros at the end do not, and one digit is always
kept. -/
def fraction (digits : List Char) : List Char :=
  let kept := ((digits.take 9).reverse.dropWhile (· = '0')).reverse
  '.' :: (if kept = [] then ['0'] else kept)

def time (s : List Sign) : Except String (List Char × List Sign) := do
  let (hour, s) ← number "time" "hour" s
  let s ← mark "time" "\x60:\x60 (HH:MM)" .colon s
  let (minute, s) ← number "time" "minute" s
  let (second, s) ← optional .colon "second" s
  let (part, s) ← if second.isSome then optional .dot "nanosecond" s else .ok (none, s)
  let hour ← sized "time" "a two-digit hour (HH)" 2 hour
  let minute ← sized "time" "a two-digit minute (MM)" 2 minute
  let second ← second.mapM (sized "time" "a two-digit second (SS)" 2)
  within "time" "hour between 00 and 23" 0 23 hour
  within "time" "minute between 00 and 59" 0 59 minute
  within "time" "second between 00 and 60" 0 60 (second.getD 0)
  let seconds := (second.map fun second => ':' :: padded 2 second).getD []
  return (padded 2 hour ++ ':' :: padded 2 minute ++ seconds ++ (part.map fraction).getD [], s)

/-! Offsets -/

def offset (sign : Char) (s : List Sign) : Except String (List Char × List Sign) := do
  let (hour, s) ← number "offset" "hour" s
  let s ← mark "offset" "\x60:\x60 (HH:MM)" .colon s
  let (minute, s) ← number "offset" "minute" s
  let hour ← sized "offset" "a two-digit hour (HH)" 2 hour
  let minute ← sized "offset" "a two-digit minute (MM)" 2 minute
  within "offset" "hours between 00 and 23" 0 23 hour
  within "offset" "minutes between 00 and 59" 0 59 minute
  -- nothing is written with a minus sign
  let sign := if hour = 0 ∧ minute = 0 then '+' else sign
  return (sign :: padded 2 hour ++ ':' :: padded 2 minute, s)

def anyOffset : List Sign → Except String (List Char × List Sign)
  | [] => .ok ([], [])
  | .z :: rest => .ok (['Z'], rest)
  | .plus :: rest => offset '+' rest
  | .dash :: rest => offset '-' rest
  | _ => wrong "offset" "\x60Z\x60, +OFFSET, -OFFSET"

/-! All of it -/

def ended (read : List Char × List Sign) : Except String (List Char) :=
  if read.2 = [] then .ok read.1 else .error "invalid datetime"

def afterDate : List Sign → Except String (List Char × List Sign)
  | [] => .ok ([], [])
  | .t :: rest | .space :: rest => do
    let (time, rest) ← time rest
    let (offset, rest) ← anyOffset rest
    return ('T' :: time ++ offset, rest)
  | _ => wrong "date-time" "\x60T\x60 between date and time"

def canonical (s : List Char) : Except String (List Char) := do
  let all := signs s
  let (first, rest) ← number "datetime" "year or hour" all
  let separator := "\x60-\x60 (YYYY-MM) or \x60:\x60 (HH:MM)"
  match rest with
  | .dash :: rest =>
    let (date, rest) ← date first rest
    let (more, rest) ← afterDate rest
    ended (date ++ more, rest)
  | .colon :: _ => ended (← time all)
  | _ => wrong "datetime" separator

end ReleaseTracker.Toml.DateTime
