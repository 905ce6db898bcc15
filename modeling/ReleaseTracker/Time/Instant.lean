/-! Points in time, the calendar dates they fall on, and times with an offset from UTC. -/

namespace ReleaseTracker

/-- A point in time. From one thousand million on, the nanoseconds count on within a leap second. -/
structure Instant where
  seconds : Int
  nanos : Nat
deriving DecidableEq, Repr

namespace Instant

def isBefore (a b : Instant) : Bool :=
  a.seconds < b.seconds || (a.seconds == b.seconds && a.nanos < b.nanos)

def addSeconds (t : Instant) (n : Int) : Instant := { t with seconds := t.seconds + n }

end Instant

structure Date where
  year : Int
  month : Nat
  day : Nat
deriving DecidableEq, Repr

namespace Date

def isLeap (year : Int) : Bool := year % 4 == 0 && (year % 100 != 0 || year % 400 == 0)

def monthLength (year : Int) (month : Nat) : Nat :=
  if month = 2 then (if isLeap year then 29 else 28)
  else if month = 4 ∨ month = 6 ∨ month = 9 ∨ month = 11 then 30
  else 31

def isReal (d : Date) : Bool :=
  1 ≤ d.month && d.month ≤ 12 && 1 ≤ d.day && d.day ≤ monthLength d.year d.month

/-- Days since 1970-01-01. Years are counted from March, so the leap day comes last. -/
def toDays (d : Date) : Int :=
  let year := if d.month ≤ 2 then d.year - 1 else d.year
  let month : Int := (d.month + 9) % 12
  let era := year / 400
  let yearOfEra := year % 400
  let dayOfYear := (153 * month + 2) / 5 + d.day - 1
  let dayOfEra := yearOfEra * 365 + yearOfEra / 4 - yearOfEra / 100 + dayOfYear
  era * 146097 + dayOfEra - 719468

def ofDays (days : Int) : Date :=
  let shifted := days + 719468
  let era := shifted / 146097
  let dayOfEra := shifted % 146097
  let yearOfEra := (dayOfEra - dayOfEra / 1460 + dayOfEra / 36524 - dayOfEra / 146096) / 365
  let dayOfYear := dayOfEra - (365 * yearOfEra + yearOfEra / 4 - yearOfEra / 100)
  let shiftedMonth := (5 * dayOfYear + 2) / 153
  let day := dayOfYear - (153 * shiftedMonth + 2) / 5 + 1
  let month := if shiftedMonth < 10 then shiftedMonth + 3 else shiftedMonth - 9
  let year := yearOfEra + era * 400
  ⟨if month ≤ 2 then year + 1 else year, month.toNat, day.toNat⟩

end Date

def Instant.firstSecond : Int := Date.toDays ⟨-262143, 1, 1⟩ * 86400

def Instant.lastSecond : Int := Date.toDays ⟨262142, 12, 31⟩ * 86400 + 86399

def Instant.subSeconds? (t : Instant) (n : Int) : Option Instant :=
  let seconds := t.seconds - n
  if Instant.firstSecond ≤ seconds ∧ seconds ≤ Instant.lastSecond then some { t with seconds }
  else none

def Instant.subNanos? (t : Instant) (n : Int) : Option Instant :=
  let rest := (t.nanos : Int) - n
  { t with nanos := (rest % 1000000000).toNat }.subSeconds? (-(rest / 1000000000))

def Instant.longestSpan : Int := 9223372036854775

structure ZonedTime where
  instant : Instant
  offset : Int
deriving DecidableEq, Repr

def ZonedTime.utc (t : Instant) : ZonedTime := ⟨t, 0⟩

end ReleaseTracker
