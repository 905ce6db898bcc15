import ReleaseTracker.Json.Basic
import ReleaseTracker.Number.Numeral

/-! Numbers in JSON texts. An integer of 64 bits is exact. Of any other number only as many digits
count as fit into 64 bits; they are rounded to double precision, and then multiplied or divided by
a power of ten, with a rounding at each step, so that the result may differ from the nearest
number. -/

namespace ReleaseTracker.Json

def gather (n : Nat) : List Char → Nat × List Char
  | [] => (n, [])
  | c :: rest =>
    let next := Numeral.value [c] + 10 * n
    if Word.isNatural64 next then gather next rest else (n, c :: rest)

def greatestPower : Nat := 308

def scaled? (x : Binary64) (exponent : Int) : Option Binary64 :=
  if exponent.natAbs ≤ greatestPower then
    let power := Binary64.powerOfTen exponent.natAbs
    if 0 ≤ exponent then
      let product := x.mul power
      if product.isFinite then some product else none
    else some (x.div power)
  else if x.isZero then some x
  else if 0 ≤ exponent then none
  else scaled? (x.div (.powerOfTen greatestPower)) (exponent + greatestPower)
termination_by exponent.natAbs
decreasing_by
  have : greatestPower = 308 := rfl
  omega

def ofNumeral (negative : Bool) (whole part : List Char) (exponent : Option Int) : Json :=
  let (n, dropped) := gather 0 whole
  let signed : Int := if negative then -n else n
  if dropped = [] ∧ part = [] ∧ exponent = none ∧ ¬(negative ∧ n = 0) ∧
      (¬negative ∨ Word.isInteger64 signed) then
    .int signed
  else
    let (digits, unused) := gather n part
    let taken : Int := part.length - unused.length
    match scaled? (.ofQuotient false digits 1) (dropped.length - taken + exponent.getD 0) with
    | some x => .float (if negative then x.negate else x)
    | none => .unreadable

def spanDigits (s : List Char) : List Char × List Char :=
  (s.takeWhile Char.isDigit, s.dropWhile Char.isDigit)

def partFront? : List Char → Option (List Char × List Char)
  | '.' :: rest =>
    let (part, rest) := spanDigits rest
    if part = [] then none else some (part, rest)
  | s => some ([], s)

def exponentFront? : List Char → Option (Option Int × List Char)
  | [] => some (none, [])
  | mark :: rest =>
    if mark = 'e' ∨ mark = 'E' then
      let (negative, rest) := Numeral.sign rest
      let (digits, rest) := spanDigits rest
      if digits = [] then none
      else some (some (Numeral.withSign negative (Numeral.value digits)), rest)
    else some (none, mark :: rest)

def numberFront? (s : List Char) : Option (Json × List Char) := do
  let (negative, s) :=
    match s with
    | '-' :: rest => (true, rest)
    | rest => (false, rest)
  let (whole, s) := spanDigits s
  -- a zero in front stands alone
  if whole = [] ∨ (whole.head? = some '0' ∧ 1 < whole.length) then none
  else
    let (part, s) ← partFront? s
    let (exponent, s) ← exponentFront? s
    return (ofNumeral negative whole part exponent, s)

end ReleaseTracker.Json
