import ReleaseTracker.Number.Binary64

/-! The fewest decimal digits that read back as a number of double precision, and the ways of
writing them. -/

namespace ReleaseTracker.Binary64

structure Digits where
  digits : Nat
  count : Nat
  point : Int
deriving DecidableEq, Repr

def quotientLe (a b : Nat × Nat) : Bool := a.1 * b.2 ≤ b.1 * a.2

def scaleTen (n : Nat) (exponent : Int) : Nat × Nat :=
  if 0 ≤ exponent then (n * Nat.pow 10 exponent.toNat, 1) else (n, Nat.pow 10 (-exponent).toNat)

def pointFrom (value : Nat × Nat) : Nat → Int → Int
  | 0, point => point
  | fuel + 1, point =>
    if quotientLe (scaleTen 1 point) value then pointFrom value fuel (point + 1) else point

structure Interval where
  low : Nat × Nat
  high : Nat × Nat
  closed : Bool

def interval (mantissa : Nat) (exponent : Int) : Interval where
  low :=
    if mantissa = Nat.pow 2 52 ∧ -1074 < exponent then scale (4 * mantissa - 1) (exponent - 2)
    else scale (2 * mantissa - 1) (exponent - 1)
  high := scale (2 * mantissa + 1) (exponent - 1)
  closed := mantissa % 2 = 0

def Interval.holds (i : Interval) (x : Nat × Nat) : Bool :=
  if i.closed then quotientLe i.low x && quotientLe x i.high
  else !quotientLe x i.low && !quotientLe i.high x

def nearerAbove (value below above : Nat × Nat) : Bool :=
  let (v, d) := value
  -- value - below ≥ above - value, over the common denominator
  quotientLe (below.1 * above.2 + above.1 * below.2, below.2 * above.2) (2 * v, d)

def onGrid (value : Nat × Nat) (i : Interval) (point : Int) (count : Nat) : Option Nat :=
  let unit := point - count
  let below :=
    if 0 ≤ unit then value.1 / (value.2 * Nat.pow 10 unit.toNat)
    else value.1 * Nat.pow 10 (-unit).toNat / value.2
  let low := scaleTen below unit
  let high := scaleTen (below + 1) unit
  match decide (0 < below) && i.holds low, i.holds high with
  | true, true => some (if nearerAbove value low high then below + 1 else below)
  | true, false => some below
  | false, true => some (below + 1)
  | false, false => none

def firstGrid (value : Nat × Nat) (i : Interval) (point : Int) : Nat → Nat → Digits
  | 0, count => ⟨0, count, point⟩
  | fuel + 1, count =>
    match onGrid value i point count with
    | some digits => ⟨digits, count, point⟩
    | none => firstGrid value i point fuel (count + 1)

def trimmed (d : Digits) : Nat → Digits
  | 0 => d
  | fuel + 1 =>
    if d.digits = Nat.pow 10 d.count ∧ d.count ≠ 0 then ⟨1, 1, d.point + 1⟩
    else if d.digits % 10 = 0 ∧ 1 < d.count then
      trimmed ⟨d.digits / 10, d.count - 1, d.point⟩ fuel
    else d

def shortest (mantissa : Nat) (exponent : Int) : Digits :=
  let value := scale mantissa exponent
  let start : Int := (exponent + mantissa.log2) * 3 / 10 - 2
  let point := pointFrom value 8 start
  trimmed (firstGrid value (interval mantissa exponent) point 17 1) 17

def digitsText (d : Digits) : List Char :=
  let text := Nat.toDigits 10 d.digits
  List.replicate (d.count - text.length) '0' ++ text

def positional (d : Digits) : List Char :=
  let text := digitsText d
  if d.point ≤ 0 then '0' :: '.' :: (List.replicate (-d.point).toNat '0' ++ text)
  else if d.count ≤ d.point then text ++ List.replicate (d.point - d.count).toNat '0'
  else text.take d.point.toNat ++ '.' :: text.drop d.point.toNat

def plainText : Binary64 → String
  | .nan => "NaN"
  | .infinite negative => if negative then "-inf" else "inf"
  | .finite negative mantissa exponent =>
    let digits := if mantissa = 0 then ['0'] else positional (shortest mantissa exponent)
    String.ofList (if negative then '-' :: digits else digits)

/-- A number as JSON has it: a point or an exponent always, and an exponent outside the range from
ten to the minus five to ten to the sixteen. -/
def jsonText : Binary64 → String
  | .finite negative mantissa exponent =>
    let digits :=
      if mantissa = 0 then ['0', '.', '0']
      else
        let d := shortest mantissa exponent
        if d.count ≤ d.point ∧ d.point ≤ 16 then positional d ++ ['.', '0']
        else if -5 < d.point ∧ d.point ≤ 16 then positional d
        else
          let text := digitsText d
          let power := d.point - 1
          let tail := if 1 < d.count then '.' :: text.drop 1 else []
          text.take 1 ++ tail ++ 'e' ::
            ((if power < 0 then ['-'] else []) ++ Nat.toDigits 10 power.natAbs)
    String.ofList (if negative then '-' :: digits else digits)
  | _ => "null"

end ReleaseTracker.Binary64
