/-! Numbers of double precision: an integer of at most 53 bits times a power of two. A decimal is
rounded to the nearest one, and of two to the even one. -/

namespace ReleaseTracker

inductive Binary64 where
  | finite (negative : Bool) (mantissa : Nat) (exponent : Int)
  | infinite (negative : Bool)
  | nan
deriving DecidableEq, Repr

namespace Binary64

/-- The quotient rounded to the nearest integer, and from the middle to the even one. -/
def roundDiv (num den : Nat) : Nat :=
  let q := num / den
  let r := 2 * (num % den)
  if r < den then q else if den < r then q + 1 else if q % 2 = 0 then q else q + 1

def scale (n : Nat) (exponent : Int) : Nat × Nat :=
  if 0 ≤ exponent then (n * Nat.pow 2 exponent.toNat, 1) else (n, Nat.pow 2 (-exponent).toNat)

def log2Quotient (num den : Nat) : Int :=
  let guess : Int := (num.log2 : Int) - den.log2
  if 0 ≤ guess then (if num < den * Nat.pow 2 guess.toNat then guess - 1 else guess)
  else if num * Nat.pow 2 (-guess).toNat < den then guess - 1
  else guess

def ofQuotient (negative : Bool) (num den : Nat) : Binary64 :=
  if num = 0 then .finite negative 0 (-1074)
  else
    let exponent := max (log2Quotient num den - 52) (-1074)
    let mantissa :=
      if 0 ≤ exponent then roundDiv num (den * Nat.pow 2 exponent.toNat)
      else roundDiv (num * Nat.pow 2 (-exponent).toNat) den
    let (mantissa, exponent) :=
      if mantissa = Nat.pow 2 53 then (Nat.pow 2 52, exponent + 1) else (mantissa, exponent)
    if 971 < exponent then .infinite negative else .finite negative mantissa exponent

def ofDecimal (negative : Bool) (digits : Nat) (exponent : Int) : Binary64 :=
  if digits = 0 then .finite negative 0 (-1074)
  else if 400 < exponent then .infinite negative
  else if 0 ≤ exponent then ofQuotient negative (digits * Nat.pow 10 exponent.toNat) 1
  else if (digits.log2 : Int) + 1100 < -exponent * 3 then .finite negative 0 (-1074)
  else ofQuotient negative digits (Nat.pow 10 (-exponent).toNat)

def powerOfTen (n : Nat) : Binary64 := ofDecimal false 1 n

def mul : Binary64 → Binary64 → Binary64
  | .finite negative m e, .finite _ m' e' =>
    let (num, den) := scale (m * m') (e + e')
    ofQuotient negative num den
  | x, _ => x

def div : Binary64 → Binary64 → Binary64
  | .finite negative m e, .finite _ m' e' =>
    let (num, den) := scale m (e - e')
    ofQuotient negative num (den * m')
  | x, _ => x

def isZero : Binary64 → Bool
  | .finite _ mantissa _ => mantissa = 0
  | _ => false

def isFinite : Binary64 → Bool
  | .finite _ _ _ => true
  | _ => false

def negate : Binary64 → Binary64
  | .finite negative mantissa exponent => .finite (!negative) mantissa exponent
  | .infinite negative => .infinite (!negative)
  | .nan => .nan

def roundWithin (least greatest : Int) : Binary64 → Int
  | .nan => 0
  | .infinite negative => if negative then least else greatest
  | .finite negative mantissa exponent =>
    let (num, den) := scale mantissa exponent
    let n : Int := ((2 * num + den) / (2 * den) : Nat)
    max least (min greatest (if negative then -n else n))

end Binary64
end ReleaseTracker
