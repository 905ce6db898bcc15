import ReleaseTracker.Number.Binary64

/-! Positive numbers of single precision, as quotients with 24 significant binary digits. A quotient
is rounded to the nearest one, and of two to the even one. -/

namespace ReleaseTracker.Binary32

def nearest (num den : Nat) : Nat × Nat :=
  if num = 0 then (0, 1)
  else
    let exponent := Binary64.log2Quotient num den - 23
    if 0 ≤ exponent then
      let unit := Nat.pow 2 exponent.toNat
      (Binary64.roundDiv num (den * unit) * unit, 1)
    else
      let unit := Nat.pow 2 (-exponent).toNat
      (Binary64.roundDiv (num * unit) den, unit)

def add (a b : Nat × Nat) : Nat × Nat := nearest (a.1 * b.2 + b.1 * a.2) (a.2 * b.2)

def divide (a : Nat × Nat) (n : Nat) : Nat × Nat := nearest a.1 (a.2 * n)

end ReleaseTracker.Binary32
