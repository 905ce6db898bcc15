/-! Whole numbers in digits, with or without a sign. -/

namespace ReleaseTracker.Numeral

def value (digits : List Char) : Nat := digits.foldl (fun n c => 10 * n + (c.toNat - 48)) 0

def hexDigit? (c : Char) : Option Nat :=
  let n := c.toNat
  if 48 ≤ n ∧ n ≤ 57 then some (n - 48)
  else if 65 ≤ n ∧ n ≤ 70 then some (n - 65 + 10)
  else if 97 ≤ n ∧ n ≤ 102 then some (n - 97 + 10)
  else none

def natural? (s : List Char) : Option Nat :=
  if s ≠ [] ∧ s.all Char.isDigit then some (value s) else none

def sign (s : List Char) : Bool × List Char :=
  match s with
  | '-' :: rest => (true, rest)
  | '+' :: rest => (false, rest)
  | rest => (false, rest)

def withSign (negative : Bool) (n : Nat) : Int := if negative then -n else n

def unsigned? (s : List Char) : Option Nat :=
  match s with
  | '+' :: rest => natural? rest
  | rest => natural? rest

def signed? (s : List Char) : Option Int := (natural? (sign s).2).map (withSign (sign s).1)

end ReleaseTracker.Numeral
