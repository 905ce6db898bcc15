/-! The ranges of integers of fixed width. -/

namespace ReleaseTracker.Word

def size32 : Nat := 4294967296

def greatest64 : Nat := 18446744073709551615

def greatestInteger64 : Nat := 9223372036854775807

def greatestNegative64 : Nat := 9223372036854775808

def isNatural32 (n : Nat) : Bool := n < size32

/-- One more in 32 bits. After the greatest number comes zero. -/
def next32 (n : Nat) : Nat := (n + 1) % size32

theorem next32_eq {n : Nat} (h : n + 1 < size32) : next32 n = n + 1 := Nat.mod_eq_of_lt h

def isNatural64 (n : Nat) : Bool := n ≤ greatest64

def isInteger64 (n : Int) : Bool := -9223372036854775808 ≤ n && n ≤ 9223372036854775807

end ReleaseTracker.Word
