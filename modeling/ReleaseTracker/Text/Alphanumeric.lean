import ReleaseTracker.Text.Alphanumeric.Numerals
import ReleaseTracker.Text.Alphanumeric.Table

/-! Letters and numerals of all scripts. -/

namespace ReleaseTracker.Text

def Alphanumeric.within (ranges : List (Nat × Nat)) (c : Char) : Bool :=
  ranges.any fun (first, last) => first ≤ c.toNat && c.toNat ≤ last

def isAlphanumeric (c : Char) : Bool :=
  c.isAlphanum || Alphanumeric.within Alphanumeric.ranges c

def isLetter (c : Char) : Bool :=
  c.isAlpha || (Alphanumeric.within Alphanumeric.ranges c &&
    !Alphanumeric.within Alphanumeric.numeralRanges c)

end ReleaseTracker.Text
