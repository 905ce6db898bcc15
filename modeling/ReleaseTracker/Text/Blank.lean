/-! White space as the standard lists it: trimming the end of a text and dropping the blanks in
it. -/

namespace ReleaseTracker.Text

def isBlank (c : Char) : Bool :=
  let n := c.toNat
  (9 ≤ n && n ≤ 13) || n == 0x20 || n == 0x85 || n == 0xA0 || n == 0x1680 ||
    (0x2000 ≤ n && n ≤ 0x200A) || n == 0x2028 || n == 0x2029 || n == 0x202F || n == 0x205F ||
    n == 0x3000

def trimStart (s : List Char) : List Char := s.dropWhile isBlank

def trimEnd : List Char → List Char
  | [] => []
  | c :: rest =>
    match trimEnd rest with
    | [] => if isBlank c then [] else [c]
    | kept => c :: kept

def allBlank (s : List Char) : Bool := s.all isBlank

def dropBlanks (s : List Char) : List Char := s.filter (!isBlank ·)

end ReleaseTracker.Text
