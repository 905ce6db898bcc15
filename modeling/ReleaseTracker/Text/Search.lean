/-! Finding one text in another: the first occurrence, cutting there, and replacing every one. -/

namespace ReleaseTracker.Text

/-- The text before the first occurrence of a pattern, and the text from there on. Without an
occurrence the second part is empty. -/
def cutAtFirst (pattern : List Char) : List Char → List Char × List Char
  | [] => ([], [])
  | c :: rest =>
    if pattern.isPrefixOf (c :: rest) then ([], c :: rest)
    else
      let (before, found) := cutAtFirst pattern rest
      (c :: before, found)

def occursIn (pattern : List Char) : List Char → Bool
  | [] => pattern.isEmpty
  | c :: rest => pattern.isPrefixOf (c :: rest) || occursIn pattern rest

/-- Skip some characters, then put `new` for every occurrence of the pattern, from the left. -/
def replaceFrom (pattern new : List Char) : Nat → List Char → List Char
  | _, [] => []
  | skip + 1, _ :: rest => replaceFrom pattern new skip rest
  | 0, c :: rest =>
    if pattern.isPrefixOf (c :: rest) then new ++ replaceFrom pattern new (pattern.length - 1) rest
    else c :: replaceFrom pattern new 0 rest

def replaceAll (pattern new s : List Char) : List Char := replaceFrom pattern new 0 s

def splitOnce (mark : Char) : List Char → Option (List Char × List Char)
  | [] => none
  | c :: rest =>
    if c = mark then some ([], rest)
    else (splitOnce mark rest).map fun (before, after) => (c :: before, after)

def splitOn (mark : Char) : List Char → List (List Char)
  | [] => [[]]
  | c :: rest =>
    if c = mark then [] :: splitOn mark rest
    else
      match splitOn mark rest with
      | [] => [[c]]
      | piece :: pieces => (c :: piece) :: pieces

def dropReturn (s : List Char) : List Char := if s.getLast? = some '\r' then s.dropLast else s

/-- The first line of a text. A line ends in a line feed, and a carriage return right before the
line feed belongs to the end. -/
def firstLine (s : List Char) : List Char :=
  match splitOnce '\n' s with
  | none => s
  | some (line, _) => dropReturn line

def splitLines (s : List Char) : List (List Char) := (splitOn '\n' s).map dropReturn

def lowerAscii (s : List Char) : List Char := s.map Char.toLower

end ReleaseTracker.Text
