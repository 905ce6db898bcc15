import ReleaseTracker.Number.Numeral
import ReleaseTracker.Text.Search

/-! Whether a text is an address at all: a scheme, and behind two slashes a user, a host and a port.
Blanks around it, and tabs and line breaks within it, do not count. -/

namespace ReleaseTracker.Authority
open Text

def isEdge (c : Char) : Bool := c.toNat ≤ 0x20

def cleaned (s : List Char) : List Char :=
  ((s.dropWhile isEdge).reverse.dropWhile isEdge).reverse.filter
    fun c => !(['\t', '\n', '\r'].contains c)

def isLetter (c : Char) : Bool := c.isAlpha

def inScheme (c : Char) : Bool := c.isAlphanum || ['+', '-', '.'].contains c

def scheme? (s : List Char) : Option (List Char × List Char) :=
  let scheme := s.takeWhile inScheme
  match scheme, s.drop scheme.length with
  | c :: _, ':' :: rest => if isLetter c then some (lowerAscii scheme, rest) else none
  | _, _ => none

/-! Hosts -/

def isOctet (s : List Char) : Bool :=
  s ≠ [] && s.all Char.isDigit && (s.length == 1 || s.head? != some '0') && Numeral.value s < 256

def isQuad (s : List Char) : Bool :=
  let parts := splitOn '.' s
  parts.length == 4 && parts.all isOctet

/-- Is the text the rest of an address of eight pieces, of which some are read? A double colon,
which may stand once, makes up for pieces that lack. -/
def arePieces : (fuel : Nat) → (read : Nat) → (shortened : Bool) → List Char → Bool
  | _, read, shortened, [] => shortened || read == 8
  | 0, _, _, _ => false
  | fuel + 1, read, shortened, c :: rest =>
    let s := c :: rest
    if read = 8 then false
    else if c = ':' then !shortened && arePieces fuel (read + 1) true rest
    else
      let digits := (s.take 4).takeWhile fun d => (Numeral.hexDigit? d).isSome
      match s.drop digits.length with
      | [] => shortened || read + 1 == 8
      | '.' :: _ => digits ≠ [] && read ≤ 6 && isQuad s && (shortened || read + 2 == 8)
      | ':' :: rest => digits ≠ [] && rest ≠ [] && arePieces fuel (read + 1) shortened rest
      | _ => false

def isBracketed (s : List Char) : Bool :=
  match s with
  | ':' :: ':' :: rest => arePieces s.length 1 true rest
  | ':' :: _ | [] => false
  | s => arePieces s.length 0 false s

def foreignToHost : List Char := "\x00\t\n\r #/:<>?@[\\]^|".toList

def isHost (s : List Char) : Bool :=
  match s with
  | '[' :: rest => rest.getLast? = some ']' && isBracketed rest.dropLast
  | s => s.all (!foreignToHost.contains ·)

def splitHost (inside : Bool) : List Char → List Char × List Char
  | [] => ([], [])
  | c :: rest =>
    if ['/', '?', '#'].contains c || (c = ':' && !inside) then ([], c :: rest)
    else
      let (host, rest) := splitHost (c = '[' || (inside && c ≠ ']')) rest
      (c :: host, rest)

def isPort (s : List Char) : Bool :=
  let digits := s.takeWhile Char.isDigit
  let isEnd :=
    match s.drop digits.length with
    | [] => true
    | c :: _ => ['/', '\\', '?', '#'].contains c
  isEnd && Numeral.value digits < 65536

/-- Does the text begin with a host, and a port if a colon follows? A port or a user needs a
host. -/
def hasHost (hasUser : Bool) (s : List Char) : Bool :=
  let (host, rest) := splitHost false s
  isHost host &&
    match rest with
    | ':' :: rest => host ≠ [] && isPort rest
    | _ => host ≠ [] || !hasUser

def isAuthority (s : List Char) : Bool :=
  let authority := s.takeWhile fun c => !(['/', '?', '#'].contains c)
  let host := (authority.reverse.takeWhile (· ≠ '@')).reverse
  let user := authority.take (authority.length - host.length - 1)
  if host.length = authority.length then hasHost false s
  else if user = [] ∧ host = [] then authority.length == s.length
  else hasHost (user ≠ [] && user ≠ [':']) (s.drop (user.length + 1))

def isAddress (scheme : String) (text : String) : Bool :=
  match scheme? (cleaned text.toList) with
  | some (found, rest) =>
    found == scheme.toList &&
      match rest with
      | '/' :: '/' :: rest => isAuthority rest
      | _ => true
  | none => false

end ReleaseTracker.Authority
