import ReleaseTracker.Toml.Fault

/-! The tokens of a document. Every character belongs to one token, and a last one stands for the
end. -/

namespace ReleaseTracker.Toml

inductive TokenKind where
  | dot
  | equals
  | comma
  | openBracket
  | closeBracket
  | openBrace
  | closeBrace
  | blank
  | comment
  | lineBreak
  | literal
  | basic
  | longLiteral
  | longBasic
  | atom
  | finish
deriving DecidableEq, Repr

structure Token where
  kind : TokenKind
  piece : Piece
deriving DecidableEq, Repr

namespace Token

def span (token : Token) : Span := token.piece.span

def before (token : Token) : Span := .point token.piece.first

def joined (c : Char) (parts : List Char × List Char) : List Char × List Char :=
  (c :: parts.1, parts.2)

def cutLiteral : List Char → List Char × List Char
  | [] => ([], [])
  | c :: rest =>
    if c = '\x27' then ([c], rest)
    else if c = '\n' then ([], c :: rest)
    else joined c (cutLiteral rest)

/-- A text in double quotes, behind the first one, up to the second one or the end of the line. A
backslash and a quote do not count behind a backslash. -/
def cutBasic (escaped : Bool) : List Char → List Char × List Char
  | [] => ([], [])
  | c :: rest =>
    if escaped ∧ (c = '\\' ∨ c = '"') then joined c (cutBasic false rest)
    else if c = '"' then ([c], rest)
    else if c = '\n' then ([], c :: rest)
    else joined c (cutBasic (c = '\\') rest)

/-- A text of several lines, behind its opening quotes, up to the closing ones or the end. Up to two
more quotes right behind three belong to it. -/
def cutLong (quote : Char) (escaped : Bool) : List Char → List Char × List Char
  | [] => ([], [])
  | c :: rest =>
    if escaped ∧ (c = '\\' ∨ c = quote) then joined c (cutLong quote false rest)
    else if [quote, quote, quote].isPrefixOf (c :: rest) then
      let closing := ((c :: rest).take 5).takeWhile (· = quote)
      (closing, (c :: rest).drop closing.length)
    else joined c (cutLong quote (quote = '"' ∧ c = '\\') rest)

def isApart (c : Char) : Bool :=
  ['.', '=', ',', '[', ']', '\x7b', '\x7d', ' ', '\t', '#', '\r', '\n'].contains c

def cutWhile (holds : Char → Bool) (s : List Char) : List Char × List Char :=
  (s.takeWhile holds, s.dropWhile holds)

def quoted (opening : List Char) (parts : List Char × List Char) : List Char × List Char :=
  (opening ++ parts.1, parts.2)

def cut (c : Char) (rest : List Char) : TokenKind × List Char × List Char :=
  let s := c :: rest
  match c, rest with
  | '.', _ => (.dot, [c], rest)
  | '=', _ => (.equals, [c], rest)
  | ',', _ => (.comma, [c], rest)
  | '[', _ => (.openBracket, [c], rest)
  | ']', _ => (.closeBracket, [c], rest)
  | '\x7b', _ => (.openBrace, [c], rest)
  | '\x7d', _ => (.closeBrace, [c], rest)
  | ' ', _ | '\t', _ => (.blank, cutWhile (fun c => c = ' ' || c = '\t') s)
  | '#', _ => (.comment, cutWhile (fun c => c ≠ '\r' && c ≠ '\n') s)
  | '\n', _ => (.lineBreak, [c], rest)
  | '\r', '\n' :: more => (.lineBreak, ['\r', '\n'], more)
  | '\r', _ => (.lineBreak, [c], rest)
  | '\x27', '\x27' :: '\x27' :: more =>
    (.longLiteral, quoted (s.take 3) (cutLong '\x27' false more))
  | '"', '"' :: '"' :: more => (.longBasic, quoted (s.take 3) (cutLong '"' false more))
  | '\x27', _ => (.literal, quoted [c] (cutLiteral rest))
  | '"', _ => (.basic, quoted [c] (cutBasic false rest))
  | _, _ => (.atom, cutWhile (!isApart ·) s)

def allFrom : (fuel : Nat) → (first : Nat) → List Char → List Token
  | _, first, [] | 0, first, _ => [⟨.finish, ⟨first, []⟩⟩]
  | fuel + 1, first, c :: rest =>
    let (kind, chars, rest) := cut c rest
    ⟨kind, ⟨first, chars⟩⟩ :: allFrom fuel (first + size chars) rest

def all (source : List Char) : List Token :=
  match source with
  -- a byte order mark
  | '\uFEFF' :: rest => allFrom rest.length '\uFEFF'.utf8Size rest
  | s => allFrom s.length 0 s

end Token
end ReleaseTracker.Toml
