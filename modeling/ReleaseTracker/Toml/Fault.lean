/-! What can be wrong with a document, and how that is told: the place, its line with a mark under
it, and a message. -/

namespace ReleaseTracker.Toml

def size (s : List Char) : Nat := s.foldl (fun octets c => octets + c.utf8Size) 0

structure Piece where
  first : Nat
  chars : List Char
deriving DecidableEq, Repr

namespace Piece

def last (piece : Piece) : Nat := piece.first + size piece.chars

def before (piece : Piece) : Piece := ⟨piece.first, []⟩

end Piece

structure Span where
  first : Nat
  last : Nat
deriving DecidableEq, Repr

def Piece.span (piece : Piece) : Span := ⟨piece.first, piece.last⟩

def Span.point (octet : Nat) : Span := ⟨octet, octet⟩

inductive Expected where
  | named (text : String)
  | exact (text : String)
deriving DecidableEq, Repr

def Expected.text : Expected → String
  | .named text => text
  | .exact text => if text = "\n" then "newline" else "\x60" ++ text ++ "\x60"

structure Fault where
  message : String
  expected : Option (List Expected)
  span : Option Span
deriving DecidableEq, Repr

namespace Fault

def plain (message : String) (span : Span) : Fault := ⟨message, none, some span⟩

def wanting (message : String) (expected : List Expected) (span : Span) : Fault :=
  ⟨message, some expected, some span⟩

def fullMessage (fault : Fault) : String :=
  match fault.expected with
  | none => fault.message
  | some [] => fault.message ++ ", expected nothing"
  | some expected => fault.message ++ ", expected " ++ ", ".intercalate (expected.map (·.text))

structure Position where
  line : Nat
  column : Nat
deriving DecidableEq, Repr

def locate (line chars octets : Nat) : (octet : Nat) → List Char → Position
  | _, [] => ⟨line, chars⟩
  | octet, c :: rest =>
    if octet < c.utf8Size then
      -- within a character, the octets of the line are counted
      ⟨line, if octet + 1 = c.utf8Size then chars else octets + octet⟩
    else if c = '\n' then locate (line + 1) 0 0 (octet - 1) rest
    else locate line (chars + 1) (octets + c.utf8Size) (octet - c.utf8Size) rest

def position (source : List Char) (octet : Nat) : Position :=
  if source = [] then ⟨0, octet⟩
  else
    let inside := min octet (size source - 1)
    let found := locate 0 0 0 inside source
    { found with column := found.column + (octet - inside) }

def lineAt (number : Nat) : List Char → List Char
  | [] => []
  | c :: rest =>
    if c = '\n' then if number = 0 then [] else lineAt (number - 1) rest
    else if number = 0 then c :: lineAt number rest
    else lineAt number rest

def spaces (count : Nat) : String := String.ofList (List.replicate count ' ')

def shown (source : List Char) (span : Span) : List String :=
  let at' := position source span.first
  let number := toString (at'.line + 1)
  let line := lineAt at'.line source
  let margin := spaces (number.length + 1) ++ "|"
  -- at least one column is marked, and none behind the octets of the line
  let marks := max 1 (min (span.last - span.first) (size line - at'.column))
  ["TOML parse error at line " ++ number ++ ", column " ++ toString (at'.column + 1), margin,
    number ++ " | " ++ String.ofList line,
    margin ++ spaces (at'.column + 1) ++ String.ofList (List.replicate marks '^')]

def text (fault : Fault) (source : List Char) : String :=
  let place := (fault.span.map (shown source)).getD []
  String.join ((place ++ [fault.fullMessage]).map (· ++ "\n"))

end Fault
end ReleaseTracker.Toml
