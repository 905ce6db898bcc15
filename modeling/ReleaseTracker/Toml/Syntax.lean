import ReleaseTracker.Toml.Token

/-! The structure of a document: lines with headers, and lines with keys and values. Keys and values
themselves are kept as they are written. Where a key is missing, an empty one stands for it, and
where a value is missing, an empty one does. -/

namespace ReleaseTracker.Toml

inductive Style where
  | bare
  | literal
  | basic
  | longLiteral
  | longBasic
deriving DecidableEq, Repr

structure Written where
  style : Style
  piece : Piece
deriving DecidableEq, Repr

inductive Raw where
  | leaf (written : Written)
  | list (items : List Raw)
  | table (entries : List (List Written × Raw))

inductive Line where
  | header (isListed : Bool) (path : List Written)
  | assignment (path : List Written) (value : Raw)

namespace Syntax

def styleOf? : TokenKind → Option Style
  | .atom => some .bare
  | .literal => some .literal
  | .basic => some .basic
  | .longLiteral => some .longLiteral
  | .longBasic => some .longBasic
  | _ => none

def missing (token : Token) : Written := ⟨.bare, token.piece.before⟩

def skipBlank (tokens : List Token) : List Token := tokens.dropWhile (·.kind = .blank)

def exhausted : Fault := ⟨"recursion limit", none, none⟩

/-! Blanks and comments -/

def inComment (c : Char) : Bool := c = '\t' || (0x20 ≤ c.toNat && c ≠ '\x7f')

def checkComment (first : Nat) : List Char → Except Fault Unit
  | [] => .ok ()
  | c :: rest =>
    if inComment c then checkComment (first + c.utf8Size) rest
    else .error (.wanting "invalid comment character" [.named "printable characters"]
      (.point first))

def loneReturn (octet : Nat) : Fault :=
  .wanting "carriage return must be followed by newline" [.exact "\n"] (.point octet)

def checkBreak (token : Token) : Except Fault Unit :=
  if token.piece.chars = ['\r'] then .error (loneReturn token.piece.last) else .ok ()

def comment (token : Token) : Except Fault Unit := checkComment token.piece.first token.piece.chars

def restOfLine : List Token → Except Fault (List Token)
  | [] => .ok []
  | token :: rest =>
    match token.kind with
    | .blank => restOfLine rest
    | .comment => do
      comment token
      restOfLine rest
    | .lineBreak => do
      checkBreak token
      return rest
    | .finish => .ok (token :: rest)
    | _ => .error (.wanting "unexpected key or value" [.exact "\n", .exact "#"] token.before)

/-! Keys -/

mutual

def keys : List Token → List Written × Bool × List Token
  | [] => ([], false, [])
  | token :: rest =>
    match token.kind with
    | .blank => keys rest
    | .dot =>
      let (path, isWhole, rest) := keys rest
      (missing token :: path, isWhole, rest)
    | kind =>
      match styleOf? kind with
      | some style =>
        let (path, isWhole, rest) := furtherKeys rest
        (⟨style, token.piece⟩ :: path, isWhole, rest)
      | none => ([missing token], false, token :: rest)

def furtherKeys : List Token → List Written × Bool × List Token
  | [] => ([], true, [])
  | token :: rest =>
    match token.kind with
    | .blank => furtherKeys rest
    | .dot => keys rest
    | _ => ([], true, token :: rest)

end

/-! Values -/

/-- The characters of a value that is not in quotes, and the tokens behind it. A blank before an
atom belongs to it. -/
def bareChars : List Token → List Char × List Token
  | [] => ([], [])
  | token :: rest =>
    let onward := bareChars rest
    match token.kind, rest with
    | .atom, _ | .dot, _ => (token.piece.chars ++ onward.1, onward.2)
    | .blank, ⟨.atom, _⟩ :: _ => (token.piece.chars ++ onward.1, onward.2)
    | _, _ => ([], token :: rest)

inductive Need where
  | key
  | equals (path : List Written)
  | value (path : List Written)
  | comma

def Need.expected : Need → List Expected
  | .key => [.named "key"]
  | .equals _ => [.exact "="]
  | .value _ => [.named "value"]
  | .comma => [.exact ","]

def misplaced (need : Need) (token : Token) : Fault :=
  let fault (message : String) : Fault := .wanting message need.expected token.before
  match token.kind, need with
  | .comma, _ => fault "extra comma in inline table"
  | .equals, _ => fault "extra assignment between key-value pairs"
  | .closeBracket, .value _ => .wanting "unopened array" [.exact "["] token.before
  | .closeBracket, _ => fault "invalid inline table element"
  | .closeBrace, .value _ => fault "missing value between key-value pairs"
  | _, .equals _ => fault "missing assignment between key-value pairs"
  | .openBrace, _ | .openBracket, _ => fault "missing key for inline table element"
  | _, _ => fault "missing comma between key-value pairs"

def tooDeep (token : Token) : Fault :=
  .plain "cannot recurse further; max recursion depth met" token.span

mutual

def value : (fuel : Nat) → (depth : Nat) → List Token → Except Fault (Raw × List Token)
  | 0, _, _ | _, _, [] => .error exhausted
  | fuel + 1, depth, token :: rest =>
    match token.kind with
    | .blank => value fuel depth rest
    | .comment | .comma | .lineBreak | .finish => .ok (.leaf (missing token), token :: rest)
    | .equals => .error (.wanting "extra \x60=\x60" [] token.span)
    | .closeBrace =>
      .error (.wanting "missing inline table opening" [.exact "\x7b"] token.before)
    | .closeBracket => .error (.wanting "missing array opening" [.exact "["] token.before)
    | .openBracket =>
      if depth = 0 then .error (tooDeep token)
      else (items fuel (depth - 1) true rest).map fun (items, rest) => (.list items, rest)
    | .openBrace =>
      if depth = 0 then .error (tooDeep token)
      else (entries fuel (depth - 1) .key rest).map fun (entries, rest) => (.table entries, rest)
    | .atom | .dot =>
      let (chars, rest) := bareChars (token :: rest)
      .ok (.leaf ⟨.bare, ⟨token.piece.first, chars⟩⟩, rest)
    | kind => .ok (.leaf ⟨(styleOf? kind).getD .bare, token.piece⟩, rest)

def items : (fuel : Nat) → (depth : Nat) → (needsValue : Bool) → List Token →
    Except Fault (List Raw × List Token)
  | 0, _, _, _ | _, _, _, [] => .error exhausted
  | fuel + 1, depth, needsValue, token :: rest =>
    match token.kind with
    | .blank => items fuel depth needsValue rest
    | .comment => do
      comment token
      items fuel depth needsValue rest
    | .lineBreak => do
      checkBreak token
      items fuel depth needsValue rest
    | .finish => .error (.wanting "unclosed array" [.exact "]"] token.span)
    | .comma =>
      if needsValue then .error (.wanting "extra comma in array" [.named "value"] token.span)
      else items fuel depth true rest
    | .equals =>
      .error (.wanting "unexpected \x60=\x60 in array" [.named "value", .exact "]"] token.span)
    | .closeBracket => .ok ([], rest)
    | _ =>
      if needsValue then do
        let (item, rest) ← value fuel depth (token :: rest)
        let (more, rest) ← items fuel depth false rest
        return (item :: more, rest)
      else .error (.wanting "missing comma between array elements" [.exact ","] token.before)

/-- The keys and values of a table up to its brace. A comma may stand behind the last one, and line
breaks and comments anywhere. -/
def entries : (fuel : Nat) → (depth : Nat) → Need → List Token →
    Except Fault (List (List Written × Raw) × List Token)
  | 0, _, _, _ | _, _, _, [] => .error exhausted
  | fuel + 1, depth, need, token :: rest =>
    match token.kind, need with
    | .blank, _ => entries fuel depth need rest
    | .comment, _ => do
      comment token
      entries fuel depth need rest
    | .lineBreak, _ => do
      checkBreak token
      entries fuel depth need rest
    | .finish, _ => .error (.wanting "unclosed inline table" [.exact "\x7d"] token.span)
    | .closeBrace, .key | .closeBrace, .comma => .ok ([], rest)
    | .comma, .comma => entries fuel depth .key rest
    | .equals, .key => entries fuel depth (.value [missing token]) rest
    | .equals, .equals path => entries fuel depth (.value path) rest
    | .openBrace, .key | .openBracket, .key | .closeBracket, .key | .comma, .key =>
      .error (misplaced need token)
    | _, .key =>
      let (path, _, rest) := keys (token :: rest)
      entries fuel depth (.equals path) rest
    | .comma, .value _ | .equals, .value _ | .closeBracket, .value _ | .closeBrace, .value _ =>
      .error (misplaced need token)
    | _, .value path => do
      let (value, rest) ← value fuel depth (token :: rest)
      let (more, rest) ← entries fuel depth .comma rest
      return ((path, value) :: more, rest)
    | _, _ => .error (misplaced need token)

end

/-! Lines -/

def depthLimit : Nat := 80

def closeHeader (isListed : Bool) (lastKey : Written) (tokens : List Token) :
    Except Fault (List Token) :=
  match isListed, tokens with
  | false, ⟨.closeBracket, _⟩ :: rest => .ok rest
  | true, ⟨.closeBracket, _⟩ :: ⟨.closeBracket, _⟩ :: rest => .ok rest
  | true, ⟨.closeBracket, closing⟩ :: _ =>
    .error (.wanting "unclosed array table" [.exact "]"] (.point closing.last))
  | false, _ => .error (.wanting "unclosed table" [.exact "]"] (.point lastKey.piece.last))
  | true, _ => .error (.wanting "unclosed array table" [.exact "]]"] (.point lastKey.piece.last))

def skipLine (tokens : List Token) : List Token :=
  tokens.dropWhile fun token => !([.comment, .lineBreak, .finish].contains token.kind)

def header (tokens : List Token) : Except Fault (Line × List Token) := do
  let (isListed, rest) :=
    match tokens with
    | ⟨.openBracket, _⟩ :: rest => (true, rest)
    | rest => (false, rest)
  let (path, isWhole, rest) := keys rest
  let rest := skipBlank rest
  let isClosed := (rest.head?.map (·.kind)) = some .closeBracket
  -- without a last part, what follows in the line is not looked at, unless the header is closed
  let rest ←
    if isWhole ∨ isClosed then
      closeHeader isListed (path.getLastD ⟨.bare, ⟨0, []⟩⟩) rest
    else .ok (skipLine rest)
  return (.header isListed path, ← restOfLine rest)

def assignment (tokens : List Token) : Except Fault (Line × List Token) := do
  let (path, _, rest) := keys tokens
  match skipBlank rest with
  | [] => .error exhausted
  | token :: rest =>
    if token.kind = .equals then
      let (value, rest) ← value (2 * rest.length + 2) depthLimit rest
      return (.assignment path value, ← restOfLine rest)
    else .error (.wanting "key with no value" [.exact "="] token.before)

def lines : (fuel : Nat) → List Token → Except Fault (List Line)
  | 0, _ | _, [] => .ok []
  | fuel + 1, token :: rest =>
    match token.kind with
    | .finish => .ok []
    | .blank => lines fuel rest
    | .comment => do
      comment token
      lines fuel rest
    | .lineBreak => do
      checkBreak token
      lines fuel rest
    | .openBracket => do
      let (line, rest) ← header rest
      return line :: (← lines fuel rest)
    | .closeBracket => .error (.wanting "missing table open" [.exact "["] token.before)
    | .comma | .openBrace | .closeBrace =>
      .error (.wanting "invalid key-value pair" [.named "key"] token.before)
    | _ => do
      let (line, rest) ← assignment (token :: rest)
      return line :: (← lines fuel rest)

end Syntax

def Line.all (source : List Char) : Except Fault (List Line) :=
  let tokens := Token.all source
  Syntax.lines tokens.length tokens

end ReleaseTracker.Toml
