import ReleaseTracker.Toml.Bare
import ReleaseTracker.Toml.Node
import ReleaseTracker.Toml.Quotation

/-! Reading a TOML document. The structure of all lines is read first, then their keys and values,
and at last the numbers in them; the first fault that is met ends it. -/

namespace ReleaseTracker.Toml

/-! Keys -/

def bareKeyMembers : List Expected :=
  [.named "letters", .named "numbers", .exact "-", .exact "_"]

def inBareKey (c : Char) : Bool := c.isAlphanum || c = '_' || c = '-'

def checkBareKey (octet : Nat) : List Char → Except Fault Unit
  | [] => .ok ()
  | c :: rest =>
    if inBareKey c then checkBareKey (octet + c.utf8Size) rest
    else
      .error (.wanting "invalid unquoted key" bareKeyMembers ⟨octet, octet + c.utf8Size⟩)

def longKey (kind : String) (piece : Piece) : Fault :=
  .wanting ("keys cannot be multi-line " ++ kind ++ " strings")
    [.named "basic string", .named "literal string"] piece.span

def Written.key (written : Written) : Except Fault Key := do
  let piece := written.piece
  let chars ←
    match written.style with
    | .bare =>
      if piece.chars = [] then
        .error (.wanting "unquoted keys cannot be empty" bareKeyMembers piece.span)
      else (checkBareKey piece.first piece.chars).map fun _ => piece.chars
    | .literal => Quotation.literal piece
    | .basic => Quotation.basic piece
    | .longLiteral => .error (longKey "literal" piece)
    | .longBasic => .error (longKey "basic" piece)
  return ⟨String.ofList chars, piece.span⟩

def keyOf (path : List Written) : Except Fault (List Key × Key) := do
  let keys ← (path.take (Syntax.depthLimit + 1)).mapM Written.key
  match keys.getLast? with
  | some key =>
    if Syntax.depthLimit < keys.length then .error Syntax.exhausted
    else return (keys.dropLast, key)
  | none => .error Syntax.exhausted

/-! Values -/

def Written.leaf (written : Written) : Except Fault Leaf :=
  let text (chars : Except Fault (List Char)) : Except Fault Leaf :=
    chars.map fun chars => .text (String.ofList chars)
  match written.style with
  | .bare => Bare.read written.piece
  | .literal => text (Quotation.literal written.piece)
  | .basic => text (Quotation.basic written.piece)
  | .longLiteral => text (Quotation.longLiteral written.piece)
  | .longBasic => text (Quotation.longBasic written.piece)

mutual

def Raw.node : Raw → Except Fault Node
  | .leaf written => written.leaf.map .leaf
  | .list items => (rawItems items).map (.list false)
  | .table entries => (rawEntries entries .inline).map (·.node)

def rawItems : List Raw → Except Fault (List Node)
  | [] => .ok []
  | item :: rest => do
    let node ← item.node
    return node :: (← rawItems rest)

def rawEntries : List (List Written × Raw) → Table → Except Fault Table
  | [], outer => .ok outer
  | (path, raw) :: rest, outer => do
    let (path, key) ← keyOf path
    let node ← raw.node
    rawEntries rest (← outer.assign true path key node)

end

/-! Documents -/

def Draft.take (draft : Draft) : Line → Except Fault Draft
  | .header isListed path => do
    let root ← draft.finish
    let (path, key) ← keyOf path
    begin ⟨isListed, path, key⟩ root
  | .assignment path raw => do
    let (path, key) ← keyOf path
    draft.assign path key (← raw.node)

def draw (source : List Char) : Except Fault Table := do
  let lines ← Line.all source
  (← lines.foldlM Draft.take Draft.empty).finish

def parse (text : String) : Except String (List (String × Toml)) :=
  let source := text.toList
  match draw source with
  | .ok root => entryValues root.entries
  | .error fault => .error (fault.text source)

end ReleaseTracker.Toml
