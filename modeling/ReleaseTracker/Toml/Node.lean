import ReleaseTracker.Toml.Fault
import ReleaseTracker.Toml.Leaf

/-! The values of a document while it is read. A table is written in one place only: by its header,
by the dotted keys of one section, or inside a line. Tables on the way to a header may get their own
header or dotted keys later. -/

namespace ReleaseTracker.Toml

structure Form where
  /-- Has it no header and no braces of its own? -/
  isImplicit : Bool
  isDotted : Bool
  isInline : Bool
deriving DecidableEq, Repr

inductive Node where
  | leaf (leaf : Leaf)
  /-- A list, perhaps one of tables with headers. -/
  | list (isListed : Bool) (items : List Node)
  | table (form : Form) (entries : List (String × Node))

structure Table where
  form : Form
  entries : List (String × Node)

structure Key where
  name : String
  span : Span
deriving DecidableEq, Repr

def insertEntry {α : Type} (key : String) (a : α) : List (String × α) → List (String × α)
  | [] => [(key, a)]
  | (other, b) :: rest =>
    if other = key then (key, a) :: rest
    else if key < other then (key, a) :: (other, b) :: rest
    else (other, b) :: insertEntry key a rest

namespace Table

def empty : Table := ⟨⟨false, false, false⟩, []⟩

def passed (isDotted : Bool) : Table := ⟨⟨true, isDotted, false⟩, []⟩

def inline : Table := ⟨⟨false, false, true⟩, []⟩

def node (table : Table) : Node := .table table.form table.entries

def get? (table : Table) (key : Key) : Option Node := under? key.name table.entries

def put (table : Table) (key : Key) (node : Node) : Table :=
  { table with entries := insertEntry key.name node table.entries }

def erase (table : Table) (key : Key) : Table :=
  { table with entries := table.entries.filter (·.1 ≠ key.name) }

end Table

/-! Faults -/

def Key.duplicate (key : Key) : Fault := .plain "duplicate key" key.span

def Node.kindName : Node → String
  | .leaf value => value.kindName
  | .list _ _ => "array"
  | .table _ _ => "inline table"

def Key.closed (key : Key) (node : Node) : Fault :=
  .plain ("cannot extend value of type " ++ node.kindName ++ " with a dotted key") key.span

/-! Tables further down -/

/-- The table that a value is, if there may be something below it: in a list of tables with headers
the last one. A table with a header or braces of its own is closed for dotted keys. -/
def Key.open (key : Key) (dotted braced : Bool) (node : Node) : Except Fault Table :=
  match node with
  | .table form entries =>
    if form.isInline ∧ ¬braced then .error (key.closed node)
    else if dotted ∧ ¬form.isImplicit then .error key.duplicate
    else .ok ⟨{ form with isDotted := form.isDotted || dotted }, entries⟩
  | .list true items =>
    match items.getLast? with
    | some (.table form entries) => .ok ⟨form, entries⟩
    | _ => .error (key.closed node)
  | _ => .error (key.closed node)

def Node.replace (inner : Table) : Node → Node
  | .list isListed items => .list isListed (items.dropLast ++ [inner.node])
  | _ => inner.node

/-- Change a table further down, and learn something from it. Tables that are missing on the way
come about. -/
def Table.visit {α : Type} (dotted braced : Bool) (change : Table → Except Fault (α × Table)) :
    List Key → Table → Except Fault (α × Table)
  | [], outer => change outer
  | key :: path, outer =>
    match outer.get? key with
    | none => do
      let (a, inner) ← Table.visit dotted braced change path (.passed dotted)
      return (a, outer.put key inner.node)
    | some node => do
      let inner ← key.open dotted braced node
      let (a, inner) ← Table.visit dotted braced change path inner
      return (a, outer.put key (node.replace inner))

def Table.change (dotted braced : Bool) (change : Table → Except Fault Table) (path : List Key)
    (table : Table) : Except Fault Table :=
  (table.visit dotted braced (fun inner => (change inner).map ((), ·)) path).map (·.2)

def Table.assign (braced : Bool) (path : List Key) (key : Key) (node : Node) (table : Table) :
    Except Fault Table :=
  let dotted := !path.isEmpty
  let add (parent : Table) : Except Fault Table :=
    if parent.form.isDotted ≠ dotted ∨ (parent.get? key).isSome then .error key.duplicate
    else .ok (parent.put key node)
  table.change dotted braced add path

/-! Sections -/

structure Header where
  isListed : Bool
  path : List Key
  key : Key

structure Draft where
  root : Table
  header : Option Header
  latest : Table

namespace Draft

def empty : Draft := ⟨.empty, none, .empty⟩

def place (header : Header) (inner parent : Table) : Except Fault Table :=
  if header.isListed then
    match parent.get? header.key with
    | none => .ok (parent.put header.key (.list true [inner.node]))
    | some (.list true items) => .ok (parent.put header.key (.list true (items ++ [inner.node])))
    | some _ => .error header.key.duplicate
  else .ok (parent.put header.key inner.node)

def finish (draft : Draft) : Except Fault Table :=
  match draft.header with
  | none => .ok draft.latest
  | some header => draft.root.change false false (place header draft.latest) header.path

def beginning (header : Header) (parent : Table) : Except Fault Table :=
  match parent.get? header.key with
  | none => .ok .empty
  | some (.table form entries) =>
    if form.isImplicit ∧ ¬form.isDotted then .ok ⟨{ form with isImplicit := false }, entries⟩
    else .error header.key.duplicate
  | some _ => .error header.key.duplicate

def begin (header : Header) (root : Table) : Except Fault Draft :=
  if header.isListed then .ok ⟨root, some header, .empty⟩
  else
    let look (parent : Table) : Except Fault (Table × Table) :=
      (beginning header parent).map (·, parent)
    (root.visit false false look header.path).map fun (latest, root) => ⟨root, some header, latest⟩

def assign (draft : Draft) (path : List Key) (key : Key) (node : Node) : Except Fault Draft :=
  (draft.latest.assign false path key node).map fun latest => { draft with latest }

end Draft

/-! Finished values -/

mutual

def Node.value : Node → Except String Toml
  | .leaf written => written.scalar.map .scalar
  | .list _ items => (itemValues items).map .list
  | .table _ entries => (entryValues entries).map .table

def itemValues : List Node → Except String (List Toml)
  | [] => .ok []
  | item :: rest => do
    let v ← item.value
    return v :: (← itemValues rest)

def entryValues : List (String × Node) → Except String (List (String × Toml))
  | [] => .ok []
  | (key, node) :: rest => do
    let v ← node.value
    return (key, v) :: (← entryValues rest)

end

end ReleaseTracker.Toml
