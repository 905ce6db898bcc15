import ReleaseTracker.Json.Number

/-! Reading JSON texts character by character: characters are gathered into tokens, and tokens into
a value with the open brackets on a stack. -/

namespace ReleaseTracker.Json

inductive TextUnit where
  | char (c : Char)
  | surrogate (n : Nat)

def joinUnits : List TextUnit → Option (List Char)
  | [] => some []
  | .char c :: rest => (joinUnits rest).map (c :: ·)
  | .surrogate high :: .surrogate low :: rest =>
    if high < 0xDC00 ∧ 0xDC00 ≤ low then
      (joinUnits rest).map (Char.ofNat (0x10000 + (high - 0xD800) * 0x400 + (low - 0xDC00)) :: ·)
    else none
  | .surrogate _ :: _ => none

inductive Token where
  | openList
  | closeList
  | openObject
  | closeObject
  | comma
  | colon
  | text (s : Option String)
  | scalar (v : Json)

def scalarFront? : List Char → Option (Json × List Char)
  | 'n' :: 'u' :: 'l' :: 'l' :: rest => some (.null, rest)
  | 't' :: 'r' :: 'u' :: 'e' :: rest => some (.bool true, rest)
  | 'f' :: 'a' :: 'l' :: 's' :: 'e' :: rest => some (.bool false, rest)
  | s => numberFront? s

def word? (word : List Char) : Option Token :=
  match scalarFront? word with
  | some (v, []) => some (.scalar v)
  | _ => none

def shortEscape? (c : Char) : Option Char :=
  if c = '"' ∨ c = '\\' ∨ c = '/' then some c
  else if c = 'b' then some '\x08'
  else if c = 'f' then some '\x0c'
  else if c = 'n' then some '\n'
  else if c = 'r' then some '\r'
  else if c = 't' then some '\t'
  else none

def unitOf (n : Nat) : TextUnit :=
  if 0xD800 ≤ n ∧ n < 0xE000 then .surrogate n else .char (Char.ofNat n)

inductive Frame where
  | list (items : List Json)
  | object (fields : List (Option String × Json)) (name : Option String)

inductive Expected where
  | value
  | valueOrClose
  | name
  | nameOrClose
  | colon
  | commaOrClose
  | ended (v : Json)

structure Builder where
  stack : List Frame
  expected : Expected

namespace Builder

def depthLimit : Nat := 127

def place (stack : List Frame) (v : Json) : Builder :=
  match stack with
  | [] => ⟨[], .ended v⟩
  | .list items :: outer => ⟨.list (v :: items) :: outer, .commaOrClose⟩
  | .object fields name :: outer => ⟨.object ((name, v) :: fields) none :: outer, .commaOrClose⟩

def ofFields (fields : List (Option String × Json)) : Json :=
  match fields.mapM fun (name, v) => name.map (·, v) with
  | some fields => .obj fields.reverse
  | none => .unreadable

def close (frame : Frame) (outer : List Frame) : Builder :=
  let v :=
    match frame with
    | .list items => .arr items.reverse
    | .object fields _ => ofFields fields
  place outer (if outer.length < depthLimit then v else .unreadable)

def begin (stack : List Frame) : Token → Option Builder
  | .openList => some ⟨.list [] :: stack, .valueOrClose⟩
  | .openObject => some ⟨.object [] none :: stack, .nameOrClose⟩
  | .text (some s) => some (place stack (.str s))
  | .text none => some (place stack .unreadable)
  | .scalar v => some (place stack v)
  | _ => none

def take (builder : Builder) (token : Token) : Option Builder :=
  match builder.expected, builder.stack, token with
  | .value, stack, token => begin stack token
  | .valueOrClose, .list items :: outer, .closeList => some (close (.list items) outer)
  | .valueOrClose, stack, token => begin stack token
  | .nameOrClose, .object fields name :: outer, .closeObject =>
    some (close (.object fields name) outer)
  | .nameOrClose, .object fields _ :: outer, .text name
  | .name, .object fields _ :: outer, .text name => some ⟨.object fields name :: outer, .colon⟩
  | .colon, stack, .colon => some ⟨stack, .value⟩
  | .commaOrClose, .list items :: outer, .comma => some ⟨.list items :: outer, .value⟩
  | .commaOrClose, .list items :: outer, .closeList => some (close (.list items) outer)
  | .commaOrClose, .object fields name :: outer, .comma =>
    some ⟨.object fields name :: outer, .name⟩
  | .commaOrClose, .object fields name :: outer, .closeObject =>
    some (close (.object fields name) outer)
  | _, _, _ => none

def value? (builder : Builder) : Option Json :=
  match builder.expected with
  | .ended v => some v
  | _ => none

end Builder

inductive Mode where
  | between
  | word (letters : List Char)
  | text (units : List TextUnit)
  | escape (units : List TextUnit)
  | hex (units : List TextUnit) (left value : Nat)

structure Reader where
  mode : Mode
  builder : Builder

namespace Reader

def fresh : Reader := ⟨.between, ⟨[], .value⟩⟩

def isWordChar (c : Char) : Bool := c.isAlphanum || c = '-' || c = '+' || c = '.'

def emit (reader : Reader) (token : Token) : Option Reader :=
  (reader.builder.take token).map fun builder => ⟨.between, builder⟩

def endWord (reader : Reader) : Option Reader :=
  match reader.mode with
  | .word letters => (word? letters.reverse).bind reader.emit
  | _ => some reader

def endWordAt (reader : Reader) (c : Char) : Option Reader :=
  if isWordChar c then some reader else reader.endWord

def isBlank (c : Char) : Bool := c = ' ' || c = '\n' || c = '\t' || c = '\r'

def takeBetween (reader : Reader) (c : Char) : Option Reader :=
  if isWordChar c then some { reader with mode := .word [c] }
  else if isBlank c then some reader
  else if c = '[' then reader.emit .openList
  else if c = ']' then reader.emit .closeList
  else if c = '\x7b' then reader.emit .openObject
  else if c = '\x7d' then reader.emit .closeObject
  else if c = ',' then reader.emit .comma
  else if c = ':' then reader.emit .colon
  else if c = '"' then some { reader with mode := .text [] }
  else none

def take (reader : Reader) (c : Char) : Option Reader :=
  match reader.mode with
  | .between => reader.takeBetween c
  | .word letters => some { reader with mode := .word (c :: letters) }
  | .text units =>
    if c = '"' then reader.emit (.text ((joinUnits units.reverse).map String.ofList))
    else if c = '\\' then some { reader with mode := .escape units }
    else if c.toNat < 0x20 then none
    else some { reader with mode := .text (.char c :: units) }
  | .escape units =>
    if c = 'u' then some { reader with mode := .hex units 4 0 }
    else (shortEscape? c).map fun c => { reader with mode := .text (.char c :: units) }
  | .hex units left value =>
    (Numeral.hexDigit? c).map fun digit =>
      let value := value * 16 + digit
      if left ≤ 1 then { reader with mode := .text (unitOf value :: units) }
      else { reader with mode := .hex units (left - 1) value }

def step (reader : Reader) (c : Char) : Option Reader :=
  (reader.endWordAt c).bind (·.take c)

def finish (reader : Reader) : Option Json := do
  let reader ← reader.endWord
  match reader.mode with
  | .between => reader.builder.value?
  | _ => none

def untilValue (reader : Reader) : List Char → Option Json
  | [] => none
  | c :: rest =>
    match reader.step c with
    | none => none
    | some reader =>
      match reader.builder.value? with
      | some v => some v
      | none => reader.untilValue rest

end Reader

def parse (text : String) : Option Json :=
  (text.toList.foldlM Reader.step Reader.fresh).bind Reader.finish

/-- Read the value in front of a text, whatever follows it. A constant or a number ends where its
form ends, even inside a word. -/
def parseFront (text : String) : Option Json :=
  match text.toList.dropWhile Reader.isBlank with
  | [] => none
  | c :: rest =>
    if Reader.isWordChar c then (scalarFront? (c :: rest)).map (·.1)
    else Reader.fresh.untilValue (c :: rest)

end ReleaseTracker.Json
