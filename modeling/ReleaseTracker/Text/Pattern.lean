import ReleaseTracker.Number.Numeral
import ReleaseTracker.Text.Alphanumeric
import ReleaseTracker.Text.Blank

/-! Which texts are regular expressions over ASCII classes and single characters. Classes of all
scripts are unknown, and so are letters alike in both cases unless octets are matched. A match is
always whole characters, so an octet that is no character by itself cannot be asked for. -/

namespace ReleaseTracker.Text.Pattern

structure Mode where
  matchesCharacters : Bool
  ignoresCase : Bool
  skipsBlanks : Bool
deriving DecidableEq, Repr

def Mode.default : Mode := ⟨true, false, false⟩

/-! Blanks -/

def behindBlanks (inComment : Bool) : List Char → List Char
  | [] => []
  | c :: rest =>
    if inComment then behindBlanks (c ≠ '\n') rest
    else if isBlank c then behindBlanks false rest
    else if c = '#' then behindBlanks true rest
    else c :: rest

def Mode.skip (mode : Mode) (s : List Char) : List Char :=
  if mode.skipsBlanks then behindBlanks false s else s

def Mode.skip? (mode : Mode) (s : List Char) : Option (List Char) :=
  match mode.skip s with
  | [] => none
  | s => some s

/-- The next character that is no blank. A mark of a comment does not count, and where nothing but
blanks follows, the first of them is the next. -/
def Mode.peek? (mode : Mode) (s : List Char) : Option Char :=
  if mode.skipsBlanks then
    match trimStart s with
    | '#' :: rest => (trimStart rest).head? <|> s.head?
    | rest => rest.head? <|> s.head?
  else s.head?

/-! Escapes -/

inductive Escape where
  /-- A character, perhaps one named by the number of an octet. -/
  | char (c : Char) (isOctet : Bool)
  | kind (negated : Bool)
  | place (atWord : Bool)
deriving DecidableEq, Repr

def number? (mode : Mode) : (count : Nat) → (value : Nat) → List Char → Option (Nat × List Char)
  | 0, value, s => some (value, s)
  | _, _, [] => none
  | count + 1, value, c :: rest =>
    (Numeral.hexDigit? c).bind fun digit =>
      number? mode count (16 * value + digit) (mode.skip rest)

def numbered? (mode : Mode) (count : Nat) (isOctet : Bool) (s : List Char) :
    Option (Escape × List Char) :=
  (number? mode count 0 (mode.skip s)).bind fun (n, rest) =>
    if n < 0xD800 ∨ (0xDFFF < n ∧ n < 0x110000) then some (.char (Char.ofNat n) isOctet, rest)
    else none

def isPlainEscape (c : Char) : Bool :=
  c.toNat < 128 && !c.isAlphanum && !(['<', '>'].contains c)

def escape? (mode : Mode) : List Char → Option (Escape × List Char)
  | [] => none
  | c :: rest =>
    if c = 'x' then numbered? mode 2 true rest
    else if c = 'u' then numbered? mode 4 false rest
    else if c = 'U' then numbered? mode 8 false rest
    else if ['d', 's', 'w'].contains c then some (.kind false, rest)
    else if ['D', 'S', 'W'].contains c then some (.kind true, rest)
    else if ['a', 'f', 't', 'n', 'r', 'v'].contains c || isPlainEscape c then
      some (.char c false, rest)
    else if ['A', 'z'].contains c then some (.place false, rest)
    else if ['b', 'B', '<', '>'].contains c then some (.place true, rest)
    else none

def Mode.admitsChar (mode : Mode) (c : Char) (isOctet : Bool) : Bool :=
  if mode.matchesCharacters then !mode.ignoresCase
  else c.toNat < 128 || !(isOctet || mode.ignoresCase)

def Mode.admits (mode : Mode) : Escape → Bool
  | .char c isOctet => mode.admitsChar c isOctet
  | .kind negated => !mode.matchesCharacters && !negated
  | .place atWord => !(mode.matchesCharacters && atWord)

/-! Classes -/

def Mode.admitsMember (mode : Mode) (c : Char) : Bool :=
  if mode.matchesCharacters then !mode.ignoresCase else c.toNat < 128

def asciiClassNames : List String :=
  ["alnum", "alpha", "ascii", "blank", "cntrl", "digit", "graph", "lower", "print", "punct",
    "space", "upper", "word", "xdigit"]

def namedClass? (s : List Char) : Option (Bool × List Char) :=
  match s with
  | ':' :: rest =>
    let (negated, rest) :=
      match rest with
      | '^' :: rest => (true, rest)
      | rest => (false, rest)
    let name := rest.takeWhile (· ≠ ':')
    match rest.drop name.length with
    | ':' :: ']' :: rest =>
      if asciiClassNames.contains (String.ofList name) then some (negated, rest) else none
    | _ => none
  | _ => none

def Mode.admitsNamed (mode : Mode) (negated : Bool) : Bool :=
  if mode.matchesCharacters then !mode.ignoresCase else !negated

def member? (mode : Mode) : List Char → Option (Escape × List Char)
  | [] => none
  | '\\' :: rest => escape? mode rest
  | c :: rest => some (.char c false, rest)

def Mode.admitsSingle (mode : Mode) : Escape → Bool
  | .char c _ => mode.admitsMember c
  | .kind negated => mode.admits (.kind negated)
  | .place _ => false

def Mode.admitsRange (mode : Mode) : Escape → Escape → Bool
  | .char first _, .char last _ =>
    first ≤ last && mode.admitsMember first && mode.admitsMember last
  | _, _ => false

def members? (mode : Mode) (s : List Char) : Option (List Char) := do
  let (first, s) ← member? mode s
  let s ← mode.skip? s
  let single := if mode.admitsSingle first then some s else none
  match s with
  | '-' :: rest =>
    match mode.peek? rest with
    | some ']' | some '-' => single
    | _ =>
      let (last, rest) ← member? mode (← mode.skip? rest)
      if mode.admitsRange first last then some rest else none
  | _ => single

def behindHyphens? (mode : Mode) : (fuel : Nat) → (any : Bool) → List Char →
    Option (Bool × List Char)
  | 0, _, _ => none
  | fuel + 1, any, s =>
    match s with
    | '-' :: rest =>
      if mode.admitsMember '-' then (mode.skip? rest).bind (behindHyphens? mode fuel true) else none
    | s => some (any, s)

/-- The text behind the start of a class, its first bracket left out. A closing bracket right there
is a member. -/
def openClass? (mode : Mode) (s : List Char) : Option (List Char) := do
  let s ← mode.skip? s
  let s ←
    match s with
    | '^' :: rest => if mode.matchesCharacters then mode.skip? rest else none
    | s => some s
  let (any, s) ← behindHyphens? mode (s.length + 1) false s
  match s with
  | ']' :: rest =>
    if any then some s else if mode.admitsMember ']' then mode.skip? rest else none
  | s => some s

def class? (mode : Mode) : (fuel : Nat) → (depth : Nat) → List Char → Option (List Char)
  | 0, _, _ => none
  | fuel + 1, depth, s =>
    match mode.skip s with
    | [] => none
    | '[' :: rest =>
      match namedClass? rest with
      | some (negated, rest) =>
        if mode.admitsNamed negated then class? mode fuel depth rest else none
      | none => (openClass? mode rest).bind (class? mode fuel (depth + 1))
    | ']' :: rest => if depth = 0 then some rest else class? mode fuel (depth - 1) rest
    | '&' :: '&' :: rest | '-' :: '-' :: rest | '~' :: '~' :: rest => class? mode fuel depth rest
    | s => (members? mode s).bind (class? mode fuel depth)

/-! Groups -/

def Mode.set? (mode : Mode) (flag : Char) (on : Bool) : Option Mode :=
  if flag = 'u' then some { mode with matchesCharacters := on }
  else if flag = 'i' then some { mode with ignoresCase := on }
  else if flag = 'x' then some { mode with skipsBlanks := on }
  else if ['m', 's', 'U', 'R'].contains flag then some mode
  else none

/-- Read flags up to their end. Each may be there once, and so may the hyphen, behind which flags
are turned off. The result tells whether a group begins. -/
def flags? (mode : Mode) (seen : List Char) : List Char → Option (Mode × Bool × List Char)
  | [] => none
  | c :: rest =>
    if c = ':' then if seen.head? = some '-' then none else some (mode, true, rest)
    else if c = ')' then
      if seen = [] ∨ seen.head? = some '-' then none else some (mode, false, rest)
    else if seen.contains c then none
    else if c = '-' then flags? mode (c :: seen) rest
    else (mode.set? c (!seen.contains '-')).bind fun mode => flags? mode (c :: seen) rest

def name? (s : List Char) : Option (List Char × List Char) :=
  let name := s.takeWhile (· ≠ '>')
  let inName (c : Char) : Bool := isAlphanumeric c || ['_', '.', '[', ']'].contains c
  match name, s.drop name.length with
  | c :: more, _ :: rest =>
    if (isLetter c || c = '_') && more.all inName then some (name, rest) else none
  | _, _ => none

structure Reading where
  mode : Mode
  around : List Mode
  names : List (List Char)
  repeats : Bool

def Reading.openGroup (reading : Reading) (mode : Mode) : Reading :=
  { reading with mode, around := reading.mode :: reading.around, repeats := false }

def Reading.openNamed? (reading : Reading) (s : List Char) : Option (Reading × List Char) :=
  (name? s).bind fun (name, rest) =>
    if reading.names.contains name then none
    else some ({ reading.openGroup reading.mode with names := name :: reading.names }, rest)

/-- Open a group behind its parenthesis, or change the mode up to the end of this group. There is no
looking around. -/
def Reading.open? (reading : Reading) (s : List Char) : Option (Reading × List Char) :=
  match reading.mode.skip s with
  | '?' :: '=' :: _ | '?' :: '!' :: _ | '?' :: '<' :: '=' :: _ | '?' :: '<' :: '!' :: _ => none
  | '?' :: 'P' :: '<' :: rest | '?' :: '<' :: rest => reading.openNamed? rest
  | '?' :: rest =>
    (flags? reading.mode [] rest).map fun (mode, isGroup, rest) =>
      if isGroup then (reading.openGroup mode, rest)
      else ({ reading with mode, repeats := false }, rest)
  | rest => some (reading.openGroup reading.mode, rest)

def Reading.close? (reading : Reading) : Option Reading :=
  match reading.around with
  | [] => none
  | mode :: around => some { reading with mode, around, repeats := true }

def Reading.repeatable (reading : Reading) : Reading := { reading with repeats := true }

def Reading.step? (reading : Reading) (c : Char) (rest : List Char) :
    Option (Reading × List Char) :=
  let mode := reading.mode
  if c = '(' then reading.open? rest
  else if c = ')' then reading.close?.map (·, rest)
  else if c = '|' then some ({ reading with repeats := false }, rest)
  else if c = '[' then
    (openClass? mode rest).bind fun s =>
      (class? mode (s.length + 1) 0 s).map (reading.repeatable, ·)
  else if ['?', '*', '+'].contains c then
    if reading.repeats then some (reading, if rest.head? = some '?' then rest.drop 1 else rest)
    else none
  -- a counted repetition would need a closing brace, which no text here has
  else if c = '\x7b' then none
  else if c = '\\' then
    (escape? mode rest).bind fun (escape, rest) =>
      if mode.admits escape then some (reading.repeatable, rest) else none
  else if c = '.' then if mode.matchesCharacters then some (reading.repeatable, rest) else none
  else if c = '^' ∨ c = '$' ∨ mode.admitsChar c false then some (reading.repeatable, rest)
  else none

def readsFrom : (fuel : Nat) → Reading → List Char → Bool
  | 0, _, _ => false
  | fuel + 1, reading, s =>
    match reading.mode.skip s with
    | [] => reading.around.isEmpty
    | c :: rest =>
      match reading.step? c rest with
      | some (reading, rest) => readsFrom fuel reading rest
      | none => false

end Pattern

def isPattern (s : List Char) : Bool :=
  Pattern.readsFrom (s.length + 1) ⟨.default, [], [], false⟩ s

end ReleaseTracker.Text
