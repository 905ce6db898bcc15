import ReleaseTracker.Cli.Grammar
import ReleaseTracker.Number.Numeral
import ReleaseTracker.Number.Word
import ReleaseTracker.Text.Search

/-! Reading command lines. Arguments are taken from the left; what is refused first decides. -/

namespace ReleaseTracker.Cli

inductive Parsed where
  | command (path : List String) (values : List (String × String))
  | shortHelp (form : Form) (path : List String)
  | longHelp
  | version
  | refused

def integer? (text : String) : Option Int :=
  (Numeral.signed? text.toList).filter Word.isInteger64

def count? (text : String) : Option Nat :=
  (Numeral.unsigned? text.toList).filter Word.isNatural64

def ValueKind.admits (kind : ValueKind) (text : String) : Bool :=
  match kind with
  | .integer => (integer? text).isSome
  | .count => (count? text).isSome
  | .oneOf names => names.contains text

inductive Argument where
  | option (name : String) (value : Option String)
  | letters (first : Char) (rest : List Char)
  | escape
  | word (text : String)

def Argument.ofText (text : String) : Argument :=
  match text.toList with
  | ['-', '-'] => .escape
  | '-' :: '-' :: rest =>
    match Text.splitOnce '=' rest with
    | some (name, value) => .option (String.ofList name) (some (String.ofList value))
    | none => .option (String.ofList rest) none
  | '-' :: first :: rest => .letters first rest
  | _ => .word text

def attached? : List Char → Option String
  | [] => none
  | '=' :: rest => some (String.ofList rest)
  | rest => some (String.ofList rest)

structure Reading where
  form : Form
  path : List String
  values : List (String × String)
  waiting : Option OptionForm

namespace Reading

def isProgram (reading : Reading) : Bool := reading.path.length ≤ 1

def finish (reading : Reading) : Parsed :=
  let isGiven (option : OptionForm) : Bool := reading.values.any (·.1 = option.name)
  if reading.form.isGroup || reading.waiting.isSome ||
      reading.form.options.any (fun option => option.required && !isGiven option) then
    .refused
  else .command reading.path reading.values

def give (reading : Reading) (option : OptionForm) (value : String) : Except Parsed Reading :=
  if reading.values.any (·.1 = option.name) || !option.kind.admits value then .error .refused
  else .ok { reading with values := reading.values ++ [(option.name, value)], waiting := none }

def takeOption (reading : Reading) (option : OptionForm) :
    Option String → Except Parsed Reading
  | some value => reading.give option value
  | none => .ok { reading with waiting := some option }

def takeLong (reading : Reading) (name : String) (value : Option String) :
    Except Parsed Reading :=
  if name = "help" then .error (if value.isSome then .refused else .longHelp)
  else if name = "version" ∧ reading.isProgram then
    .error (if value.isSome then .refused else .version)
  else
    match reading.form.options.find? (·.name = name) with
    | some option => reading.takeOption option value
    | none => .error .refused

def takeLetters (reading : Reading) (first : Char) (rest : List Char) : Except Parsed Reading :=
  if first = 'h' then .error (.shortHelp reading.form reading.path)
  else if first = 'V' ∧ reading.isProgram then .error .version
  else
    match reading.form.options.find? (·.letter = first) with
    | some option => reading.takeOption option (attached? rest)
    | none => .error .refused

def enter (reading : Reading) (name : String) : Except Parsed Reading :=
  match reading.form.find? name with
  | some form => .ok ⟨form, reading.path ++ [name], [], none⟩
  | none => .error .refused

def take (reading : Reading) (text : String) : Except Parsed Reading :=
  match reading.waiting, Argument.ofText text with
  | some option, .word value => reading.give option value
  | some _, _ => .error .refused
  | none, .option name value => reading.takeLong name value
  | none, .letters first rest => reading.takeLetters first rest
  | none, .escape => .error .refused
  | none, .word name => reading.enter name

end Reading

def helpOn (form : Form) : List String → Parsed
  | [] => .longHelp
  | name :: rest =>
    if name = "help" ∧ form.isGroup ∧ rest = [] then .longHelp
    else
      match form.find? name with
      | some inner => helpOn inner rest
      | none => .refused

/-- Take all arguments. Behind two hyphens nothing may follow. -/
def readFrom (reading : Reading) : List String → Parsed
  | [] => reading.finish
  | text :: rest =>
    if reading.waiting.isNone ∧ text = "--" ∧ rest = [] then reading.finish
    else if reading.waiting.isNone ∧ text = "help" ∧ reading.form.isGroup then
      helpOn reading.form rest
    else
      match reading.take text with
      | .ok reading => readFrom reading rest
      | .error parsed => parsed

def parse (arguments : List String) : Parsed :=
  readFrom ⟨programForm, [programForm.name], [], none⟩ arguments

end ReleaseTracker.Cli
