import ReleaseTracker.Number.Numeral
import ReleaseTracker.Number.Word
import ReleaseTracker.Settings.Given

/-! Places of settings: keys between dots, and positions in brackets. A negative position counts
from the end of the list. -/

namespace ReleaseTracker.Settings

inductive Step where
  | key (name : String)
  | index (position : Int)
deriving DecidableEq, Repr

abbrev Place := List Step

namespace Place

def inKey (c : Char) : Bool := c.isAlphanum || c = '_' || c = '-'

def isSpace (c : Char) : Bool := c = ' ' || c = '\t'

def index? (s : List Char) : Option (Int × List Char) :=
  let s := s.dropWhile isSpace
  let (negative, rest) :=
    match s with
    | '-' :: rest => (true, rest)
    | rest => (false, rest)
  let digits := rest.takeWhile Char.isDigit
  let n := Numeral.withSign negative (Numeral.value digits)
  match (rest.drop digits.length).dropWhile isSpace with
  | ']' :: rest => if digits ≠ [] ∧ Word.isInteger64 n then some (n, rest) else none
  | _ => none

def key? (s : List Char) : Option (String × List Char) :=
  let name := s.takeWhile inKey
  if name = [] then none else some (String.ofList name, s.drop name.length)

def steps? : (fuel : Nat) → List Char → Option Place
  | _, [] => some []
  | 0, _ => none
  | fuel + 1, c :: rest =>
    if c = '.' then (key? rest).bind fun (name, rest) => (steps? fuel rest).map (.key name :: ·)
    else if c = '[' then (index? rest).bind fun (n, rest) => (steps? fuel rest).map (.index n :: ·)
    else none

/-- The place that a name stands for. A name of another form is one key. -/
def ofName (name : String) : Place :=
  let s := name.toList
  ((key? s).bind fun (first, rest) => (steps? s.length rest).map (.key first :: ·)).getD [.key name]

def text : Place → String
  | [] => ""
  | [.key name] => name
  | .key name :: .key next :: rest => name ++ "." ++ text (.key next :: rest)
  | .key name :: rest => name ++ text rest
  | .index n :: rest => "[" ++ toString n ++ "]" ++ text rest

end Place

namespace Given

def room (position : Int) (items : List Given) : List Given × Nat :=
  if 0 ≤ position then
    let n := position.toNat
    (items ++ List.replicate (n + 1 - items.length) .gap, n)
  else
    let back := position.natAbs
    (List.replicate (back - items.length) .gap ++ items, items.length - back)

/-- Change the value at a place. Tables and lists on the way come about as needed, in place of what
is neither. -/
def update (change : Given → Given) : Place → Given → Given
  | [], old => change old
  | .key name :: place, old =>
    let inner := update change place ((Toml.under? name old.entries).getD .gap)
    .table (if old.isTable then old.origin? else none) (Toml.putEntry name inner old.entries)
  | .index position :: place, old =>
    let (items, n) := room position old.items
    let inner := update change place (items[n]?.getD .gap)
    .list (if old.isList then old.origin? else none) (items.set n inner)

end Given
end ReleaseTracker.Settings
