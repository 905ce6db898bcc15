import ReleaseTracker.Text.LowerCase.Table

/-! Lower-case form of a text. Every character has its own form, except that a capital sigma at the
end of a word becomes the final sigma. -/

namespace ReleaseTracker.Text.LowerCase

def within (ranges : List (Nat × Nat)) (c : Char) : Bool :=
  ranges.any fun (first, last) => first ≤ c.toNat && c.toNat ≤ last

def isCased (c : Char) : Bool := within casedRanges c

def isIgnorable (c : Char) : Bool := within ignorableRanges c

def Run.holds (run : Run) (c : Char) : Bool :=
  run.first ≤ c.toNat && c.toNat ≤ run.last && (c.toNat - run.first) % run.step == 0

/-- The lower-case form of one character. The capital I with a dot is the only one whose form has
two characters. -/
def ofChar (c : Char) : List Char :=
  if c.toNat < 128 then [c.toLower]
  else if c = 'İ' then ['i', '\u0307']
  else
    match runs.find? (·.holds c) with
    | some run => [Char.ofNat (c.toNat + run.offset).toNat]
    | none => [c]

def casedNext (s : List Char) : Bool :=
  match s.dropWhile isIgnorable with
  | [] => false
  | c :: _ => isCased c

def fromHere (before : List Char) : List Char → List Char
  | [] => []
  | c :: rest =>
    let form :=
      if c = 'Σ' then [if casedNext before && !casedNext rest then 'ς' else 'σ'] else ofChar c
    form ++ fromHere (c :: before) rest

end ReleaseTracker.Text.LowerCase

namespace ReleaseTracker.Text

def lowerCase (s : String) : String := String.ofList (LowerCase.fromHere [] s.toList)

end ReleaseTracker.Text
