import ReleaseTracker.GitHub.Error
import ReleaseTracker.Text.Percent

/-! The paths of resources. Every name is one segment of its path, whatever characters it holds. -/

namespace ReleaseTracker.GitHub.Route

def ownerAndName (fullName : String) : Except ApiError (String × String) :=
  match Text.splitOnce '/' fullName.toList with
  | some (owner, name) => .ok (String.ofList owner, String.ofList name)
  | none => .error (.decode ("invalid repository name: " ++ fullName))

/-- Put a segment, as it is sent, behind those before it. A dot stays an empty segment, two dots
take the segment before them back, and the root has one empty segment. -/
def enter (segments : List (List Char)) (segment : List Char) : List (List Char) :=
  if segment = ['.', '.'] then segments.dropLast ++ [[]]
  else
    let segment := if segment = ['.'] then [] else segment
    if segments = [[]] then [segment] else segments ++ [segment]

/-- The path of some names below the root. Names of one or two dots are left out. -/
def path (names : List String) : String :=
  let kept := names.filter fun name => name ≠ "." && name ≠ ".."
  let segments := (kept.map fun name => Text.Percent.segment name.toList).foldl enter []
  String.ofList ('/' :: ['/'].intercalate segments)

def ofRepo (fullName : String) (rest : List String) : Except ApiError String := do
  let (owner, name) ← ownerAndName fullName
  return path ("repos" :: owner :: name :: rest)

def ofUser (username : String) (rest : List String) : String := path ("users" :: username :: rest)

end ReleaseTracker.GitHub.Route
