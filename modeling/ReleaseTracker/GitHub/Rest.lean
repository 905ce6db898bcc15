import ReleaseTracker.GitHub.Exchange
import ReleaseTracker.GitHub.Json
import ReleaseTracker.GitHub.Route
import ReleaseTracker.Number.Numeral
import ReleaseTracker.Number.Word

/-! Listings by page number: a page of stars has a page after it whatever it holds, and all tags
come in one reply. -/

namespace ReleaseTracker.GitHub.Rest
open Json

def homepage (given : Option String) : Option String := given.filter (· ≠ "")

def avatar? (v : Json) : Option (Option String) := do
  let [avatar] ← v.columns [lacking "avatar_url"] | none
  optional str? avatar

def starredRepo? (v : Json) : Option StarredRepo := do
  let [id, fullName, name, description, homepage, language, owner] ← v.columns
    [field "id", field "full_name", field "name", lacking "description", lacking "homepage",
      lacking "language", field "owner"] | none
  return {
    id := ← required int64? id
    fullName := ← required str? fullName
    name := ← required str? name
    description := ← optional str? description
    homepage := Rest.homepage (← optional str? homepage)
    language := ← optional str? language
    ownerAvatarUrl := (← optional avatar? owner).join }

def tagName (reference : String) : String :=
  let marker := "refs/tags/".toList
  if marker.isPrefixOf reference.toList then String.ofList (reference.toList.drop marker.length)
  else reference

def reference? (v : Json) : Option Tag := do
  let [reference, object] ← v.columns [field "ref", field "object"] | none
  let [sha, kind] ← (← object).columns [field "sha", field "type"] | none
  return {
    name := tagName (← required str? reference)
    sha := ← required str? sha
    kind := ObjectKind.ofName (← required str? kind) }

/-- Many references in a list, or a single one by itself. -/
def references? (v : Json) : Option (List Tag) :=
  if v.isReadable then listOf reference? v <|> (reference? v).map ([·]) else none

/-- The page that a cursor names: a number of 32 bits, or else the first page. -/
def pageNumber (cursor : Option String) : Nat :=
  match Numeral.unsigned? (cursor.getD "").toList with
  | some number => if Word.isNatural32 number then number else 1
  | none => 1

def starredTarget (username : String) (page perPage : Nat) : String :=
  Route.ofUser username ["starred"] ++ s!"?per_page={perPage}&page={page}"

def starredPage (username : String) (cursor : Option String) (perPage : Nat) :
    Call (Page StarredRepo) :=
  let page := pageNumber cursor
  get (starredTarget username page perPage) fun v => do
    return ⟨← listOf starredRepo? v, some (toString (Word.next32 page))⟩

/-- Get something that belongs to a repository. Without a slash in the name nothing is asked. -/
def getOfRepo {α : Type} (fullName : String) (names : List String) (parameters : String)
    (read : Json → Option α) : Call α :=
  match Route.ofRepo fullName names with
  | .ok path => get (path ++ parameters) read
  | .error e => .done (.error e)

def hasTags (fullName : String) : Call Bool :=
  getOfRepo fullName ["tags"] "?per_page=1&page=1" fun v => do
    return !(← listOf anyValue v).isEmpty

def allTags (fullName : String) : Call (List Tag) :=
  getOfRepo fullName ["git", "refs", "tags"] "" references?

end ReleaseTracker.GitHub.Rest
