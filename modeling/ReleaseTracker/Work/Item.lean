import ReleaseTracker.Json.Record

/-! The items of a queue of work, and how they are written in JSON: an object with the kind of work
and the id that it is about, or a list of the two. -/

namespace ReleaseTracker
open Json

inductive WorkItem where
  | stars (userId : Int)
  | versions (repoId : Int)
deriving DecidableEq, Repr

namespace WorkItem

def kind : WorkItem → String
  | .stars _ => "sync_starred_repos"
  | .versions _ => "sync_version"

def idName : WorkItem → String
  | .stars _ => "user_id"
  | .versions _ => "repo_id"

def id : WorkItem → Int
  | .stars userId => userId
  | .versions repoId => repoId

def toJson (item : WorkItem) : Json :=
  .obj [("type", .str item.kind), (item.idName, .int item.id)]

def ofKind? (kind : String) (parts : Json) : Option WorkItem :=
  let idUnder (name : String) : Option Int := do
    let [id] ← parts.columns [field name] | none
    required int64? id
  if kind = "sync_starred_repos" then (idUnder "user_id").map .stars
  else if kind = "sync_version" then (idUnder "repo_id").map .versions
  else none

def ofJson? (v : Json) : Option WorkItem :=
  if v.isReadable then
    match v with
    | .arr (kind :: parts) => kind.str?.bind (ofKind? · (.arr parts))
    | .obj fields => do
      let kind ← (← single "type" fields).bind str?
      ofKind? kind (.obj (fields.filter (·.1 ≠ "type")))
    | _ => none
  else none

end WorkItem

def defaultConcurrency : Nat := 4

end ReleaseTracker
