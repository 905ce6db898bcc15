import ReleaseTracker.GitHub.Exchange
import ReleaseTracker.GitHub.Json
import ReleaseTracker.GitHub.Route

/-! Listings by query: a reply says whether more pages follow, and where the next one starts. -/

namespace ReleaseTracker.GitHub.GraphQl
open Json

/-! Queries -/

def starredQuery : String := "
query($login: String!, $first: Int!, $after: String) \x7b
  user(login: $login) \x7b
    starredRepositories(first: $first, after: $after) \x7b
      pageInfo \x7b hasNextPage endCursor \x7d
      nodes \x7b
        databaseId
        nameWithOwner
        name
        description
        homepageUrl
        primaryLanguage \x7b name \x7d
        owner \x7b avatarUrl \x7d
      \x7d
    \x7d
  \x7d
\x7d"

def tagCountQuery : String := "
query($owner: String!, $name: String!) \x7b
  repository(owner: $owner, name: $name) \x7b
    refs(refPrefix: \"refs/tags/\", first: 1) \x7b totalCount \x7d
  \x7d
\x7d"

def tagsQuery : String := "
query($owner: String!, $name: String!, $after: String) \x7b
  repository(owner: $owner, name: $name) \x7b
    refs(refPrefix: \"refs/tags/\", first: 100, after: $after) \x7b
      pageInfo \x7b hasNextPage endCursor \x7d
      nodes \x7b name target \x7b __typename oid \x7d \x7d
    \x7d
  \x7d
\x7d"

def request (query : String) (values : List (String × Json)) : Request where
  method := .post
  target := "/graphql"
  body := some (.obj [("query", .str query), ("variables", .obj values)])

/-! Replies -/

def reported (response : Json) : List Json := ((response.get? "errors").bind arr?).getD []

def reportedError (resource : String) (errors : List Json) : ApiError :=
  if errors.any fun e => (e.get? "type").bind str? = some "NOT_FOUND" then .notFound resource
  else
    let messages := errors.filterMap fun e => (e.get? "message").bind str?
    .decode ("GraphQL error: " ++ "; ".intercalate messages)

/-- The listing in a response, under the name of what it belongs to and its own name. Whatever it
would belong to is not found if an error says so, or if it is missing or null. -/
def connection {α : Type} (resource root name : String) (read : Json → Option α)
    (response : Json) : Except ApiError α :=
  match reported response with
  | [] =>
    match ((response.get? "data").bind (·.get? root)).filter (!·.isNull) with
    | none => .error (.notFound resource)
    | some found =>
      match found.get? name with
      | none => .error (.decode ("missing " ++ root ++ "." ++ name ++ " in response"))
      | some v =>
        match read v with
        | some listing => .ok listing
        | none => .error (.decode "the listing has another shape")
  | errors => .error (reportedError resource errors)

def ask {α : Type} (query : Request) (resource root name : String) (read : Json → Option α) :
    Call α :=
  .ask query fun reply =>
    .done ((Reply.read resource anyValue reply).bind (connection resource root name read))

def nextCursor? (v : Json) : Option (Option String) := do
  let [hasNext, cursor] ← v.columns [field "hasNextPage", field "endCursor"] | none
  let hasNext ← required bool? hasNext
  let cursor ← optional str? cursor
  return if hasNext then cursor else none

def language? (v : Json) : Option String := do
  let [name] ← v.columns [field "name"] | none
  required str? name

def avatar? (v : Json) : Option (Option String) := do
  let [avatar] ← v.columns [field "avatarUrl"] | none
  optional str? avatar

def starredRepo? (v : Json) : Option StarredRepo := do
  let [id, fullName, name, description, homepage, language, owner] ← v.columns
    [field "databaseId", field "nameWithOwner", field "name", field "description",
      field "homepageUrl", field "primaryLanguage", field "owner"] | none
  return {
    id := ← required int64? id
    fullName := ← required str? fullName
    name := ← required str? name
    description := ← optional str? description
    homepage := (← optional str? homepage).filter (· ≠ "")
    language := ← optional language? language
    ownerAvatarUrl := (← optional avatar? owner).join }

def starredPage? (v : Json) : Option (Page StarredRepo) := do
  let [info, nodes] ← v.columns [field "pageInfo", field "nodes"] | none
  let next ← required nextCursor? info
  return ⟨← required (listOf starredRepo?) nodes, next⟩

def tag? (v : Json) : Option Tag := do
  let [name, target] ← v.columns [field "name", field "target"] | none
  let [kind, sha] ← (← target).columns [field "__typename", field "oid"] | none
  return {
    name := ← required str? name
    sha := ← required str? sha
    kind := ObjectKind.ofName (← required str? kind) }

structure TagPage where
  page : Page Tag
  total : Option Nat

def tagPage? (v : Json) : Option TagPage := do
  let [info, nodes, total] ← v.columns
    [lacking "pageInfo", lacking "nodes", lacking "totalCount"] | none
  let next ← optional nextCursor? info
  let tags ← withDefault [] (listOf tag?) nodes
  return ⟨⟨tags, next.join⟩, ← optional nat64? total⟩

/-! Calls -/

def starredPage (username : String) (cursor : Option String) (perPage : Nat) :
    Call (Page StarredRepo) :=
  let values :=
    [("login", .str username), ("first", .int perPage), ("after", ofOption .str cursor)]
  ask (request starredQuery values) ("user " ++ username) "user" "starredRepositories"
    starredPage?

def askTags (query fullName : String) (values : List (String × Json)) : Call TagPage :=
  ask (request query values) fullName "repository" "refs" tagPage?

def hasTags (fullName : String) : Call Bool :=
  match Route.ownerAndName fullName with
  | .error e => .done (.error e)
  | .ok (owner, name) =>
    (askTags tagCountQuery fullName [("owner", .str owner), ("name", .str name)]).bind fun reply =>
      .done (reply.map fun tags => decide (0 < tags.total.getD 0))

def tagsFrom (fullName owner name : String) : (budget : Nat) → Option String → Call (List Tag)
  | 0, _ => .stop .unfinished
  | budget + 1, after =>
    let values := [("owner", .str owner), ("name", .str name), ("after", ofOption .str after)]
    (askTags tagsQuery fullName values).bind fun reply =>
      match reply with
      | .error e => .done (.error e)
      | .ok ⟨⟨tags, none⟩, _⟩ => .done (.ok tags)
      | .ok ⟨⟨tags, some cursor⟩, _⟩ =>
        (tagsFrom fullName owner name budget (some cursor)).bind fun rest =>
          .done (rest.map (tags ++ ·))

def allTags (budget : Nat) (fullName : String) : Call (List Tag) :=
  match Route.ownerAndName fullName with
  | .error e => .done (.error e)
  | .ok (owner, name) => tagsFrom fullName owner name budget none

end ReleaseTracker.GitHub.GraphQl
