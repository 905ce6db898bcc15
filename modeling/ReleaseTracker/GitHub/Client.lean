import ReleaseTracker.GitHub.GraphQl
import ReleaseTracker.GitHub.Rest

/-! The calls on GitHub, each as a program of exchanges. Listings go by one of two interfaces; all
else is the same for both. -/

namespace ReleaseTracker

inductive ListingKind where
  | rest
  | graphql
deriving DecidableEq, Repr

def ListingKind.name : ListingKind → String
  | .rest => "rest"
  | .graphql => "graphql"

def ListingKind.ofName? (name : String) : Option ListingKind :=
  [ListingKind.rest, .graphql].find? (·.name = name)

namespace GitHub

inductive ApiCall where
  | remainingCalls
  | starredPage (username : String) (cursor : Option String) (perPage : Nat)
  | hasTags (fullName : String)
  | allTags (fullName : String)
  | releaseByTag (fullName tag : String)
  | annotatedTag (fullName sha : String)
  | commit (fullName sha : String)
  | blob (fullName sha : String)
  | renderMarkdown (text context : String)
deriving DecidableEq, Repr

abbrev ApiCall.Result : ApiCall → Type
  | .remainingCalls => Nat
  | .starredPage _ _ _ => Page StarredRepo
  | .hasTags _ => Bool
  | .allTags _ => List Tag
  | .releaseByTag _ _ => Option Release
  | .annotatedTag _ _ => SignedMessage
  | .commit _ _ => SignedMessage
  | .blob _ _ => Blob
  | .renderMarkdown _ _ => String

/-- A resource that may not be there. -/
def foundOrNone {α : Type} : Except ApiError α → Except ApiError (Option α)
  | .ok a => .ok (some a)
  | .error e => if e.isNotFound then .ok none else .error e

def releaseByTag (fullName tag : String) : Call (Option Release) :=
  (Rest.getOfRepo fullName ["releases", "tags", tag] "" Release.ofJson?).bind fun reply =>
    .done (foundOrNone reply)

def blob (fullName sha : String) : Call Blob :=
  (Rest.getOfRepo fullName ["git", "blobs", sha] "" RawBlob.ofJson?).bind fun reply =>
    .done (reply.bind RawBlob.decode)

def renderMarkdown (text context : String) : Call String :=
  let body : Json := .obj [("text", .str text), ("mode", .str "gfm"), ("context", .str context)]
  .ask (⟨.post, "/markdown", some body⟩ : Request) fun reply => .done <|
    match (reply : Reply) with
    | .failed message => .error (.transport (ApiError.shortText message))
    | .received status body =>
      if isSuccess status then .ok body.toText
      else .error (.ofStatus status "/markdown" body.toText)

/-- The exchanges of a call. A list of tags may take up to `budget` of them. -/
def ApiCall.program (listing : ListingKind) (budget : Nat) : (call : ApiCall) → Call call.Result
  | .remainingCalls => get "/rate_limit" remaining?
  | .starredPage username cursor perPage =>
    match listing with
    | .rest => Rest.starredPage username cursor perPage
    | .graphql => GraphQl.starredPage username cursor perPage
  | .hasTags fullName =>
    match listing with
    | .rest => Rest.hasTags fullName
    | .graphql => GraphQl.hasTags fullName
  | .allTags fullName =>
    match listing with
    | .rest => Rest.allTags fullName
    | .graphql => GraphQl.allTags budget fullName
  | .releaseByTag fullName tag => GitHub.releaseByTag fullName tag
  | .annotatedTag fullName sha => Rest.getOfRepo fullName ["git", "tags", sha] "" tagObject?
  | .commit fullName sha => Rest.getOfRepo fullName ["git", "commits", sha] "" commit?
  | .blob fullName sha => GitHub.blob fullName sha
  | .renderMarkdown text context => GitHub.renderMarkdown text context

end GitHub
end ReleaseTracker
