import ReleaseTracker.GitHub.Client
import ReleaseTracker.Proofs.Json.Objects

/-! Servers that answer each request for itself, and what calls come to there. The two interfaces
differ in what they request for listings, and in nothing else (`Server.call_elsewhere`). -/

namespace ReleaseTracker.GitHub
open Json Program

abbrev Server := Request → Reply

namespace Server

def answer (server : Server) : Handler Exchange Fault Unit :=
  fun (request : Request) _ => (.ok (server request), ())

def result {α : Type} (server : Server) (exchanges : Call α) : Except Fault (Except ApiError α) :=
  (exchanges.run server.answer ()).1

def call (server : Server) (listing : ListingKind) (budget : Nat) (call : ApiCall) :
    Except Fault (Except ApiError call.Result) := server.result (call.program listing budget)

variable {α β : Type} {server : Server}

theorem result_ask (request : Request) (next : Reply → Call α) :
    server.result (.ask (I := Exchange) request next) = server.result (next (server request)) := rfl

theorem result_get (target : String) (read : Json → Option α) :
    server.result (get target read) =
      .ok ((server ⟨.get, target, none⟩).read target read) := rfl

theorem result_bind (exchanges : Call α) (next : Except ApiError α → Call β) :
    server.result (exchanges.bind next) =
      match server.result exchanges with
      | .ok a => server.result (next a)
      | .error e => .error e := by
  unfold result
  rw [run_bind]
  rcases exchanges.run server.answer () with ⟨_ | a, ⟨⟩⟩ <;> rfl

theorem result_bind_of_ok {exchanges : Call α} {a : Except ApiError α}
    (h : server.result exchanges = .ok a) (next : Except ApiError α → Call β) :
    server.result (exchanges.bind next) = server.result (next a) := by
  rw [result_bind, h]

end Server

/-! Replies -/

/-- A success whose body begins with a value of this sort. -/
def Reply.Carries (holds : Json → Prop) (reply : Reply) : Prop :=
  ∃ status body v, reply = .received status body ∧ isSuccess status = true ∧
    body.front? = some v ∧ holds v

theorem Reply.Carries.read {α : Type} {holds : Json → Prop} {reply : Reply} {good : α → Prop}
    {read : Json → Option α} (h : reply.Carries holds)
    (hread : ∀ v, holds v → ∃ a, read v = some a ∧ good a) (resource : String) :
    ∃ a, reply.read resource read = .ok a ∧ good a := by
  obtain ⟨status, body, v, rfl, hstatus, hfront, hv⟩ := h
  obtain ⟨a, ha, hgood⟩ := hread v hv
  refine ⟨a, ?_, hgood⟩
  simp [Reply.read, hstatus, hfront, ha]

theorem Reply.Carries.read_eq {α : Type} {holds : Json → Prop} {reply : Reply} {a : α}
    {read : Json → Option α} (h : reply.Carries holds) (hread : ∀ v, holds v → read v = some a)
    (resource : String) : reply.read resource read = .ok a := by
  have hsame : ∃ b, reply.read resource read = .ok b ∧ a = b :=
    h.read (fun v hv => ⟨a, hread v hv, rfl⟩) resource
  obtain ⟨_, hok, rfl⟩ := hsame
  exact hok

/-! Requests for anything but listings -/

def objectNames : List String := ["tags", "commits", "blobs"]

inductive Request.Elsewhere : Request → Prop
  | quota : Elsewhere ⟨.get, "/rate_limit", none⟩
  | release (owner name tag : String) :
      Elsewhere ⟨.get, Route.path ["repos", owner, name, "releases", "tags", tag], none⟩
  | object (owner name sha : String) {kind : String} (known : kind ∈ objectNames) :
      Elsewhere ⟨.get, Route.path ["repos", owner, name, "git", kind, sha], none⟩
  | markdown (body : Json) : Elsewhere ⟨.post, "/markdown", some body⟩

def ApiCall.goesByListing : ApiCall → Bool
  | .starredPage _ _ _ | .hasTags _ | .allTags _ => true
  | _ => false

namespace Server
variable {α : Type} {rest graphql : Server}

theorem result_getOfRepo (server : Server) (fullName parameters : String) (names : List String)
    (read : Json → Option α) : server.result (Rest.getOfRepo fullName names parameters read) =
      match Route.ownerAndName fullName with
      | .ok (owner, name) =>
        let target := Route.path ("repos" :: owner :: name :: names) ++ parameters
        .ok ((server ⟨.get, target, none⟩).read target read)
      | .error e => .ok (.error e) := by
  unfold Rest.getOfRepo Route.ofRepo
  cases Route.ownerAndName fullName with
  | error e => rfl
  | ok => rfl

theorem getOfRepo_elsewhere {names : List String} (fullName : String) (read : Json → Option α)
    (h : ∀ request : Request, request.Elsewhere → rest request = graphql request)
    (hnames : ∀ owner name, Request.Elsewhere
      ⟨.get, Route.path ("repos" :: owner :: name :: names), none⟩) :
    ∃ a, rest.result (Rest.getOfRepo fullName names "" read) = .ok a ∧
      graphql.result (Rest.getOfRepo fullName names "" read) = .ok a := by
  rw [result_getOfRepo, result_getOfRepo]
  cases Route.ownerAndName fullName with
  | error e => exact ⟨_, rfl, rfl⟩
  | ok found =>
    simp only [String.append_empty, h _ (hnames found.1 found.2)]
    exact ⟨_, rfl, rfl⟩

theorem call_elsewhere {call : ApiCall} (budget : Nat)
    (h : ∀ request : Request, request.Elsewhere → rest request = graphql request)
    (hcall : call.goesByListing = false) : ∃ a, rest.call .rest budget call = .ok a ∧
      graphql.call .graphql budget call = .ok a := by
  cases call with
  | remainingCalls =>
    refine ⟨_, result_get _ _, ?_⟩
    rw [h _ .quota]
    exact result_get _ _
  | starredPage | hasTags | allTags => cases hcall
  | releaseByTag fullName tag =>
    obtain ⟨a, hrest, hgraphql⟩ := getOfRepo_elsewhere fullName Release.ofJson? h
      fun owner name => .release owner name tag
    exact ⟨foundOrNone a, result_bind_of_ok hrest _, result_bind_of_ok hgraphql _⟩
  | blob fullName sha =>
    have hknown : "blobs" ∈ objectNames := by decide
    obtain ⟨a, hrest, hgraphql⟩ := getOfRepo_elsewhere fullName RawBlob.ofJson? h
      fun owner name => .object owner name sha hknown
    exact ⟨a.bind RawBlob.decode, result_bind_of_ok hrest _, result_bind_of_ok hgraphql _⟩
  | annotatedTag fullName sha | commit fullName sha =>
    exact getOfRepo_elsewhere fullName _ h fun owner name => .object owner name sha (by decide)
  | renderMarkdown text context =>
    refine ⟨_, result_ask _ _, ?_⟩
    rw [h _ (.markdown _)]
    exact result_ask _ _

end Server
end ReleaseTracker.GitHub
