import ReleaseTracker.Proofs.GitHub.RestListing
import ReleaseTracker.Proofs.GitHub.TagPages
import ReleaseTracker.Proofs.Sync.Surroundings

/-! The exchanges that calls on GitHub are made of. The exchanges of a log are those of its calls,
one call after another (`Log.Over`). A page of stars takes one of them. -/

namespace ReleaseTracker
open Program

namespace GitHub
open Json

variable {α : Type} {listing : ListingKind} {budget : Nat} {exchanges : List (Answered Exchange)}
  {username : String} {cursor : Option String} {perPage : Nat}

/-- The call may be made by these exchanges, and then comes to this answer. -/
def ApiCall.Over (listing : ListingKind) (budget : Nat) (call : ApiCall)
    (exchanges : List (Answered Exchange)) (answer : Except ApiError call.Result) : Prop :=
  (call.program listing budget).Runs anyhow () exchanges (.ok answer) ()

theorem runs_answered_iff {a answer : Except ApiError α} :
    (Program.done a : Call α).Runs anyhow () exchanges (.ok answer) () ↔
      exchanges = [] ∧ answer = a := by
  constructor
  · intro h
    obtain ⟨hnone, hanswer, -⟩ := runs_done_iff.mp h
    exact ⟨hnone, Except.ok.inj hanswer⟩
  · rintro ⟨rfl, rfl⟩
    exact .done _ _

theorem runs_once_iff {request : Request} {f : Reply → Except ApiError α}
    {answer : Except ApiError α} :
    (Program.ask (I := Exchange) (ε := Fault) request fun (reply : Reply) => .done (f reply)).Runs
        anyhow () exchanges (.ok answer) () ↔
      ∃ reply : Reply, exchanges = [⟨request, reply⟩] ∧ answer = f reply := by
  refine runs_ask_iff.trans ?_
  constructor
  · rintro ⟨reply, mid, rest, -, hrest, rfl⟩
    obtain ⟨rfl, hanswer⟩ := runs_answered_iff.mp hrest
    exact ⟨reply, rfl, hanswer⟩
  · rintro ⟨reply, rfl, rfl⟩
    exact ⟨reply, (), [], trivial, .done _ _, rfl⟩

def requestOf (exchange : Answered Exchange) : Request := exchange.query

def replyOf (exchange : Answered Exchange) : Reply := exchange.answer

namespace Rest

def starredRequest (username : String) (page perPage : Nat) : Request :=
  ⟨.get, starredTarget username page perPage, none⟩

def hearStars (username : String) (page perPage : Nat) (reply : Reply) :
    Except ApiError (List StarredRepo) :=
  reply.read (starredTarget username page perPage) (listOf starredRepo?)

def pageOf (page : Nat) (items : List StarredRepo) : Page StarredRepo :=
  ⟨items, some (toString (Word.next32 page))⟩

def CountsUp (username : String) (perPage : Nat) (wire : List (Answered Exchange)) : Prop :=
  wire.map requestOf = (List.range wire.length).map fun k => starredRequest username (k + 1) perPage

def TellsPages (username : String) (perPage : Nat) (contents : List (List StarredRepo))
    (wire : List (Answered Exchange)) : Prop :=
  ∀ k items exchange, (contents ++ [[]])[k]? = some items → wire[k]? = some exchange →
    hearStars username (k + 1) perPage (replyOf exchange) = .ok items

end Rest

theorem ApiCall.over_restPage_iff {answer : Except ApiError (Page StarredRepo)} :
    (ApiCall.starredPage username cursor perPage).Over .rest budget exchanges answer ↔
      ∃ reply : Reply,
        exchanges = [⟨Rest.starredRequest username (Rest.pageNumber cursor) perPage, reply⟩] ∧
        answer = (Rest.hearStars username (Rest.pageNumber cursor) perPage reply).map
          (Rest.pageOf (Rest.pageNumber cursor)) := by
  have hcall : (ApiCall.starredPage username cursor perPage).program .rest budget =
      .ask (I := Exchange) (Rest.starredRequest username (Rest.pageNumber cursor) perPage)
        fun (reply : Reply) => .done ((Rest.hearStars username (Rest.pageNumber cursor) perPage
          reply).map (Rest.pageOf (Rest.pageNumber cursor))) := by
    refine congrArg (Program.ask (I := Exchange) _) (funext fun (reply : Reply) => ?_)
    rw [Rest.hearStars, ← Reply.read_map]
    refine congrArg (fun read => Program.done (Reply.read _ read reply)) (funext fun v => ?_)
    cases Json.listOf Rest.starredRepo? v <;> rfl
  unfold Over
  rw [hcall]
  exact runs_once_iff

theorem ApiCall.over_queryPage_iff {answer : Except ApiError (Page StarredRepo)} :
    (ApiCall.starredPage username cursor perPage).Over .graphql budget exchanges answer ↔
      ∃ reply : Reply,
        exchanges = [⟨GraphQl.starredRequest username cursor perPage, reply⟩] ∧
        answer = (GraphQl.hearStars username reply).map GraphQl.Report.page := by
  refine runs_once_iff.trans (exists_congr fun reply => and_congr_right fun _ => ?_)
  rw [← GraphQl.hear_starredPage]
  exact Iff.rfl

end GitHub

inductive Log.Over (listing : ListingKind) (budget : Nat) :
    Log → List (Answered GitHub.Exchange) → Prop
  | nil : Over listing budget [] []
  | cons {identity : Identity} {call : GitHub.ApiCall}
      {answer : Except ApiError call.Result} {log : Log}
      {exchanges wire : List (Answered GitHub.Exchange)}
      (first : call.Over listing budget exchanges answer) (rest : Over listing budget log wire) :
      Over listing budget (⟨.github identity call, answer⟩ :: log) (exchanges ++ wire)

theorem Log.over_nil_iff {listing : ListingKind} {budget : Nat}
    {wire : List (Answered GitHub.Exchange)} : Log.Over listing budget [] wire ↔ wire = [] := by
  constructor
  · rintro ⟨⟩
    rfl
  · rintro rfl
    exact .nil

theorem Log.over_cons_iff {listing : ListingKind} {budget : Nat} {identity : Identity}
    {call : GitHub.ApiCall} {answer : Except ApiError call.Result} {log : Log}
    {wire : List (Answered GitHub.Exchange)} :
    Log.Over listing budget (⟨.github identity call, answer⟩ :: log) wire ↔
      ∃ exchanges rest, call.Over listing budget exchanges answer ∧
        Log.Over listing budget log rest ∧ wire = exchanges ++ rest := by
  constructor
  · intro h
    cases h with
    | cons hfirst hrest => exact ⟨_, _, hfirst, hrest, rfl⟩
  · rintro ⟨exchanges, rest, hfirst, hrest, rfl⟩
    exact .cons hfirst hrest

end ReleaseTracker
