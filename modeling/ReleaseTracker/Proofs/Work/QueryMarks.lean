import ReleaseTracker.Proofs.Sync.StarDeletion

/-! Marks over the interface by query. All depends on the first exchange for a user's stars, and on
the last one for a repository's tags: its reply says itself that the subject has gone, or its
response disowns the subject. -/

namespace ReleaseTracker
open GitHub (ApiCall Exchange Page Reply StarredRepo Tag replyOf)
open Program StoreRule

/-! Calls by query -/

namespace GitHub

def Reply.LosesUser (reply : Reply) : Prop :=
  (∃ body message, reply = .received 404 body ∧ errorMessage? body = some message) ∨
    reply.Disowns "user"

def Reply.LosesRepo (reply : Reply) : Prop := reply.SaysGone ∨ reply.Disowns "repository"

def Removed {α : Type} (answer : Except ApiError α) : Prop :=
  ∃ e, answer = .error e ∧ e.isRemoved = true

section Removed
variable {α β : Type} {e : ApiError}

theorem removed_error_iff : Removed (.error e : Except ApiError α) ↔ e.isRemoved = true := by
  simp [Removed]

theorem not_removed_ok {a : α} : ¬ Removed (.ok a : Except ApiError α) := by
  rintro ⟨_, ⟨⟩, -⟩

theorem removed_map_iff {f : α → β} {answer : Except ApiError α} :
    Removed (answer.map f) ↔ Removed answer := by
  cases answer with
  | error e => exact removed_error_iff.trans removed_error_iff.symm
  | ok a => exact iff_of_false not_removed_ok not_removed_ok

end Removed

namespace GraphQl

variable {α : Type} {name resource username fullName owner : String} {read : Json → Option α}
  {reply : Reply} {budget perPage : Nat} {after cursor : Option String}
  {exchanges : List (Answered Exchange)}

theorem hear_user_iff : (∃ e, hear resource "user" name read reply = .error e ∧
    e.isNotFound = true) ↔ reply.LosesUser := by
  rw [hear_loses_iff (fun _ => rfl) rfl, Reply.read_notFound_iff]
  rfl

theorem hear_repo_iff :
    Removed (hear resource "repository" name read reply) ↔ reply.LosesRepo := by
  unfold Removed
  rw [hear_loses_iff (fun _ => rfl) rfl, Reply.read_gone_iff]
  rfl

theorem starredPage_lost_iff {answer : Except ApiError (Page StarredRepo)}
    (h : (ApiCall.starredPage username cursor perPage).Over .graphql budget exchanges answer) :
    ∃ exchange, exchanges = [exchange] ∧
      ((∃ e, answer = .error e ∧ e.isNotFound = true) ↔ (replyOf exchange).LosesUser) := by
  obtain ⟨reply, rfl, rfl⟩ := ApiCall.over_queryPage_iff.mp h
  refine ⟨_, rfl, ?_⟩
  rw [← hear_starredPage]
  exact hear_user_iff

theorem hasTags_lost_iff {answer : Except ApiError Bool}
    (h : (ApiCall.hasTags fullName).Over .graphql budget exchanges answer) :
    (exchanges = [] ∧ (∀ some, answer ≠ .ok some) ∧ ¬ Removed answer) ∨
      ∃ owner name exchange, Route.ownerAndName fullName = .ok (owner, name) ∧
        exchanges = [exchange] ∧ (Removed answer ↔ (replyOf exchange).LosesRepo) := by
  change (hasTags fullName).Runs anyhow () exchanges (.ok answer) () at h
  unfold hasTags at h
  cases hname : Route.ownerAndName fullName with
  | error e =>
    rw [hname] at h
    obtain ⟨rfl, rfl⟩ := runs_answered_iff.mp h
    have hkept : e.isRemoved = false := Server.isRemoved_eq_false_of_ownerAndName hname
    exact .inl ⟨rfl, nofun, by simp [removed_error_iff, hkept]⟩
  | ok found =>
    obtain ⟨owner, name⟩ := found
    rw [hname] at h
    obtain ⟨reply, rfl, rfl⟩ := runs_once_iff.mp h
    exact .inr ⟨owner, name, _, rfl, rfl, removed_map_iff.trans hear_repo_iff⟩

theorem tagsFrom_lost_iff {answer : Except ApiError (List Tag)}
    (h : (tagsFrom fullName owner name budget after).Runs anyhow () exchanges (.ok answer) ()) :
    ∃ leading final, exchanges = leading ++ [final] ∧
      (Removed answer ↔ (replyOf final).LosesRepo) := by
  -- the pages before the final reply give tags, which no failure of their own can lose
  induction budget generalizing after exchanges answer with
  | zero =>
    obtain ⟨-, hstopped, -⟩ := runs_stop_iff.mp h
    cases hstopped
  | succ budget ih =>
    rw [tagsFrom_succ] at h
    obtain ⟨reply, mid, rest, -, hrest, rfl⟩ := runs_ask_iff.mp h
    have hreply : Removed (hearTags fullName reply) ↔ Reply.LosesRepo reply := hear_repo_iff
    cases hheard : hearTags fullName reply with
    | error e =>
      rw [hheard] at hrest hreply
      obtain ⟨rfl, rfl⟩ := runs_answered_iff.mp hrest
      exact ⟨[], _, rfl, removed_error_iff.trans (removed_error_iff.symm.trans hreply)⟩
    | ok report =>
      rw [hheard] at hrest hreply
      dsimp only [tagsHeard] at hrest
      cases hnext : report.next with
      | none =>
        rw [hnext] at hrest
        obtain ⟨rfl, rfl⟩ := runs_answered_iff.mp hrest
        exact ⟨[], _, rfl, (iff_of_false not_removed_ok not_removed_ok).trans hreply⟩
      | some cursor =>
        rw [hnext] at hrest
        obtain ⟨more, _, first, last, hmore, hlast, rfl⟩ := runs_bind_ok_iff.mp hrest
        obtain ⟨rfl, rfl⟩ := runs_answered_iff.mp hlast
        obtain ⟨leading, final, rfl, hfinal⟩ := ih hmore
        exact ⟨_ :: leading, final, by rw [List.append_nil]; rfl, removed_map_iff.trans hfinal⟩

theorem allTags_lost_iff {answer : Except ApiError (List Tag)}
    (h : (ApiCall.allTags fullName).Over .graphql budget exchanges answer)
    (hname : Route.ownerAndName fullName = .ok (owner, name)) :
    ∃ leading final, exchanges = leading ++ [final] ∧
      (Removed answer ↔ (replyOf final).LosesRepo) := by
  change (allTags budget fullName).Runs anyhow () exchanges (.ok answer) () at h
  rw [allTags, hname] at h
  exact tagsFrom_lost_iff h

end GraphQl
end GitHub

/-! Listings of an item -/

namespace WorkItem

def deciding (wire : List (Answered Exchange)) : WorkItem → Option (Answered Exchange)
  | .stars _ => wire.head?
  | .versions _ => wire.getLast?

def LostBy : WorkItem → Reply → Prop
  | .stars _, reply => reply.LosesUser
  | .versions _, reply => reply.LosesRepo

variable {options : SyncOptions} {identity : Identity} {listings : Log} {budget : Nat}
  {wire : List (Answered Exchange)}

theorem saidGone_stars_iff {userId : Int} {user : User}
    (hasked : (WorkItem.stars userId).Asked options identity listings (some user))
    (hwire : listings.Over .graphql budget wire) :
    (WorkItem.stars userId).SaidGone options identity listings (some user) ↔
      ∃ exchange, wire.head? = some exchange ∧ (replyOf exchange).LosesUser := by
  obtain ⟨answer, hfirst⟩ := hasked
  obtain ⟨rest, rfl⟩ := List.head?_eq_some_iff.mp hfirst
  obtain ⟨exchanges, later, hcall, -, rfl⟩ := Log.over_cons_iff.mp hwire
  obtain ⟨exchange, rfl, hlost⟩ := GitHub.GraphQl.starredPage_lost_iff hcall
  rw [StarSync.saidGone_iff, hlost]
  simp

theorem saidGone_versions_iff {repoId : Int} {repo : Repo}
    (hasked : (WorkItem.versions repoId).Asked options identity listings (some repo))
    (hwire : listings.Over .graphql budget wire) :
    (WorkItem.versions repoId).SaidGone options identity listings (some repo) ↔
      ∃ exchange, wire.getLast? = some exchange ∧ (replyOf exchange).LosesRepo := by
  obtain ⟨tagged, hnone, rfl⟩ | ⟨listed, rfl⟩ := hasked
  · obtain ⟨exchanges, later, hcall, hlater, rfl⟩ := Log.over_cons_iff.mp hwire
    obtain rfl := Log.over_nil_iff.mp hlater
    rw [VersionSync.saidGone_first_iff]
    obtain ⟨rfl, -, hkept⟩ | ⟨owner, name, exchange, -, rfl, hlost⟩ :=
      GitHub.GraphQl.hasTags_lost_iff hcall
    · refine iff_of_false hkept ?_
      rintro ⟨exchange, ⟨⟩, -⟩
    · refine hlost.trans ?_
      simp
  · obtain ⟨exchanges, later, hcall, hlater, rfl⟩ := Log.over_cons_iff.mp hwire
    obtain ⟨exchanges', later', hcall', hlater', rfl⟩ := Log.over_cons_iff.mp hlater
    obtain rfl := Log.over_nil_iff.mp hlater'
    rw [VersionSync.saidGone_second_iff]
    obtain ⟨-, hfailed, -⟩ | ⟨owner, name, exchange, hname, rfl, -⟩ :=
      GitHub.GraphQl.hasTags_lost_iff hcall
    · exact absurd rfl (hfailed true)
    · obtain ⟨leading, final, rfl, hlost⟩ := GitHub.GraphQl.allTags_lost_iff hcall' hname
      have hlast : ([exchange] ++ (leading ++ [final] ++ [])).getLast? = some final := by
        rw [List.append_nil, ← List.append_assoc]
        exact List.getLast?_concat
      refine hlost.trans ?_
      rw [hlast]
      simp

theorem not_saidGone_nil {item : WorkItem} {found : item.lookup.Result} :
    ¬ item.SaidGone options identity [] found := by
  intro hsaid
  cases item with
  | stars userId =>
    match found with
    | none => exact hsaid
    | some user =>
      obtain ⟨resource, hfirst⟩ := hsaid
      cases hfirst
  | versions repoId =>
    match found with
    | none => exact hsaid
    | some repo =>
      obtain ⟨e, resource, -, hfirst | hsecond⟩ := hsaid
      · cases hfirst
      · cases hsecond

theorem saidGone_iff {item : WorkItem} {found : item.lookup.Result}
    (hasked : listings = [] ∨ item.Asked options identity listings found)
    (hwire : listings.Over .graphql budget wire) :
    item.SaidGone options identity listings found ↔
      ∃ exchange, item.deciding wire = some exchange ∧ item.LostBy (replyOf exchange) := by
  obtain rfl | hasked := hasked
  · obtain rfl := Log.over_nil_iff.mp hwire
    have hnone : item.deciding [] = none := by cases item <;> rfl
    simp [not_saidGone_nil, hnone]
  · cases item with
    | stars userId =>
      match found with
      | none => cases hasked
      | some user => exact saidGone_stars_iff hasked hwire
    | versions repoId =>
      match found with
      | none => cases hasked
      | some repo => exact saidGone_versions_iff hasked hwire

end WorkItem

/-! What is asked in a run -/

namespace VersionSync
variable {options : SyncOptions} {identity : Identity} {repoId : Int} {repo : Repo} {log : Log}
  {t t' : Tables} {result : Except Fault Outcome}

theorem refused_listings {e : ApiError}
    (hrun : (refused repo e).Runs fallible.conduct t log result t') : log.listings = [] := by
  obtain ⟨-, now, answer, rfl⟩ | ⟨-, rfl⟩ := (WorkItem.versions repo.id).refusal_runs hrun
  · rfl
  · rfl

theorem reconcile_asked
    (hrun : (reconcile options identity repo).Runs fallible.conduct t log result t') :
    (WorkItem.versions repoId).Asked options identity log.listings (some repo) := by
  obtain ⟨tagged, rest, hrest, rfl⟩ := Work.runs_github_bind_iff.mp hrun
  match tagged with
  | .error e => exact .inl ⟨.error e, nofun, congrArg (List.cons _) (refused_listings hrest)⟩
  | .ok false =>
    obtain ⟨rfl, -⟩ := runs_done_iff.mp hrest
    exact .inl ⟨.ok false, nofun, rfl⟩
  | .ok true =>
    obtain ⟨listed, last, hlast, rfl⟩ := Work.runs_github_bind_iff.mp hrest
    have hnone : Log.listings last = [] := by
      cases listed with
      | error e => exact refused_listings hlast
      | ok tags => exact (pass_runs hlast).2
    exact .inr ⟨listed, congrArg (fun more => _ :: _ :: more) hnone⟩

end VersionSync

namespace Engine
variable {engine : Engine} {item : WorkItem} {identity : Identity} {found : item.lookup.Result}
  {log : Log} {t t' : Tables} {result : Except Fault Outcome}

theorem pursue_asked
    (hrun : (engine.pursue identity item found).Runs fallible.conduct t log result t') :
    log.listings = [] ∨ item.Asked engine.options identity log.listings found := by
  cases item with
  | stars userId =>
    match found with
    | none =>
      obtain ⟨rfl, -⟩ := runs_done_iff.mp hrun
      exact .inl rfl
    | some user =>
      obtain ⟨-, hnone⟩ | ⟨before, last, hwalked⟩ := StarSync.reconcile_over hrun
      · exact .inl hnone
      · refine .inr ?_
        rw [hwalked.calls]
        cases before with
        | nil => exact ⟨last, rfl⟩
        | cons first before => exact ⟨first, rfl⟩
  | versions repoId =>
    match found with
    | none =>
      obtain ⟨rfl, -⟩ := runs_done_iff.mp hrun
      exact .inl rfl
    | some repo => exact .inr (VersionSync.reconcile_asked hrun)

theorem sync_asked
    (hrun : (engine.sync identity item).Runs fallible.conduct t log result t') :
    log.listings = [] ∨ item.Asked engine.options identity log.listings (item.rowIn t) := by
  obtain ⟨e, rfl⟩ | ⟨-, rfl⟩ | ⟨answer, -, rfl⟩ | ⟨calls, rest, -, -, hrest, rfl⟩ := sync_runs hrun
  · exact .inl rfl
  · exact .inl rfl
  · exact .inl rfl
  · rw [Log.listings_cons rfl, Log.listings_cons rfl]
    exact pursue_asked hrest

end Engine

variable {σ : Type}

/-- A response that was a success counts as not found exactly if it disowns what was asked for, and
gives a listing exactly if it grants one. Any other is a failure to read it. By query a subject is
marked exactly if it is pursued, and in the exchange that decides GitHub replied that it has gone,
or disowned it. -/
theorem query_marks_what_is_disowned :
    (∀ {α : Type} (resource root name : String) (read : Json → Option α) (status : Nat)
      (body : GitHub.Body), GitHub.isSuccess status = true →
        let reply : Reply := .received status body
        let heard := GitHub.GraphQl.hear resource root name read reply
        ((∃ e, heard = .error e ∧ e.isNotFound = true) ↔ reply.Disowns root) ∧
        (∀ listing, heard = .ok listing ↔ reply.Grants root name read listing) ∧
        ∀ e, heard = .error e → e.isNotFound = true ∨ ∃ message, e = .decode message) ∧
    ∀ (w : Surroundings fallible σ) (engine : Engine) (identity : Identity) (item : WorkItem)
      (s : σ) (budget : Nat) (wire : List (Answered Exchange)),
        let log := w.transcript (engine.sync identity item) s
        log.listings.Over .graphql budget wire → (log.marks ≠ [] ↔
          item.Pursued identity (item.rowIn (w.tables s)) log ∧
            ∃ exchange, item.deciding wire = some exchange ∧ item.LostBy (replyOf exchange)) := by
  refine ⟨fun resource root name read status body hstatus => ?_, ?_⟩
  · refine ⟨GitHub.GraphQl.hear_notFound_iff hstatus, fun listing => GitHub.GraphQl.hear_ok_iff, ?_⟩
    intro e herror
    exact GitHub.GraphQl.hear_success_error hstatus herror
  · intro w engine identity item s budget wire log hwire
    have hrun := w.runs (engine.sync identity item) s
    have hsaid := WorkItem.saidGone_iff (Engine.sync_asked hrun) hwire
    rw [(Engine.sync_judged hrun).marked, hsaid]

namespace StarSync.Sample

def hollow : GitHub.Server := fun _ => .received 200 (.json (.obj []))

end StarSync.Sample

open StarSync.Sample Engine.Sample in
/-- An empty object names no user at all, but counts as not found, so that the user is marked. -/
theorem query_marks_what_is_disowned_hollow :
    let log := (queryWorld hollow).transcript (engine.sync .app (.stars 1)) tables
    log.listings.Over .graphql 1 [asked hollow none] ∧
      (replyOf (asked hollow none)).Disowns "user" ∧
      (∃ e, GitHub.GraphQl.hearStars "ann" (replyOf (asked hollow none)) = .error e ∧
        e.isNotFound = true) ∧
      (WorkItem.stars 1).Pursued .app (tables.user? 1) log ∧
      log.marks = [.markUserRemoved 1 time] := by
  intro log
  obtain ⟨hheard, hmarks⟩ := query_marks_what_is_disowned (σ := Tables)
  have hlistings : log.listings = [⟨.github .app (.starredPage "ann" none 100),
      Except.error (.notFound "user ann")⟩] := rfl
  have hcall : (ApiCall.starredPage "ann" none 100).Over .graphql 1 [asked hollow none]
      (.error (.notFound "user ann")) := GitHub.ApiCall.over_queryPage_iff.mpr ⟨_, rfl, rfl⟩
  have hover : log.listings.Over .graphql 1 [asked hollow none] := by
    rw [hlistings]
    exact .cons hcall .nil
  have hmarked : log.marks = [.markUserRemoved 1 time] := rfl
  obtain ⟨hpursued, exchange, hdeciding, hlost⟩ :=
    (hmarks (queryWorld hollow) engine .app (.stars 1) tables 1 _ hover).mp
      (hmarked ▸ List.cons_ne_nil _ _)
  obtain rfl := Option.some.inj hdeciding
  obtain ⟨hnotFound, -⟩ := hheard "user ann" "user" "starredRepositories"
    GitHub.GraphQl.starReport? 200 (.json (.obj [])) rfl
  have hdisowns : (replyOf (asked hollow none)).Disowns "user" := by
    obtain ⟨body, message, hreply, -⟩ | hdisowns := hlost
    · cases hreply
    · exact hdisowns
  exact ⟨hover, hdisowns, hnotFound.mpr hdisowns, hpursued, hmarked⟩

end ReleaseTracker
