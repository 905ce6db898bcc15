import ReleaseTracker.Proofs.Sync.VersionAim
import ReleaseTracker.Proofs.Sync.VersionSurvey
import ReleaseTracker.Work.Engine

/-! Work that the first failure of the store ends. All units of work are of this kind, so a run that
did not end with an error of the store met none. -/

namespace ReleaseTracker
open GitHub (ApiCall Page StarredRepo Tag)
open Program

namespace Work
variable {α β : Type}

inductive Strict : Work α → Prop
  | done (a : α) : Strict (.done a)
  | stop (e : Fault) : Strict (.stop e)
  | store {call : StoreCall} {next : call.Result → Work α} (rest : ∀ result, Strict (next result)) :
      Strict ((Work.store call).bind next)
  | other {query : Task.Query} {next : Task.Answer query → Work α}
      (other : ∀ call, query ≠ .store call) (rest : ∀ answer, Strict (next answer)) :
      Strict (.ask (I := Task) query next)

theorem Strict.bind {p : Work α} {f : α → Work β} (h : p.Strict) (hf : ∀ a, (f a).Strict) :
    Work.Strict (p.bind f) := by
  induction h with
  | done a => exact hf a
  | stop e => exact .stop e
  | store _ ih =>
    rw [bind_assoc]
    exact .store ih
  | other hother _ ih => exact .other hother ih

theorem Strict.result_eq {rule : StoreRule} {p : Work α} {t t' : Tables} {log : Log}
    {result : Except Fault α} {call : StoreCall} {e : StoreError} (h : p.Strict)
    (hrun : p.Runs rule.conduct t log result t') (hmem : ⟨.store call, Except.error e⟩ ∈ log) :
    result = .error (.store e) := by
  induction h generalizing t log with
  | done a =>
    obtain ⟨rfl, -⟩ := runs_done_iff.mp hrun
    cases hmem
  | stop e =>
    obtain ⟨rfl, -⟩ := runs_stop_iff.mp hrun
    cases hmem
  | store _ ih =>
    obtain ⟨e', -, rfl, rfl⟩ | ⟨value, mid, rest, -, hrest, rfl⟩ := runs_store_bind_iff.mp hrun
    · cases List.mem_singleton.mp hmem
      rfl
    · rcases List.mem_cons.mp hmem with heq | hmem
      · cases heq
      · exact ih value hrest hmem
  | other hother _ ih =>
    obtain ⟨answer, mid, rest, -, hrest, rfl⟩ := runs_ask_iff.mp hrun
    rcases List.mem_cons.mp hmem with heq | hmem
    · cases heq
      exact absurd rfl (hother call)
    · exact ih answer hrest hmem

theorem Strict.under {rule rule' : StoreRule} {p : Work α} {t t' : Tables} {log : Log}
    {result : Except Fault α} (h : p.Strict) (hrun : p.Runs rule.conduct t log result t')
    (hresult : ∀ e, result ≠ .error (.store e))
    (hok : ∀ before call value after, rule before call (.ok value) after →
      rule' before call (.ok value) after) : p.Runs rule'.conduct t log result t' := by
  refine hrun.of_log fun event hevent before after hconduct => ?_
  obtain ⟨query, answer⟩ := event
  cases query with
  | store call =>
    change Except StoreError call.Result at answer
    cases answer with
    | ok value => exact hok before call value after hconduct
    | error e => exact absurd (h.result_eq hrun hevent) (hresult e)
  | _ => exact hconduct

theorem github_strict {identity : Identity} {call : ApiCall}
    {next : Except ApiError call.Result → Work α} (h : ∀ answer, (next answer).Strict) :
    Work.Strict ((github identity call).bind next) := .other (by simp) h

theorem clock_strict {next : Instant → Work α} (h : ∀ now, (next now).Strict) :
    Work.Strict (clock.bind next) := .other (by simp) h

theorem announce_strict {repoIds : List Int} {next : Bool → Work α}
    (h : ∀ accepted, (next accepted).Strict) : Work.Strict ((announce repoIds).bind next) :=
  .other (by simp) h

theorem Inquiry.strict {asks : ApiCall → Prop} {fails : ApiCall → α → Prop} {succeeds : α → Prop}
    {p : Work α} (h : Inquiry asks fails succeeds p) : p.Strict := by
  induction h with
  | done => exact .done _
  | github _ hfailure _ ih =>
    refine github_strict fun answer => ?_
    cases answer with
    | error e =>
      obtain ⟨a, hdone, -⟩ := hfailure e
      rw [hdone]
      exact .done a
    | ok value => exact ih value
  | clock _ ih => exact clock_strict ih

end Work

/-! Stars -/

namespace StarSync
variable {options : SyncOptions} {identity : Identity} {user : User} {userId : Int}
  {previous listed : List Int}

theorem isDue_strict {now : Instant} {known : Option Repo} :
    (isDue options now known).Strict := by
  unfold isDue
  split
  · exact .done true
  · split
    · exact .done _
    · exact .stop .crashed

theorem refresh_strict {now : Instant} {item : StarredRepo} :
    (refresh options now item).Strict := by
  refine .store fun known => isDue_strict.bind fun due => ?_
  split_ifs
  · exact .store fun _ => .done ()
  · exact .done ()

theorem follow_strict {repoId : Int} : (follow userId previous listed repoId).Strict := by
  unfold follow
  split_ifs
  · exact .done _
  · exact .done _
  · exact .store fun _ => .done _

theorem takeItems_strict {now : Instant} {items : List StarredRepo} :
    (takeItems options userId previous now listed items).Strict := by
  induction items generalizing listed with
  | nil => exact .done listed
  | cons item rest ih => exact refresh_strict.bind fun _ => follow_strict.bind fun _ => ih

theorem walk_strict {budget : Nat} {page : Page StarredRepo} :
    (walk options identity user previous budget listed page).Strict := by
  induction budget generalizing listed page with
  | zero => exact .stop .unfinished
  | succ budget ih =>
    refine Work.clock_strict fun now => takeItems_strict.bind fun listed => ?_
    split_ifs
    · exact .done _
    · refine Work.github_strict fun next => ?_
      cases next with
      | ok page => exact ih
      | error e => exact .done _

theorem settle_strict : (settle userId previous listed).Strict := by
  unfold settle
  split
  · exact .done _
  · exact .store fun _ => .done _

theorem refused_strict {e : ApiError} : (refused user e).Strict := by
  unfold refused
  split_ifs
  · exact Work.clock_strict fun now => .store fun _ => .done _
  · exact .done _

theorem reconcile_strict : (reconcile options identity user).Strict := by
  refine .store fun previous => Work.github_strict fun first => ?_
  cases first with
  | error e => exact refused_strict
  | ok page =>
    refine walk_strict.bind fun (listed, whole) => ?_
    dsimp only
    split_ifs
    · exact settle_strict
    · exact .done _

end StarSync

theorem syncStars_strict {options : SyncOptions} {identity : Identity} {userId : Int} :
    (syncStars options identity userId).Strict := by
  refine .store fun found => ?_
  cases found with
  | none => exact .done _
  | some user =>
    dsimp only
    split_ifs
    · exact .done _
    · refine Work.probe_inquiry.strict.bind fun quota => ?_
      split_ifs
      · exact StarSync.reconcile_strict
      · exact .done _

/-! Versions -/

namespace VersionSync
variable {options : SyncOptions} {identity : Identity} {repo : Repo} {staging : Staging}
  {tags : List Tag}

theorem flush_strict : staging.flush.Strict := by
  unfold Staging.flush
  split
  · exact .done staging
  · exact .store fun _ => .done _

theorem keep_strict {answer : Except StopReason (Option Version)} :
    (keep options staging answer).Strict := by
  match answer with
  | .error reason => exact .done _
  | .ok none => exact .done _
  | .ok (some row) =>
    refine Work.Strict.bind ?_ fun _ => .done _
    unfold Staging.flushIfFull
    split_ifs
    · exact flush_strict
    · exact .done _

theorem takeTag_strict {tag : Tag} : (takeTag options identity repo staging tag).Strict := by
  rw [takeTag_eq]
  refine .store fun stored => ?_
  split_ifs
  · exact .done _
  · exact examine_inquiry.strict.bind fun _ => keep_strict

theorem takeTags_strict : (takeTags options identity repo staging tags).Strict := by
  induction tags generalizing staging with
  | nil => exact .done _
  | cons tag rest ih =>
    refine takeTag_strict.bind fun (staging, reason?) => ?_
    cases reason? with
    | none => exact ih
    | some reason => exact .done _

theorem finish_strict {stop : Option StopReason} : (finish repo staging stop).Strict := by
  refine flush_strict.bind fun staging => Work.Strict.bind ?_ fun _ => .done _
  unfold announceNews
  split_ifs
  · exact Work.announce_strict fun _ => .done ()
  · exact .done ()

theorem refused_strict {e : ApiError} : (refused repo e).Strict := by
  unfold refused
  split_ifs
  · exact Work.clock_strict fun now => .store fun _ => .done _
  · exact .done _

theorem pursue_strict {aim : Aim} : (pursue options identity aim).Strict := by
  cases aim with
  | ended outcome => exact .done outcome
  | refused repo e => exact refused_strict
  | tags repo tags => exact takeTags_strict.bind fun _ => finish_strict

end VersionSync

theorem syncVersions_strict {options : SyncOptions} {identity : Identity} {repoId : Int} :
    (syncVersions options identity repoId).Strict := by
  rw [VersionSync.syncVersions_eq]
  exact .store fun found => VersionSync.aim_inquiry.strict.bind fun _ => VersionSync.pursue_strict

end ReleaseTracker
