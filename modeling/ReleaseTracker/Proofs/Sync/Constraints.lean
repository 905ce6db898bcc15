import ReleaseTracker.Proofs.Store.Keys
import ReleaseTracker.Proofs.Sync.StarReconciliation
import ReleaseTracker.Proofs.Sync.StoreFailure
import ReleaseTracker.Proofs.Sync.VersionTally

/-! The calls of a unit of work keep the keys of the tables, whatever GitHub answers. So with a
reliable store no error of the store ends one. -/

namespace ReleaseTracker
open Program StoreRule

namespace StarSync
variable {options : SyncOptions} {identity : Identity} {user : User} {t t' : Tables} {log : Log}
  {result : Except Fault Outcome}

theorem refused_reliable {e : ApiError}
    (hrun : (refused user e).Runs reliable.conduct t log result t') :
    ∃ outcome, result = .ok outcome := by
  unfold refused at hrun
  split_ifs at hrun
  · obtain ⟨now, rest, hrest, -⟩ := Work.runs_clock_bind_iff.mp hrun
    obtain ⟨e, hmark, -⟩ | ⟨_, mid, last, -, hlast, -⟩ := Work.runs_store_bind_iff.mp hrest
    · simp at hmark
    · exact ⟨_, (runs_done_iff.mp hlast).2.1⟩
  · exact ⟨_, (runs_done_iff.mp hrun).2.1⟩

theorem reconcile_reliable (huser : (t.user? user.id).isSome)
    (hrun : (reconcile options identity user).Runs reliable.conduct t log result t') :
    ∀ e, result ≠ .error (.store e) := by
  obtain ⟨e, hfind, -⟩ | ⟨previous, mid, rest, hfind, hrest, -⟩ :=
    Work.runs_store_bind_iff.mp hrun
  · simp at hfind
  obtain ⟨-, rfl⟩ := reliable_findStars_iff.mp hfind
  obtain ⟨answer, last, hlast, -⟩ := Work.runs_github_bind_iff.mp hrest
  cases answer with
  | error e =>
    obtain ⟨outcome, rfl⟩ := refused_reliable hlast
    simp
  | ok first =>
    obtain ⟨outcome, rfl⟩ | ⟨rfl, -⟩ | ⟨rfl, -⟩ := walkAndSettle_ends huser hlast <;> simp

end StarSync

variable {options : SyncOptions} {identity : Identity} {t t' : Tables} {log : Log}
  {result : Except Fault Outcome}

theorem syncStars_reliable {userId : Int}
    (hrun : (syncStars options identity userId).Runs reliable.conduct t log result t') :
    ∀ e, result ≠ .error (.store e) := by
  obtain ⟨e, hfind, -⟩ | ⟨found, mid, rest, hfind, hrest, -⟩ := Work.runs_store_bind_iff.mp hrun
  · simp at hfind
  obtain ⟨hfound, rfl⟩ := reliable_findUser_iff.mp hfind
  obtain rfl := Except.ok.inj hfound
  cases huser : mid.user? userId with
  | none =>
    rw [huser] at hrest
    simp [(runs_done_iff.mp hrest).2.1]
  | some user =>
    rw [huser] at hrest
    dsimp only at hrest
    split_ifs at hrest
    · simp [(runs_done_iff.mp hrest).2.1]
    obtain ⟨quota, last, hlast, -⟩ := Work.runs_probe_bind_iff.mp hrest
    split_ifs at hlast
    · have hpresent : (mid.user? user.id).isSome := by
        rw [Tables.user?_id huser, huser]
        rfl
      exact StarSync.reconcile_reliable hpresent hlast
    · simp [(runs_done_iff.mp hlast).2.1]

theorem syncVersions_reliable {repoId : Int}
    (hrun : (syncVersions options identity repoId).Runs reliable.conduct t log result t') :
    ∀ e, result ≠ .error (.store e) := by
  cases VersionSync.syncVersions_tallied reliable_le_fallible hrun with
  | failed hfaulty => exact absurd le_rfl hfaulty
  | aborted | counted => simp

/-! Any unit of work -/

section Engine
variable {engine : Engine} {item : WorkItem}

theorem Engine.sync_strict : (engine.sync identity item).Strict := by
  cases item with
  | stars userId => exact syncStars_strict
  | versions repoId => exact syncVersions_strict

theorem Engine.sync_reliable
    (hrun : (engine.sync identity item).Runs reliable.conduct t log result t') :
    ∀ e, result ≠ .error (.store e) := by
  cases item with
  | stars userId => exact syncStars_reliable hrun
  | versions repoId => exact syncVersions_reliable hrun

theorem Engine.sync_admitting
    (hrun : (engine.sync identity item).Runs reliable.conduct t log result t') :
    (engine.sync identity item).Runs admitting.conduct t log result t' :=
  Engine.sync_strict.under hrun (sync_reliable hrun) fun _ _ _ _ => admitting_of_ok

end Engine

theorem StoreRule.keyed_of_conduct {query : Task.Query} {answer : Task.Answer query}
    (h : admitting.conduct t query answer t') (hkeyed : t.Keyed) : t'.Keyed := by
  cases query with
  | store call => exact keyed_of_admitting h hkeyed
  | _ =>
    obtain rfl : t' = t := h
    exact hkeyed

theorem StoreRule.retains_of_conduct {query : Task.Query} {answer : Task.Answer query}
    (h : reliable.conduct t query answer t') : t.Retains t' := by
  cases query with
  | store call => exact retains_of_reliable h
  | _ =>
    obtain rfl : t' = t := h
    exact .refl t'

/-- With a reliable store, each call of a unit of work is one that keeps the keys of the tables as
they then are, and no error of the store ends it. Tables whose keys hold are left so. -/
theorem sync_keeps_keys {σ : Type} (w : Surroundings reliable σ) (engine : Engine)
    (identity : Identity) (item : WorkItem) (s : σ) :
    (engine.sync identity item).Runs admitting.conduct (w.tables s)
        (w.transcript (engine.sync identity item) s) (w.run (engine.sync identity item) s).1
        (w.tables (w.run (engine.sync identity item) s).2) ∧
      (∀ call answer, ⟨.store call, answer⟩ ∈ w.transcript (engine.sync identity item) s →
        ∃ value, answer = .ok value) ∧
      (∀ e, (w.run (engine.sync identity item) s).1 ≠ .error (.store e)) ∧
      ((w.tables s).Keyed → (w.tables (w.run (engine.sync identity item) s).2).Keyed) := by
  have hrun := w.runs (engine.sync identity item) s
  have hadmitting := Engine.sync_admitting hrun
  refine ⟨hadmitting, fun call answer hmem => ?_, Engine.sync_reliable hrun, fun hkeyed => ?_⟩
  · obtain ⟨before, after, hconduct⟩ := hadmitting.conducted _ hmem
    exact admitting_ok hconduct
  · exact hadmitting.keeps (fun _ _ _ _ => keyed_of_conduct) hkeyed

end ReleaseTracker
