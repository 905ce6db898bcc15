import Mathlib.Algebra.GroupWithZero.Nat
import ReleaseTracker.Proofs.Sync.VersionOutcome

/-! What a synchronisation of versions counts, stores and announces, whatever GitHub answers and
wherever the store fails. An outcome counts the rows that were added, and they were announced. A run
that the store ends announces nothing, although it may have stored batches before. -/

namespace ReleaseTracker
open GitHub (ApiCall Tag)
open Program StoreRule

namespace VersionSync
variable {rule : StoreRule} {options : SyncOptions} {identity : Identity} {repoId : Int}
  {t t' : Tables} {log : Log}

inductive Tallied (rule : StoreRule) (flushEvery : Nat) (repoId : Int) (t : Tables) (log : Log) :
    Except Fault Outcome → Tables → Prop
  | failed {e : StoreError} {flushed : List Version} {t' : Tables} (faulty : ¬ rule ≤ reliable)
      (versions : t'.versions = t.versions ++ flushed) (own : ∀ row ∈ flushed, row.repoId = repoId)
      (quiet : log.announcements = []) : Tallied rule flushEvery repoId t log (.error (.store e)) t'
  | aborted {reason : AbortReason} {t' : Tables} (versions : t'.versions = t.versions)
      (batches : log.batches = []) (quiet : log.announcements = []) :
      Tallied rule flushEvery repoId t log (.ok (.aborted reason)) t'
  | counted {outcome : Outcome} {added : List Version} {t' : Tables}
      (count : outcome.count = some added.length)
      (tables : t' = { t with versions := t.versions ++ added })
      (own : ∀ row ∈ added, row.repoId = repoId)
      (batches : log.batches = (pack flushEvery added).batches)
      (announced : log.Announced repoId added.length) :
      Tallied rule flushEvery repoId t log (.ok outcome) t'

theorem outcome_count (count : Nat) (stop : Option StopReason) :
    (outcome count stop).count = some count := by
  cases stop <;> rfl

theorem syncVersions_tallied (hrule : rule ≤ fallible) {result : Except Fault Outcome}
    (hrun : (syncVersions options identity repoId).Runs rule.conduct t log result t') :
    Tallied rule options.flushEvery repoId t log result t' := by
  cases syncVersions_synced hrule hrun with
  | lost hfaulty => exact .failed hfaulty (List.append_nil _).symm (by simp) rfl
  | @pursued aimed first rest _ _ haim hpursued =>
  have hinquiring := (aim_inquiry.runs haim).1
  have hquiet : Log.announcements
      (⟨.store (.findRepo repoId), Except.ok (t.repo? repoId)⟩ :: first) = [] :=
    hinquiring.announcements
  have hnone : Log.batches
      (⟨.store (.findRepo repoId), Except.ok (t.repo? repoId)⟩ :: first) = [] := by
    simp [hinquiring.batches]
  have hsuits := aim_suits haim
  rw [← List.cons_append]
  cases aimed with
  | ended outcome =>
    obtain ⟨rfl, rfl, rfl⟩ := runs_done_iff.mp hpursued
    rw [List.append_nil]
    rcases hsuits with rfl | ⟨reason, rfl⟩
    · have hcount : (Outcome.completed 0).count = some ([] : List Version).length := rfl
      refine .counted hcount (by rw [List.append_nil]) (by simp) hnone ?_
      simpa [Log.Announced] using hquiet
    · exact .aborted rfl hnone hquiet
  | refused repo e =>
    obtain ⟨hversions, hquiet', -, hnone', -, ⟨hfaulty, e', rfl⟩ | rfl⟩ :=
      refused_ends hrule hpursued
    · refine .failed hfaulty (by rw [hversions, List.append_nil]) (by simp) ?_
      rw [Log.announcements_append, hquiet, hquiet', List.append_nil]
    · refine .aborted hversions ?_ ?_
      · rw [Log.batches_append, hnone, hnone', List.append_nil]
      · rw [Log.announcements_append, hquiet, hquiet', List.append_nil]
  | tags repo tags =>
    have hid : repo.id = repoId := Tables.repo?_id hsuits
    cases pursue_ended hrule (Tables.isSome_repo? hsuits) hpursued with
    | failed hfaulty hown hquiet' =>
      refine .failed hfaulty rfl (hid ▸ hown) ?_
      rw [Log.announcements_append, hquiet, hquiet', List.append_nil]
    | went hwent =>
      have hwent := hwent.append hnone hquiet
      exact .counted (outcome_count _ _) rfl (hid ▸ hwent.own) hwent.batches (hid ▸ hwent.announced)

end VersionSync

open VersionSync
variable {σ : Type}

/-- The rows that an outcome counts were added, and no others. They went to the store in batches,
and were announced after these, once and on their own. -/
theorem syncVersions_counts_added (w : Surroundings fallible σ) (options : SyncOptions)
    (identity : Identity) (repoId : Int) (s : σ) {outcome : Outcome} {n : Nat}
    (hresult : (w.run (syncVersions options identity repoId) s).1 = .ok outcome)
    (hcount : outcome.count = some n) :
    ∃ added : List Version,
      w.tables (w.run (syncVersions options identity repoId) s).2 =
        { w.tables s with versions := (w.tables s).versions ++ added } ∧
      added.length = n ∧ (∀ row ∈ added, row.repoId = repoId) ∧
      (w.transcript (syncVersions options identity repoId) s).batches.flatten = added ∧
      ((w.transcript (syncVersions options identity repoId) s).batches.map List.length).sum = n ∧
      (0 < n → ∃ before accepted, w.transcript (syncVersions options identity repoId) s =
        before ++ [⟨.announce [repoId], accepted⟩] ∧ Log.announcements before = []) ∧
      (n = 0 → (w.transcript (syncVersions options identity repoId) s).announcements = []) := by
  have htally := syncVersions_tallied le_rfl (w.runs (syncVersions options identity repoId) s)
  rw [hresult] at htally
  cases htally with
  | aborted => cases hcount
  | @counted _ added _ hadded htables hown hbatches hannounced =>
    obtain rfl := Option.some.inj (hadded.symm.trans hcount)
    have hflatten := flatten_batches options.flushEvery added
    refine ⟨added, htables, rfl, hown, by rw [hbatches, hflatten], ?_, fun hnews => ?_,
      fun hnone => ?_⟩
    · rw [hbatches, ← List.length_flatten, hflatten]
    · rwa [Log.Announced, if_pos hnews] at hannounced
    · rwa [Log.Announced, if_neg (by omega)] at hannounced

namespace VersionSync.Sample

def stoppingFacts (tags : List Tag) : GitHub.Facts := fun call =>
  if call = .commit "o/r" "bad" then .error (.transport "connection reset") else facts tags call

def stopped : List Tag :=
  [⟨"v1.0", "a", .commit⟩, ⟨"V1.0", "b", .commit⟩, ⟨"v1.1", "c", .tag⟩, ⟨"v1.2", "d", .blob⟩,
    ⟨"v1.3", "bad", .commit⟩, ⟨"v1.4", "e", .commit⟩]

def stoppingWorld : Surroundings fallible Tables :=
  (Surroundings.steady (stoppingFacts stopped) time).failing fun _ => none

def inPairs : SyncOptions := { SyncOptions.default 1 with flushEvery := 2 }

end VersionSync.Sample

theorem syncVersions_counts_added_stopped : ∃ added : List Version, added.length = 3 ∧
    Sample.stoppingWorld.tables
        (Sample.stoppingWorld.run (syncVersions Sample.inPairs .app 1) Sample.tables).2 =
      { Sample.tables with versions := Sample.tables.versions ++ added } ∧
    (Sample.stoppingWorld.transcript (syncVersions Sample.inPairs .app 1) Sample.tables).batches.map
      List.length = [2, 1] ∧
    ∃ before accepted, Sample.stoppingWorld.transcript (syncVersions Sample.inPairs .app 1)
      Sample.tables = before ++ [⟨.announce [1], accepted⟩] := by
  have hresult : (Sample.stoppingWorld.run (syncVersions Sample.inPairs .app 1) Sample.tables).1 =
      .ok (.partly 3 .remoteFailure) := rfl
  obtain ⟨added, htables, hlength, -, -, -, hlast, -⟩ :=
    syncVersions_counts_added Sample.stoppingWorld Sample.inPairs .app 1 Sample.tables hresult rfl
  obtain ⟨before, accepted, hlog, -⟩ := hlast (by decide)
  exact ⟨added, hlength, htables, rfl, before, accepted, hlog⟩

/-- Rows that were added are announced exactly if no error of the store ends the run. -/
theorem syncVersions_announces_iff (w : Surroundings fallible σ) (options : SyncOptions)
    (identity : Identity) (repoId : Int) (s : σ) :
    ∃ added : List Version,
      (w.tables (w.run (syncVersions options identity repoId) s).2).versions =
        (w.tables s).versions ++ added ∧
      (∀ row ∈ added, row.repoId = repoId) ∧
      ((w.transcript (syncVersions options identity repoId) s).announcements = [[repoId]] ↔
        added ≠ [] ∧ ∀ e, (w.run (syncVersions options identity repoId) s).1 ≠ .error (.store e)) ∧
      ((w.transcript (syncVersions options identity repoId) s).announcements = [] ↔
        added = [] ∨
          ∃ e, (w.run (syncVersions options identity repoId) s).1 = .error (.store e)) := by
  have htally := syncVersions_tallied le_rfl (w.runs (syncVersions options identity repoId) s)
  generalize (w.run (syncVersions options identity repoId) s).1 = result at htally ⊢
  cases htally with
  | @failed e flushed _ _ hversions hown hquiet =>
    refine ⟨flushed, hversions, hown, ?_, ?_⟩
    · simp [hquiet]
    · simp [hquiet]
  | aborted hversions _ hquiet =>
    refine ⟨[], by rw [hversions, List.append_nil], by simp, ?_, ?_⟩
    · simp [hquiet]
    · simp [hquiet]
  | @counted outcome added _ _ htables hown _ hannounced =>
    refine ⟨added, congrArg Tables.versions htables, hown, ?_, ?_⟩
    · rw [hannounced.announcements]
      cases added <;> simp
    · rw [hannounced.announcements]
      cases added <;> simp

namespace VersionSync.Sample

def consecutive : List Tag := [⟨"v1.0", "a", .commit⟩, ⟨"v1.1", "b", .commit⟩]

def interruptedWorld : Surroundings fallible Tables :=
  (world consecutive).failing fun call =>
    if call = .findExistingVersion 1 "v1.1" then some (.database "disk I/O error") else none

end VersionSync.Sample

theorem syncVersions_announces_iff_interrupted :
    (Sample.interruptedWorld.run (syncVersions Sample.options .app 1) Sample.tables).1 =
      .error (.store (.database "disk I/O error")) ∧
    (Sample.interruptedWorld.tables (Sample.interruptedWorld.run
      (syncVersions Sample.options .app 1) Sample.tables).2).versions.map (·.tagName) =
        ["v0.9", "v1.0"] ∧
    (Sample.interruptedWorld.transcript (syncVersions Sample.options .app 1)
      Sample.tables).announcements = [] := by
  obtain ⟨added, -, -, -, hquiet⟩ :=
    syncVersions_announces_iff Sample.interruptedWorld Sample.options .app 1 Sample.tables
  exact ⟨rfl, rfl, hquiet.mpr (.inr ⟨_, rfl⟩)⟩

end ReleaseTracker
