import ReleaseTracker.Proofs.Sync.Constraints
import ReleaseTracker.Proofs.Sync.StarUpkeep
import ReleaseTracker.Proofs.Sync.VersionTwins
import ReleaseTracker.Proofs.Work.Crew
import ReleaseTracker.Proofs.Work.VersionConformance

/-! Synchronisations of versions, each of another repository, and of stars that take turns. Once a
run has looked its repository up, all that it sees of the tables are the repository's versions. The
others leave these as they are, so the run could be alone on tables that have the same versions and
the row that it has read (`VersionSync.Replays`). -/

namespace ReleaseTracker
open Program StoreRule

/-! The versions of a repository -/

namespace Tables
variable {t t' : Tables} {repoId : Int}

def versionsOf (t : Tables) (repoId : Int) : List Version := t.versions.filter (·.repoId = repoId)

theorem hasVersion_eq (t : Tables) (repoId : Int) (tagName : String) :
    t.hasVersion repoId tagName = (t.versionsOf repoId).any (·.tagName = tagName) := by
  rw [versionsOf, List.any_filter]
  rfl

theorem versionsOf_append (t : Tables) (rows : List Version) (repoId : Int) :
    ({ t with versions := t.versions ++ rows } : Tables).versionsOf repoId =
      t.versionsOf repoId ++ rows.filter (·.repoId = repoId) := List.filter_append _ _

theorem versionsOf_append_own {rows : List Version} (hown : ∀ row ∈ rows, row.repoId = repoId) :
    ({ t with versions := t.versions ++ rows } : Tables).versionsOf repoId =
      t.versionsOf repoId ++ rows := by
  rw [versionsOf_append, List.filter_eq_self.mpr (by simpa using hown)]

theorem versionsOf_append_other {rows : List Version} (hother : ∀ row ∈ rows, row.repoId ≠ repoId) :
    ({ t with versions := t.versions ++ rows } : Tables).versionsOf repoId =
      t.versionsOf repoId := by
  rw [versionsOf_append, List.filter_eq_nil_iff.mpr (by simpa using hother), List.append_nil]

theorem perform_versions {call : StoreCall} (h : ∀ rows, call ≠ .createVersions rows)
    (now : Instant) : (t.perform now call).2.versions = t.versions := by
  cases call with
  | createVersions rows => exact absurd rfl (h rows)
  | upsertRepo draft =>
    cases hid : draft.id with
    | unset => simp only [perform, hid]
    | set id =>
      simp only [perform, hid, repo?_upsertRepo, if_true]
      rfl
  | createStar userId repoId =>
    show (t.kept () (t.ensureStar? ⟨userId, repoId, .utc now⟩)).2.versions = t.versions
    cases hafter : t.ensureStar? ⟨userId, repoId, .utc now⟩ with
    | none => rfl
    | some t' => rcases ensureStar?_eq_some hafter with ⟨-, rfl⟩ | ⟨-, rfl⟩ <;> rfl
  | _ => rfl

end Tables

theorem Work.Strict.left_eq {α : Type} {p left : Work α} {log : Log} {call : StoreCall}
    {e : StoreError} (h : p.Strict) (hleaves : p.Leaves log left)
    (hmem : ⟨.store call, Except.error e⟩ ∈ log) : left = .stop (.store e) := by
  induction h generalizing log with
  | done | stop =>
    cases hleaves
    cases hmem
  | store _ ih =>
    obtain ⟨rfl, -⟩ | ⟨answer, later, rfl, hlater⟩ := leaves_ask_iff.mp hleaves
    · cases hmem
    change Except StoreError _ at answer
    cases answer with
    | error e' =>
      cases hlater
      cases List.mem_singleton.mp hmem
      rfl
    | ok value =>
      rcases List.mem_cons.mp hmem with heq | hmem
      · cases heq
      · exact ih value hlater hmem
  | other hother _ ih =>
    obtain ⟨rfl, -⟩ | ⟨answer, later, rfl, hlater⟩ := leaves_ask_iff.mp hleaves
    · cases hmem
    rcases List.mem_cons.mp hmem with heq | hmem
    · cases heq
      exact absurd rfl (hother call)
    · exact ih answer hlater hmem

namespace VersionSync
variable {options : SyncOptions} {identity : Identity} {repoId : Int} {u u' start t t' : Tables}
  {log : Log} {query : Task.Query} {answer : Task.Answer query}

structure Mirrors (repoId : Int) (u t : Tables) : Prop where
  versions : u.versionsOf repoId = t.versionsOf repoId
  repo : (u.repo? repoId).isSome → (t.repo? repoId).isSome

theorem Mirrors.mono (h : Mirrors repoId u t) (hretains : t.Retains t')
    (hsame : t'.versionsOf repoId = t.versionsOf repoId) : Mirrors repoId u t' where
  versions := h.versions.trans hsame.symm
  repo hid := hretains.repos repoId (h.repo hid)

theorem Mirrors.hasVersion_eq (h : Mirrors repoId u t) (tagName : String) :
    u.hasVersion repoId tagName = t.hasVersion repoId tagName := by
  rw [Tables.hasVersion_eq, Tables.hasVersion_eq, h.versions]

theorem Mirrors.fits_iff {rows : List Version} (h : Mirrors repoId u t)
    (hrepo : (u.repo? repoId).isSome) (hown : ∀ row ∈ rows, row.repoId = repoId) :
    u.Fits rows ↔ t.Fits rows := by
  have hfresh (row : Version) (hrow : row ∈ rows) :
      u.hasVersion row.repoId row.tagName = t.hasVersion row.repoId row.tagName := by
    rw [hown row hrow]
    exact h.hasVersion_eq row.tagName
  constructor
  · intro hfits
    refine ⟨fun row hrow => ?_, fun row hrow => ?_, hfits.apart⟩
    · rw [← hfresh row hrow]
      exact hfits.fresh row hrow
    · rw [hown row hrow]
      exact h.repo hrepo
  · intro hfits
    refine ⟨fun row hrow => ?_, fun row hrow => ?_, hfits.apart⟩
    · rw [hfresh row hrow]
      exact hfits.fresh row hrow
    · rw [hown row hrow]
      exact hrepo

theorem Mirrors.concerned (h : Mirrors repoId u t) (hrepo : (u.repo? repoId).isSome)
    (hquery : Concerns repoId query) (hanswered : reliable.conduct t query answer t') :
    ∃ u', reliable.conduct u query answer u' ∧ Mirrors repoId u' t' := by
  cases query with
  | store call =>
    cases call with
    | findExistingVersion id tagName =>
      obtain rfl : id = repoId := hquery
      obtain ⟨rfl, rfl⟩ := reliable_findExistingVersion_iff.mp hanswered
      rw [← h.hasVersion_eq]
      exact ⟨u, reliable_findExistingVersion_iff.mpr ⟨rfl, rfl⟩, h⟩
    | createVersions rows =>
      have hown : ∀ row ∈ rows, row.repoId = repoId := hquery
      have hiff := h.fits_iff hrepo hown
      obtain ⟨hfits, rfl, rfl⟩ | ⟨hbroken, rfl, rfl⟩ :=
        reliable_createVersions_iff_fits.mp hanswered
      · refine ⟨{ u with versions := u.versions ++ rows }, ?_, ?_, h.repo⟩
        · exact reliable_createVersions_iff_fits.mpr (.inl ⟨hiff.mpr hfits, rfl, rfl⟩)
        · rw [Tables.versionsOf_append_own hown, Tables.versionsOf_append_own hown, h.versions]
      · refine ⟨u, ?_, h⟩
        exact reliable_createVersions_iff_fits.mpr (.inr ⟨mt hiff.mp hbroken, rfl, rfl⟩)
    | _ => cases hquery
  | _ =>
    obtain rfl : t' = t := hanswered
    exact ⟨u, rfl, h⟩

theorem Mirrors.marked (h : Mirrors repoId u t) (time : ZonedTime) :
    Mirrors repoId (u.markRepoRemoved repoId time) (t.markRepoRemoved repoId time) where
  versions := h.versions
  repo hid := by
    rw [Tables.isSome_repo?_iff, Tables.map_id_markRepoRemoved, ← Tables.isSome_repo?_iff] at hid ⊢
    exact h.repo hid

/-- What a run was answered, it would have been answered alone, on tables with the versions that
its repository had at the start and the row that it has read. -/
inductive Replays (repoId : Int) (start t : Tables) : Log → Prop
  | unread (same : t.versionsOf repoId = start.versionsOf repoId) : Replays repoId start t []
  | read {found : Option Repo} {rest : Log} (proper : ∀ repo ∈ found, repo.id = repoId)
      (alone : ∀ u : Tables, u.versionsOf repoId = start.versionsOf repoId →
        u.repo? repoId = found → ∃ u', Trace reliable.conduct u
          (⟨.store (.findRepo repoId), Except.ok found⟩ :: rest) u' ∧ Mirrors repoId u' t) :
      Replays repoId start t (⟨.store (.findRepo repoId), Except.ok found⟩ :: rest)

theorem Replays.mono (h : Replays repoId start t log) (hretains : t.Retains t')
    (hsame : t'.versionsOf repoId = t.versionsOf repoId) : Replays repoId start t' log := by
  cases h with
  | unread hstart => exact .unread (hsame.trans hstart)
  | read hproper halone =>
    refine .read hproper fun u hversions hrepo => ?_
    obtain ⟨u', htrace, hmirrors⟩ := halone u hversions hrepo
    exact ⟨u', htrace, hmirrors.mono hretains hsame⟩

theorem Replays.snoc {repo : Repo} {rest : Log}
    (h : Replays repoId start t (⟨.store (.findRepo repoId), Except.ok (some repo)⟩ :: rest))
    (hstep : ∀ u, Mirrors repoId u t → (u.repo? repoId).isSome →
      ∃ u', reliable.conduct u query answer u' ∧ Mirrors repoId u' t') :
    Replays repoId start t' (⟨.store (.findRepo repoId), Except.ok (some repo)⟩ :: rest ++
      [⟨query, answer⟩]) := by
  cases h with
  | read hproper halone =>
    refine .read hproper fun u hversions hrepo => ?_
    obtain ⟨mid, htrace, hmirrors⟩ := halone u hversions hrepo
    have hretains : u.Retains mid := htrace.relates .refl (fun _ _ _ => .trans)
      fun _ _ _ _ => retains_of_conduct
    have hmid : (mid.repo? repoId).isSome := hretains.repos repoId (by simp [hrepo])
    obtain ⟨u', hanswered, hmirrors'⟩ := hstep mid hmirrors hmid
    exact ⟨u', htrace.snoc hanswered, hmirrors'⟩

theorem Replays.answered (h : Replays repoId start t log) (hasks : Asks repoId log query)
    (hanswered : reliable.conduct t query answer t') :
    Replays repoId start t' (log ++ [⟨query, answer⟩]) := by
  cases hasks with
  | look =>
    obtain ⟨rfl, rfl⟩ := reliable_findRepo_iff.mp hanswered
    cases h with
    | unread hstart =>
      refine .read (fun repo hrepo => Tables.repo?_id hrepo) fun u hversions hrepo => ?_
      refine ⟨u, .cons (reliable_findRepo_iff.mpr ⟨by rw [hrepo], rfl⟩) (.nil u), ?_, ?_⟩
      · exact hversions.trans hstart.symm
      · rw [hrepo]
        exact id
  | pass hconcerned =>
    exact h.snoc fun u hmirrors hrepo => hmirrors.concerned hrepo hconcerned hanswered
  | github identity call =>
    obtain rfl : t' = t := hanswered
    exact h.snoc fun u hmirrors _ => ⟨u, rfl, hmirrors⟩
  | mark now =>
    obtain ⟨rfl, rfl⟩ := reliable_markRepoRemoved_iff.mp hanswered
    exact h.snoc fun u hmirrors _ =>
      ⟨_, reliable_markRepoRemoved_iff.mpr ⟨rfl, rfl⟩, hmirrors.marked _⟩

theorem syncVersions_adds_own {result : Except Fault Outcome}
    (hrun : (syncVersions options identity repoId).Runs reliable.conduct u log result u') :
    ∃ added : List Version, u'.versions = u.versions ++ added ∧
      ∀ row ∈ added, row.repoId = repoId := by
  cases syncVersions_tallied reliable_le_fallible hrun with
  | failed hfaulty => exact absurd le_rfl hfaulty
  | aborted hversions => exact ⟨[], by rw [hversions, List.append_nil], List.forall_mem_nil _⟩
  | counted _ htables hown => exact ⟨_, by rw [htables], hown⟩

/-- A run that could be alone on some tables, and adds versions there. Every run alone on them comes
to the same, asks GitHub the same and announces as much, as long as GitHub tells it the same. It
adds the same versions too, apart from what they read from the clock as dates. -/
structure AloneOn (options : SyncOptions) (identity : Identity) (repoId : Int) (u : Tables)
    (log : Log) (result : Except Fault Outcome) (added : List Version) : Prop where
  run : ∃ u', (syncVersions options identity repoId).Runs reliable.conduct u log result u' ∧
    u'.versions = u.versions ++ added
  same : ∀ (facts : GitHub.Facts) (log' : Log) result' u',
    (syncVersions options identity repoId).Runs reliable.conduct u log' result' u' →
      log.ToldBy facts → log'.ToldBy facts → result' = result ∧ log'.requests = log.requests ∧
        log'.announcements = log.announcements ∧ ∃ added', u'.versions = u.versions ++ added' ∧
          List.Forall₂ (SameRow (log.Showed log')) added added'

theorem aloneOn_of_runs {result : Except Fault Outcome} {added : List Version}
    (hrun : (syncVersions options identity repoId).Runs reliable.conduct u log result u')
    (hadded : u'.versions = u.versions ++ added) :
    AloneOn options identity repoId u log result added where
  run := ⟨u', hrun, hadded⟩
  same facts log' result' u'' hrun' htold htold' := by
    obtain ⟨hrequests, halike⟩ := syncVersions_twins hrun hrun'
      (htold.repliedBy fun _ _ _ => rfl) (htold'.repliedBy fun _ _ _ => rfl)
    obtain ⟨rows, rows', hrows, hrows', hsame⟩ := halike.rows
    obtain rfl : added = rows := List.append_cancel_left (hadded.symm.trans hrows)
    exact ⟨halike.results.symm, hrequests.symm, halike.announcements.symm, rows', hrows', hsame⟩

theorem Replays.aloneOn {found : Option Repo} {rest : Log} {left : Work Outcome}
    {result : Except Fault Outcome}
    (h : Replays repoId start t (⟨.store (.findRepo repoId), Except.ok found⟩ :: rest))
    (hleaves : (syncVersions options identity repoId).Leaves
      (⟨.store (.findRepo repoId), Except.ok found⟩ :: rest) left)
    (hresult : left.result? = some result)
    (hversions : u.versionsOf repoId = start.versionsOf repoId) (hrepo : u.repo? repoId = found) :
    ∃ added, t.versionsOf repoId = start.versionsOf repoId ++ added ∧
      AloneOn options identity repoId u (⟨.store (.findRepo repoId), Except.ok found⟩ :: rest)
        result added := by
  cases h with
  | read _ halone =>
    obtain ⟨u', htrace, hmirrors⟩ := halone u hversions hrepo
    have hrun := hleaves.runs hresult htrace
    obtain ⟨added, hadded, hown⟩ := syncVersions_adds_own hrun
    refine ⟨added, ?_, aloneOn_of_runs hrun hadded⟩
    have hafter := Tables.versionsOf_append_own (t := u) hown
    rw [← hmirrors.versions, ← hversions, ← hafter, Tables.versionsOf, hadded, Tables.versionsOf]

theorem Replays.stored {left : Work Outcome} (h : Replays repoId start t log)
    (hleaves : (syncVersions options identity repoId).Leaves log left) : log.Stored := by
  intro call e hmem
  cases h with
  | unread => cases hmem
  | @read found _ hproper halone =>
    let bare : Tables := { start with repos := found.toList }
    have hrepo : bare.repo? repoId = found := by
      cases found with
      | none => rfl
      | some repo => simp [bare, Tables.repo?, hproper repo rfl]
    obtain ⟨u', htrace, -⟩ := halone bare rfl hrepo
    -- an error would have ended the run, and it would be one of a run alone
    have hstopped : left = .stop (.store e) := syncVersions_strict.left_eq hleaves hmem
    have hresult : left.result? = some (.error (.store e)) := by
      rw [hstopped]
      rfl
    exact syncVersions_reliable (hleaves.runs hresult htrace) e rfl

end VersionSync

/-! Any work -/

namespace WorkItem
variable {options : SyncOptions} {item other : WorkItem} {start t t' : Tables} {log log' : Log}
  {query : Task.Query} {answer : Task.Answer query}

def Asks (options : SyncOptions) : WorkItem → Log → Task.Query → Prop
  | .stars userId => StarSync.Asks options userId
  | .versions repoId => VersionSync.Asks repoId

def Knows (start t : Tables) (log : Log) : WorkItem → Prop
  | .stars userId => StarSync.Backed userId t log ∧ log.Stored
  | .versions repoId => VersionSync.Replays repoId start t log

theorem knows_nil (start : Tables) (item : WorkItem) : item.Knows start start [] := by
  cases item with
  | stars userId => exact ⟨StarSync.backed_nil, fun _ _ => List.not_mem_nil⟩
  | versions repoId => exact .unread rfl

theorem Knows.answered (h : item.Knows start t log) (hasks : item.Asks options log query)
    (hanswered : reliable.conduct t query answer t') :
    item.Knows start t' (log ++ [⟨query, answer⟩]) := by
  cases item with
  | stars userId =>
    obtain ⟨hbacked, hstored⟩ := h
    refine ⟨(hbacked.mono (retains_of_conduct hanswered)).append
      (StarSync.backed_of_answer hanswered), fun call e hmem => ?_⟩
    rcases List.mem_append.mp hmem with hmem | hmem
    · exact hstored call e hmem
    · cases List.mem_singleton.mp hmem
      obtain ⟨value, hvalue⟩ := StarSync.Asks.succeeds hasks hbacked hanswered
      cases hvalue
  | versions repoId => exact VersionSync.Replays.answered h hasks hanswered

theorem Asks.versionsOf_eq {repoId : Int} (hasks : other.Asks options log' query)
    (hother : other ≠ .versions repoId) (hanswered : reliable.conduct t query answer t') :
    t'.versionsOf repoId = t.versionsOf repoId := by
  cases query with
  | store call =>
    by_cases hcall : ∃ rows, call = .createVersions rows
    · obtain ⟨rows, rfl⟩ := hcall
      have hrows : ∀ row ∈ rows, row.repoId ≠ repoId := by
        cases other with
        | stars userId => cases hasks
        | versions otherId =>
          cases hasks with
          | pass hconcerned =>
            intro row hrow hsame
            exact hother (by rw [← hsame, hconcerned row hrow])
      obtain ⟨-, -, rfl⟩ | ⟨-, -, rfl⟩ := reliable_createVersions_iff_fits.mp hanswered
      · exact Tables.versionsOf_append_other hrows
      · rfl
    · obtain ⟨now, hperform⟩ := hanswered
      have hversions := Tables.perform_versions (t := t) (not_exists.mp hcall) now
      rw [hperform] at hversions
      rw [Tables.versionsOf, hversions, Tables.versionsOf]
  | _ =>
    obtain rfl : t' = t := hanswered
    rfl

theorem Knows.beside (h : item.Knows start t log) (hasks : other.Asks options log' query)
    (hother : ∀ repoId, item = .versions repoId → other ≠ .versions repoId)
    (hanswered : reliable.conduct t query answer t') : item.Knows start t' log := by
  have hretains := retains_of_conduct hanswered
  cases item with
  | stars userId => exact ⟨h.1.mono hretains, h.2⟩
  | versions repoId =>
    exact VersionSync.Replays.mono h hretains (hasks.versionsOf_eq (hother repoId rfl) hanswered)

end WorkItem

theorem Engine.sync_asks (engine : Engine) (identity : Identity) (item : WorkItem) :
    Program.Ensures Task.Proper (item.Asks engine.options) (fun _ _ => True) []
      (engine.sync identity item) := by
  cases item with
  | stars userId =>
    exact (syncStars_asks engine.options identity userId).mono (fun _ _ => id) (fun _ _ => id)
      fun _ _ _ => trivial
  | versions repoId => exact syncVersions_asks engine.options identity repoId

namespace Crew
variable {ι : Type} {jobs : ι → WorkItem}

def Apart (jobs : ι → WorkItem) : Prop :=
  ∀ i j repoId, jobs i = .versions repoId → jobs j = .versions repoId → i = j

theorem undisturbed_work (options : SyncOptions) (hapart : Apart jobs) (t : Tables) :
    Undisturbed reliable.conduct (fun i => (jobs i).Asks options) (fun _ _ => True)
      (fun _ => True) (fun i t' log => (jobs i).Knows t t' log) where
  own hasks _ _ hknows hanswered := ⟨trivial, hknows.answered hasks hanswered⟩
  others := by
    intro i j _ _ _ _ _ _ hne hasks _ _ _ hknows hanswered
    refine hknows.beside hasks (fun repoId hi hj => ?_) hanswered
    exact hne (hapart i j repoId hi hj)

end Crew

open Crew VersionSync

/-- Units of work that take turns in any order, no two of them on the versions of one repository. No
call on the store fails. A unit that has come to the end of the work on versions could have been
alone on all tables that had the same versions of the repository, and the row that it has read, and
what it added there is what was added. -/
theorem syncVersions_together {ι : Type} [DecidableEq ι] (engine : Engine)
    (identity : ι → Identity) {jobs : ι → WorkItem} (hapart : Apart jobs) {t : Tables}
    {crew : Crew ι} (hreaches : (start t fun i => engine.sync (identity i) (jobs i)).Reaches
      reliable.conduct crew) :
    (∀ i, (crew.units i).log.Stored) ∧
    ∀ i repoId result, jobs i = .versions repoId → (crew.units i).rest.result? = some result →
      ∃ (found : Option Repo) (rest : Log),
        (crew.units i).log = ⟨.store (.findRepo repoId), Except.ok found⟩ :: rest ∧
        ∀ u : Tables, u.versionsOf repoId = t.versionsOf repoId → u.repo? repoId = found →
          ∃ added, crew.tables.versionsOf repoId = t.versionsOf repoId ++ added ∧
            AloneOn engine.options (identity i) repoId u (crew.units i).log result added := by
  have hmay : ∀ t query answer t', reliable.conduct t query answer t' → Task.Proper query answer :=
    fun _ _ _ _ => proper_of_reliable
  have hsound : (start t fun i => engine.sync (identity i) (jobs i)).Sound Task.Proper
      (fun i => (jobs i).Asks engine.options) (fun _ _ _ => True) :=
    fun i => engine.sync_asks (identity i) (jobs i)
  obtain ⟨-, hknows⟩ := (undisturbed_work engine.options hapart t).reaches hmay
    (fun _ _ _ _ => trivial) hsound trivial (fun i => (jobs i).knows_nil t) hreaches
    fun _ => trivial
  have hleaves (i : ι) := hreaches.leaves i
  refine ⟨fun i => ?_, fun i repoId result hjob hresult => ?_⟩
  · have hi := hknows i
    have hleft := hleaves i
    cases hjob : jobs i with
    | stars userId =>
      rw [hjob] at hi
      exact hi.2
    | versions repoId =>
      rw [hjob] at hi hleft
      exact Replays.stored hi hleft
  · have hi : Replays repoId t crew.tables (crew.units i).log := by
      have hi := hknows i
      rwa [hjob] at hi
    have hleft : (syncVersions engine.options (identity i) repoId).Leaves (crew.units i).log
        (crew.units i).rest := by
      have hleft := hleaves i
      rwa [hjob] at hleft
    generalize (crew.units i).log = log at hi hleft ⊢
    generalize (crew.units i).rest = left at hleft hresult
    cases hi with
    | unread =>
      cases hleft
      cases hresult
    | read hproper halone =>
      refine ⟨_, _, rfl, fun u hversions hrepo => ?_⟩
      exact (Replays.read hproper halone).aloneOn hleft hresult hversions hrepo

namespace Crew.Sample

def renamed (id : Int) : GitHub.StarredRepo := ⟨id, "o/new", "new", none, none, none, none⟩

def tags : List GitHub.Tag := [⟨"v1.0", "a", .commit⟩, ⟨"v2.0", "b", .blob⟩]

def facts : GitHub.Facts
  | .starredPage _ none _ => .ok ⟨[renamed 1, renamed 3], none⟩
  | call => VersionSync.Sample.facts tags call

def jobs : Fin 3 → WorkItem
  | 0 => .versions 1
  | 1 => .versions 3
  | 2 => .stars 1

def engine : Engine := ⟨⟨none, 0, 0⟩, { SyncOptions.default 2 with flushEvery := 1 }⟩

def trio : Crew (Fin 3) :=
  (start StarSync.Sample.tables fun i => engine.sync .app (jobs i)).play
    (Surroundings.steady facts ⟨1700100000, 0⟩).answer
    (List.replicate 16 (List.finRange 3)).flatten

theorem apart : Apart jobs := by
  have hinjective : ∀ i j, jobs i = jobs j → i = j := by decide
  exact fun i j _ hi hj => hinjective i j (hi.trans hj.symm)

theorem trio_reaches : Reaches reliable.conduct
    (start StarSync.Sample.tables fun i => engine.sync .app (jobs i)) trio :=
  reaches_steady _ _ _ _

theorem trio_ended : (trio.units 0).rest.result? = some (.ok (.completed 2)) := by
  decide +kernel

def row? : Log → Option (Option Repo)
  | ⟨.store (.findRepo _), Except.ok found⟩ :: _ => some found
  | _ => none

theorem trio_row : row? (trio.units 0).log = some (StarSync.Sample.tables.repo? 1) := by
  decide +kernel

end Crew.Sample

theorem syncVersions_together_renamed :
    (∀ i, (Crew.Sample.trio.units i).log.Stored) ∧
    (Crew.Sample.trio.tables.repo? 1).map (·.fullName) = some "o/new" ∧
    ∃ added, AloneOn Crew.Sample.engine.options .app 1 StarSync.Sample.tables
      (Crew.Sample.trio.units 0).log (.ok (.completed 2)) added ∧
      added.map (·.tagName) = ["v1.0", "v2.0"] := by
  obtain ⟨hstored, halone⟩ := syncVersions_together Crew.Sample.engine (fun _ => .app)
    Crew.Sample.apart Crew.Sample.trio_reaches
  refine ⟨hstored, by decide +kernel, ?_⟩
  obtain ⟨found, rest, hlog, hrun⟩ := halone 0 1 _ rfl Crew.Sample.trio_ended
  have hrow := Crew.Sample.trio_row
  rw [hlog] at hrow
  obtain ⟨added, hadded, hsame⟩ := hrun StarSync.Sample.tables rfl (Option.some.inj hrow).symm
  refine ⟨added, hsame, ?_⟩
  have hnone : StarSync.Sample.tables.versionsOf 1 = [] := rfl
  rw [hnone, List.nil_append] at hadded
  rw [← hadded]
  decide +kernel

end ReleaseTracker
