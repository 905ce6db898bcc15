import ReleaseTracker.Proofs.Store.Upsert
import ReleaseTracker.Proofs.Sync.StarTurns

/-! Which rows a synchronisation of stars brings up to date. A repository is stored in the turns in
which it is due. If the whole run takes no longer than the window, a row that it has stored is fresh
until the end, so each repository is stored once at most. -/

namespace ReleaseTracker
open Program StoreRule

namespace Instant
variable {a b t start : Instant} {n : Int}

def sinceEpoch (t : Instant) : Int := t.seconds * 1000000000 + t.nanos

theorem isBefore_iff (ha : a.nanos < 1000000000) (hb : b.nanos < 1000000000) :
    a.isBefore b = true ↔ a.sinceEpoch < b.sinceEpoch := by
  simp only [isBefore, Bool.or_eq_true, Bool.and_eq_true, decide_eq_true_eq, beq_iff_eq, sinceEpoch]
  omega

theorem subNanos?_eq_some (h : t.subNanos? n = some start) :
    start.sinceEpoch = t.sinceEpoch - n ∧ start.nanos < 1000000000 := by
  simp only [subNanos?, subSeconds?] at h
  split_ifs at h
  obtain rfl := Option.some.inj h
  simp only [sinceEpoch]
  omega

end Instant

namespace Log

def upserted? : Answered Task → Option RepoDraft
  | ⟨.store (.upsertRepo draft), _⟩ => some draft
  | _ => none

def upserts (log : Log) : List RepoDraft := log.filterMap upserted?

/-- The clock shows no leap seconds, never goes back, and from its first reading to its last no more
time passes than a row stays fresh. -/
structure InWindow (options : SyncOptions) (log : Log) : Prop where
  plain : ∀ now ∈ log.readings, now.nanos < 1000000000
  forward : log.readings.Pairwise fun now later => later.isBefore now = false
  short : ∀ first last, log.readings.head? = some first → log.readings.getLast? = some last →
    last.sinceEpoch - first.sinceEpoch ≤ options.staleAfter

theorem InWindow.span {options : SyncOptions} {log : Log} (h : log.InWindow options)
    {now later : Instant} (hnow : now ∈ log.readings) (hlater : later ∈ log.readings) :
    later.sinceEpoch - now.sinceEpoch ≤ options.staleAfter := by
  have hforward : log.readings.Pairwise fun now later => now.sinceEpoch ≤ later.sinceEpoch :=
    h.forward.imp_of_mem fun hnow hlater hbefore => by
      rw [← Int.not_lt, ← Instant.isBefore_iff (h.plain _ hlater) (h.plain _ hnow), hbefore]
      exact Bool.false_ne_true
  obtain ⟨first, hfirst⟩ := Option.isSome_iff_exists.mp
    (List.isSome_head?.mpr (List.ne_nil_of_mem hnow))
  obtain ⟨last, hlast⟩ := Option.isSome_iff_exists.mp
    (List.getLast?_isSome.mpr (List.ne_nil_of_mem hnow))
  have hshort := h.short first last hfirst hlast
  have hstart : first.sinceEpoch ≤ now.sinceEpoch := by
    obtain ⟨rest, hrest⟩ := List.head?_eq_some_iff.mp hfirst
    rw [hrest] at hforward hnow
    obtain rfl | hnow := List.mem_cons.mp hnow
    · exact Int.le_refl _
    · exact (List.pairwise_cons.mp hforward).1 now hnow
  have hend : later.sinceEpoch ≤ last.sinceEpoch := by
    obtain ⟨front, hfront⟩ := List.getLast?_eq_some_iff.mp hlast
    rw [hfront] at hforward hlater
    obtain hlater | hlater := List.mem_append.mp hlater
    · exact (List.pairwise_append.mp hforward).2.2 later hlater last List.mem_cons_self
    · rw [List.mem_singleton.mp hlater]
  omega

end Log

namespace StarSync
variable {options : SyncOptions} {t t' : Tables} {log : Log} {turns : List Turn} {id : Int}

/-! One turn -/

def Turn.row (turn : Turn) (former : Option Repo) : Repo where
  id := turn.item.id
  fullName := turn.item.fullName
  name := turn.item.name
  description := turn.item.description
  homepage := turn.item.homepage
  language := turn.item.language
  ownerAvatarUrl := turn.item.ownerAvatarUrl
  updatedAt := .utc turn.now
  removedAt := former.bind (·.removedAt)

theorem refreshed_draft (turn : Turn) (former : Option Repo) :
    Tables.refreshed turn.item.id turn.draft former = turn.row former := by
  cases former <;> rfl

theorem repo?_stored (turn : Turn) : (t.upsertRepo turn.item.id turn.draft).repo? turn.item.id =
    some (turn.row (t.repo? turn.item.id)) := by
  rw [Tables.repo?_upsertRepo, if_pos rfl, refreshed_draft]

theorem repo?_stored_other {turn : Turn} (hother : turn.item.id ≠ id) :
    (t.upsertRepo turn.item.id turn.draft).repo? id = t.repo? id := by
  rw [Tables.repo?_upsertRepo, if_neg (Ne.symm hother)]

theorem Turn.fresh_of_span {turn : Turn} {row : Repo} {stored : Instant}
    (hknown : turn.known = some row) (hrow : row.updatedAt = .utc stored)
    (hplain : stored.nanos < 1000000000)
    (hspan : turn.now.sinceEpoch - stored.sinceEpoch ≤ options.staleAfter) :
    ¬ turn.IsDue options := by
  intro hdue
  obtain ⟨start, hstart, hbefore⟩ := hdue row hknown
  obtain ⟨hsince, hnanos⟩ := Instant.subNanos?_eq_some hstart
  rw [hrow, ZonedTime.utc, Instant.isBefore_iff hplain hnanos] at hbefore
  omega

/-! All turns -/

theorem upserted?_eq_none {event : Answered Task} (h : event.query.SparesRepos) :
    Log.upserted? event = none := by
  obtain ⟨query, answer⟩ := event
  cases query with
  | store call => cases call <;> first | rfl | cases h
  | _ => rfl

theorem Course.upserts_eq (h : Course options t log turns t') :
    log.upserts = (turns.filter (·.IsDue options)).map (·.draft) := by
  induction h with
  | done => rfl
  | aside hspares _ _ ih =>
    rw [Log.upserts, List.filterMap_cons_none (upserted?_eq_none hspares)]
    exact ih
  | fresh _ hfresh _ ih =>
    rw [List.filter_cons_of_neg (by simpa using hfresh)]
    exact ih
  | @due turn _ _ _ _ _ _ _ hdue _ _ ih =>
    rw [List.filter_cons_of_pos (by simpa using hdue)]
    exact congrArg (turn.draft :: ·) ih

theorem Course.filter_eq (h : Course options t log turns t') {p : Repo → Bool}
    (hp : ∀ turn ∈ turns, ∀ row, row.id = turn.item.id → p row = false) :
    t'.repos.filter p = t.repos.filter p := by
  induction h with
  | done => rfl
  | aside hspares hanswered _ ih => rw [ih hp, hspares.repos_eq hanswered]
  | fresh _ _ _ ih => exact ih (List.forall_mem_cons.mp hp).2
  | @due turn _ t _ _ _ _ _ _ hstored _ ih =>
    obtain ⟨hturn, hrest⟩ := List.forall_mem_cons.mp hp
    obtain ⟨-, rfl⟩ := (reliable_upsertRepo_iff rfl).mp hstored
    have hother (repos : List Repo) :
        repos.filter p = (repos.filter (·.id ≠ turn.item.id)).filter p := by
      rw [List.filter_filter]
      refine List.filter_congr fun row _ => ?_
      by_cases hrow : row.id = turn.item.id <;> simp [hrow, hturn row]
    rw [ih hrest, hother, hother t.repos]
    exact congrArg _ (Tables.filter_upsertInto_other _ _ _)

theorem Course.stays (h : Course options t log turns t') (id : Int)
    (hfresh : ∀ turn ∈ turns, turn.known = t.repo? id → ¬ turn.IsDue options) :
    t'.repo? id = t.repo? id ∧
      ∀ turn ∈ turns, turn.item.id = id → turn.known = t.repo? id ∧ ¬ turn.IsDue options := by
  induction h with
  | done => exact ⟨rfl, List.forall_mem_nil _⟩
  | aside hspares hanswered _ ih =>
    rw [hspares.repo?_eq hanswered] at ih
    exact ih hfresh
  | fresh hknown hnot _ ih =>
    obtain ⟨hkept, hturns⟩ := ih (List.forall_mem_cons.mp hfresh).2
    refine ⟨hkept, List.forall_mem_cons.mpr ⟨?_, hturns⟩⟩
    rintro rfl
    exact ⟨hknown.symm, hnot⟩
  | @due turn _ _ _ _ _ _ hknown hdue hstored _ ih =>
    obtain ⟨hfirst, hrest⟩ := List.forall_mem_cons.mp hfresh
    obtain ⟨-, rfl⟩ := (reliable_upsertRepo_iff rfl).mp hstored
    -- the turn is one of another repository
    have hother : turn.item.id ≠ id := by
      rintro rfl
      exact hfirst hknown.symm hdue
    rw [repo?_stored_other hother] at ih
    obtain ⟨hkept, hturns⟩ := ih hrest
    exact ⟨hkept, List.forall_mem_cons.mpr ⟨fun hown => absurd hown hother, hturns⟩⟩

def Quick (options : SyncOptions) (turns : List Turn) : Prop :=
  ∀ turn ∈ turns, turn.now.nanos < 1000000000 ∧
    ∀ later ∈ turns, later.now.sinceEpoch - turn.now.sinceEpoch ≤ options.staleAfter

theorem Quick.of_cons {turn : Turn} (h : Quick options (turn :: turns)) : Quick options turns :=
  fun earlier hearlier => (h earlier (List.mem_cons_of_mem _ hearlier)).imp_right
    fun hspan later hlater => hspan later (List.mem_cons_of_mem _ hlater)

theorem Course.stays_stored {turn : Turn} (hquick : Quick options (turn :: turns))
    (h : Course options (t.upsertRepo turn.item.id turn.draft) log turns t') :
    t'.repo? turn.item.id = some (turn.row (t.repo? turn.item.id)) ∧
      ∀ later ∈ turns, later.item.id = turn.item.id → ¬ later.IsDue options := by
  obtain ⟨hplain, hspan⟩ := hquick turn List.mem_cons_self
  have hstays := h.stays turn.item.id fun later hlater hknown =>
    Turn.fresh_of_span (hknown.trans (repo?_stored turn)) rfl hplain
      (hspan later (List.mem_cons_of_mem _ hlater))
  rw [repo?_stored] at hstays
  exact ⟨hstays.1, fun later hlater hown => (hstays.2 later hlater hown).2⟩

/-- The row of a repository after some turns: the same if it was fresh in all of its turns, or else
the one stored in the first turn in which it was due, which is the only such turn. -/
inductive RowAfter (options : SyncOptions) (turns : List Turn) (id : Int) (former : Option Repo) :
    Option Repo → Prop
  | kept (fresh : ∀ turn ∈ turns, turn.item.id = id → turn.known = former ∧ ¬ turn.IsDue options) :
      RowAfter options turns id former former
  | renewed (earlier : List Turn) (turn : Turn) (later : List Turn)
      (split : turns = earlier ++ turn :: later) (own : turn.item.id = id)
      (known : turn.known = former) (due : turn.IsDue options)
      (only : ∀ other ∈ earlier ++ later, other.item.id = id → ¬ other.IsDue options) :
      RowAfter options turns id former (some (turn.row former))

theorem RowAfter.cons {turn : Turn} {former after : Option Repo}
    (h : RowAfter options turns id former after)
    (hturn : turn.item.id = id → turn.known = former ∧ ¬ turn.IsDue options) :
    RowAfter options (turn :: turns) id former after := by
  cases h with
  | kept hfresh => exact .kept (List.forall_mem_cons.mpr ⟨hturn, hfresh⟩)
  | renewed earlier first later hsplit hown hknown hdue honly =>
    refine .renewed (turn :: earlier) first later (by rw [hsplit]; rfl) hown hknown hdue ?_
    exact List.forall_mem_cons.mpr ⟨fun hown => (hturn hown).2, honly⟩

theorem Course.rowAfter (h : Course options t log turns t') (hquick : Quick options turns)
    (id : Int) : RowAfter options turns id (t.repo? id) (t'.repo? id) := by
  induction h with
  | done => exact .kept (List.forall_mem_nil _)
  | aside hspares hanswered _ ih =>
    rw [← hspares.repo?_eq hanswered]
    exact ih hquick
  | fresh hknown hfresh _ ih =>
    refine (ih hquick.of_cons).cons ?_
    rintro rfl
    exact ⟨hknown.symm, hfresh⟩
  | @due turn _ t _ _ _ turns hknown hdue hstored hrest ih =>
    obtain ⟨-, rfl⟩ := (reliable_upsertRepo_iff rfl).mp hstored
    by_cases hown : turn.item.id = id
    · subst hown
      obtain ⟨hrow, honly⟩ := hrest.stays_stored hquick
      rw [hrow]
      exact .renewed [] turn turns rfl rfl hknown.symm hdue honly
    · rw [← repo?_stored_other hown]
      exact (ih hquick.of_cons).cons fun h => absurd h hown

theorem Course.nodup_due (h : Course options t log turns t') (hquick : Quick options turns) :
    ((turns.filter (·.IsDue options)).map (·.item.id)).Nodup := by
  induction h with
  | done => exact List.nodup_nil
  | aside _ _ _ ih => exact ih hquick
  | fresh _ hfresh _ ih =>
    rw [List.filter_cons_of_neg (by simpa using hfresh)]
    exact ih hquick.of_cons
  | due _ hdue hstored hrest ih =>
    obtain ⟨-, rfl⟩ := (reliable_upsertRepo_iff rfl).mp hstored
    obtain ⟨-, honly⟩ := hrest.stays_stored hquick
    rw [List.filter_cons_of_pos (by simpa using hdue)]
    refine List.nodup_cons.mpr ⟨fun hagain => ?_, ih hquick.of_cons⟩
    obtain ⟨later, hlater, hown⟩ := List.mem_map.mp hagain
    obtain ⟨hlater, hdue'⟩ := List.mem_filter.mp hlater
    exact honly later hlater hown (of_decide_eq_true hdue')

end StarSync

open StarSync
variable {σ : Type}

/-- A listed repository is stored exactly if at that moment it has no row, or one from before the
window that ends when its page is taken. If the whole run takes no longer than the window, each
repository is stored once at most, and its row is either the one from before or as the listing had
it in the turn in which it was due. Rows of repositories that are not listed stay as they are. -/
theorem syncStars_refreshes_what_is_due (w : Surroundings fallible σ) (options : SyncOptions)
    (identity : Identity) (userId : Int) (s : σ)
    (hstored : (w.transcript (syncStars options identity userId) s).Stored) :
    let log := w.transcript (syncStars options identity userId) s
    let t := w.tables s
    let t' := w.tables (w.run (syncStars options identity userId) s).2
    ∃ turns, Course options t log turns t' ∧
      Takes turns (Log.occurrences log.pages log.readings) (log.WithinCalendar options) ∧
      log.upserts = (turns.filter (·.IsDue options)).map (·.draft) ∧
      t'.repos.filter (·.id ∉ listedIds log.pages) =
        t.repos.filter (·.id ∉ listedIds log.pages) ∧
      (log.InWindow options → (log.upserts.map (·.id)).Nodup ∧
        ∀ id, RowAfter options turns id (t.repo? id) (t'.repo? id)) := by
  intro log t t'
  obtain ⟨turns, hcourse, htakes⟩ :=
    syncStars_course (w.runs (syncStars options identity userId) s) hstored
  have hlisted (turn : Turn) (hturn : turn ∈ turns) :
      turn.item.id ∈ listedIds log.pages ∧ turn.now ∈ log.readings :=
    Log.mem_of_mem_occurrences (htakes.ordered.subset (List.mem_map_of_mem hturn))
  refine ⟨turns, hcourse, htakes, hcourse.upserts_eq,
    hcourse.filter_eq fun turn hturn row hrow => ?_, fun hwindow => ?_⟩
  · simpa [hrow] using (hlisted turn hturn).1
  have hquick : Quick options turns := fun turn hturn =>
    ⟨hwindow.plain _ (hlisted turn hturn).2, fun later hlater =>
      hwindow.span (hlisted turn hturn).2 (hlisted later hlater).2⟩
  refine ⟨?_, hcourse.rowAfter hquick⟩
  have hids : log.upserts.map (·.id) =
      ((turns.filter (·.IsDue options)).map (·.item.id)).map Column.set := by
    rw [hcourse.upserts_eq, List.map_map, List.map_map]
    rfl
  rw [hids]
  exact (hcourse.nodup_due hquick).map fun _ _ => Column.set.inj

namespace StarSync.Sample

def ticking : Surroundings reliable (Tables × Instant) where
  answer
    | .store call, (t, now) => (.ok (t.perform now call).1, (t.perform now call).2, now)
    | .github _ call, s => (.ok (listing (.ok ⟨[item 1, item 4], none⟩) call), s)
    | .authenticate _, s => (.ok true, s)
    | .clock, (t, now) => (.ok now, t, now.addSeconds 5)
    | .announce _, s => (.ok true, s)
  tables := Prod.fst
  answers query s := by
    cases query with
    | store call => exact ⟨_, _, rfl, s.2, rfl⟩
    | _ => exact ⟨_, _, rfl, rfl⟩

def nextDay : Instant := ⟨1700086400, 0⟩

end StarSync.Sample

open StarSync.Sample in
theorem syncStars_refreshes_what_is_due_two_pages :
    let w := ticking.failing fun _ => none
    let log := w.transcript (syncStars (.default 2) .app 1) (tables, nextDay)
    let t' := (w.run (syncStars (.default 2) .app 1) (tables, nextDay)).2.1
    log.Stored ∧ log.InWindow (.default 2) ∧ log.upserts.map (·.id) = [.set 2, .set 1, .set 4] ∧
      (log.upserts.map (·.id)).Nodup ∧ ∃ turns, Course (.default 2) tables log turns t' ∧
        RowAfter (.default 2) turns 1 (some (repo 1)) (t'.repo? 1) := by
  intro w log t'
  have hrun := w.runs (syncStars (.default 2) .app 1) (tables, nextDay)
  have hresult : (w.run (syncStars (.default 2) .app 1) (tables, nextDay)).1 =
    .ok (.completed 3) := rfl
  rw [hresult] at hrun
  have hstored : log.Stored := syncStars_strict.stored hrun
  have hreadings : log.readings = [nextDay, nextDay.addSeconds 5] := rfl
  have hwindow : log.InWindow (.default 2) := by
    constructor
    · rw [hreadings]
      decide
    · rw [hreadings]
      decide
    · rw [hreadings]
      rintro first last ⟨⟩ ⟨⟩
      decide
  obtain ⟨turns, hcourse, -, -, -, hquick⟩ := syncStars_refreshes_what_is_due
    (ticking.failing fun _ => none) (.default 2) .app 1 (tables, nextDay) hstored
  obtain ⟨hnodup, hrow⟩ := hquick hwindow
  exact ⟨hstored, hwindow, rfl, hnodup, turns, hcourse, hrow 1⟩

end ReleaseTracker
