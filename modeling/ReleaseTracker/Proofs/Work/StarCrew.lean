import ReleaseTracker.Proofs.Sync.Constraints
import ReleaseTracker.Proofs.Sync.StarRepetition
import ReleaseTracker.Proofs.Work.Crew

/-! Synchronisations of stars that take turns. Whatever the order, each user comes to star what is
listed, as after a run alone: stars to the listing are only ever created, and stars to anything else
are only ever deleted. -/

namespace ReleaseTracker
open Program StoreRule StarSync

namespace Crew
variable {ι : Type} {options : SyncOptions} {users : ι → Int} {listing : GitHub.StarListing}
  {t t' : Tables}

def Listed (listing : GitHub.StarListing) (log : Log) : Prop :=
  log.ListedBy listing ∧ ¬ log.Refused

structure StarRun (options : SyncOptions) (targets : Int → Set Int) (userId : Int) (t : Tables)
    (log : Log) : Prop where
  asked : Asked options userId log
  shows : ∀ event ∈ log, Shows targets t event
  stored : log.Stored

theorem StarRun.nil {targets : Int → Set Int} {userId : Int} :
    StarRun options targets userId t [] where
  asked := asked_nil
  shows := List.forall_mem_nil _
  stored _ _ := List.not_mem_nil

theorem Listed.of_append {log more : Log} (h : Listed listing (log ++ more)) :
    Listed listing log :=
  ⟨h.1.of_append, fun hrefused => h.2 (hrefused.mono (List.subset_append_left _ _))⟩

theorem undisturbed_stars (options : SyncOptions) (users : ι → Int)
    (listing : GitHub.StarListing) (t : Tables) :
    Undisturbed reliable.conduct (fun i => Asks options (users i)) (fun _ => Listed listing)
      (Tended (Set.range users) (Targets listing options.pageSize t) t)
      (fun i => StarRun options (Targets listing options.pageSize t) (users i)) where
  own := by
    intro i t₁ log query answer t₂ hasks hlisted htended hrun hanswered
    obtain ⟨hlistedBy, hrefused⟩ := hlisted.of_append
    obtain ⟨hstep, hshown, hok⟩ := hasks.answered hrun.asked hlistedBy hrefused
      (Set.mem_range_self i) htended hrun.shows hanswered
    refine ⟨htended.trans hstep, hrun.asked.snoc hasks, ?_, fun call e hmem => ?_⟩
    · rw [List.forall_mem_append, List.forall_mem_singleton]
      exact ⟨fun event hevent => (hrun.shows event hevent).mono hstep, hshown⟩
    · rcases List.mem_append.mp hmem with hmem | hmem
      · exact hrun.stored call e hmem
      · exact hok call e (List.mem_singleton.mp hmem).symm
  others := by
    intro i j t₁ log log' query answer t₂ _ hasks hlisted htended hother hrun hanswered
    obtain ⟨hlistedBy, hrefused⟩ := hlisted.of_append
    obtain ⟨hstep, -, -⟩ := hasks.answered hother.asked hlistedBy hrefused
      (Set.mem_range_self j) htended hother.shows hanswered
    exact ⟨hrun.asked, fun event hevent => (hrun.shows event hevent).mono hstep, hrun.stored⟩

theorem sound_stars (options : SyncOptions) (identity : ι → Identity) (users : ι → Int)
    (t : Tables) : (start t fun i => syncStars options (identity i) (users i)).Sound Task.Proper
      (fun i => Asks options (users i)) (fun i => Ends options (users i)) :=
  fun i => syncStars_asks options (identity i) (users i)

def Finished : Except Fault Outcome → Prop
  | .ok outcome => outcome.isAborted = false
  | .error (.store _) => True
  | .error .crashed | .error .unfinished => False

theorem completed_of_finished {userId : Int} {log : Log} {result : Except Fault Outcome}
    (h : Ends options userId log result) (hfinished : Finished result) (hstored : log.Stored)
    (hrefused : ¬ log.Refused) : ∃ n, result = .ok (.completed n) := by
  cases h with
  | unknown | removed | exhausted => cases hfinished
  | refused h | interrupted h => exact absurd h hrefused
  | completed => exact ⟨_, rfl⟩
  | @failed e hblamed =>
    cases e with
    | store e =>
      obtain ⟨call, hmem⟩ := hblamed
      exact absurd hmem (hstored call e)
    | crashed | unfinished => cases hfinished

theorem StarRun.alone {own : Set Int} {userId : Int} {log log' : Log} {identity : Identity}
    {n : Nat} {result : Except Fault Outcome} {start t₁ : Tables}
    (hrun : StarRun options (Targets listing options.pageSize start) userId t₁ log)
    (htended : Tended own (Targets listing options.pageSize start) start t₁)
    (hends : Ends options userId log (.ok (.completed n))) (hlisted : log.ListedBy listing)
    (halone : (syncStars options identity userId).Runs reliable.conduct start log' result t')
    (hlisted' : log'.ListedBy listing) (hsupplied : log'.Supplied)
    (hcalendar : log'.WithinCalendar options) : result = .ok (.completed n) := by
  obtain ⟨hasked', hends'⟩ := syncStars_asked halone
  have hstored' : log'.Stored := fun call e hmem =>
    syncStars_reliable halone e (syncStars_strict.result_eq halone hmem)
  cases hends with
  | @completed user previous hfound hpresent _ hwhole haffordable _ _ _ =>
    have huser : start.user? userId = some user := by
      rw [← htended.user?_eq]
      exact shows_user hrun.shows hfound
    -- the same user is told the same pages
    have hgives := hrun.asked.gives (hrun.asked.named hfound) hlisted
    have hsame := hends'.completes hasked' (fun found hmem =>
      (hasked'.found_eq halone.trace hmem).trans huser) hpresent hstored' hlisted' hsupplied hgives
      hwhole haffordable
    exact hsame.resolve_right fun hcrashed => hcrashed.2 hcalendar

end Crew

open Crew

/-- Runs over one listing, in whatever order they take turns: no call on the store fails, each run
comes to what it comes to alone, its user stars exactly what was listed, nobody else's stars have
changed, and each listed repository has one row. -/
theorem syncStars_together {ι : Type} [DecidableEq ι] (options : SyncOptions)
    (identity : ι → Identity) (users : ι → Int) (listing : GitHub.StarListing) {t : Tables}
    (hkeyed : t.Keyed) {crew : Crew ι}
    (hreaches : (start t fun i => syncStars options (identity i) (users i)).Reaches
      reliable.conduct crew)
    (hlisted : ∀ i, (crew.units i).log.ListedBy listing)
    (hunfailing : ∀ i, (crew.units i).log.Unfailing)
    (hfinished : ∀ i, ∃ result, (crew.units i).rest.result? = some result ∧ Finished result) :
    (∀ i, (crew.units i).log.Stored) ∧
    (∀ i, ∃ n, (crew.units i).rest.result? = some (.ok (.completed n)) ∧
      ∀ (log : Log) result t', (syncStars options (identity i) (users i)).Runs reliable.conduct t
        log result t' → log.ListedBy listing → log.Supplied → log.WithinCalendar options →
          result = .ok (.completed n)) ∧
    (∀ i id, id ∈ crew.tables.starsOf (users i) ↔ id ∈ listedIds (crew.units i).log.pages) ∧
    (∀ userId, (∀ i, users i ≠ userId) →
      crew.tables.stars.filter (·.userId = userId) = t.stars.filter (·.userId = userId)) ∧
    ∀ i, ∀ id ∈ listedIds (crew.units i).log.pages,
      (crew.tables.repos.map (·.id)).count id = 1 := by
  have hmay : ∀ t query answer t', reliable.conduct t query answer t' → Task.Proper query answer :=
    fun _ _ _ _ => proper_of_reliable
  have hgood : ∀ i, Listed listing (crew.units i).log :=
    fun i => ⟨hlisted i, fun hrefused => hrefused.not_unfailing (hunfailing i)⟩
  have hsound := Reaches.sound hreaches hmay (sound_stars options identity users t)
  obtain ⟨htended, hruns⟩ := (undisturbed_stars options users listing t).reaches hmay
    (fun _ _ _ => Listed.of_append) (sound_stars options identity users t) (.refl t)
    (fun _ => .nil) hreaches hgood
  -- no call has failed, so whoever has finished has completed
  have hcompleted : ∀ i, ∃ n, (crew.units i).rest.result? = some (.ok (.completed n)) ∧
      Ends options (users i) (crew.units i).log (.ok (.completed n)) := by
    intro i
    obtain ⟨result, hresult, hfinish⟩ := hfinished i
    have hends := (hsound i).of_result? hresult
    obtain ⟨n, rfl⟩ := completed_of_finished hends hfinish (hruns i).stored (hgood i).2
    exact ⟨n, hresult, hends⟩
  have hstarred : ∀ i, (∀ id, id ∈ crew.tables.starsOf (users i) ↔
      id ∈ listedIds (crew.units i).log.pages) ∧
        ∀ id ∈ listedIds (crew.units i).log.pages, (crew.tables.repo? id).isSome := by
    intro i
    obtain ⟨n, -, hends⟩ := hcompleted i
    refine hends.starred (hruns i).asked (hlisted i) ?_
    rw [targets_congr htended.users]
    exact (hruns i).shows
  refine ⟨fun i => (hruns i).stored, fun i => ?_, fun i => (hstarred i).1, fun userId hother => ?_,
    fun i id hid => ?_⟩
  · obtain ⟨n, hresult, hends⟩ := hcompleted i
    refine ⟨n, hresult, fun log result t' halone hlisted' hsupplied hcalendar => ?_⟩
    exact (hruns i).alone htended hends (hlisted i) halone hlisted' hsupplied hcalendar
  · refine htended.others userId ?_
    rintro ⟨i, rfl⟩
    exact hother i rfl
  · have hmem := Tables.isSome_repo?_iff.mp ((hstarred i).2 id hid)
    exact List.count_eq_one_of_mem (htended.keyed hkeyed).repoIds hmem

namespace Crew.Sample

def users : Fin 3 → Int
  | 0 | 2 => 1
  | 1 => 2

def crew : Crew (Fin 3) :=
  (start StarSync.Sample.tables fun i => syncStars (.default 2) .app (users i)).play
    StarSync.Sample.second.answer (List.replicate 18 [0, 1, 2]).flatten

def isUnfailing : Answered Task → Bool
  | ⟨.github _ _, Except.error _⟩ => false
  | _ => true

theorem unfailing_of_all {log : Log} (h : log.all isUnfailing = true) : log.Unfailing := by
  intro identity call answer hmem
  have hevent := List.all_eq_true.mp h _ hmem
  cases answer with
  | ok value => exact ⟨value, rfl⟩
  | error e => cases hevent

theorem keyed : StarSync.Sample.tables.Keyed where
  userIds := by decide
  usernames := by decide
  repoIds := by decide
  stars := by decide
  starEnds := by decide
  versions := by decide
  versionRepos := by decide

theorem crew_plays : Reaches
    (fun t query answer t' => StarSync.Sample.second.answer query t = (.ok answer, t'))
    (start StarSync.Sample.tables fun i => syncStars (.default 2) .app (users i)) crew := by
  unfold crew
  exact reaches_play _ _ _

theorem crew_reaches : Reaches reliable.conduct
    (start StarSync.Sample.tables fun i => syncStars (.default 2) .app (users i)) crew :=
  reaches_steady _ _ _ _

theorem crew_listedBy (i : Fin 3) : (crew.units i).log.ListedBy
    fun _ username cursor perPage =>
      StarSync.Sample.facts (.starredPage username cursor perPage) := by
  refine Log.ToldBy.listedBy fun identity call answer hmem => ?_
  obtain ⟨before, after, hanswer⟩ := Reaches.conducted crew_plays i _ hmem
  exact (Except.ok.inj (Prod.mk.inj hanswer).1).symm

theorem crew_completed (i : Fin 3) :
    (crew.units i).rest.result? = some (.ok (.completed 3)) := by
  revert i
  decide +kernel

theorem crew_pages (i : Fin 3) : listedIds (crew.units i).log.pages = [2, 1, 2, 1, 4] := by
  revert i
  decide +kernel

theorem crew_unfailing (i : Fin 3) : (crew.units i).log.Unfailing := by
  have hall : ∀ i, (crew.units i).log.all isUnfailing = true := by decide +kernel
  exact unfailing_of_all (hall i)

end Crew.Sample

/-- Two runs find that a repository is not stored before either of them stores it, and two delete
the same star. -/
theorem syncStars_together_in_turns :
    (∀ i, (Sample.crew.units i).log.Stored) ∧
    (∀ (i : Fin 3) id, id ∈ Sample.crew.tables.starsOf (Sample.users i) ↔ id ∈ [2, 1, 2, 1, 4]) ∧
    ∀ id ∈ [2, 1, 2, 1, 4], (Sample.crew.tables.repos.map (·.id)).count id = 1 := by
  obtain ⟨hstored, -, hstarred, -, hrows⟩ := syncStars_together (.default 2) (fun _ => .app)
    Sample.users _ Sample.keyed Sample.crew_reaches Sample.crew_listedBy Sample.crew_unfailing
    fun i => ⟨_, Sample.crew_completed i, rfl⟩
  simp only [Sample.crew_pages] at hstarred hrows
  exact ⟨hstored, hstarred, hrows 0⟩

end ReleaseTracker
