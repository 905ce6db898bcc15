import ReleaseTracker.Proofs.Sync.StarUpkeep
import ReleaseTracker.Proofs.Work.Frame

/-! A synchronisation of stars after one that completed. Over the same listing it finds the stars
just as the first one left them, so all that it may still do is to refresh repositories that have
become stale. -/

namespace ReleaseTracker
open GitHub (Page StarredRepo)
open Program StoreRule

namespace StarSync
variable {options : SyncOptions} {identity : Identity} {userId : Int} {user : User}
  {listing : GitHub.StarListing} {pages : List (Page StarredRepo)} {t t' : Tables} {log : Log}
  {result : Except Fault Outcome}

structure Settled (options : SyncOptions) (listing : GitHub.StarListing) (user : User)
    (pages : List (Page StarredRepo)) (t : Tables) : Prop where
  found : t.user? user.id = some user
  present : user.isRemoved = false
  gives : listing.Gives user.username options.pageSize pages
  whole : ∃ page ∈ pages, page.isLast = true
  affordable : pages.length ≤ options.pageBudget
  starred : ∀ id, id ∈ t.starsOf user.id ↔ id ∈ listedIds pages
  stocked : ∀ id ∈ listedIds pages, (t.repo? id).isSome

/-- A listed repository is refreshed whose row, as it has just been read, is stale by the clock. -/
def Refreshes (options : SyncOptions) (log : Log) (query : Task.Query) : Prop :=
  ∃ (before : Log) (item : StarredRepo) (row : Repo) (now : Instant),
    log = before ++ [⟨.store (.findRepo item.id), Except.ok (some row)⟩] ∧ item ∈ before.items ∧
      before.time? = some now ∧ isStale? options now row = some true ∧
        query = .store (.upsertRepo (item.draft now))

theorem syncStars_asked
    (hrun : (syncStars options identity userId).Runs reliable.conduct t log result t') :
    Asked options userId log ∧ Ends options userId log result := by
  obtain ⟨hends, hasked⟩ := (syncStars_asks options identity userId).runs hrun
    fun _ _ _ _ => proper_of_reliable
  exact ⟨hasked, hends⟩

theorem settled_of_runs {n : Nat} (hlisted : log.ListedBy listing)
    (hrun : (syncStars options identity userId).Runs reliable.conduct t log (.ok (.completed n))
      t') :
    ∃ user, user.id = userId ∧ Settled options listing user log.pages t' ∧
      n = (listedIds log.pages).toFinset.card := by
  obtain ⟨hasked, hends⟩ := syncStars_asked hrun
  cases hends with
  | @completed user previous hfound hpresent hwas hwhole haffordable hstocked hstarred hdropped =>
    have hgives := hasked.gives (hasked.named hfound) hlisted
    have hrefused := hasked.not_refused (hasked.named hfound) hlisted hgives hwhole
    obtain ⟨htended, hshows, -⟩ := hasked.trace hlisted hrefused hrun.trace
    have huser : t'.user? userId = some user := shows_user hshows hfound
    obtain rfl : user.id = userId := Tables.user?_id huser
    rw [← targets_congr htended.users] at hshows
    obtain ⟨hstars, hrepos⟩ := Ends.starred (.completed hfound hpresent hwas hwhole haffordable
      hstocked hstarred hdropped) hasked hlisted hshows
    exact ⟨user, rfl, ⟨huser, hpresent, hgives, hwhole, haffordable, hstars, hrepos⟩, rfl⟩

theorem isStale?_of_isDue {now : Instant} {row : Repo}
    (h : isDue options now (some row) = .done true) : isStale? options now row = some true := by
  unfold isDue at h
  cases hstale : isStale? options now row with
  | none => simp [hstale] at h
  | some stale =>
    simp only [hstale] at h
    cases h
    rfl

/-! A run on settled tables -/

section Settled
variable (hsettled : Settled options listing user pages t) (hasked : Asked options user.id log)
  (hlisted : log.ListedBy listing) (htrace : Trace reliable.conduct t log t')
include hsettled hasked htrace

theorem Settled.named : Named user.id user.username log := by
  intro other hother
  have hfound := (hasked.found_eq htrace hother).trans hsettled.found
  rw [Option.some.inj hfound]

include hlisted

theorem Settled.not_refused : ¬ log.Refused :=
  hasked.not_refused (hsettled.named hasked htrace) hlisted hsettled.gives hsettled.whole

theorem Settled.starred_after (id : Int) :
    id ∈ t'.starsOf user.id ↔ id ∈ listedIds pages := by
  have hrefused := hsettled.not_refused hasked hlisted htrace
  obtain ⟨htended, -⟩ := hasked.trace hlisted hrefused htrace
  have htarget : id ∈ Targets listing options.pageSize t user.id ↔ id ∈ listedIds pages :=
    mem_targets_iff hsettled.found hsettled.gives hsettled.whole
  constructor
  · intro hid
    rcases htended.gained user.id id hid with hold | hnew
    · exact (hsettled.starred id).mp hold
    · exact htarget.mp hnew
  · exact fun hid => htended.kept user.id id ((hsettled.starred id).mpr hid) (htarget.mpr hid)

theorem Settled.previous_iff {previous : List Int}
    (hmem : ⟨.store (.findStars user.id), Except.ok previous⟩ ∈ log) (id : Int) :
    id ∈ previous ↔ id ∈ listedIds pages := by
  obtain ⟨before, after, rfl⟩ := List.append_of_mem hmem
  obtain ⟨mid, hbefore, hafter⟩ := trace_append_iff.mp htrace
  cases hafter with
  | cons hanswered _ =>
    obtain ⟨hprevious, -⟩ := reliable_findStars_iff.mp hanswered
    rw [Except.ok.inj hprevious]
    exact hsettled.starred_after hasked.of_append hlisted.of_append hbefore id

theorem Settled.listed {id : Int} (hid : id ∈ listedIds log.pages) : id ∈ listedIds pages := by
  have hgives := hasked.gives (hsettled.named hasked htrace) hlisted
  obtain ⟨rest, rfl⟩ := hgives.le_whole hsettled.gives hsettled.whole
  rw [listedIds_append]
  exact List.mem_append_left _ hid

theorem Settled.refreshes {query : Task.Query} (hasks : Asks options user.id log query)
    (heffect : query.hasEffect = true) : Refreshes options log query := by
  cases hasks with
  | star _ hwas hid _ hnew =>
    have hold := (hsettled.previous_iff hasked hlisted htrace hwas _).mpr
      (hsettled.listed hasked hlisted htrace hid)
    exact absurd hold hnew
  | @settle _ user' previous gone _ hwas hwhole hany hgone =>
    have hgives := hasked.gives (hsettled.named hasked htrace) hlisted
    obtain ⟨id, hid⟩ := List.exists_mem_of_ne_nil gone hany
    obtain ⟨hold, hout⟩ := (hgone id).mp hid
    rw [hgives.eq_of_whole hsettled.gives hwhole hsettled.whole] at hout
    exact absurd ((hsettled.previous_iff hasked hlisted htrace hwas id).mp hold) hout
  | mark _ hrefused => exact absurd hrefused (hsettled.not_refused hasked hlisted htrace)
  | @refresh before item known now hitem hread hdue =>
    obtain ⟨mid, hbefore, hlast⟩ := trace_append_iff.mp htrace
    cases hlast with
    | cons hanswered _ =>
      obtain ⟨hknown, -⟩ := reliable_findRepo_iff.mp hanswered
      obtain rfl := Except.ok.inj hknown
      have hrefused := hsettled.not_refused hasked.of_append hlisted.of_append hbefore
      obtain ⟨htended, -⟩ := hasked.of_append.trace hlisted.of_append hrefused hbefore
      have hid : item.id ∈ listedIds pages := by
        refine hsettled.listed hasked.of_append hlisted.of_append hbefore ?_
        rw [Log.listedIds_pages]
        exact List.mem_map_of_mem hitem
      obtain ⟨row, hrow⟩ :=
        Option.isSome_iff_exists.mp (htended.repos item.id (hsettled.stocked item.id hid))
      rw [hrow] at hdue ⊢
      exact ⟨before, item, row, now, rfl, hitem, hread, isStale?_of_isDue hdue, rfl⟩
  | user | calls | stars | page | clock | repo => cases heffect

theorem Settled.refreshes_all {before after : Log} {event : Answered Task}
    (hlog : log = before ++ event :: after) (heffect : event.query.hasEffect = true) :
    Refreshes options before event.query := by
  subst hlog
  obtain ⟨mid, hbefore, -⟩ := trace_append_iff.mp htrace
  have hasks := hasked before event after rfl
  exact hsettled.refreshes hasked.of_append hlisted.of_append hbefore hasks heffect

theorem Settled.stars_eq : t'.stars = t.stars := by
  let same (s s' : Tables) : Prop := s'.stars = s.stars
  show same t t'
  refine htrace.relates (fun _ => rfl) (fun _ _ _ h h' => h'.trans h)
    fun event hevent s s' hanswered => ?_
  show s'.stars = s.stars
  obtain ⟨before, after, hlog⟩ := List.append_of_mem hevent
  cases heffect : event.query.hasEffect with
  | false =>
    rw [eq_of_not_hasEffect heffect (conduct_mono reliable_le_fallible _ _ _ _ hanswered)]
  | true =>
    obtain ⟨_, item, row, now, -, -, -, -, hquery⟩ :=
      hsettled.refreshes_all hasked hlisted htrace hlog heffect
    obtain ⟨query, answer⟩ := event
    obtain rfl : query = .store (.upsertRepo (item.draft now)) := hquery
    obtain ⟨-, rfl⟩ := (reliable_upsertRepo_iff rfl).mp hanswered
    rfl

theorem Settled.ends (hends : Ends options user.id log result) (hsupplied : log.Supplied) :
    result = .ok (.completed (listedIds pages).toFinset.card) ∨
      result = .error .crashed ∧ ¬ log.WithinCalendar options := by
  have hrefused := hsettled.not_refused hasked hlisted htrace
  obtain ⟨-, -, hstored⟩ := hasked.trace hlisted hrefused htrace
  refine hends.completes hasked (fun found hmem => ?_) hsettled.present hstored hlisted hsupplied
    hsettled.gives hsettled.whole hsettled.affordable
  exact (hasked.found_eq htrace hmem).trans hsettled.found

end Settled

end StarSync

open StarSync
variable {σ τ : Type}

/-- After a run that completed, another one over the same listing comes to the same. It leaves all
stars alone, and writes nothing but listed repositories that are stale. Only where the calendar does
not reach back far enough it may break down instead. -/
theorem syncStars_again (w : Surroundings fallible σ) (w' : Surroundings reliable τ)
    (options : SyncOptions) (identity identity' : Identity) (userId : Int)
    (listing : GitHub.StarListing) (s : σ) (s' : τ) (n : Nat)
    (hcompleted : (w.run (syncStars options identity userId) s).1 = .ok (.completed n))
    (hlisted : (w.transcript (syncStars options identity userId) s).ListedBy listing)
    (hsame : w'.tables s' = w.tables (w.run (syncStars options identity userId) s).2)
    (hlisted' : (w'.transcript (syncStars options identity' userId) s').ListedBy listing)
    (hsupplied : (w'.transcript (syncStars options identity' userId) s').Supplied) :
    (w'.tables (w'.run (syncStars options identity' userId) s').2).stars = (w'.tables s').stars ∧
    (∀ before event after,
      w'.transcript (syncStars options identity' userId) s' = before ++ event :: after →
        event.query.hasEffect = true → Refreshes options before event.query) ∧
    ((w'.run (syncStars options identity' userId) s').1 = .ok (.completed n) ∨
      (w'.run (syncStars options identity' userId) s').1 = .error .crashed ∧
        ¬ (w'.transcript (syncStars options identity' userId) s').WithinCalendar options) := by
  have hfirst := w.runs (syncStars options identity userId) s
  have hsecond := w'.runs (syncStars options identity' userId) s'
  rw [hcompleted] at hfirst
  -- a store that had failed would have ended the first run
  have hreliable := syncStars_strict.under hfirst (by simp) fun _ _ _ _ => fallible_ok_iff.mp
  obtain ⟨user, rfl, hsettled, rfl⟩ := settled_of_runs hlisted hreliable
  rw [← hsame] at hsettled
  obtain ⟨hasked, hends⟩ := syncStars_asked hsecond
  refine ⟨hsettled.stars_eq hasked hlisted' hsecond.trace, ?_,
    hsettled.ends hasked hlisted' hsecond.trace hends hsupplied⟩
  intro before event after hlog heffect
  exact hsettled.refreshes_all hasked hlisted' hsecond.trace hlog heffect

namespace StarSync.Sample

def facts : GitHub.Facts := listing (.ok ⟨[item 1, item 4], none⟩)

def first : Surroundings fallible Tables := (Surroundings.steady facts time).failing fun _ => none

def settled : Tables := (first.run (syncStars (.default 2) .app 1) tables).2

def second : Surroundings reliable Tables := .steady facts ⟨1700100000, 0⟩

end StarSync.Sample

theorem syncStars_again_next_day :
    (Sample.second.run (syncStars (.default 2) .app 1) Sample.settled).1 = .ok (.completed 3) ∧
      (Sample.second.run (syncStars (.default 2) .app 1) Sample.settled).2.stars =
        Sample.settled.stars ∧
      (Sample.second.run (syncStars (.default 2) .app 1) Sample.settled).2.repos ≠
        Sample.settled.repos := by
  have hfirst : (Sample.first.transcript (syncStars (.default 2) .app 1) Sample.tables).ToldBy
      Sample.facts := fun _ _ _ hmem => Surroundings.failing_github hmem
  have hsecond : (Sample.second.transcript (syncStars (.default 2) .app 1)
      Sample.settled).ToldBy Sample.facts := fun _ _ _ hmem => Surroundings.steady_github hmem
  have hsupplied : (Sample.second.transcript (syncStars (.default 2) .app 1)
      Sample.settled).Supplied := by
    intro identity answer hmem
    rw [hsecond identity .remainingCalls answer hmem]
    rfl
  have hcalendar : (Sample.second.transcript (syncStars (.default 2) .app 1)
      Sample.settled).WithinCalendar (.default 2) := by
    intro now hnow
    rw [Surroundings.steady_clock hnow]
    decide
  obtain ⟨hstars, -, hagain⟩ := syncStars_again Sample.first Sample.second (.default 2) .app .app
    1 _ Sample.tables Sample.settled 3 rfl hfirst.listedBy rfl hsecond.listedBy hsupplied
  refine ⟨hagain.resolve_right fun hcrashed => hcrashed.2 hcalendar, hstars, ?_⟩
  decide

end ReleaseTracker
