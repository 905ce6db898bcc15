import Mathlib.Data.Finset.Card
import ReleaseTracker.Proofs.Sync.StarWalk

/-! What a synchronisation of stars comes to. A walk that reaches the end of the listing leaves
exactly the listed repositories starred. A run that ends in any other way has deleted no star. -/

namespace ReleaseTracker
open GitHub (Page StarredRepo)
open Program StoreRule

namespace StarSync
variable {rule : StoreRule} {options : SyncOptions} {identity : Identity} {user : User}
  {userId : Int} {previous listed : List Int} {t t' : Tables} {log : Log}

def walkAndSettle (options : SyncOptions) (identity : Identity) (user : User) (previous : List Int)
    (first : Page StarredRepo) : Work Outcome :=
  (walk options identity user previous options.pageBudget [] first).bind fun (listed, whole) =>
    if whole then settle user.id previous listed else .done (.partly listed.length .remoteFailure)

structure EndedEarly (log : Log) (result : Except Fault Outcome) (t t' : Tables) : Prop where
  pages : log.pages = []
  stars : t'.stars = t.stars
  result : (∃ reason, result = .ok (.aborted reason)) ∨ ∃ e, result = .error (.store e)

theorem refused_asked {e : ApiError} {result : Except Fault Outcome}
    (h : (refused user e).Runs rule.conduct t log result t') :
    log = [] ∨ ∃ (now : Instant) (answer : Except StoreError Unit),
      log = [⟨.clock, now⟩, ⟨.store (.markUserRemoved user.id now), answer⟩] := by
  unfold refused at h
  split_ifs at h
  · obtain ⟨now, log₁, h₁, rfl⟩ := Work.runs_clock_bind_iff.mp h
    obtain ⟨answer, rfl⟩ := Work.runs_store_last h₁
    exact .inr ⟨now, answer, rfl⟩
  · exact .inl (runs_done_iff.mp h).1

theorem refused_runs (hrule : rule ≤ fallible) {e : ApiError} {result : Except Fault Outcome}
    (h : (refused user e).Runs rule.conduct t log result t') : EndedEarly log result t t' := by
  unfold refused at h
  split_ifs at h
  · obtain ⟨now, log₁, h₁, rfl⟩ := Work.runs_clock_bind_iff.mp h
    obtain ⟨e, hmark, rfl, rfl⟩ | ⟨_, mid, rest, hmark, hrest, rfl⟩ :=
      Work.runs_store_bind_iff.mp h₁
    · rw [eq_of_fallible_error (hrule _ _ _ _ hmark) (by simp)]
      exact ⟨rfl, rfl, .inr ⟨e, rfl⟩⟩
    · obtain ⟨-, hmid⟩ := reliable_markUserRemoved_iff.mp (fallible_ok_iff.mp (hrule _ _ _ _ hmark))
      obtain ⟨rfl, rfl, rfl⟩ := runs_done_iff.mp hrest
      exact ⟨rfl, by rw [hmid]; rfl, .inl ⟨_, rfl⟩⟩
  · obtain ⟨rfl, rfl, rfl⟩ := runs_done_iff.mp h
    exact ⟨rfl, rfl, .inl ⟨_, rfl⟩⟩

theorem reconcile_runs (hrule : rule ≤ fallible) {result : Except Fault Outcome}
    (h : (reconcile options identity user).Runs rule.conduct t log result t') :
    EndedEarly log result t t' ∨ ∃ first, ∃ rest : Log, log.pages = first :: rest.pages ∧
      rest ⊆ log ∧
        (walkAndSettle options identity user (t.starsOf user.id) first).Runs rule.conduct t rest
          result t' := by
  obtain ⟨e, hstars, rfl, rfl⟩ | ⟨previous, mid, log₁, hstars, h₁, rfl⟩ :=
    Work.runs_store_bind_iff.mp h
  · rw [eq_of_fallible_error (hrule _ _ _ _ hstars) (by simp)]
    exact .inl ⟨rfl, rfl, .inr ⟨e, rfl⟩⟩
  obtain ⟨hprevious, rfl⟩ := reliable_findStars_iff.mp (fallible_ok_iff.mp (hrule _ _ _ _ hstars))
  obtain rfl := Except.ok.inj hprevious
  obtain ⟨answer, rest, hrest, rfl⟩ := Work.runs_github_bind_iff.mp h₁
  cases answer with
  | error e =>
    obtain ⟨hpages, hkept, hresult⟩ := refused_runs hrule hrest
    exact .inl ⟨hpages, hkept, hresult⟩
  | ok first =>
    refine .inr ⟨first, rest, rfl, fun event hevent => ?_, hrest⟩
    exact List.mem_cons_of_mem _ (List.mem_cons_of_mem _ hevent)

theorem syncStars_runs (hrule : rule ≤ fallible) {result : Except Fault Outcome}
    (h : (syncStars options identity userId).Runs rule.conduct t log result t') :
    EndedEarly log result t t' ∨ ∃ user first, ∃ rest : Log, user.id = userId ∧
      (t.user? user.id).isSome ∧ log.pages = first :: rest.pages ∧ rest ⊆ log ∧
        (walkAndSettle options identity user (t.starsOf user.id) first).Runs rule.conduct t rest
          result t' := by
  obtain ⟨e, hfind, rfl, rfl⟩ | ⟨found, mid, log₁, hfind, h₁, rfl⟩ := Work.runs_store_bind_iff.mp h
  · rw [eq_of_fallible_error (hrule _ _ _ _ hfind) (by simp)]
    exact .inl ⟨rfl, rfl, .inr ⟨e, rfl⟩⟩
  obtain ⟨hfound, rfl⟩ := reliable_findUser_iff.mp (fallible_ok_iff.mp (hrule _ _ _ _ hfind))
  cases found with
  | none =>
    obtain ⟨rfl, rfl, rfl⟩ := runs_done_iff.mp h₁
    exact .inl ⟨rfl, rfl, .inl ⟨_, rfl⟩⟩
  | some user =>
    have huser : user.id = userId := Tables.user?_id (Except.ok.inj hfound).symm
    have hpresent : (mid.user? user.id).isSome := by
      rw [huser, ← Except.ok.inj hfound]
      rfl
    dsimp only at h₁
    split_ifs at h₁
    · obtain ⟨rfl, rfl, rfl⟩ := runs_done_iff.mp h₁
      exact .inl ⟨rfl, rfl, .inl ⟨_, rfl⟩⟩
    obtain ⟨quota, log₂, h₂, rfl⟩ := Work.runs_probe_bind_iff.mp h₁
    split_ifs at h₂
    · obtain ⟨hpages, hkept, hresult⟩ | ⟨first, rest, hpages, hrest, hwalk⟩ :=
        reconcile_runs hrule h₂
      · exact .inl ⟨hpages, hkept, hresult⟩
      · refine .inr ⟨user, first, rest, huser, hpresent, hpages, fun event hevent => ?_, hwalk⟩
        exact List.mem_cons_of_mem _ (List.mem_cons_of_mem _ (hrest hevent))
    · obtain ⟨rfl, rfl, rfl⟩ := runs_done_iff.mp h₂
      exact .inl ⟨rfl, rfl, .inl ⟨_, rfl⟩⟩

structure Walked (userId : Int) (previous : List Int) (pages : List (Page StarredRepo))
    (t t' : Tables) (listed : List Int) : Prop where
  followed : Followed userId {id | id ∈ listedIds pages ∧ id ∉ previous} t t'
  listing : Listing userId previous t' listed
  mem_iff : ∀ id, id ∈ listed ↔ id ∈ listedIds pages

inductive Ending (userId : Int) (previous : List Int) (pages : List (Page StarredRepo))
    (t : Tables) : Except Fault Outcome → Tables → Prop
  | failed {t' : Tables} (e : Fault)
      (followed : Followed userId {id | id ∈ listedIds pages ∧ id ∉ previous} t t') :
      Ending userId previous pages t (.error e) t'
  | interrupted {listed : List Int} {t' : Tables}
      (walked : Walked userId previous pages t t' listed)
      (unfinished : ∀ page ∈ pages, page.isLast = false) :
      Ending userId previous pages t (.ok (.partly listed.length .remoteFailure)) t'
  | settled {listed : List Int} {walkedTo : Tables}
      (walked : Walked userId previous pages t walkedTo listed) :
      Ending userId previous pages t (.ok (.completed listed.length))
        (walkedTo.deleteStars (previous.filter (!listed.contains ·)) userId)

theorem settle_asked {result : Except Fault Outcome}
    (h : (settle userId previous listed).Runs rule.conduct t log result t') :
    log = [] ∨ ∃ (gone : List Int) (answer : Except StoreError Nat),
      log = [⟨.store (.deleteStars gone userId), answer⟩] := by
  unfold settle at h
  split at h
  · exact .inl (runs_done_iff.mp h).1
  · obtain ⟨answer, hlog⟩ := Work.runs_store_last h
    exact .inr ⟨_, answer, hlog⟩

theorem settle_runs {result : Except Fault Outcome}
    (h : (settle userId previous listed).Runs fallible.conduct t log result t') :
    log.pages = [] ∧ ((∃ e, result = .error e ∧ t' = t) ∨
      result = .ok (.completed listed.length) ∧
        t' = t.deleteStars (previous.filter (!listed.contains ·)) userId) := by
  unfold settle at h
  split at h
  · rename_i hnone
    obtain ⟨rfl, rfl, rfl⟩ := runs_done_iff.mp h
    exact ⟨rfl, .inr ⟨rfl, by rw [hnone, Tables.deleteStars_nil]⟩⟩
  · obtain ⟨e, hdelete, rfl, rfl⟩ | ⟨_, mid, rest, hdelete, hrest, rfl⟩ :=
      Work.runs_store_bind_iff.mp h
    · exact ⟨rfl, .inl ⟨_, rfl, eq_of_fallible_error hdelete (by simp)⟩⟩
    · obtain ⟨-, hmid⟩ := reliable_deleteStars_iff.mp (fallible_ok_iff.mp hdelete)
      obtain ⟨rfl, rfl, rfl⟩ := runs_done_iff.mp hrest
      exact ⟨rfl, .inr ⟨rfl, hmid⟩⟩

theorem walkAndSettle_runs {first : Page StarredRepo} {result : Except Fault Outcome}
    (h : (walkAndSettle options identity user previous first).Runs fallible.conduct t log result
      t') : Ending user.id previous (first :: log.pages) t result t' := by
  obtain ⟨e, hwalk, rfl⟩ | ⟨⟨listed, whole⟩, t₁, log₁, log₂, hwalk, h₁, rfl⟩ := runs_bind_iff.mp h
  · exact .failed e (walk_runs hwalk).1
  obtain ⟨hfollowed, hresult⟩ := walk_runs hwalk
  obtain ⟨hmem, hkept, hwhole⟩ := hresult listed whole rfl
  have hwalked : Walked user.id previous (first :: Log.pages log₁) t t₁ listed :=
    ⟨hfollowed, hkept .nil, by simpa using hmem⟩
  rw [Log.pages_append]
  dsimp only at h₁
  split_ifs at h₁ with hlast
  · obtain ⟨hpages, hsettle⟩ := settle_runs h₁
    rw [hpages, List.append_nil]
    rcases hsettle with ⟨e, rfl, rfl⟩ | ⟨rfl, rfl⟩
    · exact .failed e hfollowed
    · exact .settled hwalked
  · obtain ⟨rfl, rfl, rfl⟩ := runs_done_iff.mp h₁
    rw [Log.pages_nil, List.append_nil]
    refine .interrupted hwalked fun page hpage => ?_
    exact Bool.eq_false_iff.mpr fun hpageLast => hlast (hwhole.mpr ⟨page, hpage, hpageLast⟩)

theorem walkAndSettle_ends {first : Page StarredRepo} {result : Except Fault Outcome}
    (huser : (t.user? user.id).isSome)
    (h : (walkAndSettle options identity user previous first).Runs reliable.conduct t log result
      t') :
    (∃ outcome, result = .ok outcome) ∨ (result = .error .crashed ∧ ¬ log.WithinCalendar options) ∨
      (result = .error .unfinished ∧ options.pageBudget ≤ log.pages.length) := by
  obtain ⟨e, hwalk, rfl⟩ | ⟨⟨listed, whole⟩, t₁, log₁, log₂, hwalk, h₁, rfl⟩ := runs_bind_iff.mp h
  · refine .inr ((walk_reliable huser hwalk).resolve_left ?_ |>.imp ?_ ?_)
    · rintro ⟨_, _, hok⟩
      cases hok
    · exact And.imp_left fun hcrashed => by rw [Except.error.inj hcrashed]
    · exact And.imp_left fun hunfinished => by rw [Except.error.inj hunfinished]
  dsimp only at h₁
  split_ifs at h₁
  · unfold settle at h₁
    split at h₁
    · exact .inl ⟨_, (runs_done_iff.mp h₁).2.1⟩
    · obtain ⟨e, hdelete, -⟩ | ⟨_, mid, rest, -, hrest, -⟩ := Work.runs_store_bind_iff.mp h₁
      · simp at hdelete
      · exact .inl ⟨_, (runs_done_iff.mp hrest).2.1⟩
  · exact .inl ⟨_, (runs_done_iff.mp h₁).2.1⟩

theorem walkAndSettle_reliable {first : Page StarredRepo} {result : Except Fault Outcome}
    (huser : (t.user? user.id).isSome) (hcalendar : log.WithinCalendar options)
    (hbudget : log.pages.length < options.pageBudget)
    (h : (walkAndSettle options identity user previous first).Runs reliable.conduct t log result
      t') : ∃ outcome, result = .ok outcome := by
  obtain hok | ⟨-, hout⟩ | ⟨-, hspent⟩ := walkAndSettle_ends huser h
  · exact hok
  · exact absurd hcalendar hout
  · omega

theorem Walked.length_eq {pages : List (Page StarredRepo)}
    (h : Walked userId previous pages t t' listed) :
    listed.length = (listedIds pages).toFinset.card := by
  rw [← List.toFinset_card_of_nodup h.listing.nodup]
  congr 1
  ext id
  rw [List.mem_toFinset, List.mem_toFinset, h.mem_iff]

theorem Walked.mem_starsOf {pages : List (Page StarredRepo)}
    (h : Walked userId (t.starsOf userId) pages t t' listed) (id : Int) :
    id ∈ t'.starsOf userId ↔ id ∈ t.starsOf userId ∨ id ∈ listedIds pages := by
  obtain ⟨new, hnew, hown⟩ := h.followed.stars
  constructor
  · intro hid
    obtain ⟨star, hstar, huser, rfl⟩ := Tables.mem_starsOf.mp hid
    rw [hnew] at hstar
    rcases List.mem_append.mp hstar with hstar | hstar
    · exact .inl (Tables.mem_starsOf.mpr ⟨star, hstar, huser, rfl⟩)
    · exact .inr (hown star hstar).2.1
  · rintro (hid | hid)
    · exact h.followed.starsOf_subset userId hid
    · have hlisted := h.listing.starred id ((h.mem_iff id).mpr hid)
      exact hlisted.elim (fun hold => h.followed.starsOf_subset userId hold) fun hstar => hstar

def KeepsStars (userId : Int) (ids : List Int) (t t' : Tables) : Prop :=
  ∃ new, t'.stars = t.stars ++ new ∧ ∀ star ∈ new, star.userId = userId ∧ star.repoId ∈ ids

theorem Followed.keepsStars {ids : List Int}
    (h : Followed userId {id | id ∈ ids ∧ id ∉ previous} t t') : KeepsStars userId ids t t' := by
  obtain ⟨new, hnew, hown⟩ := h.stars
  exact ⟨new, hnew, fun star hstar => ⟨(hown star hstar).1, (hown star hstar).2.1⟩⟩

/-- The user stars what was listed, and nothing else. Stars that were there before are the same
rows, and nothing has happened to the stars of others. -/
structure Reconciled (userId : Int) (ids : List Int) (t t' : Tables) : Prop where
  starred : ∀ id, id ∈ t'.starsOf userId ↔ id ∈ ids
  kept : t'.stars.filter (fun star => star.userId = userId ∧ star.repoId ∈ t.starsOf userId) =
    t.stars.filter fun star => star.userId = userId ∧ star.repoId ∈ ids
  others : t'.stars.filter (·.userId ≠ userId) = t.stars.filter (·.userId ≠ userId)
  stored : ∀ id ∈ ids, (t'.repo? id).isSome

/-- Of the stars that no new one is like, a deletion leaves those that were there before and are not
deleted. -/
theorem Followed.filter_deleteStars {ids : Set Int} (h : Followed userId ids t t')
    {p : Star → Bool} (hp : ∀ star, star.userId = userId → star.repoId ∈ ids → p star = false)
    (gone : List Int) :
    (t'.deleteStars gone userId).stars.filter p =
      t.stars.filter fun star => p star && !Tables.isAmong userId gone star := by
  obtain ⟨new, hnew, hown⟩ := h.stars
  have hnone : new.filter (fun star => p star && !Tables.isAmong userId gone star) = [] := by
    rw [List.filter_eq_nil_iff]
    intro star hstar
    simp [hp star (hown star hstar).1 (hown star hstar).2]
  rw [Tables.deleteStars, List.filter_filter, hnew, List.filter_append, hnone, List.append_nil]

theorem Walked.reconciled {pages : List (Page StarredRepo)}
    (h : Walked userId (t.starsOf userId) pages t t' listed) :
    Reconciled userId (listedIds pages) t
      (t'.deleteStars ((t.starsOf userId).filter (!listed.contains ·)) userId) := by
  have hgone (id : Int) : id ∈ (t.starsOf userId).filter (!listed.contains ·) ↔
      id ∈ t.starsOf userId ∧ id ∉ listedIds pages := by
    simp [h.mem_iff]
  constructor
  · intro id
    rw [Tables.mem_starsOf]
    simp only [Tables.mem_deleteStars, hgone]
    constructor
    -- a star that is not listed was there before the walk, and so it is deleted
    · rintro ⟨star, ⟨hstar, hkept⟩, huser, rfl⟩
      have hid := (h.mem_starsOf star.repoId).mp (Tables.mem_starsOf.mpr ⟨star, hstar, huser, rfl⟩)
      by_contra hout
      exact hkept ⟨huser, hid.resolve_right hout, hout⟩
    · intro hid
      obtain ⟨star, hstar, huser, rfl⟩ :=
        Tables.mem_starsOf.mp ((h.mem_starsOf id).mpr (.inr hid))
      exact ⟨star, ⟨hstar, fun hout => hout.2.2 hid⟩, huser, rfl⟩
  · rw [h.followed.filter_deleteStars fun star _ hid => by simp [hid.2]]
    refine List.filter_congr fun star hstar => ?_
    by_cases huser : star.userId = userId
    · have hid : star.repoId ∈ t.starsOf userId := Tables.mem_starsOf.mpr ⟨star, hstar, huser, rfl⟩
      simp [Tables.isAmong, huser, hid, h.mem_iff]
    · simp [huser]
  · rw [h.followed.filter_deleteStars fun star huser _ => by simp [huser]]
    refine List.filter_congr fun star _ => ?_
    by_cases huser : star.userId = userId
    · simp [huser]
    · simp [huser, Tables.isAmong]
  · exact fun id hid => h.listing.stored id ((h.mem_iff id).mpr hid)

end StarSync

open StarSync
variable {σ : Type}

/-- A walk that reaches the last page of the listing leaves exactly what it lists starred, and tells
how many repositories these are. -/
theorem syncStars_reconciles (w : Surroundings reliable σ) (options : SyncOptions)
    (identity : Identity) (userId : Int) (s : σ)
    (hlast : ∃ page ∈ (w.transcript (syncStars options identity userId) s).pages,
      page.isLast = true)
    (hbudget : (w.transcript (syncStars options identity userId) s).pages.length ≤
      options.pageBudget)
    (hcalendar : (w.transcript (syncStars options identity userId) s).WithinCalendar options) :
    (w.run (syncStars options identity userId) s).1 = .ok (.completed
      (listedIds (w.transcript (syncStars options identity userId) s).pages).toFinset.card) ∧
    Reconciled userId (listedIds (w.transcript (syncStars options identity userId) s).pages)
      (w.tables s) (w.tables (w.run (syncStars options identity userId) s).2) := by
  have hrun := w.runs (syncStars options identity userId) s
  -- a run that ended early has no pages at all, so it has no last one
  obtain ⟨hpages, -, -⟩ | ⟨user, first, rest, rfl, huser, hpages, hevents, hwalk⟩ :=
    syncStars_runs reliable_le_fallible hrun
  · rw [hpages] at hlast
    simp at hlast
  rw [hpages] at hlast hbudget ⊢
  have hok := walkAndSettle_reliable huser (hcalendar.mono hevents) hbudget hwalk
  generalize (w.run (syncStars options identity user.id) s).1 = result at hwalk hok ⊢
  generalize w.tables (w.run (syncStars options identity user.id) s).2 = t' at hwalk ⊢
  cases walkAndSettle_runs (runs_fallible hwalk) with
  | failed e _ =>
    obtain ⟨_, hok⟩ := hok
    cases hok
  | interrupted _ hunfinished =>
    obtain ⟨page, hpage, hpageLast⟩ := hlast
    rw [hunfinished page hpage] at hpageLast
    cases hpageLast
  | settled hwalked => exact ⟨by rw [hwalked.length_eq], hwalked.reconciled⟩

namespace StarSync.Sample

def time : Instant := ⟨1700000000, 0⟩

def item (id : Int) : StarredRepo := ⟨id, "o/r", "r", none, none, none, none⟩

def user (id : Int) (name : String) : User := ⟨id, name, none, none, "", .utc time, none⟩

def repo (id : Int) : Repo := ⟨id, "o/r", "r", none, none, none, none, .utc time, none⟩

def tables : Tables where
  users := [user 1 "ann", user 2 "bob"]
  repos := [repo 1, repo 3]
  stars := [⟨1, 1, .utc time⟩, ⟨2, 3, .utc time⟩, ⟨1, 3, .utc time⟩]
  versions := []

def listing (second : Except ApiError (Page StarredRepo)) : GitHub.Facts
  | .remainingCalls => .ok 9
  | .starredPage _ none _ => .ok ⟨[item 2, item 1, item 2], some "more"⟩
  | .starredPage _ (some _) _ => second
  | _ => .error (.notFound "")

def world (second : Except ApiError (Page StarredRepo)) : Surroundings reliable Tables :=
  .steady (listing second) time

def refusal : StoreCall → Option StoreError
  | .deleteStars _ _ => some (.database "connection lost")
  | _ => none

end StarSync.Sample

theorem syncStars_reconciles_two_pages :
    ((Sample.world (.ok ⟨[Sample.item 1, Sample.item 4], none⟩)).run
      (syncStars (.default 2) .app 1) Sample.tables).1 = .ok (.completed 3) ∧
    Reconciled 1 [2, 1, 2, 1, 4] Sample.tables
      ((Sample.world (.ok ⟨[Sample.item 1, Sample.item 4], none⟩)).run
        (syncStars (.default 2) .app 1) Sample.tables).2 := by
  refine syncStars_reconciles (Sample.world (.ok ⟨[Sample.item 1, Sample.item 4], none⟩))
    (.default 2) .app 1 Sample.tables ⟨⟨[Sample.item 1, Sample.item 4], none⟩, ?_, rfl⟩
      (by decide) fun now hnow => ?_
  · exact List.mem_cons_of_mem _ List.mem_cons_self
  · rw [Surroundings.steady_clock hnow]
    decide

/-- A run that does not complete keeps all stars, whatever ended it. Of a walk that was cut short,
the listed repositories are starred and counted too. -/
theorem syncStars_keeps_stars (w : Surroundings fallible σ) (options : SyncOptions)
    (identity : Identity) (userId : Int) (s : σ)
    (hresult : ∀ n, (w.run (syncStars options identity userId) s).1 ≠ .ok (.completed n)) :
    KeepsStars userId (listedIds (w.transcript (syncStars options identity userId) s).pages)
      (w.tables s) (w.tables (w.run (syncStars options identity userId) s).2) ∧
    ∀ n reason, (w.run (syncStars options identity userId) s).1 = .ok (.partly n reason) →
      n = (listedIds (w.transcript (syncStars options identity userId) s).pages).toFinset.card ∧
      ∀ id, id ∈ (w.tables (w.run (syncStars options identity userId) s).2).starsOf userId ↔
        id ∈ (w.tables s).starsOf userId ∨
          id ∈ listedIds (w.transcript (syncStars options identity userId) s).pages := by
  have hrun := w.runs (syncStars options identity userId) s
  obtain ⟨hpages, hstars, hearly⟩ | ⟨user, first, rest, rfl, -, hpages, -, hwalk⟩ :=
    syncStars_runs le_rfl hrun
  · refine ⟨⟨[], by rw [hstars, List.append_nil], by simp⟩, fun n reason hpartly => ?_⟩
    rcases hearly with ⟨_, habort⟩ | ⟨_, herror⟩
    · cases habort.symm.trans hpartly
    · cases herror.symm.trans hpartly
  rw [hpages]
  generalize (w.run (syncStars options identity user.id) s).1 = result at hwalk hresult ⊢
  generalize w.tables (w.run (syncStars options identity user.id) s).2 = t' at hwalk ⊢
  cases walkAndSettle_runs hwalk with
  | failed e hfollowed => exact ⟨hfollowed.keepsStars, by simp⟩
  | interrupted hwalked _ =>
    refine ⟨hwalked.followed.keepsStars, fun n reason hpartly => ?_⟩
    obtain ⟨rfl, -⟩ := Outcome.partly.inj (Except.ok.inj hpartly)
    exact ⟨hwalked.length_eq, hwalked.mem_starsOf⟩
  | settled _ => exact absurd rfl (hresult _)

theorem syncStars_keeps_stars_undeleted :
    (((Sample.world (.ok ⟨[], none⟩)).failing Sample.refusal).run
      (syncStars (.default 2) .app 1) Sample.tables).1 =
        .error (.store (.database "connection lost")) ∧
    KeepsStars 1 [2, 1, 2] Sample.tables
      (((Sample.world (.ok ⟨[], none⟩)).failing Sample.refusal).run
        (syncStars (.default 2) .app 1) Sample.tables).2 ∧
    ∀ id, id ∈ (((Sample.world (.error (.transport "reset"))).failing Sample.refusal).run
        (syncStars (.default 2) .app 1) Sample.tables).2.starsOf 1 ↔
      id ∈ Sample.tables.starsOf 1 ∨ id ∈ [2, 1, 2] := by
  refine ⟨rfl, ?_, ?_⟩
  · exact (syncStars_keeps_stars ((Sample.world (.ok ⟨[], none⟩)).failing Sample.refusal)
      (.default 2) .app 1 Sample.tables (fun n h => by cases h)).1
  · exact ((syncStars_keeps_stars
      ((Sample.world (.error (.transport "reset"))).failing Sample.refusal)
      (.default 2) .app 1 Sample.tables (fun n h => by cases h)).2 2 .remoteFailure rfl).2

end ReleaseTracker
