import Mathlib.Data.Set.Basic
import ReleaseTracker.Proofs.Sync.Surroundings
import ReleaseTracker.Sync.Stars

/-! The walk over a listing of stars. On the way the tables only gain stars of the user to listed
repositories (`Followed`), and the ids listed so far are kept apart from each other, starred and
stored (`Listing`). Both are kept by each item and so by the whole walk. -/

namespace ReleaseTracker
open GitHub (Page StarredRepo)
open Program StoreRule

def pageOf? : Answered Task → Option (Page StarredRepo)
  | ⟨.github _ (.starredPage _ _ _), (answer : Except ApiError (Page StarredRepo))⟩ =>
    match answer with
    | .ok page => some page
    | .error _ => none
  | _ => none

def Log.pages (log : Log) : List (Page StarredRepo) := log.filterMap pageOf?

@[simp] theorem Log.pages_append (first rest : Log) :
    Log.pages (first ++ rest) = first.pages ++ rest.pages :=
  List.filterMap_append

theorem Log.pages_clock (now : Instant) (log : Log) :
    Log.pages (⟨.clock, now⟩ :: log) = log.pages := rfl

theorem Log.pages_received (identity : Identity) (username : String) (cursor : Option String)
    (perPage : Nat) (page : Page StarredRepo) (log : Log) :
    Log.pages (⟨.github identity (.starredPage username cursor perPage), Except.ok page⟩ :: log) =
      page :: log.pages := rfl

theorem Log.pages_failed (identity : Identity) (username : String) (cursor : Option String)
    (perPage : Nat) (e : ApiError) (log : Log) :
    Log.pages (⟨.github identity (.starredPage username cursor perPage), Except.error e⟩ :: log) =
      log.pages := rfl

@[simp] theorem Log.pages_nil : Log.pages [] = [] := rfl

/-- Whenever the clock was read, the calendar reached back to where rows begin to be stale. -/
def Log.WithinCalendar (options : SyncOptions) (log : Log) : Prop :=
  ∀ now : Instant, ⟨.clock, now⟩ ∈ log → (now.subNanos? options.staleAfter).isSome

theorem Log.WithinCalendar.mono {options : SyncOptions} {log log' : Log}
    (h : log.WithinCalendar options) (hsub : log' ⊆ log) : log'.WithinCalendar options :=
  fun now hnow => h now (hsub hnow)

def listedIds (pages : List (Page StarredRepo)) : List Int :=
  pages.flatMap fun page => page.items.map (·.id)

@[simp] theorem listedIds_nil : listedIds [] = [] := rfl

@[simp] theorem listedIds_cons (page : Page StarredRepo) (pages : List (Page StarredRepo)) :
    listedIds (page :: pages) = page.items.map (·.id) ++ listedIds pages := rfl

theorem listedIds_append (first rest : List (Page StarredRepo)) :
    listedIds (first ++ rest) = listedIds first ++ listedIds rest := List.flatMap_append

namespace StarSync

structure Followed (userId : Int) (ids : Set Int) (t t' : Tables) : Prop where
  users : t'.users = t.users
  versions : t'.versions = t.versions
  repos : ∀ id, (t.repo? id).isSome → (t'.repo? id).isSome
  stars : ∃ new, t'.stars = t.stars ++ new ∧ ∀ star ∈ new, star.userId = userId ∧ star.repoId ∈ ids

namespace Followed
variable {userId : Int} {ids ids' : Set Int} {t t' t'' : Tables}

theorem refl (t : Tables) : Followed userId ids t t where
  users := rfl
  versions := rfl
  repos _ h := h
  stars := ⟨[], by simp⟩

theorem trans (h : Followed userId ids t t') (h' : Followed userId ids t' t'') :
    Followed userId ids t t'' where
  users := h'.users.trans h.users
  versions := h'.versions.trans h.versions
  repos id hid := h'.repos id (h.repos id hid)
  stars := by
    obtain ⟨new, hnew, hown⟩ := h.stars
    obtain ⟨new', hnew', hown'⟩ := h'.stars
    refine ⟨new ++ new', by rw [hnew', hnew, List.append_assoc], fun star hstar => ?_⟩
    rcases List.mem_append.mp hstar with hstar | hstar
    · exact hown star hstar
    · exact hown' star hstar

theorem mono (h : Followed userId ids t t') (hids : ids ⊆ ids') : Followed userId ids' t t' where
  users := h.users
  versions := h.versions
  repos := h.repos
  stars := by
    obtain ⟨new, hnew, hown⟩ := h.stars
    exact ⟨new, hnew, fun star hstar => ⟨(hown star hstar).1, hids (hown star hstar).2⟩⟩

theorem starsOf_subset (h : Followed userId ids t t') (other : Int) :
    t.starsOf other ⊆ t'.starsOf other := by
  obtain ⟨new, hnew, -⟩ := h.stars
  intro id hid
  obtain ⟨star, hstar, hown⟩ := Tables.mem_starsOf.mp hid
  exact Tables.mem_starsOf.mpr ⟨star, by rw [hnew]; exact List.mem_append_left new hstar, hown⟩

theorem user?_eq (h : Followed userId ids t t') (id : Int) : t'.user? id = t.user? id := by
  simp only [Tables.user?, h.users]

theorem of_upsertRepo (t : Tables) (id : Int) (draft : RepoDraft) :
    Followed userId ids t (t.upsertRepo id draft) where
  users := rfl
  versions := rfl
  repos _ h := Tables.isSome_repo?_upsertRepo h
  stars := ⟨[], by simp [Tables.upsertRepo]⟩

end Followed

/-- The ids listed so far: without repetitions, and each of a repository that is stored and starred,
before the walk or by it. -/
structure Listing (userId : Int) (previous : List Int) (t : Tables) (listed : List Int) : Prop where
  nodup : listed.Nodup
  starred : ∀ id ∈ listed, id ∈ previous ∨ id ∈ t.starsOf userId
  stored : ∀ id ∈ listed, (t.repo? id).isSome

variable {userId : Int} {previous listed : List Int} {t t' : Tables} {log : Log}

theorem Listing.nil : Listing userId previous t [] where
  nodup := List.nodup_nil
  starred := by simp
  stored := by simp

theorem Listing.mono {ids : Set Int} (h : Listing userId previous t listed)
    (hfollowed : Followed userId ids t t') : Listing userId previous t' listed where
  nodup := h.nodup
  starred id hid := (h.starred id hid).imp_right fun hstar => hfollowed.starsOf_subset userId hstar
  stored id hid := hfollowed.repos id (h.stored id hid)

theorem isDue_cases (options : SyncOptions) (now : Instant) (known : Option Repo) :
    (isDue options now known = .stop .crashed ∧ now.subNanos? options.staleAfter = none) ∨
      ∃ due, isDue options now known = .done due ∧ (due = false → known.isSome) := by
  cases known with
  | none => exact .inr ⟨true, rfl, by simp⟩
  | some known =>
    cases hstart : now.subNanos? options.staleAfter with
    | none => exact .inl ⟨by simp [isDue, isStale?, hstart], rfl⟩
    | some start => exact .inr ⟨_, by simp [isDue, isStale?, hstart]; rfl, by simp⟩

theorem refresh_runs (userId : Int) {options : SyncOptions} {now : Instant} {item : StarredRepo}
    {result : Except Fault Unit}
    (h : (refresh options now item).Runs fallible.conduct t log result t') :
    Followed userId ∅ t t' ∧ log.pages = [] ∧
      (result = .ok () → (t'.repo? item.id).isSome) := by
  have hid : (item.draft now).id = .set item.id := rfl
  obtain ⟨e, hfind, rfl, rfl⟩ | ⟨known, mid, rest, hfind, hrest, rfl⟩ :=
    Work.runs_store_bind_iff.mp h
  · rw [eq_of_fallible_error hfind (by simp)]
    exact ⟨.refl t, rfl, by simp⟩
  obtain ⟨hknown, hmid⟩ := reliable_findRepo_iff.mp (fallible_ok_iff.mp hfind)
  rw [hmid] at hrest
  obtain ⟨hdue, -⟩ | ⟨due, hdue, hpresent⟩ := isDue_cases options now known
  · rw [hdue] at hrest
    obtain ⟨rfl, rfl, rfl⟩ := runs_stop_iff.mp hrest
    exact ⟨.refl _, rfl, by simp⟩
  rw [hdue, done_bind] at hrest
  cases due with
  | false =>
    obtain ⟨rfl, rfl, rfl⟩ := runs_done_iff.mp hrest
    exact ⟨.refl _, rfl, fun _ => Except.ok.inj hknown ▸ hpresent rfl⟩
  | true =>
    obtain ⟨e, hupsert, rfl, rfl⟩ | ⟨row, mid, rest, hupsert, hrest, rfl⟩ :=
      Work.runs_store_bind_iff.mp hrest
    -- the row may be there although it was not read back
    · refine ⟨?_, rfl, by simp⟩
      rcases fallible_upsertRepo_error hid hupsert with rfl | rfl
      · exact .refl _
      · exact .of_upsertRepo _ _ _
    · obtain ⟨-, rfl⟩ := (reliable_upsertRepo_iff hid).mp (fallible_ok_iff.mp hupsert)
      obtain ⟨rfl, -, rfl⟩ := runs_done_iff.mp hrest
      exact ⟨.of_upsertRepo _ _ _, rfl, fun _ => by simp [Tables.repo?_upsertRepo]⟩

theorem follow_asked {rule : StoreRule} {repoId : Int} {result : Except Fault (List Int)}
    (h : (follow userId previous listed repoId).Runs rule.conduct t log result t') :
    log = [] ∨ ∃ made : Except StoreError Unit,
      log = [⟨.store (.createStar userId repoId), made⟩] := by
  unfold follow at h
  split_ifs at h
  · exact .inl (runs_done_iff.mp h).1
  · exact .inl (runs_done_iff.mp h).1
  · exact .inr (Work.runs_store_last h)

theorem follow_runs {repoId : Int} {result : Except Fault (List Int)}
    (h : (follow userId previous listed repoId).Runs fallible.conduct t log result t') :
    Followed userId {id | id = repoId ∧ id ∉ previous} t t' ∧ log.pages = [] ∧
      ∀ listed', result = .ok listed' →
        listed' = (if repoId ∈ listed then listed else listed ++ [repoId]) ∧
          (repoId ∈ listed ∨ repoId ∈ previous ∨ repoId ∈ t'.starsOf userId) := by
  unfold follow at h
  simp only [List.contains_iff_mem] at h
  split_ifs at h with hlisted hprevious
  · obtain ⟨rfl, rfl, rfl⟩ := runs_done_iff.mp h
    refine ⟨.refl _, rfl, fun _ hresult => ⟨?_, .inl hlisted⟩⟩
    rw [if_pos hlisted, ← Except.ok.inj hresult]
  · obtain ⟨rfl, rfl, rfl⟩ := runs_done_iff.mp h
    refine ⟨.refl _, rfl, fun _ hresult => ⟨?_, .inr (.inl hprevious)⟩⟩
    rw [if_neg hlisted, ← Except.ok.inj hresult]
  obtain ⟨e, hcreate, rfl, rfl⟩ | ⟨_, mid, rest, hcreate, hrest, rfl⟩ :=
    Work.runs_store_bind_iff.mp h
  · rw [eq_of_fallible_error hcreate (by simp)]
    exact ⟨.refl t, rfl, by simp⟩
  obtain ⟨rfl, rfl, rfl⟩ := runs_done_iff.mp hrest
  obtain ⟨now, ⟨-, hensure⟩ | ⟨hanswer, -⟩⟩ :=
    reliable_createStar_iff.mp (fallible_ok_iff.mp hcreate)
  · rcases Tables.ensureStar?_eq_some hensure with ⟨hstar, rfl⟩ | ⟨-, rfl⟩
    · refine ⟨.refl _, rfl, fun _ hresult => ⟨?_, .inr (.inr (Tables.hasStar_iff.mp hstar))⟩⟩
      rw [if_neg hlisted, ← Except.ok.inj hresult]
    · refine ⟨⟨rfl, rfl, fun _ h => h, [_], rfl, by simp [hprevious]⟩, rfl,
        fun _ hresult => ⟨?_, ?_⟩⟩
      · rw [if_neg hlisted, ← Except.ok.inj hresult]
      · exact .inr (.inr (Tables.mem_starsOf.mpr ⟨⟨userId, repoId, .utc now⟩, by simp, rfl, rfl⟩))
  · cases hanswer

theorem Listing.note {repoId : Int} (h : Listing userId previous t listed)
    (hstored : (t.repo? repoId).isSome)
    (hstarred : repoId ∈ listed ∨ repoId ∈ previous ∨ repoId ∈ t.starsOf userId) :
    Listing userId previous t (if repoId ∈ listed then listed else listed ++ [repoId]) := by
  split_ifs with hlisted
  · exact h
  have hstarred := hstarred.resolve_left hlisted
  constructor
  · rw [List.nodup_append]
    refine ⟨h.nodup, by simp, fun a ha b hb => ?_⟩
    rw [List.mem_singleton.mp hb]
    exact fun hab => hlisted (hab ▸ ha)
  · intro id hid
    rcases List.mem_append.mp hid with hid | hid
    · exact h.starred id hid
    · exact List.mem_singleton.mp hid ▸ hstarred
  · intro id hid
    rcases List.mem_append.mp hid with hid | hid
    · exact h.stored id hid
    · exact List.mem_singleton.mp hid ▸ hstored

def takeItem (options : SyncOptions) (userId : Int) (previous : List Int) (now : Instant)
    (listed : List Int) (item : StarredRepo) : Work (List Int) :=
  (refresh options now item).bind fun _ => follow userId previous listed item.id

theorem takeItems_cons {options : SyncOptions} {now : Instant} {item : StarredRepo}
    {rest : List StarredRepo} :
    takeItems options userId previous now listed (item :: rest) =
      (takeItem options userId previous now listed item).bind fun listed =>
        takeItems options userId previous now listed rest :=
  (bind_assoc _ _ _).symm

theorem takeItem_runs {options : SyncOptions} {now : Instant} {item : StarredRepo}
    {result : Except Fault (List Int)}
    (h : (takeItem options userId previous now listed item).Runs fallible.conduct t log result t') :
    Followed userId {id | id = item.id ∧ id ∉ previous} t t' ∧ log.pages = [] ∧
      ∀ listed', result = .ok listed' →
        listed' = (if item.id ∈ listed then listed else listed ++ [item.id]) ∧
          (Listing userId previous t listed → Listing userId previous t' listed') := by
  obtain ⟨e, hrefresh, rfl⟩ | ⟨_, mid, first, rest, hrefresh, hfollow, rfl⟩ := runs_bind_iff.mp h
  · obtain ⟨hrefreshed, hpages, -⟩ := refresh_runs userId hrefresh
    exact ⟨hrefreshed.mono (Set.empty_subset _), hpages, by simp⟩
  obtain ⟨hrefreshed, hpages, hstored⟩ := refresh_runs userId hrefresh
  obtain ⟨hfollowed, hpages', hnoted⟩ := follow_runs hfollow
  refine ⟨(hrefreshed.mono (Set.empty_subset _)).trans hfollowed, by simp [hpages, hpages'],
    fun listed' hresult => ?_⟩
  obtain ⟨rfl, hstarred⟩ := hnoted listed' hresult
  refine ⟨rfl, fun hlisting => ?_⟩
  have hbefore : Listing userId previous t' listed := (hlisting.mono hrefreshed).mono hfollowed
  exact hbefore.note (hfollowed.repos _ (hstored rfl)) hstarred

theorem takeItems_runs {options : SyncOptions} {now : Instant} {items : List StarredRepo}
    {result : Except Fault (List Int)}
    (h : (takeItems options userId previous now listed items).Runs fallible.conduct t log result
      t') :
    Followed userId {id | id ∈ items.map (·.id) ∧ id ∉ previous} t t' ∧ log.pages = [] ∧
      ∀ listed', result = .ok listed' →
        (∀ id, id ∈ listed' ↔ id ∈ listed ∨ id ∈ items.map (·.id)) ∧
          (Listing userId previous t listed → Listing userId previous t' listed') := by
  induction items generalizing listed t log with
  | nil =>
    obtain ⟨rfl, rfl, rfl⟩ := runs_done_iff.mp h
    exact ⟨.refl _, rfl, by simp⟩
  | cons item rest ih =>
    rw [takeItems_cons] at h
    have hitem : {id | id = item.id ∧ id ∉ previous} ⊆
        {id | id ∈ (item :: rest).map (·.id) ∧ id ∉ previous} := by
      rintro id ⟨rfl, hid⟩
      exact ⟨by simp, hid⟩
    have hothers : {id | id ∈ rest.map (·.id) ∧ id ∉ previous} ⊆
        {id | id ∈ (item :: rest).map (·.id) ∧ id ∉ previous} :=
      fun id hid => ⟨List.mem_cons_of_mem _ hid.1, hid.2⟩
    obtain ⟨e, htake, rfl⟩ | ⟨noted, mid, first, last, htake, hrest, rfl⟩ := runs_bind_iff.mp h
    · obtain ⟨hfollowed, hpages, -⟩ := takeItem_runs htake
      exact ⟨hfollowed.mono hitem, hpages, by simp⟩
    obtain ⟨hfollowed, hpages, hnoted⟩ := takeItem_runs htake
    obtain ⟨hnoted, hkept⟩ := hnoted noted rfl
    obtain ⟨htaken, hpages', hlisted⟩ := ih hrest
    refine ⟨(hfollowed.mono hitem).trans (htaken.mono hothers), by simp [hpages, hpages'],
      fun listed' hresult => ?_⟩
    obtain ⟨hmem, hkept'⟩ := hlisted listed' hresult
    refine ⟨fun id => ?_, fun hlisting => hkept' (hkept hlisting)⟩
    rw [hmem id, hnoted, List.map_cons, List.mem_cons]
    split_ifs with hin
    -- an id that repeats is among those listed before, so it may be put with either
    · constructor
      · exact Or.imp_right .inr
      · rintro (hid | rfl | hid)
        · exact .inl hid
        · exact .inl hin
        · exact .inr hid
    · rw [List.mem_append, List.mem_singleton, or_assoc]

/-- Walking from a page on lists exactly the ids of that page and of those that came after it,
besides those listed before. It reaches its end exactly with a last page. -/
theorem walk_runs {options : SyncOptions} {identity : Identity} {user : User} {budget : Nat}
    {page : Page StarredRepo} {result : Except Fault (List Int × Bool)}
    (h : (walk options identity user previous budget listed page).Runs fallible.conduct t log result
      t') :
    Followed user.id {id | id ∈ listedIds (page :: log.pages) ∧ id ∉ previous} t t' ∧
      ∀ listed' whole, result = .ok (listed', whole) →
        (∀ id, id ∈ listed' ↔ id ∈ listed ∨ id ∈ listedIds (page :: log.pages)) ∧
          (Listing user.id previous t listed → Listing user.id previous t' listed') ∧
            (whole = true ↔ ∃ p ∈ page :: log.pages, p.isLast = true) := by
  -- each page spends one of the budget, and the ids listed so far go into the next
  induction budget generalizing listed t log page with
  | zero =>
    obtain ⟨rfl, rfl, rfl⟩ := runs_stop_iff.mp h
    exact ⟨.refl _, by simp⟩
  | succ budget ih =>
    obtain ⟨now, log₁, h₁, rfl⟩ := Work.runs_clock_bind_iff.mp h
    have hpage (pages : List (Page StarredRepo)) :
        {id | id ∈ page.items.map (·.id) ∧ id ∉ previous} ⊆
          {id | id ∈ listedIds (page :: pages) ∧ id ∉ previous} :=
      fun id hid => ⟨List.mem_append_left _ hid.1, hid.2⟩
    obtain ⟨e, htake, rfl⟩ | ⟨taken, t₁, log₂, log₃, htake, h₂, rfl⟩ := runs_bind_iff.mp h₁
    · obtain ⟨hfollowed, hpages, -⟩ := takeItems_runs htake
      exact ⟨hfollowed.mono (hpage _), by simp⟩
    obtain ⟨hfollowed, hpages, htaken⟩ := takeItems_runs htake
    obtain ⟨hmem, hkept⟩ := htaken taken rfl
    rw [Log.pages_clock, Log.pages_append, hpages, List.nil_append]
    split_ifs at h₂ with hlast
    · obtain ⟨rfl, rfl, rfl⟩ := runs_done_iff.mp h₂
      refine ⟨hfollowed.mono (hpage _), fun listed' whole hresult => ?_⟩
      obtain ⟨rfl, rfl⟩ := Prod.mk.inj (Except.ok.inj hresult)
      exact ⟨by simpa using hmem, hkept, by simp [hlast]⟩
    obtain ⟨answer, log₄, h₃, rfl⟩ := Work.runs_github_bind_iff.mp h₂
    cases answer with
    | error e =>
      obtain ⟨rfl, rfl, rfl⟩ := runs_done_iff.mp h₃
      rw [Log.pages_failed]
      refine ⟨hfollowed.mono (hpage _), fun listed' whole hresult => ?_⟩
      obtain ⟨rfl, rfl⟩ := Prod.mk.inj (Except.ok.inj hresult)
      exact ⟨by simpa using hmem, hkept, by simp [hlast]⟩
    | ok next =>
      obtain ⟨hwalked, hresult⟩ := ih h₃
      rw [Log.pages_received]
      refine ⟨(hfollowed.mono (hpage _)).trans (hwalked.mono ?_), fun listed' whole h => ?_⟩
      · exact fun id hid => ⟨List.mem_append_right _ hid.1, hid.2⟩
      obtain ⟨hmem', hkept', hwhole⟩ := hresult listed' whole h
      refine ⟨fun id => ?_, fun hlisting => hkept' (hkept hlisting), ?_⟩
      · rw [hmem' id, hmem id, listedIds_cons page, List.mem_append, or_assoc]
      · rw [hwhole]
        simp [hlast]

/-! With a reliable store a walk ends early only if the calendar does not reach back far enough, or
if the listing has more pages than the budget allows. -/

theorem refresh_reliable {options : SyncOptions} {now : Instant} {item : StarredRepo}
    {result : Except Fault Unit}
    (h : (refresh options now item).Runs reliable.conduct t log result t') :
    result = .ok () ∨ result = .error .crashed ∧ now.subNanos? options.staleAfter = none := by
  have hid : (item.draft now).id = .set item.id := rfl
  obtain ⟨e, hfind, -⟩ | ⟨known, mid, rest, -, hrest, -⟩ := Work.runs_store_bind_iff.mp h
  · simp at hfind
  obtain ⟨hdue, hnone⟩ | ⟨due, hdue, -⟩ := isDue_cases options now known
  · rw [hdue] at hrest
    exact .inr ⟨(runs_stop_iff.mp hrest).2.1, hnone⟩
  rw [hdue, done_bind] at hrest
  split_ifs at hrest
  · obtain ⟨e, hupsert, -⟩ | ⟨row, mid, rest, -, hrest, -⟩ := Work.runs_store_bind_iff.mp hrest
    · simp [reliable_upsertRepo_iff hid] at hupsert
    · exact .inl (runs_done_iff.mp hrest).2.1
  · exact .inl (runs_done_iff.mp hrest).2.1

theorem follow_reliable {repoId : Int} {result : Except Fault (List Int)}
    (huser : (t.user? userId).isSome) (hrepo : (t.repo? repoId).isSome)
    (h : (follow userId previous listed repoId).Runs reliable.conduct t log result t') :
    ∃ listed', result = .ok listed' := by
  unfold follow at h
  split_ifs at h
  · exact ⟨_, (runs_done_iff.mp h).2.1⟩
  · exact ⟨_, (runs_done_iff.mp h).2.1⟩
  obtain ⟨e, hcreate, -⟩ | ⟨_, mid, rest, -, hrest, -⟩ := Work.runs_store_bind_iff.mp h
  · obtain ⟨now, ⟨hanswer, -⟩ | ⟨-, hnone, -⟩⟩ := reliable_createStar_iff.mp hcreate
    · cases hanswer
    · have hsome : (t.ensureStar? ⟨userId, repoId, .utc now⟩).isSome :=
        Tables.ensureStar?_isSome_iff.mpr (.inr ⟨huser, hrepo⟩)
      rw [hnone] at hsome
      cases hsome
  · exact ⟨_, (runs_done_iff.mp hrest).2.1⟩

theorem takeItem_reliable {options : SyncOptions} {now : Instant} {item : StarredRepo}
    {result : Except Fault (List Int)} (huser : (t.user? userId).isSome)
    (h : (takeItem options userId previous now listed item).Runs reliable.conduct t log result t') :
    (∃ listed', result = .ok listed') ∨
      result = .error .crashed ∧ now.subNanos? options.staleAfter = none := by
  obtain ⟨e, hrefresh, rfl⟩ | ⟨_, mid, first, rest, hrefresh, hfollow, -⟩ := runs_bind_iff.mp h
  · obtain hok | ⟨hcrashed, hnone⟩ := refresh_reliable hrefresh
    · cases hok
    · exact .inr ⟨by rw [Except.error.inj hcrashed], hnone⟩
  obtain ⟨hrefreshed, -, hstored⟩ := refresh_runs userId (runs_fallible hrefresh)
  exact .inl (follow_reliable (hrefreshed.user?_eq userId ▸ huser) (hstored rfl) hfollow)

theorem takeItems_reliable {options : SyncOptions} {now : Instant} {items : List StarredRepo}
    {result : Except Fault (List Int)} (huser : (t.user? userId).isSome)
    (h : (takeItems options userId previous now listed items).Runs reliable.conduct t log result
      t') :
    (∃ listed', result = .ok listed') ∨
      result = .error .crashed ∧ now.subNanos? options.staleAfter = none := by
  induction items generalizing listed t log with
  | nil => exact .inl ⟨listed, (runs_done_iff.mp h).2.1⟩
  | cons item rest ih =>
    rw [takeItems_cons] at h
    obtain ⟨e, htake, rfl⟩ | ⟨noted, mid, first, last, htake, hrest, -⟩ := runs_bind_iff.mp h
    · exact takeItem_reliable huser htake
    obtain ⟨hfollowed, -⟩ := takeItem_runs (runs_fallible htake)
    exact ih (hfollowed.user?_eq userId ▸ huser) hrest

theorem walk_reliable {options : SyncOptions} {identity : Identity} {user : User} {budget : Nat}
    {page : Page StarredRepo} {result : Except Fault (List Int × Bool)}
    (huser : (t.user? user.id).isSome)
    (h : (walk options identity user previous budget listed page).Runs reliable.conduct t log result
      t') :
    (∃ listed' whole, result = .ok (listed', whole)) ∨
      (result = .error .crashed ∧ ¬ log.WithinCalendar options) ∨
        (result = .error .unfinished ∧ budget ≤ log.pages.length) := by
  induction budget generalizing listed t log page with
  | zero => exact .inr (.inr ⟨(runs_stop_iff.mp h).2.1, Nat.zero_le _⟩)
  | succ budget ih =>
    obtain ⟨now, log₁, h₁, rfl⟩ := Work.runs_clock_bind_iff.mp h
    obtain ⟨e, htake, rfl⟩ | ⟨taken, t₁, log₂, log₃, htake, h₂, rfl⟩ := runs_bind_iff.mp h₁
    · obtain ⟨_, hok⟩ | ⟨hcrashed, hnone⟩ := takeItems_reliable huser htake
      · cases hok
      refine .inr (.inl ⟨by rw [Except.error.inj hcrashed], fun hcalendar => ?_⟩)
      have hnow := hcalendar now List.mem_cons_self
      rw [hnone] at hnow
      cases hnow
    obtain ⟨hfollowed, hpages, -⟩ := takeItems_runs (runs_fallible htake)
    split_ifs at h₂
    · exact .inl ⟨taken, true, (runs_done_iff.mp h₂).2.1⟩
    obtain ⟨answer, log₄, h₃, rfl⟩ := Work.runs_github_bind_iff.mp h₂
    cases answer with
    | error e => exact .inl ⟨taken, false, (runs_done_iff.mp h₃).2.1⟩
    | ok next =>
      have hrest : log₄ ⊆ ⟨.clock, now⟩ :: (log₂ ++ ⟨.github identity _, Except.ok next⟩ :: log₄) :=
        List.subset_cons_of_subset _
          (List.subset_append_of_subset_right _ (List.subset_cons_self _ _))
      rw [Log.pages_clock, Log.pages_append, hpages, List.nil_append, Log.pages_received,
        List.length_cons]
      refine (ih (hfollowed.user?_eq user.id ▸ huser) h₃).imp_right (Or.imp ?_ ?_)
      · exact fun ⟨hcrashed, hout⟩ => ⟨hcrashed, fun hcalendar => hout (hcalendar.mono hrest)⟩
      · exact fun ⟨hunfinished, hspent⟩ => ⟨hunfinished, Nat.succ_le_succ hspent⟩

end StarSync
end ReleaseTracker
