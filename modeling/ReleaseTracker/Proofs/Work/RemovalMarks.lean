import ReleaseTracker.Proofs.GitHub.Disappearance
import ReleaseTracker.Proofs.Sync.VersionInterruption
import ReleaseTracker.Proofs.Work.Abort

/-! Which answers set a mark. A subject that is there and not removed is pursued while calls are
left: GitHub is asked for its listings, and the mark is set if and only if these say that it has
gone. Whatever fails later, or for another reason, sets no mark. -/

namespace ReleaseTracker
open GitHub (ApiCall Page StarredRepo Tag Server)
open Program StoreRule

/-! Marks and listings in a log -/

def Task.Query.mark? : Task.Query → Option StoreCall
  | .store (.markUserRemoved userId time) => some (.markUserRemoved userId time)
  | .store (.markRepoRemoved repoId time) => some (.markRepoRemoved repoId time)
  | _ => none

def Task.Query.asksListing : Task.Query → Bool
  | .github _ call => call.goesByListing
  | _ => false

/-- The marks that the store was asked to set, whether it did so or not. -/
def Log.marks (log : Log) : List StoreCall := log.filterMap fun event => event.query.mark?

def Log.listings (log : Log) : Log := log.filter (·.query.asksListing)

section Views
variable {log first rest : Log} {event : Answered Task} {item : WorkItem}

@[simp] theorem Log.marks_append : Log.marks (first ++ rest) = first.marks ++ rest.marks :=
  List.filterMap_append

theorem Log.marks_cons (h : event.query.mark? = none) : Log.marks (event :: log) = log.marks :=
  List.filterMap_cons_none h

theorem Log.marks_eq_nil (h : ∀ event ∈ log, event.query.mark? = none) : log.marks = [] :=
  List.filterMap_eq_nil_iff.mpr h

@[simp] theorem Log.listings_append :
    Log.listings (first ++ rest) = first.listings ++ rest.listings := List.filter_append _ _

theorem Log.listings_cons (h : event.query.asksListing = false) :
    Log.listings (event :: log) = log.listings :=
  List.filter_cons_of_neg (by simp [h])

theorem Log.listings_eq_nil (h : ∀ event ∈ log, event.query.asksListing = false) :
    log.listings = [] :=
  List.filter_eq_nil_iff.mpr fun event hevent => by simp [h event hevent]

theorem Task.Query.mark?_lookup : (Task.Query.store item.lookup).mark? = none := by
  cases item <;> rfl

theorem Task.Query.mark?_mark (time : Instant) :
    (Task.Query.store (item.mark time)).mark? = some (item.mark time) := by
  cases item <;> rfl

theorem WorkItem.Owns.mark?_eq_none {ids : List Int} {query : Task.Query}
    (h : item.Owns ids query) : query.mark? = none := by
  cases query with
  | store call =>
    cases call with
    | markUserRemoved | markRepoRemoved => cases h
    | _ => rfl
  | _ => rfl

theorem Log.Choosing.marks (h : log.Choosing) : log.marks = [] := by
  refine Log.marks_eq_nil fun event hevent => ?_
  have hchoice := h event hevent
  obtain ⟨query, answer⟩ := event
  cases query with
  | store call =>
    cases call with
    | userCredentials => rfl
    | _ => cases hchoice
  | _ => rfl

end Views

namespace WorkItem

/-! What GitHub is asked, and what it may say -/

def rowIn (t : Tables) : (item : WorkItem) → item.lookup.Result
  | .stars userId => t.user? userId
  | .versions repoId => t.repo? repoId

structure Pursued (item : WorkItem) (identity : Identity) (found : item.lookup.Result)
    (log : Log) : Prop where
  present : item.removal found = some none
  left : ∃ calls : Nat, 0 < calls ∧ ⟨.github identity .remainingCalls, Except.ok calls⟩ ∈ log

/-- Of a user the first page of stars was asked for, before any other page. Of a repository it was
asked whether there are tags, and for all of them if there are some. -/
def Asked (options : SyncOptions) (identity : Identity) (listings : Log) :
    (item : WorkItem) → item.lookup.Result → Prop
  | .stars _, some user => ∃ answer : Except ApiError (Page StarredRepo), listings.head? =
      some ⟨.github identity (.starredPage user.username none options.pageSize), answer⟩
  | .versions _, some repo =>
    (∃ tagged : Except ApiError Bool, tagged ≠ .ok true ∧
      listings = [⟨.github identity (.hasTags repo.fullName), tagged⟩]) ∨
    ∃ listed : Except ApiError (List Tag), listings =
      [⟨.github identity (.hasTags repo.fullName), Except.ok true⟩,
        ⟨.github identity (.allTags repo.fullName), listed⟩]
  | .stars _, none | .versions _, none => False

/-- GitHub said that the subject has gone. The first page of stars was not found, or the tags were
not found or blocked, be it when it was asked whether there are some or after it was said so. -/
def SaidGone (options : SyncOptions) (identity : Identity) (listings : Log) :
    (item : WorkItem) → item.lookup.Result → Prop
  | .stars _, some user => ∃ resource, listings.head? =
      some ⟨.github identity (.starredPage user.username none options.pageSize),
        Except.error (.notFound resource)⟩
  | .versions _, some repo => ∃ e resource, (e = .notFound resource ∨ e = .blocked resource) ∧
      (listings = [⟨.github identity (.hasTags repo.fullName), Except.error e⟩] ∨
        listings = [⟨.github identity (.hasTags repo.fullName), Except.ok true⟩,
          ⟨.github identity (.allTags repo.fullName), Except.error e⟩])
  | .stars _, none | .versions _, none => False

def losesBy : WorkItem → ApiCall → ApiError → Bool
  | .stars _, .starredPage _ none _, e => e.isNotFound
  | .versions _, .hasTags _, e | .versions _, .allTags _, e => e.isRemoved
  | _, _, _ => false

/-- The subject is marked at most once, and nothing else is. It is not marked where a call has
failed that says nothing about it. -/
structure MarksOwn (item : WorkItem) (log : Log) : Prop where
  marks : log.marks = [] ∨ ∃ now : Instant, ⟨.clock, now⟩ ∈ log ∧ log.marks = [item.mark now]
  blameless : ∀ (identity : Identity) (call : ApiCall) (e : ApiError),
    ⟨.github identity call, Except.error e⟩ ∈ log → item.losesBy call e = false → log.marks = []

/-- What a log shows of the mark of a subject, whose row was found so. The questions that decide are
asked unless the store fails before. -/
structure Judged (item : WorkItem) (options : SyncOptions) (identity : Identity)
    (found : item.lookup.Result) (log : Log) : Prop extends item.MarksOwn log where
  probed : log.Stored → item.removal found = some none →
    ∃ answer : Except ApiError Nat, ⟨.github identity .remainingCalls, answer⟩ ∈ log
  asked : log.Stored → item.Pursued identity found log →
    item.Asked options identity log.listings found
  marked : log.marks ≠ [] ↔
    item.Pursued identity found log ∧ item.SaidGone options identity log.listings found

structure Verdict (item : WorkItem) (options : SyncOptions) (identity : Identity)
    (found : item.lookup.Result) (log : Log) : Prop extends item.MarksOwn log where
  asked : log.Stored → item.Asked options identity log.listings found
  marked : log.marks ≠ [] ↔ item.SaidGone options identity log.listings found

variable {item : WorkItem} {options : SyncOptions} {identity : Identity}
  {found : item.lookup.Result} {log : Log} {t t' : Tables} {result : Except Fault Outcome}

theorem MarksOwn.of_eq_nil (hmarks : log.marks = []) : item.MarksOwn log where
  marks := .inl hmarks
  blameless _ _ _ _ _ := hmarks

theorem Verdict.spared (hasked : log.Stored → item.Asked options identity log.listings found)
    (hmarks : log.marks = []) (hstays : ¬ item.SaidGone options identity log.listings found) :
    item.Verdict options identity found log where
  toMarksOwn := .of_eq_nil hmarks
  asked := hasked
  marked := iff_of_false (not_not_intro hmarks) hstays

theorem refusal_runs {gone : Bool}
    (hrun : (if gone then Work.clock.bind fun now => (Work.store (item.mark now)).bind fun _ =>
      .done (.aborted .removed) else .done (.aborted .remoteFailure) : Work Outcome).Runs
        fallible.conduct t log result t') :
    (gone = true ∧ ∃ (now : Instant) (answer : Except StoreError (item.mark now).Result),
      log = [⟨.clock, now⟩, ⟨.store (item.mark now), answer⟩]) ∨ gone = false ∧ log = [] := by
  cases gone with
  | false => exact .inr ⟨rfl, (runs_done_iff.mp hrun).1⟩
  | true =>
    obtain ⟨now, log₁, h₁, rfl⟩ := Work.runs_clock_bind_iff.mp hrun
    obtain ⟨e, -, -, rfl⟩ | ⟨value, mid, log₂, -, h₂, rfl⟩ := Work.runs_store_bind_iff.mp h₁
    · exact .inl ⟨rfl, now, _, rfl⟩
    · obtain ⟨rfl, -⟩ := runs_done_iff.mp h₂
      exact .inl ⟨rfl, now, _, rfl⟩

theorem Verdict.refused (before : Log) {call : ApiCall} {e : ApiError}
    (hunfailing : before.Unfailing) (hmarks : before.marks = [])
    (hasked : item.Asked options identity
      (Log.listings (before ++ [⟨.github identity call, Except.error e⟩])) found)
    (hgone : item.SaidGone options identity
      (Log.listings (before ++ [⟨.github identity call, Except.error e⟩])) found ↔
        item.losesBy call e = true)
    (hrun : (if item.losesBy call e then
      Work.clock.bind fun now => (Work.store (item.mark now)).bind fun _ =>
        .done (.aborted .removed) else .done (.aborted .remoteFailure) : Work Outcome).Runs
          fallible.conduct t log result t') :
    item.Verdict options identity found
      (before ++ ⟨.github identity call, Except.error e⟩ :: log) := by
  rw [List.append_cons]
  have hfirst : Log.marks (before ++ [⟨.github identity call, Except.error e⟩]) = [] := by
    rw [Log.marks_append, hmarks]
    rfl
  obtain ⟨hlost, now, answer, rfl⟩ | ⟨hkept, rfl⟩ := refusal_runs hrun
  -- the call that loses the subject is the only one that failed, and its mark is the only one
  · have hmark : Log.marks [⟨.clock, now⟩, ⟨.store (item.mark now), answer⟩] = [item.mark now] := by
      rw [Log.marks_cons rfl]
      exact List.filterMap_cons_some (Task.Query.mark?_mark now)
    have hnone : Log.listings [⟨.clock, now⟩, ⟨.store (item.mark now), answer⟩] = [] := rfl
    refine ⟨⟨.inr ⟨now, by simp, ?_⟩, fun identity' call' e' hmem hcall => ?_⟩, fun _ => ?_, ?_⟩
    · rw [Log.marks_append, hfirst, hmark, List.nil_append]
    · simp only [List.mem_append, List.mem_cons, List.not_mem_nil, or_false] at hmem
      rcases hmem with (hmem | heq) | heq | heq
      · exact absurd hmem hunfailing.not_mem
      · injection heq with hquery hanswer
        cases hquery
        cases eq_of_heq hanswer
        rw [hlost] at hcall
        cases hcall
      · cases heq
      · cases heq
    · rw [Log.listings_append, hnone, List.append_nil]
      exact hasked
    · rw [Log.listings_append, hnone, List.append_nil, Log.marks_append, hfirst, hmark]
      exact iff_of_true (List.cons_ne_nil _ _) (hgone.mpr hlost)
  · rw [List.append_nil]
    refine .spared (fun _ => hasked) hfirst fun hsaid => ?_
    exact Bool.false_ne_true (hkept.symm.trans (hgone.mp hsaid))

end WorkItem

/-! Stars -/

namespace StarSync
variable {may : (query : Task.Query) → Task.Answer query → Prop} {options : SyncOptions}
  {identity : Identity} {user : User} {previous listed : List Int} {log : Log} {t t' : Tables}
  {result : Except Fault Outcome}

theorem walk_unmarked {budget : Nat} {page : Page StarredRepo} :
    Program.Ensures may (fun _ (query : Task.Query) => query.mark? = none) (fun _ _ => True) log
      (walk options identity user previous budget listed page) := by
  induction budget generalizing listed log page with
  | zero => trivial
  | succ budget ih =>
    refine Work.ensures_clock_bind_iff.mpr ⟨rfl, fun now _ => ?_⟩
    have htake : Program.Ensures may (fun _ (query : Task.Query) => query.mark? = none)
        (fun _ _ => True) (log ++ [⟨.clock, now⟩])
        (takeItems options user.id previous now listed page.items) :=
      (takeItems_concerns fun item => List.mem_map_of_mem).mono (fun _ _ => id)
        (fun _ _ h => h.2.mark?_eq_none) fun _ _ _ => trivial
    refine htake.bind (fun log listed _ => ?_) fun _ _ => id
    split_ifs
    · trivial
    refine Work.ensures_github_bind_iff.mpr ⟨rfl, fun next _ => ?_⟩
    cases next with
    | error e => trivial
    | ok page => exact ih

theorem walkAndSettle_unmarked {first : Page StarredRepo} :
    Program.Ensures may (fun _ (query : Task.Query) => query.mark? = none) (fun _ _ => True) log
      (walkAndSettle options identity user previous first) := by
  refine walk_unmarked.bind (fun log ending _ => ?_) fun _ _ => id
  obtain ⟨listed, whole⟩ := ending
  dsimp only
  split_ifs
  · have hsettle : Program.Ensures may (fun _ => Concerns user.id [])
        (fun _ => Yields fun outcome => outcome.isAborted = false) log
        (settle user.id previous listed) := settle_concerns
    exact hsettle.mono (fun _ _ => id) (fun _ _ h => h.2.mark?_eq_none) fun _ _ _ => trivial
  · trivial

theorem walkAndSettle_marks {first : Page StarredRepo}
    (hrun : (walkAndSettle options identity user previous first).Runs fallible.conduct t log result
      t') : log.marks = [] := by
  have hunmarked : Program.Ensures Task.Proper (fun _ (query : Task.Query) => query.mark? = none)
      (fun _ _ => True) [] (walkAndSettle options identity user previous first) :=
    walkAndSettle_unmarked
  exact Log.marks_eq_nil (hunmarked.asked hrun fun _ _ _ _ => proper_of_fallible)

theorem saidGone_iff {userId : Int} {answer : Except ApiError (Page StarredRepo)} {rest : Log} :
    (WorkItem.stars userId).SaidGone options identity
        (⟨.github identity (.starredPage user.username none options.pageSize), answer⟩ :: rest)
        (some user) ↔ ∃ e, answer = .error e ∧ e.isNotFound = true := by
  constructor
  · rintro ⟨resource, hfirst⟩
    cases hfirst
    exact ⟨_, rfl, rfl⟩
  · rintro ⟨e, rfl, hgone⟩
    obtain ⟨resource, rfl⟩ := ApiError.isNotFound_iff.mp hgone
    exact ⟨resource, rfl⟩

theorem reconcile_verdict
    (hrun : (reconcile options identity user).Runs fallible.conduct t log result t') :
    (WorkItem.stars user.id).Verdict options identity (some user) log := by
  obtain ⟨e, -, -, rfl⟩ | ⟨previous, mid, log₁, -, h₁, rfl⟩ := Work.runs_store_bind_iff.mp hrun
  · refine .spared (fun hstored => absurd List.mem_cons_self (hstored _ e)) rfl ?_
    rintro ⟨resource, ⟨⟩⟩
  obtain ⟨answer, rest, hrest, rfl⟩ := Work.runs_github_bind_iff.mp h₁
  cases answer with
  | error e =>
    have hbefore : Log.Unfailing [⟨.store (.findStars user.id), Except.ok previous⟩] :=
      .cons_other rfl .nil
    refine .refused [_] hbefore rfl ⟨.error e, rfl⟩ (saidGone_iff.trans ?_) hrest
    simp [WorkItem.losesBy]
  | ok page =>
    have hmarks : Log.marks rest = [] := walkAndSettle_marks hrest
    refine .spared (fun _ => ⟨.ok page, rfl⟩) hmarks fun hsaid => ?_
    obtain ⟨_, ⟨⟩, -⟩ := saidGone_iff.mp hsaid

end StarSync

/-! Versions -/

namespace VersionSync
variable {options : SyncOptions} {identity : Identity} {repo : Repo} {log : Log} {t t' : Tables}
  {result : Except Fault Outcome} {tags : List Tag}

theorem Concerns.not_asksListing {repoId : Int} {query : Task.Query} (h : Concerns repoId query) :
    query.asksListing = false := by
  cases query with
  | github identity call =>
    cases call with
    | starredPage | hasTags | allTags => cases h
    | _ => rfl
  | _ => rfl

theorem pass_runs (hrun : ((takeTags options identity repo .empty tags).bind fun taken =>
      finish repo taken.1 taken.2).Runs fallible.conduct t log result t') :
    log.marks = [] ∧ log.listings = [] := by
  have hpass : Program.Ensures Task.Proper (fun _ => Concerns repo.id)
      (fun _ => Yields fun outcome => outcome.isAborted = false) []
      ((takeTags options identity repo .empty tags).bind fun taken =>
        finish repo taken.1 taken.2) := pass_concerns
  have hconcerns : ∀ event ∈ log, Concerns repo.id event.query :=
    hpass.asked hrun fun _ _ _ _ => proper_of_fallible
  constructor
  · exact Log.marks_eq_nil fun event hevent => ((hconcerns event hevent).owns []).mark?_eq_none
  · exact Log.listings_eq_nil fun event hevent => (hconcerns event hevent).not_asksListing

theorem saidGone_first_iff {repoId : Int} {tagged : Except ApiError Bool} :
    (WorkItem.versions repoId).SaidGone options identity
        [⟨.github identity (.hasTags repo.fullName), tagged⟩] (some repo) ↔
      ∃ e, tagged = .error e ∧ e.isRemoved = true := by
  constructor
  · rintro ⟨e, resource, hresource, hfirst | hsecond⟩
    · cases hfirst
      exact ⟨e, rfl, ApiError.isRemoved_iff.mpr ⟨resource, hresource⟩⟩
    · cases hsecond
  · rintro ⟨e, rfl, hgone⟩
    obtain ⟨resource, hresource⟩ := ApiError.isRemoved_iff.mp hgone
    exact ⟨e, resource, hresource, .inl rfl⟩

theorem saidGone_second_iff {repoId : Int} {listed : Except ApiError (List Tag)} :
    (WorkItem.versions repoId).SaidGone options identity
        [⟨.github identity (.hasTags repo.fullName), Except.ok true⟩,
          ⟨.github identity (.allTags repo.fullName), listed⟩] (some repo) ↔
      ∃ e, listed = .error e ∧ e.isRemoved = true := by
  constructor
  · rintro ⟨e, resource, hresource, hfirst | hsecond⟩
    · cases hfirst
    · cases hsecond
      exact ⟨e, rfl, ApiError.isRemoved_iff.mpr ⟨resource, hresource⟩⟩
  · rintro ⟨e, rfl, hgone⟩
    obtain ⟨resource, hresource⟩ := ApiError.isRemoved_iff.mp hgone
    exact ⟨e, resource, hresource, .inr rfl⟩

theorem reconcile_verdict
    (hrun : (reconcile options identity repo).Runs fallible.conduct t log result t') :
    (WorkItem.versions repo.id).Verdict options identity (some repo) log := by
  obtain ⟨tagged, rest, hrest, rfl⟩ := Work.runs_github_bind_iff.mp hrun
  match tagged with
  | .error e =>
    refine .refused [] .nil rfl (.inl ⟨.error e, nofun, rfl⟩) (saidGone_first_iff.trans ?_) hrest
    simp [WorkItem.losesBy]
  | .ok false =>
    obtain ⟨rfl, -⟩ := runs_done_iff.mp hrest
    refine .spared (fun _ => .inl ⟨.ok false, nofun, rfl⟩) rfl fun hsaid => ?_
    obtain ⟨_, ⟨⟩, -⟩ := saidGone_first_iff.mp hsaid
  | .ok true =>
    obtain ⟨listed, last, hlast, rfl⟩ := Work.runs_github_bind_iff.mp hrest
    cases listed with
    | error e =>
      have hbefore : Log.Unfailing [⟨.github identity (.hasTags repo.fullName), Except.ok true⟩] :=
        @Log.Unfailing.cons_ok [] identity (.hasTags repo.fullName) true .nil
      refine .refused [_] hbefore rfl (.inr ⟨.error e, rfl⟩) (saidGone_second_iff.trans ?_) hlast
      simp [WorkItem.losesBy]
    | ok tags =>
      obtain ⟨hmarks, hlistings⟩ := pass_runs hlast
      have hall : Log.listings (⟨.github identity (.hasTags repo.fullName), Except.ok true⟩ ::
          ⟨.github identity (.allTags repo.fullName), Except.ok tags⟩ :: last) =
          [⟨.github identity (.hasTags repo.fullName), Except.ok true⟩,
            ⟨.github identity (.allTags repo.fullName), Except.ok tags⟩] :=
        congrArg (fun more => _ :: _ :: more) hlistings
      refine .spared (fun _ => .inr ⟨.ok tags, hall⟩) hmarks fun hsaid => ?_
      rw [hall] at hsaid
      obtain ⟨_, ⟨⟩, -⟩ := saidGone_second_iff.mp hsaid

end VersionSync

/-! Any item -/

namespace WorkItem
variable {item : WorkItem} {options : SyncOptions} {identity : Identity}
  {found : item.lookup.Result} {log rest : Log} {t t' : Tables}

theorem rowIn_of_lookup (h : fallible t item.lookup (.ok found) t') :
    found = item.rowIn t ∧ t' = t := by
  cases item with
  | stars userId =>
    obtain ⟨hfound, hsame⟩ := reliable_findUser_iff.mp (fallible_ok_iff.mp h)
    exact ⟨Except.ok.inj hfound, hsame⟩
  | versions repoId =>
    obtain ⟨hfound, hsame⟩ := reliable_findRepo_iff.mp (fallible_ok_iff.mp h)
    exact ⟨Except.ok.inj hfound, hsame⟩

theorem Judged.unpursued (hmarks : log.marks = [])
    (hprobed : log.Stored → item.removal found = some none →
      ∃ answer : Except ApiError Nat, ⟨.github identity .remainingCalls, answer⟩ ∈ log)
    (hspared : ¬ item.Pursued identity found log) : item.Judged options identity found log where
  toMarksOwn := .of_eq_nil hmarks
  probed := hprobed
  asked _ hpursued := absurd hpursued hspared
  marked := iff_of_false (not_not_intro hmarks) fun h => hspared h.1

theorem Verdict.judged {calls : Nat} (h : item.Verdict options identity found rest)
    (hpresent : item.removal found = some none) (hcalls : 0 < calls) :
    item.Judged options identity found (⟨.store item.lookup, Except.ok found⟩ ::
      ⟨.github identity .remainingCalls, Except.ok calls⟩ :: rest) := by
  have hmarks : Log.marks (⟨.store item.lookup, Except.ok found⟩ ::
      ⟨.github identity .remainingCalls, Except.ok calls⟩ :: rest) = rest.marks := by
    rw [Log.marks_cons Task.Query.mark?_lookup, Log.marks_cons rfl]
  have hlistings : Log.listings (⟨.store item.lookup, Except.ok found⟩ ::
      ⟨.github identity .remainingCalls, Except.ok calls⟩ :: rest) = rest.listings := by
    rw [Log.listings_cons rfl, Log.listings_cons rfl]
  refine ⟨⟨?_, fun identity' call e hmem hcall => ?_⟩, fun _ _ => ⟨.ok calls, by simp⟩,
    fun hstored _ => ?_, ?_⟩
  · rw [hmarks]
    exact h.marks.imp_right fun ⟨now, hclock, hmark⟩ => ⟨now, by simp [hclock], hmark⟩
  · rw [hmarks]
    refine h.blameless identity' call e ?_ hcall
    rcases List.mem_cons.mp hmem with heq | hmem
    · cases heq
    rcases List.mem_cons.mp hmem with heq | hmem
    · cases heq
    · exact hmem
  · rw [hlistings]
    exact h.asked fun call e hmem => hstored call e (by simp [hmem])
  · rw [hmarks, hlistings, h.marked]
    exact (and_iff_right ⟨hpresent, calls, hcalls, by simp⟩).symm

end WorkItem

namespace Engine
variable {engine : Engine} {item : WorkItem} {identity : Identity} {found : item.lookup.Result}
  {log : Log} {t t' : Tables} {result : Except Fault Outcome}

theorem pursue_verdict (hrow : found = item.rowIn t) (hpresent : item.removal found = some none)
    (hrun : (engine.pursue identity item found).Runs fallible.conduct t log result t') :
    item.Verdict engine.options identity found log := by
  cases item with
  | stars userId =>
    match found with
    | none => cases hpresent
    | some user =>
      obtain rfl : user.id = userId := Tables.user?_id hrow.symm
      exact StarSync.reconcile_verdict hrun
  | versions repoId =>
    match found with
    | none => cases hpresent
    | some repo =>
      obtain rfl : repo.id = repoId := Tables.repo?_id hrow.symm
      exact VersionSync.reconcile_verdict hrun

theorem attend_of_absent (h : item.removal found ≠ some none) :
    ∃ reason, engine.attend identity item found = .done (.aborted reason) := by
  unfold attend
  split
  · exact ⟨_, rfl⟩
  · exact ⟨_, rfl⟩
  · exact absurd ‹_› h

theorem sync_runs
    (hrun : (engine.sync identity item).Runs fallible.conduct t log result t') :
    (∃ e : StoreError, log = [⟨.store item.lookup, Except.error e⟩]) ∨
    (item.removal (item.rowIn t) ≠ some none ∧
      log = [⟨.store item.lookup, Except.ok (item.rowIn t)⟩]) ∨
    (∃ answer : Except ApiError Nat, (∀ calls, answer = .ok calls → calls = 0) ∧
      log = [⟨.store item.lookup, Except.ok (item.rowIn t)⟩,
        ⟨.github identity .remainingCalls, answer⟩]) ∨
    ∃ (calls : Nat) (rest : Log), item.removal (item.rowIn t) = some none ∧ 0 < calls ∧
      (engine.pursue identity item (item.rowIn t)).Runs fallible.conduct t rest result t' ∧
      log = ⟨.store item.lookup, Except.ok (item.rowIn t)⟩ ::
        ⟨.github identity .remainingCalls, Except.ok calls⟩ :: rest := by
  rw [sync_eq] at hrun
  obtain ⟨e, -, -, rfl⟩ | ⟨found, mid, log₁, hlookup, h₁, rfl⟩ :=
    Work.runs_store_bind_iff.mp hrun
  · exact .inl ⟨e, rfl⟩
  obtain ⟨rfl, hsame⟩ := WorkItem.rowIn_of_lookup hlookup
  rw [hsame] at h₁
  refine .inr ?_
  by_cases hpresent : item.removal (item.rowIn t) = some none
  · unfold attend at h₁
    rw [hpresent] at h₁
    obtain ⟨answer, rest, hrest, rfl⟩ := Work.runs_probe_bind_iff.mp h₁
    split_ifs at hrest with husable
    · cases answer with
      | error e => cases husable
      | ok calls =>
        have hcalls : 0 < calls := by simpa [Work.quotaOf, Quota.isUsable] using husable
        exact .inr (.inr ⟨calls, rest, hpresent, hcalls, hrest, rfl⟩)
    · obtain ⟨rfl, -⟩ := runs_done_iff.mp hrest
      refine .inr (.inl ⟨answer, ?_, rfl⟩)
      rintro calls rfl
      simpa [Work.quotaOf, Quota.isUsable] using husable
  · obtain ⟨reason, hdone⟩ : ∃ reason, engine.attend identity item (item.rowIn t) =
        .done (.aborted reason) := attend_of_absent hpresent
    rw [hdone] at h₁
    obtain ⟨rfl, -⟩ := runs_done_iff.mp h₁
    exact .inl ⟨hpresent, rfl⟩

theorem sync_judged
    (hrun : (engine.sync identity item).Runs fallible.conduct t log result t') :
    item.Judged engine.options identity (item.rowIn t) log := by
  have hlookup (answer : Except StoreError item.lookup.Result) (rest : Log) :
      Log.marks (⟨.store item.lookup, answer⟩ :: rest) = rest.marks :=
    Log.marks_cons Task.Query.mark?_lookup
  obtain ⟨e, rfl⟩ | ⟨habsent, rfl⟩ | ⟨answer, hnone, rfl⟩ |
    ⟨calls, rest, hpresent, hcalls, hrest, rfl⟩ := sync_runs hrun
  · refine .unpursued (hlookup _ []) (fun hstored => absurd List.mem_cons_self (hstored _ e)) ?_
    rintro ⟨-, calls, -, hmem⟩
    cases List.mem_singleton.mp hmem
  · exact .unpursued (hlookup _ []) (fun _ h => absurd h habsent) fun h => habsent h.present
  · refine .unpursued (hlookup _ [_]) (fun _ _ => ⟨answer, by simp⟩) ?_
    rintro ⟨-, calls, hcalls, hmem⟩
    rcases List.mem_cons.mp hmem with heq | hmem
    · cases heq
    · cases List.mem_singleton.mp hmem
      exact absurd (hnone calls rfl) (Nat.ne_of_gt hcalls)
  · exact (pursue_verdict rfl hpresent hrest).judged hpresent hcalls

end Engine

/-! The interface by page number -/

def Log.ServedOverRest (server : Server) (budget : Nat) (log : Log) : Prop :=
  ∀ (identity : Identity) (call : ApiCall) (answer : Except ApiError call.Result),
    ⟨.github identity call, answer⟩ ∈ log.listings → server.call .rest budget call = .ok answer

/-- A server replies that a repository has gone: when it is asked for one of its tags, or, if there
is one, when it is asked for all. -/
def GitHub.Server.LosesRepo (server : Server) (budget : Nat) (fullName : String) : Prop :=
  server.LosesOfRepo fullName ["tags"] "?per_page=1&page=1" ∨
    server.call .rest budget (.hasTags fullName) = .ok (.ok true) ∧
      server.LosesOfRepo fullName ["git", "refs", "tags"] ""

namespace VersionSync
variable {options : SyncOptions} {identity : Identity} {repoId : Int} {repo : Repo} {log : Log}
  {server : Server} {budget : Nat}

theorem saidGone_rest_iff (hserved : log.ServedOverRest server budget)
    (hasked : (WorkItem.versions repoId).Asked options identity log.listings (some repo)) :
    (WorkItem.versions repoId).SaidGone options identity log.listings (some repo) ↔
      server.LosesRepo budget repo.fullName := by
  unfold Log.ServedOverRest at hserved
  unfold GitHub.Server.LosesRepo
  obtain ⟨tagged, hnone, hlistings⟩ | ⟨listed, hlistings⟩ := hasked
  · rw [hlistings] at hserved ⊢
    have htagged := hserved identity (.hasTags repo.fullName) tagged List.mem_cons_self
    rw [saidGone_first_iff, GitHub.Server.getOfRepo_gone_iff htagged, htagged]
    refine (or_iff_left ?_).symm
    rintro ⟨hsome, -⟩
    exact hnone (Except.ok.inj hsome)
  · rw [hlistings] at hserved ⊢
    have htagged := hserved identity (.hasTags repo.fullName) (.ok true) List.mem_cons_self
    have hlisted := hserved identity (.allTags repo.fullName) listed (by simp)
    rw [saidGone_second_iff, GitHub.Server.getOfRepo_gone_iff hlisted, htagged]
    rw [and_iff_right rfl]
    refine (or_iff_right fun hgone => ?_).symm
    obtain ⟨e, ⟨⟩, -⟩ := (GitHub.Server.getOfRepo_gone_iff htagged).mpr hgone

end VersionSync

variable {σ : Type}

/-- Handling an item sets no mark while an identity is chosen, so that all depends on the work for
the identity. -/
theorem handle_judged (w : Surroundings fallible σ) (engine : Engine) (item : WorkItem) (s : σ) :
    ∃ chosen work : Log, w.transcript (engine.handle item) s = chosen ++ work ∧
      chosen.marks = [] ∧ (work = [] ∨ ∃ identity,
        item.Judged engine.options identity (item.rowIn (w.tables s)) work) := by
  obtain ⟨hchoosing, htables⟩ := Selector.find_runs (w.runs engine.selector.find s)
  obtain ⟨hlog, -⟩ | ⟨client, s', hfind, -, hlog⟩ := w.handle_cases engine item s
  · exact ⟨_, [], by rw [hlog, List.append_nil], hchoosing.marks, .inl rfl⟩
  · refine ⟨_, _, hlog, hchoosing.marks, .inr ⟨engine.selector.caller client, ?_⟩⟩
    rw [htables, hfind]
    exact Engine.sync_judged (w.runs _ s')

/-- A subject is marked exactly if it is there and not removed, calls are left, and GitHub says of
it that it has gone: a user by the first page of stars, which is not found, and a repository by one
of the two listings of its tags, which is not found or blocked. Nothing else that fails sets a mark.
Over the interface by page number a repository has gone for the statuses 404 and 451, and for 403
with a message that speaks of blocked access, but of no rate limit and no abuse. -/
theorem sync_marks_what_has_gone (w : Surroundings fallible σ) (engine : Engine)
    (identity : Identity) (s : σ) :
    (∀ item : WorkItem, item.Judged engine.options identity (item.rowIn (w.tables s))
      (w.transcript (engine.sync identity item) s)) ∧
    ∀ (repoId : Int) (server : Server) (budget : Nat),
      let log := w.transcript (engine.sync identity (.versions repoId)) s
      log.Stored → log.ServedOverRest server budget → (log.marks ≠ [] ↔
        (WorkItem.versions repoId).Pursued identity ((w.tables s).repo? repoId) log ∧
          ∃ repo, (w.tables s).repo? repoId = some repo ∧
            server.LosesRepo budget repo.fullName) := by
  have hjudged (item : WorkItem) : item.Judged engine.options identity (item.rowIn (w.tables s))
      (w.transcript (engine.sync identity item) s) := Engine.sync_judged (w.runs _ s)
  refine ⟨hjudged, ?_⟩
  intro repoId server budget log hstored hserved
  have hversions : (WorkItem.versions repoId).Judged engine.options identity
      ((w.tables s).repo? repoId) log := hjudged (.versions repoId)
  rw [hversions.marked]
  refine and_congr_right fun hpursued => ?_
  have hasked := hversions.asked hstored hpursued
  cases hrow : (w.tables s).repo? repoId with
  | none =>
    rw [hrow] at hasked
    cases hasked
  | some repo =>
    rw [hrow] at hasked
    rw [VersionSync.saidGone_rest_iff hserved hasked]
    simp

namespace Engine.Sample

def blocking : Server := fun request =>
  if request.target = "/repos/o/r/tags?per_page=1&page=1" then
    .received 200 (.json (.arr [.obj [("name", .str "v1")]]))
  else .received 403 (.json (.obj [("message", .str "Repository Access Blocked")]))

def told (server : Server) : GitHub.Facts
  | .remainingCalls => .ok 9
  | call =>
    match server.call .rest 1 call with
    | .ok answer => answer
    | .error _ => .error (.transport "")

end Engine.Sample

open Engine.Sample StarSync.Sample in
/-- A listing of stars to which access is blocked is no reason to mark a user. -/
example : ((world fun
    | .remainingCalls => .ok 9
    | _ => .error (.blocked "")).transcript (engine.sync .app (.stars 1)) tables).marks = [] := rfl

open Engine.Sample StarSync.Sample in
theorem sync_marks_what_has_gone_blocked :
    let log := (world (told blocking)).transcript (engine.sync .app (.versions 1)) tables
    log.Stored ∧ log.ServedOverRest blocking 1 ∧ log.marks = [.markRepoRemoved 1 time] ∧
      (WorkItem.versions 1).Pursued .app (tables.repo? 1) log ∧
        ∃ repo, tables.repo? 1 = some repo ∧ blocking.LosesRepo 1 repo.fullName := by
  intro log
  have hlistings : log.listings = [⟨.github .app (.hasTags "o/r"), Except.ok true⟩,
      ⟨.github .app (.allTags "o/r"),
        Except.error (.blocked "/repos/o/r/git/refs/tags")⟩] := rfl
  have hserved : log.ServedOverRest blocking 1 := by
    intro identity call answer hmem
    rw [hlistings] at hmem
    rcases List.mem_cons.mp hmem with heq | hmem
    · cases heq
      rfl
    · cases List.mem_singleton.mp hmem
      rfl
  have hresult : ((world (told blocking)).run (engine.sync .app (.versions 1)) tables).1 =
      .ok (.aborted .removed) := rfl
  have hstored : log.Stored := by
    have hrun := (world (told blocking)).runs (engine.sync .app (.versions 1)) tables
    rw [hresult] at hrun
    exact syncVersions_strict.stored hrun
  have hmarks : log.marks = [.markRepoRemoved 1 time] := rfl
  have hmarked : log.marks ≠ [] := by
    rw [hmarks]
    exact List.cons_ne_nil _ _
  obtain ⟨-, hrest⟩ := sync_marks_what_has_gone (world (told blocking)) engine .app tables
  obtain ⟨hpursued, hlost⟩ := (hrest 1 blocking 1 hstored hserved).mp hmarked
  exact ⟨hstored, hserved, hmarks, hpursued, hlost⟩

end ReleaseTracker
