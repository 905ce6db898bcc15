import ReleaseTracker.Proofs.Work.Contract

/-! The synchronisation of versions keeps to the contract of its item. Once the tags are listed it
asks the store only about versions of its repository, and GitHub for no listing (`Concerns`). The
versions that wait to be stored are the repository's own at any time. -/

namespace ReleaseTracker
open GitHub (ApiCall Tag)
open Program

namespace VersionSync
variable {may : (query : Task.Query) → Task.Answer query → Prop} {chosen log : Log}
  {options : SyncOptions} {identity : Identity} {repo : Repo} {repoId : Int} {staging : Staging}

def Concerns (repoId : Int) : Task.Query → Prop
  | .store (.findExistingVersion id _) => id = repoId
  | .store (.createVersions rows) => ∀ row ∈ rows, row.repoId = repoId
  | .store _ => False
  | .github _ call => call.isListing = false
  | _ => True

theorem Concerns.owns {query : Task.Query} (h : Concerns repoId query) (ids : List Int) :
    (WorkItem.versions repoId).Owns ids query := by
  cases query with
  | store call =>
    cases call with
    | findExistingVersion => trivial
    | createVersions rows =>
      intro row hrow
      rw [h row hrow]
    | _ => cases h
  | _ => trivial

def Staging.OwnedBy (repo : Repo) (staging : Staging) : Prop :=
  ∀ row ∈ staging.pending, row.repoId = repo.id

theorem Staging.ownedBy_empty : Staging.empty.OwnedBy repo := List.forall_mem_nil _

theorem flush_concerns (h : staging.OwnedBy repo) :
    Program.Ensures may (fun _ => Concerns repo.id) (fun _ => Yields (Staging.OwnedBy repo)) log
      staging.flush := by
  unfold Staging.flush
  split
  · exact h
  · exact Work.ensures_store_bind_iff.mpr ⟨h, fun _ _ => nofun, fun _ _ => List.forall_mem_nil _⟩

theorem flushIfFull_concerns {flushEvery : Nat} (h : staging.OwnedBy repo) :
    Program.Ensures may (fun _ => Concerns repo.id) (fun _ => Yields (Staging.OwnedBy repo)) log
      (staging.flushIfFull flushEvery) := by
  unfold Staging.flushIfFull
  split_ifs
  · exact flush_concerns h
  · exact h

theorem keep_concerns {answer : Except StopReason (Option Version)} (h : staging.OwnedBy repo)
    (hanswer : ∀ row, answer = .ok (some row) → row.repoId = repo.id) :
    Program.Ensures may (fun _ => Concerns repo.id)
      (fun _ => Yields fun kept => Staging.OwnedBy repo kept.1) log
      (keep options staging answer) := by
  match answer with
  | .error reason => exact h
  | .ok none => exact h
  | .ok (some row) =>
    have hstaged : (staging.stage row).OwnedBy repo :=
      List.forall_mem_append.mpr ⟨h, List.forall_mem_singleton.mpr (hanswer row rfl)⟩
    exact (flushIfFull_concerns hstaged).bind (fun log flushed hflushed => hflushed) fun _ _ => id

theorem takeTag_concerns {tag : Tag} (h : staging.OwnedBy repo) :
    Program.Ensures may (fun _ => Concerns repo.id)
      (fun _ => Yields fun taken => Staging.OwnedBy repo taken.1) log
      (takeTag options identity repo staging tag) := by
  rw [takeTag_eq]
  refine Work.ensures_store_bind_iff.mpr ⟨rfl, fun _ _ => nofun, fun stored _ => ?_⟩
  split_ifs
  · exact h
  refine (examine_inquiry.ensures (fun _ _ _ => id) fun _ => trivial).bind
    (fun log answer hend => keep_concerns h ?_) fun _ _ hend => ?_
  · rintro row rfl
    obtain ⟨_, hok, ⟨found, rfl, hfound⟩ | ⟨_, rfl⟩⟩ := hend
    · exact (hfound row (Except.ok.inj (Except.ok.inj hok)).symm).1
    · cases hok
  · obtain ⟨_, hok, -⟩ := hend
    cases hok

theorem takeTags_concerns {tags : List Tag} (h : staging.OwnedBy repo) :
    Program.Ensures may (fun _ => Concerns repo.id)
      (fun _ => Yields fun taken => Staging.OwnedBy repo taken.1) log
      (takeTags options identity repo staging tags) := by
  induction tags generalizing staging log with
  | nil => exact h
  | cons tag rest ih =>
    refine (takeTag_concerns h).bind (fun log taken htaken => ?_) fun _ _ => id
    obtain ⟨staging, reason?⟩ := taken
    cases reason? with
    | none => exact ih htaken
    | some reason => exact htaken

theorem finish_concerns {stop : Option StopReason} (h : staging.OwnedBy repo) :
    Program.Ensures may (fun _ => Concerns repo.id)
      (fun _ => Yields fun outcome => outcome.isAborted = false) log
      (finish repo staging stop) := by
  have houtcome (count : Nat) : (outcome count stop).isAborted = false := by
    cases stop <;> rfl
  refine (flush_concerns h).bind (fun log staging _ => ?_) fun _ _ => id
  unfold announceNews
  split_ifs
  · exact Work.ensures_announce_bind_iff.mpr ⟨trivial, fun _ _ => houtcome _⟩
  · exact houtcome _

theorem pass_concerns {tags : List Tag} : Program.Ensures may (fun _ => Concerns repo.id)
    (fun _ => Yields fun outcome => outcome.isAborted = false) log
    ((takeTags options identity repo .empty tags).bind fun taken =>
      finish repo taken.1 taken.2) :=
  (takeTags_concerns Staging.ownedBy_empty).bind
    (fun _ _ htaken => finish_concerns htaken) fun _ _ => id

theorem refused_ensures {e : ApiError} (hentered : (WorkItem.versions repo.id).Entered chosen log)
    (hharmless : log.Harmless) :
    Program.Ensures may ((WorkItem.versions repo.id).MayAsk chosen)
      ((WorkItem.versions repo.id).MayEnd chosen) log (refused repo e) := by
  unfold refused
  split_ifs
  · exact WorkItem.mark_ensures hentered hharmless
  · rintro reason ⟨⟩
    exact .refused hentered hharmless

theorem reconcile_ensures (hentered : (WorkItem.versions repo.id).Entered chosen log)
    (hharmless : log.Harmless) :
    Program.Ensures may ((WorkItem.versions repo.id).MayAsk chosen)
      ((WorkItem.versions repo.id).MayEnd chosen) log (reconcile options identity repo) := by
  refine Work.ensures_github_bind_iff.mpr ⟨.work hentered trivial, fun tagged _ => ?_⟩
  have hentered' := hentered.append [⟨.github identity (.hasTags repo.fullName), tagged⟩]
  have hharmless' :
      Log.Harmless (log ++ [⟨.github identity (.hasTags repo.fullName), tagged⟩]) :=
    hharmless.snoc rfl
  match tagged with
  | .error e => exact refused_ensures hentered' hharmless'
  | .ok false => exact WorkItem.mayEnd_ok rfl
  | .ok true =>
    refine Work.ensures_github_bind_iff.mpr ⟨.work hentered' trivial, fun listed _ => ?_⟩
    cases listed with
    | error e => exact refused_ensures (hentered'.append _) (hharmless'.snoc rfl)
    | ok tags =>
      refine (hentered'.append _).ensures (pass_concerns.mono (fun _ _ => id)
        (fun _ _ hquery => hquery.owns _) fun _ _ => id) fun more result hresult => ?_
      cases result with
      | error e => exact WorkItem.mayEnd_error e
      | ok outcome => exact WorkItem.mayEnd_ok hresult

/-! What a run goes by -/

inductive Asks (repoId : Int) : Log → Task.Query → Prop
  | look : Asks repoId [] (.store (.findRepo repoId))
  | pass {repo : Repo} {rest : Log} {query : Task.Query} (concerned : Concerns repoId query) :
      Asks repoId (⟨.store (.findRepo repoId), Except.ok (some repo)⟩ :: rest) query
  | github {repo : Repo} {rest : Log} (identity : Identity) (call : ApiCall) :
      Asks repoId (⟨.store (.findRepo repoId), Except.ok (some repo)⟩ :: rest)
        (.github identity call)
  | mark {repo : Repo} {rest : Log} (now : Instant) :
      Asks repoId (⟨.store (.findRepo repoId), Except.ok (some repo)⟩ :: rest)
        (.store (.markRepoRemoved repoId now))

theorem refused_asks {e : ApiError} {rest : Log} {row : Repo} :
    Program.Ensures may (Asks repo.id) (fun _ _ => True)
      (⟨.store (.findRepo repo.id), Except.ok (some row)⟩ :: rest) (refused repo e) := by
  unfold refused
  split_ifs
  · refine Work.ensures_clock_bind_iff.mpr ⟨.pass trivial, fun now _ => ?_⟩
    exact Work.ensures_store_bind_iff.mpr ⟨.mark now, fun _ _ => trivial, fun _ _ => trivial⟩
  · trivial

theorem reconcile_asks {rest : Log} {row : Repo} :
    Program.Ensures may (Asks repo.id) (fun _ _ => True)
      (⟨.store (.findRepo repo.id), Except.ok (some row)⟩ :: rest)
      (reconcile options identity repo) := by
  refine Work.ensures_github_bind_iff.mpr ⟨.github .., fun tagged _ => ?_⟩
  match tagged with
  | .error e => exact refused_asks
  | .ok false => trivial
  | .ok true =>
    refine Work.ensures_github_bind_iff.mpr ⟨.github .., fun listed _ => ?_⟩
    cases listed with
    | error e => exact refused_asks
    | ok tags => exact pass_concerns.under (fun _ _ => .pass) fun _ _ _ => trivial

end VersionSync

theorem syncVersions_asks (options : SyncOptions) (identity : Identity) (repoId : Int) :
    Program.Ensures Task.Proper (VersionSync.Asks repoId) (fun _ _ => True) []
      (syncVersions options identity repoId) := by
  refine Work.ensures_store_bind_iff.mpr ⟨.look, fun _ _ => trivial, fun found hproper => ?_⟩
  cases found with
  | none => trivial
  | some repo =>
    obtain rfl : repo.id = repoId := hproper repo rfl
    dsimp only
    split_ifs
    · trivial
    refine Work.ensures_probe_bind_iff.mpr ⟨.github .., fun answer _ => ?_⟩
    split_ifs
    · exact VersionSync.reconcile_asks
    · trivial

end ReleaseTracker
