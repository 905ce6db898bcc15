import ReleaseTracker.Proofs.Work.Contract

/-! The synchronisation of stars keeps to the contract of its item. What it does about a page, and
what settles the listing, only asks the store, and only what the item owns (`Concerns`), so these
are taken by themselves. -/

namespace ReleaseTracker
open GitHub (ApiCall Page StarredRepo)
open Program

namespace StarSync
variable {may : (query : Task.Query) → Task.Answer query → Prop} {chosen log : Log}
  {options : SyncOptions} {identity : Identity} {user : User} {userId : Int}
  {previous listed ids : List Int}

def Concerns (userId : Int) (ids : List Int) (query : Task.Query) : Prop :=
  (∃ call, query = .store call) ∧ (WorkItem.stars userId).Owns ids query

theorem isDue_concerns {now : Instant} {known : Option Repo} {asks : Log → Task.Query → Prop} :
    Program.Ensures may asks (fun _ => Yields fun _ => True) log (isDue options now known) := by
  obtain ⟨hdue, -⟩ | ⟨due, hdue, -⟩ := isDue_cases options now known
  · rw [hdue]
    exact nofun
  · rw [hdue]
    trivial

theorem refresh_concerns {now : Instant} {item : StarredRepo} (hid : item.id ∈ ids) :
    Program.Ensures may (fun _ => Concerns userId ids) (fun _ => Yields fun _ => True) log
      (refresh options now item) := by
  refine Work.ensures_store_bind_iff.mpr ⟨⟨⟨_, rfl⟩, trivial⟩, fun _ _ => nofun,
    fun known _ => ?_⟩
  refine isDue_concerns.bind (fun log due _ => ?_) fun _ _ => id
  split_ifs
  · refine Work.ensures_store_bind_iff.mpr ⟨?_, fun _ _ => nofun, fun _ _ => trivial⟩
    exact ⟨⟨_, rfl⟩, userId, item.id, rfl, hid, rfl⟩
  · trivial

theorem follow_concerns {repoId : Int} :
    Program.Ensures may (fun _ => Concerns userId ids) (fun _ => Yields fun _ => True) log
      (follow userId previous listed repoId) := by
  unfold follow
  split_ifs
  · trivial
  · trivial
  · exact Work.ensures_store_bind_iff.mpr ⟨⟨⟨_, rfl⟩, rfl⟩, fun _ _ => nofun, fun _ _ => trivial⟩

theorem takeItems_concerns {now : Instant} {items : List StarredRepo}
    (hids : ∀ item ∈ items, item.id ∈ ids) :
    Program.Ensures may (fun _ => Concerns userId ids) (fun _ => Yields fun _ => True) log
      (takeItems options userId previous now listed items) := by
  induction items generalizing listed log with
  | nil => trivial
  | cons item rest ih =>
    obtain ⟨hitem, hrest⟩ := List.forall_mem_cons.mp hids
    refine (refresh_concerns hitem).bind (fun log _ _ => ?_) fun _ _ => id
    exact follow_concerns.bind (fun log listed _ => ih hrest) fun _ _ => id

theorem settle_concerns : Program.Ensures may (fun _ => Concerns userId ids)
    (fun _ => Yields fun outcome => outcome.isAborted = false) log
      (settle userId previous listed) := by
  unfold settle
  split
  · exact rfl
  · exact Work.ensures_store_bind_iff.mpr ⟨⟨⟨_, rfl⟩, rfl⟩, fun _ _ => nofun, fun _ _ => rfl⟩

theorem walk_ensures {budget : Nat} {page : Page StarredRepo}
    (hentered : (WorkItem.stars user.id).Entered chosen log)
    (hpage : page.items.map (·.id) ⊆ listedIds log.pages) :
    Program.Ensures may ((WorkItem.stars user.id).MayAsk chosen)
      (fun log _ => (WorkItem.stars user.id).Entered chosen log) log
      (walk options identity user previous budget listed page) := by
  induction budget generalizing listed log page with
  | zero => exact hentered
  | succ budget ih =>
    refine Work.ensures_clock_bind_iff.mpr ⟨.work hentered trivial, fun now _ => ?_⟩
    have hitems : ∀ item ∈ page.items,
        item.id ∈ listedIds (Log.pages (log ++ [⟨.clock, now⟩])) := by
      intro item hitem
      rw [Log.pages_append, Log.pages_clock, Log.pages_nil, List.append_nil]
      exact hpage (List.mem_map_of_mem hitem)
    have htake : Program.Ensures may ((WorkItem.stars user.id).MayAsk chosen)
        (fun log _ => (WorkItem.stars user.id).Entered chosen log) (log ++ [⟨.clock, now⟩])
        (takeItems options user.id previous now listed page.items) :=
      (hentered.append _).ensures ((takeItems_concerns hitems).mono (fun _ _ => id)
        (fun _ _ => And.right) fun _ _ => id) fun more _ _ => (hentered.append _).append more
    refine htake.bind (fun log₁ listed hentered₁ => ?_) fun _ _ h => h
    split_ifs
    · exact hentered₁
    refine Work.ensures_github_bind_iff.mpr ⟨.work hentered₁ trivial, fun next _ => ?_⟩
    cases next with
    | error e => exact hentered₁.append _
    | ok page =>
      -- with the answer, the page that it brought is on the listing
      refine ih (hentered₁.append _) ?_
      rw [Log.pages_append, Log.pages_received, listedIds_append]
      refine List.subset_append_of_subset_right _ ?_
      simp

theorem refused_ensures {e : ApiError} (hentered : (WorkItem.stars user.id).Entered chosen log)
    (hharmless : log.Harmless) :
    Program.Ensures may ((WorkItem.stars user.id).MayAsk chosen)
      ((WorkItem.stars user.id).MayEnd chosen) log (refused user e) := by
  unfold refused
  split_ifs
  · exact WorkItem.mark_ensures hentered hharmless
  · rintro reason ⟨⟩
    exact .refused hentered hharmless

theorem reconcile_ensures (hentered : (WorkItem.stars user.id).Entered chosen log)
    (hharmless : log.Harmless) :
    Program.Ensures may ((WorkItem.stars user.id).MayAsk chosen)
      ((WorkItem.stars user.id).MayEnd chosen) log (reconcile options identity user) := by
  refine Work.ensures_store_bind_iff.mpr ⟨.work hentered trivial, fun e _ => ?_,
    fun previous _ => ?_⟩
  · exact WorkItem.mayEnd_error _
  have hentered' := hentered.append [⟨.store (.findStars user.id), Except.ok previous⟩]
  have hharmless' : Log.Harmless (log ++ [⟨.store (.findStars user.id), Except.ok previous⟩]) :=
    hharmless.snoc rfl
  refine Work.ensures_github_bind_iff.mpr ⟨.work hentered' trivial, fun first _ => ?_⟩
  cases first with
  | error e => exact refused_ensures (hentered'.append _) (hharmless'.snoc rfl)
  | ok page =>
    refine (walk_ensures (hentered'.append _) ?_).bind (fun log ending hwalked => ?_) ?_
    · rw [Log.pages_append, Log.pages_received, listedIds_append]
      refine List.subset_append_of_subset_right _ ?_
      simp
    · obtain ⟨listed, whole⟩ := ending
      dsimp only
      split_ifs
      · refine hwalked.ensures (settle_concerns.mono (fun _ _ => id) (fun _ _ => And.right)
          fun _ _ => id) fun more result hresult => ?_
        cases result with
        | error e => exact WorkItem.mayEnd_error e
        | ok outcome => exact WorkItem.mayEnd_ok hresult
      · exact WorkItem.mayEnd_ok rfl
    · exact fun _ e _ => WorkItem.mayEnd_error e

end StarSync
end ReleaseTracker
