import ReleaseTracker.Proofs.Lists.Carried
import ReleaseTracker.Proofs.Store.Keys
import ReleaseTracker.Proofs.Sync.StarReconciliation
import ReleaseTracker.Proofs.Work.Conformance

/-! The frame of the work on an item: the rows that it may change, whatever GitHub answers and
wherever the store fails. A call that keeps to the contract has one of a few effects on the tables
(`Writes`), or marks the subject. Whatever these do is what a whole run may do. -/

namespace ReleaseTracker
open GitHub (Page StarredRepo)
open Program StoreRule

/-! Effects of single calls -/

inductive WorkItem.Writes (item : WorkItem) (ids : List Int) (t : Tables) : Tables → Prop
  | nothing : Writes item ids t t
  | refreshed {userId id : Int} {draft : RepoDraft} (own : item = .stars userId)
      (listed : id ∈ ids) : Writes item ids t (t.upsertRepo id draft)
  | starred {star : Star} (own : item = .stars star.userId) :
      Writes item ids t { t with stars := t.stars ++ [star] }
  | unstarred {repoIds : List Int} {userId : Int} (own : item = .stars userId) :
      Writes item ids t (t.deleteStars repoIds userId)
  | stored {rows : List Version} (own : ∀ row ∈ rows, item = .versions row.repoId) :
      Writes item ids t { t with versions := t.versions ++ rows }

section Effects
variable {item : WorkItem} {ids : List Int} {t t' : Tables} {query : Task.Query}
  {answer : Task.Answer query} {log : Log}

theorem StoreRule.eq_of_not_hasEffect (hquery : query.hasEffect = false)
    (h : fallible.conduct t query answer t') : t' = t := by
  cases query with
  | store call => exact eq_of_not_isWrite hquery h
  | _ => exact h

theorem WorkItem.Owns.writes (howns : item.Owns ids query)
    (h : fallible.conduct t query answer t') : item.Writes ids t t' := by
  cases query with
  | store call =>
    obtain rfl | ⟨value, hok⟩ := performed_of_fallible h
    · exact .nothing
    cases call with
    | upsertRepo draft =>
      obtain ⟨userId, id, rfl, hid, hdraft⟩ := howns
      obtain ⟨-, rfl⟩ := (reliable_upsertRepo_iff hdraft).mp hok
      exact .refreshed rfl hid
    | createStar userId repoId =>
      obtain rfl := howns
      obtain ⟨now, ⟨-, hstar⟩ | ⟨hfailed, -⟩⟩ := reliable_createStar_iff.mp hok
      · rcases Tables.ensureStar?_eq_some hstar with ⟨-, rfl⟩ | ⟨-, rfl⟩
        · exact .nothing
        · exact .starred rfl
      · cases hfailed
    | deleteStars repoIds userId =>
      obtain rfl := howns
      obtain ⟨-, rfl⟩ := reliable_deleteStars_iff.mp hok
      exact .unstarred rfl
    | createVersions rows =>
      have hfits : t.Fits rows := (admitting_of_ok hok).2
      obtain ⟨-, rfl⟩ := (reliable_createVersions_iff
        (Tables.insertVersions?_eq_some_iff.mpr ⟨hfits, rfl⟩)).mp hok
      exact .stored howns
    | markUserRemoved | markRepoRemoved => cases howns
    | _ =>
      rw [eq_of_not_isWrite rfl (fallible_ok_iff.mpr hok)]
      exact .nothing
  | _ =>
    obtain rfl : t' = t := h
    exact .nothing

theorem WorkItem.Writes.mono {ids' : List Int} (h : item.Writes ids t t') (hids : ids ⊆ ids') :
    item.Writes ids' t t' := by
  cases h with
  | nothing => exact .nothing
  | refreshed hown hlisted => exact .refreshed hown (hids hlisted)
  | starred hown => exact .starred hown
  | unstarred hown => exact .unstarred hown
  | stored hown => exact .stored hown

theorem WorkItem.Permits.writes (hasks : item.Permits log query)
    (h : fallible.conduct t query answer t') : item.Writes (listedIds log.pages) t t' ∨
      ∃ time chosen, t' = item.markedIn t time ∧ item.Entered chosen log ∧ log.Harmless := by
  obtain hquery | howns | ⟨time, chosen, rfl, hentered, hharmless⟩ := hasks.cases
  · rw [eq_of_not_hasEffect hquery h]
    exact .inl .nothing
  · exact .inl (howns.writes h)
  · obtain rfl | ⟨value, hok⟩ := performed_of_fallible h
    · exact .inl .nothing
    · exact .inr ⟨time, chosen, eq_of_marked (fallible_ok_iff.mpr hok), hentered, hharmless⟩

theorem Engine.handle_relates {engine : Engine} {related : Tables → Tables → Prop}
    {result : Except Fault Outcome}
    (hrun : (engine.handle item).Runs fallible.conduct t log result t')
    (hrefl : ∀ t, related t t)
    (htrans : ∀ t mid t', related t mid → related mid t' → related t t')
    (hwrites : ∀ t t', item.Writes (listedIds log.pages) t t' → related t t')
    (hmarked : ∀ t time, related t (item.markedIn t time)) : related t t' := by
  obtain ⟨-, hasked⟩ := handle_ensures.runs hrun fun _ _ _ _ => proper_of_fallible
  refine hrun.trace.relates hrefl htrans fun event hevent s s' hconduct => ?_
  obtain ⟨before, after, rfl⟩ := List.append_of_mem hevent
  obtain hwrote | ⟨time, _, rfl, -⟩ := (hasked before event after rfl).writes hconduct
  · refine hwrites s s' (hwrote.mono ?_)
    rw [List.nil_append, Log.pages_append, listedIds_append]
    exact List.subset_append_left _ _
  · exact hmarked s time

end Effects

/-! Rows that may change -/

def User.Marked (id : Int) (user user' : User) : Prop :=
  user' = user ∨ user.id = id ∧ ∃ time, user' = { user with removedAt := some time }

def Repo.Marked (id : Int) (repo repo' : Repo) : Prop :=
  repo' = repo ∨ repo.id = id ∧ ∃ time, repo' = { repo with removedAt := some time }

def Repo.Refreshed (ids : List Int) (repo repo' : Repo) : Prop :=
  repo' = repo ∨ repo.id ∈ ids ∧ repo'.id = repo.id ∧ repo'.removedAt = repo.removedAt

theorem User.Marked.trans {id : Int} {user user' user'' : User} (h : Marked id user user')
    (h' : Marked id user' user'') : Marked id user user'' := by
  obtain rfl | ⟨hid, time, rfl⟩ := h
  · exact h'
  obtain rfl | ⟨-, time', rfl⟩ := h'
  · exact .inr ⟨hid, time, rfl⟩
  · exact .inr ⟨hid, time', rfl⟩

theorem Repo.Marked.trans {id : Int} {repo repo' repo'' : Repo} (h : Marked id repo repo')
    (h' : Marked id repo' repo'') : Marked id repo repo'' := by
  obtain rfl | ⟨hid, time, rfl⟩ := h
  · exact h'
  obtain rfl | ⟨-, time', rfl⟩ := h'
  · exact .inr ⟨hid, time, rfl⟩
  · exact .inr ⟨hid, time', rfl⟩

theorem Repo.Refreshed.id_eq {ids : List Int} {repo repo' : Repo} (h : Refreshed ids repo repo') :
    repo'.id = repo.id := by
  obtain rfl | ⟨-, hid, -⟩ := h
  · rfl
  · exact hid

theorem Repo.Refreshed.trans {ids : List Int} {repo repo' repo'' : Repo}
    (h : Refreshed ids repo repo') (h' : Refreshed ids repo' repo'') :
    Refreshed ids repo repo'' := by
  obtain rfl | ⟨hlisted, hid, hremoved⟩ := h
  · exact h'
  obtain rfl | ⟨-, hid', hremoved'⟩ := h'
  · exact .inr ⟨hlisted, hid, hremoved⟩
  · exact .inr ⟨hlisted, hid'.trans hid, hremoved'.trans hremoved⟩

theorem Tables.carried_upsertInto {ids : List Int} {id : Int} (hid : id ∈ ids) (draft : RepoDraft)
    (repos : List Repo) : Carried (Repo.Refreshed ids)
      (fun repo => repo.id = id ∧ id ∉ repos.map (·.id)) repos (upsertInto id draft repos) := by
  induction repos with
  | nil => exact ⟨[], [refreshed id draft none], rfl, .nil, by simp [refreshed]⟩
  | cons repo rest ih =>
    unfold upsertInto
    split_ifs with hold
    · subst hold
      exact (Carried.refl (fun _ => .inl rfl) rest).cons (.inr ⟨hid, rfl, rfl⟩)
    · refine (ih.imp fun new hnew => ⟨hnew.1, ?_⟩).cons (.inl rfl)
      simp only [List.map_cons, List.mem_cons, not_or]
      exact ⟨Ne.symm hold, hnew.2⟩

/-! Stars -/

namespace StarSync
variable {userId : Int} {ids : List Int} {t t' t'' : Tables}

/-- Of the users only the one with the id may have been removed. Of the repositories only those with
some ids may have been refreshed, or stored if they were not there. -/
structure Touched (userId : Int) (ids : List Int) (t t' : Tables) : Prop where
  users : List.Forall₂ (User.Marked userId) t.users t'.users
  repos : Carried (Repo.Refreshed ids) (fun repo => repo.id ∈ ids ∧ t.repo? repo.id = none)
    t.repos t'.repos
  versions : t'.versions = t.versions

theorem Touched.refl (t : Tables) : Touched userId ids t t where
  users := List.forall₂_same.mpr fun _ _ => .inl rfl
  repos := Carried.refl (fun _ => .inl rfl) t.repos
  versions := rfl

theorem Touched.isSome_repo? (h : Touched userId ids t t') {id : Int}
    (hid : (t.repo? id).isSome) : (t'.repo? id).isSome := by
  obtain ⟨kept, new, hrepos, hkept, -⟩ := h.repos
  have hids : kept.map (·.id) = t.repos.map (·.id) :=
    map_eq_of_forall₂ hkept fun _ _ => Repo.Refreshed.id_eq
  rw [Tables.isSome_repo?_iff] at hid ⊢
  rw [hrepos, List.map_append, hids]
  exact List.mem_append_left _ hid

theorem Touched.trans (h : Touched userId ids t t') (h' : Touched userId ids t' t'') :
    Touched userId ids t t'' where
  users := forall₂_trans h.users h'.users fun _ _ _ => User.Marked.trans
  repos := by
    refine h.repos.trans (h'.repos.imp fun repo hrepo => ⟨hrepo.1, ?_⟩)
      (fun _ _ _ => Repo.Refreshed.trans) fun repo repo' hsame hrepo => ?_
    · -- what is not there in between was not there at first, since nothing is ever deleted
      have hnone : ¬ (t.repo? repo.id).isSome := fun hsome => by
        simpa [hrepo.2] using h.isSome_repo? hsome
      simpa using hnone
    · rwa [hsame.id_eq]
  versions := h'.versions.trans h.versions

theorem Touched.of_writes (h : (WorkItem.stars userId).Writes ids t t') :
    Touched userId ids t t' := by
  have hsame : Touched userId ids t t := .refl t
  cases h with
  | nothing => exact hsame
  | @refreshed _ id draft _ hlisted =>
    refine ⟨hsame.users, (Tables.carried_upsertInto hlisted draft t.repos).imp ?_, rfl⟩
    rintro repo ⟨rfl, hnew⟩
    rw [← Tables.isSome_repo?_iff] at hnew
    exact ⟨hlisted, by simpa using hnew⟩
  | starred => exact ⟨hsame.users, hsame.repos, rfl⟩
  | unstarred => exact ⟨hsame.users, hsame.repos, rfl⟩
  | @stored rows hown =>
    have hnone : rows = [] := by
      refine List.eq_nil_iff_forall_not_mem.mpr fun row hrow => ?_
      cases hown row hrow
    subst hnone
    rw [List.append_nil]
    exact hsame

theorem Touched.of_marked (t : Tables) (time : Instant) :
    Touched userId ids t ((WorkItem.stars userId).markedIn t time) where
  users := by
    refine forall₂_map_self (fun user => ?_) t.users
    split_ifs with hid
    · exact .inr ⟨hid, _, rfl⟩
    · exact .inl rfl
  repos := Carried.refl (fun _ => .inl rfl) t.repos
  versions := rfl

/-- The stars of others are the same rows. So are those of the user's own that are left, and new
ones are to repositories that were listed, and not starred before. -/
def Restarred (userId : Int) (ids : List Int) (t t' : Tables) : Prop :=
  ∃ (keep : Star → Bool) (new : List Star), t'.stars = t.stars.filter keep ++ new ∧
    (∀ star, star.userId ≠ userId → keep star = true) ∧
      ∀ star ∈ new, star.userId = userId ∧ star.repoId ∈ ids ∧ star.repoId ∉ t.starsOf userId

theorem Restarred.of_eq (h : t'.stars = t.stars) : Restarred userId ids t t' :=
  ⟨fun _ => true, [], by simp [h], fun _ _ => rfl, List.forall_mem_nil _⟩

theorem Restarred.mono {ids' : List Int} (h : Restarred userId ids t t') (hids : ids ⊆ ids') :
    Restarred userId ids' t t' := by
  obtain ⟨keep, new, hnew, hothers, hown⟩ := h
  refine ⟨keep, new, hnew, hothers, fun star hstar => ?_⟩
  obtain ⟨huser, hlisted, hfresh⟩ := hown star hstar
  exact ⟨huser, hids hlisted, hfresh⟩

theorem Followed.restarred
    (h : Followed userId {id | id ∈ ids ∧ id ∉ t.starsOf userId} t t') :
    Restarred userId ids t t' := by
  obtain ⟨new, hnew, hown⟩ := h.stars
  exact ⟨fun _ => true, new, by simp [hnew], fun _ _ => rfl, hown⟩

theorem Restarred.deleteStars (h : Restarred userId ids t t') (gone : List Int) :
    Restarred userId ids t (t'.deleteStars gone userId) := by
  obtain ⟨keep, new, hnew, hothers, hown⟩ := h
  refine ⟨fun star => keep star && !Tables.isAmong userId gone star,
    new.filter (!Tables.isAmong userId gone ·), ?_, fun star hother => ?_, fun star hstar => ?_⟩
  · show t'.stars.filter _ = _
    rw [hnew, List.filter_append, List.filter_filter]
    simp only [Bool.and_comm]
  · simp [hothers star hother, Tables.isAmong, hother]
  · exact hown star (List.mem_of_mem_filter hstar)

theorem syncStars_restarred {options : SyncOptions} {identity : Identity} {log : Log}
    {result : Except Fault Outcome}
    (hrun : (syncStars options identity userId).Runs fallible.conduct t log result t') :
    Restarred userId (listedIds log.pages) t t' := by
  obtain ⟨-, hstars, -⟩ | ⟨user, first, rest, rfl, -, hpages, -, hwalk⟩ :=
    syncStars_runs le_rfl hrun
  · exact .of_eq hstars
  rw [hpages]
  cases walkAndSettle_runs hwalk with
  | failed e hfollowed => exact hfollowed.restarred
  | interrupted hwalked _ => exact hwalked.followed.restarred
  | settled hwalked => exact hwalked.followed.restarred.deleteStars _

end StarSync

/-! Versions -/

namespace VersionSync
variable {repoId : Int} {ids : List Int} {t t' t'' : Tables}

/-- Of the repositories only the one with the id may have been removed, and only it may have new
versions. -/
structure Touched (repoId : Int) (t t' : Tables) : Prop where
  users : t'.users = t.users
  repos : List.Forall₂ (Repo.Marked repoId) t.repos t'.repos
  stars : t'.stars = t.stars
  versions : ∃ new, t'.versions = t.versions ++ new ∧ ∀ row ∈ new, row.repoId = repoId

theorem Touched.refl (t : Tables) : Touched repoId t t where
  users := rfl
  repos := List.forall₂_same.mpr fun _ _ => .inl rfl
  stars := rfl
  versions := ⟨[], (List.append_nil _).symm, List.forall_mem_nil _⟩

theorem Touched.trans (h : Touched repoId t t') (h' : Touched repoId t' t'') :
    Touched repoId t t'' where
  users := h'.users.trans h.users
  repos := forall₂_trans h.repos h'.repos fun _ _ _ => Repo.Marked.trans
  stars := h'.stars.trans h.stars
  versions := by
    obtain ⟨new, hnew, hown⟩ := h.versions
    obtain ⟨new', hnew', hown'⟩ := h'.versions
    exact ⟨new ++ new', by rw [hnew', hnew, List.append_assoc],
      List.forall_mem_append.mpr ⟨hown, hown'⟩⟩

theorem Touched.of_writes (h : (WorkItem.versions repoId).Writes ids t t') :
    Touched repoId t t' := by
  cases h with
  | nothing => exact .refl t
  | refreshed hown | starred hown | unstarred hown => cases hown
  | stored hown =>
    refine ⟨rfl, (Touched.refl t).repos, rfl, _, rfl, fun row hrow => ?_⟩
    exact (WorkItem.versions.inj (hown row hrow)).symm

theorem Touched.of_marked (t : Tables) (time : Instant) :
    Touched repoId t ((WorkItem.versions repoId).markedIn t time) where
  users := rfl
  repos := by
    refine forall₂_map_self (fun repo => ?_) t.repos
    split_ifs with hid
    · exact .inr ⟨hid, _, rfl⟩
    · exact .inl rfl
  stars := rfl
  versions := (Touched.refl t).versions

end VersionSync

/-! Any item -/

section Handling
variable {engine : Engine} {item : WorkItem} {t t' : Tables} {log : Log}

theorem Log.Harmless.eq_of_trace (h : log.Harmless) (htrace : Trace fallible.conduct t log t') :
    t = t' :=
  htrace.relates (fun _ => rfl) (fun _ _ _ => Eq.trans) fun event hevent _ _ hconduct =>
    (eq_of_not_hasEffect (h event hevent) hconduct).symm

theorem Selector.find_runs {selector : Selector} {result : Except Fault (Option SelectedClient)}
    (hrun : selector.find.Runs fallible.conduct t log result t') : log.Choosing ∧ t = t' := by
  obtain ⟨⟨hchoosing, -⟩, -⟩ := (find_ensures (List.forall_mem_nil _)).runs hrun
    fun _ _ _ _ => proper_of_fallible
  exact ⟨hchoosing, hchoosing.harmless.eq_of_trace hrun.trace⟩

theorem Engine.handle_restarred {userId : Int} {result : Except Fault Outcome}
    (hrun : (engine.handle (.stars userId)).Runs fallible.conduct t log result t') :
    StarSync.Restarred userId (listedIds log.pages) t t' := by
  obtain ⟨e, hfind, -⟩ | ⟨client?, mid, first, rest, hfind, hrest, rfl⟩ := runs_bind_iff.mp hrun
  · obtain ⟨-, rfl⟩ := Selector.find_runs hfind
    exact .of_eq rfl
  obtain ⟨-, rfl⟩ := Selector.find_runs hfind
  cases client? with
  | none =>
    obtain ⟨-, -, rfl⟩ := runs_done_iff.mp hrest
    exact .of_eq rfl
  | some client =>
    have hrestarred := StarSync.syncStars_restarred hrest
    rw [Log.pages_append, listedIds_append]
    exact hrestarred.mono (List.subset_append_right _ _)

end Handling

variable {σ : Type}

/-- The work on an item changes only rows of its own: for a user's stars, the mark of the user,
stars of the user's, and what is known of the listed repositories, but not whether one that was
there has been removed; for a repository's versions, its mark, and versions added to it. -/
theorem handle_touches_own_rows (w : Surroundings fallible σ) (engine : Engine) (s : σ) :
    (∀ userId,
      StarSync.Touched userId
        (listedIds (w.transcript (engine.handle (.stars userId)) s).pages) (w.tables s)
        (w.tables (w.run (engine.handle (.stars userId)) s).2) ∧
      StarSync.Restarred userId
        (listedIds (w.transcript (engine.handle (.stars userId)) s).pages) (w.tables s)
        (w.tables (w.run (engine.handle (.stars userId)) s).2)) ∧
    ∀ repoId, VersionSync.Touched repoId (w.tables s)
      (w.tables (w.run (engine.handle (.versions repoId)) s).2) := by
  constructor
  · intro userId
    have hrun := w.runs (engine.handle (.stars userId)) s
    refine ⟨?_, Engine.handle_restarred hrun⟩
    exact Engine.handle_relates hrun .refl (fun _ _ _ => .trans) (fun _ _ => .of_writes) .of_marked
  · intro repoId
    have hrun := w.runs (engine.handle (.versions repoId)) s
    exact Engine.handle_relates hrun .refl (fun _ _ _ => .trans) (fun _ _ => .of_writes) .of_marked

end ReleaseTracker
