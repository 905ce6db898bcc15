import ReleaseTracker.Proofs.Store.Keys

/-! Storing a repository under its id. A row that is there is refreshed in its place, and keeps what
only a removal sets. Nothing that refers to the row is touched. -/

namespace ReleaseTracker.Tables
variable {t : Tables} {id : Int} {draft : RepoDraft} {repos : List Repo}

theorem filter_id_eq (h : (repos.map (·.id)).Nodup) (id : Int) :
    repos.filter (·.id = id) = (repos.find? (·.id = id)).toList := by
  induction repos with
  | nil => rfl
  | cons r rest ih =>
    obtain ⟨hnew, hrest⟩ := List.nodup_cons.mp h
    by_cases hr : r.id = id
    · subst hr
      have hnone : rest.filter (·.id = r.id) = [] := by
        refine List.filter_eq_nil_iff.mpr fun other hother hsame => hnew ?_
        exact List.mem_map.mpr ⟨other, hother, of_decide_eq_true hsame⟩
      simp [hnone]
    · simp [hr, ih hrest]

theorem filter_upsertInto_other (id : Int) (draft : RepoDraft) (repos : List Repo) :
    (upsertInto id draft repos).filter (·.id ≠ id) = repos.filter (·.id ≠ id) := by
  induction repos with
  | nil => simp [upsertInto, refreshed]
  | cons r rest ih =>
    unfold upsertInto
    by_cases hr : r.id = id
    · simp [hr, refreshed]
    · rw [if_neg hr, List.filter_cons, List.filter_cons, ih]

theorem filter_upsertRepo_own (h : t.Keyed) (id : Int) (draft : RepoDraft) :
    (t.upsertRepo id draft).repos.filter (·.id = id) = [refreshed id draft (t.repo? id)] := by
  have hrow := repo?_upsertRepo t id id draft
  rw [if_pos rfl, repo?] at hrow
  rw [filter_id_eq (h.upsertRepo id draft).repoIds, hrow]
  rfl

theorem upsertInto_again (id : Int) (draft : RepoDraft) (repos : List Repo) :
    upsertInto id draft (upsertInto id draft repos) = upsertInto id draft repos := by
  induction repos with
  | nil => simp [upsertInto, refreshed]
  | cons r rest ih =>
    rw [upsertInto]
    by_cases hr : r.id = id
    · simp [hr, upsertInto, refreshed]
    · rw [if_neg hr, upsertInto, if_neg hr, ih]

/-! Together with a removal mark -/

def markRow (id : Int) (time : ZonedTime) (r : Repo) : Repo :=
  if r.id = id then { r with removedAt := some time } else r

theorem markRow_id (other : Int) (time : ZonedTime) (r : Repo) :
    (markRow other time r).id = r.id := by
  unfold markRow
  split_ifs <;> rfl

theorem refreshed_markRow (other : Int) (time : ZonedTime) {r : Repo} (hr : r.id = id) :
    refreshed id draft (some (markRow other time r)) =
      markRow other time (refreshed id draft (some r)) := by
  subst hr
  unfold markRow
  by_cases h : r.id = other <;> simp [h, refreshed]

theorem upsertInto_markRow (other : Int) (time : ZonedTime) (hknown : id ∈ repos.map (·.id)) :
    upsertInto id draft (repos.map (markRow other time)) =
      (upsertInto id draft repos).map (markRow other time) := by
  induction repos with
  | nil => cases hknown
  | cons r rest ih =>
    rw [List.map_cons, upsertInto, upsertInto, markRow_id]
    by_cases hr : r.id = id
    · rw [if_pos hr, if_pos hr, List.map_cons, refreshed_markRow other time hr]
    · have hrest : id ∈ rest.map (·.id) := (List.mem_cons.mp hknown).resolve_left (Ne.symm hr)
      rw [if_neg hr, if_neg hr, List.map_cons, ih hrest]

theorem upsertRepo_markRepoRemoved (hknown : (t.repo? id).isSome) (other : Int)
    (time : ZonedTime) : (t.markRepoRemoved other time).upsertRepo id draft =
      (t.upsertRepo id draft).markRepoRemoved other time :=
  congrArg (fun repos => { t with repos })
    (upsertInto_markRow other time (isSome_repo?_iff.mp hknown))

/-! The call -/

/-- The row under an id is the only one, and has what the draft says. Whether it is removed is as it
was, or for a new row as the draft says. All other rows are as they were. -/
structure Upserted (t : Tables) (id : Int) (draft : RepoDraft) (row : Repo) (t' : Tables) :
    Prop where
  only : t'.repos.filter (·.id = id) = [row]
  columns : (row.fullName, row.name, row.description, row.homepage, row.language,
      row.ownerAvatarUrl, row.updatedAt) =
    (draft.fullName, draft.name, draft.description, draft.homepage, draft.language,
      draft.ownerAvatarUrl, draft.updatedAt)
  kept : ∀ old, t.repo? id = some old → row.removedAt = old.removedAt
  given : t.repo? id = none → ∀ removedAt, draft.removedAt = .set removedAt →
    row.removedAt = removedAt
  cleared : t.repo? id = none → draft.removedAt = .unset → row.removedAt = none
  others : t'.repos.filter (·.id ≠ id) = t.repos.filter (·.id ≠ id)
  users : t'.users = t.users
  stars : t'.stars = t.stars
  versions : t'.versions = t.versions

theorem upserted_refreshed (h : t.Keyed) (id : Int) (draft : RepoDraft) :
    Upserted t id draft (refreshed id draft (t.repo? id)) (t.upsertRepo id draft) where
  only := filter_upsertRepo_own h id draft
  columns := rfl
  kept old hold := by rw [hold]; rfl
  given hnone removedAt hset := by simp [refreshed, hnone, hset]
  cleared hnone hunset := by simp [refreshed, hnone, hunset]
  others := filter_upsertInto_other id draft t.repos
  users := rfl
  stars := rfl
  versions := rfl

/-- A repository is stored under its id, or not at all without one. Its row is refreshed and given
back, and nothing else changes. A second time it makes no difference, and for a known repository
neither does whether it is marked before or after. -/
theorem perform_upsertRepo_refreshes (t : Tables) (h : t.Keyed) (draft : RepoDraft)
    (now : Instant) :
    (draft.id = .unset → t.perform now (.upsertRepo draft) =
      (.error (.invalidInput "Missing required field: id"), t)) ∧
    ∀ id, draft.id = .set id → ∃ row t',
      t.perform now (.upsertRepo draft) = (.ok row, t') ∧ Upserted t id draft row t' ∧
      (∀ later, t'.perform later (.upsertRepo draft) = (.ok row, t')) ∧
      ((t.repo? id).isSome → ∀ other time later, ∃ row',
        (t.perform later (.markRepoRemoved other time)).2.perform now (.upsertRepo draft) =
          (.ok row', (t'.perform later (.markRepoRemoved other time)).2)) := by
  refine ⟨fun hunset => by simp [perform, hunset, StoreError.missingId], fun id hid => ?_⟩
  refine ⟨_, _, perform_upsertRepo t now hid, upserted_refreshed h id draft, fun later => ?_,
    fun hknown other time later => ?_⟩
  · have hrow : (t.upsertRepo id draft).repo? id = some (refreshed id draft (t.repo? id)) := by
      rw [repo?_upsertRepo, if_pos rfl]
    have hsame : (t.upsertRepo id draft).upsertRepo id draft = t.upsertRepo id draft :=
      congrArg (fun repos => { t with repos }) (upsertInto_again id draft t.repos)
    rw [perform_upsertRepo _ later hid, hrow, hsame]
    rfl
  · have hmarked : (t.markRepoRemoved other (.utc time)).perform now (.upsertRepo draft) =
        (.ok _, (t.markRepoRemoved other (.utc time)).upsertRepo id draft) :=
      perform_upsertRepo _ now hid
    rw [upsertRepo_markRepoRemoved hknown] at hmarked
    exact ⟨_, hmarked⟩

namespace Sample

def stocked : Tables where
  users := [⟨1, "ann", none, none, "", .utc ⟨0, 0⟩, none⟩]
  repos := [⟨6, "o/s", "s", none, none, none, none, .utc ⟨0, 0⟩, none⟩,
    ⟨7, "o/r", "r", some "old", none, some "C", none, .utc ⟨0, 0⟩, some (.utc ⟨5, 0⟩)⟩]
  stars := [⟨1, 7, .utc ⟨0, 0⟩⟩]
  versions := [⟨7, "v1", "v1", false, "", .utc ⟨0, 0⟩⟩]

def moved : RepoDraft :=
  ⟨.set 7, "o/moved", "moved", none, some "https://r.example", some "C", none, .utc ⟨9, 0⟩,
    .set none⟩

theorem stocked_keyed : stocked.Keyed :=
  ⟨by decide, by decide, by decide, by decide, by decide, by decide, by decide⟩

end Sample

/-- The removal mark of a known repository outlives a draft that would take it away. -/
theorem perform_upsertRepo_refreshes_removed : Sample.stocked.Keyed ∧
    ∃ row t', Sample.stocked.perform ⟨9, 0⟩ (.upsertRepo Sample.moved) = (.ok row, t') ∧
      row = ⟨7, "o/moved", "moved", none, some "https://r.example", some "C", none, .utc ⟨9, 0⟩,
        some (.utc ⟨5, 0⟩)⟩ ∧
      Upserted Sample.stocked 7 Sample.moved row t' ∧ t'.versions = Sample.stocked.versions := by
  refine ⟨Sample.stocked_keyed, ?_⟩
  obtain ⟨row, t', hperform, hupserted, -, -⟩ := (perform_upsertRepo_refreshes Sample.stocked
    Sample.stocked_keyed Sample.moved ⟨9, 0⟩).2 7 rfl
  refine ⟨row, t', hperform, ?_, hupserted, hupserted.versions⟩
  exact (Except.ok.inj (congrArg Prod.fst hperform)).symm.trans (by decide)

end ReleaseTracker.Tables
