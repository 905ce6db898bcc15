import Mathlib.Data.List.Nodup
import ReleaseTracker.Proofs.Store.Rule

/-! The keys of the tables. A call fails exactly if it would break one of them, and tables whose
keys hold keep them through every other call. -/

namespace ReleaseTracker
namespace Tables
variable {t t' : Tables}

structure Keyed (t : Tables) : Prop where
  userIds : (t.users.map (·.id)).Nodup
  usernames : (t.users.map (·.username)).Nodup
  repoIds : (t.repos.map (·.id)).Nodup
  stars : (t.stars.map fun star => (star.userId, star.repoId)).Nodup
  starEnds : ∀ star ∈ t.stars, star.userId ∈ t.users.map (·.id) ∧ star.repoId ∈ t.repos.map (·.id)
  versions : (t.versions.map fun row => (row.repoId, row.tagName)).Nodup
  versionRepos : ∀ row ∈ t.versions, row.repoId ∈ t.repos.map (·.id)

/-- Would a call keep the keys? A repository must have an id, a new star both its ends, and new
versions must fit in. -/
def Admits (t : Tables) : StoreCall → Prop
  | .upsertRepo draft => draft.id ≠ .unset
  | .createStar userId repoId =>
    t.hasStar userId repoId = true ∨ (t.user? userId).isSome ∧ (t.repo? repoId).isSome
  | .createVersions rows => t.Fits rows
  | _ => True

theorem perform_ok_iff {now : Instant} {call : StoreCall} :
    (∃ value, (t.perform now call).1 = .ok value) ↔ t.Admits call := by
  have hkept {α : Type} (a : α) (after : Option Tables) :
      (∃ value, (t.kept a after).1 = .ok value) ↔ after.isSome := by
    cases after <;> simp [kept]
  cases call with
  | upsertRepo draft =>
    cases hid : draft.id <;> simp [perform, Admits, hid, repo?_upsertRepo]
  | createStar userId repoId =>
    show (∃ value, (t.kept () (t.ensureStar? _)).1 = .ok value) ↔ _
    rw [hkept, ensureStar?_isSome_iff]
    rfl
  | createVersions rows =>
    show (∃ value, (t.kept rows.length (t.insertVersions? rows)).1 = .ok value) ↔ t.Fits rows
    rw [hkept, Option.isSome_iff_exists]
    simp only [insertVersions?_eq_some_iff, exists_and_left, exists_eq, and_true]
  | _ => simp [perform, Admits]

/-! Keeping the keys -/

theorem isSome_user?_iff {id : Int} : (t.user? id).isSome ↔ id ∈ t.users.map (·.id) := by
  simp [user?]

theorem isSome_repo?_iff {id : Int} : (t.repo? id).isSome ↔ id ∈ t.repos.map (·.id) := by
  simp [repo?]

theorem map_id_upsertInto (id : Int) (draft : RepoDraft) (repos : List Repo) :
    (upsertInto id draft repos).map (·.id) =
      if id ∈ repos.map (·.id) then repos.map (·.id) else repos.map (·.id) ++ [id] := by
  induction repos with
  | nil => rfl
  | cons r rest ih =>
    unfold upsertInto
    by_cases hr : r.id = id
    · simp [hr, refreshed]
    · rw [if_neg hr, List.map_cons, ih, List.map_cons]
      by_cases hrest : id ∈ rest.map (·.id)
      · rw [if_pos hrest, if_pos (List.mem_cons_of_mem _ hrest)]
      · have hnone : id ∉ r.id :: rest.map (·.id) := by simp [Ne.symm hr, hrest]
        rw [if_neg hrest, if_neg hnone, List.cons_append]

/-- Keys are about the ids and the usernames only, whatever else of a user or a repository is
changed. -/
theorem Keyed.of_ids (h : t.Keyed) (hids : t'.users.map (·.id) = t.users.map (·.id))
    (hnames : t'.users.map (·.username) = t.users.map (·.username))
    (hrepos : (t'.repos.map (·.id)).Nodup) (hmore : t.repos.map (·.id) ⊆ t'.repos.map (·.id))
    (hstars : t'.stars = t.stars) (hversions : t'.versions = t.versions) : t'.Keyed where
  userIds := hids ▸ h.userIds
  usernames := hnames ▸ h.usernames
  repoIds := hrepos
  stars := hstars ▸ h.stars
  starEnds star hstar := by
    obtain ⟨huser, hrepo⟩ := h.starEnds star (hstars ▸ hstar)
    exact ⟨hids ▸ huser, hmore hrepo⟩
  versions := hversions ▸ h.versions
  versionRepos row hrow := hmore (h.versionRepos row (hversions ▸ hrow))

theorem Keyed.upsertRepo (h : t.Keyed) (id : Int) (draft : RepoDraft) :
    (t.upsertRepo id draft).Keyed := by
  have hids : (t.upsertRepo id draft).repos.map (·.id) = if id ∈ t.repos.map (·.id) then
      t.repos.map (·.id) else t.repos.map (·.id) ++ [id] := map_id_upsertInto id draft t.repos
  refine h.of_ids rfl rfl ?_ ?_ rfl rfl
  · rw [hids]
    split_ifs with hold
    · exact h.repoIds
    · rw [← List.concat_eq_append]
      exact h.repoIds.concat hold
  · rw [hids]
    split_ifs
    · exact List.Subset.refl _
    · exact List.subset_append_left _ _

theorem Keyed.addStar (h : t.Keyed) {star : Star}
    (hnew : t.hasStar star.userId star.repoId = false) (huser : (t.user? star.userId).isSome)
    (hrepo : (t.repo? star.repoId).isSome) :
    ({ t with stars := t.stars ++ [star] } : Tables).Keyed where
  userIds := h.userIds
  usernames := h.usernames
  repoIds := h.repoIds
  stars := by
    rw [List.map_append, List.map_singleton, ← List.concat_eq_append]
    apply h.stars.concat
    intro hmem
    obtain ⟨other, hother, hkey⟩ := List.mem_map.mp hmem
    obtain ⟨huser, hrepo⟩ := Prod.mk.inj hkey
    simp [hasStar] at hnew
    exact hnew other hother huser hrepo
  starEnds := by
    rw [List.forall_mem_append, List.forall_mem_singleton]
    exact ⟨h.starEnds, isSome_user?_iff.mp huser, isSome_repo?_iff.mp hrepo⟩
  versions := h.versions
  versionRepos := h.versionRepos

theorem Keyed.removeStars (h : t.Keyed) (p : Star → Bool) :
    ({ t with stars := t.stars.filter p } : Tables).Keyed where
  userIds := h.userIds
  usernames := h.usernames
  repoIds := h.repoIds
  stars := (List.filter_sublist.map _).nodup h.stars
  starEnds star hstar := h.starEnds star (List.mem_filter.mp hstar).1
  versions := h.versions
  versionRepos := h.versionRepos

theorem Fits.nodup {rows : List Version} (h : t.Fits rows)
    (hkeys : (t.versions.map fun row => (row.repoId, row.tagName)).Nodup) :
    ((t.versions ++ rows).map fun row => (row.repoId, row.tagName)).Nodup := by
  rw [List.map_append]
  refine List.nodup_append.mpr ⟨hkeys, List.pairwise_map.mpr h.apart, ?_⟩
  intro key hkey _ hkey' heq
  subst heq
  obtain ⟨old, hold, rfl⟩ := List.mem_map.mp hkey
  obtain ⟨row, hrow, hsame⟩ := List.mem_map.mp hkey'
  obtain ⟨hrepo, htag⟩ := Prod.mk.inj hsame
  have hstored : t.hasVersion row.repoId row.tagName = true :=
    hasVersion_iff.mpr ⟨old, hold, hrepo.symm, htag.symm⟩
  rw [h.fresh row hrow] at hstored
  cases hstored

theorem Keyed.addVersions (h : t.Keyed) {rows : List Version} (hfits : t.Fits rows) :
    ({ t with versions := t.versions ++ rows } : Tables).Keyed where
  userIds := h.userIds
  usernames := h.usernames
  repoIds := h.repoIds
  stars := h.stars
  starEnds := h.starEnds
  versions := hfits.nodup h.versions
  versionRepos := by
    rw [List.forall_mem_append]
    exact ⟨h.versionRepos, fun row hrow => isSome_repo?_iff.mp (hfits.known row hrow)⟩

/-! Calls -/

theorem map_markUserRemoved {α : Type} {f : User → α} (id : Int) (time : ZonedTime)
    (hf : ∀ user, f { user with removedAt := some time } = f user) :
    (t.markUserRemoved id time).users.map f = t.users.map f := by
  unfold markUserRemoved
  rw [List.map_map]
  refine List.map_congr_left fun user _ => ?_
  dsimp only [Function.comp]
  split_ifs
  · exact hf user
  · rfl

theorem map_id_markRepoRemoved (id : Int) (time : ZonedTime) :
    (t.markRepoRemoved id time).repos.map (·.id) = t.repos.map (·.id) := by
  unfold markRepoRemoved
  rw [List.map_map]
  refine List.map_congr_left fun repo _ => ?_
  dsimp only [Function.comp]
  split_ifs <;> rfl

theorem Keyed.perform (h : t.Keyed) {now : Instant} {call : StoreCall} (hadmits : t.Admits call) :
    (t.perform now call).2.Keyed := by
  cases call with
  | markUserRemoved id time =>
    refine h.of_ids ?_ ?_ h.repoIds (List.Subset.refl _) rfl rfl
    · exact map_markUserRemoved id _ fun _ => rfl
    · exact map_markUserRemoved id _ fun _ => rfl
  | markRepoRemoved id time =>
    have hids := map_id_markRepoRemoved (t := t) id (.utc time)
    exact h.of_ids rfl rfl (hids ▸ h.repoIds) (hids ▸ List.Subset.refl _) rfl rfl
  | upsertRepo draft =>
    cases hid : draft.id with
    | unset => exact absurd hid hadmits
    | set id =>
      rw [perform_upsertRepo t now hid]
      exact h.upsertRepo id draft
  | createStar userId repoId =>
    show (t.kept () (t.ensureStar? ⟨userId, repoId, .utc now⟩)).2.Keyed
    have hsome : (t.ensureStar? ⟨userId, repoId, .utc now⟩).isSome :=
      ensureStar?_isSome_iff.mpr hadmits
    obtain ⟨t', hafter⟩ := Option.isSome_iff_exists.mp hsome
    rw [hafter]
    rcases ensureStar?_eq_some hafter with ⟨-, rfl⟩ | ⟨hnew, rfl⟩
    · exact h
    · obtain ⟨huser, hrepo⟩ := hadmits.resolve_left (by simp [hnew])
      exact h.addStar hnew huser hrepo
  | deleteStars repoIds userId => exact h.removeStars _
  | createVersions rows =>
    show (t.kept rows.length (t.insertVersions? rows)).2.Keyed
    rw [insertVersions?_eq_some_iff.mpr ⟨hadmits, rfl⟩]
    exact h.addVersions hadmits
  | _ => exact h

/-! What stays -/

structure Retains (t t' : Tables) : Prop where
  users : ∀ id, (t.user? id).isSome → (t'.user? id).isSome
  repos : ∀ id, (t.repo? id).isSome → (t'.repo? id).isSome

theorem Retains.refl (t : Tables) : t.Retains t := ⟨fun _ h => h, fun _ h => h⟩

theorem Retains.trans {t'' : Tables} (h : t.Retains t') (h' : t'.Retains t'') : t.Retains t'' :=
  ⟨fun id hid => h'.users id (h.users id hid), fun id hid => h'.repos id (h.repos id hid)⟩

theorem Retains.of_ids (husers : t.users.map (·.id) ⊆ t'.users.map (·.id))
    (hrepos : t.repos.map (·.id) ⊆ t'.repos.map (·.id)) : t.Retains t' where
  users _ hid := isSome_user?_iff.mpr (husers (isSome_user?_iff.mp hid))
  repos _ hid := isSome_repo?_iff.mpr (hrepos (isSome_repo?_iff.mp hid))

theorem retains_kept {α : Type} {a : α} {after : Option Tables}
    (h : ∀ t', after = some t' → t.Retains t') : t.Retains (t.kept a after).2 := by
  cases after with
  | none => exact .refl t
  | some t' => exact h t' rfl

theorem retains_perform (now : Instant) (call : StoreCall) : t.Retains (t.perform now call).2 := by
  have hsame {t' : Tables} (husers : t'.users = t.users) (hrepos : t'.repos = t.repos) :
      t.Retains t' := .of_ids (husers ▸ List.Subset.refl _) (hrepos ▸ List.Subset.refl _)
  cases call with
  | markUserRemoved id time =>
    have hids : (t.markUserRemoved id (.utc time)).users.map (·.id) = t.users.map (·.id) :=
      map_markUserRemoved id _ fun _ => rfl
    exact .of_ids (hids ▸ List.Subset.refl _) (List.Subset.refl _)
  | markRepoRemoved id time =>
    have hids := map_id_markRepoRemoved (t := t) id (.utc time)
    exact .of_ids (List.Subset.refl _) (hids ▸ List.Subset.refl _)
  | upsertRepo draft =>
    cases hid : draft.id with
    | unset =>
      simp only [perform, hid]
      exact .refl t
    | set id =>
      rw [perform_upsertRepo t now hid]
      exact ⟨fun _ h => h, fun _ => isSome_repo?_upsertRepo⟩
  | createStar userId repoId =>
    refine retains_kept fun t' hafter => ?_
    rcases ensureStar?_eq_some hafter with ⟨-, rfl⟩ | ⟨-, rfl⟩ <;> exact hsame rfl rfl
  | createVersions rows =>
    refine retains_kept fun t' hafter => ?_
    obtain ⟨-, rfl⟩ := insertVersions?_eq_some_iff.mp hafter
    exact hsame rfl rfl
  | _ => exact hsame rfl rfl

end Tables

theorem StoreRule.retains_of_reliable {t t' : Tables} {call : StoreCall}
    {answer : Except StoreError call.Result} (h : reliable t call answer t') : t.Retains t' := by
  obtain ⟨now, hperform⟩ := h
  have hafter := t.retains_perform now call
  rwa [hperform] at hafter

/-- Each call is performed, and would break no key. -/
def StoreRule.admitting : StoreRule := fun t call answer t' =>
  reliable t call answer t' ∧ t.Admits call

theorem StoreRule.admitting_of_ok {t t' : Tables} {call : StoreCall} {value : call.Result}
    (h : reliable t call (.ok value) t') : admitting t call (.ok value) t' := by
  refine ⟨h, ?_⟩
  obtain ⟨now, hperform⟩ := h
  exact Tables.perform_ok_iff.mp ⟨value, congrArg Prod.fst hperform⟩

theorem StoreRule.admitting_ok {t t' : Tables} {call : StoreCall}
    {answer : Except StoreError call.Result} (h : admitting t call answer t') :
    ∃ value, answer = .ok value := by
  obtain ⟨⟨now, hperform⟩, hadmits⟩ := h
  obtain ⟨value, hvalue⟩ := Tables.perform_ok_iff.mpr hadmits
  exact ⟨value, (congrArg Prod.fst hperform).symm.trans hvalue⟩

theorem StoreRule.keyed_of_admitting {t t' : Tables} {call : StoreCall}
    {answer : Except StoreError call.Result} (h : admitting t call answer t') (hkeyed : t.Keyed) :
    t'.Keyed := by
  obtain ⟨⟨now, hperform⟩, hadmits⟩ := h
  have hafter : (t.perform now call).2.Keyed := hkeyed.perform hadmits
  rwa [hperform] at hafter

end ReleaseTracker
