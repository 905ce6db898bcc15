import Mathlib.Data.List.Basic
import Mathlib.Tactic.Common
import ReleaseTracker.Store.Call

/-! What each statement does to the rows that a query sees. -/

namespace ReleaseTracker.Tables
variable {t : Tables}

@[simp] theorem mem_insertSorted {α : Type} {le : α → α → Bool} {a b : α} {xs : List α} :
    b ∈ insertSorted le a xs ↔ b = a ∨ b ∈ xs := by
  induction xs with
  | nil => simp [insertSorted]
  | cons x xs ih =>
    by_cases h : le a x = true
    · simp [insertSorted, h]
    · have hafter : insertSorted le a (x :: xs) = x :: insertSorted le a xs := by
        simp [insertSorted, h]
      rw [hafter, List.mem_cons, ih, List.mem_cons, or_left_comm]

@[simp] theorem mem_sortBy {α : Type} {le : α → α → Bool} {a : α} {xs : List α} :
    a ∈ sortBy le xs ↔ a ∈ xs := by
  induction xs with
  | nil => simp [sortBy]
  | cons x xs ih => simp [sortBy, ih]

theorem mem_starsOf {userId repoId : Int} :
    repoId ∈ t.starsOf userId ↔ ∃ star ∈ t.stars, star.userId = userId ∧ star.repoId = repoId := by
  simp [starsOf, sortIds, and_assoc]

theorem hasStar_iff {userId repoId : Int} :
    t.hasStar userId repoId = true ↔ repoId ∈ t.starsOf userId := by
  simp [hasStar, mem_starsOf]

theorem user?_id {id : Int} {user : User} (h : t.user? id = some user) : user.id = id := by
  simpa using List.find?_some h

/-! Repositories -/

theorem repo?_id {id : Int} {repo : Repo} (h : t.repo? id = some repo) : repo.id = id := by
  simpa using List.find?_some h

theorem isSome_repo? {id : Int} {repo : Repo} (h : t.repo? id = some repo) :
    (t.repo? repo.id).isSome := by
  rw [repo?_id h, h]
  rfl

theorem find?_upsertInto (id other : Int) (draft : RepoDraft) (repos : List Repo) :
    (upsertInto id draft repos).find? (·.id = other) =
      if other = id then some (refreshed id draft (repos.find? (·.id = id)))
      else repos.find? (·.id = other) := by
  induction repos with
  | nil =>
    by_cases h : other = id
    · simp [upsertInto, refreshed, h]
    · simp [upsertInto, refreshed, h, Ne.symm h]
  | cons r rest ih =>
    unfold upsertInto
    by_cases hr : r.id = id
    · by_cases h : other = id
      · simp [hr, h, refreshed]
      · have hid : ¬ id = other := fun he => h he.symm
        simp [hr, h, hid, refreshed]
    · rw [if_neg hr, List.find?_cons, ih]
      by_cases h : other = id
      · subst h
        simp [hr]
      · simp only [List.find?_cons, h, if_false]

theorem repo?_upsertRepo (t : Tables) (id other : Int) (draft : RepoDraft) :
    (t.upsertRepo id draft).repo? other =
      if other = id then some (refreshed id draft (t.repo? id)) else t.repo? other :=
  find?_upsertInto id other draft t.repos

theorem isSome_repo?_upsertRepo {id other : Int} {draft : RepoDraft}
    (h : (t.repo? other).isSome) : ((t.upsertRepo id draft).repo? other).isSome := by
  rw [repo?_upsertRepo]
  split
  · rfl
  · exact h

/-! Stars -/

theorem ensureStar?_of_hasStar {star : Star} (h : t.hasStar star.userId star.repoId = true) :
    t.ensureStar? star = some t := by
  simp [ensureStar?, h]

theorem ensureStar?_isSome_iff {star : Star} : (t.ensureStar? star).isSome ↔
    t.hasStar star.userId star.repoId = true ∨
      (t.user? star.userId).isSome ∧ (t.repo? star.repoId).isSome := by
  cases hstar : t.hasStar star.userId star.repoId with
  | true => simp [ensureStar?_of_hasStar hstar]
  | false =>
    unfold ensureStar? insertStar? hasEnds
    cases t.user? star.userId <;> cases t.repo? star.repoId <;> simp [hstar]

theorem ensureStar?_eq_some {star : Star} {t' : Tables} (h : t.ensureStar? star = some t') :
    t.hasStar star.userId star.repoId = true ∧ t' = t ∨
      t.hasStar star.userId star.repoId = false ∧ t' = { t with stars := t.stars ++ [star] } := by
  unfold ensureStar? insertStar? at h
  split_ifs at h with hstar hends
  · exact .inl ⟨hstar, (Option.some.inj h).symm⟩
  · exact .inr ⟨by simpa using hstar, (Option.some.inj h).symm⟩

theorem mem_deleteStars {repoIds : List Int} {userId : Int} {star : Star} :
    star ∈ (t.deleteStars repoIds userId).stars ↔
      star ∈ t.stars ∧ ¬ (star.userId = userId ∧ star.repoId ∈ repoIds) := by
  simp [deleteStars, isAmong, imp_iff_not_or]

theorem deleteStars_nil (t : Tables) (userId : Int) : t.deleteStars [] userId = t := by
  simp [deleteStars, isAmong]

/-! Versions -/

theorem hasVersion_iff {repoId : Int} {tagName : String} :
    t.hasVersion repoId tagName = true ↔
      ∃ v ∈ t.versions, v.repoId = repoId ∧ v.tagName = tagName := by
  simp [hasVersion]

theorem mem_tagsOf_iff {repoId : Int} {tagName : String} :
    tagName ∈ t.tagsOf repoId ↔ t.hasVersion repoId tagName = true := by
  simp [tagsOf, hasVersion_iff, and_assoc]

theorem tagsOf_append {repoId : Int} {rows : List Version}
    (hown : ∀ row ∈ rows, row.repoId = repoId) :
    ({ t with versions := t.versions ++ rows } : Tables).tagsOf repoId =
      t.tagsOf repoId ++ rows.map (·.tagName) := by
  have hall : rows.filter (·.repoId = repoId) = rows := by
    simpa [List.filter_eq_self] using hown
  unfold tagsOf
  rw [List.filter_append, List.map_append, hall]

structure Fits (t : Tables) (rows : List Version) : Prop where
  fresh : ∀ v ∈ rows, t.hasVersion v.repoId v.tagName = false
  known : ∀ v ∈ rows, (t.repo? v.repoId).isSome
  apart : rows.Pairwise fun v v' => (v.repoId, v.tagName) ≠ (v'.repoId, v'.tagName)

theorem insertVersion?_eq_some_iff {v : Version} {t' : Tables} :
    t.insertVersion? v = some t' ↔ (t.hasVersion v.repoId v.tagName = false ∧
      (t.repo? v.repoId).isSome) ∧ t' = { t with versions := t.versions ++ [v] } := by
  unfold insertVersion?
  split_ifs with hbroken
  · refine iff_of_false (by simp) fun ⟨⟨hfresh, hknown⟩, _⟩ => ?_
    simp [hfresh, Option.isSome_iff_ne_none.mp hknown] at hbroken
  · rw [Option.some_inj, eq_comm, iff_and_self]
    rintro -
    simpa [Option.isSome_iff_ne_none] using hbroken

theorem hasVersion_append_iff {rows : List Version} {repoId : Int} {tagName : String} :
    ({ t with versions := t.versions ++ rows } : Tables).hasVersion repoId tagName = true ↔
      t.hasVersion repoId tagName = true ∨
        ∃ row ∈ rows, row.repoId = repoId ∧ row.tagName = tagName := by
  simp only [hasVersion_iff, List.mem_append, or_and_right, exists_or]

theorem fits_cons_iff {v : Version} {rest : List Version} : t.Fits (v :: rest) ↔
    (t.hasVersion v.repoId v.tagName = false ∧ (t.repo? v.repoId).isSome) ∧
      ({ t with versions := t.versions ++ [v] } : Tables).Fits rest := by
  have hafter (v' : Version) : ({ t with versions := t.versions ++ [v] } : Tables).hasVersion
      v'.repoId v'.tagName = false ↔ t.hasVersion v'.repoId v'.tagName = false ∧
        (v.repoId, v.tagName) ≠ (v'.repoId, v'.tagName) := by
    simp [← Bool.not_eq_true, hasVersion_append_iff]
  constructor
  · rintro ⟨hfresh, hknown, hapart⟩
    obtain ⟨hfirst, hrest⟩ := List.pairwise_cons.mp hapart
    refine ⟨⟨hfresh v List.mem_cons_self, hknown v List.mem_cons_self⟩, fun v' hv' => ?_,
      fun v' hv' => hknown v' (List.mem_cons_of_mem v hv'), hrest⟩
    exact (hafter v').mpr ⟨hfresh v' (List.mem_cons_of_mem v hv'), hfirst v' hv'⟩
  · rintro ⟨⟨hv, hrepo⟩, hfresh, hknown, hapart⟩
    have hlater (v' : Version) (hv' : v' ∈ rest) := (hafter v').mp (hfresh v' hv')
    exact ⟨List.forall_mem_cons.mpr ⟨hv, fun v' hv' => (hlater v' hv').1⟩,
      List.forall_mem_cons.mpr ⟨hrepo, hknown⟩,
      List.pairwise_cons.mpr ⟨fun v' hv' => (hlater v' hv').2, hapart⟩⟩

theorem fits_nil (t : Tables) : t.Fits [] := ⟨by simp, by simp, .nil⟩

theorem fits_append_iff {first rest : List Version} : t.Fits (first ++ rest) ↔
    t.Fits first ∧ ({ t with versions := t.versions ++ first } : Tables).Fits rest := by
  induction first generalizing t with
  | nil => simp [fits_nil]
  | cons v first ih =>
    simp only [List.cons_append, fits_cons_iff, ih, and_assoc, List.append_assoc, List.nil_append]

theorem insertVersions?_eq_some_iff {rows : List Version} {t' : Tables} :
    t.insertVersions? rows = some t' ↔
      t.Fits rows ∧ t' = { t with versions := t.versions ++ rows } := by
  induction rows generalizing t with
  | nil =>
    rw [insertVersions?, and_iff_right (fits_nil t), List.append_nil, Option.some_inj, eq_comm]
  | cons v rest ih =>
    rw [insertVersions?, Option.bind_eq_some_iff, fits_cons_iff]
    constructor
    · rintro ⟨mid, hfirst, hrest⟩
      obtain ⟨hv, rfl⟩ := insertVersion?_eq_some_iff.mp hfirst
      obtain ⟨hfits, rfl⟩ := ih.mp hrest
      exact ⟨⟨hv, hfits⟩, by simp⟩
    · rintro ⟨⟨hv, hfits⟩, rfl⟩
      exact ⟨_, insertVersion?_eq_some_iff.mpr ⟨hv, rfl⟩, ih.mpr ⟨hfits, by simp⟩⟩

/-! Calls -/

theorem perform_upsertRepo (t : Tables) {draft : RepoDraft} {id : Int} (now : Instant)
    (hid : draft.id = .set id) : t.perform now (.upsertRepo draft) =
      (.ok (refreshed id draft (t.repo? id)), t.upsertRepo id draft) := by
  simp only [perform, hid, repo?_upsertRepo, if_true]

theorem perform_error {now : Instant} {call : StoreCall} {e : StoreError} {t' : Tables}
    (h : t.perform now call = (.error e, t')) : t' = t := by
  cases call with
  | upsertRepo draft =>
    cases hid : draft.id with
    | unset => simp_all [perform]
    | set id =>
      rw [perform_upsertRepo t now hid] at h
      cases h
  | createStar userId repoId =>
    simp only [perform, kept] at h
    split at h <;> simp_all
  | createVersions versions =>
    simp only [perform, kept] at h
    split at h <;> simp_all
  | _ => simp [perform] at h

end ReleaseTracker.Tables
