import Mathlib.Logic.Function.Iterate
import ReleaseTracker.Proofs.Lists.Groups
import ReleaseTracker.Proofs.Sync.VersionOutcome

/-! Passes over the same tags, one after another. Names that differ in case only are one group, of
which each pass stores one, so it takes as many passes to store them all as the largest group has
names. -/

namespace ReleaseTracker
open GitHub (Tag)
open Program StoreRule

namespace Tables
variable {t : Tables} {repoId : Int} {names : Finset String} {rows : List Version}

def unstored (t : Tables) (repoId : Int) (names : Finset String) : Finset String :=
  names \ (t.tagsOf repoId).toFinset

theorem mem_unstored_iff {name : String} :
    name ∈ t.unstored repoId names ↔ name ∈ names ∧ name ∉ t.tagsOf repoId := by
  simp [unstored]

theorem unstored_append (hown : ∀ row ∈ rows, row.repoId = repoId) :
    ({ t with versions := t.versions ++ rows } : Tables).unstored repoId names =
      t.unstored repoId names \ (rows.map (·.tagName)).toFinset := by
  unfold unstored
  rw [tagsOf_append hown, List.toFinset_append]
  exact sdiff_sdiff_left.symm

end Tables

namespace VersionSync
variable {repo : Repo} {tags : List Tag} {facts : GitHub.Facts} {t t' : Tables}
  {rows : List Version} {log : Log}

def resolvable (facts : GitHub.Facts) (fullName : String) (tags : List Tag) : Finset String :=
  ((tags.filter (facts.resolves fullName)).map (·.name)).toFinset

theorem missing_names_eq : ((tags.filter (isMissing facts t repo)).map (·.name)).toFinset =
    t.unstored repo.id (resolvable facts repo.fullName tags) := by
  ext name
  simp only [resolvable, isMissing, List.mem_toFinset, List.mem_map, List.mem_filter,
    Tables.mem_unstored_iff, Tables.mem_tagsOf_iff, Bool.and_eq_true, Bool.not_eq_true']
  constructor
  · rintro ⟨tag, ⟨htag, hfresh, hresolves⟩, rfl⟩
    exact ⟨⟨tag, ⟨htag, hresolves⟩, rfl⟩, by simp [hfresh]⟩
  · rintro ⟨⟨tag, ⟨htag, hresolves⟩, rfl⟩, hfresh⟩
    exact ⟨tag, ⟨htag, by simpa using hfresh, hresolves⟩, rfl⟩

theorem Passed.oneOfEach (h : Passed facts repo tags t t' rows none log) :
    OneOfEach Text.lowerCase (t.unstored repo.id (resolvable facts repo.fullName tags))
      (rows.map (·.tagName)) := by
  rw [h.whole rfl, ← missing_names_eq]
  exact newcomers_oneOfEach Text.lowerCase (·.name) (isMissing facts t repo) tags

section Rounds
variable {repoId : Int} {names : Finset String} {start : Tables} {p : Nat}

structure Advanced (repoId : Int) (names : Finset String) (start : Tables) (p : Nat)
    (t : Tables) : Prop where
  rest : t = { start with versions := t.versions }
  stored : (t.tagsOf repoId).toFinset ∪ names = (start.tagsOf repoId).toFinset ∪ names
  nodup : (start.tagsOf repoId).Nodup → (t.tagsOf repoId).Nodup
  groups : ∀ k, (group Text.lowerCase (t.unstored repoId names) k).card =
    (group Text.lowerCase (start.unstored repoId names) k).card - p

theorem Advanced.zero : Advanced repoId names start 0 start where
  rest := rfl
  stored := rfl
  nodup := id
  groups _ := rfl

theorem Advanced.succ (h : Advanced repoId names start p t)
    (hown : ∀ row ∈ rows, row.repoId = repoId)
    (hone : OneOfEach Text.lowerCase (t.unstored repoId names) (rows.map (·.tagName))) :
    Advanced repoId names start (p + 1) { t with versions := t.versions ++ rows } := by
  have hnew (name : String) (hname : name ∈ rows.map (·.tagName)) :
      name ∈ names ∧ name ∉ t.tagsOf repoId :=
    Tables.mem_unstored_iff.mp (hone.subset name hname)
  refine ⟨?_, ?_, fun hstart => ?_, fun k => ?_⟩
  · rw [h.rest]
  · have hsub : (rows.map (·.tagName)).toFinset ⊆ names :=
      fun name hname => (hnew name (List.mem_toFinset.mp hname)).1
    rw [Tables.tagsOf_append hown, List.toFinset_append, Finset.union_assoc,
      Finset.union_eq_right.mpr hsub, h.stored]
  · rw [Tables.tagsOf_append hown, List.nodup_append']
    exact ⟨h.nodup hstart, hone.taken_nodup, fun name hold hname => (hnew name hname).2 hold⟩
  · rw [Tables.unstored_append hown, hone.card_group, h.groups, Nat.sub_sub]

theorem advanced_of_rounds {t : Nat → Tables}
    (hround : ∀ p, t p = { t 0 with versions := (t p).versions } → ∃ rows : List Version,
      t (p + 1) = { t p with versions := (t p).versions ++ rows } ∧
      (∀ row ∈ rows, row.repoId = repoId) ∧
      OneOfEach Text.lowerCase ((t p).unstored repoId names) (rows.map (·.tagName))) (p : Nat) :
    Advanced repoId names (t 0) p (t p) := by
  induction p with
  | zero => exact .zero
  | succ p ih =>
    obtain ⟨rows, htables, hown, hone⟩ := hround p ih.rest
    rw [htables]
    exact ih.succ hown hone

theorem Advanced.nothing_left_iff (h : Advanced repoId names start p t) :
    t.unstored repoId names = ∅ ↔
      largestGroup Text.lowerCase (start.unstored repoId names) ≤ p := by
  rw [eq_empty_iff_groups Text.lowerCase, largestGroup_le_iff]
  simp only [h.groups, Nat.sub_eq_zero_iff_le]

end Rounds

end VersionSync

open VersionSync
variable {σ : Type}

/-- Passes over the same tags converge. Each stores one name of every group of resolvable names,
alike in lower case, that has one which is not stored. It stores none exactly if there were as many
passes before as the largest group had such names at the start, and then all are stored. -/
theorem syncVersions_converges (w : Surroundings reliable σ) (options : SyncOptions)
    (identity : Identity) (repoId : Int) (s : Nat → σ) (facts : GitHub.Facts) {repo : Repo}
    {tags : List Tag} {calls : Nat}
    (hnext : ∀ p, w.tables (s (p + 1)) =
      w.tables (w.run (syncVersions options identity repoId) (s p)).2)
    (hrepo : (w.tables (s 0)).repo? repoId = some repo)
    (hactive : repo.isRemoved = false) (hcalls : facts .remainingCalls = .ok calls)
    (husable : 0 < calls) (htagged : facts (.hasTags repo.fullName) = .ok true)
    (htags : facts (.allTags repo.fullName) = .ok tags)
    (htold : ∀ p, (w.transcript (syncVersions options identity repoId) (s p)).ToldBy facts)
    (hunfailing : ∀ p, (w.transcript (syncVersions options identity repoId) (s p)).Unfailing) :
    (∀ p, ∃ added : List Version,
      (w.run (syncVersions options identity repoId) (s p)).1 = .ok (.completed added.length) ∧
      w.tables (s (p + 1)) =
        { w.tables (s p) with versions := (w.tables (s p)).versions ++ added } ∧
      (∀ row ∈ added, row.repoId = repoId) ∧
      OneOfEach Text.lowerCase
        ((w.tables (s p)).unstored repoId (resolvable facts repo.fullName tags))
        (added.map (·.tagName)) ∧
      added.length = (((w.tables (s p)).unstored repoId
        (resolvable facts repo.fullName tags)).image Text.lowerCase).card) ∧
    ∀ p,
      ((w.run (syncVersions options identity repoId) (s p)).1 = .ok (.completed 0) ↔
        largestGroup Text.lowerCase
          ((w.tables (s 0)).unstored repoId (resolvable facts repo.fullName tags)) ≤ p) ∧
      (largestGroup Text.lowerCase
          ((w.tables (s 0)).unstored repoId (resolvable facts repo.fullName tags)) ≤ p →
        w.tables (s (p + 1)) = w.tables (s p) ∧
        ((w.tables (s p)).tagsOf repoId).toFinset =
          ((w.tables (s 0)).tagsOf repoId).toFinset ∪ resolvable facts repo.fullName tags ∧
        (((w.tables (s 0)).tagsOf repoId).Nodup → ((w.tables (s p)).tagsOf repoId).Nodup)) := by
  have htarget := target?_of_tagged hrepo hactive hcalls husable htagged htags
  obtain rfl := Tables.repo?_id hrepo
  generalize hnames : resolvable facts repo.fullName tags = names
  -- one pass, given that the versions are all that changed before it
  have hpass (p : Nat) (hrest : w.tables (s p) =
      { w.tables (s 0) with versions := (w.tables (s p)).versions }) : ∃ added : List Version,
        (w.run (syncVersions options identity repo.id) (s p)).1 = .ok (.completed added.length) ∧
        w.tables (s (p + 1)) =
          { w.tables (s p) with versions := (w.tables (s p)).versions ++ added } ∧
        (∀ row ∈ added, row.repoId = repo.id) ∧
        OneOfEach Text.lowerCase ((w.tables (s p)).unstored repo.id names)
          (added.map (·.tagName)) := by
    obtain ⟨found, rows, hresult, htables, hwent⟩ := syncVersions_completes
      (w.runs (syncVersions options identity repo.id) (s p)) (htold p) (hunfailing p)
      ((target?_congr hrest).trans htarget)
    exact ⟨rows, hresult, (hnext p).trans htables, hwent.own,
      hnames ▸ (hwent.passed (htold p)).oneOfEach⟩
  have hadvanced : ∀ p, Advanced repo.id names (w.tables (s 0)) p (w.tables (s p)) :=
    advanced_of_rounds fun p hrest => by
      obtain ⟨added, -, hround⟩ := hpass p hrest
      exact ⟨added, hround⟩
  have hcount {p : Nat} {added : List Version} (hone : OneOfEach Text.lowerCase
      ((w.tables (s p)).unstored repo.id names) (added.map (·.tagName))) :
      added.length = (((w.tables (s p)).unstored repo.id names).image Text.lowerCase).card := by
    rw [← hone.length_eq, List.length_map]
  refine ⟨fun p => ?_, fun p => ?_⟩
  · obtain ⟨added, hresult, htables, hown, hone⟩ := hpass p (hadvanced p).rest
    exact ⟨added, hresult, htables, hown, hone, hcount hone⟩
  · obtain ⟨added, hresult, htables, -, hone⟩ := hpass p (hadvanced p).rest
    have hnone : added.length = 0 ↔
        largestGroup Text.lowerCase ((w.tables (s 0)).unstored repo.id names) ≤ p := by
      rw [hcount hone, Finset.card_eq_zero, Finset.image_eq_empty, (hadvanced p).nothing_left_iff]
    refine ⟨?_, fun hlate => ⟨?_, ?_, (hadvanced p).nodup⟩⟩
    · rw [hresult, ← hnone]
      simp
    · rw [htables, List.eq_nil_of_length_eq_zero (hnone.mpr hlate), List.append_nil]
    · have hall : names ⊆ ((w.tables (s p)).tagsOf repo.id).toFinset :=
        Finset.sdiff_eq_empty_iff_subset.mp ((hadvanced p).nothing_left_iff.mpr hlate)
      rw [← (hadvanced p).stored, Finset.union_eq_left.mpr hall]

namespace VersionSync.Sample

def after (tags : List Tag) (p : Nat) : Tables :=
  (fun t => ((world tags).run (syncVersions options .app 1) t).2)^[p] tables

end VersionSync.Sample

theorem syncVersions_converges_mixed :
    largestGroup Text.lowerCase (Sample.tables.unstored 1
      (resolvable (Sample.facts Sample.mixed) "o/r" Sample.mixed)) = 2 ∧
    ((Sample.world Sample.mixed).run (syncVersions Sample.options .app 1)
      (Sample.after Sample.mixed 2)).1 = .ok (.completed 0) ∧
    Sample.after Sample.mixed 3 = Sample.after Sample.mixed 2 ∧
    ((Sample.after Sample.mixed 2).tagsOf 1).Nodup ∧
    ((Sample.after Sample.mixed 2).tagsOf 1).toFinset = {"v0.9", "V1.0", "V0.9", "v1.0"} := by
  have htwo : largestGroup Text.lowerCase (Sample.tables.unstored 1
      (resolvable (Sample.facts Sample.mixed) "o/r" Sample.mixed)) = 2 := by decide +kernel
  have hlate := (syncVersions_converges (Sample.world Sample.mixed) Sample.options .app 1
    (Sample.after Sample.mixed) (Sample.facts Sample.mixed)
    (fun p => Function.iterate_succ_apply' _ p Sample.tables) rfl rfl rfl (Nat.succ_pos 8) rfl rfl
    (fun _ _ _ _ h => Surroundings.steady_github h)
    (fun _ _ call _ h => by
      rw [Surroundings.steady_github h]
      cases call <;> exact ⟨_, rfl⟩)).2 2
  obtain ⟨hsame, hall, hnodup⟩ := hlate.2 htwo.le
  refine ⟨htwo, hlate.1.mpr htwo.le, hsame, hnodup (List.nodup_singleton "v0.9"), hall.trans ?_⟩
  decide +kernel

end ReleaseTracker
