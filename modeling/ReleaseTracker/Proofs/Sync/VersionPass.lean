import ReleaseTracker.Proofs.Sync.Surroundings
import ReleaseTracker.Sync.Versions

/-! A pass over the tags of a repository. Apart from what the store and GitHub say of a tag, it
goes by the names that it has taken itself. What it has gathered so far, stored or waiting, is kept
in one invariant (`Gathered`). -/

namespace ReleaseTracker
open GitHub (Tag)
open Program

namespace VersionSync
variable {options : SyncOptions} {identity : Identity} {repo : Repo} {tag : Tag}
  {staging : Staging} {t : Tables}

def examine (identity : Identity) (repo : Repo) (tag : Tag) :
    Work (Except StopReason (Option Version)) :=
  (describe identity repo.fullName tag).bind fun
    | .error _ => .done (.error .remoteFailure)
    | .ok none => .done (.ok none)
    | .ok (some description) =>
      (render identity repo.fullName description.message).bind fun
        | .error _ => .done (.error .renderingFailure)
        | .ok body => .done (.ok (some (version repo.id tag description body)))

def keep (options : SyncOptions) (staging : Staging) :
    Except StopReason (Option Version) → Work (Staging × Option StopReason)
  | .error reason => .done (staging, some reason)
  | .ok none => .done (staging, none)
  | .ok (some version) =>
    ((staging.stage version).flushIfFull options.flushEvery).bind fun staging =>
      .done (staging, none)

theorem takeTag_eq : takeTag options identity repo staging tag =
    (Work.store (.findExistingVersion repo.id tag.name)).bind fun (stored : Bool) =>
      if stored || staging.holds tag.name then .done (staging, none)
      else (examine identity repo tag).bind (keep options staging) := by
  unfold takeTag examine
  congr 1
  funext stored
  split_ifs
  · rfl
  rw [bind_assoc]
  congr 1
  funext answer
  match answer with
  | .error _ => rfl
  | .ok none => rfl
  | .ok (some description) =>
    simp only [bind_assoc]
    congr 1
    funext answer
    cases answer <;> rfl

/-! What a pass has gathered -/

/-- The rows of a pass that started from some tables: the first are stored and the others wait. They
are new to the repository, and no two of their names differ in case only. -/
structure Gathered (repo : Repo) (start t : Tables) (staging : Staging) (rows : List Version) :
    Prop where
  stored : ∃ flushed, rows = flushed ++ staging.pending ∧
    t = { start with versions := start.versions ++ flushed }
  created : staging.created = rows.length
  names : staging.names = (rows.map fun row => Text.lowerCase row.tagName).reverse
  own : ∀ row ∈ rows, row.repoId = repo.id
  fresh : ∀ row ∈ rows, start.hasVersion repo.id row.tagName = false
  apart : rows.Pairwise fun row row' => Text.lowerCase row.tagName ≠ Text.lowerCase row'.tagName

variable {start : Tables} {rows : List Version}

theorem Gathered.empty : Gathered repo start start .empty [] where
  stored := ⟨[], rfl, by rw [List.append_nil]⟩
  created := rfl
  names := rfl
  own := by simp
  fresh := by simp
  apart := .nil

theorem Gathered.mem_names (h : Gathered repo start t staging rows) (name : String) :
    name ∈ staging.names ↔ ∃ row ∈ rows, Text.lowerCase row.tagName = name := by
  rw [h.names, List.mem_reverse, List.mem_map]

theorem Gathered.passesOver_iff (h : Gathered repo start t staging rows) (name : String) :
    (t.hasVersion repo.id name || staging.holds name) = true ↔
      start.hasVersion repo.id name = true ∨ Text.lowerCase name ∈ staging.names := by
  obtain ⟨flushed, hrows, ht⟩ := h.stored
  have hheld : staging.holds name = true ↔ Text.lowerCase name ∈ staging.names :=
    List.contains_iff_mem
  rw [Bool.or_eq_true, ht, Tables.hasVersion_append_iff, hheld, or_assoc]
  -- what the pass itself has stored is among the names that it has taken
  refine or_congr_right (or_iff_right_of_imp ?_)
  rintro ⟨row, hrow, -, rfl⟩
  exact (h.mem_names _).mpr ⟨row, hrows ▸ List.mem_append_left _ hrow, rfl⟩

theorem Gathered.stage (h : Gathered repo start t staging rows) {row : Version}
    (hown : row.repoId = repo.id) (hfresh : start.hasVersion repo.id row.tagName = false)
    (hname : Text.lowerCase row.tagName ∉ staging.names) :
    Gathered repo start t (staging.stage row) (rows ++ [row]) where
  stored := by
    obtain ⟨flushed, hrows, ht⟩ := h.stored
    exact ⟨flushed, by rw [hrows, List.append_assoc]; rfl, ht⟩
  created := by simp [Staging.stage, h.created]
  names := by simp [Staging.stage, h.names]
  own := by
    intro other hother
    rcases List.mem_append.mp hother with hother | hother
    · exact h.own other hother
    · exact List.mem_singleton.mp hother ▸ hown
  fresh := by
    intro other hother
    rcases List.mem_append.mp hother with hother | hother
    · exact h.fresh other hother
    · exact List.mem_singleton.mp hother ▸ hfresh
  apart := by
    refine List.pairwise_append.mpr ⟨h.apart, List.pairwise_singleton _ _, ?_⟩
    intro other hother last hlast
    rw [List.mem_singleton.mp hlast]
    exact fun hsame => hname ((h.mem_names _).mpr ⟨other, hother, hsame⟩)

theorem fits_of_apart (hrepo : (t.repo? repo.id).isSome) (hown : ∀ row ∈ rows, row.repoId = repo.id)
    (hfresh : ∀ row ∈ rows, t.hasVersion repo.id row.tagName = false)
    (hapart : rows.Pairwise fun row row' =>
      Text.lowerCase row.tagName ≠ Text.lowerCase row'.tagName) : t.Fits rows where
  fresh row hrow := by
    rw [hown row hrow]
    exact hfresh row hrow
  known row hrow := by
    rw [hown row hrow]
    exact hrepo
  apart := hapart.imp fun hne hkey => hne (congrArg Text.lowerCase (Prod.mk.inj hkey).2)

theorem Gathered.fits (h : Gathered repo start t staging rows)
    (hrepo : (start.repo? repo.id).isSome) : start.Fits rows :=
  fits_of_apart hrepo h.own h.fresh h.apart

theorem Gathered.insert_pending (h : Gathered repo start t staging rows)
    (hrepo : (start.repo? repo.id).isSome) :
    t.insertVersions? staging.pending =
      some { start with versions := start.versions ++ rows } := by
  obtain ⟨flushed, hrows, rfl⟩ := h.stored
  have hfits := h.fits hrepo
  rw [hrows] at hfits
  refine Tables.insertVersions?_eq_some_iff.mpr ⟨(Tables.fits_append_iff.mp hfits).2, ?_⟩
  rw [hrows, List.append_assoc]

end VersionSync
end ReleaseTracker
