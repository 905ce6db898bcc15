import Mathlib.Data.List.Pairwise
import ReleaseTracker.Proofs.Sync.VersionFinds

/-! What a synchronisation of versions comes to, given what GitHub answers. A pass that nothing
stops adds the newcomers among the tags that it misses. Another pass after it adds none, unless two
missing tags have names that differ in case only. -/

namespace ReleaseTracker
open GitHub (Tag)
open Program StoreRule

namespace VersionSync
variable {options : SyncOptions} {identity : Identity} {repo : Repo} {repoId : Int}
  {tags : List Tag} {facts : GitHub.Facts} {t t' : Tables} {rows : List Version} {log : Log}

structure Passed (facts : GitHub.Facts) (repo : Repo) (tags : List Tag) (t t' : Tables)
    (rows : List Version) (stop : Option StopReason) (log : Log) : Prop where
  tables : t' = { t with versions := t.versions ++ rows }
  announcements : log.announcements = if 0 < rows.length then [[repo.id]] else []
  own : ∀ row ∈ rows, row.repoId = repo.id
  fresh : ∀ row ∈ rows, t.hasVersion repo.id row.tagName = false
  apart : rows.Pairwise fun row row' => Text.lowerCase row.tagName ≠ Text.lowerCase row'.tagName
  whole : stop = none → rows.map (·.tagName) = (newcomers (fun tag => Text.lowerCase tag.name)
    (isMissing facts t repo) [] tags).map (·.name)
  cut : stop ≠ none → (∃ tag ∈ tags, isMissing facts t repo tag = true) ∧ ¬ log.Unfailing

theorem Went.passed {found : Log} {stop : Option StopReason}
    (h : Went options.flushEvery identity repo tags t found log rows stop)
    (htold : log.ToldBy facts) :
    Passed facts repo tags t { t with versions := t.versions ++ rows } rows stop log where
  tables := rfl
  announcements := h.announced.announcements
  own := h.own
  fresh := h.fresh
  apart := h.apart
  whole := by
    rintro rfl
    exact ComesTo.names_eq (survey_found h.surveyed (htold.mono h.part))
  cut hstop := by
    obtain ⟨reason, rfl⟩ := Option.ne_none_iff_exists'.mp hstop
    exact (survey_cut h.surveyed (htold.mono h.part)).imp_right fun hfailing hlog =>
      hfailing (hlog.mono h.part)

theorem syncVersions_runs {result : Except Fault Outcome}
    (hrun : (syncVersions options identity repoId).Runs reliable.conduct t log result t')
    (htold : log.ToldBy facts) :
    (target? facts t repoId = none ∧ ∃ reason, result = .ok (.aborted reason)) ∨
      ∃ repo tags rows stop, target? facts t repoId = some (repo, tags) ∧
        result = .ok (outcome rows.length stop) ∧ Passed facts repo tags t t' rows stop log := by
  refine (syncVersions_told hrun htold).imp_right ?_
  rintro ⟨repo, tags, found, rows, stop, htarget, hwent, hresult, rfl⟩
  exact ⟨repo, tags, rows, stop, htarget, hresult, hwent.passed htold⟩

theorem syncVersions_completes {result : Except Fault Outcome}
    (hrun : (syncVersions options identity repoId).Runs reliable.conduct t log result t')
    (htold : log.ToldBy facts) (hunfailing : log.Unfailing)
    (htarget : target? facts t repoId = some (repo, tags)) :
    ∃ found rows, result = .ok (.completed rows.length) ∧
      t' = { t with versions := t.versions ++ rows } ∧
        Went options.flushEvery identity repo tags t found log rows none := by
  obtain ⟨found, rows, stop, hwent, hresult, htables⟩ := syncVersions_targeted hrun htold htarget
  cases stop with
  | none => exact ⟨found, rows, hresult, htables, hwent⟩
  | some reason => exact absurd hunfailing ((hwent.passed htold).cut (by simp)).2

/-! A pass after another -/

section Again
variable {tags : List Tag} {stop : Option StopReason}

theorem isMissing_append_iff (hown : ∀ row ∈ rows, row.repoId = repo.id) (tag : Tag) :
    isMissing facts { t with versions := t.versions ++ rows } repo tag = true ↔
      isMissing facts t repo tag = true ∧ tag.name ∉ rows.map (·.tagName) := by
  have hstored : ({ t with versions := t.versions ++ rows } : Tables).hasVersion repo.id tag.name =
      true ↔ t.hasVersion repo.id tag.name = true ∨ tag.name ∈ rows.map (·.tagName) := by
    rw [Tables.hasVersion_append_iff, List.mem_map]
    refine or_congr_right (exists_congr fun row => and_congr_right fun hrow => ?_)
    exact and_iff_right (hown row hrow)
  simp only [isMissing, Bool.and_eq_true, Bool.not_eq_true', ← Bool.not_eq_true, hstored]
  tauto

theorem Passed.isMissing_iff (h : Passed facts repo tags t t' rows stop log) (tag : Tag) :
    isMissing facts t' repo tag = true ↔
      isMissing facts t repo tag = true ∧ tag.name ∉ rows.map (·.tagName) := by
  rw [h.tables]
  exact isMissing_append_iff h.own tag

/-- A pass that nothing stops leaves no tag behind, unless it misses two whose names differ in case
only: of these it takes the first. -/
theorem Passed.caughtUp_iff (h : Passed facts repo tags t t' rows none log) :
    (∀ tag ∈ tags, isMissing facts t' repo tag = false) ↔
      ∀ tag ∈ tags, ∀ other ∈ tags, isMissing facts t repo tag = true →
        isMissing facts t repo other = true →
          Text.lowerCase tag.name = Text.lowerCase other.name → tag.name = other.name := by
  constructor
  -- both names are those of rows, and two rows that agree in lower case are one
  · intro hcaught tag htag other hother hmissing hmissing' hname
    have htaken : ∀ tag ∈ tags, isMissing facts t repo tag = true →
        ∃ row ∈ rows, row.tagName = tag.name := by
      intro tag htag hmissing
      have hafter := mt (h.isMissing_iff tag).mpr (by simp [hcaught tag htag])
      by_contra hnone
      exact hafter ⟨hmissing, by simpa using hnone⟩
    obtain ⟨row, hrow, hrowName⟩ := htaken tag htag hmissing
    obtain ⟨row', hrow', hrowName'⟩ := htaken other hother hmissing'
    rw [← hrowName, ← hrowName']
    by_contra hne
    have hrows : row ≠ row' := fun hsame => hne (congrArg Version.tagName hsame)
    have hsymm : Std.Symm fun row row' : Version =>
        Text.lowerCase row.tagName ≠ Text.lowerCase row'.tagName := ⟨fun _ _ hxy => hxy.symm⟩
    exact h.apart.forall hrow hrow' hrows (by rw [hrowName, hrowName', hname])
  -- a missing tag that was not taken gave way to an earlier one of its name
  · intro hsame tag htag
    rw [← Bool.not_eq_true, h.isMissing_iff tag]
    rintro ⟨hmissing, hnot⟩
    obtain ⟨first, hfirst, hname⟩ := exists_newcomer (fun tag : Tag => Text.lowerCase tag.name)
      htag hmissing List.not_mem_nil
    obtain ⟨hmem, hmissing'⟩ := mem_of_mem_newcomers hfirst
    have hexact : first.name = tag.name := hsame first hmem tag htag hmissing' hmissing hname
    rw [h.whole rfl] at hnot
    exact hnot (List.mem_map.mpr ⟨first, hfirst, hexact⟩)

theorem outcome_eq_completed_zero_iff :
    outcome rows.length stop = .completed 0 ↔ stop = none ∧ rows = [] := by
  cases stop with
  | none => simp [outcome]
  | some reason => simp [outcome]

theorem Passed.completed_zero_iff (h : Passed facts repo tags t t' rows stop log) :
    outcome rows.length stop = .completed 0 ↔
      ∀ tag ∈ tags, isMissing facts t repo tag = false := by
  rw [outcome_eq_completed_zero_iff]
  constructor
  · rintro ⟨hstop, hrows⟩ tag htag
    have hwhole := h.whole hstop
    rw [hrows, List.map_nil] at hwhole
    have hnone := List.map_eq_nil_iff.mp hwhole.symm
    rw [← Bool.not_eq_true]
    intro hmissing
    obtain ⟨first, hfirst, -⟩ := exists_newcomer (fun tag : Tag => Text.lowerCase tag.name)
      htag hmissing List.not_mem_nil
    rw [hnone] at hfirst
    cases hfirst
  · intro hnone
    have hstop : stop = none := by
      by_contra hstop
      obtain ⟨⟨tag, htag, hmissing⟩, -⟩ := h.cut hstop
      rw [hnone tag htag] at hmissing
      cases hmissing
    have hwhole := h.whole hstop
    rw [newcomers_eq_nil hnone, List.map_nil] at hwhole
    exact ⟨hstop, List.map_eq_nil_iff.mp hwhole⟩

end Again

def NoCaseVariants (facts : GitHub.Facts) (t : Tables) (repoId : Int) : Prop :=
  ∀ repo tags, target? facts t repoId = some (repo, tags) → ∀ tag ∈ tags, ∀ other ∈ tags,
    isMissing facts t repo tag = true → isMissing facts t repo other = true →
      Text.lowerCase tag.name = Text.lowerCase other.name → tag.name = other.name

end VersionSync

open VersionSync
variable {σ τ : Type}

/-- If nothing fails, exactly the newcomers among the missing tags are added, in the order of the
tags, and counted. -/
theorem syncVersions_adds_newcomers (w : Surroundings reliable σ) (options : SyncOptions)
    (identity : Identity) (repoId : Int) (s : σ) (facts : GitHub.Facts) {repo : Repo}
    {tags : List Tag} {calls : Nat} (hrepo : (w.tables s).repo? repoId = some repo)
    (hactive : repo.isRemoved = false) (hcalls : facts .remainingCalls = .ok calls)
    (husable : 0 < calls) (htagged : facts (.hasTags repo.fullName) = .ok true)
    (htags : facts (.allTags repo.fullName) = .ok tags)
    (htold : (w.transcript (syncVersions options identity repoId) s).ToldBy facts)
    (hunfailing : (w.transcript (syncVersions options identity repoId) s).Unfailing) :
    ∃ added : List Version,
      (w.run (syncVersions options identity repoId) s).1 = .ok (.completed added.length) ∧
      w.tables (w.run (syncVersions options identity repoId) s).2 =
        { w.tables s with versions := (w.tables s).versions ++ added } ∧
      (∀ version ∈ added, version.repoId = repoId) ∧
      added.map (·.tagName) = ((List.finRange tags.length).filter
        (IsNewcomer (fun tag => Text.lowerCase tag.name) (isMissing facts (w.tables s) repo) []
          tags ·)).map fun i => (tags.get i).name := by
  have htarget : target? facts (w.tables s) repoId = some (repo, tags) := by
    have hlisted : tagsOf? facts repo.fullName = some tags := by
      unfold tagsOf?
      rw [htagged, htags]
      rfl
    unfold target?
    rw [hrepo, Option.bind_some, hcalls, if_pos, hlisted, Option.map_some]
    simp [hactive, Work.quotaOf, Quota.isUsable, husable]
  obtain ⟨hnone, -⟩ | ⟨repo', tags', rows, stop, hsome, hresult, hpassed⟩ :=
    syncVersions_runs (w.runs (syncVersions options identity repoId) s) htold
  · cases htarget.symm.trans hnone
  obtain ⟨rfl, rfl⟩ := Prod.mk.inj (Option.some.inj (htarget.symm.trans hsome))
  have hstop : stop = none := by
    by_contra hstop
    exact (hpassed.cut hstop).2 hunfailing
  subst hstop
  refine ⟨rows, hresult, hpassed.tables, ?_, ?_⟩
  · rw [← Tables.repo?_id hrepo]
    exact hpassed.own
  · rw [hpassed.whole rfl, newcomers_eq_filter, List.map_map]
    rfl

namespace VersionSync.Sample

def time : Instant := ⟨1700000000, 0⟩

def repo : Repo := ⟨1, "o/r", "r", none, none, none, none, .utc time, none⟩

def tables : Tables := ⟨[], [repo], [], [⟨1, "v0.9", "v0.9", false, "", .utc time⟩]⟩

def facts (tags : List Tag) : GitHub.Facts
  | .remainingCalls => .ok 9
  | .starredPage _ _ _ => .ok ⟨[], none⟩
  | .hasTags _ => .ok true
  | .allTags _ => .ok tags
  | .releaseByTag _ _ => .ok none
  | .annotatedTag _ _ => .ok ⟨⟨none, time⟩, "notes"⟩
  | .commit _ _ => .ok ⟨⟨none, time⟩, "notes"⟩
  | .blob _ _ => .ok ⟨5, "hello"⟩
  | .renderMarkdown text _ => .ok text

def world (tags : List Tag) : Surroundings reliable Tables := .steady (facts tags) time

def options : SyncOptions := { SyncOptions.default 1 with flushEvery := 1 }

def mixed : List Tag :=
  [⟨"v0.9", "a", .commit⟩, ⟨"v1.0", "b", .other "tree"⟩, ⟨"V1.0", "c", .commit⟩,
    ⟨"v1.0", "d", .tag⟩, ⟨"V0.9", "e", .blob⟩, ⟨"V1.0", "f", .commit⟩]

def variants : List Tag := [⟨"v1.0", "a", .commit⟩, ⟨"V1.0", "b", .commit⟩]

end VersionSync.Sample

theorem syncVersions_adds_newcomers_mixed : ∃ added : List Version,
    ((Sample.world Sample.mixed).run (syncVersions Sample.options .app 1) Sample.tables).1 =
      .ok (.completed added.length) ∧
    ((Sample.world Sample.mixed).run (syncVersions Sample.options .app 1) Sample.tables).2 =
      { Sample.tables with versions := Sample.tables.versions ++ added } ∧
    added.map (·.tagName) = ["V1.0", "V0.9"] := by
  obtain ⟨added, hresult, htables, -, hnames⟩ :=
    syncVersions_adds_newcomers (Sample.world Sample.mixed) Sample.options .app 1 Sample.tables
      (Sample.facts Sample.mixed) rfl rfl rfl (Nat.succ_pos 8) rfl rfl
      (fun _ _ _ h => Surroundings.steady_github h)
      (fun _ call _ h => by
        rw [Surroundings.steady_github h]
        cases call <;> exact ⟨_, rfl⟩)
  refine ⟨added, hresult, htables, hnames.trans ?_⟩
  decide +kernel

/-- With the same answers, another pass after a completed one completes without news exactly if no
two missing tags had names that differ in case only. -/
theorem syncVersions_again_iff (w : Surroundings reliable σ) (w' : Surroundings reliable τ)
    (options : SyncOptions) (identity : Identity) (repoId : Int) (s : σ) (s' : τ)
    (facts : GitHub.Facts) {n : Nat}
    (htold : (w.transcript (syncVersions options identity repoId) s).ToldBy facts)
    (htold' : (w'.transcript (syncVersions options identity repoId) s').ToldBy facts)
    (hfirst : (w.run (syncVersions options identity repoId) s).1 = .ok (.completed n))
    (hafter : w'.tables s' = w.tables (w.run (syncVersions options identity repoId) s).2) :
    ((w'.run (syncVersions options identity repoId) s').1 = .ok (.completed 0) ∧
      w'.tables (w'.run (syncVersions options identity repoId) s').2 = w'.tables s' ∧
      (w'.transcript (syncVersions options identity repoId) s').announcements = []) ↔
        NoCaseVariants facts (w.tables s) repoId := by
  obtain ⟨-, reason, haborted⟩ | ⟨repo, tags, rows, stop, htarget, hresult, hpassed⟩ :=
    syncVersions_runs (w.runs (syncVersions options identity repoId) s) htold
  · cases hfirst.symm.trans haborted
  have hstop : stop = none := by
    cases stop with
    | none => rfl
    | some reason => cases hfirst.symm.trans hresult
  subst hstop
  -- a pass adds versions only, so the next one has the same target
  have htarget' : target? facts (w'.tables s') repoId = some (repo, tags) := by
    rw [hafter, hpassed.tables]
    exact htarget
  obtain ⟨hnone, -⟩ | ⟨repo', tags', rows', stop, hsome, hresult', hpassed'⟩ :=
    syncVersions_runs (w'.runs (syncVersions options identity repoId) s') htold'
  · cases htarget'.symm.trans hnone
  obtain ⟨rfl, rfl⟩ := Prod.mk.inj (Option.some.inj (htarget'.symm.trans hsome))
  have hcondition : outcome rows'.length stop = .completed 0 ↔
      NoCaseVariants facts (w.tables s) repoId := by
    rw [hpassed'.completed_zero_iff, hafter, hpassed.caughtUp_iff]
    constructor
    · intro hsame repo' tags' htarget'
      obtain ⟨rfl, rfl⟩ := Prod.mk.inj (Option.some.inj (htarget.symm.trans htarget'))
      exact hsame
    · exact fun hsame => hsame repo tags htarget
  rw [← hcondition, hresult']
  constructor
  · exact fun h => Except.ok.inj h.1
  · intro hcompleted
    obtain ⟨-, hrows⟩ := outcome_eq_completed_zero_iff.mp hcompleted
    refine ⟨by rw [hcompleted], ?_, ?_⟩
    · rw [hpassed'.tables, hrows, List.append_nil]
    · rw [hpassed'.announcements, hrows]
      rfl

theorem syncVersions_again_variants :
    ((Sample.world Sample.variants).run (syncVersions Sample.options .app 1) Sample.tables).1 =
      .ok (.completed 1) ∧
    ((Sample.world Sample.variants).run (syncVersions Sample.options .app 1)
      ((Sample.world Sample.variants).run (syncVersions Sample.options .app 1)
        Sample.tables).2).1 = .ok (.completed 1) ∧
    ¬ NoCaseVariants (Sample.facts Sample.variants) Sample.tables 1 := by
  refine ⟨rfl, rfl, fun hnone => ?_⟩
  have hagain := (syncVersions_again_iff (Sample.world Sample.variants)
    (Sample.world Sample.variants) Sample.options .app 1 Sample.tables
    ((Sample.world Sample.variants).run (syncVersions Sample.options .app 1) Sample.tables).2
    (Sample.facts Sample.variants) (n := 1)
    (fun _ _ _ h => Surroundings.steady_github h) (fun _ _ _ h => Surroundings.steady_github h)
    rfl rfl).mpr hnone
  cases hagain.1

/-- Stored names are compared exactly, so a second pass stores the variant that the first one
skipped, and announces it. -/
theorem syncVersions_again_stores_variant :
    let pass := syncVersions Sample.options .app 1
    let first := (Sample.world Sample.variants).run pass Sample.tables
    let second := (Sample.world Sample.variants).run pass first.2
    first.1 = .ok (.completed 1) ∧ second.1 = .ok (.completed 1) ∧
    first.2.versions.map (·.tagName) = ["v0.9", "v1.0"] ∧
    second.2.versions.map (·.tagName) = ["v0.9", "v1.0", "V1.0"] ∧
    ((Sample.world Sample.variants).transcript pass first.2).announcements = [[1]] := by
  decide +kernel

end ReleaseTracker
