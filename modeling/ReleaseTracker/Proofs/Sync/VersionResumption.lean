import ReleaseTracker.Proofs.Lists.Carried
import ReleaseTracker.Proofs.Store.Keys
import ReleaseTracker.Proofs.Sync.VersionInterruption

/-! A pass after one that was interrupted. It finds the rows that were stored and has forgotten the
names that were taken. Each row of a pass that goes through at once comes of the same tag in one of
the two. -/

namespace ReleaseTracker
open GitHub (ApiCall Tag)
open Program StoreRule

namespace VersionSync
variable {identity : Identity} {repo : Repo} {tags taken left : List Tag} {facts : GitHub.Facts}
  {t : Tables} {log log' log'' : Log} {stored waiting resumed single : List Version}

abbrev missingNews (facts : GitHub.Facts) (t : Tables) (repo : Repo) (tags : List Tag) : List Tag :=
  newcomers (fun tag => Text.lowerCase tag.name) (isMissing facts t repo) [] tags

theorem resumed_has
    (hstored : List.Forall₂ (ComesTo facts identity repo log)
      (missingNews facts t repo taken) (stored ++ waiting))
    (hresumed : List.Forall₂ (ComesTo facts identity repo log')
      (missingNews facts { t with versions := t.versions ++ stored } repo (taken ++ left)) resumed)
    (hsingle : List.Forall₂ (ComesTo facts identity repo log'')
      (missingNews facts t repo (taken ++ left)) single)
    (hown : ∀ row ∈ stored, row.repoId = repo.id) {row : Version} (hrow : row ∈ single) :
    ∃ row' ∈ stored ++ resumed, SameRow (log''.Showed (log ++ log')) row row' := by
  obtain ⟨tag, htag, hcomes⟩ := exists_of_forall₂' hsingle hrow
  have hmissing := (mem_of_mem_newcomers htag).2
  by_cases hknown : tag.name ∈ stored.map (·.tagName)
  -- a row of this name was stored, and it came of this very tag
  · obtain ⟨row', hrow', hname⟩ := List.mem_map.mp hknown
    obtain ⟨tag', htag', hcomes'⟩ := exists_of_forall₂' hstored (List.mem_append_left waiting hrow')
    have hmem : tag' ∈ missingNews facts t repo (taken ++ left) :=
      (newcomers_prefix_append _ _ [] taken left).subset htag'
    have hkeys := newcomers_keys_nodup (fun tag => Text.lowerCase tag.name)
      (isMissing facts t repo) [] (taken ++ left)
    obtain rfl : tag' = tag := List.inj_on_of_nodup_map hkeys hmem htag
      (congrArg Text.lowerCase (hcomes'.tagName_eq.symm.trans hname))
    have hsame := hcomes.sameRow hcomes'
    exact ⟨row', List.mem_append_left resumed hrow', hsame.mono
      (Log.showed_mono (List.Subset.refl log'') (List.subset_append_left log log'))⟩
  -- the tag is still missing, and so it is a newcomer again
  · have hagain := mem_newcomers_of_fewer
      (fun tag _ hstill => ((isMissing_append_iff hown tag).mp hstill).1) (List.Subset.refl [])
      htag ((isMissing_append_iff hown tag).mpr ⟨hmissing, hknown⟩)
    obtain ⟨row', hrow', hcomes'⟩ := exists_of_forall₂ hresumed hagain
    have hsame := hcomes.sameRow hcomes'
    exact ⟨row', List.mem_append_right stored hrow', hsame.mono
      (Log.showed_mono (List.Subset.refl log'') (List.subset_append_right log log'))⟩

/-- Without variants in case, the names that were forgotten do not matter: the second pass takes
those newcomers that the first has not stored, in their order. -/
theorem missingNews_append_eq {first : List Tag} (hown : ∀ row ∈ stored, row.repoId = repo.id)
    (hnames : stored.map (·.tagName) = first.map (·.name)) {rest : List Tag}
    (hnews : missingNews facts t repo tags = first ++ rest)
    (hvariants : ∀ tag ∈ tags, ∀ other ∈ tags, isMissing facts t repo tag = true →
      isMissing facts t repo other = true →
        Text.lowerCase tag.name = Text.lowerCase other.name → tag.name = other.name) :
    missingNews facts { t with versions := t.versions ++ stored } repo tags = rest := by
  have hstill (tag : Tag) : isMissing facts { t with versions := t.versions ++ stored } repo tag =
      true ↔ isMissing facts t repo tag = true ∧ tag.name ∉ first.map (·.name) := by
    rw [isMissing_append_iff hown, hnames]
  have hfilter : missingNews facts { t with versions := t.versions ++ stored } repo tags =
      (missingNews facts t repo tags).filter
        (isMissing facts { t with versions := t.versions ++ stored } repo) := by
    refine newcomers_eq_filter_of_fewer (fun tag _ h => ((hstill tag).mp h).1) ?_ (by simp)
    intro tag htag other hother hmissing hmissing' hname
    rw [Bool.eq_iff_iff, hstill, hstill, hvariants tag htag other hother hmissing hmissing' hname,
      hmissing, hmissing']
  -- the first ones are stored by now, and no name among the rest is that of one of them
  have hkeys := newcomers_keys_nodup (fun tag => Text.lowerCase tag.name)
    (isMissing facts t repo) [] tags
  rw [hfilter, hnews, List.filter_append]
  rw [show newcomers _ _ [] tags = first ++ rest from hnews, List.map_append,
    List.nodup_append] at hkeys
  have hfirst : first.filter (isMissing facts { t with versions := t.versions ++ stored } repo) =
      [] := by
    rw [List.filter_eq_nil_iff]
    intro tag htag h
    exact ((hstill tag).mp h).2 (List.mem_map_of_mem htag)
  have hrest : rest.filter (isMissing facts { t with versions := t.versions ++ stored } repo) =
      rest := by
    rw [List.filter_eq_self]
    intro tag htag
    have hmem : tag ∈ missingNews facts t repo tags := hnews ▸ List.mem_append_right first htag
    refine (hstill tag).mpr ⟨(mem_of_mem_newcomers hmem).2, fun hold => ?_⟩
    obtain ⟨old, hmemOld, hname⟩ := List.mem_map.mp hold
    exact hkeys.2.2 _ (List.mem_map_of_mem hmemOld) _ (List.mem_map_of_mem htag)
      (congrArg Text.lowerCase hname)
  rw [hfirst, hrest, List.nil_append]

theorem resumed_eq
    (hstored : List.Forall₂ (ComesTo facts identity repo log)
      (missingNews facts t repo taken) (stored ++ waiting))
    (hresumed : List.Forall₂ (ComesTo facts identity repo log')
      (missingNews facts { t with versions := t.versions ++ stored } repo (taken ++ left)) resumed)
    (hsingle : List.Forall₂ (ComesTo facts identity repo log'')
      (missingNews facts t repo (taken ++ left)) single)
    (hown : ∀ row ∈ stored, row.repoId = repo.id)
    (hvariants : ∀ tag ∈ taken ++ left, ∀ other ∈ taken ++ left, isMissing facts t repo tag = true →
      isMissing facts t repo other = true →
        Text.lowerCase tag.name = Text.lowerCase other.name → tag.name = other.name) :
    List.Forall₂ (SameRow (log''.Showed (log ++ log'))) single (stored ++ resumed) := by
  have hfirst := List.forall₂_take_append _ stored waiting hstored
  obtain ⟨rest, hrest⟩ : (missingNews facts t repo taken).take stored.length <+:
      missingNews facts t repo (taken ++ left) :=
    (List.take_prefix stored.length _).trans (newcomers_prefix_append _ _ [] taken left)
  rw [missingNews_append_eq hown (ComesTo.names_eq hfirst) hrest.symm hvariants] at hresumed
  have hboth : List.Forall₂ (ComesTo facts identity repo (log ++ log'))
      ((missingNews facts t repo taken).take stored.length ++ rest) (stored ++ resumed) :=
    List.rel_append (hfirst.imp fun _ _ h => h.mono (List.subset_append_left log log'))
      (hresumed.imp fun _ _ h => h.mono (List.subset_append_right log log'))
  rw [hrest] at hboth
  exact forall₂_trans hsingle.flip hboth fun _ _ _ h h' => ComesTo.sameRow h h'

end VersionSync

open VersionSync
variable {σ τ υ : Type}

/-- Whatever interrupts a first run, and wherever, a second one that completes leaves every row
stored that a run that goes through at once would have added. If no two missing tags have names that
differ in case only, it leaves no others. -/
theorem syncVersions_resumed_stores_all (w : Surroundings fallible σ) (w' : Surroundings fallible τ)
    (w'' : Surroundings reliable υ) (options : SyncOptions) (identity : Identity) (repoId : Int)
    (s : σ) (s' : τ) (s'' : υ) (facts : GitHub.Facts) {n : Nat}
    (hsound : ∀ call, ∃ value, facts call = .ok value)
    (htold : (w.transcript (syncVersions options identity repoId) s).ToldOrFailed facts)
    (hafter : w'.tables s' = w.tables (w.run (syncVersions options identity repoId) s).2)
    (htold' : (w'.transcript (syncVersions options identity repoId) s').ToldBy facts)
    (hcompleted : (w'.run (syncVersions options identity repoId) s').1 = .ok (.completed n))
    (htables : w''.tables s'' = w.tables s)
    (htold'' : (w''.transcript (syncVersions options identity repoId) s'').ToldBy facts) :
    ∃ stored resumed single : List Version,
      (w.tables (w.run (syncVersions options identity repoId) s).2).versions =
        (w.tables s).versions ++ stored ∧
      (w'.tables (w'.run (syncVersions options identity repoId) s').2).versions =
        (w.tables s).versions ++ (stored ++ resumed) ∧
      (w''.run (syncVersions options identity repoId) s'').1 = .ok (.completed single.length) ∧
      (w''.tables (w''.run (syncVersions options identity repoId) s'').2).versions =
        (w.tables s).versions ++ single ∧
      (∀ row ∈ single, ∃ row' ∈ stored ++ resumed, SameRow
        (Log.Showed (w''.transcript (syncVersions options identity repoId) s'')
          (w.transcript (syncVersions options identity repoId) s ++
            w'.transcript (syncVersions options identity repoId) s')) row row') ∧
      (((w.tables s).versions.map fun row => (row.repoId, row.tagName)).Nodup →
        ((w'.tables (w'.run (syncVersions options identity repoId) s').2).versions.map
          fun row => (row.repoId, row.tagName)).Nodup) ∧
      (NoCaseVariants facts (w.tables s) repoId → List.Forall₂ (SameRow
        (Log.Showed (w''.transcript (syncVersions options identity repoId) s'')
          (w.transcript (syncVersions options identity repoId) s ++
            w'.transcript (syncVersions options identity repoId) s')))
        single (stored ++ resumed)) := by
  have hrun := w.runs (syncVersions options identity repoId) s
  have hrun'' := w''.runs (syncVersions options identity repoId) s''
  have hrun' := syncVersions_strict.under (w'.runs (syncVersions options identity repoId) s')
    (by simp [hcompleted]) fun _ _ _ _ => fallible_ok_iff.mp
  rw [hafter] at hrun'
  rw [htables] at hrun''
  generalize w.transcript (syncVersions options identity repoId) s = log at *
  generalize w'.transcript (syncVersions options identity repoId) s' = log' at *
  generalize w''.transcript (syncVersions options identity repoId) s'' = log'' at *
  generalize w.tables (w.run (syncVersions options identity repoId) s).2 = t₁ at *
  generalize w.tables s = t at *
  cases htarget : target? facts t repoId with
  | none =>
    -- the first run changed nothing, so the second one has no target either
    obtain ⟨-, -, huntouched⟩ := syncVersions_untargeted le_rfl hrun htold htarget
    obtain ⟨-, reason, haborted⟩ | ⟨_, _, _, _, _, hsome, -⟩ := syncVersions_told hrun' htold'
    · cases hcompleted.symm.trans haborted
    · rw [huntouched hsound, htarget] at hsome
      cases hsome
  | some target =>
  obtain ⟨repo, tags⟩ := target
  obtain ⟨taken, left, stored, waiting, rfl, rfl, hbegun⟩ :=
    syncVersions_begun le_rfl hrun htold htarget
  obtain ⟨found', resumed, -, htables', hwent'⟩ := syncVersions_completes hrun' htold'
    (htold'.unfailing hsound) ((target?_congr rfl).trans htarget)
  obtain ⟨found'', single, hresult'', htables'', hwent''⟩ := syncVersions_completes hrun'' htold''
    (htold''.unfailing hsound) htarget
  have hrepo := Tables.isSome_repo? (target?_eq_some_iff.mp htarget).1
  have hown : ∀ row ∈ stored, row.repoId = repo.id :=
    fun row hrow => hbegun.own row (List.mem_append_left waiting hrow)
  obtain ⟨found, hfound, hunfailing, hsurveyed⟩ := hbegun.surveyed
  have hfirst := (survey_found hsurveyed ((htold.mono hfound).of_unfailing hunfailing)).imp
    fun _ _ h => h.mono hfound
  have hsecond := (survey_found hwent'.surveyed (htold'.mono hwent'.part)).imp
    fun _ _ h => h.mono hwent'.part
  have hwhole := (survey_found hwent''.surveyed (htold''.mono hwent''.part)).imp
    fun _ _ h => h.mono hwent''.part
  have hfits : t.Fits (stored ++ resumed) := Tables.fits_append_iff.mpr
    ⟨(Tables.fits_append_iff.mp hbegun.fits).1,
      fits_of_apart hrepo hwent'.own hwent'.fresh hwent'.apart⟩
  have hversions' := congrArg Tables.versions htables'
  rw [List.append_assoc] at hversions'
  refine ⟨stored, resumed, single, rfl, hversions', hresult'', congrArg Tables.versions htables'',
    fun row hrow => ?_, fun hkeys => ?_, fun hvariants => ?_⟩
  · exact resumed_has hfirst hsecond hwhole hown hrow
  · rw [hversions']
    exact hfits.nodup hkeys
  · exact resumed_eq hfirst hsecond hwhole hown (hvariants _ _ htarget)

namespace VersionSync.Sample

theorem facts_sound (tags : List Tag) (call : ApiCall) : ∃ value, facts tags call = .ok value := by
  cases call <;> exact ⟨_, rfl⟩

def withVariant : List Tag :=
  [⟨"v1.0", "a", .commit⟩, ⟨"V1.0", "b", .commit⟩, ⟨"v1.1", "c", .commit⟩]

end VersionSync.Sample

/-- After an interruption at the third tag, the second is stored that was passed over before. -/
theorem syncVersions_resumed_stores_all_variant :
    ((Sample.lostAt "v1.1" Sample.withVariant).run (syncVersions Sample.options .app 1)
      Sample.tables).1 = .error (.store (.database "disk I/O error")) ∧
    ∃ stored resumed single : List Version,
      stored.map (·.tagName) = ["v1.0"] ∧ resumed.map (·.tagName) = ["V1.0", "v1.1"] ∧
      single.map (·.tagName) = ["v1.0", "v1.1"] ∧
      ∀ row ∈ single, ∃ row' ∈ stored ++ resumed, row.tagName = row'.tagName := by
  obtain ⟨stored, resumed, single, hstored, hresumed, -, hsingle, hhas, -⟩ :=
    syncVersions_resumed_stores_all (Sample.lostAt "v1.1" Sample.withVariant)
      ((Sample.world Sample.withVariant).failing fun _ => none) (Sample.world Sample.withVariant)
      Sample.options .app 1 Sample.tables
      ((Sample.lostAt "v1.1" Sample.withVariant).run (syncVersions Sample.options .app 1)
        Sample.tables).2
      Sample.tables (Sample.facts Sample.withVariant) (n := 2)
      (Sample.facts_sound Sample.withVariant)
      (fun _ _ _ h => .inl (Surroundings.failing_github h)) rfl
      (fun _ _ _ h => Surroundings.failing_github h) rfl rfl
      (fun _ _ _ h => Surroundings.steady_github h)
  have hfirst : stored.map (·.tagName) = ["v1.0"] := Sample.names_eq hstored rfl
  have hboth : (stored ++ resumed).map (·.tagName) = ["v1.0"] ++ ["V1.0", "v1.1"] :=
    Sample.names_eq hresumed rfl
  rw [List.map_append, hfirst] at hboth
  have hresumed' : resumed.map (·.tagName) = ["V1.0", "v1.1"] := List.append_cancel_left hboth
  refine ⟨rfl, stored, resumed, single, hfirst, hresumed', Sample.names_eq hsingle rfl, ?_⟩
  intro row hrow
  obtain ⟨row', hrow', hsame⟩ := hhas row hrow
  exact ⟨row', hrow', hsame.tagName_eq⟩

end ReleaseTracker
