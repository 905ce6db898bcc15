import ReleaseTracker.Proofs.Sync.StoreFailure
import ReleaseTracker.Proofs.Sync.VersionCut

/-! Passes that end early, because the store fails somewhere or GitHub at a tag. Of the rows that
such a pass has found, the first are stored, in whole batches, and the others are lost. -/

namespace ReleaseTracker
open GitHub (ApiCall Tag)
open Program StoreRule

namespace Log
variable {log log' : Log} {facts : GitHub.Facts}

/-- GitHub kept to the facts, but calls about a tag may have failed. -/
def ToldOrFailed (facts : GitHub.Facts) (log : Log) : Prop :=
  ∀ (identity : Identity) (call : ApiCall) (answer : Except ApiError call.Result),
    ⟨.github identity call, answer⟩ ∈ log →
      answer = facts call ∨ call.isListing = false ∧ ∃ e, answer = .error e

theorem ToldBy.orFailed (h : log.ToldBy facts) : log.ToldOrFailed facts :=
  fun identity call answer hmem => .inl (h identity call answer hmem)

theorem ToldBy.unfailing (h : log.ToldBy facts) (hsound : ∀ call, ∃ value, facts call = .ok value) :
    log.Unfailing := by
  intro identity call answer hmem
  rw [h identity call answer hmem]
  exact hsound call

theorem ToldOrFailed.mono (h : log.ToldOrFailed facts) (hsub : log' ⊆ log) :
    log'.ToldOrFailed facts := fun identity call answer hmem => h identity call answer (hsub hmem)

theorem ToldOrFailed.of_unfailing (h : log.ToldOrFailed facts) (hunfailing : log.Unfailing) :
    log.ToldBy facts := by
  intro identity call answer hmem
  rcases h identity call answer hmem with htold | ⟨-, e, rfl⟩
  · exact htold
  · exact absurd hmem hunfailing.not_mem

theorem ToldOrFailed.of_listing (h : log.ToldOrFailed facts)
    (hlisting : ∀ identity call, (identity, call) ∈ log.requests → call.isListing = true) :
    log.ToldBy facts := by
  intro identity call answer hmem
  rcases h identity call answer hmem with htold | ⟨hother, -⟩
  · exact htold
  · rw [hlisting identity call (mem_requests hmem)] at hother
    cases hother

/-- No call on the store failed. -/
def Stored (log : Log) : Prop := ∀ call e, ⟨.store call, Except.error e⟩ ∉ log

theorem Inquiring.stored (h : log.Inquiring) : log.Stored := by
  intro call e hmem
  cases h _ hmem

theorem Stored.mem_append_iff (h : log.Stored) {call : StoreCall} {e : StoreError} :
    ⟨.store call, Except.error e⟩ ∈ log ++ log' ↔ ⟨.store call, Except.error e⟩ ∈ log' := by
  rw [List.mem_append]
  exact or_iff_right (h call e)

end Log

theorem Log.Stored.runs_reliable {α : Type} {work : Work α} {t t' : Tables} {log : Log}
    {result : Except Fault α} (hstored : log.Stored)
    (h : work.Runs fallible.conduct t log result t') :
    work.Runs reliable.conduct t log result t' := by
  refine h.of_log fun event hevent s s' hanswered => ?_
  obtain ⟨query, answer⟩ := event
  cases query with
  | store call =>
    cases answer with
    | error e => exact absurd hevent (hstored call e)
    | ok value => exact fallible_ok_iff.mp hanswered
  | _ => exact hanswered

theorem Work.Strict.stored {α : Type} {rule : StoreRule} {p : Work α} {t t' : Tables} {log : Log}
    {a : α} (h : p.Strict) (hrun : p.Runs rule.conduct t log (.ok a) t') : log.Stored := by
  intro call e hmem
  cases h.result_eq hrun hmem

namespace VersionSync
variable {rule : StoreRule} {options : SyncOptions} {identity : Identity} {repo : Repo}
  {repoId : Int} {tag : Tag} {tags : List Tag} {staging staging' : Staging} {start t t' : Tables}
  {log log' : Log} {rows : List Version} {batches : List (List Version)} {facts : GitHub.Facts}
  {e : Fault}

/-! Where the store fails -/

theorem Gathered.flush_failed (hrule : rule ≤ fallible) (h : Gathered repo start t staging rows)
    (hrepo : (start.repo? repo.id).isSome)
    (hrun : staging.flush.Runs rule.conduct t log (.error e) t') :
    t' = t ∧ ∃ e', log = [⟨.store (.createVersions staging.pending), Except.error e'⟩] := by
  cases h.flushed hrule hrepo hrun with
  | failed => exact ⟨rfl, _, rfl⟩

theorem finish_failed (hrule : rule ≤ fallible) (h : Gathered repo start t staging rows)
    (hrepo : (start.repo? repo.id).isSome) {stop : Option StopReason}
    (hrun : (finish repo staging stop).Runs rule.conduct t log (.error e) t') :
    t' = t ∧ ∃ e', log = [⟨.store (.createVersions staging.pending), Except.error e'⟩] := by
  obtain ⟨_, hflush, -⟩ | ⟨staging', mid, first, rest, -, hrest, -⟩ := runs_bind_iff.mp hrun
  · exact h.flush_failed hrule hrepo hflush
  · cases (announceNews_runs hrest).1

theorem finish_lookups {stop : Option StopReason} {result : Except Fault Outcome}
    (hrun : (finish repo staging stop).Runs rule.conduct t log result t') : log.lookups = [] := by
  obtain ⟨_, hflush, -⟩ | ⟨staging', mid, first, rest, hflush, hrest, rfl⟩ :=
    runs_bind_iff.mp hrun
  · exact (flush_runs hflush).2
  rw [Log.lookups_append, (flush_runs hflush).2, List.nil_append]
  unfold announceNews at hrest
  split_ifs at hrest
  · rw [bind_assoc] at hrest
    obtain ⟨accepted, last, hlast, rfl⟩ := Work.runs_announce_bind_iff.mp hrest
    obtain ⟨rfl, -⟩ := runs_done_iff.mp hlast
    rfl
  · obtain ⟨rfl, -⟩ := runs_done_iff.mp hrest
    rfl

inductive TagFailed (identity : Identity) (repo : Repo) (start t : Tables) (staging : Staging)
    (rows : List Version) (tag : Tag) : Log → Prop
  | lookup (e : StoreError) : TagFailed identity repo start t staging rows tag
      [⟨.store (.findExistingVersion repo.id tag.name), Except.error e⟩]
  | batch {row : Version} {found : Log} (stored : Bool) (e : StoreError)
      (inquiring : found.Inquiring) (unfailing : found.Unfailing)
      (surveyed : (surveyTag identity repo start rows tag).Runs anyhow () found
        (.ok (rows ++ [row], none)) ())
      (gathered : Gathered repo start t (staging.stage row) (rows ++ [row])) :
      TagFailed identity repo start t staging rows tag
        (⟨.store (.findExistingVersion repo.id tag.name), Except.ok stored⟩ :: (found ++
          [⟨.store (.createVersions (staging.pending ++ [row])), Except.error e⟩]))

theorem takeTag_failed (hrule : rule ≤ fallible) (h : Gathered repo start t staging rows)
    (hrepo : (start.repo? repo.id).isSome)
    (hrun : (takeTag options identity repo staging tag).Runs rule.conduct t log (.error e) t') :
    t' = t ∧ TagFailed identity repo start t staging rows tag log := by
  cases takeTag_handled hrule hrun with
  | lost => exact ⟨rfl, .lookup _⟩
  | @examined stored found last answer _ _ hunknown hexamine hkept =>
    obtain ⟨hinquiring, -, _, hok, hend⟩ := examine_inquiry.runs hexamine
    obtain rfl := Except.ok.inj hok
    match answer with
    | .error reason => cases (runs_done_iff.mp hkept).2.1
    | .ok none => cases (runs_done_iff.mp hkept).2.1
    | .ok (some row) =>
      obtain ⟨hunfailing, -⟩ := hend.resolve_right fun ⟨_, _, h⟩ => by cases h
      have hstage := h.stage_examined hunknown hexamine
      obtain ⟨_, hflush, -⟩ | ⟨_, _, _, _, -, hdone, -⟩ := runs_bind_iff.mp hkept
      · unfold Staging.flushIfFull at hflush
        split_ifs at hflush
        · obtain ⟨rfl, e', rfl⟩ := hstage.flush_failed hrule hrepo hflush
          refine ⟨rfl, .batch stored e' hinquiring hunfailing ?_ hstage⟩
          unfold surveyTag
          rw [← h.passesOver_eq, if_neg hunknown]
          exact runs_bind_iff.mpr (.inr ⟨_, (), found, [], hexamine.anyhow, .done _ (), by simp⟩)
        · cases (runs_done_iff.mp hflush).2.1
      · cases (runs_done_iff.mp hdone).2.1

/-! How far a pass came -/

/-- A pass was through with some of the tags and may have begun another. Of the rows that it found,
the first were stored and the others waited. -/
structure Begun (flushEvery : Nat) (identity : Identity) (repo : Repo) (t : Tables)
    (taken left : List Tag) (log : Log) (result : Except Fault Outcome)
    (stored waiting : List Version) : Prop where
  surveyed : ∃ found ⊆ log, found.Unfailing ∧
    (survey identity repo t [] taken).Runs anyhow () found (.ok (stored ++ waiting, none)) ()
  lookups : log.lookups = taken.map (·.name) ∨
    ∃ tag ∈ left.head?, log.lookups = (taken ++ [tag]).map (·.name)
  own : ∀ row ∈ stored ++ waiting, row.repoId = repo.id
  fits : t.Fits (stored ++ waiting)
  batch : ∀ rows e, ⟨.store (.createVersions rows), Except.error e⟩ ∈ log → rows = waiting
  whole : ∀ e, result = .error e → max 1 flushEvery ∣ stored.length
  settled : ∀ outcome, result = .ok outcome → waiting = []

theorem takeTags_reached (hrule : rule ≤ fallible) {stop : Option StopReason}
    (hrun : (takeTags options identity repo staging tags).Runs rule.conduct t log
      (.ok (staging', stop)) t') :
    ∃ taken left first, tags = taken ++ left ∧ first ⊆ log ∧
      (takeTags options identity repo staging taken).Runs rule.conduct t first
        (.ok (staging', none)) t' ∧
      (log.lookups = taken.map (·.name) ∨
        ∃ tag ∈ left.head?, log.lookups = (taken ++ [tag]).map (·.name)) := by
  cases stop with
  | none =>
    exact ⟨tags, [], log, (List.append_nil tags).symm, List.Subset.refl log, hrun,
      .inl (takeTags_went hrule hrun).1⟩
  | some reason =>
    obtain ⟨taken, tag, left, first, last, call, rfl, rfl, -, hpass, hlookup, -⟩ :=
      takeTags_stopped hrule hrun
    refine ⟨taken, tag :: left, first, rfl, List.subset_append_left first last, hpass, .inr ?_⟩
    refine ⟨tag, rfl, ?_⟩
    rw [Log.lookups_append, (takeTags_went hrule hpass).1, hlookup, List.map_append]
    rfl

theorem Gathered.stored_whole (h : Gathered repo start t staging rows) {flushEvery : Nat}
    (hpacked : pack flushEvery rows = ⟨batches, staging.pending⟩) :
    ∃ stored, rows = stored ++ staging.pending ∧
      t = { start with versions := start.versions ++ stored } ∧
        max 1 flushEvery ∣ stored.length := by
  obtain ⟨stored, hrows, ht⟩ := h.stored
  refine ⟨stored, hrows, ht, ?_⟩
  have hentries := pack_entries flushEvery rows
  have hclosed := dvd_length_closed flushEvery rows
  rw [hpacked] at hentries hclosed
  rwa [List.append_cancel_right (hentries.trans hrows)] at hclosed

theorem Gathered.begun_of_failed (h : Gathered repo start t staging rows) {first : Log}
    (hrepo : (start.repo? repo.id).isSome) {flushEvery : Nat}
    (hpacked : pack flushEvery rows = ⟨batches, staging.pending⟩) (hstored : first.Stored)
    (hunfailing : first.Unfailing) (hlookups : first.lookups = tags.map (·.name))
    (hsurveyed : (survey identity repo start [] tags).Runs anyhow () first.inquiries
      (.ok (rows, none)) ())
    {rest : List Tag} (hfailed : TagFailed identity repo start t staging rows tag log) (e : Fault) :
    ∃ taken left stored waiting, tags ++ tag :: rest = taken ++ left ∧
      t = { start with versions := start.versions ++ stored } ∧
        Begun flushEvery identity repo start taken left (first ++ log) (.error e) stored
          waiting := by
  obtain ⟨stored, hrows, ht, hwhole⟩ := h.stored_whole hpacked
  have hinquiries := hunfailing.mono (Log.inquiries_subset first)
  cases hfailed with
  | lookup e' =>
    refine ⟨tags, tag :: rest, stored, staging.pending, rfl, ht, ?_, .inr ⟨tag, rfl, ?_⟩,
      hrows ▸ h.own, hrows ▸ h.fits hrepo, ?_, fun _ _ => hwhole, by simp⟩
    · refine ⟨_, ?_, hinquiries, hrows ▸ hsurveyed⟩
      exact List.subset_append_of_subset_left _ (Log.inquiries_subset first)
    · simp [hlookups]
    · intro batch e hmem
      cases List.mem_singleton.mp (hstored.mem_append_iff.mp hmem)
  | @batch row found known e' hinquiring hfound hsurveyTag hstage =>
    have hrows' : rows ++ [row] = stored ++ (staging.pending ++ [row]) := by
      rw [hrows, List.append_assoc]
    refine ⟨tags ++ [tag], rest, stored, staging.pending ++ [row], by simp, ht, ?_, .inl ?_,
      hrows' ▸ hstage.own, hrows' ▸ hstage.fits hrepo, ?_, fun _ _ => hwhole, by simp⟩
    · refine ⟨first.inquiries ++ found, ?_, hinquiries.append hfound, ?_⟩
      · refine List.append_subset.mpr ⟨?_, ?_⟩
        · exact List.subset_append_of_subset_left _ (Log.inquiries_subset first)
        · intro event hevent
          simp [hevent]
      · rw [survey_append, ← hrows']
        have hsingle : (survey identity repo start rows [tag]).Runs anyhow () found
            (.ok (rows ++ [row], none)) () :=
          runs_bind_iff.mpr (.inr ⟨_, (), found, [], hsurveyTag, .done _ (), by simp⟩)
        exact runs_bind_iff.mpr (.inr ⟨_, (), _, found, hsurveyed, hsingle, rfl⟩)
    · simp [hlookups, hinquiring.lookups]
    · intro batch e hmem
      rcases List.mem_cons.mp (hstored.mem_append_iff.mp hmem) with heq | hmem
      · cases heq
      · cases List.mem_singleton.mp (hinquiring.stored.mem_append_iff.mp hmem)
        rfl

theorem Gathered.begun_of_finish (hrule : rule ≤ fallible)
    (h : Gathered repo start t staging rows) {first : Log} (hrepo : (start.repo? repo.id).isSome)
    {flushEvery : Nat} (hpacked : pack flushEvery rows = ⟨batches, staging.pending⟩)
    (hstored : log.Stored) (hfirst : first ⊆ log) (hunfailing : first.Unfailing)
    {left : List Tag} (hlookups : log.lookups = tags.map (·.name) ∨
      ∃ tag ∈ left.head?, log.lookups = (tags ++ [tag]).map (·.name))
    (hsurveyed : (survey identity repo start [] tags).Runs anyhow () first.inquiries
      (.ok (rows, none)) ())
    {stop : Option StopReason} {result : Except Fault Outcome}
    (hfinish : (finish repo staging stop).Runs rule.conduct t log' result t') :
    ∃ stored waiting, t' = { start with versions := start.versions ++ stored } ∧
      Begun flushEvery identity repo start tags left (log ++ log') result stored waiting := by
  have hfound : first.inquiries ⊆ log ++ log' :=
    List.subset_append_of_subset_left _ (List.Subset.trans (Log.inquiries_subset first) hfirst)
  have hinquiries := hunfailing.mono (Log.inquiries_subset first)
  rw [← List.append_nil log.lookups, ← finish_lookups hfinish, ← Log.lookups_append] at hlookups
  cases result with
  | error e =>
    obtain ⟨rfl, e', rfl⟩ := finish_failed hrule h hrepo hfinish
    obtain ⟨stored, hrows, ht, hwhole⟩ := h.stored_whole hpacked
    refine ⟨stored, staging.pending, ht, ⟨_, hfound, hinquiries, hrows ▸ hsurveyed⟩, hlookups,
      hrows ▸ h.own, hrows ▸ h.fits hrepo, ?_, fun _ _ => hwhole, by simp⟩
    intro batch e hmem
    cases List.mem_singleton.mp (hstored.mem_append_iff.mp hmem)
    rfl
  | ok outcome =>
    obtain ⟨-, ⟨-, ⟨_, he⟩, -⟩ | ⟨-, rfl, -⟩⟩ := finish_ends hrule h hrepo hpacked hfinish
    · cases he
    have hrows : rows = rows ++ [] := (List.append_nil rows).symm
    refine ⟨rows, [], rfl, ⟨_, hfound, hinquiries, hrows ▸ hsurveyed⟩, hlookups, hrows ▸ h.own,
      hrows ▸ h.fits hrepo, ?_, by simp, fun _ _ => rfl⟩
    intro batch e hmem
    exact absurd (hstored.mem_append_iff.mp hmem) (finish_strict.stored hfinish _ e)

theorem pursue_tags_begun (hrule : rule ≤ fallible) (hrepo : (t.repo? repo.id).isSome)
    {result : Except Fault Outcome}
    (hrun : (pursue options identity (.tags repo tags)).Runs rule.conduct t log result t') :
    ∃ taken left stored waiting, tags = taken ++ left ∧
      t' = { t with versions := t.versions ++ stored } ∧
        Begun options.flushEvery identity repo t taken left log result stored waiting := by
  obtain ⟨e, htake, rfl⟩ | ⟨⟨staging, stop⟩, mid, first, rest, htake, hfinish, rfl⟩ :=
    runs_bind_iff.mp hrun
  · obtain ⟨taken, tag, left, staging, mid, first, last, rfl, rfl, hpass, hlast⟩ :=
      takeTags_broken htake (by simp)
    obtain ⟨hlookups, hunfailing⟩ := takeTags_went hrule hpass
    cases (takeTags_surveyed hrule .empty hrepo rfl hpass).2 with
    | went hgathered hpacked hsurveyed =>
    obtain ⟨rfl, hfailed⟩ := takeTag_failed hrule hgathered hrepo hlast
    exact hgathered.begun_of_failed hrepo hpacked (takeTags_strict.stored hpass) hunfailing hlookups
      hsurveyed hfailed e
  · obtain ⟨taken, left, reached, rfl, hreached, hpass, hlookups⟩ := takeTags_reached hrule htake
    cases (takeTags_surveyed hrule .empty hrepo rfl hpass).2 with
    | went hgathered hpacked hsurveyed =>
    obtain ⟨stored, waiting, htables, hbegun⟩ := hgathered.begun_of_finish hrule hrepo hpacked
      (takeTags_strict.stored htake) hreached (takeTags_went hrule hpass).2 hlookups hsurveyed
      hfinish
    exact ⟨taken, left, stored, waiting, rfl, htables, hbegun⟩

theorem Begun.append {flushEvery : Nat} {taken left : List Tag} {first : Log}
    {result : Except Fault Outcome} {stored waiting : List Version}
    (h : Begun flushEvery identity repo t taken left log result stored waiting)
    (hlookups : first.lookups = []) (hstored : first.Stored) :
    Begun flushEvery identity repo t taken left (first ++ log) result stored waiting where
  surveyed := by
    obtain ⟨found, hfound, hrest⟩ := h.surveyed
    exact ⟨found, List.subset_append_of_subset_right first hfound, hrest⟩
  lookups := by
    rw [Log.lookups_append, hlookups, List.nil_append]
    exact h.lookups
  own := h.own
  fits := h.fits
  batch rows e hmem := h.batch rows e (hstored.mem_append_iff.mp hmem)
  whole := h.whole
  settled := h.settled

theorem Begun.nothing {flushEvery : Nat} {left : List Tag} {result : Except Fault Outcome}
    (hlookups : log.lookups = []) (hbatches : log.batches = []) :
    Begun flushEvery identity repo t [] left log result [] [] where
  surveyed := ⟨[], List.nil_subset log, .nil, .done _ ()⟩
  lookups := .inl hlookups
  own := by simp
  fits := Tables.fits_nil t
  batch rows e hmem := by
    have hrows : rows ∈ log.batches := List.mem_filterMap.mpr ⟨_, hmem, rfl⟩
    rw [hbatches] at hrows
    cases hrows
  whole _ _ := Nat.dvd_zero _
  settled _ _ := rfl

/-! The whole synchronisation -/

theorem aim_told {s s' : Tables} {aimed : Aim}
    (hrun : (aim identity (t.repo? repoId)).Runs rule.conduct s log (.ok aimed) s')
    (htold : log.ToldOrFailed facts) :
    log.Inquiring ∧ log.ToldBy facts ∧ aimed.tags? = (target? facts t repoId).map (·.2) := by
  obtain ⟨hinquiring, hlisting, -⟩ := aim_inquiry.runs hrun
  have htold' := htold.of_listing hlisting
  exact ⟨hinquiring, htold', aim_target? hrun htold'⟩

theorem syncVersions_begun (hrule : rule ≤ fallible) {result : Except Fault Outcome}
    (hrun : (syncVersions options identity repoId).Runs rule.conduct t log result t')
    (htold : log.ToldOrFailed facts) (htarget : target? facts t repoId = some (repo, tags)) :
    ∃ taken left stored waiting, tags = taken ++ left ∧
      t' = { t with versions := t.versions ++ stored } ∧
        Begun options.flushEvery identity repo t taken left log result stored waiting := by
  have hsame : t = { t with versions := t.versions ++ [] } := by rw [List.append_nil]
  cases syncVersions_synced hrule hrun with
  | lost => exact ⟨[], tags, [], [], rfl, hsame, .nothing rfl rfl⟩
  | @pursued aimed first rest _ _ haim hpursued =>
  obtain ⟨hinquiring, -, htags⟩ := aim_told haim (htold.mono (by simp))
  rw [htarget, Option.map_some] at htags
  have hsuits := aim_suits haim
  have hlookups : Log.lookups first = [] := hinquiring.lookups
  cases aimed with
  | ended outcome =>
    obtain ⟨rfl, rfl, rfl⟩ := runs_done_iff.mp hpursued
    refine ⟨[], tags, [], [], rfl, hsame, .nothing ?_ ?_⟩
    · simp [hlookups]
    · simp [hinquiring.batches]
  | refused repo e => cases htags
  | tags repo' tags' =>
    obtain rfl := Option.some.inj htags
    obtain rfl := Option.some.inj ((target?_eq_some_iff.mp htarget).1.symm.trans hsuits)
    obtain ⟨taken, left, stored, waiting, htaken, htables, hbegun⟩ :=
      pursue_tags_begun hrule (Tables.isSome_repo? hsuits) hpursued
    refine ⟨taken, left, stored, waiting, htaken, htables, ?_⟩
    rw [← List.cons_append]
    refine hbegun.append (by simp [hlookups]) fun call e hmem => ?_
    rcases List.mem_cons.mp hmem with heq | hmem
    · cases heq
    · exact hinquiring.stored _ e hmem

theorem syncVersions_untargeted (hrule : rule ≤ fallible) {result : Except Fault Outcome}
    (hrun : (syncVersions options identity repoId).Runs rule.conduct t log result t')
    (htold : log.ToldOrFailed facts) (htarget : target? facts t repoId = none) :
    t'.versions = t.versions ∧ log.batches = [] ∧
      ((∀ call, ∃ value, facts call = .ok value) → t' = t) := by
  cases syncVersions_synced hrule hrun with
  | lost => exact ⟨rfl, rfl, fun _ => rfl⟩
  | @pursued aimed first rest _ _ haim hpursued =>
  obtain ⟨hinquiring, htoldFirst, htags⟩ := aim_told haim (htold.mono (by simp))
  rw [htarget, Option.map_none] at htags
  have hbatches : Log.batches first = [] := hinquiring.batches
  cases aimed with
  | ended outcome =>
    obtain ⟨rfl, rfl, rfl⟩ := runs_done_iff.mp hpursued
    exact ⟨rfl, by simp [hbatches], fun _ => rfl⟩
  | refused repo e =>
    obtain ⟨hversions, -, -, hnone, -⟩ := refused_ends hrule hpursued
    refine ⟨hversions, by simp [hbatches, hnone], fun hsound => ?_⟩
    obtain ⟨-, -, _, hok, ⟨-, hnever⟩ | ⟨_, hfailed, -⟩⟩ := aim_unrefused.runs haim
    · exact absurd (Except.ok.inj hok).symm (hnever repo e)
    · exact absurd (htoldFirst.unfailing hsound) hfailed.not_unfailing
  | tags repo tags => cases htags

/-! Next to a run in which the store did not fail -/

theorem survey_prefix_sameRow {taken left : List Tag} {found found' : Log} {rows' : List Version}
    {stop : Option StopReason}
    (hrun : (survey identity repo start [] taken).Runs anyhow () found (.ok (rows, none)) ())
    (hrun' : (survey identity repo start [] (taken ++ left)).Runs anyhow () found'
      (.ok (rows', stop)) ())
    (htold : found.ToldBy facts) (htold' : found'.ToldBy facts) :
    List.Forall₂ (SameRow (found.Showed found')) rows (rows'.take rows.length) := by
  rw [survey_append] at hrun'
  obtain ⟨e, -, he⟩ | ⟨⟨rows₁, stop₁⟩, ⟨⟩, first, last, hfirst, hlast, rfl⟩ :=
    runs_bind_iff.mp hrun'
  · cases he
  have hreplied : found.RepliedBy (fun _ _ call => facts call) [] :=
    htold.repliedBy fun _ _ _ => rfl
  have hreplied' : Log.RepliedBy (fun _ _ call => facts call) [] first :=
    (htold'.mono (List.subset_append_left _ _)).repliedBy fun _ _ _ => rfl
  obtain ⟨-, hrows, rfl⟩ := survey_alike hrun hfirst hreplied hreplied'
  obtain ⟨later, hlater⟩ := survey_extends hlast
  dsimp only at hlater
  rw [← hlater, hrows.length_eq, List.take_left]
  exact hrows.imp fun _ _ hrow => hrow.mono
    (Log.showed_mono (List.Subset.refl found) (List.subset_append_left first last))

/-- The rows that a run comes to with the tags that it is through with. It may have begun the next
one. -/
def Staged (facts : GitHub.Facts) (t : Tables) (repoId : Int) (log : Log) (rows : List Version) :
    Prop :=
  ∀ repo tags, target? facts t repoId = some (repo, tags) → ∃ k,
    (log.lookups = (tags.take k).map (·.name) ∨ log.lookups = (tags.take (k + 1)).map (·.name)) ∧
      rows.map (·.tagName) = (newcomers (fun tag => Text.lowerCase tag.name)
        (isMissing facts t repo) [] (tags.take k)).map (·.name)

theorem Begun.staged {flushEvery : Nat} {taken left : List Tag} {result : Except Fault Outcome}
    {stored waiting : List Version}
    (h : Begun flushEvery identity repo t taken left log result stored waiting)
    (htold : log.ToldOrFailed facts)
    (htarget : target? facts t repoId = some (repo, taken ++ left)) :
    Staged facts t repoId log (stored ++ waiting) := by
  intro repo' tags' htarget'
  obtain ⟨rfl, rfl⟩ := Prod.mk.inj (Option.some.inj (htarget.symm.trans htarget'))
  obtain ⟨found, hfound, hunfailing, hsurveyed⟩ := h.surveyed
  refine ⟨taken.length, ?_, ?_⟩
  · rw [List.take_left, List.take_length_add_append]
    refine h.lookups.imp_right ?_
    rintro ⟨tag, htag, hlookups⟩
    rw [hlookups, List.take_one, Option.mem_def.mp htag]
    rfl
  · rw [List.take_left]
    exact ComesTo.names_eq (survey_found hsurveyed ((htold.mono hfound).of_unfailing hunfailing))

end VersionSync

open VersionSync
variable {σ τ : Type}

/-- A run that an error of the store ends has found some of the first rows of a run that meets none.
It has stored whole batches of them, and nothing of the others is there, be they of the batch that
failed or not. -/
theorem syncVersions_failed_keeps_batches (w : Surroundings fallible σ)
    (w' : Surroundings reliable τ) (options : SyncOptions) (identity : Identity) (repoId : Int)
    (s : σ) (s' : τ) (facts : GitHub.Facts) {e : StoreError}
    (htables : w'.tables s' = w.tables s)
    (htold : (w.transcript (syncVersions options identity repoId) s).ToldBy facts)
    (htold' : (w'.transcript (syncVersions options identity repoId) s').ToldBy facts)
    (hfailed : (w.run (syncVersions options identity repoId) s).1 = .error (.store e)) :
    ∃ stored waiting added : List Version,
      (w.tables (w.run (syncVersions options identity repoId) s).2).versions =
        (w.tables s).versions ++ stored ∧
      (w'.tables (w'.run (syncVersions options identity repoId) s').2).versions =
        (w.tables s).versions ++ added ∧
      max 1 options.flushEvery ∣ stored.length ∧
      List.Forall₂ (SameRow (Log.Showed (w.transcript (syncVersions options identity repoId) s)
          (w'.transcript (syncVersions options identity repoId) s')))
        (stored ++ waiting) (added.take (stored ++ waiting).length) ∧
      Staged facts (w.tables s) repoId (w.transcript (syncVersions options identity repoId) s)
        (stored ++ waiting) ∧
      (∀ rows e, ⟨.store (.createVersions rows), Except.error e⟩ ∈
        w.transcript (syncVersions options identity repoId) s → rows = waiting) ∧
      (∀ row ∈ waiting ++ added.drop stored.length, row.repoId = repoId ∧
        (w.tables (w.run (syncVersions options identity repoId) s).2).hasVersion repoId
          row.tagName = false) := by
  have hrun := w.runs (syncVersions options identity repoId) s
  have hrun' := w'.runs (syncVersions options identity repoId) s'
  rw [htables] at hrun'
  cases htarget : target? facts (w.tables s) repoId with
  | none =>
    obtain ⟨hversions, hbatches, -⟩ := syncVersions_untargeted le_rfl hrun htold.orFailed htarget
    obtain ⟨hversions', -⟩ :=
      syncVersions_untargeted reliable_le_fallible hrun' htold'.orFailed htarget
    refine ⟨[], [], [], by simp [hversions], by simp [hversions'], Nat.dvd_zero _, .nil, ?_, ?_,
      by simp⟩
    · intro repo tags hsome
      cases htarget.symm.trans hsome
    · intro rows e hmem
      have hrows : rows ∈ (w.transcript (syncVersions options identity repoId) s).batches :=
        List.mem_filterMap.mpr ⟨_, hmem, rfl⟩
      rw [hbatches] at hrows
      cases hrows
  | some target =>
  obtain ⟨repo, tags⟩ := target
  obtain ⟨taken, left, stored, waiting, rfl, hafter, hbegun⟩ :=
    syncVersions_begun le_rfl hrun htold.orFailed htarget
  obtain ⟨found', added, stop, hwent, -, hafter'⟩ := syncVersions_targeted hrun' htold' htarget
  obtain ⟨found, hfound, -, hsurveyed⟩ := hbegun.surveyed
  have hprefix := (survey_prefix_sameRow hsurveyed hwent.surveyed (htold.mono hfound)
    (htold'.mono hwent.part)).imp fun _ _ hrow => hrow.mono (Log.showed_mono hfound hwent.part)
  have hrepo := (target?_eq_some_iff.mp htarget).1
  refine ⟨stored, waiting, added, congrArg Tables.versions hafter, congrArg Tables.versions hafter',
    hbegun.whole _ hfailed, hprefix, hbegun.staged htold.orFailed htarget, hbegun.batch, ?_⟩
  have hlater := (Tables.fits_append_iff.mp hbegun.fits).2
  -- what the other run goes on with fits behind its own first rows, which have the same tags
  have hstored := List.forall₂_take stored.length hprefix
  rw [List.take_left, List.take_take, List.length_append, Nat.min_eq_left (Nat.le_add_right _ _)]
    at hstored
  have hfits := fits_of_apart (Tables.isSome_repo? hrepo) hwent.own hwent.fresh hwent.apart
  rw [← List.take_append_drop stored.length added] at hfits
  have hlater' := (Tables.fits_append_iff.mp hfits).2
  intro row hrow
  rw [hafter]
  rcases List.mem_append.mp hrow with hrow | hrow
  · have hown := hbegun.own row (List.mem_append_right stored hrow)
    have hid := hown.trans (Tables.repo?_id hrepo)
    exact ⟨hid, hid ▸ hlater.fresh row hrow⟩
  · have hid := (hwent.own row (List.mem_of_mem_drop hrow)).trans (Tables.repo?_id hrepo)
    refine ⟨hid, ?_⟩
    rw [SameRow.hasVersion_eq hstored]
    exact hid ▸ hlater'.fresh row hrow

namespace VersionSync.Sample

def lostAt (name : String) (tags : List Tag) : Surroundings fallible Tables :=
  (world tags).failing fun call =>
    if call = .findExistingVersion 1 name then some (.database "disk I/O error") else none

theorem names_eq {after rows : List Version} {names : List String}
    (h : after = tables.versions ++ rows)
    (hnames : after.map (·.tagName) = ["v0.9"] ++ names) : rows.map (·.tagName) = names := by
  rw [h, List.map_append] at hnames
  exact List.append_cancel_left hnames

end VersionSync.Sample

theorem syncVersions_failed_keeps_batches_fifth : ∃ stored added : List Version,
    ((Sample.lostAt "v1.3" Sample.stopped).run (syncVersions Sample.inPairs .app 1)
      Sample.tables).2.versions = Sample.tables.versions ++ stored ∧
    ((Sample.world Sample.stopped).run (syncVersions Sample.inPairs .app 1)
      Sample.tables).2.versions = Sample.tables.versions ++ added ∧
    stored.map (·.tagName) = ["v1.0", "v1.1"] ∧
    added.map (·.tagName) = ["v1.0", "v1.1", "v1.2", "v1.3", "v1.4"] ∧
    ∀ row ∈ added.drop stored.length, ((Sample.lostAt "v1.3" Sample.stopped).run
      (syncVersions Sample.inPairs .app 1) Sample.tables).2.hasVersion 1 row.tagName = false := by
  have hfailed : ((Sample.lostAt "v1.3" Sample.stopped).run (syncVersions Sample.inPairs .app 1)
      Sample.tables).1 = .error (.store (.database "disk I/O error")) := rfl
  obtain ⟨stored, waiting, added, hstored, hadded, -, -, -, -, habsent⟩ :=
    syncVersions_failed_keeps_batches (Sample.lostAt "v1.3" Sample.stopped)
      (Sample.world Sample.stopped) Sample.inPairs .app 1 Sample.tables Sample.tables
      (Sample.facts Sample.stopped) rfl (fun _ _ _ h => Surroundings.failing_github h)
      (fun _ _ _ h => Surroundings.steady_github h) hfailed
  refine ⟨stored, added, hstored, hadded, Sample.names_eq hstored rfl, Sample.names_eq hadded rfl,
    fun row hrow => ?_⟩
  exact (habsent row (List.mem_append_right waiting hrow)).2

end ReleaseTracker
