import ReleaseTracker.Proofs.Sync.VersionTwins

/-! Passes that stop at a tag, because GitHub fails there. Such a pass is one over the tags before,
with the calls about the last tag after it. -/

namespace ReleaseTracker
open GitHub (ApiCall Tag)
open Program StoreRule

namespace VersionSync
variable {rule : StoreRule} {options : SyncOptions} {identity : Identity} {repo : Repo}
  {repoId : Int} {tag : Tag} {tags : List Tag} {staging staging' : Staging} {t t' : Tables}
  {log log' : Log} {facts facts' : GitHub.Facts}

/-! Where a pass stops -/

theorem flush_runs {result : Except Fault Staging}
    (hrun : staging.flush.Runs rule.conduct t log result t') :
    log.requests = [] ∧ log.lookups = [] := by
  unfold Staging.flush at hrun
  split at hrun
  · obtain ⟨rfl, -⟩ := runs_done_iff.mp hrun
    exact ⟨rfl, rfl⟩
  · obtain ⟨e, -, -, rfl⟩ | ⟨count, mid, rest, -, hrest, rfl⟩ := Work.runs_store_bind_iff.mp hrun
    · exact ⟨rfl, rfl⟩
    · obtain ⟨rfl, -⟩ := runs_done_iff.mp hrest
      exact ⟨rfl, rfl⟩

theorem flushIfFull_runs {size : Nat} {result : Except Fault Staging}
    (hrun : (staging.flushIfFull size).Runs rule.conduct t log result t') :
    log.requests = [] ∧ log.lookups = [] := by
  unfold Staging.flushIfFull at hrun
  split_ifs at hrun
  · exact flush_runs hrun
  · obtain ⟨rfl, -⟩ := runs_done_iff.mp hrun
    exact ⟨rfl, rfl⟩

theorem keep_runs {found : Option Version} {stop : Option StopReason}
    (hrun : (keep options staging (.ok found)).Runs rule.conduct t log (.ok (staging', stop)) t') :
    stop = none ∧ log.requests = [] ∧ log.lookups = [] := by
  cases found with
  | none =>
    obtain ⟨rfl, hresult, -⟩ := runs_done_iff.mp hrun
    cases hresult
    exact ⟨rfl, rfl, rfl⟩
  | some row =>
    obtain ⟨e, -, he⟩ | ⟨staging₁, mid, first, rest, hflush, hrest, rfl⟩ := runs_bind_iff.mp hrun
    · cases he
    · obtain ⟨hasked, hlooked⟩ := flushIfFull_runs hflush
      obtain ⟨rfl, hresult, -⟩ := runs_done_iff.mp hrest
      cases hresult
      exact ⟨rfl, by simp [hasked], by simp [hlooked]⟩

/-- A tag is looked up once. The pass stops at it exactly if a call fails, and the tag then adds
nothing. -/
theorem takeTag_stops (hrule : rule ≤ fallible) {stop : Option StopReason}
    (hrun : (takeTag options identity repo staging tag).Runs rule.conduct t log
      (.ok (staging', stop)) t') :
    log.lookups = [tag.name] ∧ ((stop = none ∧ log.Unfailing) ∨
      ∃ call, stop = some call.stopReason ∧ staging' = staging ∧ t' = t ∧ log.FailedLast call ∧
        log.batches = [] ∧ log.announcements = []) := by
  cases takeTag_handled hrule hrun with
  | passedOver => exact ⟨rfl, .inl ⟨rfl, .cons_other rfl .nil⟩⟩
  | @examined stored first last answer _ _ _ hexamine hkept =>
    obtain ⟨hinquiring, -, _, hok, hend⟩ := examine_inquiry.runs hexamine
    obtain rfl := Except.ok.inj hok
    rcases hend with ⟨hunfailing, found, rfl, -⟩ | ⟨call, hfailed, rfl⟩
    · obtain ⟨rfl, hasked, hlooked⟩ := keep_runs hkept
      refine ⟨by simp [hinquiring.lookups, hlooked], .inl ⟨rfl, .cons_other rfl ?_⟩⟩
      exact hunfailing.append (.of_requests hasked)
    · obtain ⟨rfl, hresult, rfl⟩ := runs_done_iff.mp hkept
      cases hresult
      rw [List.append_nil]
      have hlookup : Log.Unfailing
          [⟨.store (.findExistingVersion repo.id tag.name), Except.ok stored⟩] :=
        .cons_other rfl .nil
      refine ⟨by simp [hinquiring.lookups], .inr ⟨call, rfl, rfl, rfl, ?_, ?_, ?_⟩⟩
      · exact hfailed.append hlookup
      · simp [hinquiring.batches]
      · exact hinquiring.announcements

theorem takeTags_went (hrule : rule ≤ fallible)
    (hrun : (takeTags options identity repo staging tags).Runs rule.conduct t log
      (.ok (staging', none)) t') :
    log.lookups = tags.map (·.name) ∧ log.Unfailing := by
  induction tags generalizing staging t log with
  | nil =>
    obtain ⟨rfl, -⟩ := runs_done_iff.mp hrun
    exact ⟨rfl, .nil⟩
  | cons tag rest ih =>
    obtain ⟨e, -, he⟩ | ⟨⟨staging₁, stop₁⟩, t₁, first, last, htag, hrest, rfl⟩ :=
      runs_bind_iff.mp hrun
    · cases he
    obtain ⟨hlookup, ⟨rfl, hunfailing⟩ | ⟨call, rfl, -⟩⟩ := takeTag_stops hrule htag
    · obtain ⟨hlookups, hunfailing'⟩ := ih hrest
      exact ⟨by simp [hlookup, hlookups], hunfailing.append hunfailing'⟩
    · cases (runs_done_iff.mp hrest).2.1

theorem takeTags_broken {result : Except Fault (Staging × Option StopReason)}
    (hrun : (takeTags options identity repo staging tags).Runs rule.conduct t log result t')
    (hbroken : ∀ staging', result ≠ .ok (staging', none)) :
    ∃ (taken : List Tag) (tag : Tag) (left : List Tag) (staging₁ : Staging) (mid : Tables)
      (first last : Log), tags = taken ++ tag :: left ∧ log = first ++ last ∧
        (takeTags options identity repo staging taken).Runs rule.conduct t first
          (.ok (staging₁, none)) mid ∧
        (takeTag options identity repo staging₁ tag).Runs rule.conduct mid last result t' := by
  induction tags generalizing staging t log with
  | nil => exact absurd (runs_done_iff.mp hrun).2.1 (hbroken staging)
  | cons tag rest ih =>
    obtain ⟨e, htag, rfl⟩ | ⟨⟨staging₁, stop₁⟩, t₁, log₁, log₂, htag, hrest, rfl⟩ :=
      runs_bind_iff.mp hrun
    · exact ⟨[], tag, rest, staging, t, [], log, rfl, rfl, .done _ t, htag⟩
    cases stop₁ with
    | none =>
      obtain ⟨taken, broken, left, staging₂, mid, first, last, rfl, rfl, hpass, hlast⟩ := ih hrest
      refine ⟨tag :: taken, broken, left, staging₂, mid, log₁ ++ first, last, rfl,
        (List.append_assoc ..).symm, ?_, hlast⟩
      exact runs_bind_iff.mpr (.inr ⟨_, _, _, _, htag, hpass, rfl⟩)
    | some reason =>
      obtain ⟨rfl, rfl, rfl⟩ := runs_done_iff.mp hrest
      exact ⟨[], tag, rest, staging, t, [], log₁, rfl, by simp, .done _ t, htag⟩

theorem takeTags_stopped (hrule : rule ≤ fallible) {reason : StopReason}
    (hrun : (takeTags options identity repo staging tags).Runs rule.conduct t log
      (.ok (staging', some reason)) t') :
    ∃ (taken : List Tag) (tag : Tag) (left : List Tag) (first last : Log) (call : ApiCall),
      tags = taken ++ tag :: left ∧ log = first ++ last ∧ reason = call.stopReason ∧
        (takeTags options identity repo staging taken).Runs rule.conduct t first
          (.ok (staging', none)) t' ∧
        last.lookups = [tag.name] ∧ last.FailedLast call ∧ last.batches = [] ∧
          last.announcements = [] := by
  obtain ⟨taken, tag, left, staging₁, mid, first, last, htags, hlog, hpass, hlast⟩ :=
    takeTags_broken hrun (by simp)
  obtain ⟨hlookup, ⟨hnone, -⟩ | ⟨call, hreason, rfl, rfl, hfailed⟩⟩ := takeTag_stops hrule hlast
  · cases hnone
  · exact ⟨taken, tag, left, first, last, call, htags, hlog, Option.some.inj hreason, hpass,
      hlookup, hfailed⟩

inductive Cut (flushEvery : Nat) (identity : Identity) (repo : Repo) (t : Tables) (log : Log) :
    List Tag → Except Fault Outcome → Tables → Prop
  | stopped {taken left : List Tag} {tag : Tag} {found before rest : Log} {asker : Identity}
      {call : ApiCall} {e : ApiError} {rows : List Version}
      (order : log = before ++ ⟨.github asker call, Except.error e⟩ :: rest)
      (unfailing : before.Unfailing) (lookups : before.lookups = (taken ++ [tag]).map (·.name))
      (ended : rest.requests = [])
      (went : Went flushEvery identity repo taken t found log rows none) :
      Cut flushEvery identity repo t log (taken ++ tag :: left)
        (.ok (.partly rows.length call.stopReason)) { t with versions := t.versions ++ rows }

theorem Cut.append {flushEvery : Nat} {first : Log} {result : Except Fault Outcome}
    (h : Cut flushEvery identity repo t log tags result t') (hunfailing : first.Unfailing)
    (hlookups : first.lookups = []) (hbatches : first.batches = [])
    (hquiet : first.announcements = []) :
    Cut flushEvery identity repo t (first ++ log) tags result t' := by
  cases h with
  | stopped order unfailing lookups ended went =>
    refine .stopped (by rw [order, List.append_assoc]) (hunfailing.append unfailing) ?_ ended
      (went.append hbatches hquiet)
    rw [Log.lookups_append, hlookups, List.nil_append, lookups]

theorem pursue_tags_cut (hrepo : (t.repo? repo.id).isSome) {result : Except Fault Outcome}
    (hrun : (pursue options identity (.tags repo tags)).Runs reliable.conduct t log result t')
    (hfailed : ¬ log.Unfailing) : Cut options.flushEvery identity repo t log tags result t' := by
  obtain ⟨e, htake, rfl⟩ | ⟨⟨staging, stop⟩, mid, first, rest, htake, hfinish, rfl⟩ :=
    runs_bind_iff.mp hrun
  · cases (takeTags_surveyed reliable_le_fallible .empty hrepo rfl htake).2 with
    | failed hfaulty => exact absurd le_rfl hfaulty
  cases stop with
  | none =>
    cases (takeTags_surveyed reliable_le_fallible .empty hrepo rfl htake).2 with
    | went hgathered hpacked =>
      obtain ⟨hsilent, -⟩ := finish_ends reliable_le_fallible hgathered hrepo hpacked hfinish
      obtain ⟨-, hunfailing⟩ := takeTags_went reliable_le_fallible htake
      exact absurd (hunfailing.append (.of_requests (Log.requests_eq_nil hsilent))) hfailed
  | some reason =>
    obtain ⟨taken, tag, left, first, last, call, rfl, rfl, rfl, hpass, hlookup, hlast, hnone,
      hquiet⟩ := takeTags_stopped reliable_le_fallible htake
    obtain ⟨before, asker, e, rfl, hbefore⟩ := hlast
    -- what comes after the stop ends the pass over the tags before, which leaves the same staging
    obtain ⟨hquiet', hpassed⟩ := takeTags_surveyed reliable_le_fallible .empty hrepo rfl hpass
    cases hpassed with
    | @went _ _ rows _ hgathered hpacked hsurveyed =>
    obtain ⟨hsilent, ⟨hfaulty, -⟩ | ⟨rfl, rfl, hbatches, hannounced⟩⟩ :=
      finish_ends reliable_le_fallible hgathered hrepo hpacked hfinish
    · exact absurd le_rfl hfaulty
    obtain ⟨hlookups, hunfailing⟩ := takeTags_went reliable_le_fallible hpass
    have horder : first ++ (before ++ [⟨.github asker call, Except.error e⟩]) ++ rest =
        first ++ before ++ ⟨.github asker call, Except.error e⟩ :: rest := by simp
    refine .stopped horder (hunfailing.append hbefore) ?_ (Log.requests_eq_nil hsilent)
      ⟨?_, hsurveyed, hgathered.own, hgathered.fresh, hgathered.apart, ?_, ?_⟩
    · simpa [hlookups] using hlookup
    · rw [List.append_assoc]
      exact List.Subset.trans (Log.inquiries_subset first) (List.subset_append_left _ _)
    · rw [Log.batches_append, Log.batches_append, hnone, List.append_nil]
      exact hbatches
    · exact hannounced.append (by rw [Log.announcements_append, hquiet', hquiet]; rfl)

theorem syncVersions_cut {result : Except Fault Outcome}
    (hrun : (syncVersions options identity repoId).Runs reliable.conduct t log result t')
    (htold : log.ToldBy facts) (hlooked : log.lookups ≠ []) (hfailed : ¬ log.Unfailing) :
    ∃ repo tags, target? facts t repoId = some (repo, tags) ∧
      Cut options.flushEvery identity repo t log tags result t' := by
  cases syncVersions_synced reliable_le_fallible hrun with
  | lost hfaulty => exact absurd le_rfl hfaulty
  | @pursued aimed first rest _ _ haim hpursued =>
  have hsuits := aim_suits haim
  obtain ⟨hinquiring, -, _, hok, hend⟩ := aim_inquiry.runs haim
  obtain rfl := Except.ok.inj hok
  cases aimed with
  | ended outcome =>
    obtain ⟨rfl, -⟩ := runs_done_iff.mp hpursued
    exact absurd (by simp [hinquiring.lookups]) hlooked
  | refused repo e =>
    obtain ⟨-, -, -, -, hlookups, -⟩ := refused_ends reliable_le_fallible hpursued
    exact absurd (by simp [hinquiring.lookups, hlookups]) hlooked
  | tags repo tags =>
    obtain ⟨hunfailing, -⟩ := hend.resolve_right fun ⟨_, _, _, hnone⟩ => by cases hnone
    obtain ⟨⟨repo', tags⟩, htarget, rfl⟩ :=
      Option.map_eq_some_iff.mp (aim_target? haim (htold.mono (by simp))).symm
    obtain rfl := Option.some.inj ((target?_eq_some_iff.mp htarget).1.symm.trans hsuits)
    have hcut := pursue_tags_cut (Tables.isSome_repo? hsuits) hpursued fun hrest =>
      hfailed (.cons_other rfl (hunfailing.append hrest))
    refine ⟨_, _, htarget, ?_⟩
    rw [← List.cons_append]
    exact hcut.append (.cons_other rfl hunfailing) (by simp [hinquiring.lookups])
      (by simp [hinquiring.batches]) hinquiring.announcements

/-! Passes over the same tags -/

theorem Went.alike {flushEvery : Nat} {found found' : Log} {rows rows' : List Version}
    {stop stop' : Option StopReason}
    (h : Went flushEvery identity repo tags t found log rows stop)
    (h' : Went flushEvery identity repo tags t found' log' rows' stop')
    (htold : log.ToldBy facts) (htold' : log'.ToldBy facts')
    (hsame : ∀ call, call.isListing = false → facts' call = facts call) :
    List.Forall₂ (SameRow (log.Showed log')) rows rows' ∧ stop = stop' ∧
      List.Forall₂ (List.Forall₂ (SameRow (log.Showed log'))) log.batches log'.batches ∧
        log.announcements = log'.announcements := by
  have hreplied : found.RepliedBy (fun _ _ call => facts' call) [] :=
    (htold.mono h.part).repliedBy fun asker call hasked =>
      (hsame call ((survey_inquiry.runs h.surveyed).2.1 asker call hasked)).symm
  have hreplied' : found'.RepliedBy (fun _ _ call => facts' call) [] :=
    (htold'.mono h'.part).repliedBy fun _ _ _ => rfl
  obtain ⟨-, hrows, hstop⟩ := survey_alike h.surveyed h'.surveyed hreplied hreplied'
  have hrows := hrows.imp fun _ _ hrow => hrow.mono (Log.showed_mono h.part h'.part)
  refine ⟨hrows, hstop, ?_, ?_⟩
  · rw [h.batches, h'.batches]
    exact (pack_related hrows).batches
  · rw [h.announced.announcements, h'.announced.announcements, hrows.length_eq]

structure Relisted (facts facts' : GitHub.Facts) (fullName : String) (tags : List Tag) : Prop where
  calls : facts' .remainingCalls = facts .remainingCalls
  tags : tagsOf? facts' fullName = some tags
  same : ∀ call, call.isListing = false → facts' call = facts call

end VersionSync

open VersionSync
variable {σ τ : Type}

/-- A pass that a failing call cuts off at a tag stores and announces what a pass does that has only
the tags before to take. -/
theorem syncVersions_stopped_eq_truncated (w : Surroundings reliable σ)
    (w' : Surroundings reliable τ) (options : SyncOptions) (identity : Identity) (repoId : Int)
    (s : σ) (s' : τ) {facts facts' : GitHub.Facts} {repo : Repo} {tags : List Tag} {k : Nat}
    {before after : Log} {asker : Identity} {call : ApiCall} {e : ApiError}
    (hrepo : (w.tables s).repo? repoId = some repo) (htables : w'.tables s' = w.tables s)
    (htags : tagsOf? facts repo.fullName = some tags)
    (hrelisted : Relisted facts facts' repo.fullName (tags.take k))
    (htold : (w.transcript (syncVersions options identity repoId) s).ToldBy facts)
    (htold' : (w'.transcript (syncVersions options identity repoId) s').ToldBy facts')
    (hfailed : w.transcript (syncVersions options identity repoId) s =
      before ++ ⟨.github asker call, Except.error e⟩ :: after)
    (hreached : before.lookups.length = k + 1) :
    before.lookups = (tags.take (k + 1)).map (·.name) ∧ after.requests = [] ∧
    ∃ added added' : List Version,
      (w.run (syncVersions options identity repoId) s).1 =
        .ok (.partly added.length call.stopReason) ∧
      (w'.run (syncVersions options identity repoId) s').1 = .ok (.completed added.length) ∧
      w.tables (w.run (syncVersions options identity repoId) s).2 =
        { w.tables s with versions := (w.tables s).versions ++ added } ∧
      w'.tables (w'.run (syncVersions options identity repoId) s').2 =
        { w.tables s with versions := (w.tables s).versions ++ added' } ∧
      List.Forall₂ (SameRow (Log.Showed (w.transcript (syncVersions options identity repoId) s)
        (w'.transcript (syncVersions options identity repoId) s'))) added added' ∧
      List.Forall₂ (List.Forall₂ (SameRow (Log.Showed
        (w.transcript (syncVersions options identity repoId) s)
        (w'.transcript (syncVersions options identity repoId) s'))))
        (w.transcript (syncVersions options identity repoId) s).batches
        (w'.transcript (syncVersions options identity repoId) s').batches ∧
      (w.transcript (syncVersions options identity repoId) s).announcements =
        (w'.transcript (syncVersions options identity repoId) s').announcements := by
  have hrun := w.runs (syncVersions options identity repoId) s
  have hrun' := w'.runs (syncVersions options identity repoId) s'
  rw [htables] at hrun'
  generalize w.transcript (syncVersions options identity repoId) s = log at *
  generalize w'.transcript (syncVersions options identity repoId) s' = log' at *
  have hmem : ⟨.github asker call, Except.error e⟩ ∈ log := by simp [hfailed]
  have hlooked : log.lookups ≠ [] := by
    intro hnone
    simp [hfailed] at hnone
    simp [hnone] at hreached
  obtain ⟨repo₁, tags₁, htarget, hcut⟩ :=
    syncVersions_cut hrun htold hlooked fun h => h.not_mem hmem
  obtain ⟨hrepo₁, hopen, htags₁⟩ := target?_eq_some_iff.mp htarget
  obtain rfl := Option.some.inj (hrepo₁.symm.trans hrepo)
  obtain rfl := Option.some.inj (htags₁.symm.trans htags)
  have htarget' : target? facts' (w.tables s) repoId = some (repo₁, tags₁.take k) :=
    target?_eq_some_iff.mpr ⟨hrepo, hrelisted.calls ▸ hopen, hrelisted.tags⟩
  obtain ⟨hnone, -⟩ | ⟨_, _, found', rows', stop, htarget₁, hwent', hresult', htables'⟩ :=
    syncVersions_told hrun' htold'
  · cases htarget'.symm.trans hnone
  cases Option.some.inj (htarget'.symm.trans htarget₁)
  generalize (w.run (syncVersions options identity repoId) s).1 = result at *
  generalize w.tables (w.run (syncVersions options identity repoId) s).2 = t₁ at *
  cases hcut with
  | @stopped taken left tag found before₁ rest asker₁ call₁ e₁ rows order unfailing lookups ended
      hwent =>
  -- only one call failed, so this is the one
  obtain ⟨rfl, heq, rfl⟩ := (List.append_cons_inj_of_notMem unfailing.not_mem
    (Log.Unfailing.of_requests ended).not_mem).mp (order.symm.trans hfailed)
  cases heq
  obtain rfl : k = taken.length := by simpa [lookups] using hreached.symm
  rw [List.take_left] at hwent'
  obtain ⟨hrows, rfl, hbatches, hannounced⟩ := hwent.alike hwent' htold htold' hrelisted.same
  refine ⟨?_, ended, rows, rows', rfl, ?_, rfl, htables', hrows, hbatches, hannounced⟩
  · rw [lookups, List.take_length_add_append]
    rfl
  · rw [hresult', hrows.length_eq]
    rfl

namespace VersionSync.Sample

def truncated : List Tag := stopped.take 4

theorem relisted :
    Relisted (stoppingFacts stopped) (stoppingFacts truncated) repo.fullName truncated where
  calls := rfl
  tags := rfl
  same call hcall := by
    have hsame : facts truncated call = facts stopped call := by
      cases call with
      | allTags => cases hcall
      | _ => rfl
    unfold stoppingFacts
    rw [hsame]

def stoppingAt (tags : List Tag) (now : Instant) : Surroundings reliable Tables :=
  .steady (stoppingFacts tags) now

end VersionSync.Sample

theorem syncVersions_stopped_eq_truncated_fifth :
    ((Sample.stoppingAt Sample.stopped Sample.time).run (syncVersions Sample.inPairs .app 1)
      Sample.tables).1 = .ok (.partly 3 .remoteFailure) ∧
    ((Sample.stoppingAt Sample.truncated Sample.later).run (syncVersions Sample.inPairs .app 1)
      Sample.tables).1 = .ok (.completed 3) ∧
    ((Sample.stoppingAt Sample.stopped Sample.time).transcript (syncVersions Sample.inPairs .app 1)
      Sample.tables).lookups = ["v1.0", "V1.0", "v1.1", "v1.2", "v1.3"] := by
  have hpartly : ((Sample.stoppingAt Sample.stopped Sample.time).run
      (syncVersions Sample.inPairs .app 1) Sample.tables).1 = .ok (.partly 3 .remoteFailure) := rfl
  have hfailed : (Sample.stoppingAt Sample.stopped Sample.time).transcript
      (syncVersions Sample.inPairs .app 1) Sample.tables =
    ((Sample.stoppingAt Sample.stopped Sample.time).transcript
      (syncVersions Sample.inPairs .app 1) Sample.tables).take 21 ++
    ⟨.github .app (.commit "o/r" "bad"), Except.error (.transport "connection reset")⟩ ::
    ((Sample.stoppingAt Sample.stopped Sample.time).transcript
      (syncVersions Sample.inPairs .app 1) Sample.tables).drop 22 := rfl
  obtain ⟨-, -, added, added', hresult, hresult', -⟩ :=
    syncVersions_stopped_eq_truncated (Sample.stoppingAt Sample.stopped Sample.time)
      (Sample.stoppingAt Sample.truncated Sample.later) Sample.inPairs .app 1 Sample.tables
      Sample.tables rfl rfl rfl Sample.relisted (fun _ _ _ h => Surroundings.steady_github h)
      (fun _ _ _ h => Surroundings.steady_github h) hfailed rfl
  have hcount : added.length = 3 :=
    (Outcome.partly.inj (Except.ok.inj (hresult.symm.trans hpartly))).1
  rw [hcount] at hresult'
  exact ⟨hpartly, hresult', rfl⟩

end ReleaseTracker
