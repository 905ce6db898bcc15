import ReleaseTracker.Proofs.Sync.VersionTally

/-! Two synchronisations of versions that start alike and get the same replies from GitHub. The
size of the batches decides when rows are stored, and so what the store tells of a name in the
middle of a pass, but no more than this can be seen of it. -/

namespace ReleaseTracker
open GitHub (ApiCall Tag)
open Program StoreRule

namespace VersionSync
variable {options options' : SyncOptions} {identity : Identity} {repo : Repo} {repoId : Int}
  {tags : List Tag} {t t₁ t₁' : Tables} {log log' : Log} {replies : GitHub.Replies}
  {earlier : List (Identity × ApiCall)} {result result' : Except Fault Outcome}

structure Alike (t : Tables) (log log' : Log) (result result' : Except Fault Outcome)
    (t₁ t₁' : Tables) : Prop where
  results : result = result'
  announcements : log.announcements = log'.announcements
  rows : ∃ rows rows' : List Version, t₁.versions = t.versions ++ rows ∧
    t₁'.versions = t.versions ++ rows' ∧ List.Forall₂ (SameRow (log.Showed log')) rows rows'

theorem Alike.append {first first' : Log} (h : Alike t log log' result result' t₁ t₁')
    (hfirst : first.announcements = []) (hfirst' : first'.announcements = []) :
    Alike t (first ++ log) (first' ++ log') result result' t₁ t₁' := by
  obtain ⟨rows, rows', hrows, hrows', hsame⟩ := h.rows
  refine ⟨h.results, ?_, rows, rows', hrows, hrows', hsame.imp fun _ _ hrow => hrow.mono ?_⟩
  · rw [Log.announcements_append, Log.announcements_append, hfirst, hfirst', h.announcements]
  · exact Log.showed_mono (List.subset_append_right _ _) (List.subset_append_right _ _)

theorem refused_twins {e : ApiError} (hrun : (refused repo e).Runs reliable.conduct t log result t₁)
    (hrun' : (refused repo e).Runs reliable.conduct t log' result' t₁') :
    log.requests = log'.requests ∧ Alike t log log' result result' t₁ t₁' := by
  obtain ⟨hversions, hquiet, hasked, -, -, hend⟩ := refused_ends reliable_le_fallible hrun
  obtain ⟨hversions', hquiet', hasked', -, -, hend'⟩ := refused_ends reliable_le_fallible hrun'
  have hresult := hend.resolve_left fun h => h.1 le_rfl
  have hresult' := hend'.resolve_left fun h => h.1 le_rfl
  exact ⟨hasked.trans hasked'.symm, hresult.trans hresult'.symm, hquiet.trans hquiet'.symm, [], [],
    by rw [hversions, List.append_nil], by rw [hversions', List.append_nil], .nil⟩

theorem pursue_tags_twins (hrepo : (t.repo? repo.id).isSome)
    (hrun : (pursue options identity (.tags repo tags)).Runs reliable.conduct t log result t₁)
    (hrun' : (pursue options' identity (.tags repo tags)).Runs reliable.conduct t log' result' t₁')
    (hreplied : log.RepliedBy replies earlier) (hreplied' : log'.RepliedBy replies earlier) :
    log.requests = log'.requests ∧ Alike t log log' result result' t₁ t₁' := by
  cases pursue_ended reliable_le_fallible hrepo hrun with
  | failed hfaulty => exact absurd le_rfl hfaulty
  | @went rows stop hwent =>
  cases pursue_ended reliable_le_fallible hrepo hrun' with
  | failed hfaulty => exact absurd le_rfl hfaulty
  | @went rows' stop' hwent' =>
  obtain ⟨hrequests, hrows, rfl⟩ := survey_alike hwent.surveyed hwent'.surveyed
    (Log.repliedBy_inquiries.mpr hreplied) (Log.repliedBy_inquiries.mpr hreplied')
  rw [Log.requests_inquiries, Log.requests_inquiries] at hrequests
  have hrows := hrows.imp fun _ _ hrow =>
    hrow.mono (Log.showed_mono (Log.inquiries_subset log) (Log.inquiries_subset log'))
  refine ⟨hrequests, by rw [hrows.length_eq], ?_, rows, rows', rfl, rfl, hrows⟩
  rw [hwent.announced.announcements, hwent'.announced.announcements, hrows.length_eq]

theorem pursue_twins {aimed : Aim} (hsuits : aimed.Suits (t.repo? repoId))
    (hrun : (pursue options identity aimed).Runs reliable.conduct t log result t₁)
    (hrun' : (pursue options' identity aimed).Runs reliable.conduct t log' result' t₁')
    (hreplied : log.RepliedBy replies earlier) (hreplied' : log'.RepliedBy replies earlier) :
    log.requests = log'.requests ∧ Alike t log log' result result' t₁ t₁' := by
  cases aimed with
  | ended outcome =>
    obtain ⟨rfl, rfl, rfl⟩ := runs_done_iff.mp hrun
    obtain ⟨rfl, rfl, rfl⟩ := runs_done_iff.mp hrun'
    exact ⟨rfl, rfl, rfl, [], [], (List.append_nil _).symm, (List.append_nil _).symm, .nil⟩
  | refused repo e => exact refused_twins hrun hrun'
  | tags repo tags =>
    exact pursue_tags_twins (Tables.isSome_repo? hsuits) hrun hrun' hreplied hreplied'

theorem syncVersions_twins
    (hrun : (syncVersions options identity repoId).Runs reliable.conduct t log result t₁)
    (hrun' : (syncVersions options' identity repoId).Runs reliable.conduct t log' result' t₁')
    (hreplied : log.RepliedBy replies []) (hreplied' : log'.RepliedBy replies []) :
    log.requests = log'.requests ∧ Alike t log log' result result' t₁ t₁' := by
  cases syncVersions_synced reliable_le_fallible hrun with
  | lost hfaulty => exact absurd le_rfl hfaulty
  | @pursued aimed first rest _ _ haim hpursued =>
  cases syncVersions_synced reliable_le_fallible hrun' with
  | lost hfaulty => exact absurd le_rfl hfaulty
  | @pursued aimed' first' rest' _ _ haim' hpursued' =>
  rw [Log.repliedBy_cons rfl, Log.repliedBy_append] at hreplied hreplied'
  have htwins : Work.Twins (fun _ _ => True) Eq (aim identity (t.repo? repoId))
    (aim identity (t.repo? repoId)) := aim_twins
  obtain ⟨hsame, _, _, haimed, haimed', heq⟩ :=
    htwins.runs haim haim' hreplied.1 hreplied'.1 fun _ _ _ _ => trivial
  obtain rfl := Except.ok.inj haimed
  obtain rfl := Except.ok.inj haimed'
  subst heq
  have hquiet := (aim_inquiry.runs haim).1.announcements
  have hquiet' := (aim_inquiry.runs haim').1.announcements
  rw [← hsame] at hreplied'
  obtain ⟨hrequests, halike⟩ :=
    pursue_twins (aim_suits haim) hpursued hpursued' hreplied.2 hreplied'.2
  refine ⟨by simp [hsame, hrequests], ?_⟩
  rw [← List.cons_append, ← List.cons_append]
  exact halike.append hquiet hquiet'

theorem syncVersions_wellSized
    (hrun : (syncVersions options identity repoId).Runs reliable.conduct t log result t₁) :
    WellSized options.flushEvery log.batches := by
  cases syncVersions_tallied reliable_le_fallible hrun with
  | failed hfaulty => exact absurd le_rfl hfaulty
  | aborted _ hbatches =>
    rw [hbatches]
    exact pack_wellSized options.flushEvery []
  | counted _ _ _ hbatches =>
    rw [hbatches]
    exact pack_wellSized options.flushEvery _

end VersionSync

open VersionSync
variable {σ τ : Type}

/-- Under a reliable store, no size of the batches shows in the calls on GitHub, the outcome, the
rows that were added, or what is announced. The batches are of the size. -/
theorem syncVersions_batch_size_unseen (w : Surroundings reliable σ) (w' : Surroundings reliable τ)
    (options options' : SyncOptions) (identity : Identity) (repoId : Int) (s : σ) (s' : τ)
    (replies : GitHub.Replies) (htables : w'.tables s' = w.tables s)
    (hreplied : (w.transcript (syncVersions options identity repoId) s).RepliedBy replies [])
    (hreplied' : (w'.transcript (syncVersions options' identity repoId) s').RepliedBy replies []) :
    (w.transcript (syncVersions options identity repoId) s).requests =
        (w'.transcript (syncVersions options' identity repoId) s').requests ∧
      (w.run (syncVersions options identity repoId) s).1 =
        (w'.run (syncVersions options' identity repoId) s').1 ∧
      (w.transcript (syncVersions options identity repoId) s).announcements =
        (w'.transcript (syncVersions options' identity repoId) s').announcements ∧
      (∃ added added' : List Version,
        (w.tables (w.run (syncVersions options identity repoId) s).2).versions =
          (w.tables s).versions ++ added ∧
        (w'.tables (w'.run (syncVersions options' identity repoId) s').2).versions =
          (w.tables s).versions ++ added' ∧
        List.Forall₂ (SameRow (Log.Showed (w.transcript (syncVersions options identity repoId) s)
          (w'.transcript (syncVersions options' identity repoId) s'))) added added') ∧
      WellSized options.flushEvery
        (w.transcript (syncVersions options identity repoId) s).batches ∧
      WellSized options'.flushEvery
        (w'.transcript (syncVersions options' identity repoId) s').batches := by
  have hrun := w.runs (syncVersions options identity repoId) s
  have hrun' := w'.runs (syncVersions options' identity repoId) s'
  rw [htables] at hrun'
  obtain ⟨hrequests, halike⟩ := syncVersions_twins hrun hrun' hreplied hreplied'
  exact ⟨hrequests, halike.results, halike.announcements, halike.rows, syncVersions_wellSized hrun,
    syncVersions_wellSized hrun'⟩

namespace VersionSync.Sample

def repliesUntil (calls : Nat) : GitHub.Replies := fun asked _ call =>
  if asked.length < calls then facts stopped call else .error (.transport "connection reset")

def later : Instant := ⟨1700000600, 0⟩

def unbatched : SyncOptions := { SyncOptions.default 1 with flushEvery := 0 }

end VersionSync.Sample

theorem syncVersions_batch_size_unseen_stopped :
    ((Surroundings.heeding (Sample.repliesUntil 13) Sample.time).transcript
      (syncVersions Sample.unbatched .app 1) (Sample.tables, [])).batches.map List.length =
        [1, 1, 1] ∧
    ((Surroundings.heeding (Sample.repliesUntil 13) Sample.later).transcript
      (syncVersions Sample.inPairs .app 1) (Sample.tables, [])).batches.map List.length = [2, 1] ∧
    ((Surroundings.heeding (Sample.repliesUntil 13) Sample.time).run
      (syncVersions Sample.unbatched .app 1) (Sample.tables, [])).1 =
        .ok (.partly 3 .remoteFailure) ∧
    ((Surroundings.heeding (Sample.repliesUntil 13) Sample.later).run
      (syncVersions Sample.inPairs .app 1) (Sample.tables, [])).1 =
        .ok (.partly 3 .remoteFailure) := by
  obtain ⟨-, hresults, -⟩ := syncVersions_batch_size_unseen
    (Surroundings.heeding (Sample.repliesUntil 13) Sample.time)
    (Surroundings.heeding (Sample.repliesUntil 13) Sample.later) Sample.unbatched Sample.inPairs
    .app 1 (Sample.tables, []) (Sample.tables, []) (Sample.repliesUntil 13) rfl
    (Surroundings.heeding_repliedBy _ (Sample.tables, []))
    (Surroundings.heeding_repliedBy _ (Sample.tables, []))
  exact ⟨rfl, rfl, rfl, hresults.symm⟩

end ReleaseTracker
