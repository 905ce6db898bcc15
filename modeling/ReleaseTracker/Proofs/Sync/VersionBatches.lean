import ReleaseTracker.Proofs.Lists.Batches
import ReleaseTracker.Proofs.Sync.VersionAim
import ReleaseTracker.Proofs.Sync.VersionSurvey

/-! A pass stores what its survey finds, batch by batch. If the store fails, the batches before that
stay, and nothing is announced. -/

namespace ReleaseTracker
open GitHub (Tag)
open Program StoreRule

/-- The repository was announced as the last thing of all if it has news, and else not at all. -/
def Log.Announced (log : Log) (repoId : Int) (count : Nat) : Prop :=
  if 0 < count then ∃ before accepted, log = before ++ [⟨.announce [repoId], accepted⟩] ∧
    Log.announcements before = []
  else log.announcements = []

theorem Log.Announced.announcements {log : Log} {repoId : Int} {count : Nat}
    (h : log.Announced repoId count) :
    log.announcements = if 0 < count then [[repoId]] else [] := by
  unfold Log.Announced at h
  split_ifs at h ⊢
  · obtain ⟨before, accepted, rfl, hbefore⟩ := h
    simp [hbefore]
  · exact h

theorem Log.Announced.append {first rest : Log} {repoId : Int} {count : Nat}
    (h : rest.Announced repoId count) (hfirst : first.announcements = []) :
    Log.Announced (first ++ rest) repoId count := by
  unfold Log.Announced at h ⊢
  split_ifs at h ⊢
  · obtain ⟨before, accepted, rfl, hbefore⟩ := h
    exact ⟨first ++ before, accepted, (List.append_assoc ..).symm, by simp [hfirst, hbefore]⟩
  · simp [hfirst, h]

namespace VersionSync
variable {rule : StoreRule} {options : SyncOptions} {identity : Identity} {repo : Repo} {tag : Tag}
  {tags : List Tag} {staging : Staging} {start t t' : Tables} {log : Log} {rows : List Version}
  {batches : List (List Version)}

theorem Gathered.isTaken_iff (h : Gathered repo start t staging rows) (name : String) :
    isTaken rows name = true ↔ Text.lowerCase name ∈ staging.names := by
  rw [h.mem_names, isTaken, List.any_eq_true]
  simp only [beq_iff_eq]

theorem Gathered.passesOver_eq (h : Gathered repo start t staging rows) (name : String) :
    (t.hasVersion repo.id name || staging.holds name) =
      (start.hasVersion repo.id name || isTaken rows name) := by
  rw [Bool.eq_iff_iff, h.passesOver_iff, Bool.or_eq_true, h.isTaken_iff]

theorem Gathered.own_stored (h : Gathered repo start t staging rows) :
    ∃ flushed, t = { start with versions := start.versions ++ flushed } ∧
      ∀ row ∈ flushed, row.repoId = repo.id := by
  obtain ⟨flushed, hrows, ht⟩ := h.stored
  exact ⟨flushed, ht, fun row hrow => h.own row (hrows ▸ List.mem_append_left _ hrow)⟩

/-! Storing what waits -/

inductive Flushed (rule : StoreRule) (repo : Repo) (start t : Tables) (staging : Staging)
    (rows : List Version) : Log → Except Fault Staging → Tables → Prop
  | idle (empty : staging.pending = []) : Flushed rule repo start t staging rows [] (.ok staging) t
  | failed {e : StoreError} (faulty : ¬ rule ≤ reliable) :
      Flushed rule repo start t staging rows
        [⟨.store (.createVersions staging.pending), Except.error e⟩] (.error (.store e)) t
  | stored {count : Nat} {t' : Tables} (waiting : staging.pending ≠ [])
      (gathered : Gathered repo start t' { staging with pending := [] } rows) :
      Flushed rule repo start t staging rows
        [⟨.store (.createVersions staging.pending), Except.ok count⟩]
        (.ok { staging with pending := [] }) t'

theorem Gathered.flushed (hrule : rule ≤ fallible) (h : Gathered repo start t staging rows)
    (hrepo : (start.repo? repo.id).isSome) {result : Except Fault Staging}
    (hrun : staging.flush.Runs rule.conduct t log result t') :
    Flushed rule repo start t staging rows log result t' := by
  unfold Staging.flush at hrun
  split at hrun
  · obtain ⟨rfl, rfl, rfl⟩ := runs_done_iff.mp hrun
    exact .idle ‹_›
  rename_i hsome
  obtain ⟨e, hcreate, rfl, rfl⟩ | ⟨count, mid, rest, hcreate, hrest, rfl⟩ :=
    Work.runs_store_bind_iff.mp hrun
  · obtain rfl := eq_of_fallible_error (hrule _ _ _ _ hcreate) fun draft hcall => by cases hcall
    refine .failed fun hreliable => ?_
    have hdone := hreliable _ _ _ _ hcreate
    rw [reliable_createVersions_iff (h.insert_pending hrepo)] at hdone
    cases hdone.1
  · have hdone := fallible_ok_iff.mp (hrule _ _ _ _ hcreate)
    rw [reliable_createVersions_iff (h.insert_pending hrepo)] at hdone
    obtain ⟨-, rfl⟩ := hdone
    obtain ⟨rfl, rfl, rfl⟩ := runs_done_iff.mp hrest
    exact .stored (hsome ·) ⟨⟨rows, (List.append_nil rows).symm, rfl⟩, h.created, h.names, h.own,
      h.fresh, h.apart⟩

theorem Gathered.flushedIfFull (hrule : rule ≤ fallible) {waiting : List Version} {row : Version}
    (h : Gathered repo start t staging (rows ++ [row])) (hrepo : (start.repo? repo.id).isSome)
    (hpending : staging.pending = waiting ++ [row]) {flushEvery : Nat}
    (hpacked : pack flushEvery rows = ⟨batches, waiting⟩) {result : Except Fault Staging}
    (hrun : (staging.flushIfFull flushEvery).Runs rule.conduct t log result t') :
    log.announcements = [] ∧ log.inquiries = [] ∧
      ((¬ rule ≤ reliable ∧ t' = t ∧ ∃ e, result = .error (.store e)) ∨
        ∃ staging', result = .ok staging' ∧ Gathered repo start t' staging' (rows ++ [row]) ∧
          pack flushEvery (rows ++ [row]) = ⟨batches ++ log.batches, staging'.pending⟩) := by
  unfold Staging.flushIfFull at hrun
  rw [pack_append_singleton, hpacked, Packing.add, ← hpending]
  split_ifs at hrun ⊢ with hfull
  · have hflushed := h.flushed hrule hrepo hrun
    cases hflushed with
    | idle hempty => simp [hpending] at hempty
    | failed hfaulty => exact ⟨rfl, rfl, .inl ⟨hfaulty, rfl, _, rfl⟩⟩
    | stored _ hgathered => exact ⟨rfl, rfl, .inr ⟨_, rfl, hgathered, by simp⟩⟩
  · obtain ⟨rfl, rfl, rfl⟩ := runs_done_iff.mp hrun
    exact ⟨rfl, rfl, .inr ⟨_, rfl, h, by simp⟩⟩

/-! Taking a tag -/

inductive Handled (rule : StoreRule) (options : SyncOptions) (identity : Identity) (repo : Repo)
    (t : Tables) (staging : Staging) (tag : Tag) :
    Log → Except Fault (Staging × Option StopReason) → Tables → Prop
  | lost {e : StoreError} (faulty : ¬ rule ≤ reliable) :
      Handled rule options identity repo t staging tag
        [⟨.store (.findExistingVersion repo.id tag.name), Except.error e⟩] (.error (.store e)) t
  | passedOver {stored : Bool}
      (known : (t.hasVersion repo.id tag.name || staging.holds tag.name) = true) :
      Handled rule options identity repo t staging tag
        [⟨.store (.findExistingVersion repo.id tag.name), Except.ok stored⟩] (.ok (staging, none)) t
  | examined {stored : Bool} {first last : Log} {answer : Except StopReason (Option Version)}
      {result : Except Fault (Staging × Option StopReason)} {t' : Tables}
      (unknown : ¬ (t.hasVersion repo.id tag.name || staging.holds tag.name) = true)
      (examined : (examine identity repo tag).Runs rule.conduct t first (.ok answer) t)
      (kept : (keep options staging answer).Runs rule.conduct t last result t') :
      Handled rule options identity repo t staging tag
        (⟨.store (.findExistingVersion repo.id tag.name), Except.ok stored⟩ :: (first ++ last))
        result t'

theorem takeTag_handled (hrule : rule ≤ fallible)
    {result : Except Fault (Staging × Option StopReason)}
    (hrun : (takeTag options identity repo staging tag).Runs rule.conduct t log result t') :
    Handled rule options identity repo t staging tag log result t' := by
  rw [takeTag_eq] at hrun
  obtain ⟨e, hfind, rfl, rfl⟩ | ⟨stored, mid, rest, hfind, hrest, rfl⟩ :=
    Work.runs_store_bind_iff.mp hrun
  · obtain rfl := eq_of_fallible_error (hrule _ _ _ _ hfind) fun draft hcall => by cases hcall
    refine .lost fun hreliable => ?_
    have hdone := hreliable _ _ _ _ hfind
    simp at hdone
  obtain ⟨hstored, rfl⟩ := reliable_findExistingVersion_iff.mp
    (fallible_ok_iff.mp (hrule _ _ _ _ hfind))
  rw [Except.ok.inj hstored] at hrest
  split_ifs at hrest with hknown
  · obtain ⟨rfl, rfl, rfl⟩ := runs_done_iff.mp hrest
    exact .passedOver hknown
  obtain ⟨e, hexamine, rfl⟩ | ⟨answer, mid, first, last, hexamine, hlast, rfl⟩ :=
    runs_bind_iff.mp hrest
  · obtain ⟨-, -, _, hok, -⟩ := examine_inquiry.runs hexamine
    cases hok
  obtain ⟨hinquiring, -⟩ := examine_inquiry.runs hexamine
  obtain rfl := Work.eq_of_inquiring hexamine hinquiring
  exact .examined hknown hexamine hlast

theorem Gathered.stage_examined {σ : Type} {conduct : Conduct Task σ} {s s' : σ} {row : Version}
    (h : Gathered repo start t staging rows)
    (hunknown : ¬ (t.hasVersion repo.id tag.name || staging.holds tag.name) = true)
    (hexamine : (examine identity repo tag).Runs conduct s log (.ok (.ok (some row))) s') :
    Gathered repo start t (staging.stage row) (rows ++ [row]) := by
  obtain ⟨-, -, _, hok, hend⟩ := examine_inquiry.runs hexamine
  obtain rfl := Except.ok.inj hok
  obtain ⟨-, _, hfound, hrow⟩ := hend.resolve_right fun ⟨_, _, h⟩ => by cases h
  obtain ⟨hown, hname⟩ := hrow row (Except.ok.inj hfound).symm
  obtain ⟨hfresh, hnew⟩ := not_or.mp (mt (h.passesOver_iff tag.name).mpr hunknown)
  have hfresh : start.hasVersion repo.id tag.name = false := by simpa using hfresh
  exact h.stage hown (hname ▸ hfresh) (hname ▸ hnew)

/-! Following the survey -/

/-- A part of a pass that the store failed in, or that went as a part of the survey goes. The rows
from before it are packed already. -/
inductive Surveyed (rule : StoreRule) (flushEvery : Nat) (repo : Repo) (start : Tables)
    (batches : List (List Version)) (rows : List Version)
    (part : Work (List Version × Option StopReason)) (log : Log) :
    Except Fault (Staging × Option StopReason) → Tables → Prop
  | failed {e : StoreError} {staging' : Staging} {added : List Version} {t' : Tables}
      (faulty : ¬ rule ≤ reliable) (gathered : Gathered repo start t' staging' (rows ++ added)) :
      Surveyed rule flushEvery repo start batches rows part log (.error (.store e)) t'
  | went {staging' : Staging} {stop : Option StopReason} {added : List Version} {t' : Tables}
      (gathered : Gathered repo start t' staging' (rows ++ added))
      (packed : pack flushEvery (rows ++ added) = ⟨batches ++ log.batches, staging'.pending⟩)
      (surveyed : part.Runs anyhow () log.inquiries (.ok (rows ++ added, stop)) ()) :
      Surveyed rule flushEvery repo start batches rows part log (.ok (staging', stop)) t'

theorem takeTag_surveyed (hrule : rule ≤ fallible) (h : Gathered repo start t staging rows)
    (hrepo : (start.repo? repo.id).isSome)
    (hpacked : pack options.flushEvery rows = ⟨batches, staging.pending⟩)
    {result : Except Fault (Staging × Option StopReason)}
    (hrun : (takeTag options identity repo staging tag).Runs rule.conduct t log result t') :
    log.announcements = [] ∧ Surveyed rule options.flushEvery repo start batches rows
      (surveyTag identity repo start rows tag) log result t' := by
  have hsame : Gathered repo start t staging (rows ++ []) := by rwa [List.append_nil]
  unfold surveyTag
  rw [← h.passesOver_eq]
  cases takeTag_handled hrule hrun with
  | lost hfaulty => exact ⟨rfl, .failed hfaulty hsame⟩
  | passedOver hknown =>
    rw [if_pos hknown]
    exact ⟨rfl, .went hsame (by simpa using hpacked) (by rw [List.append_nil]; exact .done _ ())⟩
  | @examined stored first last answer _ _ hunknown hexamine hkept =>
    rw [if_neg hunknown]
    obtain ⟨hinquiring, -⟩ := examine_inquiry.runs hexamine
    have hquiet : Log.announcements first = [] := hinquiring.announcements
    match answer with
    | .error reason =>
      obtain ⟨rfl, rfl, rfl⟩ := runs_done_iff.mp hkept
      refine ⟨by simp [hquiet], .went hsame ?_ ?_⟩
      · simpa [hinquiring.batches] using hpacked
      · exact runs_bind_iff.mpr (.inr ⟨_, (), first, [], hexamine.anyhow, by simp,
          by simp [hinquiring.inquiries]⟩)
    | .ok none =>
      obtain ⟨rfl, rfl, rfl⟩ := runs_done_iff.mp hkept
      refine ⟨by simp [hquiet], .went hsame ?_ ?_⟩
      · simpa [hinquiring.batches] using hpacked
      · exact runs_bind_iff.mpr (.inr ⟨_, (), first, [], hexamine.anyhow, by simp,
          by simp [hinquiring.inquiries]⟩)
    | .ok (some row) =>
      -- the row joins those that wait, which are stored if they make up a batch now
      have hstage := h.stage_examined hunknown hexamine
      obtain ⟨e, hflush, rfl⟩ | ⟨staging', mid, second, third, hflush, hthird, rfl⟩ :=
        runs_bind_iff.mp hkept
      · obtain ⟨hquiet', -, ⟨hfaulty, rfl, e, he⟩ | ⟨_, hok, -⟩⟩ :=
          hstage.flushedIfFull hrule hrepo rfl hpacked hflush
        · cases he
          exact ⟨by simp [hquiet, hquiet'], .failed hfaulty hsame⟩
        · cases hok
      · obtain ⟨hquiet', hsilent, ⟨-, -, e, he⟩ | ⟨_, hok, hgathered, hpacked'⟩⟩ :=
          hstage.flushedIfFull hrule hrepo rfl hpacked hflush
        · cases he
        obtain rfl := Except.ok.inj hok
        obtain ⟨rfl, rfl, rfl⟩ := runs_done_iff.mp hthird
        refine ⟨by simp [hquiet, hquiet'], .went hgathered ?_ ?_⟩
        · simpa [hinquiring.batches] using hpacked'
        · exact runs_bind_iff.mpr (.inr ⟨_, (), first, [], hexamine.anyhow, by simp,
            by simp [hinquiring.inquiries, hsilent]⟩)

theorem takeTags_surveyed (hrule : rule ≤ fallible) (h : Gathered repo start t staging rows)
    (hrepo : (start.repo? repo.id).isSome)
    (hpacked : pack options.flushEvery rows = ⟨batches, staging.pending⟩)
    {result : Except Fault (Staging × Option StopReason)}
    (hrun : (takeTags options identity repo staging tags).Runs rule.conduct t log result t') :
    log.announcements = [] ∧ Surveyed rule options.flushEvery repo start batches rows
      (survey identity repo start rows tags) log result t' := by
  -- the packing of the rows so far is what has been stored and what waits
  induction tags generalizing staging rows batches t log with
  | nil =>
    obtain ⟨rfl, rfl, rfl⟩ := runs_done_iff.mp hrun
    have hsame : Gathered repo start t' staging (rows ++ []) := by rwa [List.append_nil]
    exact ⟨rfl, .went hsame (by simpa using hpacked) (by rw [List.append_nil]; exact .done _ ())⟩
  | cons tag rest ih =>
    obtain ⟨e, htag, rfl⟩ | ⟨⟨staging₁, stop₁⟩, t₁, log₁, log₂, htag, hrest, rfl⟩ :=
      runs_bind_iff.mp hrun
    · obtain ⟨hquiet, htag⟩ := takeTag_surveyed hrule h hrepo hpacked htag
      cases htag with
      | failed hfaulty hgathered => exact ⟨hquiet, .failed hfaulty hgathered⟩
    obtain ⟨hquiet, htag⟩ := takeTag_surveyed hrule h hrepo hpacked htag
    cases htag with
    | @went _ _ added _ hgathered hpacked₁ hsurveyed =>
    cases stop₁ with
    | some reason =>
      obtain ⟨rfl, rfl, rfl⟩ := runs_done_iff.mp hrest
      refine ⟨by simp [hquiet], .went hgathered (by simpa using hpacked₁) ?_⟩
      exact runs_bind_iff.mpr (.inr ⟨_, (), _, [], hsurveyed, .done _ (), by simp⟩)
    | none =>
      obtain ⟨hquiet₂, hrest⟩ := ih hgathered hpacked₁ hrest
      refine ⟨by simp [hquiet, hquiet₂], ?_⟩
      cases hrest with
      | failed hfaulty hgathered₂ =>
        rw [List.append_assoc] at hgathered₂
        exact .failed hfaulty hgathered₂
      | went hgathered₂ hpacked₂ hsurveyed₂ =>
        rw [List.append_assoc] at hgathered₂ hpacked₂ hsurveyed₂
        refine .went hgathered₂ (by simpa using hpacked₂) ?_
        exact runs_bind_iff.mpr (.inr ⟨_, (), _, _, hsurveyed, hsurveyed₂, by simp⟩)

/-! The end of a pass -/

theorem Gathered.tables_eq (h : Gathered repo start t staging rows) (hnone : staging.pending = []) :
    t = { start with versions := start.versions ++ rows } := by
  obtain ⟨flushed, hrows, ht⟩ := h.stored
  rw [hnone, List.append_nil] at hrows
  rw [hrows, ht]

theorem announceNews_runs {repoId : Int} {count : Nat} {outcome : Outcome}
    {result : Except Fault Outcome}
    (hrun : ((announceNews repoId count).bind fun _ => .done outcome).Runs rule.conduct t log result
      t') :
    result = .ok outcome ∧ t' = t ∧ log.inquiries = [] ∧ log.batches = [] ∧
      log.Announced repoId count := by
  unfold announceNews at hrun
  unfold Log.Announced
  split_ifs at hrun ⊢ with hnews
  · rw [bind_assoc] at hrun
    obtain ⟨accepted, rest, hrest, rfl⟩ := Work.runs_announce_bind_iff.mp hrun
    obtain ⟨rfl, rfl, rfl⟩ := runs_done_iff.mp hrest
    exact ⟨rfl, rfl, rfl, rfl, [], accepted, rfl, rfl⟩
  · obtain ⟨rfl, rfl, rfl⟩ := runs_done_iff.mp hrun
    exact ⟨rfl, rfl, rfl, rfl, rfl⟩

theorem finish_ends (hrule : rule ≤ fallible) (h : Gathered repo start t staging rows)
    (hrepo : (start.repo? repo.id).isSome) {flushEvery : Nat}
    (hpacked : pack flushEvery rows = ⟨batches, staging.pending⟩) {stop : Option StopReason}
    {result : Except Fault Outcome}
    (hrun : (finish repo staging stop).Runs rule.conduct t log result t') :
    log.inquiries = [] ∧
      ((¬ rule ≤ reliable ∧ (∃ e, result = .error (.store e)) ∧ t' = t ∧ log.announcements = []) ∨
        (result = .ok (outcome rows.length stop) ∧
          t' = { start with versions := start.versions ++ rows } ∧
            batches ++ log.batches = (pack flushEvery rows).batches ∧
              log.Announced repo.id rows.length)) := by
  obtain ⟨e, hflush, rfl⟩ | ⟨staging', mid, first, rest, hflush, hrest, rfl⟩ :=
    runs_bind_iff.mp hrun
  · cases h.flushed hrule hrepo hflush with
    | failed hfaulty => exact ⟨rfl, .inl ⟨hfaulty, ⟨_, rfl⟩, rfl, rfl⟩⟩
  suffices hfirst : Log.inquiries first = [] ∧ Log.announcements first = [] ∧
      batches ++ Log.batches first = (pack flushEvery rows).batches ∧
        staging'.pending = [] ∧ Gathered repo start mid staging' rows by
    obtain ⟨hsilent, hquiet, hbatches, hnone, hgathered⟩ := hfirst
    rw [hgathered.created] at hrest
    obtain ⟨rfl, rfl, hsilent', hnone', hannounced⟩ := announceNews_runs hrest
    refine ⟨by simp [hsilent, hsilent'], .inr ⟨rfl, hgathered.tables_eq hnone, ?_, ?_⟩⟩
    · simpa [hnone'] using hbatches
    · exact hannounced.append hquiet
  cases h.flushed hrule hrepo hflush with
  | idle hempty =>
    refine ⟨rfl, rfl, ?_, hempty, h⟩
    rw [Packing.batches_of_none (by rw [hpacked, hempty]), hpacked]
    simp
  | stored hwaiting hgathered =>
    refine ⟨rfl, rfl, ?_, rfl, hgathered⟩
    rw [Packing.batches_of_waiting (by rw [hpacked]; exact hwaiting), hpacked]
    simp

structure Went (flushEvery : Nat) (identity : Identity) (repo : Repo) (tags : List Tag) (t : Tables)
    (found log : Log) (rows : List Version) (stop : Option StopReason) : Prop where
  part : found ⊆ log
  surveyed : (survey identity repo t [] tags).Runs anyhow () found (.ok (rows, stop)) ()
  own : ∀ row ∈ rows, row.repoId = repo.id
  fresh : ∀ row ∈ rows, t.hasVersion repo.id row.tagName = false
  apart : rows.Pairwise fun row row' => Text.lowerCase row.tagName ≠ Text.lowerCase row'.tagName
  batches : log.batches = (pack flushEvery rows).batches
  announced : log.Announced repo.id rows.length

theorem Went.append {flushEvery : Nat} {found first : Log} {stop : Option StopReason}
    (h : Went flushEvery identity repo tags t found log rows stop)
    (hbatches : first.batches = []) (hquiet : first.announcements = []) :
    Went flushEvery identity repo tags t found (first ++ log) rows stop where
  part := List.Subset.trans h.part (List.subset_append_right _ _)
  surveyed := h.surveyed
  own := h.own
  fresh := h.fresh
  apart := h.apart
  batches := by rw [Log.batches_append, hbatches, List.nil_append, h.batches]
  announced := h.announced.append hquiet

inductive Ended (rule : StoreRule) (flushEvery : Nat) (identity : Identity) (repo : Repo)
    (tags : List Tag) (t : Tables) (log : Log) : Except Fault Outcome → Tables → Prop
  | failed {e : StoreError} {flushed : List Version} (faulty : ¬ rule ≤ reliable)
      (own : ∀ row ∈ flushed, row.repoId = repo.id) (quiet : log.announcements = []) :
      Ended rule flushEvery identity repo tags t log (.error (.store e))
        { t with versions := t.versions ++ flushed }
  | went {rows : List Version} {stop : Option StopReason}
      (went : Went flushEvery identity repo tags t log.inquiries log rows stop) :
      Ended rule flushEvery identity repo tags t log (.ok (outcome rows.length stop))
        { t with versions := t.versions ++ rows }

theorem pursue_ended (hrule : rule ≤ fallible) (hrepo : (t.repo? repo.id).isSome)
    {result : Except Fault Outcome}
    (hrun : (pursue options identity (.tags repo tags)).Runs rule.conduct t log result t') :
    Ended rule options.flushEvery identity repo tags t log result t' := by
  obtain ⟨e, htake, rfl⟩ | ⟨⟨staging, stop⟩, mid, first, rest, htake, hfinish, rfl⟩ :=
    runs_bind_iff.mp hrun
  · obtain ⟨hquiet, htake⟩ := takeTags_surveyed hrule .empty hrepo rfl htake
    cases htake with
    | failed hfaulty hgathered =>
      obtain ⟨flushed, rfl, hown⟩ := hgathered.own_stored
      exact .failed hfaulty hown hquiet
  obtain ⟨hquiet, htake⟩ := takeTags_surveyed hrule .empty hrepo rfl htake
  cases htake with
  | went hgathered hpacked hsurveyed =>
    obtain ⟨hsilent, ⟨hfaulty, ⟨e, rfl⟩, rfl, hquiet'⟩ | ⟨rfl, rfl, hbatches, hannounced⟩⟩ :=
      finish_ends hrule hgathered hrepo hpacked hfinish
    · obtain ⟨flushed, rfl, hown⟩ := hgathered.own_stored
      exact .failed hfaulty hown (by simp [hquiet, hquiet'])
    · refine .went ⟨Log.inquiries_subset _, ?_, hgathered.own, hgathered.fresh, hgathered.apart,
        by simpa using hbatches, hannounced.append hquiet⟩
      rwa [Log.inquiries_append, hsilent, List.append_nil]

/-! The whole synchronisation -/

theorem refused_ends (hrule : rule ≤ fallible) {e : ApiError} {result : Except Fault Outcome}
    (hrun : (refused repo e).Runs rule.conduct t log result t') :
    t'.versions = t.versions ∧ log.announcements = [] ∧ log.requests = [] ∧ log.batches = [] ∧
      log.lookups = [] ∧ ((¬ rule ≤ reliable ∧ ∃ e', result = .error (.store e')) ∨
        result = .ok (.aborted (if e.isRemoved then .removed else .remoteFailure))) := by
  unfold refused at hrun
  split_ifs at hrun ⊢
  · obtain ⟨now, rest, hrest, rfl⟩ := Work.runs_clock_bind_iff.mp hrun
    obtain ⟨e', hmark, rfl, rfl⟩ | ⟨_, mid, last, hmark, hlast, rfl⟩ :=
      Work.runs_store_bind_iff.mp hrest
    · obtain rfl := eq_of_fallible_error (hrule _ _ _ _ hmark) fun draft hcall => by cases hcall
      refine ⟨rfl, rfl, rfl, rfl, rfl, .inl ⟨fun hreliable => ?_, e', rfl⟩⟩
      have hdone := hreliable _ _ _ _ hmark
      simp at hdone
    · obtain ⟨-, rfl⟩ := reliable_markRepoRemoved_iff.mp
        (fallible_ok_iff.mp (hrule _ _ _ _ hmark))
      obtain ⟨rfl, rfl, rfl⟩ := runs_done_iff.mp hlast
      exact ⟨rfl, rfl, rfl, rfl, rfl, .inr rfl⟩
  · obtain ⟨rfl, rfl, rfl⟩ := runs_done_iff.mp hrun
    exact ⟨rfl, rfl, rfl, rfl, rfl, .inr rfl⟩

inductive Synced (rule : StoreRule) (options : SyncOptions) (identity : Identity) (repoId : Int)
    (t : Tables) : Log → Except Fault Outcome → Tables → Prop
  | lost {e : StoreError} (faulty : ¬ rule ≤ reliable) :
      Synced rule options identity repoId t [⟨.store (.findRepo repoId), Except.error e⟩]
        (.error (.store e)) t
  | pursued {aimed : Aim} {first rest : Log} {result : Except Fault Outcome} {t' : Tables}
      (aims : (aim identity (t.repo? repoId)).Runs rule.conduct t first (.ok aimed) t)
      (pursued : (pursue options identity aimed).Runs rule.conduct t rest result t') :
      Synced rule options identity repoId t
        (⟨.store (.findRepo repoId), Except.ok (t.repo? repoId)⟩ :: (first ++ rest)) result t'

theorem syncVersions_synced (hrule : rule ≤ fallible) {repoId : Int}
    {result : Except Fault Outcome}
    (hrun : (syncVersions options identity repoId).Runs rule.conduct t log result t') :
    Synced rule options identity repoId t log result t' := by
  rw [syncVersions_eq] at hrun
  obtain ⟨e, hfind, rfl, rfl⟩ | ⟨found, mid, rest, hfind, hrest, rfl⟩ :=
    Work.runs_store_bind_iff.mp hrun
  · obtain rfl := eq_of_fallible_error (hrule _ _ _ _ hfind) fun draft hcall => by cases hcall
    refine .lost fun hreliable => ?_
    have hdone := hreliable _ _ _ _ hfind
    simp at hdone
  obtain ⟨hfound, rfl⟩ := reliable_findRepo_iff.mp (fallible_ok_iff.mp (hrule _ _ _ _ hfind))
  obtain rfl := Except.ok.inj hfound
  obtain ⟨e, haim, rfl⟩ | ⟨aimed, mid, first, last, haim, hlast, rfl⟩ := runs_bind_iff.mp hrest
  · obtain ⟨-, -, _, hok, -⟩ := aim_inquiry.runs haim
    cases hok
  obtain ⟨hinquiring, -⟩ := aim_inquiry.runs haim
  obtain rfl := Work.eq_of_inquiring haim hinquiring
  exact .pursued haim hlast

theorem aim_suits {s : Tables} {found : Option Repo} {aimed : Aim} {s' : Tables}
    (hrun : (aim identity found).Runs rule.conduct s log (.ok aimed) s') : aimed.Suits found := by
  obtain ⟨-, -, _, hok, ⟨-, hsuits⟩ | ⟨_, -, hsuits, -⟩⟩ := aim_inquiry.runs hrun
  · cases hok
    exact hsuits
  · cases hok
    exact hsuits

/-! A reliable store -/

section Reliable
variable {repoId : Int} {found : Option Repo} {aimed : Aim} {facts : GitHub.Facts}
  {result : Except Fault Outcome}

theorem pursue_went (hsuits : aimed.Suits (some repo)) (htags : aimed.tags? = some tags)
    (hrepo : (t.repo? repo.id).isSome)
    (hrun : (pursue options identity aimed).Runs reliable.conduct t log result t') :
    ∃ surveyed rows stop, Went options.flushEvery identity repo tags t surveyed log rows stop ∧
      result = .ok (outcome rows.length stop) ∧
        t' = { t with versions := t.versions ++ rows } := by
  cases aimed with
  | ended outcome =>
    obtain ⟨rfl, rfl, rfl⟩ := runs_done_iff.mp hrun
    rcases hsuits with rfl | ⟨reason, rfl⟩
    · obtain rfl := Option.some.inj htags
      refine ⟨[], [], none, ⟨List.nil_subset _, .done _ (), ?_, ?_, .nil, rfl, rfl⟩, rfl, ?_⟩
      · simp
      · simp
      · rw [List.append_nil]
    · cases htags
  | refused repo e => cases htags
  | tags repo tags =>
    obtain rfl := Option.some.inj hsuits
    obtain rfl := Option.some.inj htags
    cases pursue_ended reliable_le_fallible hrepo hrun with
    | failed hfaulty => exact absurd le_rfl hfaulty
    | went hwent => exact ⟨_, _, _, hwent, rfl, rfl⟩

theorem pursue_aborted (hsuits : aimed.Suits found) (htags : aimed.tags? = none)
    (hrun : (pursue options identity aimed).Runs reliable.conduct t log result t') :
    ∃ reason, result = .ok (.aborted reason) := by
  cases aimed with
  | ended outcome =>
    obtain ⟨-, rfl, -⟩ := runs_done_iff.mp hrun
    rcases hsuits with rfl | ⟨reason, rfl⟩
    · cases htags
    · exact ⟨reason, rfl⟩
  | refused repo e =>
    obtain ⟨-, -, -, -, -, ⟨hfaulty, -⟩ | hresult⟩ := refused_ends reliable_le_fallible hrun
    · exact absurd le_rfl hfaulty
    · exact ⟨_, hresult⟩
  | tags repo tags => cases htags

/-- What GitHub tells decides whether a synchronisation takes tags, and then the survey of them
tells what it stores. -/
theorem syncVersions_told
    (hrun : (syncVersions options identity repoId).Runs reliable.conduct t log result t')
    (htold : log.ToldBy facts) :
    (target? facts t repoId = none ∧ ∃ reason, result = .ok (.aborted reason)) ∨
      ∃ repo tags surveyed rows stop, target? facts t repoId = some (repo, tags) ∧
        Went options.flushEvery identity repo tags t surveyed log rows stop ∧
          result = .ok (outcome rows.length stop) ∧
            t' = { t with versions := t.versions ++ rows } := by
  cases syncVersions_synced reliable_le_fallible hrun with
  | lost hfaulty => exact absurd le_rfl hfaulty
  | @pursued aimed first rest _ _ haim hpursued =>
  have hinquiring := (aim_inquiry.runs haim).1
  have htags := aim_target? haim (htold.mono (by simp))
  have hsuits := aim_suits haim
  cases htarget : target? facts t repoId with
  | none =>
    rw [htarget] at htags
    exact .inl ⟨rfl, pursue_aborted hsuits htags hpursued⟩
  | some target =>
    obtain ⟨repo, tags⟩ := target
    obtain ⟨hrepo, -⟩ := target?_eq_some_iff.mp htarget
    rw [htarget] at htags
    rw [hrepo] at hsuits
    obtain ⟨surveyed, rows, stop, hwent, hresult, htables⟩ :=
      pursue_went hsuits htags (Tables.isSome_repo? hrepo) hpursued
    refine .inr ⟨repo, tags, surveyed, rows, stop, rfl, ?_, hresult, htables⟩
    rw [← List.cons_append]
    exact hwent.append (by simp [hinquiring.batches]) hinquiring.announcements

theorem syncVersions_targeted {tags : List Tag}
    (hrun : (syncVersions options identity repoId).Runs reliable.conduct t log result t')
    (htold : log.ToldBy facts) (htarget : target? facts t repoId = some (repo, tags)) :
    ∃ surveyed rows stop, Went options.flushEvery identity repo tags t surveyed log rows stop ∧
      result = .ok (outcome rows.length stop) ∧
        t' = { t with versions := t.versions ++ rows } := by
  obtain ⟨hnone, -⟩ | ⟨repo', tags', surveyed, rows, stop, hsome, hend⟩ :=
    syncVersions_told hrun htold
  · cases htarget.symm.trans hnone
  · obtain ⟨rfl, rfl⟩ := Prod.mk.inj (Option.some.inj (htarget.symm.trans hsome))
    exact ⟨surveyed, rows, stop, hend⟩

end Reliable

end VersionSync
end ReleaseTracker
