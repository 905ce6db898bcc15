import ReleaseTracker.Proofs.Sync.VersionBatches

/-! The trail of a pass in the log: what was asked about each tag in turn, and what the answers made
of it. A tag is described by its release or by its object (`Described`), the message is rendered
(`Rendered`), and tags have their turns (`Visited`) until GitHub or the store fails (`Trail`). -/

namespace ReleaseTracker
open GitHub (ApiCall Tag Release SignedMessage Blob)
open Program StoreRule

namespace VersionSync
variable {rule : StoreRule} {options : SyncOptions} {identity : Identity} {repo : Repo}
  {fullName message : String} {tag : Tag} {tags : List Tag} {start t t' : Tables} {log : Log}
  {rows rows' : List Version} {staging : Staging}

def objectCall? (fullName : String) (tag : Tag) : Option ApiCall :=
  match tag.kind with
  | .tag => some (.annotatedTag fullName tag.sha)
  | .commit => some (.commit fullName tag.sha)
  | .blob => some (.blob fullName tag.sha)
  | .other _ => none

/-! One tag -/

inductive Named (tag : Tag) : Option String → String → Prop
  | shown {name : String} (seen : ∃ c ∈ name.toList, Text.isBlank c = false) :
      Named tag (some name) name
  | blank {name : String} (unseen : ∀ c ∈ name.toList, Text.isBlank c = true) :
      Named tag (some name) tag.name
  | missing : Named tag none tag.name

inductive Dated (release : Release) : Log → Instant → Prop
  | published {date : Instant} (published : release.publishedAt = some date) :
      Dated release [] date
  | created {date : Instant} (unpublished : release.publishedAt = none)
      (created : release.createdAt = some date) : Dated release [] date
  | undated (now : Instant) (unpublished : release.publishedAt = none)
      (uncreated : release.createdAt = none) : Dated release [⟨.clock, now⟩] now

/-- What was asked to describe a tag, and what it came to. An object is asked for only if there is
no release. -/
inductive Described (identity : Identity) (fullName : String) (tag : Tag) :
    Log → Except ApiError (Option Description) → Prop
  | unresolved (e : ApiError) : Described identity fullName tag
      [⟨.github identity (.releaseByTag fullName tag.name), Except.error e⟩] (.error e)
  | released {release : Release} {asked : Log} {name : String} {date : Instant}
      (named : Named tag release.name name) (dated : Dated release asked date) :
      Described identity fullName tag
        (⟨.github identity (.releaseByTag fullName tag.name), Except.ok (some release)⟩ :: asked)
        (.ok (some ⟨name, release.prerelease, date, release.body.getD ""⟩))
  | unsupported (nothing : objectCall? fullName tag = none) : Described identity fullName tag
      [⟨.github identity (.releaseByTag fullName tag.name), Except.ok none⟩] (.ok none)
  | lost {call : ApiCall} (object : objectCall? fullName tag = some call) (e : ApiError) :
      Described identity fullName tag
        [⟨.github identity (.releaseByTag fullName tag.name), Except.ok none⟩,
          ⟨.github identity call, Except.error e⟩] (.error e)
  | annotated (kind : tag.kind = .tag) (object : SignedMessage) : Described identity fullName tag
      [⟨.github identity (.releaseByTag fullName tag.name), Except.ok none⟩,
        ⟨.github identity (.annotatedTag fullName tag.sha), Except.ok object⟩]
      (.ok (some ⟨tag.name, false, object.signature.date, object.message⟩))
  | committed (kind : tag.kind = .commit) (object : SignedMessage) :
      Described identity fullName tag
        [⟨.github identity (.releaseByTag fullName tag.name), Except.ok none⟩,
          ⟨.github identity (.commit fullName tag.sha), Except.ok object⟩]
        (.ok (some ⟨tag.name, false, object.signature.date, object.message⟩))
  | filed (kind : tag.kind = .blob) (blob : Blob) (now : Instant) : Described identity fullName tag
      [⟨.github identity (.releaseByTag fullName tag.name), Except.ok none⟩,
        ⟨.github identity (.blob fullName tag.sha), Except.ok blob⟩, ⟨.clock, now⟩]
      (.ok (some ⟨tag.name, false, now, toString blob.size ++ " bytes\n\n" ++ blob.content⟩))

inductive Rendered (identity : Identity) (fullName message : String) :
    Log → Except ApiError String → Prop
  | empty (nothing : stripSignature message.toList = []) :
      Rendered identity fullName message [] (.ok "")
  | posted (something : stripSignature message.toList ≠ []) (answer : Except ApiError String) :
      Rendered identity fullName message
        [⟨.github identity (.renderMarkdown (String.ofList (stripSignature message.toList))
          fullName), answer⟩] answer

inductive Examined (identity : Identity) (repo : Repo) (tag : Tag) :
    Log → Except StopReason (Option Version) → Prop
  | undescribed {asked : Log} {e : ApiError}
      (described : Described identity repo.fullName tag asked (.error e)) :
      Examined identity repo tag asked (.error .remoteFailure)
  | unsupported {asked : Log} (described : Described identity repo.fullName tag asked (.ok none)) :
      Examined identity repo tag asked (.ok none)
  | unrendered {first last : Log} {description : Description} {e : ApiError}
      (described : Described identity repo.fullName tag first (.ok (some description)))
      (rendered : Rendered identity repo.fullName description.message last (.error e)) :
      Examined identity repo tag (first ++ last) (.error .renderingFailure)
  | row {first last : Log} {description : Description} {body : String}
      (described : Described identity repo.fullName tag first (.ok (some description)))
      (rendered : Rendered identity repo.fullName description.message last (.ok body)) :
      Examined identity repo tag (first ++ last)
        (.ok (some ⟨repo.id, tag.name, description.name, description.prerelease, body,
          .utc description.date⟩))

theorem named_releaseName (tag : Tag) (release : Release) :
    Named tag release.name (releaseName tag release) := by
  unfold releaseName
  cases release.name with
  | none => exact .missing
  | some name =>
    dsimp only
    split_ifs with hblank
    · exact .blank (List.all_eq_true.mp hblank)
    · exact .shown (by simpa [Text.allBlank] using hblank)

theorem dated_runs {release : Release} {date : Instant}
    (hrun : (releaseDate release).Runs rule.conduct t log (.ok date) t') :
    Dated release log date := by
  unfold releaseDate at hrun
  cases hpublished : release.publishedAt with
  | some published =>
    rw [hpublished] at hrun
    obtain ⟨rfl, rfl, -⟩ := runs_done_ok_iff.mp hrun
    exact .published hpublished
  | none =>
    cases hcreated : release.createdAt with
    | some created =>
      rw [hpublished, hcreated] at hrun
      obtain ⟨rfl, rfl, -⟩ := runs_done_ok_iff.mp hrun
      exact .created hpublished hcreated
    | none =>
      rw [hpublished, hcreated] at hrun
      obtain ⟨now, mid, rest, -, hrest, rfl⟩ := runs_ask_iff.mp hrun
      obtain ⟨rfl, rfl, -⟩ := runs_done_ok_iff.mp hrest
      exact .undated _ hpublished hcreated

theorem describedObject_runs {answer : Except ApiError (Option Description)}
    (hrun : (describeObject identity fullName tag).Runs rule.conduct t log (.ok answer) t') :
    Described identity fullName tag
      (⟨.github identity (.releaseByTag fullName tag.name), Except.ok none⟩ :: log) answer := by
  unfold describeObject at hrun
  cases hkind : tag.kind with
  | tag =>
    rw [hkind] at hrun
    obtain ⟨object, rest, hrest, rfl⟩ := Work.runs_github_bind_iff.mp hrun
    obtain ⟨rfl, rfl, -⟩ := runs_done_ok_iff.mp hrest
    cases object with
    | error e => exact .lost (by rw [objectCall?, hkind]) e
    | ok object => exact .annotated hkind object
  | commit =>
    rw [hkind] at hrun
    obtain ⟨object, rest, hrest, rfl⟩ := Work.runs_github_bind_iff.mp hrun
    obtain ⟨rfl, rfl, -⟩ := runs_done_ok_iff.mp hrest
    cases object with
    | error e => exact .lost (by rw [objectCall?, hkind]) e
    | ok object => exact .committed hkind object
  | blob =>
    rw [hkind] at hrun
    obtain ⟨object, rest, hrest, rfl⟩ := Work.runs_github_bind_iff.mp hrun
    cases object with
    | error e =>
      obtain ⟨rfl, rfl, -⟩ := runs_done_ok_iff.mp hrest
      exact .lost (by rw [objectCall?, hkind]) e
    | ok blob =>
      obtain ⟨now, mid, last, -, hlast, rfl⟩ := runs_ask_iff.mp hrest
      obtain ⟨rfl, rfl, -⟩ := runs_done_ok_iff.mp hlast
      exact .filed hkind blob now
  | other name =>
    rw [hkind] at hrun
    obtain ⟨rfl, rfl, -⟩ := runs_done_ok_iff.mp hrun
    exact .unsupported (by rw [objectCall?, hkind])

theorem described_runs {answer : Except ApiError (Option Description)}
    (hrun : (describe identity fullName tag).Runs rule.conduct t log (.ok answer) t') :
    Described identity fullName tag log answer := by
  obtain ⟨found, rest, hrest, rfl⟩ := Work.runs_github_bind_iff.mp hrun
  match found with
  | .error e =>
    obtain ⟨rfl, rfl, -⟩ := runs_done_ok_iff.mp hrest
    exact .unresolved e
  | .ok none => exact describedObject_runs hrest
  | .ok (some release) =>
    obtain ⟨_, mid, first, last, hdescribe, hlast, rfl⟩ := runs_bind_ok_iff.mp hrest
    obtain ⟨date, _, asked, _, hdate, hdone, rfl⟩ := runs_bind_ok_iff.mp hdescribe
    obtain ⟨rfl, rfl, -⟩ := runs_done_ok_iff.mp hdone
    obtain ⟨rfl, rfl, -⟩ := runs_done_ok_iff.mp hlast
    rw [List.append_nil, List.append_nil]
    exact .released (named_releaseName tag release) (dated_runs hdate)

theorem rendered_runs {answer : Except ApiError String}
    (hrun : (render identity fullName message).Runs rule.conduct t log (.ok answer) t') :
    Rendered identity fullName message log answer := by
  unfold render at hrun
  split at hrun
  · obtain ⟨rfl, rfl, -⟩ := runs_done_ok_iff.mp hrun
    exact .empty ‹_›
  · rename_i hsome
    obtain ⟨reply, mid, rest, -, hrest, rfl⟩ := runs_ask_iff.mp hrun
    obtain ⟨rfl, rfl, -⟩ := runs_done_ok_iff.mp hrest
    exact .posted hsome _

theorem examined_runs {answer : Except StopReason (Option Version)}
    (hrun : (examine identity repo tag).Runs rule.conduct t log (.ok answer) t') :
    Examined identity repo tag log answer := by
  obtain ⟨found, mid, first, rest, hdescribe, hrest, rfl⟩ := runs_bind_ok_iff.mp hrun
  have hdescribed := described_runs hdescribe
  match found with
  | .error e =>
    obtain ⟨rfl, rfl, -⟩ := runs_done_ok_iff.mp hrest
    rw [List.append_nil]
    exact .undescribed hdescribed
  | .ok none =>
    obtain ⟨rfl, rfl, -⟩ := runs_done_ok_iff.mp hrest
    rw [List.append_nil]
    exact .unsupported hdescribed
  | .ok (some description) =>
    obtain ⟨body, mid', asked, last, hrender, hlast, rfl⟩ := runs_bind_ok_iff.mp hrest
    have hrendered := rendered_runs hrender
    cases body with
    | error e =>
      obtain ⟨rfl, rfl, -⟩ := runs_done_ok_iff.mp hlast
      rw [List.append_nil]
      exact .unrendered hdescribed hrendered
    | ok body =>
      obtain ⟨rfl, rfl, -⟩ := runs_done_ok_iff.mp hlast
      rw [List.append_nil]
      exact .row hdescribed hrendered

/-! All tags -/

def Batched (log : Log) : Prop :=
  log = [] ∨ ∃ (rows : List Version) (answer : Except StoreError Nat),
    log = [⟨.store (.createVersions rows), answer⟩]

/-- What is asked about a tag when its turn comes, with the rows gathered before and after it and
the end of the turn. A tag is examined only if it is new, and its row may fill up a batch. -/
inductive Visited (identity : Identity) (repo : Repo) (start : Tables) (rows : List Version)
    (tag : Tag) : Log → List Version → Except Fault (Option StopReason) → Prop
  | unknown (e : StoreError) : Visited identity repo start rows tag
      [⟨.store (.findExistingVersion repo.id tag.name), Except.error e⟩] rows (.error (.store e))
  | known (stored : Bool)
      (known : (start.hasVersion repo.id tag.name || isTaken rows tag.name) = true) :
      Visited identity repo start rows tag
        [⟨.store (.findExistingVersion repo.id tag.name), Except.ok stored⟩] rows (.ok none)
  | stopped {asked : Log} {reason : StopReason} (stored : Bool)
      (new : ¬ (start.hasVersion repo.id tag.name || isTaken rows tag.name) = true)
      (examined : Examined identity repo tag asked (.error reason)) :
      Visited identity repo start rows tag
        (⟨.store (.findExistingVersion repo.id tag.name), Except.ok stored⟩ :: asked) rows
        (.ok (some reason))
  | passed {asked : Log} (stored : Bool)
      (new : ¬ (start.hasVersion repo.id tag.name || isTaken rows tag.name) = true)
      (examined : Examined identity repo tag asked (.ok none)) :
      Visited identity repo start rows tag
        (⟨.store (.findExistingVersion repo.id tag.name), Except.ok stored⟩ :: asked) rows
        (.ok none)
  | unstored {row : Version} {asked last : Log} (stored : Bool)
      (new : ¬ (start.hasVersion repo.id tag.name || isTaken rows tag.name) = true)
      (examined : Examined identity repo tag asked (.ok (some row))) (batched : Batched last)
      (e : Fault) : Visited identity repo start rows tag
        (⟨.store (.findExistingVersion repo.id tag.name), Except.ok stored⟩ :: (asked ++ last)) rows
        (.error e)
  | staged {row : Version} {asked last : Log} (stored : Bool)
      (new : ¬ (start.hasVersion repo.id tag.name || isTaken rows tag.name) = true)
      (examined : Examined identity repo tag asked (.ok (some row))) (batched : Batched last) :
      Visited identity repo start rows tag
        (⟨.store (.findExistingVersion repo.id tag.name), Except.ok stored⟩ :: (asked ++ last))
        (rows ++ [row]) (.ok none)

/-- What a pass asks about its tags one after another, with the rows gathered before and after them
and its end. Nothing is asked any more once GitHub or the store has failed. -/
inductive Trail (identity : Identity) (repo : Repo) (start : Tables) :
    List Version → List Tag → Log → List Version → Except Fault (Option StopReason) → Prop
  | done (rows : List Version) : Trail identity repo start rows [] [] rows (.ok none)
  | ended {rows rows' : List Version} {tag : Tag} {log : Log}
      {stop : Except Fault (Option StopReason)} (tags : List Tag)
      (last : Visited identity repo start rows tag log rows' stop) (early : stop ≠ .ok none) :
      Trail identity repo start rows (tag :: tags) log rows' stop
  | more {rows mid rows' : List Version} {tag : Tag} {tags : List Tag} {log more : Log}
      {stop : Except Fault (Option StopReason)}
      (first : Visited identity repo start rows tag log mid (.ok none))
      (rest : Trail identity repo start mid tags more rows' stop) :
      Trail identity repo start rows (tag :: tags) (log ++ more) rows' stop

theorem Gathered.flushIfFull_batched (hrule : rule ≤ fallible)
    (h : Gathered repo start t staging rows) (hrepo : (start.repo? repo.id).isSome)
    {size : Nat} {result : Except Fault Staging}
    (hrun : (staging.flushIfFull size).Runs rule.conduct t log result t') :
    Batched log ∧ ((t' = t ∧ ∃ e, result = .error e) ∨
      ∃ staging', result = .ok staging' ∧ Gathered repo start t' staging' rows) := by
  unfold Staging.flushIfFull at hrun
  split_ifs at hrun
  · cases h.flushed hrule hrepo hrun with
    | idle => exact ⟨.inl rfl, .inr ⟨_, rfl, h⟩⟩
    | failed => exact ⟨.inr ⟨_, _, rfl⟩, .inl ⟨rfl, _, rfl⟩⟩
    | stored _ hgathered => exact ⟨.inr ⟨_, _, rfl⟩, .inr ⟨_, rfl, hgathered⟩⟩
  · obtain ⟨rfl, rfl, rfl⟩ := runs_done_iff.mp hrun
    exact ⟨.inl rfl, .inr ⟨_, rfl, h⟩⟩

theorem takeTag_visited (hrule : rule ≤ fallible) (h : Gathered repo start t staging rows)
    (hrepo : (start.repo? repo.id).isSome) {result : Except Fault (Staging × Option StopReason)}
    (hrun : (takeTag options identity repo staging tag).Runs rule.conduct t log result t') :
    ∃ rows' staging', Visited identity repo start rows tag log rows' (result.map (·.2)) ∧
      Gathered repo start t' staging' rows' ∧
        ∀ finds, result = .ok finds → finds.1 = staging' := by
  cases takeTag_handled hrule hrun with
  | lost => exact ⟨rows, staging, .unknown _, h, by simp⟩
  | passedOver hknown =>
    rw [h.passesOver_eq] at hknown
    exact ⟨rows, staging, .known _ hknown, h, by simp⟩
  | @examined stored asked last answer _ _ hunknown hexamine hkept =>
    have hexamined := examined_runs hexamine
    have hnew := hunknown
    rw [h.passesOver_eq] at hnew
    match answer with
    | .error reason =>
      obtain ⟨rfl, rfl, rfl⟩ := runs_done_iff.mp hkept
      rw [List.append_nil]
      exact ⟨rows, staging, .stopped stored hnew hexamined, h, by simp⟩
    | .ok none =>
      obtain ⟨rfl, rfl, rfl⟩ := runs_done_iff.mp hkept
      rw [List.append_nil]
      exact ⟨rows, staging, .passed stored hnew hexamined, h, by simp⟩
    | .ok (some row) =>
      have hstaged := h.stage_examined hunknown hexamine
      obtain ⟨e, hflush, rfl⟩ | ⟨_, mid, batch, _, hflush, hdone, rfl⟩ := runs_bind_iff.mp hkept
      · obtain ⟨hbatched, ⟨rfl, -⟩ | ⟨_, hok, -⟩⟩ :=
          hstaged.flushIfFull_batched hrule hrepo hflush
        · exact ⟨rows, staging, .unstored stored hnew hexamined hbatched e, h, by simp⟩
        · cases hok
      · obtain ⟨rfl, rfl, rfl⟩ := runs_done_iff.mp hdone
        obtain ⟨hbatched, ⟨-, _, hfault⟩ | ⟨_, hok, hgathered⟩⟩ :=
          hstaged.flushIfFull_batched hrule hrepo hflush
        · cases hfault
        · cases hok
          rw [List.append_nil]
          exact ⟨rows ++ [row], _, .staged stored hnew hexamined hbatched, hgathered, by simp⟩

theorem takeTags_trail (hrule : rule ≤ fallible) (h : Gathered repo start t staging rows)
    (hrepo : (start.repo? repo.id).isSome) {result : Except Fault (Staging × Option StopReason)}
    (hrun : (takeTags options identity repo staging tags).Runs rule.conduct t log result t') :
    ∃ rows' staging', Trail identity repo start rows tags log rows' (result.map (·.2)) ∧
      Gathered repo start t' staging' rows' ∧
        ∀ finds, result = .ok finds → finds.1 = staging' := by
  induction tags generalizing staging rows t log with
  | nil =>
    obtain ⟨rfl, rfl, rfl⟩ := runs_done_iff.mp hrun
    exact ⟨rows, staging, .done rows, h, by simp⟩
  | cons tag tags ih =>
    obtain ⟨e, htag, rfl⟩ | ⟨⟨next, stop⟩, mid, log₁, log₂, htag, hrest, rfl⟩ :=
      runs_bind_iff.mp hrun
    · obtain ⟨rows', staging', hvisited, hgathered, -⟩ := takeTag_visited hrule h hrepo htag
      exact ⟨rows', staging', .ended tags hvisited (by simp [Except.map]), hgathered, by simp⟩
    obtain ⟨rows₁, staging₁, hvisited, hgathered, hnext⟩ := takeTag_visited hrule h hrepo htag
    obtain rfl := hnext _ rfl
    cases stop with
    | some reason =>
      obtain ⟨rfl, rfl, rfl⟩ := runs_done_iff.mp hrest
      rw [List.append_nil]
      exact ⟨rows₁, _, .ended tags hvisited (by simp [Except.map]), hgathered, by simp⟩
    | none =>
      obtain ⟨rows', staging', htrail, hgathered', hfinds⟩ := ih hgathered hrest
      exact ⟨rows', staging', .more hvisited htrail, hgathered', hfinds⟩

theorem finish_gathered (hrule : rule ≤ fallible) (h : Gathered repo start t staging rows)
    (hrepo : (start.repo? repo.id).isSome) {stop : Option StopReason}
    {result : Except Fault Outcome}
    (hrun : (finish repo staging stop).Runs rule.conduct t log result t') :
    log.inquiries = [] ∧ ∃ staging', Gathered repo start t' staging' rows := by
  obtain ⟨e, hflush, rfl⟩ | ⟨staging', mid, first, rest, hflush, hrest, rfl⟩ :=
    runs_bind_iff.mp hrun
  · cases h.flushed hrule hrepo hflush with
    | failed => exact ⟨rfl, staging, h⟩
  obtain ⟨-, rfl, hsilent, -⟩ := announceNews_runs hrest
  rw [Log.inquiries_append, hsilent, List.append_nil]
  cases h.flushed hrule hrepo hflush with
  | idle => exact ⟨rfl, _, h⟩
  | stored _ hgathered => exact ⟨rfl, _, hgathered⟩

theorem pursue_tags_trail (hrule : rule ≤ fallible) (hrepo : (t.repo? repo.id).isSome)
    {result : Except Fault Outcome}
    (hrun : (pursue options identity (.tags repo tags)).Runs rule.conduct t log result t') :
    ∃ first last rows stop staging, log = first ++ last ∧ last.inquiries = [] ∧
      Trail identity repo t [] tags first rows stop ∧ Gathered repo t t' staging rows ∧
        ∀ e, stop = .error e → result = .error e := by
  obtain ⟨e, htake, rfl⟩ | ⟨⟨staging, stop⟩, mid, first, rest, htake, hfinish, rfl⟩ :=
    runs_bind_iff.mp hrun
  · obtain ⟨rows, staging, htrail, hgathered, -⟩ := takeTags_trail hrule .empty hrepo htake
    refine ⟨log, [], rows, _, staging, (List.append_nil log).symm, rfl, htrail, hgathered, ?_⟩
    exact fun _ hstop => congrArg Except.error (Except.error.inj hstop)
  · obtain ⟨rows, staging', htrail, hgathered, hfinds⟩ := takeTags_trail hrule .empty hrepo htake
    obtain rfl := hfinds _ rfl
    obtain ⟨hsilent, staging', hgathered'⟩ := finish_gathered hrule hgathered hrepo hfinish
    exact ⟨first, rest, rows, _, staging', rfl, hsilent, htrail, hgathered', nofun⟩

/-! Before the tags -/

inductive Listed (identity : Identity) (repo : Repo) : Log → Aim → Prop
  | unanswered (e : ApiError) : Listed identity repo
      [⟨.github identity (.hasTags repo.fullName), Except.error e⟩] (.refused repo e)
  | untagged : Listed identity repo
      [⟨.github identity (.hasTags repo.fullName), Except.ok false⟩] (.ended (.completed 0))
  | unlisted (e : ApiError) : Listed identity repo
      [⟨.github identity (.hasTags repo.fullName), Except.ok true⟩,
        ⟨.github identity (.allTags repo.fullName), Except.error e⟩] (.refused repo e)
  | listed (tags : List Tag) : Listed identity repo
      [⟨.github identity (.hasTags repo.fullName), Except.ok true⟩,
        ⟨.github identity (.allTags repo.fullName), Except.ok tags⟩] (.tags repo tags)

inductive Aimed (identity : Identity) : Option Repo → Log → Aim → Prop
  | absent : Aimed identity none [] (.ended (.aborted .repoNotFound))
  | removed {repo : Repo} (removed : repo.isRemoved = true) :
      Aimed identity (some repo) [] (.ended (.aborted .alreadyRemoved))
  | exhausted {repo : Repo} (answer : Except ApiError Nat)
      (unusable : ∀ calls, answer = .ok calls → calls = 0) :
      Aimed identity (some repo) [⟨.github identity .remainingCalls, answer⟩]
        (.ended (.aborted .quotaExhausted))
  | went {repo : Repo} {log : Log} {aimed : Aim} (calls : Nat) (usable : 0 < calls)
      (listed : Listed identity repo log aimed) :
      Aimed identity (some repo) (⟨.github identity .remainingCalls, Except.ok calls⟩ :: log) aimed

theorem listed_runs {aimed : Aim}
    (hrun : (aimAt identity repo).Runs rule.conduct t log (.ok aimed) t') :
    Listed identity repo log aimed := by
  obtain ⟨tagged, rest, hrest, rfl⟩ := Work.runs_github_bind_iff.mp hrun
  match tagged with
  | .error e =>
    obtain ⟨rfl, rfl, -⟩ := runs_done_ok_iff.mp hrest
    exact .unanswered e
  | .ok false =>
    obtain ⟨rfl, rfl, -⟩ := runs_done_ok_iff.mp hrest
    exact .untagged
  | .ok true =>
    obtain ⟨listed, last, hlast, rfl⟩ := Work.runs_github_bind_iff.mp hrest
    cases listed with
    | error e =>
      obtain ⟨rfl, rfl, -⟩ := runs_done_ok_iff.mp hlast
      exact .unlisted e
    | ok tags =>
      obtain ⟨rfl, rfl, -⟩ := runs_done_ok_iff.mp hlast
      exact .listed tags

theorem aimed_runs {found : Option Repo} {aimed : Aim}
    (hrun : (aim identity found).Runs rule.conduct t log (.ok aimed) t') :
    Aimed identity found log aimed := by
  cases found with
  | none =>
    obtain ⟨rfl, rfl, -⟩ := runs_done_ok_iff.mp hrun
    exact .absent
  | some repo =>
    dsimp only [aim] at hrun
    split_ifs at hrun with hremoved
    · obtain ⟨rfl, rfl, -⟩ := runs_done_ok_iff.mp hrun
      exact .removed hremoved
    obtain ⟨answer, rest, hrest, rfl⟩ := Work.runs_probe_bind_iff.mp hrun
    split_ifs at hrest with husable
    · cases answer with
      | error e => cases husable
      | ok calls =>
        refine .went calls ?_ (listed_runs hrest)
        simpa [Work.quotaOf, Quota.isUsable] using husable
    · obtain ⟨rfl, rfl, -⟩ := runs_done_ok_iff.mp hrest
      refine .exhausted answer ?_
      rintro calls rfl
      simpa [Work.quotaOf, Quota.isUsable] using husable

end VersionSync
end ReleaseTracker
