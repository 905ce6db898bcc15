import ReleaseTracker.Proofs.GitHub.Exchanges
import ReleaseTracker.Proofs.Sync.VersionTrail

/-! Where the versions of a pass come from. Each row that a pass adds is made of what was answered
about one tag, and of nothing else: the release of its name, or else the object that it points at,
and the rendered message. The answer about an object is what one reply tells of it
(`ApiCall.Over.object`). -/

namespace ReleaseTracker
open GitHub (ApiCall Exchange Tag replyOf)
open Program StoreRule

namespace GitHub
variable {listing : ListingKind} {budget : Nat} {call : ApiCall}
  {exchanges : List (Answered Exchange)}

/-- How an object that a tag points at is read. An annotated tag is signed by its tagger, a commit
by its author, and the contents of a file are decoded. -/
def ApiCall.readObject? : (call : ApiCall) → Option (Json → Option call.Result)
  | .annotatedTag _ _ => some (SignedMessage.ofJson? "tagger")
  | .commit _ _ => some (SignedMessage.ofJson? "author")
  | .blob _ _ => some fun v => (RawBlob.ofJson? v).bind fun raw => raw.decode.toOption
  | _ => none

theorem carries_of_getOfRepo {α : Type} {fullName parameters : String} {names : List String}
    {read : Json → Option α} {a : α}
    (h : (Rest.getOfRepo fullName names parameters read).Runs anyhow () exchanges (.ok (.ok a))
      ()) :
    ∃ exchange, exchanges = [exchange] ∧ (replyOf exchange).Carries fun v => read v = some a := by
  unfold Rest.getOfRepo at h
  split at h
  · obtain ⟨reply, rfl, hread⟩ := runs_once_iff.mp h
    exact ⟨_, rfl, Reply.read_ok_iff.mp hread.symm⟩
  · cases (runs_answered_iff.mp h).2

theorem carries_of_blob {fullName sha : String} {blob : Blob}
    (h : (GitHub.blob fullName sha).Runs anyhow () exchanges (.ok (.ok blob)) ()) :
    ∃ exchange, exchanges = [exchange] ∧ (replyOf exchange).Carries fun v =>
      ((RawBlob.ofJson? v).bind fun raw => raw.decode.toOption) = some blob := by
  obtain ⟨e, -, hresult⟩ | ⟨read, mid, first, rest, hfirst, hrest, rfl⟩ := runs_bind_iff.mp h
  · cases hresult
  obtain ⟨rfl, hdecoded⟩ := runs_answered_iff.mp hrest
  cases read with
  | error e => cases hdecoded
  | ok raw =>
    obtain ⟨exchange, rfl, status, body, v, hreply, hstatus, hfront, hread⟩ :=
      carries_of_getOfRepo hfirst
    have hobject : ((RawBlob.ofJson? v).bind fun raw => raw.decode.toOption) = some blob := by
      rw [hread, Option.bind_some, show raw.decode = .ok blob from hdecoded.symm]
      rfl
    exact ⟨exchange, rfl, status, body, v, hreply, hstatus, hfront, hobject⟩

theorem ApiCall.Over.object {read : Json → Option call.Result} {answer : call.Result}
    (hover : call.Over listing budget exchanges (.ok answer)) (h : call.readObject? = some read) :
    ∃ exchange, exchanges = [exchange] ∧
      (replyOf exchange).Carries fun v => read v = some answer := by
  cases call with
  | annotatedTag | commit =>
    cases h
    exact carries_of_getOfRepo hover
  | blob =>
    cases h
    exact carries_of_blob hover
  | _ => cases h

end GitHub

namespace Log
variable {log more : Log}

def Closed (log : Log) : Prop := ∀ event ∈ log.head?, event.query.isInquiry = false

theorem Closed.nil : Closed [] := by simp [Closed]

theorem Closed.of_inquiries (h : log.inquiries = []) : log.Closed := fun event hevent => by
  simpa using List.filter_eq_nil_iff.mp h event (List.mem_of_mem_head? hevent)

theorem Closed.append (h : log.Closed) (h' : more.Closed) : Closed (log ++ more) := by
  cases log with
  | nil => exact h'
  | cons event log => exact h

end Log

namespace VersionSync
variable {identity : Identity} {repo : Repo} {tag : Tag} {tags : List Tag} {start : Tables}
  {log more : Log} {rows rows' : List Version} {row : Version}
  {stop : Except Fault (Option StopReason)}

/-- The tag was looked up, described and rendered, and nothing else was asked about it. The row is
made of the answers. -/
def Sourced (identity : Identity) (repo : Repo) (tag : Tag) (log : Log) (row : Version) : Prop :=
  ∃ (before first last after : Log) (stored : Bool) (description : Description) (body : String),
    log = before ++ ⟨.store (.findExistingVersion repo.id tag.name), Except.ok stored⟩ ::
      (first ++ (last ++ after)) ∧
    Log.Closed after ∧
    Described identity repo.fullName tag first (.ok (some description)) ∧
    Rendered identity repo.fullName description.message last (.ok body) ∧
    row = { repoId := repo.id, tagName := tag.name, name := description.name,
            prerelease := description.prerelease, body := body,
            createdAt := .utc description.date }

theorem Sourced.after (h : Sourced identity repo tag log row) (earlier : Log) :
    Sourced identity repo tag (earlier ++ log) row := by
  obtain ⟨before, first, last, after, stored, description, body, rfl, hsource⟩ := h
  refine ⟨earlier ++ before, first, last, after, stored, description, body, ?_, hsource⟩
  rw [List.append_assoc]

theorem Sourced.before (h : Sourced identity repo tag log row) (hmore : more.Closed) :
    Sourced identity repo tag (log ++ more) row := by
  obtain ⟨before, first, last, after, stored, description, body, rfl, hclosed, hsource⟩ := h
  refine ⟨before, first, last, after ++ more, stored, description, body, ?_, hclosed.append hmore,
    hsource⟩
  simp

theorem Batched.closed (h : Batched log) : log.Closed := by
  obtain rfl | ⟨_, _, rfl⟩ := h
  · exact .nil
  · simp [Log.Closed, Task.Query.isInquiry]

theorem Visited.closed (h : Visited identity repo start rows tag log rows' stop) : log.Closed := by
  cases h <;> simp [Log.Closed, Task.Query.isInquiry]

theorem Trail.closed (h : Trail identity repo start rows tags log rows' stop) : log.Closed := by
  induction h with
  | done => exact .nil
  | ended _ hlast _ => exact hlast.closed
  | more hfirst _ ih => exact hfirst.closed.append ih

theorem Visited.sourced (h : Visited identity repo start rows tag log rows' stop)
    (hrow : row ∈ rows') : row ∈ rows ∨ Sourced identity repo tag log row := by
  cases h with
  | unknown | known | stopped | passed | unstored => exact .inl hrow
  | @staged new asked last stored _ hexamined hbatched =>
    obtain hold | hnew := List.mem_append.mp hrow
    · exact .inl hold
    obtain rfl := List.mem_singleton.mp hnew
    cases hexamined with
    | @row first rendered description body hdescribed hrendered =>
      exact .inr ⟨[], first, rendered, last, stored, description, body, by simp, hbatched.closed,
        hdescribed, hrendered, rfl⟩

theorem Trail.sourced (h : Trail identity repo start rows tags log rows' stop)
    (hrow : row ∈ rows') : row ∈ rows ∨ ∃ tag ∈ tags, Sourced identity repo tag log row := by
  induction h with
  | done => exact .inl hrow
  | ended tags hlast _ =>
    exact (hlast.sourced hrow).imp_right fun hsourced => ⟨_, List.mem_cons_self, hsourced⟩
  | more hfirst hrest ih =>
    obtain hmid | ⟨tag, htag, hsourced⟩ := ih hrow
    · refine (hfirst.sourced hmid).imp_right fun hsourced => ?_
      exact ⟨_, List.mem_cons_self, hsourced.before hrest.closed⟩
    · exact .inr ⟨tag, List.mem_cons_of_mem _ htag, hsourced.after _⟩

end VersionSync

open VersionSync

/-- Each row that a run adds comes from a listed tag of the repository. What was asked about the tag
is in the log between the look-up of its name and the next question to the store or the hub: its
release, and only without one its object, then the rendering of the message if there is any. The row
is made of the answers, and what is answered about an object is read from the reply to the call. -/
theorem syncVersions_rows_sourced {σ : Type} (w : Surroundings fallible σ) (options : SyncOptions)
    (identity : Identity) (repoId : Int) (s : σ) :
    (∃ added : List Version,
      (w.tables (w.run (syncVersions options identity repoId) s).2).versions =
        (w.tables s).versions ++ added ∧
      ∀ row ∈ added, ∃ (repo : Repo) (tags : List Tag) (tag : Tag),
        (w.tables s).repo? repoId = some repo ∧
        ⟨.github identity (.allTags repo.fullName), Except.ok tags⟩ ∈
          w.transcript (syncVersions options identity repoId) s ∧
        tag ∈ tags ∧
        Sourced identity repo tag (w.transcript (syncVersions options identity repoId) s) row) ∧
    ∀ (listing : ListingKind) (budget : Nat) (call : ApiCall) (read : Json → Option call.Result)
      (exchanges : List (Answered Exchange)) (answer : call.Result),
      call.readObject? = some read → call.Over listing budget exchanges (.ok answer) →
        ∃ exchange, exchanges = [exchange] ∧
          (replyOf exchange).Carries fun v => read v = some answer := by
  refine ⟨?_, fun _ _ _ _ _ _ hread hover => hover.object hread⟩
  have hrun := w.runs (syncVersions options identity repoId) s
  generalize w.transcript (syncVersions options identity repoId) s = log at hrun ⊢
  generalize w.tables (w.run (syncVersions options identity repoId) s).2 = t' at hrun ⊢
  generalize (w.run (syncVersions options identity repoId) s).1 = result at hrun
  generalize w.tables s = t at hrun ⊢
  cases syncVersions_synced le_rfl hrun with
  | lost => exact ⟨[], (List.append_nil _).symm, by simp⟩
  | @pursued aimed first rest _ _ haim hpursued =>
  have haimed := aimed_runs haim
  cases aimed with
  | ended outcome =>
    obtain ⟨-, -, rfl⟩ := runs_done_iff.mp hpursued
    exact ⟨[], (List.append_nil _).symm, by simp⟩
  | refused repo e =>
    obtain ⟨hversions, -⟩ := refused_ends le_rfl hpursued
    exact ⟨[], by simp [hversions], by simp⟩
  | tags repo tags =>
    have hrepo : t.repo? repoId = some repo := aim_suits haim
    obtain ⟨walked, last, rows, stop, staging, rfl, hsilent, htrail, hgathered, -⟩ :=
      pursue_tags_trail le_rfl (Tables.isSome_repo? hrepo) hpursued
    obtain ⟨flushed, rfl, ht⟩ := hgathered.stored
    refine ⟨flushed, by rw [ht], fun row hrow => ?_⟩
    obtain hnone | ⟨tag, htag, hsourced⟩ := htrail.sourced (List.mem_append_left _ hrow)
    · cases hnone
    refine ⟨repo, tags, tag, hrepo, ?_, htag, ?_⟩
    · rw [hrepo] at haimed
      cases haimed with
      | went calls _ hlisted =>
        cases hlisted
        simp
    · have hwhole := (hsourced.after (⟨.store (.findRepo repoId), Except.ok (t.repo? repoId)⟩ ::
        first)).before (Log.Closed.of_inquiries hsilent)
      simpa using hwhole

end ReleaseTracker
