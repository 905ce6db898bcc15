import ReleaseTracker.Proofs.GitHub.Routes
import ReleaseTracker.Proofs.Sync.VersionTally
import ReleaseTracker.Proofs.Sync.VersionTrail
import ReleaseTracker.Proofs.Work.Abort
import ReleaseTracker.Proofs.Work.ListingChoice

/-! The calls of a synchronisation of versions. Tags that are known cost none of them, and any other
tag costs at most three: its release, its object, and the rendering of the message (`Tour`). -/

namespace ReleaseTracker
open GitHub (ApiCall Exchange Tag requestOf)
open Program StoreRule

def Task.Query.isCall : Task.Query → Bool
  | .github _ _ => true
  | _ => false

def Task.Query.request? : Task.Query → Option GitHub.Request
  | .github _ call => call.request?
  | _ => none

namespace Log
variable {log : Log}

def calls (log : Log) : Log := log.filter (·.query.isCall)

@[simp] theorem calls_nil : calls [] = [] := rfl

@[simp] theorem calls_append (first rest : Log) :
    calls (first ++ rest) = first.calls ++ rest.calls := List.filter_append _ _

@[simp] theorem calls_github (identity : Identity) (call : ApiCall)
    (answer : Except ApiError call.Result) (log : Log) :
    calls (⟨.github identity call, answer⟩ :: log) = ⟨.github identity call, answer⟩ :: log.calls :=
  rfl

@[simp] theorem calls_store (call : StoreCall) (answer : Except StoreError call.Result)
    (log : Log) : calls (⟨.store call, answer⟩ :: log) = log.calls := rfl

theorem calls_eq_nil (h : log.requests = []) : log.calls = [] := by
  refine List.filter_eq_nil_iff.mpr fun event hevent hcall => ?_
  have hrequest := List.filterMap_eq_nil_iff.mp h event hevent
  obtain ⟨query, answer⟩ := event
  cases query with
  | github => cases hrequest
  | _ => cases hcall

def Requested (log : Log) : Prop := ∀ event ∈ log, ∃ request, event.query.request? = some request

theorem Requested.nil : Requested [] := by simp [Requested]

theorem Requested.single {event : Answered Task}
    (h : ∃ request, event.query.request? = some request) : Requested [event] := by
  simpa [Requested] using h

theorem Requested.ofRepo {identity : Identity} {call : ApiCall} {fullName parameters : String}
    {names : List String} {answer : Except ApiError call.Result} (hslash : '/' ∈ fullName.toList)
    (h : call.resource? .rest = some (fullName, names, parameters)) :
    Requested [⟨.github identity call, answer⟩] :=
  .single (GitHub.ApiCall.request?_of_slash hslash h)

theorem Requested.append {first rest : Log} (h : first.Requested) (h' : rest.Requested) :
    (first ++ rest).Requested := fun event hevent =>
  (List.mem_append.mp hevent).elim (h event) (h' event)

theorem Over.requests {budget : Nat} {wire : List (Answered Exchange)}
    (h : log.Over .rest budget wire) (hlog : log.Requested) :
    log.map (·.query.request?) = wire.map fun exchange => some (requestOf exchange) := by
  induction h with
  | nil => rfl
  | @cons identity call answer log exchanges wire hfirst _ ih =>
    obtain ⟨request, hrequest⟩ := hlog _ List.mem_cons_self
    have hrequest : call.request? = some request := hrequest
    have hsent : exchanges.map (fun exchange => some (requestOf exchange)) =
        [some request] := by
      have hmapped := congrArg (List.map some) hfirst.requests
      rwa [List.map_map, hrequest] at hmapped
    rw [List.map_append, hsent, List.map_cons, List.singleton_append,
      ih fun event hevent => hlog event (List.mem_cons_of_mem _ hevent)]
    exact congrArg (List.cons · _) hrequest

end Log

namespace VersionSync
variable {identity : Identity} {repo : Repo} {fullName message : String} {tag : Tag}
  {tags seen : List Tag} {t start : Tables} {log : Log} {rows rows' : List Version}
  {names : List String} {stop : Except Fault (Option StopReason)}

/-- A tag is known if its very name is stored, or if it is that of a tag staged before, whatever the
case of its letters. -/
def Known (t : Tables) (repo : Repo) (staged : List String) (tag : Tag) : Prop :=
  t.hasVersion repo.id tag.name = true ∨
    ∃ name ∈ staged, Text.lowerCase name = Text.lowerCase tag.name

/-- The calls about some tags in turn, after some names were staged. Nothing is called for about a
known tag, nor about any tag after one at which a call failed. -/
inductive Tour (identity : Identity) (repo : Repo) (t : Tables) :
    List String → List Tag → Log → Prop
  | done (staged : List String) : Tour identity repo t staged [] []
  | known {staged : List String} {tag : Tag} {tags : List Tag} {calls : Log}
      (known : Known t repo staged tag) (rest : Tour identity repo t staged tags calls) :
      Tour identity repo t staged (tag :: tags) calls
  | passed {staged : List String} {tag : Tag} {tags : List Tag} {asked calls : Log}
      (new : ¬ Known t repo staged tag) (examined : Examined identity repo tag asked (.ok none))
      (rest : Tour identity repo t staged tags calls) :
      Tour identity repo t staged (tag :: tags) (asked.calls ++ calls)
  | staged {staged : List String} {tag : Tag} {tags : List Tag} {asked calls : Log} {row : Version}
      (new : ¬ Known t repo staged tag)
      (examined : Examined identity repo tag asked (.ok (some row)))
      (rest : Tour identity repo t (staged ++ [tag.name]) tags calls) :
      Tour identity repo t staged (tag :: tags) (asked.calls ++ calls)
  | stopped {staged : List String} {tag : Tag} (tags : List Tag) {asked : Log} {reason : StopReason}
      (new : ¬ Known t repo staged tag)
      (examined : Examined identity repo tag asked (.error reason)) :
      Tour identity repo t staged (tag :: tags) asked.calls

theorem known_iff :
    (start.hasVersion repo.id tag.name || isTaken rows tag.name) = true ↔
      Known start repo (rows.map (·.tagName)) tag := by
  simp [Known, isTaken]

theorem Examined.tagName {asked : Log} {row : Version}
    (h : Examined identity repo tag asked (.ok (some row))) : row.tagName = tag.name := by
  cases h
  rfl

theorem Batched.calls (h : Batched log) : log.calls = [] := by
  obtain rfl | ⟨_, _, rfl⟩ := h <;> rfl

/-- The calls of a trail are a tour of the tags that it came to, which are all of them unless the
store failed. -/
theorem Trail.tour (h : Trail identity repo start rows tags log rows' stop) :
    ∃ seen left, tags = seen ++ left ∧
      Tour identity repo start (rows.map (·.tagName)) seen log.calls ∧
        (left = [] ∨ ∃ e, stop = .error e) := by
  induction h with
  | done rows => exact ⟨[], [], rfl, .done _, .inl rfl⟩
  | @ended rows _ tag _ _ tags hlast hearly =>
    cases hlast with
    | unknown e => exact ⟨[], tag :: tags, rfl, .done _, .inr ⟨_, rfl⟩⟩
    | known | passed | staged => exact absurd rfl hearly
    | stopped _ hnew hexamined =>
      refine ⟨tag :: tags, [], by simp, ?_, .inl rfl⟩
      rw [Log.calls_store]
      exact .stopped tags (mt known_iff.mpr hnew) hexamined
    | unstored _ hnew hexamined hbatched e =>
      refine ⟨[tag], tags, rfl, ?_, .inr ⟨e, rfl⟩⟩
      rw [Log.calls_store, Log.calls_append, hbatched.calls]
      exact .staged (mt known_iff.mpr hnew) hexamined (.done _)
  | @more rows _ _ tag _ log _ _ hfirst _ ih =>
    obtain ⟨seen, left, rfl, htour, hleft⟩ := ih
    refine ⟨tag :: seen, left, rfl, ?_, hleft⟩
    rw [Log.calls_append]
    cases hfirst with
    | known _ hknown => exact .known (known_iff.mp hknown) htour
    | passed _ hnew hexamined =>
      rw [Log.calls_store]
      exact .passed (mt known_iff.mpr hnew) hexamined htour
    | staged _ hnew hexamined hbatched =>
      rw [Log.calls_store, Log.calls_append, hbatched.calls, List.append_nil]
      rw [List.map_append, List.map_singleton, hexamined.tagName] at htour
      exact .staged (mt known_iff.mpr hnew) hexamined htour

/-! What the calls cost -/

theorem objectCall?_resource {call : ApiCall} (h : objectCall? fullName tag = some call) :
    ∃ names, call.resource? .rest = some (fullName, names, "") := by
  unfold objectCall? at h
  split at h <;> cases h <;> exact ⟨_, rfl⟩

theorem Dated.calls {release : GitHub.Release} {date : Instant} (h : Dated release log date) :
    log.calls = [] := by
  cases h <;> rfl

theorem Described.calls {answer : Except ApiError (Option Description)}
    (h : Described identity fullName tag log answer) :
    log.calls.length ≤ 2 ∧ ('/' ∈ fullName.toList → log.calls.Requested) := by
  have hrelease (found : Except ApiError (Option GitHub.Release)) (hslash : '/' ∈ fullName.toList) :
      Log.Requested [⟨.github identity (.releaseByTag fullName tag.name), found⟩] :=
    .ofRepo hslash rfl
  have hboth {call : ApiCall} (hcall : objectCall? fullName tag = some call)
      (found : Except ApiError (Option GitHub.Release)) (answer : Except ApiError call.Result)
      (hslash : '/' ∈ fullName.toList) :
      Log.Requested [⟨.github identity (.releaseByTag fullName tag.name), found⟩,
        ⟨.github identity call, answer⟩] := by
    obtain ⟨names, hresource⟩ := objectCall?_resource hcall
    exact (hrelease found hslash).append (.ofRepo hslash hresource)
  cases h with
  | unresolved | unsupported => exact ⟨Nat.le_succ 1, hrelease _⟩
  | released _ hdated =>
    rw [Log.calls_github, hdated.calls]
    exact ⟨Nat.le_succ 1, hrelease _⟩
  | lost hcall e => exact ⟨Nat.le_refl 2, hboth hcall _ _⟩
  | annotated hkind | committed hkind | filed hkind =>
    exact ⟨Nat.le_refl 2, hboth (by rw [objectCall?, hkind]) _ _⟩

theorem Rendered.calls {answer : Except ApiError String}
    (h : Rendered identity fullName message log answer) :
    log.calls.length ≤ 1 ∧ log.calls.Requested := by
  cases h with
  | empty => exact ⟨Nat.zero_le 1, .nil⟩
  | posted => exact ⟨Nat.le_refl 1, .single ⟨_, rfl⟩⟩

theorem Examined.calls {answer : Except StopReason (Option Version)}
    (h : Examined identity repo tag log answer) :
    log.calls.length ≤ 3 ∧ ('/' ∈ repo.fullName.toList → log.calls.Requested) := by
  cases h with
  | undescribed hdescribed | unsupported hdescribed =>
    exact hdescribed.calls.imp_left (Nat.le_succ_of_le ·)
  | unrendered hdescribed hrendered | row hdescribed hrendered =>
    rw [Log.calls_append, List.length_append]
    exact ⟨Nat.add_le_add hdescribed.calls.1 hrendered.calls.1,
      fun hslash => (hdescribed.calls.2 hslash).append hrendered.calls.2⟩

theorem Tour.requested {calls : Log} (h : Tour identity repo t names tags calls)
    (hslash : '/' ∈ repo.fullName.toList) : calls.Requested := by
  induction h with
  | done => exact .nil
  | known _ _ ih => exact ih
  | passed _ hexamined _ ih | staged _ hexamined _ ih =>
    exact (hexamined.calls.2 hslash).append ih
  | stopped _ _ hexamined => exact hexamined.calls.2 hslash

def lacks (t : Tables) (repo : Repo) (tag : Tag) : Bool := !t.hasVersion repo.id tag.name

theorem lacks_of_new (h : ¬ Known t repo names tag) : lacks t repo tag = true := by
  simpa [lacks] using fun hstored => h (.inl hstored)

theorem Tour.length_le {calls : Log} (h : Tour identity repo t names tags calls) :
    calls.length ≤ 3 * tags.countP (lacks t repo) := by
  induction h with
  | done => exact Nat.zero_le _
  | known _ _ ih =>
    rw [List.countP_cons]
    omega
  | passed hunknown hexamined _ ih | staged hunknown hexamined _ ih =>
    rw [List.countP_cons_of_pos (lacks_of_new hunknown), List.length_append]
    have hthree := hexamined.calls.1
    omega
  | stopped tags hunknown hexamined =>
    rw [List.countP_cons_of_pos (lacks_of_new hunknown)]
    have hthree := hexamined.calls.1
    omega

/-- The calls of a run that got past the quota, given how it ended. Tags are left out only if the
store failed. -/
inductive Pursued (identity : Identity) (repo : Repo) (t : Tables)
    (result : Except Fault Outcome) : Log → Prop
  | unanswered (e : ApiError) : Pursued identity repo t result
      [⟨.github identity (.hasTags repo.fullName), Except.error e⟩]
  | untagged : Pursued identity repo t result
      [⟨.github identity (.hasTags repo.fullName), Except.ok false⟩]
  | unlisted (e : ApiError) : Pursued identity repo t result
      [⟨.github identity (.hasTags repo.fullName), Except.ok true⟩,
        ⟨.github identity (.allTags repo.fullName), Except.error e⟩]
  | toured {seen left : List Tag} {calls : Log} (tour : Tour identity repo t [] seen calls)
      (whole : left = [] ∨ ∃ e, result = .error e) : Pursued identity repo t result
      (⟨.github identity (.hasTags repo.fullName), Except.ok true⟩ ::
        ⟨.github identity (.allTags repo.fullName), Except.ok (seen ++ left)⟩ :: calls)

theorem Listed.calls {aimed : Aim} (h : Listed identity repo log aimed) : log.calls = log := by
  cases h <;> rfl

/-- A run got past the quota: GitHub told that some calls were left. -/
def PastQuota (identity : Identity) (log : Log) : Prop :=
  ∃ remaining, 0 < remaining ∧ ⟨.github identity .remainingCalls, Except.ok remaining⟩ ∈ log

theorem pursue_calls {options : SyncOptions} {found : Option Repo} {first rest : Log} {aimed : Aim}
    {t' : Tables} {result : Except Fault Outcome} (hfound : ∀ repo, found = some repo →
      (t.repo? repo.id).isSome) (haimed : Aimed identity found first aimed)
    (hrun : (pursue options identity aimed).Runs fallible.conduct t rest result t')
    (hpast : PastQuota identity (first.calls ++ rest.calls)) :
    ∃ repo remaining asked, found = some repo ∧
      first.calls ++ rest.calls =
        ⟨.github identity .remainingCalls, Except.ok remaining⟩ :: asked ∧
      Pursued identity repo t result asked := by
  obtain ⟨left, hleft, hprobe⟩ := hpast
  cases haimed with
  | absent | removed =>
    obtain ⟨rfl, -⟩ := runs_done_iff.mp hrun
    cases hprobe
  | exhausted answer hunusable =>
    obtain ⟨rfl, -⟩ := runs_done_iff.mp hrun
    cases List.mem_singleton.mp hprobe
    exact absurd (hunusable left rfl) hleft.ne'
  | @went repo log _ remaining _ hlisted =>
    refine ⟨repo, remaining, log ++ rest.calls, rfl, ?_, ?_⟩
    · rw [Log.calls_github, hlisted.calls, List.cons_append]
    cases hlisted with
    | unanswered e =>
      rw [Log.calls_eq_nil (refused_ends le_rfl hrun).2.2.1]
      exact .unanswered e
    | untagged =>
      obtain ⟨rfl, -⟩ := runs_done_iff.mp hrun
      exact .untagged
    | unlisted e =>
      rw [Log.calls_eq_nil (refused_ends le_rfl hrun).2.2.1]
      exact .unlisted e
    | listed tags =>
      obtain ⟨walked, last, rows, stop, staging, rfl, hsilent, htrail, -, hfault⟩ :=
        pursue_tags_trail le_rfl (hfound repo rfl) hrun
      obtain ⟨seen, left, rfl, htour, hwhole⟩ := htrail.tour
      rw [Log.calls_append, Log.calls_eq_nil (Log.requests_eq_nil hsilent), List.append_nil]
      exact .toured htour (hwhole.imp_right fun ⟨e, hstop⟩ => ⟨e, hfault e hstop⟩)

theorem syncVersions_pursued {options : SyncOptions} {repoId : Int} {t' : Tables}
    {result : Except Fault Outcome}
    (hrun : (syncVersions options identity repoId).Runs fallible.conduct t log result t')
    (hpast : PastQuota identity log) : ∃ repo remaining asked, t.repo? repoId = some repo ∧
      log.calls = ⟨.github identity .remainingCalls, Except.ok remaining⟩ :: asked ∧
      Pursued identity repo t result asked := by
  obtain ⟨remaining, hleft, hprobe⟩ := hpast
  have hprobed : ⟨.github identity .remainingCalls, Except.ok remaining⟩ ∈ log.calls :=
    List.mem_filter.mpr ⟨hprobe, rfl⟩
  cases syncVersions_synced le_rfl hrun with
  | lost => cases hprobed
  | pursued haim hpursue =>
    rw [Log.calls_store, Log.calls_append] at hprobed ⊢
    exact pursue_calls (fun repo hrepo => Tables.isSome_repo? hrepo) (aimed_runs haim) hpursue
      ⟨remaining, hleft, hprobed⟩

theorem Pursued.requested {result : Except Fault Outcome} {asked : Log}
    (h : Pursued identity repo t result asked) (hslash : '/' ∈ repo.fullName.toList) :
    asked.Requested := by
  have hprobe (answer : Except ApiError Bool) :
      Log.Requested [⟨.github identity (.hasTags repo.fullName), answer⟩] := .ofRepo hslash rfl
  have hlisting (answer : Except ApiError (List Tag)) :
      Log.Requested [⟨.github identity (.allTags repo.fullName), answer⟩] := .ofRepo hslash rfl
  cases h with
  | unanswered | untagged => exact hprobe _
  | unlisted => exact (hprobe _).append (hlisting _)
  | toured htour _ => exact (hprobe _).append ((hlisting _).append (htour.requested hslash))

theorem Pursued.length_le {result : Except Fault Outcome} {rest : Log}
    (h : Pursued identity repo t result
      (⟨.github identity (.hasTags repo.fullName), Except.ok true⟩ ::
        ⟨.github identity (.allTags repo.fullName), Except.ok tags⟩ :: rest)) :
    rest.length ≤ 3 * tags.countP (lacks t repo) := by
  cases h with
  | toured htour _ =>
    rw [List.countP_append]
    have hseen := htour.length_le
    omega

theorem Pursued.requests_quota {result : Except Fault Outcome} {asked : Log} {budget : Nat}
    {wire : List (Answered Exchange)} {answer : Except ApiError Nat}
    (h : Pursued identity repo t result asked) (hslash : '/' ∉ repo.fullName.toList)
    (hwire : Log.Over .rest budget (⟨.github identity .remainingCalls, answer⟩ :: asked) wire) :
    wire.map requestOf = [⟨.get, "/rate_limit", none⟩] := by
  obtain ⟨first, rest, hprobe, hrest, rfl⟩ := Log.over_cons_iff.mp hwire
  have hfirst : first.map requestOf = [⟨.get, "/rate_limit", none⟩] := hprobe.requests
  cases h with
  | unanswered e =>
    obtain ⟨asked, last, htags, hlast, rfl⟩ := Log.over_cons_iff.mp hrest
    rw [(htags.requests_nothing rfl hslash).1, Log.over_nil_iff.mp hlast, List.append_nil,
      List.append_nil, hfirst]
  | untagged | unlisted | toured =>
    obtain ⟨asked, last, htags, -, -⟩ := Log.over_cons_iff.mp hrest
    cases (htags.requests_nothing rfl hslash).2

end VersionSync

open VersionSync

/-- A run that got past the quota first asks whether the repository has tags, and then for all of
them. After that it calls for a tag at most three times, in the order of the tags, and only for one
that is new: its very name is not stored, and no tag staged before it has the same name in lower
case. Nothing is called for after a failure. The requests are those of the calls, one for each, so
three if every tag is stored. Without a slash in the repository's name, the quota is all that is
requested. -/
theorem syncVersions_calls_for_new_tags {σ : Type} (w : Surroundings fallible σ)
    (options : SyncOptions) (identity : Identity) (repoId : Int) (s : σ)
    (hpast : PastQuota identity (w.transcript (syncVersions options identity repoId) s)) :
    let calls := (w.transcript (syncVersions options identity repoId) s).calls
    let result := (w.run (syncVersions options identity repoId) s).1
    ∃ repo remaining asked, (w.tables s).repo? repoId = some repo ∧
      calls = ⟨.github identity .remainingCalls, Except.ok remaining⟩ :: asked ∧
      Pursued identity repo (w.tables s) result asked ∧
      (∀ tag log answer, Examined identity repo tag log answer → log.calls.length ≤ 3) ∧
      ∀ (budget : Nat) (wire : List (Answered Exchange)), calls.Over .rest budget wire →
        ('/' ∈ repo.fullName.toList →
          calls.map (·.query.request?) = wire.map (fun exchange => some (requestOf exchange)) ∧
          ∀ tags rest, asked = ⟨.github identity (.hasTags repo.fullName), Except.ok true⟩ ::
              ⟨.github identity (.allTags repo.fullName), Except.ok tags⟩ :: rest →
            wire.length ≤ 3 + 3 * tags.countP (lacks (w.tables s) repo) ∧
            ((∀ tag ∈ tags, (w.tables s).hasVersion repoId tag.name = true) → wire.length = 3)) ∧
        ('/' ∉ repo.fullName.toList → wire.map requestOf = [⟨.get, "/rate_limit", none⟩]) := by
  intro calls result
  obtain ⟨repo, remaining, asked, hrepo, hcalls, hpursued⟩ :=
    syncVersions_pursued (w.runs (syncVersions options identity repoId) s) hpast
  change calls = _ at hcalls
  refine ⟨repo, remaining, asked, hrepo, hcalls, hpursued, fun _ _ _ h => h.calls.1,
    fun budget wire hwire => ⟨fun hslash => ?_, fun hslash => ?_⟩⟩
  · have hrequested : Log.Requested calls := by
      rw [hcalls]
      exact Log.Requested.append (.single ⟨_, rfl⟩) (hpursued.requested hslash)
    have hsent := hwire.requests hrequested
    refine ⟨hsent, fun tags rest hasked => ?_⟩
    subst hasked
    -- the quota, the question for tags and the list of them come first
    have hlength : wire.length = 3 + rest.length := by
      have hmaps := congrArg List.length hsent
      rw [List.length_map, List.length_map, hcalls] at hmaps
      simp only [List.length_cons] at hmaps
      omega
    have hrest := hpursued.length_le
    refine ⟨by omega, fun hstored => ?_⟩
    have hnone : tags.countP (lacks (w.tables s) repo) = 0 := by
      refine List.countP_eq_zero.mpr fun tag htag => ?_
      rw [lacks, Tables.repo?_id hrepo, hstored tag htag]
      decide
    omega
  · rw [hcalls] at hwire
    exact hpursued.requests_quota hslash hwire

namespace VersionSync.Sample

def served : GitHub.Facts := fun call =>
  match Listings.Sample.rest.call .rest 1 call with
  | .ok answer => answer
  | .error _ => .error (.transport "")

theorem over_served {call : ApiCall}
    (h : Listings.Sample.rest.call .rest 1 call = .ok (served call)) :
    call.Over .rest 1 ((call.program .rest 1).transcript Listings.Sample.rest.answer ())
      (served call) := by
  have hanswers (request : GitHub.Request) (u : Unit) : ∃ reply u',
      Listings.Sample.rest.answer request u = (.ok reply, u') ∧
        anyhow (I := Exchange) (id u) request reply (id u') := ⟨_, _, rfl, trivial⟩
  have hrun := runs_run hanswers (call.program .rest 1) ()
  rwa [show ((call.program .rest 1).run Listings.Sample.rest.answer ()).1 = _ from h] at hrun

def begun : Tables :=
  { StarSync.Sample.tables with versions := [⟨1, "v1.0", "v1.0", false, "", .utc time⟩] }

def calls : Log :=
  ((Engine.Sample.world served).transcript (syncVersions inPairs .app 1) begun).calls

def wire : List (Answered Exchange) :=
  ["/rate_limit", "/repos/o/r/tags?per_page=1&page=1", "/repos/o/r/git/refs/tags",
    "/repos/o/r/releases/tags/v1.1", "/repos/o/r/releases/tags/v2.0",
    "/repos/o/r/git/commits/a"].map fun target =>
      ⟨⟨.get, target, none⟩, Listings.Sample.rest ⟨.get, target, none⟩⟩

theorem calls_over : calls.Over .rest 1 wire :=
  .cons (over_served rfl) (.cons (over_served rfl) (.cons (over_served rfl)
    (.cons (over_served rfl) (.cons (over_served rfl) (.cons (over_served rfl) .nil)))))

def solo : Repo := ⟨42, "solo", "solo", none, none, none, none, .utc time, none⟩

def soloTables : Tables := ⟨[], [solo], [], []⟩

def soloCalls : Log :=
  ((Engine.Sample.world served).transcript (syncVersions inPairs .app 42) soloTables).calls

end VersionSync.Sample

open VersionSync.Sample in
theorem syncVersions_calls_for_new_tags_two : ∃ asked,
    calls = ⟨.github .app .remainingCalls, Except.ok 50⟩ :: asked ∧
      Pursued .app (StarSync.Sample.repo 1) begun (.ok (.completed 1)) asked ∧
      calls.map (·.query.request?) = wire.map (fun exchange => some (requestOf exchange)) ∧
      wire.length ≤ 3 + 3 * 2 := by
  have hpast : PastQuota .app
      ((Engine.Sample.world served).transcript (syncVersions inPairs .app 1) begun) :=
    ⟨50, by decide, List.mem_cons_of_mem _ List.mem_cons_self⟩
  obtain ⟨repo, remaining, asked, hrepo, hcalls, hpursued, -, hwire⟩ :=
    syncVersions_calls_for_new_tags (Engine.Sample.world served) inPairs .app 1 begun hpast
  cases hrepo
  obtain ⟨hsent, hlength⟩ := (hwire 1 wire calls_over).1 (by decide)
  cases hcalls
  exact ⟨_, rfl, hpursued, hsent, (hlength _ _ rfl).1⟩

open VersionSync.Sample in
/-- Past the quota, no second request follows when there is no slash in the name. -/
theorem syncVersions_requests_no_tags_of_solo :
    PastQuota .app
      ((Engine.Sample.world served).transcript (syncVersions inPairs .app 42) soloTables) ∧
    (∃ wire, soloCalls.Over .rest 1 wire) ∧
    ∀ budget wire, soloCalls.Over .rest budget wire → ∀ request rest,
      wire.map requestOf ≠ ⟨.get, "/rate_limit", none⟩ :: request :: rest := by
  refine ⟨⟨50, by decide, List.mem_cons_of_mem _ List.mem_cons_self⟩,
    ⟨_, .cons (over_served rfl) (.cons (over_served rfl) .nil)⟩, ?_⟩
  intro budget wire hwire request rest hsent
  have hpursued : Pursued .app solo soloTables (.ok (.aborted .remoteFailure))
      [⟨.github .app (.hasTags "solo"), served (.hasTags "solo")⟩] := .unanswered _
  rw [hpursued.requests_quota (by decide) hwire] at hsent
  cases hsent

end ReleaseTracker
