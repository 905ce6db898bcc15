import ReleaseTracker.Sync.Outcome
import ReleaseTracker.Sync.Signature
import ReleaseTracker.Sync.Task
import ReleaseTracker.Text.LowerCase

/-! Following a repository's versions: each tag that is not stored yet is described by its release,
or else by the object that it points at, and stored in batches. News are announced at the end. -/

namespace ReleaseTracker
open GitHub (Tag ObjectKind Release SignedMessage Blob)

namespace VersionSync

structure Description where
  name : String
  prerelease : Bool
  date : Instant
  message : String
deriving DecidableEq, Repr

def releaseName (tag : Tag) (release : Release) : String :=
  match release.name with
  | some name => if Text.allBlank name.toList then tag.name else name
  | none => tag.name

def releaseDate (release : Release) : Work Instant :=
  match release.publishedAt.or release.createdAt with
  | some date => .done date
  | none => Work.clock

def ofRelease (tag : Tag) (release : Release) : Work Description :=
  (releaseDate release).bind fun date =>
    .done ⟨releaseName tag release, release.prerelease, date, release.body.getD ""⟩

def ofSigned (tag : Tag) (object : SignedMessage) : Description :=
  ⟨tag.name, false, object.signature.date, object.message⟩

def ofBlob (tag : Tag) (blob : Blob) : Work Description :=
  Work.clock.bind fun now => .done ⟨tag.name, false, now, blobText blob.size blob.content⟩

def describeObject (identity : Identity) (fullName : String) (tag : Tag) :
    Work (Except ApiError (Option Description)) :=
  match tag.kind with
  | .tag =>
    (Work.github identity (.annotatedTag fullName tag.sha)).bind
      fun (object : Except ApiError SignedMessage) =>
        .done (object.map fun object => some (ofSigned tag object))
  | .commit =>
    (Work.github identity (.commit fullName tag.sha)).bind
      fun (object : Except ApiError SignedMessage) =>
        .done (object.map fun object => some (ofSigned tag object))
  | .blob =>
    (Work.github identity (.blob fullName tag.sha)).bind fun (object : Except ApiError Blob) =>
      match object with
      | .ok blob => (ofBlob tag blob).bind fun description => .done (.ok (some description))
      | .error e => .done (.error e)
  | .other _ => .done (.ok none)

def describe (identity : Identity) (fullName : String) (tag : Tag) :
    Work (Except ApiError (Option Description)) :=
  (Work.github identity (.releaseByTag fullName tag.name)).bind
    fun (found : Except ApiError (Option Release)) =>
      match found with
      | .ok (some release) =>
        (ofRelease tag release).bind fun description => .done (.ok (some description))
      | .ok none => describeObject identity fullName tag
      | .error e => .done (.error e)

/-- Render a message. Nothing is asked for an empty one. -/
def render (identity : Identity) (fullName message : String) : Work (Except ApiError String) :=
  match stripSignature message.toList with
  | [] => .done (.ok "")
  | stripped => Work.github identity (.renderMarkdown (String.ofList stripped) fullName)

/-- The versions of one pass: the names taken, in lower case, the versions that wait to be stored,
and the number of all. -/
structure Staging where
  names : List String
  pending : List Version
  created : Nat
deriving DecidableEq, Repr

namespace Staging

def empty : Staging := ⟨[], [], 0⟩

def holds (staging : Staging) (tagName : String) : Bool :=
  staging.names.contains (Text.lowerCase tagName)

def stage (staging : Staging) (version : Version) : Staging where
  names := Text.lowerCase version.tagName :: staging.names
  pending := staging.pending ++ [version]
  created := staging.created + 1

def flush (staging : Staging) : Work Staging :=
  match staging.pending with
  | [] => .done staging
  | pending =>
    (Work.store (.createVersions pending)).bind fun _ => .done { staging with pending := [] }

def flushIfFull (flushEvery : Nat) (staging : Staging) : Work Staging :=
  if flushEvery ≤ staging.pending.length then staging.flush else .done staging

end Staging

def version (repoId : Int) (tag : Tag) (description : Description) (body : String) : Version where
  repoId := repoId
  tagName := tag.name
  name := description.name
  prerelease := description.prerelease
  body := body
  createdAt := .utc description.date

def takeTag (options : SyncOptions) (identity : Identity) (repo : Repo) (staging : Staging)
    (tag : Tag) : Work (Staging × Option StopReason) :=
  (Work.store (.findExistingVersion repo.id tag.name)).bind fun (stored : Bool) =>
    -- stored names are compared exactly, and those taken in this pass whatever the case
    if stored || staging.holds tag.name then .done (staging, none)
    else
      (describe identity repo.fullName tag).bind fun
        | .error _ => .done (staging, some .remoteFailure)
        | .ok none => .done (staging, none)
        | .ok (some description) =>
          (render identity repo.fullName description.message).bind fun
            | .error _ => .done (staging, some .renderingFailure)
            | .ok body =>
              ((staging.stage (version repo.id tag description body)).flushIfFull
                options.flushEvery).bind fun staging => .done (staging, none)

def takeTags (options : SyncOptions) (identity : Identity) (repo : Repo) :
    Staging → List Tag → Work (Staging × Option StopReason)
  | staging, [] => .done (staging, none)
  | staging, tag :: rest =>
    (takeTag options identity repo staging tag).bind fun
      | (staging, none) => takeTags options identity repo staging rest
      | (staging, some reason) => .done (staging, some reason)

def outcome (count : Nat) : Option StopReason → Outcome
  | none => .completed count
  | some reason => .partly count reason

def announceNews (repoId : Int) (created : Nat) : Work Unit :=
  if 0 < created then (Work.announce [repoId]).bind fun _ => .done () else .done ()

def finish (repo : Repo) (staging : Staging) (stop : Option StopReason) : Work Outcome :=
  staging.flush.bind fun staging =>
    (announceNews repo.id staging.created).bind fun _ => .done (outcome staging.created stop)

def refused (repo : Repo) (e : ApiError) : Work Outcome :=
  if e.isRemoved then
    Work.clock.bind fun now =>
      (Work.store (.markRepoRemoved repo.id now)).bind fun _ => .done (.aborted .removed)
  else .done (.aborted .remoteFailure)

def takeAll (options : SyncOptions) (identity : Identity) (repo : Repo) : Work Outcome :=
  (Work.github identity (.allTags repo.fullName)).bind fun (listed : Except ApiError (List Tag)) =>
    match listed with
    | .error e => refused repo e
    | .ok tags =>
      (takeTags options identity repo .empty tags).bind fun (staging, stop) =>
        finish repo staging stop

def reconcile (options : SyncOptions) (identity : Identity) (repo : Repo) : Work Outcome :=
  (Work.github identity (.hasTags repo.fullName)).bind fun (tagged : Except ApiError Bool) =>
    match tagged with
    | .ok true => takeAll options identity repo
    | .ok false => .done (.completed 0)
    | .error e => refused repo e

end VersionSync

def syncVersions (options : SyncOptions) (identity : Identity) (repoId : Int) : Work Outcome :=
  (Work.store (.findRepo repoId)).bind fun (found : Option Repo) =>
    match found with
    | none => .done (.aborted .repoNotFound)
    | some repo =>
      if repo.isRemoved then .done (.aborted .alreadyRemoved)
      else
        (Work.probe identity).bind fun quota =>
          if quota.isUsable then VersionSync.reconcile options identity repo
          else .done (.aborted .quotaExhausted)

end ReleaseTracker
