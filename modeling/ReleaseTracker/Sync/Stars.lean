import ReleaseTracker.Sync.Outcome
import ReleaseTracker.Sync.Task

/-! Following a user's stars: repositories on the listing are stored or refreshed, missing stars are
created, and stars off the listing are deleted once it has been walked to its end. -/

namespace ReleaseTracker
open GitHub (Page StarredRepo)

/-- A listed repository as a draft. Whether it has been removed is left as it is. -/
def GitHub.StarredRepo.draft (item : StarredRepo) (now : Instant) : RepoDraft where
  id := .set item.id
  fullName := item.fullName
  name := item.name
  description := item.description
  homepage := item.homepage
  language := item.language
  ownerAvatarUrl := item.ownerAvatarUrl
  updatedAt := .utc now
  removedAt := .unset

namespace StarSync

/-- Is what is known of a repository older than the options allow? There is no answer if the
calendar does not reach back so far. -/
def isStale? (options : SyncOptions) (now : Instant) (known : Repo) : Option Bool :=
  (now.subNanos? options.staleAfter).map known.updatedAt.instant.isBefore

def isDue (options : SyncOptions) (now : Instant) : Option Repo → Work Bool
  | none => .done true
  | some known =>
    match isStale? options now known with
    | some stale => .done stale
    | none => .stop .crashed

def refresh (options : SyncOptions) (now : Instant) (item : StarredRepo) : Work Unit :=
  (Work.store (.findRepo item.id)).bind fun known =>
    (isDue options now known).bind fun due =>
      if due then (Work.store (.upsertRepo (item.draft now))).bind fun _ => .done ()
      else .done ()

def follow (userId : Int) (previous listed : List Int) (repoId : Int) : Work (List Int) :=
  if listed.contains repoId then .done listed
  else if previous.contains repoId then .done (listed ++ [repoId])
  else (Work.store (.createStar userId repoId)).bind fun _ => .done (listed ++ [repoId])

/-- Take the repositories of a page. The ids listed so far have no repetitions. -/
def takeItems (options : SyncOptions) (userId : Int) (previous : List Int) (now : Instant) :
    List Int → List StarredRepo → Work (List Int)
  | listed, [] => .done listed
  | listed, item :: rest =>
    (refresh options now item).bind fun _ =>
      (follow userId previous listed item.id).bind fun listed =>
        takeItems options userId previous now listed rest

/-- Take a page and those after it. Tells the ids listed, and whether the walk reached its end. -/
def walk (options : SyncOptions) (identity : Identity) (user : User) (previous : List Int) :
    (budget : Nat) → List Int → Page StarredRepo → Work (List Int × Bool)
  | 0, _, _ => .stop .unfinished
  | budget + 1, listed, page =>
    Work.clock.bind fun now =>
      (takeItems options user.id previous now listed page.items).bind fun listed =>
        if page.isLast then .done (listed, true)
        else
          (Work.github identity (.starredPage user.username page.next options.pageSize)).bind
            fun (next : Except ApiError (Page StarredRepo)) =>
              match next with
              | .ok page => walk options identity user previous budget listed page
              | .error _ => .done (listed, false)

def settle (userId : Int) (previous listed : List Int) : Work Outcome :=
  match previous.filter (!listed.contains ·) with
  | [] => .done (.completed listed.length)
  | gone => (Work.store (.deleteStars gone userId)).bind fun _ => .done (.completed listed.length)

def refused (user : User) (e : ApiError) : Work Outcome :=
  if e.isNotFound then
    Work.clock.bind fun now =>
      (Work.store (.markUserRemoved user.id now)).bind fun _ => .done (.aborted .removed)
  else .done (.aborted .remoteFailure)

def reconcile (options : SyncOptions) (identity : Identity) (user : User) : Work Outcome :=
  (Work.store (.findStars user.id)).bind fun previous =>
    (Work.github identity (.starredPage user.username none options.pageSize)).bind
      fun (first : Except ApiError (Page StarredRepo)) =>
        match first with
        | .error e => refused user e
        | .ok page =>
          (walk options identity user previous options.pageBudget [] page).bind
            fun (listed, whole) =>
              if whole then settle user.id previous listed
              else .done (.partly listed.length .remoteFailure)

end StarSync

def syncStars (options : SyncOptions) (identity : Identity) (userId : Int) : Work Outcome :=
  (Work.store (.findUser userId)).bind fun (found : Option User) =>
    match found with
    | none => .done (.aborted .userNotFound)
    | some user =>
      if user.isRemoved then .done (.aborted .alreadyRemoved)
      else
        (Work.probe identity).bind fun quota =>
          if quota.isUsable then StarSync.reconcile options identity user
          else .done (.aborted .quotaExhausted)

end ReleaseTracker
