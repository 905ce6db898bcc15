import ReleaseTracker.Catalog.Basic

/-! The four tables as lists of rows in the order of insertion, and what each statement does to
them. A statement that breaks a key leaves the tables as they are. -/

namespace ReleaseTracker

structure Tables where
  users : List User
  repos : List Repo
  stars : List Star
  versions : List Version
deriving DecidableEq, Repr

namespace Tables

def empty : Tables := ⟨[], [], [], []⟩

/-! Reading -/

def user? (t : Tables) (id : Int) : Option User := t.users.find? (·.id = id)

def repo? (t : Tables) (id : Int) : Option Repo := t.repos.find? (·.id = id)

def hasStar (t : Tables) (userId repoId : Int) : Bool :=
  t.stars.any fun s => s.userId = userId && s.repoId = repoId

def hasVersion (t : Tables) (repoId : Int) (tagName : String) : Bool :=
  t.versions.any fun v => v.repoId = repoId && v.tagName = tagName

def insertSorted {α : Type} (le : α → α → Bool) (a : α) : List α → List α
  | [] => [a]
  | b :: rest => if le a b then a :: b :: rest else b :: insertSorted le a rest

def sortBy {α : Type} (le : α → α → Bool) : List α → List α
  | [] => []
  | a :: rest => insertSorted le a (sortBy le rest)

def sortIds (ids : List Int) : List Int := sortBy (fun a b => decide (a ≤ b)) ids

def starsOf (t : Tables) (userId : Int) : List Int :=
  sortIds ((t.stars.filter (·.userId = userId)).map (·.repoId))

def activeUserIds (t : Tables) : List Int :=
  sortIds ((t.users.filter (!·.isRemoved)).map (·.id))

def activeRepoIds (t : Tables) : List Int :=
  sortIds ((t.repos.filter (!·.isRemoved)).map (·.id))

def credentials (t : Tables) : List UserCredential :=
  (sortBy (fun a b => decide (a.id ≤ b.id))
    (t.users.filter fun u => !u.isRemoved && u.accessToken ≠ "")).map User.credential

def starsOneOf (t : Tables) (userId : Int) (repoIds : List Int) : Bool :=
  t.stars.any fun s => s.userId = userId && repoIds.contains s.repoId

/-- The names of the users that are not removed and star one of the repositories, in ascending
order. -/
def stargazers (t : Tables) (repoIds : List Int) : List String :=
  sortBy (fun a b => decide (a ≤ b))
    ((t.users.filter fun u => !u.isRemoved && t.starsOneOf u.id repoIds).map (·.username))

def followersOf (t : Tables) (repoId : Int) : List Int :=
  sortIds ((t.stars.filter (·.repoId = repoId)).map (·.userId))

def tagsOf (t : Tables) (repoId : Int) : List String :=
  (t.versions.filter (·.repoId = repoId)).map (·.tagName)

def starLe (a b : Star) : Bool :=
  decide (a.userId < b.userId) || (a.userId == b.userId && decide (a.repoId ≤ b.repoId))

def namedStars (t : Tables) : List (Option String × Option String) :=
  (sortBy starLe t.stars).map fun s =>
    ((t.user? s.userId).map (·.username), (t.repo? s.repoId).map (·.fullName))

def namedVersions (t : Tables) : List (String × Option String) :=
  t.versions.map fun v => (v.tagName, (t.repo? v.repoId).map (·.fullName))

def sorted (t : Tables) : Tables where
  users := sortBy (fun a b => decide (a.id ≤ b.id)) t.users
  repos := sortBy (fun a b => decide (a.id ≤ b.id)) t.repos
  stars := sortBy starLe t.stars
  versions := sortBy (fun a b => decide (a.repoId ≤ b.repoId)) t.versions

/-! Writing. Without a result a key would be broken. -/

def insertUser? (t : Tables) (u : User) : Option Tables :=
  if t.users.any (fun v => v.id = u.id || v.username = u.username) then none
  else some { t with users := t.users ++ [u] }

def insertRepo? (t : Tables) (r : Repo) : Option Tables :=
  if t.repos.any (·.id = r.id) then none else some { t with repos := t.repos ++ [r] }

def hasEnds (t : Tables) (s : Star) : Bool := (t.user? s.userId).isSome && (t.repo? s.repoId).isSome

def insertStar? (t : Tables) (s : Star) : Option Tables :=
  if t.hasStar s.userId s.repoId || !t.hasEnds s then none
  else some { t with stars := t.stars ++ [s] }

def ensureStar? (t : Tables) (s : Star) : Option Tables :=
  if t.hasStar s.userId s.repoId then some t else t.insertStar? s

def insertVersion? (t : Tables) (v : Version) : Option Tables :=
  if t.hasVersion v.repoId v.tagName || (t.repo? v.repoId).isNone then none
  else some { t with versions := t.versions ++ [v] }

def insertVersions? (t : Tables) : List Version → Option Tables
  | [] => some t
  | v :: rest => (t.insertVersion? v).bind (·.insertVersions? rest)

/-- The repository that a draft describes, taking from an old row what a refresh keeps. -/
def refreshed (id : Int) (draft : RepoDraft) (old : Option Repo) : Repo where
  id := id
  fullName := draft.fullName
  name := draft.name
  description := draft.description
  homepage := draft.homepage
  language := draft.language
  ownerAvatarUrl := draft.ownerAvatarUrl
  updatedAt := draft.updatedAt
  removedAt :=
    match old, draft.removedAt with
    | some old, _ => old.removedAt
    | none, .set removedAt => removedAt
    | none, .unset => none

def upsertInto (id : Int) (draft : RepoDraft) : List Repo → List Repo
  | [] => [refreshed id draft none]
  | r :: rest =>
    if r.id = id then refreshed id draft (some r) :: rest else r :: upsertInto id draft rest

def upsertRepo (t : Tables) (id : Int) (draft : RepoDraft) : Tables :=
  { t with repos := upsertInto id draft t.repos }

def markUserRemoved (t : Tables) (id : Int) (time : ZonedTime) : Tables :=
  { t with
    users := t.users.map fun u => if u.id = id then { u with removedAt := some time } else u }

def markRepoRemoved (t : Tables) (id : Int) (time : ZonedTime) : Tables :=
  { t with
    repos := t.repos.map fun r => if r.id = id then { r with removedAt := some time } else r }

def isAmong (userId : Int) (repoIds : List Int) (s : Star) : Bool :=
  s.userId = userId && repoIds.contains s.repoId

def deleteStars (t : Tables) (repoIds : List Int) (userId : Int) : Tables :=
  { t with stars := t.stars.filter (!isAmong userId repoIds ·) }

def countStars (t : Tables) (repoIds : List Int) (userId : Int) : Nat :=
  (t.stars.filter (isAmong userId repoIds)).length

def deleteUser (t : Tables) (id : Int) : Tables :=
  { t with users := t.users.filter (·.id ≠ id), stars := t.stars.filter (·.userId ≠ id) }

def deleteRepo (t : Tables) (id : Int) : Tables :=
  { t with
    repos := t.repos.filter (·.id ≠ id)
    stars := t.stars.filter (·.repoId ≠ id)
    versions := t.versions.filter (·.repoId ≠ id) }

end Tables
end ReleaseTracker
