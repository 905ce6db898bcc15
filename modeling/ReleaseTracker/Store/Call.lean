import ReleaseTracker.Store.Error
import ReleaseTracker.Store.Tables

/-! The calls that a unit of work makes on the store, and their effect on the tables. A call that
fails changes nothing (`perform_error`). -/

namespace ReleaseTracker

inductive StoreCall where
  | findUser (id : Int)
  | markUserRemoved (id : Int) (time : Instant)
  | userCredentials
  | findRepo (id : Int)
  | upsertRepo (draft : RepoDraft)
  | markRepoRemoved (id : Int) (time : Instant)
  | findStars (userId : Int)
  | createStar (userId repoId : Int)
  | deleteStars (repoIds : List Int) (userId : Int)
  | findExistingVersion (repoId : Int) (tagName : String)
  | createVersions (versions : List Version)
  | findStargazers (repoIds : List Int)
  | activeUserIds
  | activeRepoIds
deriving DecidableEq, Repr

namespace StoreCall

abbrev Result : StoreCall → Type
  | .findUser _ => Option User
  | .markUserRemoved _ _ => Unit
  | .userCredentials => List UserCredential
  | .findRepo _ => Option Repo
  | .upsertRepo _ => Repo
  | .markRepoRemoved _ _ => Unit
  | .findStars _ => List Int
  | .createStar _ _ => Unit
  | .deleteStars _ _ => Nat
  | .findExistingVersion _ _ => Bool
  | .createVersions _ => Nat
  | .findStargazers _ => List String
  | .activeUserIds => List Int
  | .activeRepoIds => List Int

def method : StoreCall → String
  | .findUser _ => "find_user"
  | .markUserRemoved _ _ => "mark_user_removed"
  | .userCredentials => "user_credentials"
  | .findRepo _ => "find_repo"
  | .upsertRepo _ => "upsert_repo"
  | .markRepoRemoved _ _ => "mark_repo_removed"
  | .findStars _ => "find_stars_by_user"
  | .createStar _ _ => "create_star"
  | .deleteStars _ _ => "delete_stars"
  | .findExistingVersion _ _ => "find_existing_version"
  | .createVersions _ => "create_versions"
  | .findStargazers _ => "find_stargazer_usernames"
  | .activeUserIds => "active_user_ids"
  | .activeRepoIds => "active_repo_ids"

def isWrite : StoreCall → Bool
  | .markUserRemoved _ _ | .markRepoRemoved _ _ | .upsertRepo _ | .createStar _ _
  | .deleteStars _ _ | .createVersions _ => true
  | _ => false

def needsTables : StoreCall → Bool
  | .deleteStars [] _ | .createVersions [] | .findStargazers [] => false
  | .upsertRepo draft => draft.id ≠ .unset
  | _ => true

end StoreCall

def Tables.kept {α : Type} (t : Tables) (a : α) : Option Tables → Except StoreError α × Tables
  | some t' => (.ok a, t')
  | none => (.error .brokenKey, t)

/-- The answer to a call and the tables after it. New stars are dated `now`. -/
def Tables.perform (now : Instant) (t : Tables) :
    (call : StoreCall) → Except StoreError call.Result × Tables
  | .findUser id => (.ok (t.user? id), t)
  | .markUserRemoved id time => (.ok (), t.markUserRemoved id (.utc time))
  | .userCredentials => (.ok t.credentials, t)
  | .findRepo id => (.ok (t.repo? id), t)
  | .upsertRepo draft =>
    match draft.id with
    | .unset => (.error .missingId, t)
    | .set id =>
      let t' := t.upsertRepo id draft
      match t'.repo? id with
      | some r => (.ok r, t')
      | none => (.error (.invalidInput s!"repo {id} vanished after upsert"), t')
  | .markRepoRemoved id time => (.ok (), t.markRepoRemoved id (.utc time))
  | .findStars userId => (.ok (t.starsOf userId), t)
  | .createStar userId repoId => t.kept () (t.ensureStar? ⟨userId, repoId, .utc now⟩)
  | .deleteStars repoIds userId =>
    (.ok (t.countStars repoIds userId), t.deleteStars repoIds userId)
  | .findExistingVersion repoId tagName => (.ok (t.hasVersion repoId tagName), t)
  | .createVersions versions => t.kept versions.length (t.insertVersions? versions)
  | .findStargazers repoIds => (.ok (t.stargazers repoIds), t)
  | .activeUserIds => (.ok t.activeUserIds, t)
  | .activeRepoIds => (.ok t.activeRepoIds, t)

end ReleaseTracker
