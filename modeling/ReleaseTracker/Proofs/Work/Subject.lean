import ReleaseTracker.Proofs.Sync.Surroundings
import ReleaseTracker.Work.Engine

/-! The user or the repository that an item is about. Both kinds of work begin in the same way: the
subject is looked up, and goes on only if it is there, has not been removed, and calls are left. -/

namespace ReleaseTracker
open Program

namespace WorkItem

def lookup : WorkItem → StoreCall
  | .stars userId => .findUser userId
  | .versions repoId => .findRepo repoId

def mark (time : Instant) : WorkItem → StoreCall
  | .stars userId => .markUserRemoved userId time
  | .versions repoId => .markRepoRemoved repoId time

def missing : WorkItem → AbortReason
  | .stars _ => .userNotFound
  | .versions _ => .repoNotFound

def removal : (item : WorkItem) → item.lookup.Result → Option (Option ZonedTime)
  | .stars _, found => Option.map (fun user : User => user.removedAt) found
  | .versions _, found => Option.map (fun repo : Repo => repo.removedAt) found

def removalIn (t : Tables) : WorkItem → Option (Option ZonedTime)
  | .stars userId => (t.user? userId).map (·.removedAt)
  | .versions repoId => (t.repo? repoId).map (·.removedAt)

def markedIn (t : Tables) (time : Instant) : WorkItem → Tables
  | .stars userId => t.markUserRemoved userId (.utc time)
  | .versions repoId => t.markRepoRemoved repoId (.utc time)

end WorkItem

namespace Engine
variable {engine : Engine} {identity : Identity} {item : WorkItem}

def pursue (engine : Engine) (identity : Identity) : (item : WorkItem) → item.lookup.Result →
    Work Outcome
  | .stars _, some user => StarSync.reconcile engine.options identity user
  | .versions _, some repo => VersionSync.reconcile engine.options identity repo
  | .stars _, none => .done (.aborted .userNotFound)
  | .versions _, none => .done (.aborted .repoNotFound)

def attend (engine : Engine) (identity : Identity) (item : WorkItem)
    (found : item.lookup.Result) : Work Outcome :=
  match item.removal found with
  | none => .done (.aborted item.missing)
  | some (some _) => .done (.aborted .alreadyRemoved)
  | some none =>
    (Work.probe identity).bind fun quota =>
      if quota.isUsable then engine.pursue identity item found
      else .done (.aborted .quotaExhausted)

theorem sync_eq : engine.sync identity item =
    (Work.store item.lookup).bind (engine.attend identity item) := by
  cases item with
  | stars userId =>
    show syncStars engine.options identity userId = _
    unfold syncStars
    congr 1
    funext found
    match found with
    | none => rfl
    | some user =>
      cases hremoved : user.removedAt <;>
        simp [attend, WorkItem.removal, hremoved, User.isRemoved, pursue]
  | versions repoId =>
    show syncVersions engine.options identity repoId = _
    unfold syncVersions
    congr 1
    funext found
    match found with
    | none => rfl
    | some repo =>
      cases hremoved : repo.removedAt <;>
        simp [attend, WorkItem.removal, hremoved, Repo.isRemoved, pursue]

end Engine

namespace Task

/-- May a question be answered so? A user or a repository that is looked up has the id that it was
looked up by. -/
def Proper : (query : Task.Query) → Task.Answer query → Prop
  | .store (.findUser id), answer => ∀ user : User, answer = Except.ok (some user) → user.id = id
  | .store (.findRepo id), answer => ∀ repo : Repo, answer = Except.ok (some repo) → repo.id = id
  | _, _ => True

end Task

namespace StoreRule
variable {t t' : Tables} {item : WorkItem}

theorem proper_of_fallible {query : Task.Query} {answer : Task.Answer query}
    (h : fallible.conduct t query answer t') : Task.Proper query answer := by
  cases query with
  | store call =>
    cases call with
    | findUser id =>
      rintro user rfl
      obtain ⟨hfound, -⟩ := reliable_findUser_iff.mp (fallible_ok_iff.mp h)
      exact Tables.user?_id (Except.ok.inj hfound).symm
    | findRepo id =>
      rintro repo rfl
      obtain ⟨hfound, -⟩ := reliable_findRepo_iff.mp (fallible_ok_iff.mp h)
      exact Tables.repo?_id (Except.ok.inj hfound).symm
    | _ => trivial
  | _ => trivial

theorem proper_of_reliable {query : Task.Query} {answer : Task.Answer query}
    (h : reliable.conduct t query answer t') : Task.Proper query answer :=
  proper_of_fallible (conduct_mono reliable_le_fallible _ _ _ _ h)

theorem removal_of_lookup {found : item.lookup.Result}
    (h : fallible t item.lookup (.ok found) t') : item.removal found = item.removalIn t := by
  cases item with
  | stars userId =>
    obtain ⟨hfound, -⟩ := reliable_findUser_iff.mp (fallible_ok_iff.mp h)
    rw [Except.ok.inj hfound]
    rfl
  | versions repoId =>
    obtain ⟨hfound, -⟩ := reliable_findRepo_iff.mp (fallible_ok_iff.mp h)
    rw [Except.ok.inj hfound]
    rfl

theorem eq_of_marked {time : Instant} {value : (item.mark time).Result}
    (h : fallible t (item.mark time) (.ok value) t') : t' = item.markedIn t time := by
  cases item with
  | stars userId => exact (reliable_markUserRemoved_iff.mp (fallible_ok_iff.mp h)).2
  | versions repoId => exact (reliable_markRepoRemoved_iff.mp (fallible_ok_iff.mp h)).2

end StoreRule
end ReleaseTracker
