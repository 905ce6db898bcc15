import ReleaseTracker.Text.Search
import ReleaseTracker.Time.Instant

/-! What is kept: users, the repositories they star, the stars, and the versions of repositories. -/

namespace ReleaseTracker

structure User where
  id : Int
  username : String
  name : Option String
  avatarUrl : Option String
  accessToken : String
  createdAt : ZonedTime
  removedAt : Option ZonedTime
deriving DecidableEq, Repr

structure Repo where
  id : Int
  fullName : String
  name : String
  description : Option String
  homepage : Option String
  language : Option String
  ownerAvatarUrl : Option String
  updatedAt : ZonedTime
  removedAt : Option ZonedTime
deriving DecidableEq, Repr

structure Star where
  userId : Int
  repoId : Int
  createdAt : ZonedTime
deriving DecidableEq, Repr

structure Version where
  repoId : Int
  tagName : String
  name : String
  prerelease : Bool
  body : String
  createdAt : ZonedTime
deriving DecidableEq, Repr

structure Numbered (ρ : Type) where
  number : Int
  row : ρ

def User.isRemoved (u : User) : Bool := u.removedAt.isSome

def Repo.isRemoved (r : Repo) : Bool := r.removedAt.isSome

/-- The full name cut at its first slash. Without a slash there is no owner. -/
def Repo.ownerAndName (r : Repo) : String × String :=
  match Text.splitOnce '/' r.fullName.toList with
  | some (owner, name) => (String.ofList owner, String.ofList name)
  | none => ("", r.fullName)

structure UserCredential where
  userId : Int
  username : String
  token : String
deriving DecidableEq, Repr

def User.credential (u : User) : UserCredential := ⟨u.id, u.username, u.accessToken⟩

inductive Column (α : Type) where
  | unset
  | set (value : α)
deriving DecidableEq, Repr

structure RepoDraft where
  id : Column Int
  fullName : String
  name : String
  description : Option String
  homepage : Option String
  language : Option String
  ownerAvatarUrl : Option String
  updatedAt : ZonedTime
  removedAt : Column (Option ZonedTime)
deriving DecidableEq, Repr

end ReleaseTracker
