import ReleaseTracker.Text.Search
import ReleaseTracker.Time.Instant

/-! What GitHub tells about repositories, their tags, and the releases and objects behind the
tags. -/

namespace ReleaseTracker.GitHub

structure Page (α : Type) where
  items : List α
  next : Option String
deriving DecidableEq, Repr

def Page.isLast {α : Type} (page : Page α) : Bool := page.items.isEmpty || page.next.isNone

def defaultPageSize : Nat := 100

structure StarredRepo where
  id : Int
  fullName : String
  name : String
  description : Option String
  homepage : Option String
  language : Option String
  ownerAvatarUrl : Option String
deriving DecidableEq, Repr

inductive ObjectKind where
  | tag
  | commit
  | blob
  | other (name : String)
deriving DecidableEq, Repr

def ObjectKind.ofName (name : String) : ObjectKind :=
  let lower := String.ofList (Text.lowerAscii name.toList)
  if lower = "tag" then .tag
  else if lower = "commit" then .commit
  else if lower = "blob" then .blob
  else .other name

structure Tag where
  name : String
  sha : String
  kind : ObjectKind
deriving DecidableEq, Repr

structure Release where
  tagName : String
  name : Option String
  prerelease : Bool
  body : Option String
  createdAt : Option Instant
  publishedAt : Option Instant
deriving DecidableEq, Repr

structure Signature where
  name : Option String
  date : Instant
deriving DecidableEq, Repr

structure SignedMessage where
  signature : Signature
  message : String
deriving DecidableEq, Repr

structure RawBlob where
  size : Nat
  content : String
  encoding : String
deriving DecidableEq, Repr

structure Blob where
  size : Nat
  content : String
deriving DecidableEq, Repr

end ReleaseTracker.GitHub
