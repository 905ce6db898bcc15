import ReleaseTracker.GitHub.Basic

/-! How a unit of work ended. -/

namespace ReleaseTracker

inductive AbortReason where
  | noClient
  | userNotFound
  | repoNotFound
  | quotaExhausted
  | removed
  | remoteFailure
  | alreadyRemoved
deriving DecidableEq, Repr

def AbortReason.text : AbortReason → String
  | .noClient => "no-client"
  | .userNotFound => "user-not-found"
  | .repoNotFound => "repo-not-found"
  | .quotaExhausted => "quota-exhausted"
  | .removed => "removed-upstream"
  | .remoteFailure => "remote-failure"
  | .alreadyRemoved => "already-removed"

inductive StopReason where
  | remoteFailure
  | renderingFailure
deriving DecidableEq, Repr

def StopReason.text : StopReason → String
  | .remoteFailure => "remote-failure"
  | .renderingFailure => "rendering-failure"

inductive Outcome where
  | completed (count : Nat)
  | partly (count : Nat) (reason : StopReason)
  | aborted (reason : AbortReason)
deriving DecidableEq, Repr

namespace Outcome

def text : Outcome → String
  | .completed count => "completed (" ++ toString count ++ ")"
  | .partly count reason => "partial (" ++ toString count ++ ", " ++ reason.text ++ ")"
  | .aborted reason => "aborted (" ++ reason.text ++ ")"

def count : Outcome → Option Nat
  | .completed count | .partly count _ => some count
  | .aborted _ => none

def isAborted : Outcome → Bool
  | .aborted _ => true
  | _ => false

end Outcome

structure SyncOptions where
  pageSize : Nat
  /-- What is known of a repository is refreshed when it is older than so many seconds, -/
  staleSeconds : Int
  /-- and so many nanoseconds more. -/
  staleNanos : Nat
  flushEvery : Nat
  pageBudget : Nat
deriving DecidableEq, Repr

def SyncOptions.staleAfter (options : SyncOptions) : Int :=
  options.staleSeconds * 1000000000 + options.staleNanos

def SyncOptions.default (pageBudget : Nat) : SyncOptions where
  pageSize := GitHub.defaultPageSize
  staleSeconds := 86400
  staleNanos := 0
  flushEvery := 200
  pageBudget := pageBudget

end ReleaseTracker
