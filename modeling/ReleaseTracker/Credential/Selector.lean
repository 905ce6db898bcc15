import ReleaseTracker.Sync.Task

/-! Choosing an identity for the next unit of work: the application if enough calls are left to it,
or else the first user with enough. -/

namespace ReleaseTracker

structure Selector where
  app : Option Credential
  appThreshold : Nat
  userThreshold : Nat
deriving DecidableEq, Repr

namespace Selector

/-- Authenticate, ask for the calls left to the credential, and choose the given identity if they
are enough. -/
def consider (credential : Credential) (identity : Identity) (threshold : Nat) :
    Work (Option SelectedClient) :=
  (Work.authenticate credential).bind fun authentic =>
    if authentic then
      (Work.probe credential.identity).bind fun quota =>
        .done (if quota.atLeast threshold then some ⟨identity, quota⟩ else none)
    else .done none

def firstOf (threshold : Nat) : List UserCredential → Work (Option SelectedClient)
  | [] => .done none
  | user :: rest =>
    (consider (.user user) (Credential.user user).identity threshold).bind fun
      | some client => .done (some client)
      | none => firstOf threshold rest

/-- Whatever credential is configured, the identity is that of the application. -/
def considerApp (selector : Selector) : Work (Option SelectedClient) :=
  match selector.app with
  | none => .done none
  | some credential => consider credential .app selector.appThreshold

/-- The identity to work for, if any has enough calls left. The users are not looked up if the
application has. -/
def find (selector : Selector) : Work (Option SelectedClient) :=
  selector.considerApp.bind fun
    | some client => .done (some client)
    | none => (Work.store .userCredentials).bind (firstOf selector.userThreshold)

/-- In whose name the calls of a chosen client are made: the configured credential speaks for the
application. -/
def caller (selector : Selector) (client : SelectedClient) : Identity :=
  match client.identity, selector.app with
  | .app, some credential => credential.identity
  | identity, _ => identity

end Selector
end ReleaseTracker
