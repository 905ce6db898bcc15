import ReleaseTracker.Catalog.Basic
import ReleaseTracker.Text.Quoted

/-! Credentials, whom they speak for, and how many calls they have left. Secrets are never
displayed. -/

namespace ReleaseTracker

inductive Identity where
  | app
  | user (userId : Int) (username : String)
deriving DecidableEq, Repr

def Identity.text : Identity → String
  | .app => "application"
  | .user userId username => "user " ++ username ++ " (id " ++ toString userId ++ ")"

inductive Credential where
  | app (clientId clientSecret : String)
  | user (credential : UserCredential)
deriving DecidableEq, Repr

def Credential.identity : Credential → Identity
  | .app _ _ => .app
  | .user credential => .user credential.userId credential.username

def Credential.display (credential : Credential) : String :=
  "Credential(" ++ credential.identity.text ++ ")"

inductive Quota where
  | remaining (calls : Nat)
  | unavailable
deriving DecidableEq, Repr

namespace Quota

def atLeast (quota : Quota) (threshold : Nat) : Bool :=
  match quota with
  | .remaining calls => threshold ≤ calls
  | .unavailable => false

def isUsable : Quota → Bool
  | .remaining calls => 0 < calls
  | .unavailable => false

def text : Quota → String
  | .remaining calls => toString calls
  | .unavailable => "unavailable"

end Quota

def defaultAppThreshold : Nat := 200

def defaultUserThreshold : Nat := 2000

structure SelectedClient where
  identity : Identity
  quota : Quota
deriving DecidableEq, Repr

def Identity.display : Identity → String
  | .app => "App"
  | .user userId username =>
    "User \x7b user_id: " ++ toString userId ++ ", username: " ++ Text.Quoted.encode username ++
      " \x7d"

def Quota.display : Quota → String
  | .remaining calls => "Remaining(" ++ toString calls ++ ")"
  | .unavailable => "Unavailable"

def SelectedClient.display (client : SelectedClient) : String :=
  "SelectedClient \x7b identity: " ++ client.identity.display ++ ", quota: " ++
    client.quota.display ++ ", .. \x7d"

end ReleaseTracker
