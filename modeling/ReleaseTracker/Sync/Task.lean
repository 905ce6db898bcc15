import ReleaseTracker.Credential.Basic
import ReleaseTracker.Fault
import ReleaseTracker.GitHub.Client
import ReleaseTracker.Store.Call

/-! What a unit of work asks of its surroundings: the store, GitHub in the name of an identity, the
clock, and the announcement of news. -/

namespace ReleaseTracker
open GitHub (ApiCall)

namespace Task

inductive Query where
  | store (call : StoreCall)
  | github (identity : Identity) (call : ApiCall)
  | authenticate (credential : Credential)
  | clock
  | announce (repoIds : List Int)
deriving DecidableEq, Repr

abbrev Answer : Query → Type
  | .store call => Except StoreError call.Result
  | .github _ call => Except ApiError call.Result
  | .authenticate _ => Bool
  | .clock => Instant
  | .announce _ => Bool

end Task

abbrev Task : Interface := ⟨Task.Query, Task.Answer⟩

abbrev Work (α : Type) := Program Task Fault α

namespace Work

/-- Call the store. Its failure ends the work. -/
def store (call : StoreCall) : Work call.Result :=
  .ask (I := Task) (.store call) fun (answer : Except StoreError call.Result) =>
    match answer with
    | .ok result => .done result
    | .error e => .stop (.store e)

def github (identity : Identity) (call : ApiCall) : Work (Except ApiError call.Result) :=
  .query (I := Task) (.github identity call)

def authenticate (credential : Credential) : Work Bool :=
  .query (I := Task) (.authenticate credential)

def clock : Work Instant := .query (I := Task) .clock

def announce (repoIds : List Int) : Work Bool := .query (I := Task) (.announce repoIds)

def probe (identity : Identity) : Work Quota :=
  (github identity .remainingCalls).bind fun (answer : Except ApiError Nat) =>
    match answer with
    | .ok calls => .done (.remaining calls)
    | .error _ => .done .unavailable

end Work
end ReleaseTracker
