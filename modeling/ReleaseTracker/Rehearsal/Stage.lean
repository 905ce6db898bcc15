import ReleaseTracker.Hub.Publisher
import ReleaseTracker.Rehearsal.Script
import ReleaseTracker.Store.Schema
import ReleaseTracker.Work.Engine

/-! Surroundings made up for trying work out: a database in memory, a scripted GitHub and hub, a
clock that ticks at each reading, and store calls that are set to fail. Everything that leaves a
mark is noted in order. -/

namespace ReleaseTracker.Rehearsal

inductive Event where
  | request (identity : Identity) (request : GitHub.Request)
  | denied (identity : Identity)
  | write (call : StoreCall)
  | hub (request : Http.Request)
  | announced (repoIds : List Int) (accepted : Bool)

structure PlannedFault where
  method : String
  ahead : Nat
deriving DecidableEq, Repr

structure Stage where
  database : Database
  scripts : Scripts
  listing : ListingKind
  pageBudget : Nat
  publisher : Option Hub.Publisher
  hubReplies : List (Except Http.Error Http.Response)
  denied : List String
  broken : List String
  faults : List PlannedFault
  clock : Instant
  events : List Event

namespace Stage

def note (stage : Stage) (event : Event) : Stage := { stage with events := stage.events ++ [event] }

def readClock (stage : Stage) : Instant × Stage :=
  let now : Instant := { stage.clock with nanos := stage.clock.nanos + 1000 }
  (now, { stage with clock := now })

def plan (stage : Stage) (fault : PlannedFault) : Stage :=
  { stage with faults := stage.faults.filter (·.method ≠ fault.method) ++ [fault] }

def strike (method : String) (faults : List PlannedFault) : Bool × List PlannedFault :=
  let isNow (fault : PlannedFault) : Bool := fault.method == method && fault.ahead == 0
  (faults.any isNow,
    (faults.filter fun fault => !isNow fault).map fun fault =>
      if fault.method = method then { fault with ahead := fault.ahead - 1 } else fault)

def noteWrite (stage : Stage) (call : StoreCall) : Stage :=
  if call.isWrite then stage.note (.write call) else stage

def callStore (stage : Stage) (call : StoreCall) : Except StoreError call.Result × Stage :=
  let stage := stage.noteWrite call
  let (struck, faults) := strike call.method stage.faults
  let stage := { stage with faults }
  if struck then (.error (.invalidInput ("injected " ++ call.method)), stage)
  else
    let (now, stage) := stage.readClock
    let (answer, database) := stage.database.perform now call
    (answer, { stage with database })

def exchange (identity : Identity) : Handler GitHub.Exchange Fault Stage :=
  fun (request : GitHub.Request) stage =>
    let stage := stage.note (.request identity request)
    let (reply, scripts) := stage.scripts.reply identity request
    (.ok reply, { stage with scripts })

def sendToHub (stage : Stage) (request : Http.Request) :
    Except Http.Error Http.Response × Stage :=
  let stage := stage.note (.hub request)
  match stage.hubReplies with
  | [] => (.error (.unrehearsed request.method.name request.url), stage)
  | reply :: hubReplies => (reply, { stage with hubReplies })

def announcing : Handler Hub.Announcing Fault Stage
  | .stargazers repoIds, stage =>
    let (answer, stage) := stage.callStore (.findStargazers repoIds)
    (.ok answer, stage)
  | .send request, stage =>
    let (reply, stage) := stage.sendToHub request
    (.ok reply, stage)
  | .pause _, stage => (.ok (), stage)

def announce (stage : Stage) (repoIds : List Int) : Except Fault Bool × Stage :=
  let announcement : Program Hub.Announcing Fault Bool :=
    match stage.publisher with
    | none => .done false
    | some publisher => publisher.announce repoIds
  match announcement.run announcing stage with
  | (.ok accepted, stage) => (.ok accepted, stage.note (.announced repoIds accepted))
  | (.error e, stage) => (.error e, stage)

def authenticate (stage : Stage) (credential : Credential) : Except Fault Bool × Stage :=
  let name := label credential.identity
  if stage.broken.contains name then (.error .crashed, stage)
  else if stage.denied.contains name then (.ok false, stage.note (.denied credential.identity))
  else (.ok true, stage)

def answer : Handler Task Fault Stage
  | .store call, stage =>
    let (result, stage) := stage.callStore call
    (.ok result, stage)
  | .github identity call, stage =>
    (call.program stage.listing stage.pageBudget).run (exchange identity) stage
  | .authenticate credential, stage => stage.authenticate credential
  | .clock, stage =>
    let (now, stage) := stage.readClock
    (.ok now, stage)
  | .announce repoIds, stage => stage.announce repoIds

end Stage
end ReleaseTracker.Rehearsal
