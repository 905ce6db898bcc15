import ReleaseTracker.Credential.Selector
import ReleaseTracker.Sync.Stars
import ReleaseTracker.Sync.Versions
import ReleaseTracker.Work.Item

/-! Doing the work of an item in the name of whoever has enough calls left. -/

namespace ReleaseTracker

structure Engine where
  selector : Selector
  options : SyncOptions
deriving DecidableEq, Repr

def Engine.sync (engine : Engine) (identity : Identity) : WorkItem → Work Outcome
  | .stars userId => syncStars engine.options identity userId
  | .versions repoId => syncVersions engine.options identity repoId

def Engine.handle (engine : Engine) (item : WorkItem) : Work Outcome :=
  engine.selector.find.bind fun
    | none => .done (.aborted .noClient)
    | some client => engine.sync (engine.selector.caller client) item

end ReleaseTracker
