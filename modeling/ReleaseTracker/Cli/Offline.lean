import ReleaseTracker.Store.Schema
import ReleaseTracker.Sync.Task

/-! Surroundings with a database and nothing else: neither GitHub nor a hub can be reached. So there
is no identity with calls left, no work gets as far as to date anything, and the clock can stand
still. -/

namespace ReleaseTracker.Cli

def unreachable : Handler GitHub.Exchange Fault Unit :=
  fun (_ : GitHub.Request) s => (.ok (.failed "connection refused" : GitHub.Reply), s)

def stillClock : Instant := ⟨0, 0⟩

def offline : Handler Task Fault Database
  | .store call, db =>
    let (answer, db) := db.perform stillClock call
    (.ok answer, db)
  | .github _ call, db => (((call.program .rest 1).run unreachable ()).1, db)
  | .authenticate _, db => (.ok true, db)
  | .clock, db => (.ok stillClock, db)
  | .announce _, db => (.ok false, db)

end ReleaseTracker.Cli
