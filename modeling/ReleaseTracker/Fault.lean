import ReleaseTracker.Store.Error

/-! What ends a program before its outcome. -/

namespace ReleaseTracker

inductive Fault where
  | store (error : StoreError)
  | crashed
  | unfinished
deriving DecidableEq, Repr

end ReleaseTracker
