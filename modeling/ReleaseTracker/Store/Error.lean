/-! Why a store call failed. -/

namespace ReleaseTracker

inductive StoreError where
  /-- A broken key, a missing table, or no connection. -/
  | database (cause : String)
  | invalidInput (message : String)
deriving DecidableEq, Repr

namespace StoreError

def message : StoreError → String
  | .database cause => "Database error: " ++ cause
  | .invalidInput message => "Invalid input: " ++ message

def missingId : StoreError := .invalidInput "Missing required field: id"

def brokenKey : StoreError := .database "constraint failed"

def missingTable : StoreError := .database "no such table"

end StoreError
end ReleaseTracker
