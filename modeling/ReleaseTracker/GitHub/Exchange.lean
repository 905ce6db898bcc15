import ReleaseTracker.Fault
import ReleaseTracker.GitHub.Error
import ReleaseTracker.Json.Parser
import ReleaseTracker.Json.Printer
import ReleaseTracker.Json.Record
import ReleaseTracker.Program

/-! One request to GitHub and its reply, and how a reply is read. -/

namespace ReleaseTracker.GitHub

inductive Method where
  | get
  | post
deriving DecidableEq, Repr

def Method.name : Method → String
  | .get => "GET"
  | .post => "POST"

structure Request where
  method : Method
  target : String
  body : Option Json
deriving Repr

def Request.line (request : Request) : String := request.method.name ++ " " ++ request.target

inductive Body where
  | json (value : Json)
  | text (text : String)
deriving Repr

def Body.toText : Body → String
  | .json value => value.canonical.compress
  | .text s => s

def Body.front? : Body → Option Json
  | .json value => some value
  | .text s => Json.parseFront s

def Body.whole? : Body → Option Json
  | .json value => some value
  | .text s => Json.parse s

inductive Reply where
  | failed (message : String)
  | received (status : Nat) (body : Body)
deriving Repr

def Exchange : Interface := ⟨Request, fun _ => Reply⟩

abbrev Call (α : Type) := Program Exchange Fault (Except ApiError α)

def isSuccess (status : Nat) : Bool := 200 ≤ status && status < 300

def errorMessage? (body : Body) : Option String := do
  let [url, errors, message] ← (← body.whole?).columns
    [Json.field "documentation_url", Json.field "errors", Json.field "message"] | none
  let _ ← Json.optional Json.str? url
  let _ ← Json.optional (Json.listOf Json.anyValue) errors
  Json.required Json.str? message

/-- Read a reply about a resource: the value of a success, or the error that the reply means. -/
def Reply.read {α : Type} (resource : String) (read : Json → Option α) :
    Reply → Except ApiError α
  | .failed message => .error (.transport (ApiError.shortText message))
  | .received status body =>
    if isSuccess status then
      match body.front?.bind read with
      | some value => .ok value
      | none => .error (.decode "the body has another shape")
    else
      match errorMessage? body with
      | some message => .error (.ofStatus status resource message)
      | none => .error (.decode "the body is not an error report")

def get {α : Type} (target : String) (read : Json → Option α) : Call α :=
  .ask (⟨.get, target, none⟩ : Request) fun reply => .done (Reply.read target read reply)

end ReleaseTracker.GitHub
