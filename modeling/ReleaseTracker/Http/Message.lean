import ReleaseTracker.Text.Percent

/-! Requests and responses outside of GitHub. A header is found by its name, whatever the case of
its letters. -/

namespace ReleaseTracker.Http

abbrev Headers := List (String × String)

def sameName (a b : String) : Bool := Text.lowerAscii a.toList == Text.lowerAscii b.toList

def Headers.get? (headers : Headers) (name : String) : Option String :=
  (headers.find? fun header => sameName header.1 name).map (·.2)

inductive Method where
  | get
  | post
deriving DecidableEq, Repr

def Method.name : Method → String
  | .get => "GET"
  | .post => "POST"

structure Request where
  method : Method
  url : String
  headers : Headers
  body : String
deriving DecidableEq, Repr

def formContentType : String := "application/x-www-form-urlencoded"

def Request.form (url : String) (pairs : List (String × String)) : Request where
  method := .post
  url := url
  headers := [("Content-Type", formContentType)]
  body := String.ofList (Text.Percent.encodeForm pairs)

structure Response where
  status : Nat
  headers : Headers
  body : String
deriving DecidableEq, Repr

def Response.isSuccess (response : Response) : Bool :=
  200 ≤ response.status && response.status < 300

inductive Error where
  | transport (message : String)
  /-- A rehearsed transport has no response left for a request. -/
  | unrehearsed (method url : String)
deriving DecidableEq, Repr

namespace Error

def message : Error → String
  | .transport message => "http transport error: " ++ message
  | .unrehearsed method url => "no mock response registered for " ++ method ++ " " ++ url

def isTransport : Error → Bool
  | .transport _ => true
  | .unrehearsed _ _ => false

end Error
end ReleaseTracker.Http
