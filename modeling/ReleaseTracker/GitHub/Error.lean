import ReleaseTracker.Text.Search

/-! Why a GitHub call failed. What a status means is decided once, in `ApiError.ofStatus`. -/

namespace ReleaseTracker

inductive ApiError where
  /-- The resource does not exist, or the credential may not see it. -/
  | notFound (resource : String)
  | blocked (resource : String)
  | rateLimited (message : String)
  | status (code : Nat) (message : String)
  | transport (message : String)
  | decode (message : String)
deriving DecidableEq, Repr

namespace ApiError

def message : ApiError → String
  | .notFound resource => "Not found: " ++ resource
  | .blocked resource => "Access blocked: " ++ resource
  | .rateLimited message => "Rate limit exceeded: " ++ message
  | .status code message => "GitHub API error (" ++ toString code ++ "): " ++ message
  | .transport message => "Transport error: " ++ message
  | .decode message => "Unexpected response: " ++ message

def mentions (message text : String) : Bool :=
  Text.occursIn text.toList (Text.lowerAscii message.toList)

def ofStatus (code : Nat) (resource message : String) : ApiError :=
  if code = 404 then .notFound resource
  else if code = 451 then .blocked resource
  else if code = 429 then .rateLimited message
  else if code = 403 && (mentions message "rate limit" || mentions message "abuse") then
    .rateLimited message
  else if code = 403 && mentions message "access blocked" then .blocked resource
  else .status code message

def isNotFound : ApiError → Bool
  | .notFound _ => true
  | _ => false

def isRemoved : ApiError → Bool
  | .notFound _ | .blocked _ => true
  | _ => false

def shortText (text : String) : String := String.ofList (Text.firstLine text.toList)

end ApiError
end ReleaseTracker
