import ReleaseTracker.Catalog.Json
import ReleaseTracker.GitHub.Basic
import ReleaseTracker.GitHub.Error
import ReleaseTracker.Text.Base64
import ReleaseTracker.Text.Blank
import ReleaseTracker.Text.Utf8

/-! GitHub's releases, objects and quotas in JSON. The contents of a file come in Base64, broken
into lines at will. -/

namespace ReleaseTracker.GitHub
open Json

def instant? (v : Json) : Option Instant := (time? v).map (·.instant)

def Release.ofJson? (v : Json) : Option Release := do
  let [tagName, name, prerelease, body, created, published] ← v.columns
    [field "tag_name", lacking "name", lacking "prerelease", lacking "body", lacking "created_at",
      lacking "published_at"] | none
  return {
    tagName := ← required str? tagName
    name := ← optional str? name
    prerelease := ← withDefault false bool? prerelease
    body := ← optional str? body
    createdAt := ← optional instant? created
    publishedAt := ← optional instant? published }

def Signature.ofJson? (v : Json) : Option Signature := do
  let [name, date] ← v.columns [lacking "name", field "date"] | none
  return ⟨← optional str? name, ← required instant? date⟩

def SignedMessage.ofJson? (signer : String) (v : Json) : Option SignedMessage := do
  let [signature, message] ← v.columns [field signer, lacking "message"] | none
  return ⟨← required Signature.ofJson? signature, ← withDefault "" str? message⟩

def tagObject? : Json → Option SignedMessage := SignedMessage.ofJson? "tagger"

def commit? : Json → Option SignedMessage := SignedMessage.ofJson? "author"

def RawBlob.ofJson? (v : Json) : Option RawBlob := do
  let [size, content, encoding] ← v.columns
    [field "size", lacking "content", lacking "encoding"] | none
  return {
    size := ← required nat64? size
    content := ← withDefault "" str? content
    encoding := ← withDefault "" str? encoding }

/-- The file with its contents as text. Blanks in Base64 do not count. -/
def RawBlob.decode (raw : RawBlob) : Except ApiError Blob :=
  if raw.encoding = "base64" then
    match Text.Base64.decode (Text.dropBlanks raw.content.toList) with
    | some bytes => .ok ⟨raw.size, String.ofList (Text.Utf8.read bytes)⟩
    | none => .error (.decode "invalid blob encoding: the contents are not Base64")
  else .ok ⟨raw.size, raw.content⟩

def rate? (v : Json) : Option Nat := do
  let [limit, used, remaining, reset] ← v.columns
    [field "limit", field "used", field "remaining", field "reset"] | none
  let _ ← required nat64? limit
  let _ ← required nat64? used
  let remaining ← required nat64? remaining
  let _ ← required nat64? reset
  return remaining

def quotaFields : List Field :=
  [field "core", field "search", field "graphql", field "integration_manifest", field "scim",
    field "source_import", field "code_scanning_upload", field "actions_runner_registration"]

def remaining? (v : Json) : Option Nat := do
  let [resources, rate] ← v.columns [field "resources", field "rate"] | none
  let _ ← required rate? rate
  let core :: search :: others ← (← resources).columns quotaFields | none
  let _ ← required rate? search
  let _ ← others.mapM (optional rate?)
  required rate? core

end ReleaseTracker.GitHub
