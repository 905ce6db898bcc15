import ReleaseTracker.Store.Authority
import ReleaseTracker.Store.Opening

/-! Addresses of databases: a place, and whether a missing file is created there. -/

namespace ReleaseTracker

inductive Place where
  | memory
  | nameless
  | file (path : String)
deriving DecidableEq, Repr

structure Address where
  place : Place
  creates : Bool
  readOnly : Bool
  tuned : Bool
  canLog : Bool
  immutable : Bool
  lockMark : Option String
deriving DecidableEq, Repr

def Place.isFile : Place → Bool
  | .file _ => true
  | _ => false

namespace Address
open Text

def dropMarks (mark : List Char) : (fuel : Nat) → List Char → List Char
  | 0, s => s
  | fuel + 1, s => if mark.isPrefixOf s then dropMarks mark fuel (s.drop mark.length) else s

def behindScheme (s : List Char) : List Char :=
  let s := dropMarks "sqlite://".toList s.length s
  dropMarks "sqlite:".toList s.length s

def pathOf? (s : List Char) : Option String :=
  let octets := Percent.decode s
  let path := Utf8.read octets
  if Utf8.encode path = octets then some (String.ofList path) else none

def memoryName : String := ":memory:"

def opening? (s : List Char) : Option Opening :=
  let named (path : String) (inMemory : Bool) : Opening :=
    ⟨path, .write, inMemory, none, false, true⟩
  if s = memoryName.toList then some (named "" true)
  else (pathOf? s).map (named · false)

structure Request where
  opening : Opening
  creates : Bool
  readOnly : Bool

def Request.withParameter (request : Request) (name value : String) : Option Request :=
  let opening := request.opening
  match name, value with
  | "mode", "ro" => some { request with readOnly := true }
  | "mode", "rw" => some request
  | "mode", "rwc" => some { request with creates := true }
  | "mode", "memory" => some { request with opening := { opening with inMemory := true } }
  | "cache", "private" | "cache", "shared" => some request
  | "immutable", "true" | "immutable", "1" =>
    some { request with opening := { opening with immutable := true } }
  | "immutable", "false" | "immutable", "0" =>
    some { request with opening := { opening with immutable := false } }
  | "vfs", _ => some { request with opening := { opening with driver := some value } }
  | _, _ => none

def Request.withParameters (request : Request) : List (String × String) → Option Request
  | [] => some request
  | (name, value) :: rest => (request.withParameter name value).bind (·.withParameters rest)

/-- The opening that a request comes to. A name is read for parameters of its own only where none
but its access is asked for, and only then a zero in it is not allowed. -/
def Request.opening? (request : Request) : Option Opening :=
  let access : Access :=
    if request.readOnly then .read else if request.creates then .create else .write
  let opening : Opening := { request.opening with access }
  if opening.immutable ∨ opening.driver.isSome then some opening.untilZero
  else if opening.path.toList.contains '\x00' then none
  else opening.resolved?

def placeOf (opening : Opening) : Place :=
  if opening.inMemory ∨ opening.path = memoryName then .memory
  else if opening.path = "" then .nameless
  else if opening.driver = some Opening.memoryDriver then .memory
  else .file opening.path

def ofOpening (tuned : Bool) (opening : Opening) : Address :=
  let place := placeOf opening
  { place, tuned
    creates := opening.access = .create
    readOnly := opening.access = .read || (opening.immutable && place.isFile)
    canLog := opening.canLog
    immutable := opening.immutable
    lockMark := opening.lockMark? }

def splitParameters (s : List Char) : List Char × List Char := (splitOnce '?' s).getD (s, [])

def parse? (text : String) : Option Address := do
  let s := text.toList
  let (path, parameters) := splitParameters (behindScheme s)
  let request : Request := ⟨← opening? path, false, false⟩
  let request ← request.withParameters (Percent.decodeForm parameters)
  let opening ← request.opening?
  if Authority.isAddress "sqlite" text ∧ opening.hasKnownDriver then
    some (ofOpening ("sqlite:".toList.isPrefixOf s) opening)
  else none

end Address
end ReleaseTracker
