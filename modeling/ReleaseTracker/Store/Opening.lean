import ReleaseTracker.Text.Percent

/-! How a database file is to be opened. A name that begins with `file:` has a path with escapes and
parameters of its own. -/

namespace ReleaseTracker
open Text

inductive Access where
  | read
  | write
  | create
deriving DecidableEq, Repr

def Access.rank : Access → Nat
  | .read => 1
  | .write => 2
  | .create => 6

structure Opening where
  path : String
  access : Access
  inMemory : Bool
  driver : Option String
  immutable : Bool
  locks : Bool
deriving DecidableEq, Repr

namespace Opening

def octets : List Char → List UInt8
  | [] => []
  | '%' :: high :: low :: rest =>
    match Numeral.hexDigit? high, Numeral.hexDigit? low with
    | some 0, some 0 => []
    | some h, some l => UInt8.ofNat (h * 16 + l) :: octets rest
    | _, _ => UInt8.ofNat 37 :: octets (high :: low :: rest)
  | c :: rest => String.utf8EncodeChar c ++ octets rest

def unescaped (s : List Char) : String := String.ofList (Utf8.read (octets s))

def parameters (s : List Char) : List (String × String) :=
  let pairs := (splitOn '&' s).map fun piece =>
    let (name, value) := (splitOnce '=' piece).getD (piece, [])
    (unescaped name, unescaped value)
  pairs.filter (·.1 ≠ "")

def isYes (value : String) : Bool :=
  let s := value.toList
  if (s.head?.map Char.isDigit).getD false then
    Numeral.value (s.takeWhile Char.isDigit) % 256 != 0
  else ["on", "yes", "true"].contains (String.ofList (lowerAscii s))

def limit (opening : Opening) : Nat := opening.access.rank + if opening.inMemory then 128 else 0

def withAccess (opening : Opening) (access : Access) : Option Opening :=
  if access.rank ≤ opening.limit then some { opening with access, inMemory := false } else none

def withParameter (opening : Opening) (name value : String) : Option Opening :=
  match name, value with
  | "vfs", driver => some { opening with driver := some driver }
  | "cache", value => if value = "shared" ∨ value = "private" then some opening else none
  | "mode", "ro" => opening.withAccess .read
  | "mode", "rw" => opening.withAccess .write
  | "mode", "rwc" => opening.withAccess .create
  | "mode", "memory" => some { opening with access := .write, inMemory := true }
  | "mode", _ => none
  | _, _ => some opening

def withParameters (opening : Opening) : List (String × String) → Option Opening
  | [] => some opening
  | (name, value) :: rest => (opening.withParameter name value).bind (·.withParameters rest)

def behindHost? (s : List Char) : Option (List Char) :=
  match s with
  | '/' :: '/' :: rest =>
    let host := rest.takeWhile (· ≠ '/')
    if host = [] ∨ host = "localhost".toList then some (rest.drop host.length) else none
  | s => some s

def ofUri? (opening : Opening) (s : List Char) : Option Opening := do
  -- a fragment does not count
  let s := (← behindHost? s).takeWhile (· ≠ '#')
  let (path, query) := (splitOnce '?' s).getD (s, [])
  let given := parameters query
  let holds (name : String) : Bool := ((given.lookup name).map isYes).getD false
  let opening ← opening.withParameters given
  return { opening with
    path := unescaped path
    immutable := holds "immutable"
    locks := !holds "nolock" }

def resolved? (opening : Opening) : Option Opening :=
  let mark := "file:".toList
  let s := opening.path.toList
  if mark.isPrefixOf s then opening.ofUri? (s.drop mark.length) else some opening

/-- The ways to reach files: those that lock them so that a log may be shared, and others. -/
def logDrivers : List String := ["unix", "unix-excl"]

def folderLockDriver : String := "unix-dotfile"

def plainDrivers : List String := ["unix-none", folderLockDriver]

def memoryDriver : String := "memdb"

def hasKnownDriver (opening : Opening) : Bool :=
  opening.driver.all fun name =>
    (logDrivers ++ plainDrivers ++ [memoryDriver]).contains name

def isLocked (opening : Opening) : Bool := !opening.immutable && opening.locks

def canLog (opening : Opening) : Bool :=
  opening.isLocked && opening.driver.all logDrivers.contains

def lockMark? (opening : Opening) : Option String :=
  if opening.isLocked ∧ opening.driver = some folderLockDriver then some ".lock" else none

def untilZero (opening : Opening) : Opening :=
  let cut (s : String) : String := String.ofList (s.toList.takeWhile (· ≠ '\x00'))
  { opening with path := cut opening.path, driver := opening.driver.map cut }

end Opening
end ReleaseTracker
