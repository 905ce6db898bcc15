import ReleaseTracker.Store.Address
import ReleaseTracker.Store.Schema

/-! Folders and files on a disk, and connections to the databases in files. -/

namespace ReleaseTracker

inductive Stored where
  | text (s : String)
  /-- A database. Once its changes have been logged beside it, they always are. -/
  | database (db : Database) (isLogged : Bool)
deriving DecidableEq, Repr

def Stored.database? : Stored → Option (Database × Bool)
  -- an empty file may become a database
  | .text s => if s = "" then some (.bare, false) else none
  | .database db isLogged => some (db, isLogged)

/-- The text in a file. A database starts with the name of its format as soon as anything has been
written, and what follows the name is not text that anyone could read. -/
def Stored.contents : Stored → String
  | .text s => s
  | .database db isLogged => if db = .bare ∧ ¬isLogged then "" else "SQLite format 3"

structure Disk where
  here : String
  folders : List String
  files : List (String × Stored)
deriving DecidableEq, Repr

structure Pragmas where
  journalMode : String
  busyTimeout : Nat
  synchronous : Nat
  foreignKeys : Nat
deriving DecidableEq, Repr

structure Connection where
  address : Address
  database : Database
  isWritable : Bool
deriving DecidableEq, Repr

namespace Disk

/-! Paths -/

def names (path : String) : List (List Char) :=
  (Text.splitOn '/' path.toList).filter fun name => name ≠ [] && name ≠ ['.']

def pathOf (names : List (List Char)) : String :=
  String.ofList ('/' :: ['/'].intercalate names)

def follow (seen : List (List Char)) (names : List (List Char)) : List (List Char) :=
  names.foldl (fun seen name => if name = ['.', '.'] then seen.dropLast else seen ++ [name]) seen

def start (disk : Disk) (path : String) : List (List Char) :=
  if path.toList.head? = some '/' then [] else names disk.here

def place (disk : Disk) (path : String) : String :=
  pathOf (follow (disk.start path) (names path))

def folderOf (path : String) : String := pathOf (names path).dropLast

def nameOf (path : String) : String := String.ofList ((names path).getLastD [])

/-! Files and folders -/

def hasFolder (disk : Disk) (path : String) : Bool := disk.folders.contains path

def file? (disk : Disk) (path : String) : Option Stored :=
  (disk.files.find? (·.1 = path)).map (·.2)

def isTaken (disk : Disk) (path : String) : Bool := disk.hasFolder path || (disk.file? path).isSome

def addFolder (disk : Disk) (path : String) : Disk :=
  if disk.hasFolder path then disk else { disk with folders := disk.folders ++ [path] }

def putFile (path : String) (stored : Stored) : List (String × Stored) → List (String × Stored)
  | [] => [(path, stored)]
  | (other, old) :: rest =>
    if other = path then (path, stored) :: rest else (other, old) :: putFile path stored rest

def nameLimit : Nat := 255

def pathLimit : Nat := 510

def fits (path mark : String) : Bool :=
  (nameOf path).utf8ByteSize + mark.utf8ByteSize ≤ nameLimit

def isReachable (path : String) : Bool :=
  path.utf8ByteSize ≤ pathLimit &&
    (names path).all fun name => (String.ofList name).utf8ByteSize ≤ nameLimit

/-- Go along some names from a folder, and create the folders that are missing, those that the path
leaves again among them. A file may be in the way. -/
def createAlong (disk : Disk) (seen : List (List Char)) : List (List Char) → Option Disk
  | [] => some disk
  | name :: rest =>
    if name = ['.', '.'] then createAlong disk seen.dropLast rest
    else
      let path := pathOf (seen ++ [name])
      if fits path "" ∧ (disk.file? path).isNone then
        createAlong (disk.addFolder path) (seen ++ [name]) rest
      else none

def createFolderOf? (disk : Disk) (path : String) : Option Disk :=
  disk.createAlong (disk.start path) (names path).dropLast

def wayBetween : List (List Char) → List (List Char) → List (List Char)
  | a :: base, b :: names =>
    if a = b then wayBetween base names
    else (a :: base).map (fun _ => ['.', '.']) ++ b :: names
  | base, names => base.map (fun _ => ['.', '.']) ++ names

def relative (disk : Disk) (path : String) : String :=
  let base := if path.toList.head? = some '/' then names disk.here else []
  String.ofList (['/'].intercalate (wayBetween base (names path)))

def text? (disk : Disk) (path : String) : Option String :=
  (disk.file? (disk.place path)).map Stored.contents

/-! Connections -/

def database? (disk : Disk) (address : Address) : Option (Database × Bool) :=
  match address.place with
  | .memory | .nameless => some (.bare, false)
  | .file path =>
    let path := disk.place path
    match disk.file? path with
    | some stored => stored.database?
    | none =>
      if address.creates ∧ disk.hasFolder (folderOf path) ∧ ¬disk.hasFolder path ∧
          isReachable path then
        some (.bare, false)
      else none

def logs (address : Address) : Bool := address.tuned && address.canLog && address.place.isFile

def journalMode (address : Address) : String :=
  match address.place with
  | .memory => "memory"
  | .nameless => "delete"
  | .file _ => if logs address then "wal" else "delete"

def pragmas (address : Address) : Pragmas :=
  ⟨journalMode address, 5000, if address.tuned then 1 else 2, 1⟩

def hasRoom (disk : Disk) (path mark : String) : Bool :=
  fits path mark && !disk.hasFolder (path ++ mark)

def isWritable (disk : Disk) (address : Address) : Bool :=
  !address.readOnly &&
    match address.place with
    | .file path => disk.hasRoom (disk.place path) "-journal"
    | _ => true

def isUsable (disk : Disk) (address : Address) (isLogged : Bool) : Bool :=
  match address.place with
  | .file path =>
    let path := disk.place path
    let hasLog := logs address || (isLogged && !address.immutable)
    (address.lockMark.all fun mark => fits path mark && !disk.isTaken (path ++ mark)) &&
      (!hasLog ||
        (address.canLog && disk.hasRoom path "-wal" && disk.hasRoom path "-shm"))
  | _ => true

/-- Connect to the database at an address. Setting up a log writes to the file. -/
def connect? (disk : Disk) (url : String) : Option Connection := do
  let address ← Address.parse? url
  let (database, isLogged) ← disk.database? address
  let isWritable := disk.isWritable address
  if disk.isUsable address isLogged && (isWritable || isLogged || !logs address) then
    return ⟨address, database, isWritable⟩
  else none

def save (disk : Disk) (connection : Connection) (database : Database) : Disk :=
  match connection.address.place with
  | .memory | .nameless => disk
  | .file path =>
    let path := disk.place path
    let wasLogged := ((disk.file? path).bind Stored.database?).any (·.2)
    let stored : Stored := .database database (wasLogged || logs connection.address)
    { disk with files := putFile path stored disk.files }

end Disk
end ReleaseTracker
