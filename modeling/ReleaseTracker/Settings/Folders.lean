/-! The folders where a user keeps settings and state. -/

namespace ReleaseTracker.Settings

def joined (path name : String) : String :=
  if path = "" ∨ path.toList.getLast? = some '/' then path ++ name else path ++ "/" ++ name

def userFolder (named : Option String) (home below : String) : String :=
  match named with
  | some path => if path.toList.head? = some '/' then path else joined home below
  | none => joined home below

def stateFolder (named : Option String) (home : String) : String :=
  joined (userFolder named home ".local/state") "starfeed"

def userFilePath (named : Option String) (home : String) : String :=
  joined (joined (userFolder named home ".config") "starfeed") "config.toml"

def folderFilePath : String := "starfeed.toml"

end ReleaseTracker.Settings
