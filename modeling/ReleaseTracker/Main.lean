import ReleaseTracker.Cli.Run
import ReleaseTracker.Settings.Folders
import ReleaseTracker.Settings.Variables

/-! The command line. Databases live as long as the program runs. -/

namespace ReleaseTracker.Cli

def fileText? (path : String) : IO (Option String) := do
  try
    return some (← IO.FS.readFile path)
  catch _ =>
    return none

def withFile (disk : Disk) (path : String) : IO Disk := do
  match ← fileText? path with
  | none => return disk
  | some text =>
    let disk := (disk.createFolderOf? path).getD disk
    return { disk with files := Disk.putFile (disk.place path) (.text text) disk.files }

def environment : IO (List (String × String)) := do
  let given ← Settings.variableNames.mapM fun name => do
    return (← IO.getEnv name).map (name, ·)
  return given.filterMap id

def invocation (arguments : List String) : IO Invocation := do
  let home := (← IO.getEnv "HOME").getD ""
  return {
    arguments
    environment := ← environment
    userFilePath := Settings.userFilePath (← IO.getEnv "XDG_CONFIG_HOME") home
    stateFolder := Settings.stateFolder (← IO.getEnv "XDG_STATE_HOME") home
    logFilter := ← IO.getEnv "RUST_LOG" }

def diskFor (invocation : Invocation) : IO Disk := do
  let here := (← IO.currentDir).toString
  let disk : Disk := ⟨here, ["/"], []⟩
  let disk := (disk.createFolderOf? (here ++ "/" ++ Settings.folderFilePath)).getD disk
  withFile (← withFile disk invocation.userFilePath) Settings.folderFilePath

def failureLine (message : Option String) : String :=
  "Error: " ++
    match message with
    | some message => Text.Quoted.encode message
    | none => "the database could not be used"

end ReleaseTracker.Cli

open ReleaseTracker.Cli in
def main (arguments : List String) : IO UInt32 := do
  let invocation ← invocation arguments
  let (report, _) := run invocation (← diskFor invocation)
  report.output.forM IO.println
  if report.code = 1 then IO.eprintln (failureLine report.failure)
  return report.code.toUInt32
