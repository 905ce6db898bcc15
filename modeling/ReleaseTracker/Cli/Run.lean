import ReleaseTracker.Cli.Arguments
import ReleaseTracker.Cli.Filter
import ReleaseTracker.Cli.Help
import ReleaseTracker.Cli.Limits
import ReleaseTracker.Cli.Offline
import ReleaseTracker.Hub.Publisher
import ReleaseTracker.Settings.Folders
import ReleaseTracker.Settings.Load
import ReleaseTracker.Store.Disk
import ReleaseTracker.Work.Queue

/-! Running a command line on a disk, without a network. -/

namespace ReleaseTracker.Cli

structure Invocation where
  arguments : List String
  environment : List (String × String)
  userFilePath : String
  stateFolder : String
  logFilter : Option String

structure Report where
  code : Nat
  output : List String
  failure : Option String
deriving DecidableEq, Repr

inductive Ending where
  | success
  /-- A failure has a text of its own, or none that is kept. -/
  | failure (message : Option String)
  | crash
deriving DecidableEq, Repr

structure Performed where
  lines : List Line
  ending : Ending
  database : Database

def version : String := "0.1.0"

def succeed (lines : List Line) (database : Database) : Performed := ⟨lines, .success, database⟩

def fail (message : Option String) (database : Database) : Performed :=
  ⟨[], .failure message, database⟩

def Performed.after (performed : Performed) (lines : List Line) : Performed :=
  { performed with lines := lines ++ performed.lines }

/-! Wiring -/

def wiringLine (level : Level) (message : String) : Line :=
  .logged ⟨level, "starfeed::commands::shared", message, []⟩

def syncLine (message : String) (fields : List (String × String)) : Line :=
  .logged ⟨.info, "starfeed::commands::sync", message, fields⟩

def selector (settings : Settings) : Selector :=
  ⟨settings.appCredential, defaultAppThreshold, defaultUserThreshold⟩

def selectorLines (settings : Settings) : List Line :=
  if settings.appCredential.isSome then []
  else [wiringLine .info "No application credential configured, using user tokens only"]

def publisherLines (settings : Settings) : Except String (List Line) :=
  match settings.hubUrl, settings.feedUrlTemplate with
  | none, _ => .ok []
  | some _, none => .ok [wiringLine .warn
      "publisher.hub_url is set without publisher.feed_url_template, hub pings disabled"]
  | some _, some template =>
    if Hub.hasUsernameMark template then .ok []
    else .error ("publisher.feed_url_template must contain \x7busername\x7d: " ++ template)

def engine (settings : Settings) : Engine where
  selector := selector settings
  options := .default 1

/-! Work -/

def noIdentityLine : Line :=
  .logged
    ⟨.warn, "starfeed::credentials", "No GitHub credential with sufficient quota available", []⟩

def itemDisplay : WorkItem → String
  | .stars userId => s!"SyncStarredRepos \x7b user_id: {userId} \x7d"
  | .versions repoId => s!"SyncVersion \x7b repo_id: {repoId} \x7d"

def skippedLines (item : WorkItem) : Except Fault Outcome → List Line
  | .ok (.aborted .noClient) =>
    [noIdentityLine, .logged ⟨.warn, "starfeed::worker", "No usable GitHub client, skipping",
      [("item", itemDisplay item)]⟩]
  | _ => []

def workedLines (finished : Finished) : List Line := skippedLines finished.item finished.result

def performItem (settings : Settings) (subject : String) (item : WorkItem)
    (db : Database) : Performed :=
  match ((engine settings).handle item).run offline db with
  | (.ok outcome, db) =>
    let finished :=
      syncLine "Sync finished" [("subject", Text.Quoted.encode subject), ("outcome", outcome.text)]
    succeed (skippedLines item (.ok outcome) ++ [finished]) db
  | (.error _, db) => fail none db

def drainedLine (stats : QueueStats) : Line :=
  .logged ⟨.info, "starfeed::worker", "Queue drained",
    [("completed", toString stats.completed), ("partial", toString stats.partly),
      ("aborted", toString stats.aborted), ("failed", toString stats.failed)]⟩

/-- So many items can be worked on at a time. Twice as many may wait, and their number has 61
bits. -/
def greatestConcurrency : Nat := 1152921504606846975

def performAll (settings : Settings) (concurrency : Nat) (items : List WorkItem)
    (db : Database) : Performed :=
  if greatestConcurrency < concurrency then ⟨[], .crash, db⟩
  else
    let (queue, db) := (engine settings).workOff offline concurrency [] items db
    let start :=
      syncLine "Processing work items"
        [("total", toString items.length), ("concurrency", toString (max concurrency 1))]
    succeed (start :: queue.finished.flatMap workedLines ++ [drainedLine queue.stats]) db

/-! Commands -/

def migrationLine (message : String) : Line :=
  .logged ⟨.info, "sea_orm_migration::migrator", message, []⟩

def upLines (db : Database) : List Line :=
  migrationLine "Applying all pending migrations" ::
    match db.pendingMigrations with
    | [] => [migrationLine "No pending migrations"]
    | pending => pending.flatMap fun name =>
      [migrationLine ("Applying migration \x27" ++ name ++ "\x27"),
        migrationLine ("Migration \x27" ++ name ++ "\x27 has been applied")]

def downLines (db : Database) : List Line :=
  migrationLine "Rolling back 1 applied migrations" ::
    match db.appliedMigrations.getLast? with
    | none => [migrationLine "No applied migrations"]
    | some name =>
      [migrationLine ("Rolling back migration \x27" ++ name ++ "\x27"),
        migrationLine ("Migration \x27" ++ name ++ "\x27 has been rollbacked")]

def performMigrate (action : String) (db : Database) : Performed :=
  match action with
  | "up" =>
    match db.pendingMigrations with
    | [] => succeed [.printed "Schema is up to date."] db
    | pending =>
      succeed (pending.map (fun name => .printed ("  + " ++ name)) ++ upLines db ++
        [.printed s!"Applied {pending.length} migration(s)."]) db.migrateUp
  | "down" =>
    succeed (downLines db ++ [.printed "Rolled back the latest migration."]) db.migrateDown
  | "status" =>
    succeed (db.appliedMigrations.map (fun name => .printed ("  applied " ++ name)) ++
      db.pendingMigrations.map (fun name => .printed ("  pending " ++ name))) db
  | _ => fail none db

def performLimits (settings : Settings) (output : String) (db : Database) :
    Performed :=
  let (result, db) := (selector settings).find.run offline db
  let (before, row) :=
    match result with
    | .ok (some client) => ([], LimitsRow.ofClient client)
    | _ => ([noIdentityLine], LimitsRow.none)
  let shown := if output = "json" then row.json else row.table
  succeed (selectorLines settings ++ before ++ shown.map .printed) db

def concurrencyOf (settings : Settings) (values : List (String × String)) : Nat :=
  ((values.lookup "concurrency").bind count?).getD settings.concurrency

def performWork (settings : Settings) (action : String)
    (values : List (String × String)) (db : Database) : Performed :=
  let idOf (name : String) : Int := ((values.lookup name).bind integer?).getD 0
  match action, db.tables with
  | "stars", _ =>
    let id := idOf "user"
    performItem settings s!"user {id}" (.stars id) db
  | "versions", _ =>
    let id := idOf "repo"
    performItem settings s!"repo {id}" (.versions id) db
  | "all-stars", some tables =>
    performAll settings (concurrencyOf settings values) (tables.activeUserIds.map .stars) db
  | "all-versions", some tables =>
    performAll settings (concurrencyOf settings values) (tables.activeRepoIds.map .versions) db
  | _, _ => fail none db

def performSync (settings : Settings) (action : String)
    (values : List (String × String)) (db : Database) : Performed :=
  match publisherLines settings with
  | .error message => fail (some message) db
  | .ok lines =>
    (performWork settings action values db).after (selectorLines settings ++ lines)

def perform (settings : Settings) (path : List String)
    (values : List (String × String)) (db : Database) : Performed :=
  match path.drop 1 with
  | ["migrate", action] => performMigrate action db
  | ["sync", action] => (performSync settings action values db.migrateUp).after (upLines db)
  | ["limits"] =>
    let output := (values.lookup "output").getD "table"
    (performLimits settings output db.migrateUp).after (upLines db)
  | _ => fail none db

/-! Runs -/

def settingsLine (level : Level) (message : String) : Line :=
  .logged ⟨level, "starfeed::config", message, []⟩

def settingsFile? (disk : Disk) (path : String) : Option Settings.File :=
  if disk.isTaken (disk.place path) then some ⟨path, disk.relative path, disk.text? path⟩ else none

def sources (invocation : Invocation) (disk : Disk) : Settings.Sources where
  userFile := settingsFile? disk invocation.userFilePath
  folderFile := settingsFile? disk Settings.folderFilePath
  environment := invocation.environment

def settingsLines (sources : Settings.Sources) : List Line :=
  let reading (name : String) : Line := settingsLine .debug ("Loading config from " ++ name)
  (sources.userFile.map fun file => reading (Text.Quoted.encode file.path)).toList ++
    (sources.folderFile.map fun file => reading ("./" ++ file.path)).toList ++
    match Settings.tryLoad sources with
    | .ok _ => []
    | .error e => [settingsLine .warn e.message]

def filePath? (url : String) : Option String :=
  let mark := "sqlite://".toList
  let s := url.toList
  if mark.isPrefixOf s then
    some (String.ofList (Address.splitParameters (Address.dropMarks mark s.length s)).1)
  else none

def relativeLines (path : String) : List Line :=
  if path ≠ "" ∧ path.toList.head? ≠ some '/' then
    let message :=
      "Database path \x27" ++ path ++ "\x27 is relative - " ++
        "behavior depends on current directory. Consider using an absolute path."
    [.logged ⟨.warn, "starfeed", message, []⟩]
  else []

def prepare? (disk : Disk) (url : String) : Option (List Line × Disk) :=
  match filePath? url with
  | none => some ([], disk)
  | some path => (disk.createFolderOf? path).map (relativeLines path, ·)

def failed (message : Option String) : Report := ⟨1, [], message⟩

def crashed : Report := ⟨101, [], none⟩

def report (filter : Filter) (performed : Performed) : Report :=
  match performed.ending with
  | .success => ⟨0, filter.shown performed.lines, none⟩
  | .failure message => failed message
  | .crash => crashed

/-- Perform a command over a connection. Where nothing can be written, a database cannot change,
and one that is bare cannot even be given the list of its migrations. -/
def performOver (settings : Settings) (path : List String)
    (values : List (String × String)) (connection : Connection) : Performed :=
  let database := connection.database
  let performed := perform settings path values database
  if ¬connection.isWritable ∧ (database = .bare ∨ performed.database ≠ database) then
    fail none database
  else performed

def runCommand (settings : Settings) (url : String) (filter : Filter) (loading : List Line)
    (path : List String) (values : List (String × String)) (disk : Disk) : Report × Disk :=
  match prepare? disk url with
  | none => (failed none, disk)
  | some (before, disk) =>
    match disk.connect? url with
    | none => (failed none, disk)
    | some connection =>
      let performed := performOver settings path values connection
      (report filter (performed.after (loading ++ before)),
        disk.save connection performed.database)

def runFiltered (invocation : Invocation) (filter : Filter) (disk : Disk) : Report × Disk :=
  let sources := sources invocation disk
  let loading := settingsLines sources
  let told (texts : List String) : Report :=
    ⟨0, filter.shown (loading ++ texts.map .printed), none⟩
  match parse invocation.arguments with
  | .refused => (⟨2, [], none⟩, disk)
  | .longHelp => (⟨0, [], none⟩, disk)
  | .version => (told [programForm.name ++ " " ++ version], disk)
  | .shortHelp form path => (told (form.help path), disk)
  | .command path values =>
    let settings := Settings.load sources
    let url := settings.databaseUrlIn invocation.stateFolder
    runCommand settings url filter loading path values disk

/-- Run a command line. Before anything else, the filter of the log is read. -/
def run (invocation : Invocation) (disk : Disk) : Report × Disk :=
  match (invocation.logFilter.map Filter.ofText?).getD (some Filter.default) with
  | none => (crashed, disk)
  | some filter => runFiltered invocation filter disk

end ReleaseTracker.Cli
