import ReleaseTracker.Settings.Basic
import ReleaseTracker.Settings.Environment
import ReleaseTracker.Settings.Reading
import ReleaseTracker.Toml.Document

/-! Loading the settings: those in the environment are laid over those of the folder, and these over
those of the user. If anything cannot be read, all settings have their defaults. -/

namespace ReleaseTracker.Settings

/-! Sections -/

def withDatabase (settings : Settings) (found : Option Given) : Except Misfit Settings := do
  let s ← Section.ofGiven "DatabaseConfig" ["url"] found
  return { settings with databaseUrl := ← s.text 0 }

def withGitHub (settings : Settings) (found : Option Given) : Except Misfit Settings := do
  let keys := ["client_id", "client_secret", "listing", "requests_per_second"]
  let s ← Section.ofGiven "GitHubConfig" keys found
  return { settings with
    clientId := ← s.text 0
    clientSecret := ← s.text 1
    listing := (← s.value 2 Given.listing).getD settings.listing
    requestsPerSecond := (← s.value 3 Given.natural32).getD settings.requestsPerSecond }

def withPublisher (settings : Settings) (found : Option Given) : Except Misfit Settings := do
  let s ← Section.ofGiven "PublisherConfig" ["hub_url", "feed_url_template"] found
  return { settings with hubUrl := ← s.text 0, feedUrlTemplate := ← s.text 1 }

def withWorker (settings : Settings) (found : Option Given) : Except Misfit Settings := do
  let s ← Section.ofGiven "WorkerConfig" ["concurrency"] found
  return { settings with concurrency := (← s.value 0 Given.natural).getD settings.concurrency }

def inSection {α : Type} (root : Given) (name : String)
    (read : Option Given → Except Misfit α) : Except Misfit α :=
  (read (Toml.under? name root.entries)).mapError (·.under (.key name))

def ofGiven (root : Given) : Except Misfit Settings := do
  let settings ← inSection root "database" default.withDatabase
  let settings ← inSection root "github" settings.withGitHub
  let settings ← inSection root "publisher" settings.withPublisher
  inSection root "worker" settings.withWorker

/-! Sources -/

structure File where
  path : String
  shownPath : String
  /-- What the file holds. A file that is no text holds no settings. -/
  text : Option String
deriving DecidableEq, Repr

structure Sources where
  userFile : Option File
  folderFile : Option File
  environment : List (String × String)
deriving DecidableEq, Repr

inductive LoadError where
  | unreadable (cause path : String)
  | misfit (m : Misfit)
deriving DecidableEq, Repr

def LoadError.message : LoadError → String
  | .unreadable cause path => "Failed to build config: " ++ cause ++ " in " ++ path
  | .misfit m => "Failed to deserialize config: " ++ m.text

/-- The settings in a file. A byte order mark in front is passed over. -/
def File.layer (file : File) : Except LoadError Layer :=
  match file.text with
  | none => .ok []
  | some text =>
    let text :=
      match text.toList with
      | '\uFEFF' :: rest => String.ofList rest
      | _ => text
    match Toml.parse text with
    | .ok entries => .ok (.ofEntries (.file file.shownPath) entries)
    | .error cause => .error (.unreadable cause file.shownPath)

def fileLayer : Option File → Except LoadError Layer
  | none => .ok []
  | some file => file.layer

def Sources.layers (sources : Sources) : Except LoadError (List Layer) := do
  return [← fileLayer sources.userFile, ← fileLayer sources.folderFile,
    .ofEnvironment sources.environment]

def tryLoad (sources : Sources) : Except LoadError Settings := do
  (ofGiven (layAll (← sources.layers))).mapError .misfit

def load (sources : Sources) : Settings :=
  match tryLoad sources with
  | .ok settings => settings
  | .error _ => default

end ReleaseTracker.Settings
