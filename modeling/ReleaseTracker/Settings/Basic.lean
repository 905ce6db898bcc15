import ReleaseTracker.Credential.Basic
import ReleaseTracker.GitHub.Client
import ReleaseTracker.Work.Item

/-! What can be configured. -/

namespace ReleaseTracker

structure Settings where
  databaseUrl : Option String
  clientId : Option String
  clientSecret : Option String
  listing : ListingKind
  /-- The pace of requests. Zero stands for none. -/
  requestsPerSecond : Nat
  hubUrl : Option String
  feedUrlTemplate : Option String
  concurrency : Nat
deriving DecidableEq, Repr

namespace Settings

def default : Settings where
  databaseUrl := none
  clientId := none
  clientSecret := none
  listing := .rest
  requestsPerSecond := 10
  hubUrl := none
  feedUrlTemplate := none
  concurrency := defaultConcurrency

def databaseUrlIn (settings : Settings) (stateFolder : String) : String :=
  settings.databaseUrl.getD ("sqlite://" ++ stateFolder ++ "/starfeed.db?mode=rwc")

def appCredential (settings : Settings) : Option Credential :=
  match settings.clientId, settings.clientSecret with
  | some clientId, some clientSecret =>
    if clientId = "" ∨ clientSecret = "" then none else some (.app clientId clientSecret)
  | _, _ => none

end Settings
end ReleaseTracker
