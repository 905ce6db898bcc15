import ReleaseTracker.Credential.Factory
import ReleaseTracker.Http.Client
import ReleaseTracker.Main
import ReleaseTracker.Rehearsal.Attempts
import ReleaseTracker.Rehearsal.Stage
import ReleaseTracker.Proofs.Program.Runs
import ReleaseTracker.Proofs.Store.Rule
import ReleaseTracker.Proofs.Sync.Surroundings
import ReleaseTracker.Proofs.Sync.StarWalk
import ReleaseTracker.Proofs.Sync.StarReconciliation
import ReleaseTracker.Proofs.Lists.Newcomers
import ReleaseTracker.Proofs.Sync.VersionPass
import ReleaseTracker.Proofs.Sync.VersionOutcome
import ReleaseTracker.Proofs.Lists.Batches
import ReleaseTracker.Proofs.Sync.Replies
import ReleaseTracker.Proofs.Sync.Inquiry
import ReleaseTracker.Proofs.Sync.VersionSurvey
import ReleaseTracker.Proofs.Sync.VersionAim
import ReleaseTracker.Proofs.Sync.VersionBatches
import ReleaseTracker.Proofs.Sync.VersionTally
import ReleaseTracker.Proofs.Sync.VersionTwins
import ReleaseTracker.Proofs.Sync.VersionCut
import ReleaseTracker.Proofs.Store.Keys
import ReleaseTracker.Proofs.Sync.StoreFailure
import ReleaseTracker.Proofs.Sync.Constraints
import ReleaseTracker.Proofs.Sync.VersionInterruption
import ReleaseTracker.Proofs.Sync.VersionResumption
import ReleaseTracker.Proofs.Lists.Groups
import ReleaseTracker.Proofs.Sync.VersionRounds
import ReleaseTracker.Proofs.Store.Integrity
import ReleaseTracker.Proofs.Program.Contract
import ReleaseTracker.Proofs.Lists.Carried
import ReleaseTracker.Proofs.Work.Subject
import ReleaseTracker.Proofs.Work.Contract
import ReleaseTracker.Proofs.Work.StarConformance
import ReleaseTracker.Proofs.Work.VersionConformance
import ReleaseTracker.Proofs.Work.Conformance
import ReleaseTracker.Proofs.Work.Frame
import ReleaseTracker.Proofs.Work.Abort
import ReleaseTracker.Proofs.Work.Workshop
import ReleaseTracker.Proofs.Work.Removal
import ReleaseTracker.Proofs.Sync.StarLog
import ReleaseTracker.Proofs.Sync.StarUpkeep
import ReleaseTracker.Proofs.Sync.StarRepetition
import ReleaseTracker.Proofs.Work.Crew
import ReleaseTracker.Proofs.Work.StarCrew
import ReleaseTracker.Proofs.Work.VersionCrew
import ReleaseTracker.Proofs.Json.Objects
import ReleaseTracker.Proofs.GitHub.Servers
import ReleaseTracker.Proofs.GitHub.Listings
import ReleaseTracker.Proofs.GitHub.RestListing
import ReleaseTracker.Proofs.GitHub.GraphQlListing
import ReleaseTracker.Proofs.Work.ListingChoice
import ReleaseTracker.Proofs.Work.QueueSteps
import ReleaseTracker.Proofs.Work.QueueAccounts
import ReleaseTracker.Proofs.Work.QueueOrder
import ReleaseTracker.Proofs.Credential.Selection
import ReleaseTracker.Proofs.GitHub.Disappearance
import ReleaseTracker.Proofs.Work.RemovalMarks
import ReleaseTracker.Proofs.GitHub.Responses
import ReleaseTracker.Proofs.GitHub.TagPages
import ReleaseTracker.Proofs.GitHub.Exchanges
import ReleaseTracker.Proofs.Sync.StarCalls
import ReleaseTracker.Proofs.Sync.StarDeletion
import ReleaseTracker.Proofs.Work.QueryMarks
import ReleaseTracker.Proofs.Text.Utf8
import ReleaseTracker.Proofs.Text.Percent
import ReleaseTracker.Proofs.GitHub.Routes
import ReleaseTracker.Proofs.Text.Replacement
import ReleaseTracker.Proofs.Hub.Announcement
import ReleaseTracker.Proofs.Sync.VersionTrail
import ReleaseTracker.Proofs.Sync.VersionSources
import ReleaseTracker.Proofs.Sync.VersionCalls
import ReleaseTracker.Proofs.Text.Stripping
import ReleaseTracker.Proofs.Store.Upsert
import ReleaseTracker.Proofs.Hub.Retries
import ReleaseTracker.Proofs.Hub.Delivery
import ReleaseTracker.Proofs.Sync.StarTurns
import ReleaseTracker.Proofs.Sync.StarRefresh
import ReleaseTracker.Proofs.GitHub.Blobs
import ReleaseTracker.Proofs.Settings.Secrets
