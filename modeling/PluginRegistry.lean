import PluginRegistry.Actor.Counter
import PluginRegistry.Actor.Exchange
import PluginRegistry.Actor.Handle
import PluginRegistry.Document.Json.Number
import PluginRegistry.Live.Instances
import PluginRegistry.Main
import PluginRegistry.Plugin.Wire
import PluginRegistry.Proofs.Differences
import PluginRegistry.Proofs.ScanLocality
import PluginRegistry.Proofs.Publication
import PluginRegistry.Proofs.Announcements
import PluginRegistry.Proofs.KeyConvergence
import PluginRegistry.Proofs.VersionConvergence
import PluginRegistry.Proofs.PackageRuns
import PluginRegistry.Proofs.InitialLoad
import PluginRegistry.Proofs.Adoption
import PluginRegistry.Proofs.StoredExecutors
import PluginRegistry.Proofs.BinaryForm
import PluginRegistry.Proofs.CanonicalForm
import PluginRegistry.Proofs.Histories
import PluginRegistry.Proofs.MailboxLedger
import PluginRegistry.Proofs.MapEntries
import PluginRegistry.Proofs.PackageIsolation
import PluginRegistry.Proofs.FullReload
import PluginRegistry.Proofs.WorldRuns
import PluginRegistry.Proofs.Lifecycle
import PluginRegistry.Proofs.Reading
import PluginRegistry.Proofs.Signalling
import PluginRegistry.Proofs.Subscriptions
import PluginRegistry.Proofs.Performed
import PluginRegistry.Proofs.LoadOutcome
import PluginRegistry.Proofs.Notifications
import PluginRegistry.Proofs.FailedRescan
import PluginRegistry.Proofs.FlagText
import PluginRegistry.Proofs.DocumentForm
import PluginRegistry.Proofs.EventDelivery
import PluginRegistry.Proofs.ProcessWide
import PluginRegistry.Proofs.Enrolment
import PluginRegistry.Proofs.WorkingMaps
import PluginRegistry.Proofs.Destruction
import PluginRegistry.Proofs.ActorLoop
import PluginRegistry.Proofs.Joining
import PluginRegistry.Proofs.Acceptance
import PluginRegistry.Proofs.CandidateFates
import PluginRegistry.Proofs.ScanComparison
import PluginRegistry.Proofs.Truncation
import PluginRegistry.Proofs.Termination
import PluginRegistry.Proofs.Exits
import PluginRegistry.Proofs.Commutation
import PluginRegistry.Proofs.Departure
import PluginRegistry.Proofs.Reconciliation
import PluginRegistry.Proofs.Rendering
import PluginRegistry.Proofs.InventoryLoading
import PluginRegistry.Proofs.JsonText
import PluginRegistry.Proofs.CommandAgreement
import PluginRegistry.Proofs.GateOpening
