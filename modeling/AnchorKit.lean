import AnchorKit.RevocationInvariants
import AnchorKit.AttestationInvariants
import AnchorKit.SessionInvariants
import AnchorKit.Library.FixedWindow
import AnchorKit.RateLimiterRuns
import AnchorKit.FairShare
import AnchorKit.SubmissionQuota
import AnchorKit.CacheGovernance
import AnchorKit.Cache
import AnchorKit.AnchorMetadata
import AnchorKit.Migration
import AnchorKit.ServiceManagement
import AnchorKit.Library.Guarded
import AnchorKit.Permissions
import AnchorKit.Compliance
import AnchorKit.Quotes
import AnchorKit.Library.Binary32
import AnchorKit.Routing
import AnchorKit.ServiceAvailability
import AnchorKit.SessionReports
import AnchorKit.Library.KeyIndex
import AnchorKit.TransactionInvariants
import AnchorKit.Library.BatchCursor
import AnchorKit.QuoteMigration
import AnchorKit.QuoteInvariants
import AnchorKit.MigrationRuns
import AnchorKit.BatchIndependence
import AnchorKit.AnchorInvariants
import AnchorKit.RoutingGates
import AnchorKit.QuoteLifecycle
import AnchorKit.AnchorHistories
import AnchorKit.KycInvariants
import AnchorKit.CacheFreshness
import AnchorKit.CacheInvariants
import AnchorKit.CacheTtl
import AnchorKit.CacheVotes
import AnchorKit.AdminAuditRing
import AnchorKit.AuditRetentionRuns
import AnchorKit.AttestorRemovals
import AnchorKit.ReplayMetrics
import AnchorKit.TraceTrees
import AnchorKit.TraceNumbering
import AnchorKit.Library.SelfDelimiting
import AnchorKit.Library.BreadthFirst
import AnchorKit.JtiLifetimes
import AnchorKit.DeterministicHash
import AnchorKit.RequestDeduplication
import AnchorKit.DependencyEnforcement
import AnchorKit.TransactionTracker
import AnchorKit.TrackerEffects
import AnchorKit.TrackerRetries
import AnchorKit.TrackerHistories
import AnchorKit.TrackerModes
import AnchorKit.Library.JsonText
import AnchorKit.Library.JsonScan
import AnchorKit.Sep10Claims
import AnchorKit.MaintenanceBlocks
import AnchorKit.Library.Text
import AnchorKit.TraceContext
import AnchorKit.HttpClient
import AnchorKit.HeaderInjection
import AnchorKit.DomainGrammar
import AnchorKit.HostFilters
import AnchorKit.Webhook
import AnchorKit.WebhookReplay
import AnchorKit.Library.JsonMembers
import AnchorKit.Library.JsonReading
import AnchorKit.WebhookFields
import AnchorKit.Library.Changes
import AnchorKit.StreamingMonitor
import AnchorKit.MonitorRuns
import AnchorKit.CompactionWindows
import AnchorKit.CompactionTotals
import AnchorKit.SignatureVerifiers
import AnchorKit.DistributedCorrelation
import AnchorKit.RequestProvenance
import AnchorKit.BurstControl
import AnchorKit.ConfigManager
import AnchorKit.RoutingProfiles
import AnchorKit.RateLimiterViews
import AnchorKit.Library.FirstBest
import AnchorKit.RouteSelection
import AnchorKit.StellarToml
import AnchorKit.StellarTomlLines
import AnchorKit.StellarTomlDocuments
import AnchorKit.StellarTomlReading
import AnchorKit.InteractiveUrls
import AnchorKit.Evictions
import AnchorKit.TransactionRanges
import AnchorKit.KycReopening
import AnchorKit.AuditPrunes
import AnchorKit.Library.Paging
import AnchorKit.AttestationPages
import AnchorKit.ServiceProfiles
import AnchorKit.AnchorHealth
import AnchorKit.HealthRuns
import AnchorKit.FreshnessScore
import AnchorKit.TimedRouting
import AnchorKit.Library.Base64
import AnchorKit.Base64url
import AnchorKit.HostReplayGuard
import AnchorKit.RetryDelays
import AnchorKit.RetryLoops
import AnchorKit.TransactionArchive
import AnchorKit.MultiAssetRouting
import AnchorKit.MaintenanceWindows
import AnchorKit.TemplateApplications
import AnchorKit.DeduplicationRuns
import AnchorKit.TrackerMaintenance
import AnchorKit.TrackerAccounting
import AnchorKit.Library.JsonQuoting
import AnchorKit.TrackerExports
import AnchorKit.ArchiveRuns
import AnchorKit.AlertRuns
import AnchorKit.QuoteSorting
import AnchorKit.ReconcilingQuotes
import AnchorKit.Sep6Responses
import AnchorKit.TransactionPolling
import AnchorKit.DeadLetterQueue
import AnchorKit.CanonicalUrls
import AnchorKit.Traceparents
import AnchorKit.DeploymentDrift
import AnchorKit.Library.JsonData
import AnchorKit.StructuredLog
import AnchorKit.AuthorityUrls
import AnchorKit.StellarTomlOrigins
import AnchorKit.StellarTomlFetch
import AnchorKit.ProxySelection
import AnchorKit.Library.Radix
import AnchorKit.Library.ShiftRegister
import AnchorKit.Strkeys
import AnchorKit.StellarAccounts
import AnchorKit.ResponseValidator
import AnchorKit.AssetSpellings
import AnchorKit.ResponseCompatibility
import AnchorKit.AnchorReputation
import AnchorKit.RequestRecords
import AnchorKit.AnchorInfo
import AnchorKit.CompliancePolicy
import AnchorKit.DiscoveryRuns
import AnchorKit.EndpointProofs
import AnchorKit.RegisterRuns
import AnchorKit.ReputationRanking
import AnchorKit.RequestRuns
import AnchorKit.RouteDominance
import AnchorKit.ArtifactProvenance
import AnchorKit.EnvFingerprint
import AnchorKit.Library.Blocks
import AnchorKit.Sep31Payments
import AnchorKit.Timestamps
import AnchorKit.AlertRouting
import AnchorKit.RuntimeConfigs

