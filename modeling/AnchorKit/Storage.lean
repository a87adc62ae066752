import AnchorKit.Library.Footprint
import AnchorKit.Library.KeyedStore
import AnchorKit.Types

/-!
# Contract storage

The records the contract keeps, grouped by the component that owns them. Composite storage keys
are the tuples they hash, and absent counters read as zero. Published events are kept in the
order in which they were emitted, since a reverted call publishes none.
-/

namespace AnchorKit

inductive AdminRole
  | kycAdmin
  | attestorAdmin
  | cacheAdmin
deriving DecidableEq, Repr

inductive AdminCapability
  | upgradeContract
  | migrateSchema
  | setCacheConfig
  | manageAttestors
  | manageKyc
  | manageCacheEntries
  | toggleServices
  | setRateLimits
  | setJwtConfig
  | manageAnchorMetadata
deriving DecidableEq, Repr

structure AdminConfigChangeEvent where
  entryId : UInt64
  admin : Address
  changeType : String
  target : String
  oldValue : String
  newValue : String
  timestamp : UInt64
  status : String
  errorMessage : String
deriving DecidableEq, Repr

structure AdminAuditLogConfig where
  enabled : Bool
  maxEntries : UInt32
  ttlSeconds : UInt64
deriving DecidableEq, Repr

def AdminAuditLogConfig.default : AdminAuditLogConfig where
  enabled := true
  maxEntries := 10000
  ttlSeconds := 31536000

structure CapacityConfig where
  maxAttestors : UInt64
  maxCacheEntries : UInt64
deriving DecidableEq, Repr

def CapacityConfig.defaultConfig : CapacityConfig where
  maxAttestors := 1000
  maxCacheEntries := 10000

structure AttestorRevocationRecord where
  attestor : Address
  revokedAt : UInt64
  revokedBy : Address
  reason : String
  publicKey : BytesN 32
  reactivated : Bool
  reactivatedAt : UInt64
deriving DecidableEq, Repr

structure Session where
  sessionId : UInt64
  initiator : Address
  createdAt : UInt64
  nonce : UInt64
  operationCount : UInt64
  sessionTtlSeconds : UInt64
  closed : Bool
  state : UInt32
deriving DecidableEq, Repr

structure OperationContext where
  sessionId : UInt64
  operationIndex : UInt64
  operationType : String
  timestamp : UInt64
  status : String
  resultData : UInt64
deriving DecidableEq, Repr

structure AuditLog where
  logId : UInt64
  sessionId : UInt64
  actor : Address
  operation : OperationContext
deriving DecidableEq, Repr

structure Attestation where
  id : UInt64
  issuer : Address
  subject : Address
  timestamp : UInt64
  payloadHash : Bytes
  signature : Bytes
  schemaVersion : UInt32
deriving DecidableEq, Repr

structure AttestationInput where
  issuer : Address
  subject : Address
  timestamp : UInt64
  payloadHash : Bytes
  signature : Bytes
deriving DecidableEq, Repr

structure RequestId where
  id : Bytes
  createdAt : UInt64
deriving DecidableEq, Repr

structure RequestContext where
  rootRequestId : RequestId
  operationChain : List String
  createdAt : UInt64
deriving DecidableEq, Repr

structure TracingSpan where
  requestId : RequestId
  operation : String
  actor : Address
  startedAt : UInt64
  completedAt : UInt64
  status : String
  parentRequestIdBytes : Bytes
  spanIndex : UInt32
deriving DecidableEq, Repr

/-- The number of spans handed out under a root request. -/
structure TracingContext where
  rootRequestIdBytes : Bytes
  nextSpanIndex : UInt32
deriving DecidableEq, Repr

structure KycRecord where
  subject : Address
  status : UInt32
  submittedAt : UInt64
  reviewedAt : Option UInt64
  expiry : Option UInt64
  rejectionReasonHash : Option Bytes
  schemaVersion : UInt32
deriving DecidableEq, Repr

structure ReplayMetrics where
  totalReplayAttempts : UInt64
  uniqueReplayedIds : UInt64
  lastReplayAt : UInt64
  lastUpdatedLedger : UInt32
  acceptedEvents : UInt64
  skippedEvents : UInt64
deriving DecidableEq, Repr

def ReplayMetrics.default : ReplayMetrics := ⟨0, 0, 0, 0, 0, 0⟩

structure ReplayAttemptRecord where
  requestId : Bytes
  actor : Address
  attemptNumber : UInt32
  timestamp : UInt64
  ledgerSequence : UInt32
deriving DecidableEq, Repr

structure AnchorMetadata where
  anchor : Address
  reputationScore : UInt32
  liquidityScore : UInt32
  uptimePercentage : UInt32
  totalVolume : UInt64
  averageSettlementTime : UInt64
  isActive : Bool
deriving DecidableEq, Repr

structure MetadataCache where
  metadata : AnchorMetadata
  cachedAt : UInt64
  ttlSeconds : UInt64
  staleTtlSeconds : UInt64
  needsRefresh : Bool
deriving DecidableEq, Repr

structure CapabilitiesCache where
  tomlUrl : String
  capabilities : String
  cachedAt : UInt64
  ttlSeconds : UInt64
deriving DecidableEq, Repr

inductive RefreshStatus
  | success
  | failed
deriving DecidableEq, Repr

structure RefreshDiagnostic where
  operation : String
  status : RefreshStatus
  attemptedAt : UInt64
  hadCachedEntry : Bool
  detail : String
deriving DecidableEq, Repr

structure CacheConfig where
  metadataTtlSeconds : UInt64
  capabilitiesTtlSeconds : UInt64
  swrTtlSeconds : UInt64
deriving DecidableEq, Repr

def CacheConfig.defaultConfig : CacheConfig where
  metadataTtlSeconds := 3600
  capabilitiesTtlSeconds := 21600
  swrTtlSeconds := 300

/-- Bounds on the entries of one category of cache. -/
structure CachePolicy where
  minTtlSeconds : UInt64
  maxTtlSeconds : UInt64
  refreshThresholdPct : UInt32
  allowForcedInvalidation : Bool
deriving DecidableEq, Repr

structure CachePolicySet where
  metadata : CachePolicy
  capabilities : CachePolicy
  other : CachePolicy
deriving DecidableEq, Repr

structure CacheInvalidationProposal where
  proposalId : UInt64
  anchor : Address
  proposer : Address
  endorsements : List Address
  createdAtLedger : UInt32
  expiryLedgers : UInt32
  executed : Bool
deriving DecidableEq, Repr

structure CacheGovernanceConfig where
  quorumThreshold : UInt32
  proposalExpiryLedgers : UInt32
deriving DecidableEq, Repr

def CacheGovernanceConfig.defaultConfig : CacheGovernanceConfig where
  quorumThreshold := 3
  proposalExpiryLedgers := 17280

structure ServiceToggleState where
  anchor : Address
  enabledServices : List UInt32
  disabledServices : List UInt32
  updatedAt : UInt64
deriving DecidableEq, Repr

structure ServiceConfigSnapshot where
  snapshotId : UInt64
  anchor : Address
  services : List UInt32
  createdAt : UInt64
  description : String
deriving DecidableEq, Repr

structure MaintenanceWindow where
  windowId : UInt64
  anchor : Address
  startTime : UInt64
  endTime : UInt64
  description : String
  affectedServices : List UInt32
deriving DecidableEq, Repr

structure RoutingAnchorMeta where
  anchor : Address
  reputationScore : UInt32
  averageSettlementTime : UInt64
  liquidityScore : UInt32
  uptimePercentage : UInt32
  totalVolume : UInt64
  isActive : Bool
deriving DecidableEq, Repr

structure AnchorMetadataVersion where
  version : UInt32
  updatedAt : UInt64
  reputationScore : UInt32
  averageSettlementTime : UInt64
  liquidityScore : UInt32
  uptimePercentage : UInt32
  totalVolume : UInt64
  isActive : Bool
deriving DecidableEq, Repr

structure AnchorBlacklistEntry where
  anchor : Address
  reason : String
  blacklistedAt : UInt64
deriving DecidableEq, Repr

structure ContractVersion where
  major : UInt32
  minor : UInt32
  patch : UInt32
  upgradedAt : UInt64
deriving DecidableEq, Repr

structure MigrationRecord where
  fromVersion : UInt32
  toVersion : UInt32
  appliedAt : UInt64
  appliedAtLedger : UInt32
  label : String
deriving DecidableEq, Repr

/-- The schema version stamped on every new record. -/
def schemaV1 : UInt32 := 1

/-- The schema version of quotes that carry a routing reason. -/
def schemaV2 : UInt32 := 2

/-- A quote as it was stored before routing reasons were recorded. -/
structure QuoteV1 where
  quoteId : UInt64
  anchor : Address
  baseAsset : String
  quoteAsset : String
  rate : UInt64
  feePercentage : UInt32
  minimumAmount : UInt64
  maximumAmount : UInt64
  validUntil : UInt64
  schemaVersion : UInt32
deriving DecidableEq, Repr

structure Quote extends QuoteV1 where
  routingReason : Option String
deriving DecidableEq, Repr

/-- A stored quote in one of its two layouts. -/
inductive StoredQuote
  | legacy (quote : QuoteV1)
  | current (quote : Quote)
deriving DecidableEq, Repr

structure ComplianceCheck where
  subject : Address
  checkType : String
  result : UInt32
  score : Option UInt32
  timestamp : UInt64
deriving DecidableEq, Repr

structure ServiceRetirementInfo where
  serviceCode : UInt32
  retired : Bool
  retirementTimestamp : Option UInt64
  deprecationNotice : Option String
deriving DecidableEq, Repr

/-- The services an anchor declared, with the retirements of some of them. -/
structure AnchorServices where
  anchor : Address
  services : List UInt32
  serviceCapabilityVersion : UInt32
  serviceRetirements : List ServiceRetirementInfo
deriving DecidableEq, Repr

structure AttestorProfile where
  attestor : Address
  endpoint : String
  webhookUrl : String
  services : List UInt32
  enabled : Bool
  updatedAt : UInt64
deriving DecidableEq, Repr

inductive TransactionState
  | pending
  | inProgress
  | completed
  | failed
deriving DecidableEq, Repr

structure RecoveryMetadata where
  failureReason : String
  lastUpdatedLedger : UInt32
  failedFromState : TransactionState
  retryCount : UInt32
deriving DecidableEq, Repr

structure TransactionStateRecord where
  transactionId : UInt64
  state : TransactionState
  initiator : Address
  timestamp : UInt64
  lastUpdated : UInt64
  lastUpdatedLedger : UInt32
  errorMessage : Option String
  stateHistory : List (TransactionState × UInt64)
  recoveryMetadata : Option RecoveryMetadata
  routingReason : Option String
deriving DecidableEq, Repr

structure RateLimitConfig where
  maxSubmissions : UInt32
  windowLength : UInt32
deriving DecidableEq, Repr

structure RateLimitState where
  submissionCount : UInt32
  windowStartLedger : UInt32
deriving DecidableEq, Repr

structure BurstControlConfig where
  burstCapacity : UInt32
  refillPerLedger : UInt32
deriving DecidableEq, Repr

structure BurstState where
  tokens : UInt32
  lastRefillLedger : UInt32
deriving DecidableEq, Repr

structure FairnessConfig where
  maxSharePercent : UInt32
  minTotalForEnforcement : UInt32
deriving DecidableEq, Repr

structure GlobalRateWindowState where
  totalCount : UInt32
  windowStartLedger : UInt32
deriving DecidableEq, Repr

inductive Event
  | contractInit (admin : Address) (timestamp : UInt64)
  | adminProposed (newAdmin : Address)
  | adminAccepted (newAdmin : Address)
  | roleGranted (grantee : Address) (role : AdminRole)
  | roleRevoked (grantee : Address) (role : AdminRole)
  | capGranted (grantee : Address) (capability : AdminCapability)
  | capRevoked (grantee : Address) (capability : AdminCapability)
  | adminAudit (entryId : UInt64) (event : AdminConfigChangeEvent)
  | sep10KeyRotated (issuer : Address)
  | attestorAdded (attestor : Address) (timestamp : UInt64)
  | attestorRemoved (attestor revokedBy : Address) (timestamp : UInt64)
  | attestorRestored (attestor reactivatedBy : Address) (timestamp : UInt64)
  | attestRecorded (id : UInt64) (subject : Address) (payloadHash : Bytes) (timestamp : UInt64)
  | webhook (eventType : String) (transactionId timestamp : UInt64) (payloadHash : Bytes)
  | rateLimitHit (attestor : Address) (timestamp : UInt64) (ledgerSequence : UInt32)
  | replayDetected (detectedAt : UInt64) (attemptCount ledgerSequence : UInt32)
  | sessionCreated (sessionId : UInt64) (initiator : Address) (timestamp : UInt64)
  | sessionClosed (sessionId : UInt64) (initiator : Address) (timestamp : UInt64)
  | sessionExpired (sessionId : UInt64) (initiator : Address) (timestamp : UInt64)
  | auditLogged (logId sessionId operationIndex : UInt64) (operationType status : String)
      (resultData : UInt64)
  | kycSubmitted (subject : Address) (submittedAt : UInt64) (dataHash : Bytes)
  | kycStatusChanged (subject : Address) (newStatus : UInt32) (timestamp : UInt64)
  | cacheInvalidated (anchor : Address) (timestamp : UInt64)
  | cacheCompacted (freed : UInt64)
  | auditPruned (logId sessionId operationIndex : UInt64) (operationType status : String)
      (resultData : UInt64)
  | anchorBlacklisted (anchor : Address)
  | anchorUnblacklisted (anchor : Address)
  | contractUpgraded (oldWasmHash newWasmHash : BytesN 32) (newVersion : ContractVersion)
  | complianceChecked (subject : Address) (record : ComplianceCheck)
  | servicesConfigured (anchor : Address) (serviceCount capabilityVersion : UInt32)
      (timestamp : UInt64)
  | serviceRetired (anchor : Address) (service : UInt32)
  | serviceUnretired (anchor : Address) (service : UInt32)
  | quoteSubmitted (quoteId : UInt64) (anchor : Address) (baseAsset quoteAsset : String)
      (rate validUntil : UInt64) (routingReason : Option String)
  | quoteReceived (quoteId : UInt64) (receiver : Address) (timestamp : UInt64)
  | quoteAccepted (quoteId : UInt64) (receiver : Address) (timestamp : UInt64)
  | quoteInvalidated (quoteId : UInt64)
  | quoteRouted (quoteId : UInt64)
  | quoteFallback
  | routeSelected (eventType : String) (transactionId timestamp : UInt64) (payloadHash : Bytes)
  | budgetCritical (entryCount approxBytes : UInt64)
  | budgetWarning (entryCount approxBytes : UInt64)
  | transactionsEvicted (count : UInt32)
deriving DecidableEq, Repr

structure AccessStore where
  initialized : Bool
  schemaVersion : UInt32
  admin : Option Address
  pendingAdmin : Option Address
  roles : KeyedStore (AdminRole × Address) Bool
  capabilities : KeyedStore (AdminCapability × Address) Bool

structure AdminAuditStore where
  config : Option AdminAuditLogConfig
  counter : UInt64
  entries : KeyedStore UInt64 AdminConfigChangeEvent

/-- SEP-10 verifying keys, token limits and the `jti`s already used, with the time to live of
each in ledgers. -/
structure Sep10Store where
  keys : KeyedStore Address Bytes
  oldKeys : KeyedStore Address Bytes
  jwtMaxLen : Option UInt32
  jwtSkew : Option UInt64
  jtis : KeyedStore Bytes UInt32

/-- The three representations of the set of attestors, its counter and cap, and the record of
revocations. -/
structure RegistryStore where
  capacity : Option CapacityConfig
  attestor : KeyedStore Address Bool
  publicKey : KeyedStore Address (BytesN 32)
  count : UInt64
  list : List Address
  revocation : KeyedStore Address AttestorRevocationRecord

/-- Sessions with their operation counts and logs, and the audit entries the logs point to. -/
structure SessionStore where
  sessionCount : UInt64
  session : KeyedStore UInt64 Session
  opCount : KeyedStore UInt64 UInt64
  log : KeyedStore (UInt64 × UInt64) UInt64
  request : KeyedStore (UInt64 × Bytes) Bool
  auditCount : UInt64
  audit : KeyedStore UInt64 AuditLog

structure AttestationStore where
  counter : UInt64
  record : KeyedStore UInt64 Attestation
  index : List UInt64
  used : KeyedStore (Address × Bytes) UInt64

structure RateLimitStore where
  config : Option RateLimitConfig
  roleOverride : KeyedStore String RateLimitConfig
  addressOverride : KeyedStore Address RateLimitConfig
  state : KeyedStore Address RateLimitState
  burstConfig : Option BurstControlConfig
  burstState : KeyedStore Address BurstState
  fairnessConfig : Option FairnessConfig
  globalWindow : Option GlobalRateWindowState

structure KycStore where
  record : KeyedStore Address KycRecord
  dataHash : KeyedStore Address Bytes

structure ReplayStore where
  metrics : Option ReplayMetrics
  attempts : KeyedStore Bytes UInt32
  nextEventId : UInt64
  events : KeyedStore UInt64 ReplayAttemptRecord

/-- Spans and request contexts, with the span counter and the children of each root. -/
structure TracingStore where
  span : KeyedStore Bytes TracingSpan
  context : KeyedStore Bytes RequestContext
  traceContext : KeyedStore Bytes TracingContext
  childId : KeyedStore (Bytes × UInt32) Bytes

/-- Cached anchor data, the number of entries counted against the cap, and what became of the
last refreshes. -/
structure CacheStore where
  config : Option CacheConfig
  policies : Option CachePolicySet
  count : UInt64
  metadata : KeyedStore Address MetadataCache
  capabilities : KeyedStore Address CapabilitiesCache
  diagnostics : KeyedStore (Address × String) RefreshDiagnostic

/-- The proposals to invalidate cache entries and the rules they run under. -/
structure CacheGovernanceStore where
  config : Option CacheGovernanceConfig
  proposalCount : UInt64
  proposal : KeyedStore UInt64 CacheInvalidationProposal

/-- How long audit entries are kept, and from how many entries on they are pruned. -/
structure AuditRetentionStore where
  retentionDays : UInt64
  pruneThreshold : UInt32

structure ServiceStore where
  toggles : KeyedStore Address ServiceToggleState
  snapshotCount : UInt64
  snapshot : KeyedStore UInt64 ServiceConfigSnapshot
  windowCount : UInt64
  window : KeyedStore UInt64 MaintenanceWindow

structure AnchorStore where
  routing : KeyedStore Address RoutingAnchorMeta
  versionCount : KeyedStore Address UInt32
  history : KeyedStore (Address × UInt32) AnchorMetadataVersion
  list : List Address
  blacklist : KeyedStore Address AnchorBlacklistEntry
  blacklistIndex : List Address

/-- Quotes with the counter of their ids, their lifecycle flags and the latest one of each anchor.
The list that a purge reads is kept apart from the index that submissions and the migration use. -/
structure QuoteStore where
  count : UInt64
  index : List UInt64
  anchorRef : KeyedStore UInt64 Address
  record : KeyedStore (Address × UInt64) StoredQuote
  lifecycle : KeyedStore (Address × UInt64) UInt32
  latest : KeyedStore Address UInt64
  purgeIndex : List UInt64

/-- The code version, the hash of the code, the cursor of a quote migration that has not finished
and the history of migrations. -/
structure UpgradeStore where
  version : Option ContractVersion
  oldHash : Option (BytesN 32)
  cursor : Option UInt64
  migrationCount : UInt32
  migration : KeyedStore UInt32 MigrationRecord

/-- The latest compliance check of a subject for each type of check, all earlier ones, and the
types a subject was checked for. -/
structure ComplianceStore where
  check : KeyedStore (Address × String) ComplianceCheck
  historyCount : KeyedStore (Address × String) UInt64
  history : KeyedStore (Address × String × UInt64) ComplianceCheck
  index : KeyedStore Address (List String)

structure AnchorServicesStore where
  record : KeyedStore Address AnchorServices
  profile : KeyedStore Address AttestorProfile

structure TransactionStore where
  evictionEnabled : Option Bool
  evictionMax : Option UInt32
  warningBytes : Option UInt64
  criticalBytes : Option UInt64
  record : KeyedStore UInt64 TransactionStateRecord
  ids : List UInt64

structure Storage where
  access : AccessStore
  adminAudit : AdminAuditStore
  sep10 : Sep10Store
  registry : RegistryStore
  sessions : SessionStore
  attestations : AttestationStore
  rateLimits : RateLimitStore
  kyc : KycStore
  replay : ReplayStore
  tracing : TracingStore
  cache : CacheStore
  services : ServiceStore
  anchors : AnchorStore
  quotes : QuoteStore
  upgrades : UpgradeStore
  compliance : ComplianceStore
  anchorServices : AnchorServicesStore
  transactions : TransactionStore
  governance : CacheGovernanceStore
  auditRetention : AuditRetentionStore
  events : List Event

/-- The storage of a freshly deployed contract. -/
def Storage.empty : Storage where
  access := ⟨false, 0, none, none, .empty, .empty⟩
  adminAudit := ⟨none, 0, .empty⟩
  sep10 := ⟨.empty, .empty, none, none, .empty⟩
  registry := ⟨none, .empty, .empty, 0, [], .empty⟩
  sessions := ⟨0, .empty, .empty, .empty, .empty, 0, .empty⟩
  attestations := ⟨0, .empty, [], .empty⟩
  rateLimits := ⟨none, .empty, .empty, .empty, none, .empty, none, none⟩
  kyc := ⟨.empty, .empty⟩
  replay := ⟨none, .empty, 0, .empty⟩
  tracing := ⟨.empty, .empty, .empty, .empty⟩
  cache := ⟨none, none, 0, .empty, .empty, .empty⟩
  services := ⟨.empty, 0, .empty, 0, .empty⟩
  anchors := ⟨.empty, .empty, .empty, [], .empty, []⟩
  quotes := ⟨0, [], .empty, .empty, .empty, .empty, []⟩
  upgrades := ⟨none, none, none, 0, .empty⟩
  compliance := ⟨.empty, .empty, .empty, .empty⟩
  anchorServices := ⟨.empty, .empty⟩
  transactions := ⟨none, none, none, none, .empty, []⟩
  governance := ⟨none, 0, .empty⟩
  auditRetention := ⟨0, 0⟩
  events := []

/-- `env.events().publish`. -/
def Storage.publish (s : Storage) (e : Event) : Storage := { s with events := s.events ++ [e] }

inductive Component
  | access
  | adminAudit
  | sep10
  | registry
  | sessions
  | attestations
  | rateLimits
  | kyc
  | replay
  | tracing
  | cache
  | services
  | anchors
  | quotes
  | upgrades
  | compliance
  | anchorServices
  | transactions
  | governance
  | auditRetention
  | events
deriving DecidableEq, Repr

def Component.Carrier : Component → Type
  | .access => AccessStore
  | .adminAudit => AdminAuditStore
  | .sep10 => Sep10Store
  | .registry => RegistryStore
  | .sessions => SessionStore
  | .attestations => AttestationStore
  | .rateLimits => RateLimitStore
  | .kyc => KycStore
  | .replay => ReplayStore
  | .tracing => TracingStore
  | .cache => CacheStore
  | .services => ServiceStore
  | .anchors => AnchorStore
  | .quotes => QuoteStore
  | .upgrades => UpgradeStore
  | .compliance => ComplianceStore
  | .anchorServices => AnchorServicesStore
  | .transactions => TransactionStore
  | .governance => CacheGovernanceStore
  | .auditRetention => AuditRetentionStore
  | .events => List Event

def Storage.component : (c : Component) → Storage → c.Carrier
  | .access, s => s.access
  | .adminAudit, s => s.adminAudit
  | .sep10, s => s.sep10
  | .registry, s => s.registry
  | .sessions, s => s.sessions
  | .attestations, s => s.attestations
  | .rateLimits, s => s.rateLimits
  | .kyc, s => s.kyc
  | .replay, s => s.replay
  | .tracing, s => s.tracing
  | .cache, s => s.cache
  | .services, s => s.services
  | .anchors, s => s.anchors
  | .quotes, s => s.quotes
  | .upgrades, s => s.upgrades
  | .compliance, s => s.compliance
  | .anchorServices, s => s.anchorServices
  | .transactions, s => s.transactions
  | .governance, s => s.governance
  | .auditRetention, s => s.auditRetention
  | .events, s => s.events

/-- A call with footprint `W` leaves every component outside `W` as it was. -/
abbrev Storage.SameOutside (W : List Component) (s s' : Storage) : Prop :=
  Footprint.SameOutside Storage.component W s s'

namespace Storage.SameOutside

variable {W : List Component} {s s' : Storage}

theorem access_eq (h : SameOutside W s s') (hc : Component.access ∉ W) : s'.access = s.access :=
  h.view_eq hc

theorem registry_eq (h : SameOutside W s s') (hc : Component.registry ∉ W) :
    s'.registry = s.registry := h.view_eq hc

theorem sessions_eq (h : SameOutside W s s') (hc : Component.sessions ∉ W) :
    s'.sessions = s.sessions := h.view_eq hc

theorem attestations_eq (h : SameOutside W s s') (hc : Component.attestations ∉ W) :
    s'.attestations = s.attestations := h.view_eq hc

theorem rateLimits_eq (h : SameOutside W s s') (hc : Component.rateLimits ∉ W) :
    s'.rateLimits = s.rateLimits := h.view_eq hc

theorem kyc_eq (h : SameOutside W s s') (hc : Component.kyc ∉ W) : s'.kyc = s.kyc := h.view_eq hc

theorem replay_eq (h : SameOutside W s s') (hc : Component.replay ∉ W) : s'.replay = s.replay :=
  h.view_eq hc

theorem tracing_eq (h : SameOutside W s s') (hc : Component.tracing ∉ W) :
    s'.tracing = s.tracing := h.view_eq hc

theorem cache_eq (h : SameOutside W s s') (hc : Component.cache ∉ W) : s'.cache = s.cache :=
  h.view_eq hc

theorem anchors_eq (h : SameOutside W s s') (hc : Component.anchors ∉ W) :
    s'.anchors = s.anchors := h.view_eq hc

theorem quotes_eq (h : SameOutside W s s') (hc : Component.quotes ∉ W) : s'.quotes = s.quotes :=
  h.view_eq hc

theorem upgrades_eq (h : SameOutside W s s') (hc : Component.upgrades ∉ W) :
    s'.upgrades = s.upgrades := h.view_eq hc

theorem anchorServices_eq (h : SameOutside W s s') (hc : Component.anchorServices ∉ W) :
    s'.anchorServices = s.anchorServices := h.view_eq hc

theorem transactions_eq (h : SameOutside W s s') (hc : Component.transactions ∉ W) :
    s'.transactions = s.transactions := h.view_eq hc

theorem governance_eq (h : SameOutside W s s') (hc : Component.governance ∉ W) :
    s'.governance = s.governance := h.view_eq hc

end Storage.SameOutside

theorem Storage.sameOutside_iff {W : List Component} {s s' : Storage} :
    SameOutside W s s' ↔
      (.access ∉ W → s'.access = s.access) ∧
      (.adminAudit ∉ W → s'.adminAudit = s.adminAudit) ∧
      (.sep10 ∉ W → s'.sep10 = s.sep10) ∧
      (.registry ∉ W → s'.registry = s.registry) ∧
      (.sessions ∉ W → s'.sessions = s.sessions) ∧
      (.attestations ∉ W → s'.attestations = s.attestations) ∧
      (.rateLimits ∉ W → s'.rateLimits = s.rateLimits) ∧
      (.kyc ∉ W → s'.kyc = s.kyc) ∧
      (.replay ∉ W → s'.replay = s.replay) ∧
      (.tracing ∉ W → s'.tracing = s.tracing) ∧
      (.cache ∉ W → s'.cache = s.cache) ∧
      (.services ∉ W → s'.services = s.services) ∧
      (.anchors ∉ W → s'.anchors = s.anchors) ∧
      (.quotes ∉ W → s'.quotes = s.quotes) ∧
      (.upgrades ∉ W → s'.upgrades = s.upgrades) ∧
      (.compliance ∉ W → s'.compliance = s.compliance) ∧
      (.anchorServices ∉ W → s'.anchorServices = s.anchorServices) ∧
      (.transactions ∉ W → s'.transactions = s.transactions) ∧
      (.governance ∉ W → s'.governance = s.governance) ∧
      (.auditRetention ∉ W → s'.auditRetention = s.auditRetention) ∧
      (.events ∉ W → s'.events = s.events) := by
  constructor
  · intro h
    exact ⟨h .access, h .adminAudit, h .sep10, h .registry, h .sessions, h .attestations,
      h .rateLimits, h .kyc, h .replay, h .tracing, h .cache, h .services, h .anchors, h .quotes,
      h .upgrades, h .compliance, h .anchorServices, h .transactions, h .governance,
      h .auditRetention, h .events⟩
  · rintro ⟨h1, h2, h3, h4, h5, h6, h7, h8, h9, h10, h11, h12, h13, h14, h15, h16, h17, h18, h19,
      h20, h21⟩ c hc
    cases c with
    | access => exact h1 hc
    | adminAudit => exact h2 hc
    | sep10 => exact h3 hc
    | registry => exact h4 hc
    | sessions => exact h5 hc
    | attestations => exact h6 hc
    | rateLimits => exact h7 hc
    | kyc => exact h8 hc
    | replay => exact h9 hc
    | tracing => exact h10 hc
    | cache => exact h11 hc
    | services => exact h12 hc
    | anchors => exact h13 hc
    | quotes => exact h14 hc
    | upgrades => exact h15 hc
    | compliance => exact h16 hc
    | anchorServices => exact h17 hc
    | transactions => exact h18 hc
    | governance => exact h19 hc
    | auditRetention => exact h20 hc
    | events => exact h21 hc

end AnchorKit
