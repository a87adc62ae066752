import AnchorKit.AuditRetention
import AnchorKit.Cache
import AnchorKit.CacheProposals
import AnchorKit.Library.Machine
import AnchorKit.Migration
import AnchorKit.Routing
import AnchorKit.ServiceManagement
import AnchorKit.Tracing
import AnchorKit.Transactions

/-!
# The contract as a state machine

The entry points as one transition function. A call that panics is reverted, so a run is a fold
of committed calls; the footprint of every call bounds what it can write.
-/

namespace AnchorKit

inductive Call
  | initializeContract (admin : Address)
  | proposeAdminTransfer (newAdmin : Address)
  | acceptAdminTransfer
  | grantRole (grantee : Address) (role : AdminRole)
  | revokeRole (grantee : Address) (role : AdminRole)
  | grantCapability (grantee : Address) (capability : AdminCapability)
  | revokeCapability (grantee : Address) (capability : AdminCapability)
  | setCapacityConfig (config : CapacityConfig)
  | setSep10JwtVerifyingKey (issuer : Address) (publicKey : Bytes)
  | rotateSep10Key (issuer : Address) (newPublicKey : Bytes)
  | setJwtMaxLen (maxLen : UInt32)
  | setJwtSkew (skewSeconds : UInt64)
  | verifySep10Token (token : Bytes) (issuer : Address)
  | verifySep10TokenForSubject (token : Bytes) (issuer subject : Address)
  | registerAttestor (attestor : Address) (sep10Token : Bytes) (sep10Issuer : Address)
      (publicKey : BytesN 32)
  | revokeAttestor (attestor : Address)
  | reactivateAttestor (attestor : Address)
  | createSession (initiator : Address)
  | closeSession (sessionId : UInt64) (initiator : Address)
  | registerAttestorWithSession (operator : Address) (sessionId : UInt64) (attestor : Address)
      (publicKey : BytesN 32)
  | revokeAttestorWithSession (operator : Address) (sessionId : UInt64) (attestor : Address)
  | submitAttestationWithSession (sessionId : UInt64) (input : AttestationInput)
  | submitAttestation (input : AttestationInput)
  | submitAttestationBatch (caller : Address) (attestations : List AttestationInput)
  | submitAttestationKycCheck (input : AttestationInput) (requireKyc : Bool)
  | submitWithRequestId (requestId : RequestId) (input : AttestationInput)
  | submitKyc (subject : Address) (dataHash : Bytes) (attestor : Address)
  | approveKyc (operator subject : Address)
  | rejectKyc (operator subject : Address) (reasonHash : Bytes)
  | reopenKyc (operator subject : Address)
  | setRateLimitConfig (caller : Address) (maxSubmissions windowLength : UInt32)
  | setRoleRateLimit (caller : Address) (role : String) (config : RateLimitConfig)
  | setAddressRateLimit (caller address : Address) (config : RateLimitConfig)
  | upgrade (newWasmHash : BytesN 32)
  | migrate (newSchemaVersion batchSize : UInt32)
  | setCacheConfig (config : CacheConfig)
  | setCachePolicySet (policies : CachePolicySet)
  | cacheMetadata (anchor : Address) (metadata : AnchorMetadata) (ttlSeconds : UInt64)
  | refreshMetadataCache (anchor : Address) (newMetadata : AnchorMetadata) (ttlSeconds : UInt64)
  | cacheMetadataSwr (anchor : Address) (metadata : AnchorMetadata)
      (ttlSeconds staleTtlSeconds : UInt64)
  | forceRefreshMetadata (anchor : Address) (metadata : AnchorMetadata)
      (ttlSeconds staleTtlSeconds : UInt64)
  | refreshMetadataCacheSwr (anchor : Address) (metadata : AnchorMetadata)
      (ttlSeconds staleTtlSeconds : UInt64)
  | cacheCapabilities (anchor : Address) (tomlUrl capabilities : String) (ttlSeconds : UInt64)
  | refreshCapabilitiesCache (anchor : Address) (tomlUrl capabilities : String)
      (ttlSeconds : UInt64)
  | invalidateCacheForAnchor (anchor : Address)
  | compactCache (anchors : List Address)
  | enableService (caller anchor : Address) (serviceCode : UInt32)
  | disableService (caller anchor : Address) (serviceCode : UInt32)
  | snapshotServices (caller anchor : Address) (services : List UInt32) (description : String)
  | rollbackServices (caller : Address) (snapshotId : UInt64)
  | setAnchorMetadata (anchor : Address) (reputationScore : UInt32)
      (averageSettlementTime : UInt64) (liquidityScore uptimePercentage : UInt32)
      (totalVolume : UInt64)
  | deactivateAnchor (anchor : Address)
  | reactivateAnchor (anchor : Address)
  | blacklistAnchor (anchor : Address) (reason : String)
  | removeFromBlacklist (anchor : Address)
  | configureServices (anchor : Address) (services : List UInt32)
  | configureServicesVersioned (anchor : Address) (services : List UInt32)
      (serviceRetirements : List ServiceRetirementInfo) (version : UInt32)
  | configureServicesWithRetire (anchor : Address) (services : List UInt32)
      (serviceRetirements : List ServiceRetirementInfo)
  | retireService (anchor : Address) (service : UInt32) (retirementTimestamp : Option UInt64)
      (deprecationNotice : Option String)
  | unretireService (anchor : Address) (service : UInt32)
  | recordComplianceCheck (subject : Address) (checkType : String) (passed : Bool)
      (score : Option UInt32)
  | submitQuote (anchor : Address) (terms : QuoteTerms)
  | submitQuoteWithReason (anchor : Address) (terms : QuoteTerms) (routingReason : Option String)
  | quoteWithRequestId (requestId : RequestId) (anchor : Address) (terms : QuoteTerms)
  | quoteWithRequestIdAndReason (requestId : RequestId) (anchor : Address) (terms : QuoteTerms)
      (routingReason : Option String)
  | receiveQuote (receiver anchor : Address) (quoteId : UInt64)
  | acceptQuoteWithCompliance (receiver anchor : Address) (quoteId : UInt64)
      (requireCompliance : Bool)
  | invalidateQuote (anchor : Address) (quoteId : UInt64)
  | purgeExpiredQuotes
  | routeTransaction (options : RoutingOptions)
  | routeWithFallback (options : RoutingOptions) (preferredAnchor : Address)
  | routeAnchors (feeWeight speedWeight reputationWeight maxResults minReputation : UInt32)
  | setEvictionPolicy (enabled : Bool) (maxPerCall : UInt32)
  | setStorageBudgetThresholds (warningBytes criticalBytes : UInt64)
  | createTransactionRecord (transactionId : UInt64) (initiator : Address)
  | createTxnRecordWithReason (transactionId : UInt64) (initiator : Address)
      (routingReason : Option String)
  | startTransactionRecord (transactionId : UInt64)
  | completeTransactionRecord (transactionId : UInt64)
  | failTransactionRecord (transactionId : UInt64) (errorMessage : String)
  | getCachedMetadataSwr (anchor : Address)
  | proposeCacheInvalidation (caller anchor : Address)
  | endorseCacheInvalidation (caller : Address) (proposalId : UInt64)
  | executeCacheInvalidation (proposalId : UInt64)
  | setCacheQuorumThreshold (n : UInt32)
  | setCacheProposalExpiry (ledgers : UInt32)
  | setAuditLogRetention (retentionDays : UInt64)
  | setAutoPruneThreshold (n : UInt32)
  | propagateSpan (parent child : RequestId) (operation : String) (actor : Address)
deriving DecidableEq

def invoke (host : Host) (env : Env) (s : Storage) : Call → Except Panic Storage
  | .initializeContract admin => initializeContract env s admin
  | .proposeAdminTransfer newAdmin => proposeAdminTransfer env s newAdmin
  | .acceptAdminTransfer => acceptAdminTransfer env s
  | .grantRole grantee role => grantRole env s grantee role
  | .revokeRole grantee role => revokeRole env s grantee role
  | .grantCapability grantee cap => grantCapability env s grantee cap
  | .revokeCapability grantee cap => revokeCapability env s grantee cap
  | .setCapacityConfig config => setCapacityConfig env s config
  | .setSep10JwtVerifyingKey issuer pk => setSep10JwtVerifyingKey env s issuer pk
  | .rotateSep10Key issuer pk => rotateSep10Key env s issuer pk
  | .setJwtMaxLen maxLen => setJwtMaxLen env s maxLen
  | .setJwtSkew skew => setJwtSkew env s skew
  | .verifySep10Token token issuer => verifySep10Token host env s token issuer
  | .verifySep10TokenForSubject token issuer subject =>
    verifySep10TokenForSubject host env s token issuer subject
  | .registerAttestor attestor token issuer pk =>
    registerAttestor host env s attestor token issuer pk
  | .revokeAttestor attestor => revokeAttestor env s attestor
  | .reactivateAttestor attestor => reactivateAttestor env s attestor
  | .createSession initiator => Prod.fst <$> createSession env s initiator
  | .closeSession sessionId initiator => closeSession env s sessionId initiator
  | .registerAttestorWithSession operator sessionId attestor pk =>
    registerAttestorWithSession env s operator sessionId attestor pk
  | .revokeAttestorWithSession operator sessionId attestor =>
    revokeAttestorWithSession env s operator sessionId attestor
  | .submitAttestationWithSession sessionId input =>
    Prod.fst <$> submitAttestationWithSession host env s sessionId input
  | .submitAttestation input => Prod.fst <$> submitAttestation host env s input
  | .submitAttestationBatch caller attestations =>
    Prod.fst <$> submitAttestationBatch host env s caller attestations
  | .submitAttestationKycCheck input requireKyc =>
    Prod.fst <$> submitAttestationKycCheck host env s input requireKyc
  | .submitWithRequestId requestId input =>
    Prod.fst <$> submitWithRequestId host env s requestId input
  | .submitKyc subject dataHash attestor => submitKyc env s subject dataHash attestor
  | .approveKyc operator subject => approveKyc env s operator subject
  | .rejectKyc operator subject reasonHash =>
    rejectKyc env s operator subject reasonHash
  | .reopenKyc operator subject => reopenKyc env s operator subject
  | .setRateLimitConfig caller maxSubmissions windowLength =>
    setRateLimitConfig env s caller maxSubmissions windowLength
  | .setRoleRateLimit caller role config => setRoleRateLimit env s caller role config
  | .setAddressRateLimit caller address config =>
    setAddressRateLimit env s caller address config
  | .upgrade newWasmHash => upgrade host env s newWasmHash
  | .migrate newSchemaVersion batchSize => migrate env s newSchemaVersion batchSize
  | .setCacheConfig config => setCacheConfig env s config
  | .setCachePolicySet policies => setCachePolicySet env s policies
  | .cacheMetadata anchor metadata ttl => cacheMetadata env s anchor metadata ttl
  | .refreshMetadataCache anchor metadata ttl => refreshMetadataCache env s anchor metadata ttl
  | .cacheMetadataSwr anchor metadata ttl stale => cacheMetadataSwr env s anchor metadata ttl stale
  | .forceRefreshMetadata anchor metadata ttl stale =>
    forceRefreshMetadata env s anchor metadata ttl stale
  | .refreshMetadataCacheSwr anchor metadata ttl stale =>
    refreshMetadataCacheSwr env s anchor metadata ttl stale
  | .cacheCapabilities anchor tomlUrl capabilities ttl =>
    cacheCapabilities env s anchor tomlUrl capabilities ttl
  | .refreshCapabilitiesCache anchor tomlUrl capabilities ttl =>
    refreshCapabilitiesCache env s anchor tomlUrl capabilities ttl
  | .invalidateCacheForAnchor anchor => Prod.fst <$> invalidateCacheForAnchor env s anchor
  | .compactCache anchors => Prod.fst <$> compactCache env s anchors
  | .enableService caller anchor serviceCode =>
    Prod.fst <$> enableService env s caller anchor serviceCode
  | .disableService caller anchor serviceCode =>
    Prod.fst <$> disableService env s caller anchor serviceCode
  | .snapshotServices caller anchor services description =>
    Prod.fst <$> snapshotServices env s caller anchor services description
  | .rollbackServices caller snapshotId => Prod.fst <$> rollbackServices env s caller snapshotId
  | .setAnchorMetadata anchor reputationScore averageSettlementTime liquidityScore
      uptimePercentage totalVolume =>
    setAnchorMetadata env s anchor reputationScore averageSettlementTime liquidityScore
      uptimePercentage totalVolume
  | .deactivateAnchor anchor => deactivateAnchor env s anchor
  | .reactivateAnchor anchor => reactivateAnchor env s anchor
  | .blacklistAnchor anchor reason => blacklistAnchor env s anchor reason
  | .removeFromBlacklist anchor => removeFromBlacklist env s anchor
  | .configureServices anchor services => configureServices env s anchor services
  | .configureServicesVersioned anchor services retirements version =>
    configureServicesVersioned env s anchor services retirements version
  | .configureServicesWithRetire anchor services retirements =>
    configureServicesWithRetire env s anchor services retirements
  | .retireService anchor service retirementTimestamp deprecationNotice =>
    retireService env s anchor service retirementTimestamp deprecationNotice
  | .unretireService anchor service => unretireService env s anchor service
  | .recordComplianceCheck subject checkType passed score =>
    recordComplianceCheck env s subject checkType passed score
  | .submitQuote anchor terms => Prod.fst <$> submitQuote env s anchor terms
  | .submitQuoteWithReason anchor terms routingReason =>
    Prod.fst <$> submitQuoteWithReason env s anchor terms routingReason
  | .quoteWithRequestId requestId anchor terms => quoteWithRequestId env s requestId anchor terms
  | .quoteWithRequestIdAndReason requestId anchor terms routingReason =>
    quoteWithRequestIdAndReason env s requestId anchor terms routingReason
  | .receiveQuote receiver anchor quoteId => Prod.fst <$> receiveQuote env s receiver anchor quoteId
  | .acceptQuoteWithCompliance receiver anchor quoteId requireCompliance =>
    Prod.fst <$> acceptQuoteWithCompliance env s receiver anchor quoteId requireCompliance
  | .invalidateQuote anchor quoteId => invalidateQuote env s anchor quoteId
  | .purgeExpiredQuotes => purgeExpiredQuotes env s
  | .routeTransaction options => Prod.fst <$> routeTransaction env s options
  | .routeWithFallback options preferredAnchor =>
    Prod.fst <$> routeWithFallback env s options preferredAnchor
  | .routeAnchors feeWeight speedWeight reputationWeight maxResults minReputation =>
    (fun _ => s) <$>
      routeAnchors host env s feeWeight speedWeight reputationWeight maxResults minReputation
  | .setEvictionPolicy enabled maxPerCall => setEvictionPolicy env s enabled maxPerCall
  | .setStorageBudgetThresholds warningBytes criticalBytes =>
    setStorageBudgetThresholds env s warningBytes criticalBytes
  | .createTransactionRecord transactionId initiator =>
    .ok (createTransactionRecord host env s transactionId initiator).1
  | .createTxnRecordWithReason transactionId initiator routingReason =>
    .ok (createTxnRecordWithReason host env s transactionId initiator routingReason).1
  | .startTransactionRecord transactionId => Prod.fst <$> startTransactionRecord env s transactionId
  | .completeTransactionRecord transactionId =>
    Prod.fst <$> completeTransactionRecord env s transactionId
  | .failTransactionRecord transactionId errorMessage =>
    Prod.fst <$> failTransactionRecord env s transactionId errorMessage
  | .getCachedMetadataSwr anchor => Prod.fst <$> getCachedMetadataSwr env s anchor
  | .proposeCacheInvalidation caller anchor =>
    Prod.fst <$> proposeCacheInvalidation env s caller anchor
  | .endorseCacheInvalidation caller proposalId => endorseCacheInvalidation env s caller proposalId
  | .executeCacheInvalidation proposalId => executeCacheInvalidation env s proposalId
  | .setCacheQuorumThreshold n => setCacheQuorumThreshold env s n
  | .setCacheProposalExpiry ledgers => setCacheProposalExpiry env s ledgers
  | .setAuditLogRetention retentionDays => setAuditLogRetention env s retentionDays
  | .setAutoPruneThreshold n => setAutoPruneThreshold env s n
  | .propagateSpan parent child operation actor =>
    propagateSpan env s parent child operation actor

/-- The components a call may write. -/
def Call.touches : Call → List Component
  | .initializeContract _ | .proposeAdminTransfer _ | .acceptAdminTransfer => [.access, .events]
  | .grantRole _ _ | .revokeRole _ _ | .grantCapability _ _ | .revokeCapability _ _ =>
    [.access, .adminAudit, .events]
  | .setCapacityConfig _ => [.registry]
  | .setSep10JwtVerifyingKey _ _ | .setJwtMaxLen _ | .setJwtSkew _ | .verifySep10Token _ _
  | .verifySep10TokenForSubject _ _ _ => [.sep10]
  | .rotateSep10Key _ _ => [.sep10, .events]
  | .registerAttestor _ _ _ _ => [.registry, .sep10, .adminAudit, .events]
  | .revokeAttestor _ | .reactivateAttestor _ => [.registry, .adminAudit, .events]
  | .createSession _ | .closeSession _ _ => [.sessions, .events]
  | .registerAttestorWithSession _ _ _ _ | .revokeAttestorWithSession _ _ _ =>
    [.registry, .sessions, .events]
  | .submitAttestationWithSession _ _ =>
    [.sessions, .attestations, .rateLimits, .adminAudit, .replay, .events]
  | .submitAttestation _ | .submitAttestationKycCheck _ _ =>
    [.attestations, .rateLimits, .adminAudit, .replay, .events]
  | .submitAttestationBatch _ _ => [.attestations, .rateLimits]
  | .submitWithRequestId _ _ =>
    [.attestations, .rateLimits, .adminAudit, .replay, .tracing, .events]
  | .submitKyc _ _ _ => [.kyc, .events]
  | .approveKyc _ _ | .rejectKyc _ _ _ | .reopenKyc _ _ => [.kyc, .adminAudit, .events]
  | .setRateLimitConfig _ _ _ | .setRoleRateLimit _ _ _ | .setAddressRateLimit _ _ _ =>
    [.rateLimits, .adminAudit, .events]
  | .upgrade _ => [.upgrades, .adminAudit, .events]
  | .migrate _ _ => [.access, .quotes, .upgrades, .adminAudit, .events]
  | .setCachePolicySet _ | .cacheMetadata _ _ _ | .refreshMetadataCache _ _ _
  | .cacheMetadataSwr _ _ _ _ | .forceRefreshMetadata _ _ _ _ | .refreshMetadataCacheSwr _ _ _ _
  | .cacheCapabilities _ _ _ _ | .refreshCapabilitiesCache _ _ _ _ => [.cache]
  | .setCacheConfig _ | .invalidateCacheForAnchor _ | .compactCache _ =>
    [.cache, .adminAudit, .events]
  | .enableService _ _ _ | .disableService _ _ _ | .snapshotServices _ _ _ _
  | .rollbackServices _ _ => [.services, .cache, .adminAudit, .events]
  | .setAnchorMetadata _ _ _ _ _ _ => [.anchors, .cache, .events]
  | .deactivateAnchor _ | .reactivateAnchor _ => [.anchors]
  | .blacklistAnchor _ _ | .removeFromBlacklist _ => [.anchors, .adminAudit, .events]
  | .configureServices _ _ | .configureServicesVersioned _ _ _ _
  | .configureServicesWithRetire _ _ _ | .retireService _ _ _ _ | .unretireService _ _ =>
    [.anchorServices, .events]
  | .recordComplianceCheck _ _ _ _ => [.compliance, .events]
  | .submitQuote _ _ | .submitQuoteWithReason _ _ _ | .invalidateQuote _ _ => [.quotes, .events]
  | .quoteWithRequestId _ _ _ | .quoteWithRequestIdAndReason _ _ _ _ =>
    [.quotes, .tracing, .events]
  | .receiveQuote _ _ _ | .acceptQuoteWithCompliance _ _ _ _ | .routeTransaction _
  | .routeWithFallback _ _ => [.events]
  | .purgeExpiredQuotes => [.quotes]
  | .routeAnchors _ _ _ _ _ => []
  | .setEvictionPolicy _ _ | .setStorageBudgetThresholds _ _ | .startTransactionRecord _
  | .completeTransactionRecord _ | .failTransactionRecord _ _ => [.transactions]
  | .createTransactionRecord _ _ | .createTxnRecordWithReason _ _ _ => [.transactions, .events]
  | .getCachedMetadataSwr _ => [.cache]
  | .proposeCacheInvalidation _ _ | .endorseCacheInvalidation _ _ | .setCacheQuorumThreshold _
  | .setCacheProposalExpiry _ => [.governance]
  | .executeCacheInvalidation _ => [.governance, .cache, .events]
  | .setAuditLogRetention _ | .setAutoPruneThreshold _ => [.auditRetention]
  | .propagateSpan _ _ _ _ => [.tracing]

theorem fst_map_eq_ok {ε α β : Type} {x : Except ε (α × β)} {a : α} :
    Prod.fst <$> x = .ok a ↔ ∃ b, x = .ok (a, b) := by
  cases x with
  | error e => simp [Functor.map, Except.map]
  | ok p => simp [Functor.map, Except.map, Prod.ext_iff]

theorem invoke_sameOutside {host : Host} {env : Env} {s s' : Storage} {c : Call}
    (h : invoke host env s c = .ok s') : Storage.SameOutside c.touches s s' := by
  rw [Storage.sameOutside_iff]
  cases c with
  | initializeContract admin =>
    obtain ⟨_, _, rfl⟩ := initializeContract_frame h
    simp [Call.touches]
  | proposeAdminTransfer newAdmin =>
    obtain ⟨_, rfl⟩ := proposeAdminTransfer_effects h
    simp [Call.touches]
  | acceptAdminTransfer =>
    obtain ⟨_, _, rfl⟩ := acceptAdminTransfer_effects h
    simp [Call.touches]
  | grantRole grantee role =>
    obtain ⟨_, _, rfl⟩ := grantRole_effects h
    simp [Call.touches]
  | revokeRole grantee role =>
    obtain ⟨_, _, rfl⟩ := revokeRole_effects h
    simp [Call.touches]
  | grantCapability grantee cap =>
    obtain ⟨_, _, rfl⟩ := grantCapability_effects h
    simp [Call.touches]
  | revokeCapability grantee cap =>
    obtain ⟨_, _, rfl⟩ := revokeCapability_effects h
    simp [Call.touches]
  | setCapacityConfig config =>
    obtain rfl := setCapacityConfig_effects h
    simp [Call.touches]
  | setSep10JwtVerifyingKey issuer pk =>
    obtain ⟨_, rfl⟩ := setSep10JwtVerifyingKey_frame h
    simp [Call.touches]
  | rotateSep10Key issuer pk =>
    obtain ⟨_, _, rfl⟩ := rotateSep10Key_frame h
    simp [Call.touches]
  | setJwtMaxLen maxLen =>
    obtain ⟨_, rfl⟩ := setJwtMaxLen_frame h
    simp [Call.touches]
  | setJwtSkew skew =>
    obtain ⟨_, rfl⟩ := setJwtSkew_frame h
    simp [Call.touches]
  | verifySep10Token token issuer =>
    obtain ⟨_, rfl⟩ := verifySep10Token_frame h
    simp [Call.touches]
  | verifySep10TokenForSubject token issuer subject =>
    obtain ⟨_, rfl⟩ := verifySep10TokenForSubject_frame h
    simp [Call.touches]
  | registerAttestor attestor token issuer pk =>
    obtain ⟨_, _, _, _, _, _, _, rfl⟩ := registerAttestor_effects h
    simp [Call.touches]
  | revokeAttestor attestor =>
    obtain ⟨_, _, _, _, _, _, rfl⟩ := revokeAttestor_effects h
    simp [Call.touches]
  | reactivateAttestor attestor =>
    obtain ⟨_, _, _, _, _, _, _, rfl⟩ := reactivateAttestor_effects h
    simp [Call.touches]
  | createSession initiator =>
    obtain ⟨_, h⟩ := fst_map_eq_ok.mp h
    obtain ⟨_, _, _, _, rfl⟩ := createSession_effects h
    simp [Call.touches]
  | closeSession sessionId initiator =>
    obtain ⟨_, _, _, _, rfl⟩ := closeSession_effects h
    simp [Call.touches]
  | registerAttestorWithSession operator sessionId attestor pk =>
    obtain ⟨_, _, _, _, rfl⟩ := registerAttestorWithSession_effects h
    simp [Call.touches]
  | revokeAttestorWithSession operator sessionId attestor =>
    obtain ⟨_, _, _, _, rfl⟩ := revokeAttestorWithSession_effects h
    simp [Call.touches]
  | submitAttestationWithSession sessionId input =>
    obtain ⟨_, h⟩ := fst_map_eq_ok.mp h
    obtain ⟨_, _, _, _, hopen, hlimit, _, _, _, rfl⟩ := submitAttestationWithSession_effects h
    obtain ⟨_, _, _, rfl⟩ := enforceRateLimit_frame hlimit
    obtain ⟨_, _, _, _, rfl⟩ := requireSessionOpen_effects hopen
    simp [Call.touches, Storage.setSession]
  | submitAttestation input =>
    obtain ⟨_, h⟩ := fst_map_eq_ok.mp h
    obtain ⟨_, _, hlimit, _, _, rfl⟩ := submitAttestation_effects h
    obtain ⟨_, _, _, rfl⟩ := enforceRateLimit_frame hlimit
    simp [Call.touches]
  | submitAttestationBatch caller inputs =>
    obtain ⟨_, h⟩ := fst_map_eq_ok.mp h
    obtain ⟨_, _, _, _, t, ht, rfl⟩ := submitAttestationBatch_effects h
    split at ht
    · subst ht
      simp [Call.touches]
    · obtain ⟨_, rfl⟩ := chargeBatch_effects ht
      simp [Call.touches]
  | submitAttestationKycCheck input requireKyc =>
    obtain ⟨_, h⟩ := fst_map_eq_ok.mp h
    obtain ⟨_, _, hlimit, _, _, rfl⟩ := submitAttestationKycCheck_effects h
    obtain ⟨_, _, _, rfl⟩ := enforceRateLimit_frame hlimit
    simp [Call.touches]
  | submitWithRequestId requestId input =>
    obtain ⟨_, h⟩ := fst_map_eq_ok.mp h
    obtain ⟨_, _, hlimit, _, _, _, rfl⟩ := submitWithRequestId_effects h
    obtain ⟨_, _, _, rfl⟩ := enforceRateLimit_frame hlimit
    simp [Call.touches]
  | submitKyc subject dataHash attestor =>
    obtain ⟨_, _, _, _, _, rfl⟩ := submitKyc_effects h
    simp [Call.touches]
  | approveKyc operator subject =>
    obtain ⟨_, _, _, _, _, _, _, _, rfl⟩ := approveKyc_effects h
    simp [Call.touches]
  | rejectKyc operator subject reasonHash =>
    obtain ⟨_, _, _, _, _, _, rfl⟩ := rejectKyc_effects h
    simp [Call.touches]
  | reopenKyc operator subject =>
    obtain ⟨_, _, _, _, _, _, rfl⟩ := reopenKyc_effects h
    simp [Call.touches]
  | setRateLimitConfig caller maxSubmissions windowLength =>
    obtain ⟨_, _, _, _, rfl⟩ := setRateLimitConfig_effects h
    simp [Call.touches]
  | setRoleRateLimit caller role config =>
    obtain ⟨_, _, _, rfl⟩ := setRoleRateLimit_effects h
    simp [Call.touches]
  | setAddressRateLimit caller address config =>
    obtain ⟨_, _, _, rfl⟩ := setAddressRateLimit_effects h
    simp [Call.touches]
  | upgrade newWasmHash =>
    obtain ⟨_, _, _, rfl⟩ := upgrade_frame h
    simp [Call.touches]
  | migrate newSchemaVersion batchSize =>
    obtain ⟨_, _, _, _, _, rfl⟩ := migrate_frame h
    simp [Call.touches]
  | setCacheConfig config =>
    obtain ⟨_, _, rfl⟩ := setCacheConfig_effects h
    simp [Call.touches]
  | setCachePolicySet policies =>
    obtain ⟨_, rfl⟩ := setCachePolicySet_effects h
    simp [Call.touches]
  | cacheMetadata anchor metadata ttl =>
    obtain ⟨_, _, _, rfl⟩ := cacheMetadataEntry_effects h
    simp [Call.touches]
  | refreshMetadataCache anchor metadata ttl =>
    obtain ⟨_, _, _, _, _, rfl⟩ := refreshMetadataCache_effects h
    simp [Call.touches]
  | cacheMetadataSwr anchor metadata ttl stale =>
    obtain ⟨_, _, _, rfl⟩ := cacheMetadataEntry_effects h
    simp [Call.touches]
  | forceRefreshMetadata anchor metadata ttl stale =>
    obtain ⟨_, _, rfl⟩ := forceRefreshMetadata_effects h
    simp [Call.touches, storeMetadata]
  | refreshMetadataCacheSwr anchor metadata ttl stale =>
    obtain rfl := refreshMetadataCacheSwr_effects h
    split
    · simp
    · simp [Call.touches, storeMetadata]
  | cacheCapabilities anchor tomlUrl capabilities ttl =>
    obtain ⟨_, _, _, rfl⟩ := cacheCapabilities_effects h
    simp [Call.touches]
  | refreshCapabilitiesCache anchor tomlUrl capabilities ttl =>
    obtain ⟨_, _, _, _, rfl⟩ := refreshCapabilitiesCache_effects h
    simp [Call.touches]
  | invalidateCacheForAnchor anchor =>
    obtain ⟨_, h⟩ := fst_map_eq_ok.mp h
    obtain ⟨_, _, rfl⟩ := invalidateCacheForAnchor_effects h
    simp [Call.touches]
  | compactCache anchors =>
    obtain ⟨_, h⟩ := fst_map_eq_ok.mp h
    obtain ⟨_, _, _, _, rfl⟩ := compactCache_effects h
    simp [Call.touches]
  | enableService caller anchor serviceCode =>
    obtain ⟨_, h⟩ := fst_map_eq_ok.mp h
    obtain ⟨_, _, _, _, _, rfl⟩ := enableService_effects h
    simp [Call.touches]
  | disableService caller anchor serviceCode =>
    obtain ⟨_, h⟩ := fst_map_eq_ok.mp h
    obtain ⟨_, _, _, _, _, rfl⟩ := disableService_effects h
    simp [Call.touches]
  | snapshotServices caller anchor services description =>
    obtain ⟨_, h⟩ := fst_map_eq_ok.mp h
    obtain ⟨_, _, _, rfl⟩ := snapshotServices_frame h
    simp [Call.touches]
  | rollbackServices caller snapshotId =>
    obtain ⟨_, h⟩ := fst_map_eq_ok.mp h
    obtain ⟨_, _, _, _, _, rfl⟩ := rollbackServices_effects h
    simp [Call.touches]
  | setAnchorMetadata anchor reputationScore averageSettlementTime liquidityScore
      uptimePercentage totalVolume =>
    obtain ⟨_, _, _, _, _, rfl⟩ := setAnchorMetadata_effects h
    simp [Call.touches]
  | deactivateAnchor anchor =>
    obtain ⟨_, _, rfl⟩ := switchAnchor_effects h
    simp [Call.touches]
  | reactivateAnchor anchor =>
    obtain ⟨_, _, rfl⟩ := switchAnchor_effects h
    simp [Call.touches]
  | blacklistAnchor anchor reason =>
    obtain ⟨_, _, _, _, rfl⟩ := blacklistAnchor_effects h
    simp [Call.touches]
  | removeFromBlacklist anchor =>
    obtain ⟨_, _, _, _, rfl⟩ := removeFromBlacklist_effects h
    simp [Call.touches]
  | configureServices anchor services =>
    obtain ⟨_, _, rfl⟩ := configureServicesVersioned_effects h
    simp [Call.touches]
  | configureServicesVersioned anchor services retirements version =>
    obtain ⟨_, _, rfl⟩ := configureServicesVersioned_effects h
    simp [Call.touches]
  | configureServicesWithRetire anchor services retirements =>
    obtain ⟨_, _, rfl⟩ := configureServicesVersioned_effects h
    simp [Call.touches]
  | retireService anchor service retirementTimestamp deprecationNotice =>
    obtain ⟨_, _, _, rfl⟩ := retireService_effects h
    simp [Call.touches]
  | unretireService anchor service =>
    obtain ⟨_, _, _, rfl⟩ := unretireService_effects h
    simp [Call.touches]
  | recordComplianceCheck subject checkType passed score =>
    obtain ⟨_, _, rfl⟩ := recordComplianceCheck_frame h
    simp [Call.touches]
  | submitQuote anchor terms =>
    obtain ⟨_, h⟩ := fst_map_eq_ok.mp h
    obtain ⟨_, _, _, _, _, _, _, rfl⟩ := submitQuoteWithReason_effects h
    simp [Call.touches]
  | submitQuoteWithReason anchor terms routingReason =>
    obtain ⟨_, h⟩ := fst_map_eq_ok.mp h
    obtain ⟨_, _, _, _, _, _, _, rfl⟩ := submitQuoteWithReason_effects h
    simp [Call.touches]
  | quoteWithRequestId requestId anchor terms =>
    obtain ⟨_, _, _, _, _, _, _, _, rfl⟩ := quoteWithRequestIdAndReason_effects h
    simp [Call.touches]
  | quoteWithRequestIdAndReason requestId anchor terms routingReason =>
    obtain ⟨_, _, _, _, _, _, _, _, rfl⟩ := quoteWithRequestIdAndReason_effects h
    simp [Call.touches]
  | receiveQuote receiver anchor quoteId =>
    obtain ⟨_, h⟩ := fst_map_eq_ok.mp h
    obtain ⟨_, _, rfl⟩ := receiveQuote_effects h
    simp [Call.touches]
  | acceptQuoteWithCompliance receiver anchor quoteId requireCompliance =>
    obtain ⟨_, h⟩ := fst_map_eq_ok.mp h
    obtain ⟨_, _, rfl⟩ := acceptQuoteWithCompliance_effects h
    simp [Call.touches]
  | invalidateQuote anchor quoteId =>
    obtain ⟨_, _, rfl⟩ := invalidateQuote_effects h
    simp [Call.touches]
  | purgeExpiredQuotes =>
    obtain ⟨_, rfl⟩ := purgeExpiredQuotes_effects h
    simp [Call.touches]
  | routeTransaction options =>
    obtain ⟨_, h⟩ := fst_map_eq_ok.mp h
    obtain ⟨_, rfl⟩ := routeTransaction_frame h
    simp [Call.touches]
  | routeWithFallback options preferredAnchor =>
    obtain ⟨_, h⟩ := fst_map_eq_ok.mp h
    obtain ⟨_, rfl⟩ := routeWithFallback_frame h
    simp [Call.touches]
  | routeAnchors feeWeight speedWeight reputationWeight maxResults minReputation =>
    obtain ⟨_, _, rfl⟩ := Fallible.map_eq_ok.mp h
    simp [Call.touches]
  | setEvictionPolicy enabled maxPerCall =>
    obtain rfl := setEvictionPolicy_effects h
    simp [Call.touches]
  | setStorageBudgetThresholds warningBytes criticalBytes =>
    obtain rfl := setStorageBudgetThresholds_effects h
    simp [Call.touches]
  | createTransactionRecord transactionId initiator =>
    obtain rfl := Except.ok.inj h
    obtain ⟨_, _, _, _, hcreated⟩ :=
      createTransactionRecordInternal_effects host env s transactionId initiator none
    simp [Call.touches, createTransactionRecord, hcreated]
  | createTxnRecordWithReason transactionId initiator routingReason =>
    obtain rfl := Except.ok.inj h
    obtain ⟨_, _, _, _, hcreated⟩ :=
      createTransactionRecordInternal_effects host env s transactionId initiator routingReason
    simp [Call.touches, createTxnRecordWithReason, hcreated]
  | startTransactionRecord transactionId =>
    obtain ⟨_, h⟩ := fst_map_eq_ok.mp h
    obtain ⟨_, _, _, _, _, rfl⟩ := advanceTransactionStateInternal_effects h
    simp [Call.touches]
  | completeTransactionRecord transactionId =>
    obtain ⟨_, h⟩ := fst_map_eq_ok.mp h
    obtain ⟨_, _, _, _, _, rfl⟩ := advanceTransactionStateInternal_effects h
    simp [Call.touches]
  | failTransactionRecord transactionId errorMessage =>
    obtain ⟨_, h⟩ := fst_map_eq_ok.mp h
    obtain ⟨_, _, _, _, _, rfl⟩ := advanceTransactionStateInternal_effects h
    simp [Call.touches]
  | getCachedMetadataSwr anchor =>
    obtain ⟨_, h⟩ := fst_map_eq_ok.mp h
    rcases getCachedMetadataSwr_effects h with rfl | ⟨_, _, rfl⟩
    · simp
    · simp [Call.touches, storeMetadata]
  | proposeCacheInvalidation caller anchor =>
    obtain ⟨_, h⟩ := fst_map_eq_ok.mp h
    obtain ⟨_, _, _, _, rfl⟩ := proposeCacheInvalidation_effects h
    simp [Call.touches]
  | endorseCacheInvalidation caller proposalId =>
    obtain ⟨_, _, _, _, rfl | ⟨_, rfl⟩⟩ := endorseCacheInvalidation_effects h
    · simp
    · simp [Call.touches, CacheGovernance.storeProposal]
  | executeCacheInvalidation proposalId =>
    obtain ⟨_, _, _, _, rfl⟩ := executeCacheInvalidation_effects h
    simp [Call.touches]
  | setCacheQuorumThreshold n =>
    obtain ⟨_, _, rfl⟩ := setCacheQuorumThreshold_effects h
    simp [Call.touches]
  | setCacheProposalExpiry ledgers =>
    obtain ⟨_, rfl⟩ := setCacheProposalExpiry_effects h
    simp [Call.touches]
  | setAuditLogRetention retentionDays =>
    obtain ⟨_, rfl⟩ := setAuditLogRetention_effects h
    simp [Call.touches]
  | setAutoPruneThreshold n =>
    obtain rfl := setAutoPruneThreshold_effects h
    simp [Call.touches]
  | propagateSpan parent child operation actor =>
    obtain ⟨_, _, _, rfl⟩ := propagateSpan_effects h
    simp [Call.touches]

/-- A call together with the ledger and the authorizations it runs under. -/
abbrev Input := Env × Call

abbrev Transition := Machine.Transition Storage Input

def step (host : Host) (s : Storage) (i : Input) : Except Panic Storage := invoke host i.1 s i.2

def run (host : Host) (is : List Input) : Storage := Machine.run (step host) Storage.empty is

def history (host : Host) (is : List Input) : List Transition :=
  Machine.transitions (step host) Storage.empty is

namespace Demo

def admin : Address := ⟨"GADMIN"⟩

def alice : Address := ⟨"GALICE"⟩

def bob : Address := ⟨"GBOB"⟩

/-- A stand-in for Ed25519: a signature verifies when it starts with the key's first byte. -/
def host : Host := ⟨fun pk _ sig => pk.val.head? = sig.val.head?, fun _ => true, .insertion⟩

def onLedger (ledger : UInt32) (c : Call) : Input := (⟨1000, ledger, [admin, alice, bob]⟩, c)

def deploy : Input := onLedger 1 (.initializeContract admin)

def openSession : Input := onLedger 1 (.createSession admin)

def sessionRegister (a : Address) (key : UInt8) : Input :=
  onLedger 1 (.registerAttestorWithSession admin 0 a (.fill 32 key))

def sessionRevoke (a : Address) : Input := onLedger 1 (.revokeAttestorWithSession admin 0 a)

def revoke (a : Address) : Input := onLedger 1 (.revokeAttestor a)

def reactivate (a : Address) : Input := onLedger 1 (.reactivateAttestor a)

/-- A submission about `bob` signed with a key that starts with `key`. -/
def attestation (issuer : Address) (key hash : UInt8) : AttestationInput :=
  { issuer, subject := bob, timestamp := 5, payloadHash := [hash],
    signature := (BytesN.fill 64 key).val }

/-- What `attestation` becomes once it is stored under `id`. -/
def attestationRecord (id : UInt64) (issuer : Address) (key hash : UInt8) : Attestation :=
  { id, issuer, subject := bob, timestamp := 5, payloadHash := [hash],
    signature := (BytesN.fill 64 key).val, schemaVersion := schemaV1 }

def aliceMetadata : AnchorMetadata := ⟨alice, 90, 80, 9900, 1000, 60, true⟩

def terms : QuoteTerms :=
  { baseAsset := "USDC", quoteAsset := "EURC", rate := 100, feePercentage := 10,
    minimumAmount := 1, maximumAmount := 1000, validUntil := 5000 }

/-- What `terms` is stored as under the first id. -/
def offer (routingReason : Option String) : Quote :=
  { quoteId := 1, anchor := alice, baseAsset := "USDC", quoteAsset := "EURC", rate := 100,
    feePercentage := 10, minimumAmount := 1, maximumAmount := 1000, validUntil := 5000,
    schemaVersion := schemaV1, routingReason }

def makeOffer (routingReason : Option String) : Input :=
  onLedger 1 (.submitQuoteWithReason alice terms routingReason)

def offered (routingReason : Option String) : List Input := [deploy, makeOffer routingReason]

end Demo

end AnchorKit
