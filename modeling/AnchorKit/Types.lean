import AnchorKit.Library.Fallible
import AnchorKit.Library.UnstableSort
import AnchorKit.Library.Word

/-!
# The host environment

Addresses, byte strings, error codes and the part of the Soroban host that a contract call can
see. A call that panics is rolled back by the host, so a panic carries no state.
-/

namespace AnchorKit

/-- An account or contract address, identified by its strkey text. -/
structure Address where
  strkey : String
deriving DecidableEq, Repr

/-- `Address::to_string`. -/
def Address.toText (a : Address) : String := a.strkey

abbrev Bytes := List UInt8

abbrev BytesN (n : Nat) := { b : Bytes // b.length = n }

/-- Constant byte strings, for keys and signatures of concrete runs. -/
def BytesN.fill (n : Nat) (b : UInt8) : BytesN n := ⟨List.replicate n b, List.length_replicate⟩

/-- `TryInto<BytesN<n>>` for byte strings. -/
def BytesN.ofBytes? (n : Nat) (b : Bytes) : Option (BytesN n) :=
  if h : b.length = n then some ⟨b, h⟩ else none

/-- The characters that `str::trim` removes. -/
def isWhitespace (c : Char) : Bool :=
  let n := c.toNat
  (0x09 ≤ n && n ≤ 0x0d) || n = 0x20 || n = 0x85 || n = 0xa0 || n = 0x1680 ||
    (0x2000 ≤ n && n ≤ 0x200a) || n = 0x2028 || n = 0x2029 || n = 0x202f || n = 0x205f ||
    n = 0x3000

/-- `str::trim`, as a list of characters. -/
def trim (s : String) : List Char :=
  ((s.toList.dropWhile isWhitespace).reverse.dropWhile isWhitespace).reverse

/-- `core::str::from_utf8`. -/
def fromUtf8 (b : Bytes) : Option String := String.fromUTF8? ⟨b.toArray⟩

inductive ErrorCode
  | alreadyInitialized
  | attestorAlreadyRegistered
  | attestorNotRegistered
  | unauthorizedAttestor
  | invalidTimestamp
  | replayAttack
  | complianceNotMet
  | validationError
  | rateLimitExceeded
  | invalidSep10Token
  | kycNotFound
  | sessionNotFound
  | kycPending
  | kycRejected
  | notInitialized
  | illegalTransition
  | sessionExpired
  | sessionClosed
  | unauthorized
  | sessionOperationLimitExceeded
  | attestorCapacityExceeded
  | cacheCapacityExceeded
  | kycExpired
  | attestorRevoked
  | signatureVerificationFailed
  | batchSizeExceeded
  | auditLogCapacityExceeded
  | unsupportedCapabilityVersion
  | serviceInMaintenance
  | invalidTemplate
  | invalidQuote
  | invalidServiceType
  | noQuotesAvailable
  | servicesNotConfigured
  | invalidWeights
  | quoteNotFound
  | transactionNotFound
  | invalidAssetCode
  | quoteExpired
  | staleQuote
  | auditLogNotFound
  | cacheExpired
  | cacheNotFound
  | dependencyNotMet
  | dependencyCycleDetected
  | templateNotFound
  | templateAlreadyApplied
  | maintenanceWindowConflict
  | invalidEndpointFormat
  | invalidAssetPair
  | invalidAmount
  | archiveCapacityExceeded
  | invalidTransactionIntent
  | attestationNotFound
  | webhookDeliveryFailed
deriving DecidableEq, Repr

def ErrorCode.defaultMessage : ErrorCode → String
  | .alreadyInitialized => "Contract is already initialized"
  | .attestorAlreadyRegistered => "Attestor is already registered"
  | .attestorNotRegistered => "Attestor is not registered"
  | .unauthorizedAttestor => "Attestor is not authorized"
  | .invalidTimestamp => "Timestamp is invalid"
  | .replayAttack => "Replay attack detected"
  | .complianceNotMet => "Compliance requirements not met"
  | .validationError => "Response schema validation failed"
  | .rateLimitExceeded => "Rate limit exceeded"
  | .invalidSep10Token => "SEP-10 JWT is missing, expired, or invalid"
  | .kycNotFound => "KYC record not found"
  | .sessionNotFound => "Session not found"
  | .kycPending => "KYC verification is pending"
  | .kycRejected => "KYC verification was rejected"
  | .notInitialized => "Contract is not initialized"
  | .illegalTransition => "Illegal transaction state transition"
  | .sessionExpired => "Session has expired"
  | .sessionClosed => "Session is closed"
  | .unauthorized => "Caller is not authorized for this operation"
  | .sessionOperationLimitExceeded => "Session operation limit exceeded"
  | .attestorCapacityExceeded => "Maximum number of registered attestors exceeded"
  | .cacheCapacityExceeded => "Maximum number of cache entries exceeded"
  | .kycExpired => "KYC approval has expired"
  | .attestorRevoked => "Attestor is revoked; reactivation required"
  | .signatureVerificationFailed => "Attestation signature verification failed"
  | .batchSizeExceeded => "Batch size exceeds the per-call maximum"
  | .auditLogCapacityExceeded => 
    "Audit log record ID space exhausted; cannot allocate another unique record ID"
  | .unsupportedCapabilityVersion => "Service capability version is unsupported"
  | .serviceInMaintenance => "Service is currently in a maintenance window"
  | .invalidTemplate => "Service template configuration is invalid"
  | .invalidQuote => "Quote is invalid"
  | .invalidServiceType => "Service type is invalid"
  | .noQuotesAvailable => "No quotes are available"
  | .servicesNotConfigured => "Services are not configured"
  | .invalidWeights => "Routing weights must sum to 1.0"
  | .quoteNotFound => "Quote not found"
  | .transactionNotFound => "Transaction record not found"
  | .invalidAssetCode => "Asset code is invalid"
  | .quoteExpired => "Quote has passed its validity deadline"
  | .staleQuote => "Quote has expired"
  | .auditLogNotFound => "Audit log not found"
  | .cacheExpired => "Cache entry has expired"
  | .cacheNotFound => "Cache entry not found"
  | .dependencyNotMet => "A required service dependency is not enabled"
  | .dependencyCycleDetected => "Circular dependency detected in service graph"
  | .templateNotFound => "Service template not found"
  | .templateAlreadyApplied => "Template has already been applied to this anchor"
  | .maintenanceWindowConflict => "Maintenance window conflicts with an existing window"
  | .invalidEndpointFormat => "Endpoint format is invalid"
  | .invalidAssetPair => "Base and quote asset must differ"
  | .invalidAmount => "Amount is zero or otherwise invalid"
  | .archiveCapacityExceeded =>
    "Archive ID space exhausted; cannot allocate another unique archive identifier"
  | .invalidTransactionIntent => "Transaction intent is invalid"
  | .attestationNotFound => "Attestation not found"
  | .webhookDeliveryFailed => "Webhook delivery failed validation"

structure AnchorKitError where
  code : ErrorCode
  message : String
  context : Option String
deriving DecidableEq, Repr

def AnchorKitError.fromCode (code : ErrorCode) : AnchorKitError :=
  ⟨code, code.defaultMessage, none⟩

def AnchorKitError.withDetail (code : ErrorCode) (context : String) : AnchorKitError :=
  ⟨code, code.defaultMessage, some context⟩

def AnchorKitError.withContext (code : ErrorCode) (message context : String) : AnchorKitError :=
  ⟨code, message, some context⟩

def AnchorKitError.invalidEndpointFormat : AnchorKitError := .fromCode .invalidEndpointFormat

def AnchorKitError.invalidQuote : AnchorKitError := .fromCode .invalidQuote

def AnchorKitError.staleQuote : AnchorKitError := .fromCode .staleQuote

def AnchorKitError.invalidTransactionIntent : AnchorKitError :=
  .fromCode .invalidTransactionIntent

def AnchorKitError.invalidAssetCode (code : String) : AnchorKitError :=
  .withDetail .invalidAssetCode code

def AnchorKitError.validationError (context : String) : AnchorKitError :=
  .withDetail .validationError context

def AnchorKitError.serviceInMaintenance (serviceCode : UInt32) : AnchorKitError :=
  .withDetail .serviceInMaintenance ("service_code=" ++ toString serviceCode)

def AnchorKitError.invalidTemplate (reason : String) : AnchorKitError :=
  .withDetail .invalidTemplate reason

def AnchorKitError.maintenanceWindowConflict : AnchorKitError :=
  .fromCode .maintenanceWindowConflict

def AnchorKitError.dependencyNotMet (serviceCode dependencyCode : UInt32) : AnchorKitError :=
  .withDetail .dependencyNotMet
    ("service=" ++ toString serviceCode ++ " requires=" ++ toString dependencyCode)

def AnchorKitError.dependencyCycleDetected : AnchorKitError := .fromCode .dependencyCycleDetected

def AnchorKitError.templateNotFound (name : String) : AnchorKitError :=
  .withDetail .templateNotFound name

def AnchorKitError.templateAlreadyApplied (name : String) : AnchorKitError :=
  .withDetail .templateAlreadyApplied name

/-- The ways a call aborts: an error code raised by the contract, checked arithmetic that
overflows, a missing authorization, a signature the host rejects, an `expect` on an error, a
stored value of another shape, or code that was never uploaded. -/
inductive Panic
  | withError (code : ErrorCode)
  | arithmeticOverflow
  | unauthorizedInvocation
  | invalidSignature
  | expectFailed (message : String)
  | conversionFailed
  | missingWasm
deriving DecidableEq, Repr

/-- `a + b` on `u64` in a build with overflow checks. -/
def add64 (a b : UInt64) : Except Panic UInt64 :=
  Fallible.expect (Word.checkedAdd64 a b) .arithmeticOverflow

/-- `a + b` on `u32` in a build with overflow checks. -/
def add32 (a b : UInt32) : Except Panic UInt32 :=
  Fallible.expect (Word.checkedAdd32 a b) .arithmeticOverflow

/-- `a * b` on `u64` in a build with overflow checks. -/
def mul64 (a b : UInt64) : Except Panic UInt64 :=
  Fallible.expect (Word.checkedMul64 a b) .arithmeticOverflow

/-- `a - b` on `u64` in a build with overflow checks. -/
def sub64 (a b : UInt64) : Except Panic UInt64 :=
  Fallible.expect (Word.checkedSub64 a b) .arithmeticOverflow

@[simp] theorem add64_eq_ok {a b c : UInt64} : add64 a b = .ok c ↔ a.toNat + b.toNat = c.toNat := by
  simp [add64, Word.checkedAdd64_eq_some]

@[simp] theorem add32_eq_ok {a b c : UInt32} : add32 a b = .ok c ↔ a.toNat + b.toNat = c.toNat := by
  simp [add32, Word.checkedAdd32_eq_some]

@[simp] theorem mul64_eq_ok {a b c : UInt64} : mul64 a b = .ok c ↔ a.toNat * b.toNat = c.toNat := by
  simp [mul64, Word.checkedMul64_eq_some]

@[simp] theorem sub64_eq_ok {a b c : UInt64} : sub64 a b = .ok c ↔ b.toNat + c.toNat = a.toNat := by
  simp [sub64, Word.checkedSub64_eq_some]

theorem succeeds_mul64 {a b : UInt64} :
    Fallible.Succeeds (mul64 a b) ↔ a.toNat * b.toNat < 2 ^ 64 := by
  unfold mul64 Word.checkedMul64
  split
  · rename_i h
    exact iff_of_true ⟨_, rfl⟩ h
  · rename_i h
    exact iff_of_false nofun h

theorem add64_eq_error {a b : UInt64} {e : Panic} :
    add64 a b = .error e ↔ e = .arithmeticOverflow ∧ 2 ^ 64 ≤ a.toNat + b.toNat := by
  rw [← Word.checkedAdd64_eq_none, add64]
  cases Word.checkedAdd64 a b with
  | none => simp [Fallible.expect, eq_comm]
  | some c => simp [Fallible.expect]

theorem add64_of_lt {a b : UInt64} (h : a.toNat + b.toNat < 2 ^ 64) : add64 a b = .ok (a + b) := by
  rw [add64_eq_ok, UInt64.toNat_add, Nat.mod_eq_of_lt h]

theorem add64_of_le {a b : UInt64} (h : 2 ^ 64 ≤ a.toNat + b.toNat) :
    add64 a b = .error .arithmeticOverflow :=
  add64_eq_error.mpr ⟨rfl, h⟩

theorem sub64_of_le {a b : UInt64} (h : b ≤ a) : sub64 a b = .ok (a - b) := by
  rw [sub64_eq_ok, UInt64.toNat_sub_of_le a b h]
  rw [UInt64.le_iff_toNat_le] at h
  omega

/-- What surrounds the contract: signature verification, the code uploaded to the network, and the
order in which the unstable sort of the standard library leaves equal elements. -/
structure Host where
  ed25519Verify : BytesN 32 → Bytes → BytesN 64 → Bool
  wasmUploaded : BytesN 32 → Bool
  unstableSort : UnstableSort

/-- What one invocation sees: the ledger it runs in and the addresses that authorized it, once
for each authorization. -/
structure Env where
  timestamp : UInt64
  sequence : UInt32
  authorized : List Address
deriving DecidableEq, Repr

def Env.signedBy (env : Env) (signers : List Address) : Env := { env with authorized := signers }

end AnchorKit
