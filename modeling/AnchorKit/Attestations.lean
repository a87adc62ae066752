import AnchorKit.Kyc
import AnchorKit.RateLimiter
import AnchorKit.ReplayDetection
import AnchorKit.Sessions

/-!
# Attestation submission

The five ways an attestation enters the store. They share the registration check, the signature
check, the replay marker, the rate limit and the write; the order of the checks is the order of
the source, and it differs from path to path.
-/

namespace AnchorKit

open Fallible

def maxPayloadHashBytes : Nat := 32

def maxBatchSize : Nat := 25

def checkTimestamp (timestamp : UInt64) : Except Panic Unit :=
  require (timestamp ≠ 0) (.withError .invalidTimestamp)

/-- Reject a payload the issuer has already attested. -/
def checkNotUsed (env : Env) (s : Storage) (issuer : Address) (payloadHash : Bytes) :
    Except Panic Unit :=
  if s.attestations.used.has (issuer, payloadHash) then
    ReplayDetection.rejectReplay env s payloadHash issuer
  else .ok ()

def nextAttestationId (s : Storage) : Except Panic (Storage × UInt64) := do
  let id := s.attestations.counter
  require (id.toNat ≠ 2 ^ 64 - 1) (.withError .attestorCapacityExceeded)
  return ({ s with attestations := { s.attestations with counter := id + 1 } }, id)

def storeAttestation (s : Storage) (id : UInt64) (input : AttestationInput) : Storage :=
  let attestation : Attestation :=
    { id, issuer := input.issuer, subject := input.subject, timestamp := input.timestamp,
      payloadHash := input.payloadHash, signature := input.signature, schemaVersion := schemaV1 }
  { s with attestations := { s.attestations with
    record := s.attestations.record.set id attestation
    index := s.attestations.index ++ [id] } }

/-- Allocate an id, store the record under it and mark the payload as used by its issuer. -/
def acceptAttestation (s : Storage) (input : AttestationInput) :
    Except Panic (Storage × UInt64) := do
  let (s, id) ← nextAttestationId s
  let s := storeAttestation s id input
  let s := { s with attestations := { s.attestations with
    used := s.attestations.used.set (input.issuer, input.payloadHash) id } }
  return (s, id)

def submitAttestation (host : Host) (env : Env) (s : Storage) (input : AttestationInput) :
    Except Panic (Storage × UInt64) := do
  input.issuer.requireAuth env
  require (input.payloadHash.length ≤ maxPayloadHashBytes) (.withError .validationError)
  checkAttestor s input.issuer
  verifyAttestationSignature host s input.issuer input.payloadHash input.signature
  checkTimestamp input.timestamp
  checkNotUsed env s input.issuer input.payloadHash
  let s ← enforceRateLimit env s input.issuer
  let (s, id) ← acceptAttestation s input
  let s := ReplayDetection.recordAcceptedEvent env s
  return (s.publish (.attestRecorded id input.subject input.payloadHash input.timestamp), id)

/-- The first pass over a batch: every entry is checked against the storage before the batch. -/
def checkBatchEntries (host : Host) (s : Storage) : List AttestationInput → Except Panic Unit
  | [] => .ok ()
  | entry :: rest => do
    verifyAttestationSignature host s entry.issuer entry.payloadHash entry.signature
    checkTimestamp entry.timestamp
    require (s.attestations.used.has (entry.issuer, entry.payloadHash) = false)
      (.withError .replayAttack)
    checkBatchEntries host s rest

/-- The second pass: every entry is written. -/
def storeBatchEntries (s : Storage) : List AttestationInput → Except Panic (Storage × List UInt64)
  | [] => .ok (s, [])
  | entry :: rest => do
    let (s, id) ← acceptAttestation s entry
    let (s, ids) ← storeBatchEntries s rest
    return (s, id :: ids)

def submitAttestationBatch (host : Host) (env : Env) (s : Storage) (caller : Address)
    (attestations : List AttestationInput) : Except Panic (Storage × List UInt64) := do
  caller.requireAuth env
  checkAttestor s caller
  require (attestations.length ≤ maxBatchSize) (.withError .batchSizeExceeded)
  if attestations.length = 0 then
    return (s, [])
  let s ← chargeBatch env s caller (UInt32.ofNat attestations.length)
  checkBatchEntries host s attestations
  storeBatchEntries s attestations

/-- The error reported for a subject that is not approved. -/
def kycError : KycStatus → ErrorCode
  | .pending => .kycPending
  | .rejected => .kycRejected
  | .expired => .kycExpired
  | .notSubmitted => .kycNotFound
  | .approved | .reopened => .complianceNotMet

def checkKyc (env : Env) (s : Storage) (subject : Address) (requireKyc : Bool) :
    Except Panic Unit :=
  let status := getKycStatusInternal env s subject
  if requireKyc = true ∧ status ≠ .approved then .error (.withError (kycError status)) else .ok ()

/-- The events of the paths that also notify webhooks. -/
def publishSubmission (s : Storage) (id : UInt64) (input : AttestationInput) : Storage :=
  let s := s.publish (.attestRecorded id input.subject input.payloadHash input.timestamp)
  s.publish (.webhook "attestation_submitted" id input.timestamp input.payloadHash)

def submitAttestationKycCheck (host : Host) (env : Env) (s : Storage) (input : AttestationInput)
    (requireKyc : Bool) : Except Panic (Storage × UInt64) := do
  input.issuer.requireAuth env
  checkAttestor s input.issuer
  verifyAttestationSignature host s input.issuer input.payloadHash input.signature
  checkTimestamp input.timestamp
  checkKyc env s input.subject requireKyc
  checkNotUsed env s input.issuer input.payloadHash
  let s ← enforceRateLimit env s input.issuer
  let (s, id) ← acceptAttestation s input
  let s := publishSubmission s id input
  return (ReplayDetection.recordAcceptedEvent env s, id)

def submitWithRequestId (host : Host) (env : Env) (s : Storage) (requestId : RequestId)
    (input : AttestationInput) : Except Panic (Storage × UInt64) := do
  input.issuer.requireAuth env
  checkAttestor s input.issuer
  verifyAttestationSignature host s input.issuer input.payloadHash input.signature
  let s ← enforceRateLimit env s input.issuer
  checkTimestamp input.timestamp
  checkNotUsed env s input.issuer input.payloadHash
  let (s, id) ← acceptAttestation s input
  let s := storeSpan s requestId "submit_attestation" input.issuer env.timestamp "success"
  let s := recordOperationInContext env s requestId.id "submit_attestation"
  let s := publishSubmission s id input
  return (ReplayDetection.recordAcceptedEvent env s, id)

/-- A payload enters a session once, whoever attests it. -/
def claimSessionRequest (env : Env) (s : Storage) (sessionId : UInt64) (issuer : Address)
    (payloadHash : Bytes) : Except Panic Storage := do
  if s.sessions.request.has (sessionId, payloadHash) then
    ReplayDetection.rejectReplay env s payloadHash issuer
  return { s with sessions := { s.sessions with
    request := s.sessions.request.set (sessionId, payloadHash) true } }

def bumpSessionNonce (s : Storage) (sessionId : UInt64) : Except Panic Storage := do
  let session ← expect (s.sessions.session.get sessionId) (.withError .sessionNotFound)
  let nonce ← add64 session.nonce 1
  return s.setSession sessionId { session with nonce := nonce }

def submitAttestationWithSession (host : Host) (env : Env) (s : Storage) (sessionId : UInt64)
    (input : AttestationInput) : Except Panic (Storage × UInt64) := do
  input.issuer.requireAuth env
  let s ← requireSessionOpen env s sessionId
  checkAttestor s input.issuer
  verifyAttestationSignature host s input.issuer input.payloadHash input.signature
  let s ← enforceRateLimit env s input.issuer
  checkTimestamp input.timestamp
  let s ← claimSessionRequest env s sessionId input.issuer input.payloadHash
  checkNotUsed env s input.issuer input.payloadHash
  let (s, id) ← acceptAttestation s input
  let s ← bumpSessionNonce s sessionId
  let (s, opIndex, logId) ← recordSessionOperation env s sessionId input.issuer "attest" id
  let s := s.publish (.attestRecorded id input.subject input.payloadHash input.timestamp)
  let s := s.publish (.auditLogged logId sessionId opIndex "attest" "success" 0)
  return (ReplayDetection.recordAcceptedEvent env s, id)

def AttestationStore.accept (st : AttestationStore) (input : AttestationInput) : AttestationStore where
  counter := st.counter + 1
  record := st.record.set st.counter
    { id := st.counter, issuer := input.issuer, subject := input.subject,
      timestamp := input.timestamp, payloadHash := input.payloadHash, signature := input.signature,
      schemaVersion := schemaV1 }
  index := st.index ++ [st.counter]
  used := st.used.set (input.issuer, input.payloadHash) st.counter

def AttestationStore.HasRoom (st : AttestationStore) : Prop := st.counter.toNat + 1 < 2 ^ 64

/-- What every single-submission path has checked and written when it succeeds. -/
structure Submitted (host : Host) (env : Env) (input : AttestationInput) (s s' : Storage) :
    Prop where
  registered : s.registry.attestor.has input.issuer = true
  signed : SignedBy host s.registry.publicKey input.issuer input.payloadHash input.signature
  timestamp_ne : input.timestamp ≠ 0
  fresh : s.attestations.used.get (input.issuer, input.payloadHash) = none
  room : s.attestations.HasRoom
  accepted : s'.attestations = s.attestations.accept input

section Effects

variable {host : Host} {env : Env} {s s' : Storage} {input : AttestationInput}

@[simp] theorem checkNotUsed_eq_ok {issuer : Address} {payloadHash : Bytes} {u : Unit} :
    checkNotUsed env s issuer payloadHash = .ok u ↔
      s.attestations.used.get (issuer, payloadHash) = none := by
  rw [← KeyedStore.has_eq_false_iff]
  unfold checkNotUsed
  cases s.attestations.used.has (issuer, payloadHash) <;> simp

@[simp] theorem checkTimestamp_eq_ok {timestamp : UInt64} {u : Unit} :
    checkTimestamp timestamp = .ok u ↔ timestamp ≠ 0 := require_eq_ok

theorem acceptAttestation_effects {id : UInt64} (h : acceptAttestation s input = .ok (s', id)) :
    id = s.attestations.counter ∧ s.attestations.HasRoom ∧
      s' = { s with attestations := s.attestations.accept input } := by
  simp only [acceptAttestation, nextAttestationId, storeAttestation, bind_eq_ok, require_eq_ok,
    pure_eq_ok] at h
  obtain ⟨⟨t, id'⟩, ⟨_, hroom, ht⟩, h⟩ := h
  obtain ⟨rfl, rfl⟩ := Prod.mk.inj ht
  obtain ⟨rfl, rfl⟩ := Prod.mk.inj h
  have hlt := s.attestations.counter.toNat_lt
  refine ⟨rfl, ?_, rfl⟩
  unfold AttestationStore.HasRoom
  omega

theorem submitAttestation_effects {id : UInt64}
    (h : submitAttestation host env s input = .ok (s', id)) :
    Submitted host env input s s' ∧ ∃ t, enforceRateLimit env s input.issuer = .ok t ∧
      ∃ attestations events, s' = { t with
        attestations := attestations, replay := (ReplayDetection.recordAcceptedEvent env s).replay,
        events := events } := by
  simp only [submitAttestation, bind_eq_ok, require_eq_ok, checkAttestor_eq_ok,
    verifyAttestationSignature_eq_ok, checkTimestamp_eq_ok, checkNotUsed_eq_ok, pure_eq_ok] at h
  obtain ⟨_, _, _, _, _, hreg, _, hsig, _, hts, _, hfresh, t, hlimit, ⟨u, _⟩, hacc, h⟩ := h
  obtain ⟨rfl, -⟩ := Prod.mk.inj h
  obtain ⟨limits, ring, events, ht⟩ := enforceRateLimit_frame hlimit
  obtain ⟨-, hroom, rfl⟩ := acceptAttestation_effects hacc
  subst ht
  exact ⟨⟨hreg, hsig, hts, hfresh, hroom, rfl⟩, _, hlimit, _, _, rfl⟩

theorem submitAttestationKycCheck_effects {requireKyc : Bool} {id : UInt64}
    (h : submitAttestationKycCheck host env s input requireKyc = .ok (s', id)) :
    Submitted host env input s s' ∧ ∃ t, enforceRateLimit env s input.issuer = .ok t ∧
      ∃ attestations events, s' = { t with
        attestations := attestations, replay := (ReplayDetection.recordAcceptedEvent env s).replay,
        events := events } := by
  simp only [submitAttestationKycCheck, bind_eq_ok, checkAttestor_eq_ok,
    verifyAttestationSignature_eq_ok, checkTimestamp_eq_ok, checkNotUsed_eq_ok, pure_eq_ok] at h
  obtain ⟨_, _, _, hreg, _, hsig, _, hts, _, _, _, hfresh, t, hlimit, ⟨u, _⟩, hacc, h⟩ := h
  obtain ⟨rfl, -⟩ := Prod.mk.inj h
  obtain ⟨limits, ring, events, ht⟩ := enforceRateLimit_frame hlimit
  obtain ⟨-, hroom, rfl⟩ := acceptAttestation_effects hacc
  subst ht
  exact ⟨⟨hreg, hsig, hts, hfresh, hroom, rfl⟩, _, hlimit, _, _, rfl⟩

theorem submitWithRequestId_effects {requestId : RequestId} {id : UInt64}
    (h : submitWithRequestId host env s requestId input = .ok (s', id)) :
    Submitted host env input s s' ∧ ∃ t, enforceRateLimit env s input.issuer = .ok t ∧
      ∃ attestations context events, s' = { t with
        attestations := attestations, replay := (ReplayDetection.recordAcceptedEvent env s).replay,
        tracing := { s.tracing with
          span := s.tracing.span.set requestId.id
            { requestId, operation := "submit_attestation", actor := input.issuer,
              startedAt := env.timestamp, completedAt := env.timestamp, status := "success",
              parentRequestIdBytes := [], spanIndex := 0 }
          context := context },
        events := events } := by
  simp only [submitWithRequestId, bind_eq_ok, checkAttestor_eq_ok,
    verifyAttestationSignature_eq_ok, checkTimestamp_eq_ok, checkNotUsed_eq_ok, pure_eq_ok] at h
  obtain ⟨_, _, _, hreg, _, hsig, t, hlimit, _, hts, _, hfresh, ⟨u, _⟩, hacc, h⟩ := h
  obtain ⟨rfl, -⟩ := Prod.mk.inj h
  obtain ⟨limits, ring, events, ht⟩ := enforceRateLimit_frame hlimit
  obtain ⟨-, hroom, rfl⟩ := acceptAttestation_effects hacc
  subst ht
  exact ⟨⟨hreg, hsig, hts, hfresh, hroom, rfl⟩, _, hlimit, _, _, _, rfl⟩

theorem claimSessionRequest_effects {sessionId : UInt64} {issuer : Address} {payloadHash : Bytes}
    (h : claimSessionRequest env s sessionId issuer payloadHash = .ok s') :
    s' = { s with sessions := { s.sessions with
      request := s.sessions.request.set (sessionId, payloadHash) true } } := by
  simp only [claimSessionRequest] at h
  split at h
  · simp only [bind_eq_ok] at h
    obtain ⟨_, hreject, _⟩ := h
    exact absurd hreject ReplayDetection.rejectReplay_ne_ok
  · exact (pure_eq_ok.mp h).symm

theorem bumpSessionNonce_effects {sessionId : UInt64}
    (h : bumpSessionNonce s sessionId = .ok s') :
    ∃ session nonce, s.sessions.session.get sessionId = some session ∧
      nonce.toNat = session.nonce.toNat + 1 ∧
      s' = s.setSession sessionId { session with nonce := nonce } := by
  simp only [bumpSessionNonce, bind_eq_ok, expect_eq_ok, add64_eq_ok, pure_eq_ok] at h
  obtain ⟨session, hsession, nonce, hnonce, rfl⟩ := h
  exact ⟨session, nonce, hsession, by simpa using hnonce.symm, rfl⟩

/-- The session path charges the limiter on the storage in which the session is already active. -/
theorem submitAttestationWithSession_effects {sessionId : UInt64} {id : UInt64}
    (h : submitAttestationWithSession host env s sessionId input = .ok (s', id)) :
    Submitted host env input s s' ∧
      SessionOperated env sessionId true s.sessions s'.sessions ∧
      ∃ r t, requireSessionOpen env s sessionId = .ok r ∧
        enforceRateLimit env r input.issuer = .ok t ∧
        ∃ sessions attestations events, s' = { t with
          sessions := sessions, attestations := attestations,
          replay := (ReplayDetection.recordAcceptedEvent env s).replay, events := events } := by
  simp only [submitAttestationWithSession, bind_eq_ok, checkAttestor_eq_ok,
    verifyAttestationSignature_eq_ok, checkTimestamp_eq_ok, checkNotUsed_eq_ok, pure_eq_ok] at h
  obtain ⟨_, _, r, hopen, _, hreg, _, hsig, t, hlimit, _, hts, v, hclaim, _, hfresh, ⟨w, id'⟩, hacc,
    x, hnonce, ⟨y, opIndex, logId⟩, hrecord, h⟩ := h
  obtain ⟨rfl, -⟩ := Prod.mk.inj h
  obtain ⟨hlimitOps, session, hsession, hlive, rfl⟩ := requireSessionOpen_effects hopen
  obtain ⟨limits, ring, events, ht⟩ := enforceRateLimit_frame hlimit
  obtain rfl := claimSessionRequest_effects hclaim
  obtain ⟨-, hroom, rfl⟩ := acceptAttestation_effects hacc
  obtain ⟨session', nonce, hsession', hnonce', rfl⟩ := bumpSessionNonce_effects hnonce
  obtain ⟨opCount, auditCount, hop, haudit, rfl⟩ := recordSessionOperation_effects hrecord
  subst ht
  have hactive : session' = { session with state := SessionState.active.toU32 } := by
    simpa [Storage.setSession] using hsession'.symm
  subst hactive
  refine ⟨⟨hreg, hsig, hts, hfresh, hroom, rfl⟩, ⟨hlimitOps, ?_⟩, _, _, hopen, hlimit, _, _, _,
    rfl⟩
  refine ⟨session, nonce, opCount, auditCount,
    s.sessions.request.set (sessionId, input.payloadHash) true,
    s.sessions.nextEntry env sessionId input.issuer "attest" id', hsession, hlive, hnonce', hop,
    haudit, rfl, rfl, rfl, rfl, ?_⟩
  change SessionStore.mk _ _ _ _ _ _ _ = SessionStore.mk _ _ _ _ _ _ _
  congr 1
  exact KeyedStore.set_set _ _ _ _

def AttestationStore.acceptAll (st : AttestationStore) (inputs : List AttestationInput) :
    AttestationStore := inputs.foldl AttestationStore.accept st

theorem checkBatchEntries_eq_ok {inputs : List AttestationInput} {u : Unit} :
    checkBatchEntries host s inputs = .ok u ↔ ∀ entry ∈ inputs,
      SignedBy host s.registry.publicKey entry.issuer entry.payloadHash entry.signature ∧
        entry.timestamp ≠ 0 ∧
        s.attestations.used.get (entry.issuer, entry.payloadHash) = none := by
  induction inputs with
  | nil => simp [checkBatchEntries]
  | cons entry rest ih =>
    simp only [checkBatchEntries, bind_eq_ok, verifyAttestationSignature_eq_ok,
      checkTimestamp_eq_ok, require_eq_ok, KeyedStore.has_eq_false_iff, ih, List.forall_mem_cons]
    constructor
    · rintro ⟨_, hsig, _, hts, _, hfresh, hrest⟩
      exact ⟨⟨hsig, hts, hfresh⟩, hrest⟩
    · rintro ⟨⟨hsig, hts, hfresh⟩, hrest⟩
      exact ⟨(), hsig, (), hts, (), hfresh, hrest⟩

theorem counter_accept_toNat {st : AttestationStore} (h : st.HasRoom) (input : AttestationInput) :
    (st.accept input).counter.toNat = st.counter.toNat + 1 := by
  change (st.counter + 1).toNat = _
  rw [UInt64.toNat_add]
  exact Nat.mod_eq_of_lt h

theorem counter_acceptAll_toNat {st : AttestationStore} {inputs : List AttestationInput}
    (h : st.counter.toNat + inputs.length < 2 ^ 64) :
    (st.acceptAll inputs).counter.toNat = st.counter.toNat + inputs.length := by
  induction inputs generalizing st with
  | nil => rfl
  | cons entry rest ih =>
    rw [List.length_cons] at h ⊢
    have hroom : st.HasRoom := by
      unfold AttestationStore.HasRoom
      omega
    have hnext := counter_accept_toNat hroom entry
    change ((st.accept entry).acceptAll rest).counter.toNat = _
    rw [ih (by omega), hnext]
    omega

theorem storeBatchEntries_effects {inputs : List AttestationInput} {ids : List UInt64}
    (h : storeBatchEntries s inputs = .ok (s', ids)) :
    s.attestations.counter.toNat + inputs.length < 2 ^ 64 ∧
      s' = { s with attestations := s.attestations.acceptAll inputs } := by
  induction inputs generalizing s ids with
  | nil =>
    obtain ⟨rfl, -⟩ := Prod.mk.inj (Except.ok.inj h)
    exact ⟨s.attestations.counter.toNat_lt, rfl⟩
  | cons entry rest ih =>
    simp only [storeBatchEntries, bind_eq_ok, pure_eq_ok] at h
    obtain ⟨⟨t, id⟩, hacc, ⟨u, ids'⟩, hrest, h⟩ := h
    obtain ⟨rfl, -⟩ := Prod.mk.inj h
    obtain ⟨-, hroom, rfl⟩ := acceptAttestation_effects hacc
    obtain ⟨hcount, rfl⟩ := ih hrest
    have hnext := counter_accept_toNat hroom entry
    refine ⟨?_, rfl⟩
    rw [List.length_cons]
    simp only [hnext] at hcount
    omega

/-- A batch is checked entry by entry against the storage before it and then written whole. Only
the caller's registration is checked, and only the caller is charged. -/
theorem submitAttestationBatch_effects {caller : Address} {inputs : List AttestationInput}
    {ids : List UInt64} (h : submitAttestationBatch host env s caller inputs = .ok (s', ids)) :
    s.registry.attestor.has caller = true ∧ inputs.length ≤ maxBatchSize ∧
      (∀ entry ∈ inputs,
        SignedBy host s.registry.publicKey entry.issuer entry.payloadHash entry.signature ∧
          entry.timestamp ≠ 0 ∧
          s.attestations.used.get (entry.issuer, entry.payloadHash) = none) ∧
      s.attestations.counter.toNat + inputs.length < 2 ^ 64 ∧
      ∃ t, (if inputs = [] then t = s
          else chargeBatch env s caller (UInt32.ofNat inputs.length) = .ok t) ∧
        s' = { t with attestations := s.attestations.acceptAll inputs } := by
  simp only [submitAttestationBatch, bind_eq_ok, checkAttestor_eq_ok, require_eq_ok] at h
  obtain ⟨_, _, _, hreg, _, hsize, h⟩ := h
  cases inputs with
  | nil =>
    obtain ⟨rfl, -⟩ := Prod.mk.inj (pure_eq_ok.mp h)
    exact ⟨hreg, hsize, by simp, s.attestations.counter.toNat_lt, s, by simp, rfl⟩
  | cons entry rest =>
    rw [if_neg (by simp)] at h
    simp only [bind_eq_ok] at h
    obtain ⟨t, hcharge, _, hcheck, hstore⟩ := h
    obtain ⟨-, ht⟩ := chargeBatch_effects hcharge
    obtain ⟨hcount, rfl⟩ := storeBatchEntries_effects hstore
    have hentries := checkBatchEntries_eq_ok.mp hcheck
    rw [ht] at hcount hentries ⊢
    rw [ht] at hcharge
    exact ⟨hreg, hsize, hentries, hcount, _, by rw [if_neg (by simp)]; exact hcharge, rfl⟩

end Effects

end AnchorKit
