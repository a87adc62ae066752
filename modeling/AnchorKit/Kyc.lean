import AnchorKit.Registry

/-!
# KYC records

The review cycle of a subject: submission by an attestor, approval, rejection and reopening by a
reviewer, with expiry read lazily from the record.
-/

namespace AnchorKit

open Fallible

inductive KycStatus
  | notSubmitted
  | pending
  | approved
  | rejected
  | expired
  | reopened
deriving DecidableEq, Repr

namespace KycStatus

def toU32 : KycStatus → UInt32
  | .notSubmitted => 0
  | .pending => 1
  | .approved => 2
  | .rejected => 3
  | .expired => 4
  | .reopened => 5

def fromU32 (v : UInt32) : KycStatus :=
  if v = 1 then .pending
  else if v = 2 then .approved
  else if v = 3 then .rejected
  else if v = 4 then .expired
  else if v = 5 then .reopened
  else .notSubmitted

end KycStatus

def kycExpirySeconds : UInt64 := 2592000

def currentKycStatus (env : Env) (record : KycRecord) : KycStatus :=
  match record.expiry with
  | some expiry => if expiry < env.timestamp then .expired else .fromU32 record.status
  | none => .fromU32 record.status

def getKycStatusInternal (env : Env) (s : Storage) (subject : Address) : KycStatus :=
  match s.kyc.record.get subject with
  | some record => currentKycStatus env record
  | none => .notSubmitted

def getKycStatus (env : Env) (s : Storage) (subject : Address) : KycStatus :=
  getKycStatusInternal env s subject

/-- A resubmission waits a day after the last one, whatever edge it takes. -/
def validateKycTransition (current next : KycStatus) (record : KycRecord) (now : UInt64) : Bool :=
  if next = .pending ∧ Word.saturatingSub64 now record.submittedAt < 86400 then false
  else
    match current, next with
    | .notSubmitted, .pending | .expired, .pending | .rejected, .pending | .reopened, .pending
    | .pending, .approved | .pending, .rejected | .rejected, .reopened => true
    | _, _ => false

/-- A subject with a record on file must be allowed to return to `Pending`. -/
def checkResubmission (env : Env) (s : Storage) (subject : Address) : Except Panic Unit :=
  match s.kyc.record.get subject with
  | some existing =>
    require (validateKycTransition (currentKycStatus env existing) .pending existing env.timestamp
      = true) (.withError .complianceNotMet)
  | none => .ok ()

def submitKyc (env : Env) (s : Storage) (subject : Address) (dataHash : Bytes)
    (attestor : Address) : Except Panic Storage := do
  attestor.requireAuth env
  checkAttestor s attestor
  let now := env.timestamp
  checkResubmission env s subject
  let record : KycRecord :=
    { subject, status := KycStatus.pending.toU32, submittedAt := now, reviewedAt := none,
      expiry := none, rejectionReasonHash := none, schemaVersion := 1 }
  let s := { s with kyc := { s.kyc with
    record := s.kyc.record.set subject record, dataHash := s.kyc.dataHash.set subject dataHash } }
  return s.publish (.kycSubmitted subject now dataHash)

def requireKycReviewer (env : Env) (s : Storage) (operator : Address) : Except Panic Unit := do
  require (hasRoleInternal s operator .kycAdmin || hasCapabilityInternal s operator .manageKyc)
    (.withError .unauthorized)
  operator.requireAuth env

/-- The shared body of a review: check the edge, apply `change` to the record, log and publish. -/
def reviewKyc (env : Env) (s : Storage) (operator subject : Address) (next : KycStatus)
    (change : KycRecord → Except Panic KycRecord) (changeType oldValue newValue : String) :
    Except Panic Storage := do
  let record ← expect (s.kyc.record.get subject) (.withError .kycNotFound)
  require (validateKycTransition (currentKycStatus env record) next record env.timestamp = true)
    (.withError .illegalTransition)
  let record ← change record
  let s := { s with kyc := { s.kyc with record := s.kyc.record.set subject record } }
  let s ← AdminAuditLog.logAction env s operator changeType subject.toText oldValue newValue
  return s.publish (.kycStatusChanged subject next.toU32 env.timestamp)

def approveKyc (env : Env) (s : Storage) (operator subject : Address) : Except Panic Storage := do
  requireKycReviewer env s operator
  let change (record : KycRecord) : Except Panic KycRecord := do
    let expiry ← add64 env.timestamp kycExpirySeconds
    return { record with
      status := KycStatus.approved.toU32, reviewedAt := some env.timestamp, expiry := some expiry }
  reviewKyc env s operator subject .approved change "approve_kyc" "Pending" "Approved"

def rejectKyc (env : Env) (s : Storage) (operator subject : Address) (reasonHash : Bytes) :
    Except Panic Storage := do
  requireKycReviewer env s operator
  let change (record : KycRecord) : Except Panic KycRecord :=
    .ok { record with
      status := KycStatus.rejected.toU32, reviewedAt := some env.timestamp, expiry := none,
      rejectionReasonHash := some reasonHash }
  reviewKyc env s operator subject .rejected change "reject_kyc" "Pending" "Rejected"

def reopenKyc (env : Env) (s : Storage) (operator subject : Address) : Except Panic Storage := do
  requireAdminOrRole env s operator .kycAdmin
  let change (record : KycRecord) : Except Panic KycRecord :=
    .ok { record with status := KycStatus.reopened.toU32, reviewedAt := some env.timestamp }
  reviewKyc env s operator subject .reopened change "reopen_kyc" "Rejected" "Reopened"

@[simp] theorem requireKycReviewer_eq_ok {env : Env} {s : Storage} {operator : Address} {u : Unit} :
    requireKycReviewer env s operator = .ok u ↔
      (hasRoleInternal s operator .kycAdmin = true ∨
        hasCapabilityInternal s operator .manageKyc = true) ∧ operator ∈ env.authorized := by
  simp [requireKycReviewer]

section Effects

variable {env : Env} {s s' : Storage} {operator subject : Address}

/-- The record a submission at `now` starts over with. -/
def KycRecord.submitted (subject : Address) (now : UInt64) : KycRecord :=
  { subject, status := KycStatus.pending.toU32, submittedAt := now, reviewedAt := none,
    expiry := none, rejectionReasonHash := none, schemaVersion := schemaV1 }

theorem submitKyc_effects {dataHash : Bytes} {attestor : Address}
    (h : submitKyc env s subject dataHash attestor = .ok s') :
    attestor ∈ env.authorized ∧ s.registry.attestor.has attestor = true ∧
      checkResubmission env s subject = .ok () ∧
      ∃ hashes events, s' = { s with
        kyc := ⟨s.kyc.record.set subject (.submitted subject env.timestamp), hashes⟩
        events := events } := by
  simp only [submitKyc, bind_eq_ok, requireAuth_eq_ok, checkAttestor_eq_ok, pure_eq_ok] at h
  obtain ⟨_, hauth, _, hregistered, _, hcheck, rfl⟩ := h
  exact ⟨hauth, hregistered, hcheck, _, _, rfl⟩

/-- A review goes over a documented edge and rewrites the record on file. -/
theorem reviewKyc_effects {next : KycStatus} {change : KycRecord → Except Panic KycRecord}
    {changeType oldValue newValue : String}
    (h : reviewKyc env s operator subject next change changeType oldValue newValue = .ok s') :
    ∃ record new, s.kyc.record.get subject = some record ∧
      validateKycTransition (currentKycStatus env record) next record env.timestamp = true ∧
      change record = .ok new ∧
      ∃ ring events, s' = { s with
        kyc := { s.kyc with record := s.kyc.record.set subject new }
        adminAudit := ring, events := events } := by
  simp only [reviewKyc, bind_eq_ok, expect_eq_ok, require_eq_ok, pure_eq_ok] at h
  obtain ⟨record, hget, _, hedge, new, hchange, _, hlog, rfl⟩ := h
  obtain ⟨_, _, rfl⟩ := AdminAuditLog.logAction_frame hlog
  exact ⟨record, new, hget, hedge, hchange, _, _, rfl⟩

/-- What each review makes of the record on file. -/
def KycRecord.approved (record : KycRecord) (now expiry : UInt64) : KycRecord :=
  { record with status := KycStatus.approved.toU32, reviewedAt := some now, expiry := some expiry }

def KycRecord.rejected (record : KycRecord) (now : UInt64) (reasonHash : Bytes) : KycRecord :=
  { record with
    status := KycStatus.rejected.toU32, reviewedAt := some now, expiry := none,
    rejectionReasonHash := some reasonHash }

def KycRecord.reopened (record : KycRecord) (now : UInt64) : KycRecord :=
  { record with status := KycStatus.reopened.toU32, reviewedAt := some now }

theorem approveKyc_effects (h : approveKyc env s operator subject = .ok s') :
    requireKycReviewer env s operator = .ok () ∧
      ∃ record expiry, s.kyc.record.get subject = some record ∧
        validateKycTransition (currentKycStatus env record) .approved record env.timestamp = true ∧
        env.timestamp.toNat + kycExpirySeconds.toNat = expiry.toNat ∧
        ∃ ring events, s' = { s with
          kyc := { s.kyc with
            record := s.kyc.record.set subject (record.approved env.timestamp expiry) }
          adminAudit := ring, events := events } := by
  simp only [approveKyc, bind_eq_ok] at h
  obtain ⟨_, hreviewer, h⟩ := h
  obtain ⟨record, new, hget, hedge, hchange, ring, events, rfl⟩ := reviewKyc_effects h
  simp only [bind_eq_ok, add64_eq_ok, pure_eq_ok] at hchange
  obtain ⟨expiry, hexpiry, rfl⟩ := hchange
  exact ⟨hreviewer, record, expiry, hget, hedge, hexpiry, ring, events, rfl⟩

theorem rejectKyc_effects {reasonHash : Bytes}
    (h : rejectKyc env s operator subject reasonHash = .ok s') :
    requireKycReviewer env s operator = .ok () ∧
      ∃ record, s.kyc.record.get subject = some record ∧
        validateKycTransition (currentKycStatus env record) .rejected record env.timestamp = true ∧
        ∃ ring events, s' = { s with
          kyc := { s.kyc with
            record := s.kyc.record.set subject (record.rejected env.timestamp reasonHash) }
          adminAudit := ring, events := events } := by
  simp only [rejectKyc, bind_eq_ok] at h
  obtain ⟨_, hreviewer, h⟩ := h
  obtain ⟨record, new, hget, hedge, hchange, ring, events, rfl⟩ := reviewKyc_effects h
  obtain rfl := Except.ok.inj hchange
  exact ⟨hreviewer, record, hget, hedge, ring, events, rfl⟩

theorem reopenKyc_effects (h : reopenKyc env s operator subject = .ok s') :
    requireAdminOrRole env s operator .kycAdmin = .ok () ∧
      ∃ record, s.kyc.record.get subject = some record ∧
        validateKycTransition (currentKycStatus env record) .reopened record env.timestamp = true ∧
        ∃ ring events, s' = { s with
          kyc := { s.kyc with
            record := s.kyc.record.set subject (record.reopened env.timestamp) }
          adminAudit := ring, events := events } := by
  simp only [reopenKyc, bind_eq_ok] at h
  obtain ⟨_, hreviewer, h⟩ := h
  obtain ⟨record, new, hget, hedge, hchange, ring, events, rfl⟩ := reviewKyc_effects h
  obtain rfl := Except.ok.inj hchange
  exact ⟨hreviewer, record, hget, hedge, ring, events, rfl⟩

end Effects

end AnchorKit
