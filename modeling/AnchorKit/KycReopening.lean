import AnchorKit.Contract

/-!
# Submitting again after a rejection

A rejected subject waits until a day after the submission. A reopening is documented to lift that
wait, but it keeps the time of the submission, and the wait is read from there.
-/

namespace AnchorKit

open Fallible

def KycRecord.CooldownElapsed (record : KycRecord) (now : UInt64) : Prop :=
  record.submittedAt.toNat + 86400 ≤ now.toNat

instance (record : KycRecord) (now : UInt64) : Decidable (record.CooldownElapsed now) := by
  unfold KycRecord.CooldownElapsed
  infer_instance

section Resubmission

variable {env : Env} {s s' : Storage} {operator subject attestor : Address} {record : KycRecord}
  {dataHash : Bytes}

theorem cooldownElapsed_iff {now : UInt64} :
    record.CooldownElapsed now ↔ ¬ Word.saturatingSub64 now record.submittedAt < 86400 := by
  have hday : (86400 : UInt64).toNat = 86400 := by decide
  rw [KycRecord.CooldownElapsed, UInt64.lt_iff_toNat_lt, Word.toNat_saturatingSub64, hday]
  omega

/-- Once the wait is over, a rejected or reopened subject may go back to pending, expired or not. -/
theorem validate_pending_iff {now : UInt64} {status : KycStatus}
    (hstatus : status ∈ [KycStatus.rejected, .reopened, .expired]) :
    validateKycTransition status .pending record now = true ↔ record.CooldownElapsed now := by
  have hedge : status = .rejected ∨ status = .reopened ∨ status = .expired := by simpa using hstatus
  rw [cooldownElapsed_iff]
  rcases hedge with rfl | rfl | rfl <;> simp [validateKycTransition]

theorem succeeds_submitKyc : Succeeds (submitKyc env s subject dataHash attestor) ↔
    attestor ∈ env.authorized ∧ s.registry.attestor.has attestor = true ∧
      Succeeds (checkResubmission env s subject) := by
  constructor
  · rintro ⟨s', h⟩
    obtain ⟨hauth, hregistered, hcheck, _⟩ := submitKyc_effects h
    exact ⟨hauth, hregistered, (), hcheck⟩
  · rintro ⟨hauth, hregistered, _, hcheck⟩
    simp only [submitKyc, succeeds_bind, requireAuth_eq_ok, checkAttestor_eq_ok]
    exact ⟨(), hauth, (), hregistered, (), hcheck, succeeds_pure _⟩

theorem succeeds_resubmission (dataHash : Bytes)
    (hget : s.kyc.record.get subject = some record)
    (hstatus : KycStatus.fromU32 record.status ∈ [KycStatus.rejected, .reopened])
    (hregistered : s.registry.attestor.has attestor = true) (hauth : attestor ∈ env.authorized) :
    Succeeds (submitKyc env s subject dataHash attestor) ↔
      record.CooldownElapsed env.timestamp := by
  have hcurrent : currentKycStatus env record ∈ [KycStatus.rejected, .reopened, .expired] := by
    unfold currentKycStatus
    split
    · split
      · decide
      · exact List.mem_append_left [_] hstatus
    · exact List.mem_append_left [_] hstatus
  rw [succeeds_submitKyc, ← validate_pending_iff hcurrent, checkResubmission, hget]
  simp only [hregistered, hauth, true_and]
  exact succeeds_require

/-- A reopening leaves the time that the wait is counted from. -/
theorem succeeds_after_reopening {later : Env} (dataHash : Bytes)
    (hget : s.kyc.record.get subject = some record)
    (hregistered : s.registry.attestor.has attestor = true)
    (hreopen : reopenKyc env s operator subject = .ok s') (hauth : attestor ∈ later.authorized) :
    Succeeds (submitKyc later s' subject dataHash attestor) ↔
      record.CooldownElapsed later.timestamp := by
  obtain ⟨_, old, hold, _, ring, events, rfl⟩ := reopenKyc_effects hreopen
  obtain rfl := Option.some.inj (hget.symm.trans hold)
  have hstatus : KycStatus.fromU32 (record.reopened env.timestamp).status ∈
      [KycStatus.rejected, .reopened] := by
    change KycStatus.fromU32 KycStatus.reopened.toU32 ∈ _
    decide
  have hstored : ({ s with
      kyc := { s.kyc with record := s.kyc.record.set subject (record.reopened env.timestamp) }
      adminAudit := ring, events := events } : Storage).kyc.record.get subject =
        some (record.reopened env.timestamp) := KeyedStore.get_set_self _ _ _
  have hresubmission := succeeds_resubmission dataHash hstored hstatus hregistered hauth
  exact hresubmission

end Resubmission

/-- An attestor that signs can submit for the subject from `since` on. -/
def ResubmitsFrom (since : UInt64) (s : Storage) (subject attestor : Address) : Prop :=
  ∀ env dataHash, since ≤ env.timestamp → attestor ∈ env.authorized →
    Succeeds (submitKyc env s subject dataHash attestor)

/-- Without a reopening an attestor can submit for a rejected subject exactly when the wait is over,
and a reopening lets it submit at once exactly when the wait was over already. -/
theorem reopening_lifts_wait_iff {s : Storage} {subject attestor : Address} {record : KycRecord}
    (hget : s.kyc.record.get subject = some record)
    (hrejected : record.status = KycStatus.rejected.toU32)
    (hregistered : s.registry.attestor.has attestor = true) :
    (∀ env dataHash, attestor ∈ env.authorized →
      (Succeeds (submitKyc env s subject dataHash attestor) ↔
        record.CooldownElapsed env.timestamp)) ∧
    ∀ env operator s', reopenKyc env s operator subject = .ok s' →
      (ResubmitsFrom env.timestamp s' subject attestor ↔
        record.CooldownElapsed env.timestamp) := by
  constructor
  · intro env dataHash hauth
    refine succeeds_resubmission dataHash hget ?_ hregistered hauth
    rw [hrejected]
    decide
  · intro env operator s' hreopen
    have hresubmission (later : Env) (dataHash : Bytes) (hauth : attestor ∈ later.authorized) :=
      succeeds_after_reopening dataHash hget hregistered hreopen hauth
    constructor
    · intro hresubmits
      have hauth : attestor ∈ (env.signedBy [attestor]).authorized := List.mem_singleton_self _
      exact (hresubmission _ [] hauth).mp (hresubmits _ [] (UInt64.le_refl _) hauth)
    · intro hover later dataHash hlater hauth
      rw [UInt64.le_iff_toNat_le] at hlater
      exact (hresubmission later dataHash hauth).mpr (Nat.le_trans hover hlater)

namespace Demo

def rejectedBob : List Input :=
  [deploy, openSession, sessionRegister alice 7, onLedger 1 (.submitKyc bob [1] alice),
    onLedger 1 (.rejectKyc admin bob [2])]

def rejectedRecord : KycRecord :=
  { subject := bob, status := 3, submittedAt := 1000, reviewedAt := some 1000, expiry := none,
    rejectionReasonHash := some [2], schemaVersion := 1 }

def reopenedBob (time : UInt64) : Storage :=
  Machine.run (step host) (run host rejectedBob) [(⟨time, 2, [admin]⟩, .reopenKyc admin bob)]

end Demo

/-- A day after the submission a reopening lets `alice` submit for `bob` at once. -/
theorem late_reopening_lifts_wait :
    ResubmitsFrom 87400 (Demo.reopenedBob 87400) Demo.bob Demo.alice :=
  ((@reopening_lifts_wait_iff (run Demo.host Demo.rejectedBob) Demo.bob Demo.alice
    Demo.rejectedRecord (by decide) (by decide) (by decide)).2 ⟨87400, 2, [Demo.admin]⟩ Demo.admin
    (Demo.reopenedBob 87400) rfl).mpr (by decide)

/-- In the second of the rejection a reopening leaves `bob` waiting for the rest of the day. -/
theorem early_reopening_keeps_wait :
    ¬ ∀ s subject attestor record, s.kyc.record.get subject = some record →
      record.status = KycStatus.rejected.toU32 → s.registry.attestor.has attestor = true →
      ∀ env operator s', reopenKyc env s operator subject = .ok s' →
        ResubmitsFrom env.timestamp s' subject attestor := by
  intro h
  have hagain := h (run Demo.host Demo.rejectedBob) Demo.bob Demo.alice Demo.rejectedRecord
    (by decide) (by decide) (by decide) ⟨1000, 2, [Demo.admin]⟩ Demo.admin
    (Demo.reopenedBob 1000) rfl ⟨1000, 2, [Demo.alice]⟩ [3] (by decide) (by decide)
  have hget : (run Demo.host Demo.rejectedBob).kyc.record.get Demo.bob =
      some Demo.rejectedRecord := by decide
  have hreopen : reopenKyc ⟨1000, 2, [Demo.admin]⟩ (run Demo.host Demo.rejectedBob) Demo.admin
      Demo.bob = .ok (Demo.reopenedBob 1000) := rfl
  have hover := (succeeds_after_reopening [3] hget (by decide) hreopen (by decide)).mp hagain
  revert hover
  decide

end AnchorKit
