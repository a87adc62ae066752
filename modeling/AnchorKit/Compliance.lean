import AnchorKit.Access
import AnchorKit.Library.Roster

/-!
# Compliance checks

The admin records the outcome of checks; routing and acceptance look at the latest one of type
`kyc`.
-/

namespace AnchorKit

open Fallible
open Roster (pushIfAbsent)

def appendComplianceHistory (st : ComplianceStore) (record : ComplianceCheck) :
    Except Panic ComplianceStore := do
  let key := (record.subject, record.checkType)
  let idx := (st.historyCount.get key).getD 0
  let count ← add64 idx 1
  return { st with
    history := st.history.set (record.subject, record.checkType, idx) record
    historyCount := st.historyCount.set key count }

def recordComplianceCheck (env : Env) (s : Storage) (subject : Address) (checkType : String)
    (passed : Bool) (score : Option UInt32) : Except Panic Storage := do
  requireAdmin env s
  let record : ComplianceCheck :=
    { subject, checkType, result := if passed then 1 else 0, score, timestamp := env.timestamp }
  let st := { s.compliance with check := s.compliance.check.set (subject, checkType) record }
  let st ← appendComplianceHistory st record
  let checkTypes := (st.index.get subject).getD []
  let st := { st with index := st.index.set subject (pushIfAbsent checkTypes checkType) }
  return { s with compliance := st }.publish (.complianceChecked subject record)

/-- The gate on the latest `kyc` check. -/
def compliancePassed (s : Storage) (subject : Address) : Bool :=
  match s.compliance.check.get (subject, "kyc") with
  | some check => check.result = 1
  | none => false

def checkCompliance (s : Storage) (subject : Address) (requireCompliance : Bool) :
    Except Panic Unit :=
  if requireCompliance then
    require (compliancePassed s subject = true) (.withError .complianceNotMet)
  else .ok ()

theorem recordComplianceCheck_frame {env : Env} {s s' : Storage} {subject : Address}
    {checkType : String} {passed : Bool} {score : Option UInt32}
    (h : recordComplianceCheck env s subject checkType passed score = .ok s') :
    ∃ compliance events, s' = { s with compliance := compliance, events := events } := by
  simp only [recordComplianceCheck, bind_eq_ok, pure_eq_ok] at h
  obtain ⟨_, _, _, _, rfl⟩ := h
  exact ⟨_, _, rfl⟩

end AnchorKit
