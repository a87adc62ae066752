import AnchorKit.Sessions

/-!
# Audit-log retention

The session audit log is pruned on request and, from a configured size on, whenever its length is
asked for. Each sweep looks at the first hundred ids.
-/

namespace AnchorKit

open Fallible

def maxAuditLogRetentionDays : UInt64 := 3650

def setAuditLogRetention (env : Env) (s : Storage) (retentionDays : UInt64) :
    Except Panic Storage := do
  requireAdmin env s
  require (retentionDays ≤ maxAuditLogRetentionDays) (.withError .validationError)
  return { s with auditRetention := { s.auditRetention with retentionDays := retentionDays } }

/-- Zero stands for no limit. -/
def getAuditLogRetention (s : Storage) : UInt64 := s.auditRetention.retentionDays

def setAutoPruneThreshold (env : Env) (s : Storage) (n : UInt32) : Except Panic Storage := do
  requireAdmin env s
  return { s with auditRetention := { s.auditRetention with pruneThreshold := n } }

/-- Drop the entry under `logId` when it is older than the cut-off, counting it in `pruned`. -/
def pruneAuditLog (before : UInt64) (acc : KeyedStore UInt64 AuditLog × UInt64) (logId : UInt64) :
    Except Panic (KeyedStore UInt64 AuditLog × UInt64) := do
  let (audit, pruned) := acc
  match audit.get logId with
  | some entry =>
    if entry.operation.timestamp < before then
      let pruned ← add64 pruned 1
      return (audit.remove logId, pruned)
    return (audit, pruned)
  | none => return (audit, pruned)

def scannedLogIds (s : Storage) : List UInt64 :=
  (List.range (min s.sessions.auditCount 100).toNat).map UInt64.ofNat

def pruneAuditLogsInternal (s : Storage) (before : UInt64) : Except Panic (Storage × UInt64) := do
  let (audit, pruned) ← (scannedLogIds s).foldlM (pruneAuditLog before) (s.sessions.audit, 0)
  return ({ s with sessions := { s.sessions with audit := audit } }, pruned)

def pruneAuditLogs (env : Env) (s : Storage) (before : UInt64) :
    Except Panic (Storage × UInt64) := do
  requireAdmin env s
  pruneAuditLogsInternal s before

/-- The number of entries ever written. Asking for it prunes a log that has outgrown the
threshold. -/
def getAuditLogCount (env : Env) (s : Storage) : Except Panic (Storage × UInt64) := do
  let count := s.sessions.auditCount
  let threshold := s.auditRetention.pruneThreshold
  if 0 < threshold ∧ threshold.toUInt64 < count then
    let retentionDays := getAuditLogRetention s
    let age ← expect (Word.checkedMul64 retentionDays 86400) .arithmeticOverflow
    let (s, pruned) ← pruneAuditLogsInternal s (Word.saturatingSub64 env.timestamp age)
    if 0 < pruned then
      return (s.publish (.auditPruned 0 0 0 "auto_prune" "success" pruned), count)
    return (s, count)
  return (s, count)

def getAuditLog (s : Storage) (logId : UInt64) : Except Panic AuditLog :=
  expect (s.sessions.audit.get logId) (.withError .auditLogNotFound)

/-- The entries of a page, of fifty ids at most. -/
def getAuditLogsPaginated (s : Storage) (offset limit : UInt64) : List AuditLog :=
  let last := min (Word.saturatingAdd64 offset (min limit 50)) s.sessions.auditCount
  (List.range' offset.toNat (last.toNat - offset.toNat)).filterMap fun i =>
    s.sessions.audit.get (UInt64.ofNat i)

/-- The same for the entries of one session. -/
def getSessionLogsPaginated (s : Storage) (sessionId offset limit : UInt64) : List AuditLog :=
  let total := s.sessions.opCountOf sessionId
  let last := min (Word.saturatingAdd64 offset (min limit 50)) total
  (List.range' offset.toNat (last.toNat - offset.toNat)).filterMap fun i =>
    (s.sessions.log.get (sessionId, UInt64.ofNat i)).bind s.sessions.audit.get

section Effects

variable {env : Env} {s s' : Storage} {before : UInt64}

theorem mem_scannedLogIds {id : UInt64} :
    id ∈ scannedLogIds s ↔ id < s.sessions.auditCount ∧ id < 100 := by
  have hmin : (min s.sessions.auditCount 100).toNat = min s.sessions.auditCount.toNat 100 :=
    Word.toNat_min64 _ _
  have hid := id.toNat_lt
  simp only [scannedLogIds, List.mem_map, List.mem_range, hmin, UInt64.lt_iff_toNat_lt]
  constructor
  · rintro ⟨i, hi, rfl⟩
    have hlt := s.sessions.auditCount.toNat_lt
    have hval : (UInt64.ofNat i).toNat = i := UInt64.toNat_ofNat_of_lt' (by change i < 2 ^ 64; omega)
    rw [hval]
    exact ⟨by omega, by change i < 100; omega⟩
  · rintro ⟨hcount, hhundred⟩
    change id.toNat < 100 at hhundred
    exact ⟨id.toNat, by omega, UInt64.ofNat_toNat⟩

/-- One visit drops an entry exactly when it is under the id and older than the cut-off. -/
theorem pruneAuditLog_get {audit audit' : KeyedStore UInt64 AuditLog} {pruned pruned' logId : UInt64}
    (h : pruneAuditLog before (audit, pruned) logId = .ok (audit', pruned')) (id : UInt64)
    (entry : AuditLog) :
    audit'.get id = some entry ↔
      audit.get id = some entry ∧ (id = logId → before ≤ entry.operation.timestamp) := by
  simp only [pruneAuditLog] at h
  cases hget : audit.get logId with
  | none =>
    rw [hget] at h
    cases h
    refine ⟨fun hid => ⟨hid, ?_⟩, And.left⟩
    rintro rfl
    rw [hget] at hid
    cases hid
  | some found =>
    rw [hget] at h
    dsimp only at h
    split at h
    · rename_i hold
      rw [bind_eq_ok] at h
      obtain ⟨_, _, h⟩ := h
      cases h
      rw [KeyedStore.get_remove]
      by_cases hid : id = logId
      · subst hid
        rw [if_pos rfl, hget]
        constructor
        · intro hnone
          cases hnone
        · rintro ⟨hfound, hkeep⟩
          obtain rfl := Option.some.inj hfound
          exact absurd hold (UInt64.not_lt.mpr (hkeep rfl))
      · rw [if_neg hid]
        exact ⟨fun hget => ⟨hget, fun heq => absurd heq hid⟩, And.left⟩
    · rename_i hrecent
      cases h
      refine ⟨fun hid => ⟨hid, ?_⟩, And.left⟩
      rintro rfl
      obtain rfl := Option.some.inj (hget.symm.trans hid)
      exact UInt64.not_lt.mp hrecent

/-- What a sweep leaves: everything but the old entries it looks at. -/
theorem prune_get {ids : List UInt64} {audit audit' : KeyedStore UInt64 AuditLog}
    {pruned pruned' : UInt64}
    (h : ids.foldlM (pruneAuditLog before) (audit, pruned) = .ok (audit', pruned')) (id : UInt64)
    (entry : AuditLog) :
    audit'.get id = some entry ↔
      audit.get id = some entry ∧ (id ∈ ids → before ≤ entry.operation.timestamp) := by
  induction ids generalizing audit pruned with
  | nil =>
    cases h
    simp
  | cons logId ids ih =>
    rw [List.foldlM_cons, bind_eq_ok] at h
    obtain ⟨⟨mid, midPruned⟩, hvisit, h⟩ := h
    rw [ih h, pruneAuditLog_get hvisit, List.mem_cons]
    constructor
    · rintro ⟨⟨hget, hfirst⟩, hrest⟩
      exact ⟨hget, fun hmem => hmem.elim hfirst hrest⟩
    · rintro ⟨hget, hall⟩
      exact ⟨⟨hget, fun heq => hall (.inl heq)⟩, fun hmem => hall (.inr hmem)⟩

theorem pruneAuditLogsInternal_effects {pruned : UInt64}
    (h : pruneAuditLogsInternal s before = .ok (s', pruned)) :
    ∃ audit, s' = { s with sessions := { s.sessions with audit := audit } } ∧
      ∀ id entry, audit.get id = some entry ↔ s.sessions.audit.get id = some entry ∧
        (id < s.sessions.auditCount ∧ id < 100 → before ≤ entry.operation.timestamp) := by
  simp only [pruneAuditLogsInternal, bind_eq_ok, pure_eq_ok, Prod.mk.injEq] at h
  obtain ⟨⟨audit, n⟩, hswept, rfl, _⟩ := h
  refine ⟨audit, rfl, fun id entry => ?_⟩
  rw [prune_get hswept, mem_scannedLogIds]

theorem pruneAuditLogs_effects {pruned : UInt64}
    (h : pruneAuditLogs env s before = .ok (s', pruned)) :
    ∃ audit, s' = { s with sessions := { s.sessions with audit := audit } } ∧
      ∀ id entry, audit.get id = some entry → s.sessions.audit.get id = some entry := by
  simp only [pruneAuditLogs, bind_eq_ok] at h
  obtain ⟨_, _, h⟩ := h
  obtain ⟨audit, rfl, hkept⟩ := pruneAuditLogsInternal_effects h
  exact ⟨audit, rfl, fun id entry hget => ((hkept id entry).mp hget).1⟩

def PrunesOnCount (s : Storage) : Prop :=
  0 < s.auditRetention.pruneThreshold ∧
    s.auditRetention.pruneThreshold.toUInt64 < s.sessions.auditCount

/-- An entry that asking for the count leaves alone: nothing is swept, the sweep does not look that
far, or the entry is within the retention period. -/
def SparedOnCount (env : Env) (s : Storage) (id : UInt64) (entry : AuditLog) : Prop :=
  PrunesOnCount s ∧ id < s.sessions.auditCount ∧ id < 100 →
    env.timestamp.toNat ≤ entry.operation.timestamp.toNat +
      s.auditRetention.retentionDays.toNat * 86400

/-- Asking for the count drops the scanned entries older than the retention period, or nothing. -/
theorem getAuditLogCount_effects {count : UInt64} (h : getAuditLogCount env s = .ok (s', count)) :
    count = s.sessions.auditCount ∧ ∃ audit events,
      s' = { s with sessions := { s.sessions with audit := audit }, events := events } ∧
        ∀ id entry, audit.get id = some entry ↔
          s.sessions.audit.get id = some entry ∧ SparedOnCount env s id entry := by
  simp only [getAuditLogCount] at h
  split at h
  · rename_i hprunes
    simp only [bind_eq_ok, expect_eq_ok, Word.checkedMul64_eq_some] at h
    obtain ⟨age, hage, ⟨mid, pruned⟩, hswept, h⟩ := h
    obtain ⟨audit, rfl, hkept⟩ := pruneAuditLogsInternal_effects hswept
    have hcutoff : ∀ entry : AuditLog,
        Word.saturatingSub64 env.timestamp age ≤ entry.operation.timestamp ↔
          env.timestamp.toNat ≤ entry.operation.timestamp.toNat +
            s.auditRetention.retentionDays.toNat * 86400 := by
      intro entry
      change s.auditRetention.retentionDays.toNat * 86400 = age.toNat at hage
      rw [UInt64.le_iff_toNat_le, Word.toNat_saturatingSub64, hage]
      omega
    have hkept' : ∀ id entry, audit.get id = some entry ↔
        s.sessions.audit.get id = some entry ∧ SparedOnCount env s id entry := by
      intro id entry
      rw [hkept, hcutoff, SparedOnCount]
      exact and_congr_right fun _ => ⟨fun hold hscan => hold hscan.2, fun hold hscan =>
        hold ⟨hprunes, hscan⟩⟩
    split at h
    · cases h
      exact ⟨rfl, audit, _, rfl, hkept'⟩
    · cases h
      exact ⟨rfl, audit, _, rfl, hkept'⟩
  · rename_i hquiet
    cases h
    refine ⟨rfl, s.sessions.audit, s.events, rfl, fun id entry => ⟨fun hget => ⟨hget, ?_⟩, And.left⟩⟩
    rintro ⟨hprunes, _⟩
    exact absurd hprunes hquiet

theorem setAuditLogRetention_effects {retentionDays : UInt64}
    (h : setAuditLogRetention env s retentionDays = .ok s') :
    retentionDays ≤ maxAuditLogRetentionDays ∧ s' = { s with
      auditRetention := { s.auditRetention with retentionDays := retentionDays } } := by
  simp only [setAuditLogRetention, bind_eq_ok, require_eq_ok, pure_eq_ok] at h
  obtain ⟨_, _, _, hdays, rfl⟩ := h
  exact ⟨hdays, rfl⟩

theorem setAutoPruneThreshold_effects {n : UInt32}
    (h : setAutoPruneThreshold env s n = .ok s') :
    s' = { s with auditRetention := { s.auditRetention with pruneThreshold := n } } := by
  simp only [setAutoPruneThreshold, bind_eq_ok, pure_eq_ok] at h
  obtain ⟨_, _, rfl⟩ := h
  rfl

end Effects

end AnchorKit
