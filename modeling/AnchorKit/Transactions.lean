import AnchorKit.Access

/-!
# Transaction records

Records of transactions with the list of their ids, the eviction of terminal records when the
storage budget is under pressure, and the summary by state. Nobody's authorization is asked for
to create or advance a record.
-/

namespace AnchorKit

open Fallible

namespace TransactionState

def isTerminal : TransactionState → Bool
  | .completed | .failed => true
  | .pending | .inProgress => false

def isValidTransition : TransactionState → TransactionState → Bool
  | .pending, .inProgress | .pending, .failed => true
  | .inProgress, .completed | .inProgress, .failed => true
  | _, _ => false

end TransactionState

def approxTxstateRecordBytes : UInt64 := 256

def defaultTxbudgetWarningBytes : UInt64 := 500000

def defaultTxbudgetCriticalBytes : UInt64 := 1000000

structure StorageBudgetReport where
  entryCount : UInt64
  approxBytes : UInt64
  warningBytes : UInt64
  criticalBytes : UInt64
  warning : Bool
  critical : Bool
deriving DecidableEq, Repr

def setEvictionPolicy (env : Env) (s : Storage) (enabled : Bool) (maxPerCall : UInt32) :
    Except Panic Storage := do
  requireAdmin env s
  return { s with transactions := { s.transactions with
    evictionEnabled := some enabled, evictionMax := some maxPerCall } }

def setStorageBudgetThresholds (env : Env) (s : Storage) (warningBytes criticalBytes : UInt64) :
    Except Panic Storage := do
  requireAdmin env s
  require (warningBytes ≠ 0 ∧ warningBytes < criticalBytes) (.withError .validationError)
  return { s with transactions := { s.transactions with
    warningBytes := some warningBytes, criticalBytes := some criticalBytes } }

def getStorageBudgetReport (st : TransactionStore) : StorageBudgetReport :=
  let entryCount := UInt64.ofNat st.ids.length
  let approxBytes := Word.saturatingMul64 entryCount approxTxstateRecordBytes
  let warningBytes := st.warningBytes.getD defaultTxbudgetWarningBytes
  let criticalBytes := st.criticalBytes.getD defaultTxbudgetCriticalBytes
  { entryCount, approxBytes, warningBytes, criticalBytes
    warning := warningBytes ≤ approxBytes, critical := criticalBytes ≤ approxBytes }

def terminalEntries (st : TransactionStore) : List (UInt64 × UInt64) :=
  st.ids.filterMap fun id =>
    match st.record.get id with
    | some record => if record.state.isTerminal then some (record.timestamp, id) else none
    | none => none

def evictionVictims (host : Host) (st : TransactionStore) (maxPerCall : UInt32) : List UInt64 :=
  let sorted := host.unstableSort.sort (fun a b => a.1 ≤ b.1) (terminalEntries st)
  (sorted.take maxPerCall.toNat).map Prod.snd

def evict (st : TransactionStore) (victims : List UInt64) : TransactionStore :=
  { st with
    record := victims.foldl KeyedStore.remove st.record
    ids := st.ids.filter fun id => !victims.contains id }

def runAutoEviction (host : Host) (s : Storage) (maxPerCall : UInt32) : Storage :=
  let victims := evictionVictims host s.transactions maxPerCall
  if victims = [] then s
  else { s with transactions := evict s.transactions victims }.publish
    (.transactionsEvicted (UInt32.ofNat victims.length))

/-- Records are evicted only when that is enabled, and only under pressure. -/
def evictionDue (st : TransactionStore) : Bool :=
  let report := getStorageBudgetReport st
  st.evictionEnabled.getD false && (report.warning || report.critical)

/-- The eviction that comes before a record is created. -/
def relievePressure (host : Host) (s : Storage) : Storage :=
  if evictionDue s.transactions then
    runAutoEviction host s (s.transactions.evictionMax.getD 10)
  else s

def publishBudget (s : Storage) : Storage :=
  let report := getStorageBudgetReport s.transactions
  if report.critical then s.publish (.budgetCritical report.entryCount report.approxBytes)
  else if report.warning then s.publish (.budgetWarning report.entryCount report.approxBytes)
  else s

/-- Whether the id is already in use is not looked at. -/
def createTransactionRecordInternal (host : Host) (env : Env) (s : Storage)
    (transactionId : UInt64) (initiator : Address) (routingReason : Option String) :
    Storage × TransactionStateRecord :=
  let s := relievePressure host s
  let now := env.timestamp
  let record : TransactionStateRecord :=
    { transactionId, state := .pending, initiator, timestamp := now, lastUpdated := now
      lastUpdatedLedger := env.sequence, errorMessage := none, stateHistory := [(.pending, now)]
      recoveryMetadata := none, routingReason }
  let s := { s with transactions := { s.transactions with
    record := s.transactions.record.set transactionId record
    ids := s.transactions.ids ++ [transactionId] } }
  (publishBudget s, record)

def createTransactionRecord (host : Host) (env : Env) (s : Storage) (transactionId : UInt64)
    (initiator : Address) : Storage × TransactionStateRecord :=
  createTransactionRecordInternal host env s transactionId initiator none

def createTxnRecordWithReason (host : Host) (env : Env) (s : Storage) (transactionId : UInt64)
    (initiator : Address) (routingReason : Option String) : Storage × TransactionStateRecord :=
  createTransactionRecordInternal host env s transactionId initiator routingReason

def advanceTransactionStateInternal (env : Env) (s : Storage) (transactionId : UInt64)
    (newState : TransactionState) (errorMessage : Option String) :
    Except Panic (Storage × TransactionStateRecord) := do
  let record ← expect (s.transactions.record.get transactionId) (.withError .transactionNotFound)
  let fromState := record.state
  require (fromState.isValidTransition newState = true) (.withError .illegalTransition)
  let recovery : RecoveryMetadata :=
    { failureReason := errorMessage.getD "unspecified failure"
      lastUpdatedLedger := env.sequence, failedFromState := fromState, retryCount := 0 }
  let record := { record with
    state := newState, lastUpdated := env.timestamp, lastUpdatedLedger := env.sequence,
    errorMessage, stateHistory := record.stateHistory ++ [(newState, env.timestamp)],
    recoveryMetadata := if newState = .failed then some recovery else record.recoveryMetadata }
  let s := { s with transactions := { s.transactions with
    record := s.transactions.record.set transactionId record } }
  return (s, record)

def startTransactionRecord (env : Env) (s : Storage) (transactionId : UInt64) :
    Except Panic (Storage × TransactionStateRecord) :=
  advanceTransactionStateInternal env s transactionId .inProgress none

def completeTransactionRecord (env : Env) (s : Storage) (transactionId : UInt64) :
    Except Panic (Storage × TransactionStateRecord) :=
  advanceTransactionStateInternal env s transactionId .completed none

def failTransactionRecord (env : Env) (s : Storage) (transactionId : UInt64)
    (errorMessage : String) : Except Panic (Storage × TransactionStateRecord) :=
  advanceTransactionStateInternal env s transactionId .failed (some errorMessage)

structure TransactionStatusSummary where
  pendingCount : ℕ
  inProgressCount : ℕ
  completedCount : ℕ
  failedCount : ℕ
  totalCount : ℕ
deriving DecidableEq, Repr

def TransactionStatusSummary.zero : TransactionStatusSummary := ⟨0, 0, 0, 0, 0⟩

def TransactionStatusSummary.count (summary : TransactionStatusSummary)
    (state : TransactionState) : TransactionStatusSummary :=
  let summary := { summary with totalCount := summary.totalCount + 1 }
  match state with
  | .pending => { summary with pendingCount := summary.pendingCount + 1 }
  | .inProgress => { summary with inProgressCount := summary.inProgressCount + 1 }
  | .completed => { summary with completedCount := summary.completedCount + 1 }
  | .failed => { summary with failedCount := summary.failedCount + 1 }

def summarizeTransactionsByStatus (st : TransactionStore) : TransactionStatusSummary :=
  st.ids.foldl (fun summary id =>
    match st.record.get id with
    | some record => summary.count record.state
    | none => summary) .zero

section Effects

variable {host : Host} {env : Env} {s s' : Storage} {transactionId : UInt64}
  {record : TransactionStateRecord}

theorem setEvictionPolicy_effects {enabled : Bool} {maxPerCall : UInt32}
    (h : setEvictionPolicy env s enabled maxPerCall = .ok s') :
    s' = { s with transactions := { s.transactions with
      evictionEnabled := some enabled, evictionMax := some maxPerCall } } := by
  simp only [setEvictionPolicy, bind_eq_ok, pure_eq_ok] at h
  obtain ⟨_, _, rfl⟩ := h
  rfl

theorem setStorageBudgetThresholds_effects {warningBytes criticalBytes : UInt64}
    (h : setStorageBudgetThresholds env s warningBytes criticalBytes = .ok s') :
    s' = { s with transactions := { s.transactions with
      warningBytes := some warningBytes, criticalBytes := some criticalBytes } } := by
  simp only [setStorageBudgetThresholds, bind_eq_ok, pure_eq_ok] at h
  obtain ⟨_, _, _, _, rfl⟩ := h
  rfl

/-- The ids a creation in state `s` evicts. -/
def victimsOf (host : Host) (s : Storage) : List UInt64 :=
  if evictionDue s.transactions then
    evictionVictims host s.transactions (s.transactions.evictionMax.getD 10)
  else []

theorem evict_nil (st : TransactionStore) : evict st [] = st := by simp [evict]

theorem relievePressure_effects (host : Host) (s : Storage) :
    ∃ events, relievePressure host s =
      { s with transactions := evict s.transactions (victimsOf host s), events := events } := by
  unfold relievePressure victimsOf
  split
  · dsimp only [runAutoEviction]
    split
    · rename_i hnone
      rw [hnone, evict_nil]
      exact ⟨_, rfl⟩
    · exact ⟨_, rfl⟩
  · rw [evict_nil]
    exact ⟨_, rfl⟩

theorem publishBudget_effects (s : Storage) :
    ∃ events, publishBudget s = { s with events := events } := by
  dsimp only [publishBudget]
  split
  · exact ⟨_, rfl⟩
  · split
    · exact ⟨_, rfl⟩
    · exact ⟨_, rfl⟩

theorem createTransactionRecordInternal_effects (host : Host) (env : Env) (s : Storage)
    (transactionId : UInt64) (initiator : Address) (routingReason : Option String) :
    ∃ record : TransactionStateRecord, ∃ events, record.transactionId = transactionId ∧
      record.state = .pending ∧
      (createTransactionRecordInternal host env s transactionId initiator routingReason).1 =
        { s with
          transactions := { s.transactions with
            record := (evict s.transactions (victimsOf host s)).record.set transactionId record
            ids := (evict s.transactions (victimsOf host s)).ids ++ [transactionId] }
          events := events } := by
  obtain ⟨_, hrelieved⟩ := relievePressure_effects host s
  simp only [createTransactionRecordInternal, hrelieved]
  obtain ⟨_, hpublished⟩ := publishBudget_effects _
  rw [hpublished]
  exact ⟨_, _, rfl, rfl, rfl⟩

theorem advanceTransactionStateInternal_effects {newState : TransactionState}
    {errorMessage : Option String}
    (h : advanceTransactionStateInternal env s transactionId newState errorMessage
      = .ok (s', record)) :
    ∃ old, s.transactions.record.get transactionId = some old ∧
      old.state.isValidTransition newState = true ∧ record.state = newState ∧
      record.transactionId = old.transactionId ∧
      s' = { s with transactions := { s.transactions with
        record := s.transactions.record.set transactionId record } } := by
  simp only [advanceTransactionStateInternal, expect_bind_eq_ok, require_bind_eq_ok, pure_eq_ok,
    Prod.mk.injEq] at h
  obtain ⟨old, hold, hvalid, rfl, rfl⟩ := h
  exact ⟨old, hold, hvalid, rfl, rfl, rfl⟩

end Effects

end AnchorKit
