import AnchorKit.Transactions
import AnchorKit.Library.KeyedList

/-!
# The transaction state tracker

The tracker keeps its records in one of two places: in development mode in lists of its own, in
production mode in persistent storage. Every operation is written once for each. A call that
returns an error keeps what it wrote before; only a panic undoes a call.
-/

namespace AnchorKit

namespace TransactionState

def asStr : TransactionState → String
  | .pending => "pending"
  | .inProgress => "in_progress"
  | .completed => "completed"
  | .failed => "failed"

def fromStr (s : String) : Option TransactionState :=
  if s = "pending" then some .pending
  else if s = "in_progress" then some .inProgress
  else if s = "completed" then some .completed
  else if s = "failed" then some .failed
  else none

def illegalTransitionMessage (state newState : TransactionState) : String :=
  "[E24] Illegal transaction state transition: " ++ state.asStr ++ " -> " ++ newState.asStr

end TransactionState

inductive BudgetStatus
  | ok
  | warning
  | critical
deriving DecidableEq, Repr

structure StorageBudgetMonitor where
  entryCount : UInt64
  approxBytes : UInt64
deriving DecidableEq, Repr

namespace StorageBudgetMonitor

def new : StorageBudgetMonitor := ⟨0, 0⟩

def recordEntry (monitor : StorageBudgetMonitor) (sizeBytes : UInt64) : StorageBudgetMonitor :=
  { entryCount := Word.saturatingAdd64 monitor.entryCount 1
    approxBytes := Word.saturatingAdd64 monitor.approxBytes sizeBytes }

def removeEntry (monitor : StorageBudgetMonitor) (sizeBytes : UInt64) : StorageBudgetMonitor :=
  { entryCount := Word.saturatingSub64 monitor.entryCount 1
    approxBytes := Word.saturatingSub64 monitor.approxBytes sizeBytes }

def getStatus (monitor : StorageBudgetMonitor) (warningBytes criticalBytes : UInt64) :
    BudgetStatus :=
  if criticalBytes ≤ monitor.approxBytes then .critical
  else if warningBytes ≤ monitor.approxBytes then .warning
  else .ok

end StorageBudgetMonitor

structure RecoveryRetentionPolicy where
  maxAgeSeconds : UInt64
  maxRetryCount : UInt32
deriving DecidableEq, Repr

def RecoveryRetentionPolicy.isEligible (policy : RecoveryRetentionPolicy)
    (recovery : RecoveryMetadata) (recordLastUpdated now : UInt64) : Bool :=
  let age := Word.saturatingSub64 now recordLastUpdated
  policy.maxAgeSeconds ≤ age || policy.maxRetryCount ≤ recovery.retryCount

structure ArchivedRecoveryMetadata where
  transactionId : UInt64
  failureReason : String
  failedFromState : TransactionState
  retryCount : UInt32
  archivedAtLedger : UInt32
deriving DecidableEq, Repr

structure TransitionAuditEntry where
  transactionId : UInt64
  fromState : TransactionState
  toState : TransactionState
  timestamp : UInt64
  success : Bool
deriving DecidableEq, Repr

/-- What the JSON text of an exported recovery state is read into. -/
structure ImportedRecovery where
  failureReason : String
  lastUpdatedLedger : UInt32
  failedFromState : String
  retryCount : UInt32
  transactionId : UInt64
deriving DecidableEq, Repr

/-- The tracker, with the persistent entries of the production mode. -/
structure TransactionStateTracker where
  isDevMode : Bool
  evictionEnabled : Bool
  maxEvictionsPerCall : UInt32
  budgetMonitor : StorageBudgetMonitor
  cache : List TransactionStateRecord
  knownIds : List UInt64
  archive : List ArchivedRecoveryMetadata
  auditLog : List TransitionAuditEntry
  txstate : KeyedStore UInt64 TransactionStateRecord
  txids : List UInt64
  rcvarch : KeyedStore UInt64 ArchivedRecoveryMetadata
  txaudit : KeyedStore UInt64 (List TransitionAuditEntry)
  evictionEvents : List (UInt32 × Bool)

namespace TransactionStateRecord

/-- The new record of a transaction. -/
def opened (env : Env) (transactionId : UInt64) (initiator : Address)
    (routingReason : Option String) : TransactionStateRecord :=
  { transactionId, state := .pending, initiator, timestamp := env.timestamp
    lastUpdated := env.timestamp, lastUpdatedLedger := env.sequence, errorMessage := none
    stateHistory := [(.pending, env.timestamp)], recoveryMetadata := none, routingReason }

/-- The assignments of a permitted transition. -/
def updated (env : Env) (newState : TransactionState) (errorMessage : Option String)
    (record : TransactionStateRecord) : TransactionStateRecord :=
  let recovery : RecoveryMetadata :=
    { failureReason := errorMessage.getD "unspecified failure"
      lastUpdatedLedger := env.sequence, failedFromState := record.state, retryCount := 0 }
  { record with
    state := newState, lastUpdated := env.timestamp, lastUpdatedLedger := env.sequence,
    errorMessage, stateHistory := record.stateHistory ++ [(newState, env.timestamp)],
    recoveryMetadata := if newState = .failed then some recovery else record.recoveryMetadata }

/-- The state a failed record resumes in and its next retry count. -/
def resumePoint (record : TransactionStateRecord) :
    Except Panic (Except String (TransactionState × UInt32)) :=
  if record.state ≠ .failed then
    .ok (.error "resume_partial_recovery requires a Failed transaction")
  else
    match record.recoveryMetadata with
    | none => .ok (.error "Transaction has no recovery metadata; cannot resume")
    | some recovery =>
      if recovery.failedFromState.isTerminal then
        .ok (.error "failed_from_state is terminal; cannot resume")
      else
        match Word.checkedAdd32 recovery.retryCount 1 with
        | none => .error .arithmeticOverflow
        | some retryCount => .ok (.ok (recovery.failedFromState, retryCount))

def resumed (env : Env) (resumeState : TransactionState) (newRetryCount : UInt32)
    (record : TransactionStateRecord) : TransactionStateRecord :=
  { record with
    state := resumeState, lastUpdated := env.timestamp, lastUpdatedLedger := env.sequence,
    errorMessage := none, stateHistory := record.stateHistory ++ [(resumeState, env.timestamp)],
    recoveryMetadata := record.recoveryMetadata.map ({ · with retryCount := newRetryCount }) }

def attempted (record : TransactionStateRecord) :
    Except Panic (Except String TransactionStateRecord) :=
  if record.state ≠ .failed then
    .ok (.error "record_recovery_attempt requires a Failed transaction")
  else
    match record.recoveryMetadata with
    | none => .ok (.error "Transaction has no recovery metadata")
    | some recovery =>
      match Word.checkedAdd32 recovery.retryCount 1 with
      | none => .error .arithmeticOverflow
      | some retryCount =>
        .ok (.ok { record with recoveryMetadata := some { recovery with retryCount } })

/-- The recovery metadata when the policy lets it go. -/
def eligibleRecovery (policy : RecoveryRetentionPolicy) (now : UInt64)
    (record : TransactionStateRecord) : Option RecoveryMetadata :=
  record.recoveryMetadata.filter (policy.isEligible · record.lastUpdated now)

def cleared (record : TransactionStateRecord) : TransactionStateRecord :=
  { record with recoveryMetadata := none }

def withImported (env : Env) (recovery : RecoveryMetadata) (record : TransactionStateRecord) :
    TransactionStateRecord :=
  { record with
    recoveryMetadata := some recovery, lastUpdated := env.timestamp,
    lastUpdatedLedger := env.sequence }

/-- The record an import creates, with a history made up for it. -/
def imported (env : Env) (recovery : RecoveryMetadata) (transactionId : UInt64)
    (initiator : Address) : TransactionStateRecord :=
  { transactionId, state := .failed, initiator, timestamp := env.timestamp
    lastUpdated := env.timestamp, lastUpdatedLedger := env.sequence
    errorMessage := some recovery.failureReason
    stateHistory := [(.pending, env.timestamp), (recovery.failedFromState, env.timestamp),
      (.failed, env.timestamp)]
    recoveryMetadata := some recovery, routingReason := none }

theorem resumePoint_eq_ok {record : TransactionStateRecord} {state : TransactionState}
    {retryCount : UInt32} :
    record.resumePoint = .ok (.ok (state, retryCount)) ↔
      record.state = .failed ∧ ∃ recovery, record.recoveryMetadata = some recovery ∧
        recovery.failedFromState = state ∧ state.isTerminal = false ∧
        recovery.retryCount.toNat + 1 = retryCount.toNat := by
  unfold resumePoint
  by_cases hfailed : record.state = .failed
  · rw [if_neg (not_not.mpr hfailed), and_iff_right hfailed]
    cases record.recoveryMetadata with
    | none => simp
    | some recovery =>
      dsimp only
      by_cases hterminal : recovery.failedFromState.isTerminal = true
      · rw [if_pos hterminal]
        simp only [Except.ok.injEq, reduceCtorEq, Option.some.injEq, false_iff]
        rintro ⟨_, rfl, rfl, hopen, _⟩
        rw [hterminal] at hopen
        cases hopen
      · rw [if_neg hterminal]
        cases hcount : Word.checkedAdd32 recovery.retryCount 1 with
        | none =>
          simp only [reduceCtorEq, Option.some.injEq, false_iff]
          rintro ⟨_, rfl, _, _, hnext⟩
          rw [← Word.checkedAdd32_one_eq_some, hcount] at hnext
          cases hnext
        | some next =>
          simp only [Except.ok.injEq, Prod.mk.injEq, Option.some.injEq]
          constructor
          · rintro ⟨rfl, rfl⟩
            refine ⟨recovery, rfl, rfl, by simpa using hterminal, ?_⟩
            rw [← Word.checkedAdd32_one_eq_some, hcount]
          · rintro ⟨_, rfl, hstate, _, hnext⟩
            rw [← Word.checkedAdd32_one_eq_some, hcount] at hnext
            exact ⟨hstate, Option.some.inj hnext⟩
  · rw [if_pos hfailed]
    simp [hfailed]

theorem attempted_eq_ok {record after : TransactionStateRecord} :
    record.attempted = .ok (.ok after) ↔
      record.state = .failed ∧ ∃ recovery retryCount, record.recoveryMetadata = some recovery ∧
        recovery.retryCount.toNat + 1 = UInt32.toNat retryCount ∧
        { record with recoveryMetadata := some { recovery with retryCount } } = after := by
  unfold attempted
  by_cases hfailed : record.state = .failed
  · rw [if_neg (not_not.mpr hfailed), and_iff_right hfailed]
    cases record.recoveryMetadata with
    | none => simp
    | some recovery =>
      dsimp only
      cases hcount : Word.checkedAdd32 recovery.retryCount 1 with
      | none =>
        simp only [reduceCtorEq, Option.some.injEq, false_iff]
        rintro ⟨_, next, rfl, hnext, _⟩
        rw [← Word.checkedAdd32_one_eq_some, hcount] at hnext
        cases hnext
      | some next =>
        simp only [Except.ok.injEq, Option.some.injEq]
        constructor
        · rintro rfl
          refine ⟨recovery, next, rfl, ?_, rfl⟩
          rw [← Word.checkedAdd32_one_eq_some, hcount]
        · rintro ⟨_, _, rfl, hnext, rfl⟩
          rw [← Word.checkedAdd32_one_eq_some, hcount] at hnext
          obtain rfl := Option.some.inj hnext
          rfl
  · rw [if_pos hfailed]
    simp [hfailed]

end TransactionStateRecord

def ArchivedRecoveryMetadata.ofRecovery (env : Env) (transactionId : UInt64)
    (recovery : RecoveryMetadata) : ArchivedRecoveryMetadata :=
  { transactionId, failureReason := recovery.failureReason
    failedFromState := recovery.failedFromState, retryCount := recovery.retryCount
    archivedAtLedger := env.sequence }

namespace TransactionStateTracker

def approxRecordBytes : UInt64 := 256

def new (isDevMode : Bool) : TransactionStateTracker :=
  { isDevMode, evictionEnabled := false, maxEvictionsPerCall := 10
    budgetMonitor := .new, cache := [], knownIds := [], archive := [], auditLog := []
    txstate := .empty, txids := [], rcvarch := .empty, txaudit := .empty, evictionEvents := [] }

def cached (t : TransactionStateTracker) (transactionId : UInt64) :
    Option TransactionStateRecord :=
  KeyedList.lookup TransactionStateRecord.transactionId transactionId t.cache

def recache (t : TransactionStateTracker) (transactionId : UInt64)
    (record : TransactionStateRecord) : TransactionStateTracker :=
  { t with cache :=
      KeyedList.rewrite TransactionStateRecord.transactionId transactionId record t.cache }

def store (t : TransactionStateTracker) (transactionId : UInt64)
    (record : TransactionStateRecord) : TransactionStateTracker :=
  { t with txstate := t.txstate.set transactionId record }

def register (t : TransactionStateTracker) (transactionId : UInt64)
    (record : TransactionStateRecord) : TransactionStateTracker :=
  if t.isDevMode then
    { t with
      cache := t.cache ++ [record], knownIds := t.knownIds ++ [transactionId],
      budgetMonitor := t.budgetMonitor.recordEntry approxRecordBytes }
  else { t.store transactionId record with txids := t.txids ++ [transactionId] }

def audit (t : TransactionStateTracker) (entry : TransitionAuditEntry) :
    TransactionStateTracker :=
  if t.isDevMode then { t with auditLog := t.auditLog ++ [entry] }
  else
    let entries := (t.txaudit.get entry.transactionId).getD []
    { t with txaudit := t.txaudit.set entry.transactionId (entries ++ [entry]) }

def budgetStatus (t : TransactionStateTracker) : BudgetStatus :=
  t.budgetMonitor.getStatus 5120 12800

/-- The oldest of the given records, as many as one call may evict. -/
def oldestIds (host : Host) (t : TransactionStateTracker) (terminal : List (UInt64 × UInt64)) :
    List UInt64 :=
  let sorted := host.unstableSort.sort (fun a b => a.1 ≤ b.1) terminal
  (sorted.take t.maxEvictionsPerCall.toNat).map Prod.snd

def cachedTerminal (t : TransactionStateTracker) : List (UInt64 × UInt64) :=
  (t.cache.filter fun record => record.state.isTerminal).map fun record =>
    (record.timestamp, record.transactionId)

def storedTerminal (t : TransactionStateTracker) : List (UInt64 × UInt64) :=
  t.txids.filterMap fun id =>
    match t.txstate.get id with
    | some record => if record.state.isTerminal then some (record.timestamp, id) else none
    | none => none

def autoEvictIfNeeded (host : Host) (t : TransactionStateTracker) : TransactionStateTracker :=
  if !t.evictionEnabled then t
  else if t.budgetStatus = .ok then t
  else if t.isDevMode then
    let evictedIds := t.oldestIds host t.cachedTerminal
    if 0 < evictedIds.length then
      { t with
        cache := t.cache.filter fun record => !evictedIds.contains record.transactionId
        knownIds := t.knownIds.filter fun id => !evictedIds.contains id
        budgetMonitor :=
          Nat.repeat (·.removeEntry approxRecordBytes) evictedIds.length t.budgetMonitor
        evictionEvents := t.evictionEvents ++
          [(UInt32.ofNat evictedIds.length, decide (t.budgetStatus = .critical))] }
    else t
  else
    let evictedIds := t.oldestIds host t.storedTerminal
    if 0 < evictedIds.length then
      { t with
        txstate := evictedIds.foldl KeyedStore.remove t.txstate
        txids := t.txids.filter fun id => !evictedIds.contains id
        evictionEvents := t.evictionEvents ++
          [(UInt32.ofNat evictedIds.length, decide (t.budgetStatus = .critical))] }
    else t

def createTransactionWithReason (host : Host) (env : Env) (t : TransactionStateTracker)
    (transactionId : UInt64) (initiator : Address) (routingReason : Option String) :
    TransactionStateRecord × TransactionStateTracker :=
  let t := t.autoEvictIfNeeded host
  let record := TransactionStateRecord.opened env transactionId initiator routingReason
  (record, t.register transactionId record)

def updateState (env : Env) (t : TransactionStateTracker) (transactionId : UInt64)
    (newState : TransactionState) (errorMessage : Option String) :
    Except String TransactionStateRecord × TransactionStateTracker :=
  if t.isDevMode then
    match t.cached transactionId with
    | none => (.error "Transaction not found in cache", t)
    | some record =>
      let valid := record.state.isValidTransition newState
      let t := t.audit ⟨transactionId, record.state, newState, env.timestamp, valid⟩
      if !valid then (.error (record.state.illegalTransitionMessage newState), t)
      else
        let record := record.updated env newState errorMessage
        (.ok record, t.recache transactionId record)
  else
    match t.txstate.get transactionId with
    | none => (.error "Transaction not found", t)
    | some record =>
      let valid := record.state.isValidTransition newState
      let t := t.audit ⟨transactionId, record.state, newState, env.timestamp, valid⟩
      if !valid then (.error (record.state.illegalTransitionMessage newState), t)
      else
        let record := record.updated env newState errorMessage
        (.ok record, t.store transactionId record)

def startTransaction (env : Env) (t : TransactionStateTracker) (transactionId : UInt64) :
    Except String TransactionStateRecord × TransactionStateTracker :=
  t.updateState env transactionId .inProgress none

def completeTransaction (env : Env) (t : TransactionStateTracker) (transactionId : UInt64) :
    Except String TransactionStateRecord × TransactionStateTracker :=
  t.updateState env transactionId .completed none

def failTransaction (env : Env) (t : TransactionStateTracker) (transactionId : UInt64)
    (errorMessage : String) : Except String TransactionStateRecord × TransactionStateTracker :=
  t.updateState env transactionId .failed (some errorMessage)

def advanceTransactionState (env : Env) (t : TransactionStateTracker) (transactionId : UInt64)
    (newState : TransactionState) :
    Except String TransactionStateRecord × TransactionStateTracker :=
  t.updateState env transactionId newState none

def getTransactionState (t : TransactionStateTracker) (transactionId : UInt64) :
    Option TransactionStateRecord :=
  if t.isDevMode then t.cached transactionId else t.txstate.get transactionId

def recordRecoveryAttempt (t : TransactionStateTracker) (transactionId : UInt64) :
    Except Panic (Except String Unit × TransactionStateTracker) :=
  if t.isDevMode then
    match t.cached transactionId with
    | none => .ok (.error "Transaction not found in cache", t)
    | some record =>
      match record.attempted with
      | .error panic => .error panic
      | .ok (.error message) => .ok (.error message, t)
      | .ok (.ok record) => .ok (.ok (), t.recache transactionId record)
  else
    match t.txstate.get transactionId with
    | none => .ok (.error "Transaction not found", t)
    | some record =>
      match record.attempted with
      | .error panic => .error panic
      | .ok (.error message) => .ok (.error message, t)
      | .ok (.ok record) => .ok (.ok (), t.store transactionId record)

/-- Only the development mode audits a resumption. -/
def resumePartialRecovery (env : Env) (t : TransactionStateTracker) (transactionId : UInt64) :
    Except Panic (Except String TransactionStateRecord × TransactionStateTracker) :=
  if t.isDevMode then
    match t.cached transactionId with
    | none => .ok (.error "Transaction not found in cache", t)
    | some record =>
      match record.resumePoint with
      | .error panic => .error panic
      | .ok (.error message) => .ok (.error message, t)
      | .ok (.ok (resumeState, newRetryCount)) =>
        let record := record.resumed env resumeState newRetryCount
        .ok (.ok record, (t.recache transactionId record).audit
          ⟨transactionId, .failed, resumeState, env.timestamp, true⟩)
  else
    match t.txstate.get transactionId with
    | none => .ok (.error "Transaction not found", t)
    | some record =>
      match record.resumePoint with
      | .error panic => .error panic
      | .ok (.error message) => .ok (.error message, t)
      | .ok (.ok (resumeState, newRetryCount)) =>
        let record := record.resumed env resumeState newRetryCount
        .ok (.ok record, t.store transactionId record)

/-- `decode` is the JSON parser. -/
def importRecoveryState (decode : String → Except String ImportedRecovery) (env : Env)
    (t : TransactionStateTracker) (jsonData : String) (initiator : Address) :
    Except String Unit × TransactionStateTracker :=
  match decode jsonData with
  | .error e => (.error ("Invalid recovery state JSON: " ++ e), t)
  | .ok found =>
    match TransactionState.fromStr found.failedFromState with
    | none =>
      (.error ("Invalid failed_from_state '" ++ found.failedFromState ++
        "': must be one of: pending, in_progress, completed, failed"), t)
    | some failedFrom =>
      if failedFrom.isTerminal then
        (.error ("Invalid failed_from_state '" ++ found.failedFromState ++
          "': cannot be a terminal state"), t)
      else
        let newMeta : RecoveryMetadata :=
          { failureReason := found.failureReason, lastUpdatedLedger := found.lastUpdatedLedger
            failedFromState := failedFrom, retryCount := found.retryCount }
        match t.getTransactionState found.transactionId with
        | some record =>
          if record.state ≠ .failed then
            (.error ("Cannot import recovery state: transaction " ++
              toString found.transactionId ++ " is in state '" ++ record.state.asStr ++
              "', expected 'failed'"), t)
          else if t.isDevMode then
            (.ok (), t.recache found.transactionId (record.withImported env newMeta))
          else (.ok (), t.store found.transactionId (record.withImported env newMeta))
        | none =>
          (.ok (), t.register found.transactionId
            (.imported env newMeta found.transactionId initiator))

def pruneRecoveryMetadata (env : Env) (t : TransactionStateTracker) (transactionId : UInt64)
    (policy : RecoveryRetentionPolicy) : Bool × TransactionStateTracker :=
  if t.isDevMode then
    match t.cached transactionId with
    | none => (false, t)
    | some record =>
      match record.eligibleRecovery policy env.timestamp with
      | some _ => (true, t.recache transactionId record.cleared)
      | none => (false, t)
  else
    match t.txstate.get transactionId with
    | none => (false, t)
    | some record =>
      match record.eligibleRecovery policy env.timestamp with
      | some _ => (true, t.store transactionId record.cleared)
      | none => (false, t)

/-- The development mode appends to its archive, the production mode overwrites the entry. -/
def archiveRecoveryMetadata (env : Env) (t : TransactionStateTracker) (transactionId : UInt64)
    (policy : RecoveryRetentionPolicy) : Bool × TransactionStateTracker :=
  if t.isDevMode then
    match t.cached transactionId with
    | none => (false, t)
    | some record =>
      match record.eligibleRecovery policy env.timestamp with
      | some recovery =>
        let entry := ArchivedRecoveryMetadata.ofRecovery env transactionId recovery
        let t := t.recache transactionId record.cleared
        (true, { t with archive := t.archive ++ [entry] })
      | none => (false, t)
  else
    match t.txstate.get transactionId with
    | none => (false, t)
    | some record =>
      match record.eligibleRecovery policy env.timestamp with
      | some recovery =>
        let entry := ArchivedRecoveryMetadata.ofRecovery env transactionId recovery
        let t := { t with rcvarch := t.rcvarch.set transactionId entry }
        (true, t.store transactionId record.cleared)
      | none => (false, t)

def getArchivedRecoveryMetadata (t : TransactionStateTracker) (transactionId : UInt64) :
    Option ArchivedRecoveryMetadata :=
  if t.isDevMode then
    KeyedList.lookup ArchivedRecoveryMetadata.transactionId transactionId t.archive
  else t.rcvarch.get transactionId

/-- The walk over the ids of a range, which ends with an overflow after the last id there is. -/
def walkRange (txstate : KeyedStore UInt64 TransactionStateRecord) (toId : UInt64) (limit : ℕ)
    (id : UInt64) (results : List TransactionStateRecord) :
    Except Panic (List TransactionStateRecord) :=
  if id ≤ toId ∧ results.length < limit then
    match _hnext : Word.checkedAdd64 id 1 with
    | none => .error .arithmeticOverflow
    | some next => walkRange txstate toId limit next (results ++ (txstate.get id).toList)
  else .ok results
termination_by 2 ^ 64 - id.toNat
decreasing_by
  have hstep := Word.checkedAdd64_one_eq_some.mp _hnext
  have hid := id.toNat_lt
  omega

def getTransactionsInRange (t : TransactionStateTracker) (fromId toId : UInt64)
    (limit : UInt32) : Except Panic (List TransactionStateRecord) :=
  let effectiveLimit := (min limit 100).toNat
  if toId < fromId then .ok []
  else if t.isDevMode then
    let matching := t.cache.filter fun r => fromId ≤ r.transactionId ∧ r.transactionId ≤ toId
    let matching := matching.mergeSort fun a b => a.transactionId ≤ b.transactionId
    .ok (matching.take effectiveLimit)
  else walkRange t.txstate toId effectiveLimit fromId []

def summarizeTransactionsByStatus (t : TransactionStateTracker) : TransactionStatusSummary :=
  if t.isDevMode then
    t.cache.foldl (fun summary record => summary.count record.state) .zero
  else
    t.txids.foldl (fun summary id =>
      match t.txstate.get id with
      | some record => summary.count record.state
      | none => summary) .zero

/-! ### Runs -/

/-- The calls that change the tracker. The two eviction settings are public fields. -/
inductive Operation
  | setEviction (enabled : Bool) (maxPerCall : UInt32)
  | autoEvictIfNeeded
  | createTransactionWithReason (transactionId : UInt64) (initiator : Address)
      (routingReason : Option String)
  | startTransaction (transactionId : UInt64)
  | completeTransaction (transactionId : UInt64)
  | failTransaction (transactionId : UInt64) (errorMessage : String)
  | advanceTransactionState (transactionId : UInt64) (newState : TransactionState)
  | recordRecoveryAttempt (transactionId : UInt64)
  | resumePartialRecovery (transactionId : UInt64)
  | importRecoveryState (jsonData : String) (initiator : Address)
  | pruneRecoveryMetadata (transactionId : UInt64) (policy : RecoveryRetentionPolicy)
  | archiveRecoveryMetadata (transactionId : UInt64) (policy : RecoveryRetentionPolicy)

structure Call where
  env : Env
  operation : Operation

/-- Run one call; the error it returns, if any, comes with the tracker it leaves behind. -/
def perform (host : Host) (decode : String → Except String ImportedRecovery)
    (t : TransactionStateTracker) (c : Call) :
    Except Panic (Option String × TransactionStateTracker) :=
  match c.operation with
  | .setEviction enabled maxPerCall =>
    .ok (none, { t with evictionEnabled := enabled, maxEvictionsPerCall := maxPerCall })
  | .autoEvictIfNeeded => .ok (none, t.autoEvictIfNeeded host)
  | .createTransactionWithReason id initiator routingReason =>
    .ok (none, (t.createTransactionWithReason host c.env id initiator routingReason).2)
  | .startTransaction id => .ok (rejection (t.startTransaction c.env id))
  | .completeTransaction id => .ok (rejection (t.completeTransaction c.env id))
  | .failTransaction id message => .ok (rejection (t.failTransaction c.env id message))
  | .advanceTransactionState id state => .ok (rejection (t.advanceTransactionState c.env id state))
  | .recordRecoveryAttempt id => rejection <$> t.recordRecoveryAttempt id
  | .resumePartialRecovery id => rejection <$> t.resumePartialRecovery c.env id
  | .importRecoveryState json initiator =>
    .ok (rejection (t.importRecoveryState decode c.env json initiator))
  | .pruneRecoveryMetadata id policy => .ok (none, (t.pruneRecoveryMetadata c.env id policy).2)
  | .archiveRecoveryMetadata id policy =>
    .ok (none, (t.archiveRecoveryMetadata c.env id policy).2)
where
  rejection {α : Type} (outcome : Except String α × TransactionStateTracker) :
      Option String × TransactionStateTracker :=
    match outcome with
    | (.ok _, t) => (none, t)
    | (.error message, t) => (some message, t)

def step (host : Host) (decode : String → Except String ImportedRecovery)
    (t : TransactionStateTracker) (c : Call) : Except Panic TransactionStateTracker :=
  Prod.snd <$> t.perform host decode c

end TransactionStateTracker

namespace Demo

def trackerHost : Host := ⟨fun _ _ _ => false, fun _ => false, .insertion⟩

def initiator : Address := ⟨"GINITIATOR"⟩

def exportedPending : String :=
  "\x7b\"failure_reason\":\"timeout\",\"last_updated_ledger\":7," ++
    "\"failed_from_state\":\"pending\",\"retry_count\":0,\"transaction_id\":1\x7d"

/-- A stand-in for the JSON parser that knows one text. -/
def decodeExported (json : String) : Except String ImportedRecovery :=
  if json = exportedPending then .ok ⟨"timeout", 7, "pending", 0, 1⟩
  else .error "expected value at line 1 column 1"

def trackerCall (time : UInt64) (operation : TransactionStateTracker.Operation) :
    TransactionStateTracker.Call :=
  ⟨⟨time, 1, []⟩, operation⟩

end Demo

end AnchorKit
