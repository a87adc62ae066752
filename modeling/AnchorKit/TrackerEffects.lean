import AnchorKit.TransactionTracker

/-!
# What an operation does to the records

The tracker seen apart from how it keeps its records: an operation looks a record up and, unless
it rejects the call, adds a record, replaces one, or replaces one and files an archive entry. Both
modes do what this description says; they differ in where they write and in what they log.
-/

namespace AnchorKit

open Fallible

namespace TransactionStateTracker

inductive Effect
  | reject
  | keep
  | insert (transactionId : UInt64) (record : TransactionStateRecord)
  | rewrite (transactionId : UInt64) (record : TransactionStateRecord)
  | file (transactionId : UInt64) (record : TransactionStateRecord)
      (entry : ArchivedRecoveryMetadata)

def Effect.isRejection : Effect → Bool
  | .reject => true
  | _ => false

/-- The id whose record an effect touches, with the record it leaves there. -/
def Effect.target : Effect → Option (UInt64 × TransactionStateRecord)
  | .reject | .keep => none
  | .insert id record | .rewrite id record | .file id record _ => some (id, record)

def Effect.replaces : Effect → Bool
  | .rewrite _ _ | .file _ _ _ => true
  | _ => false

section Description

variable (decode : String → Except String ImportedRecovery) (env : Env)
  (find : UInt64 → Option TransactionStateRecord)

def onRecord (id : UInt64)
    (verdict : TransactionStateRecord → Except Panic (Except String TransactionStateRecord)) :
    Except Panic Effect :=
  match find id with
  | none => .ok .reject
  | some record =>
    match verdict record with
    | .error panic => .error panic
    | .ok (.error _) => .ok .reject
    | .ok (.ok record) => .ok (.rewrite id record)

def transition (newState : TransactionState) (errorMessage : Option String)
    (record : TransactionStateRecord) : Except Panic (Except String TransactionStateRecord) :=
  if record.state.isValidTransition newState then .ok (.ok (record.updated env newState errorMessage))
  else .ok (.error (record.state.illegalTransitionMessage newState))

def resumption (record : TransactionStateRecord) :
    Except Panic (Except String TransactionStateRecord) :=
  match record.resumePoint with
  | .error panic => .error panic
  | .ok (.error message) => .ok (.error message)
  | .ok (.ok (state, retryCount)) => .ok (.ok (record.resumed env state retryCount))

def readImport (json : String) : Option (UInt64 × RecoveryMetadata) :=
  match decode json with
  | .error _ => none
  | .ok found =>
    match TransactionState.fromStr found.failedFromState with
    | none => none
    | some failedFrom =>
      if failedFrom.isTerminal then none
      else some (found.transactionId,
        { failureReason := found.failureReason, lastUpdatedLedger := found.lastUpdatedLedger
          failedFromState := failedFrom, retryCount := found.retryCount })

def importEffect (json : String) (initiator : Address) : Effect :=
  match readImport decode json with
  | none => .reject
  | some (id, recovery) =>
    match find id with
    | none => .insert id (.imported env recovery id initiator)
    | some record =>
      if record.state ≠ .failed then .reject else .rewrite id (record.withImported env recovery)

def retire (id : UInt64) (policy : RecoveryRetentionPolicy)
    (effect : TransactionStateRecord → RecoveryMetadata → Effect) : Effect :=
  match find id with
  | none => .keep
  | some record =>
    match record.eligibleRecovery policy env.timestamp with
    | none => .keep
    | some recovery => effect record recovery

def effect : Operation → Except Panic Effect
  | .setEviction _ _ | .autoEvictIfNeeded => .ok .keep
  | .createTransactionWithReason id initiator routingReason =>
    .ok (.insert id (.opened env id initiator routingReason))
  | .startTransaction id => onRecord find id (transition env .inProgress none)
  | .completeTransaction id => onRecord find id (transition env .completed none)
  | .failTransaction id message => onRecord find id (transition env .failed (some message))
  | .advanceTransactionState id state => onRecord find id (transition env state none)
  | .recordRecoveryAttempt id => onRecord find id TransactionStateRecord.attempted
  | .resumePartialRecovery id => onRecord find id (resumption env)
  | .importRecoveryState json initiator => .ok (importEffect decode env find json initiator)
  | .pruneRecoveryMetadata id policy =>
    .ok (retire env find id policy fun record _ => .rewrite id record.cleared)
  | .archiveRecoveryMetadata id policy =>
    .ok (retire env find id policy fun record recovery =>
      .file id record.cleared (.ofRecovery env id recovery))

def Operation.requested : Operation → Option (UInt64 × TransactionState × Option String)
  | .startTransaction id => some (id, .inProgress, none)
  | .completeTransaction id => some (id, .completed, none)
  | .failTransaction id message => some (id, .failed, some message)
  | .advanceTransactionState id state => some (id, state, none)
  | _ => none

def Operation.evicts : Operation → Bool
  | .autoEvictIfNeeded | .createTransactionWithReason _ _ _ => true
  | _ => false

inductive Acts : Operation → Effect → Prop
  | rejected (operation : Operation) : Acts operation .reject
  | kept (operation : Operation) : Acts operation .keep
  | opened (id : UInt64) (initiator : Address) (routingReason : Option String) :
    Acts (.createTransactionWithReason id initiator routingReason)
      (.insert id (.opened env id initiator routingReason))
  | imported {json : String} {id : UInt64} {recovery : RecoveryMetadata} (initiator : Address)
      (hread : readImport decode json = some (id, recovery)) (hnew : find id = none) :
    Acts (.importRecoveryState json initiator) (.insert id (.imported env recovery id initiator))
  | replaced {json : String} {id : UInt64} {recovery : RecoveryMetadata}
      {record : TransactionStateRecord} (initiator : Address)
      (hread : readImport decode json = some (id, recovery)) (hfound : find id = some record) :
    Acts (.importRecoveryState json initiator) (.rewrite id (record.withImported env recovery))
  | updated {operation : Operation} {id : UInt64} {newState : TransactionState}
      {errorMessage : Option String} {record : TransactionStateRecord}
      (hrequested : operation.requested = some (id, newState, errorMessage))
      (hfound : find id = some record) (hvalid : record.state.isValidTransition newState = true) :
    Acts operation (.rewrite id (record.updated env newState errorMessage))
  | attempted {id : UInt64} {record after : TransactionStateRecord}
      (hfound : find id = some record) (hattempted : record.attempted = .ok (.ok after)) :
    Acts (.recordRecoveryAttempt id) (.rewrite id after)
  | resumed {id : UInt64} {record : TransactionStateRecord} {state : TransactionState}
      {retryCount : UInt32} (hfound : find id = some record)
      (hpoint : record.resumePoint = .ok (.ok (state, retryCount))) :
    Acts (.resumePartialRecovery id) (.rewrite id (record.resumed env state retryCount))
  | pruned {id : UInt64} {record : TransactionStateRecord} (policy : RecoveryRetentionPolicy)
      (hfound : find id = some record) :
    Acts (.pruneRecoveryMetadata id policy) (.rewrite id record.cleared)
  | archived {id : UInt64} {record : TransactionStateRecord} {recovery : RecoveryMetadata}
      {policy : RecoveryRetentionPolicy} (hfound : find id = some record)
      (heligible : record.eligibleRecovery policy env.timestamp = some recovery) :
    Acts (.archiveRecoveryMetadata id policy)
      (.file id record.cleared (.ofRecovery env id recovery))

/-- Records stand under their ids: a new record under its own, a replaced one under the id it had.
Replacing a record evicts none. -/
def Effect.Fits (operation : Operation) : Effect → Prop
  | .reject | .keep => True
  | .insert id record => record.transactionId = id
  | .rewrite id record | .file id record _ =>
    operation.evicts = false ∧
      ∃ old, find id = some old ∧ record.transactionId = old.transactionId

variable {decode env find}

theorem Acts.fits {operation : Operation} {e : Effect} (h : Acts decode env find operation e) :
    e.Fits find operation := by
  cases h with
  | rejected => trivial
  | kept => trivial
  | opened => rfl
  | imported => rfl
  | replaced _ _ hfound => exact ⟨rfl, _, hfound, rfl⟩
  | updated hrequested hfound =>
    refine ⟨?_, _, hfound, rfl⟩
    cases operation <;> cases hrequested <;> rfl
  | attempted hfound hattempted =>
    obtain ⟨_, _, _, _, _, rfl⟩ := TransactionStateRecord.attempted_eq_ok.mp hattempted
    exact ⟨rfl, _, hfound, rfl⟩
  | resumed hfound => exact ⟨rfl, _, hfound, rfl⟩
  | pruned _ hfound => exact ⟨rfl, _, hfound, rfl⟩
  | archived hfound => exact ⟨rfl, _, hfound, rfl⟩

theorem onRecord_eq_ok {id : UInt64} {e : Effect}
    {verdict : TransactionStateRecord → Except Panic (Except String TransactionStateRecord)}
    (h : onRecord find id verdict = .ok e) :
    e = .reject ∨ ∃ record after, find id = some record ∧ verdict record = .ok (.ok after) ∧
      e = .rewrite id after := by
  unfold onRecord at h
  split at h
  · exact Or.inl (Except.ok.inj h).symm
  · rename_i record hfound
    split at h
    · cases h
    · exact Or.inl (Except.ok.inj h).symm
    · rename_i after hverdict
      exact Or.inr ⟨record, after, hfound, hverdict, (Except.ok.inj h).symm⟩

theorem transition_eq_ok {newState : TransactionState} {errorMessage : Option String}
    {record after : TransactionStateRecord} :
    transition env newState errorMessage record = .ok (.ok after) ↔
      record.state.isValidTransition newState = true ∧
        record.updated env newState errorMessage = after := by
  unfold transition
  split <;> simp [*]

theorem effect_of_requested {operation : Operation} {id : UInt64} {newState : TransactionState}
    {errorMessage : Option String}
    (h : operation.requested = some (id, newState, errorMessage)) :
    effect decode env find operation = onRecord find id (transition env newState errorMessage) := by
  cases operation <;> cases h <;> rfl

theorem acts_of_requested {operation : Operation} {id : UInt64} {newState : TransactionState}
    {errorMessage : Option String} {e : Effect}
    (hrequested : operation.requested = some (id, newState, errorMessage))
    (h : effect decode env find operation = .ok e) : Acts decode env find operation e := by
  rw [effect_of_requested hrequested] at h
  obtain rfl | ⟨record, after, hfound, hverdict, rfl⟩ := onRecord_eq_ok h
  · exact .rejected _
  · obtain ⟨hvalid, rfl⟩ := transition_eq_ok.mp hverdict
    exact .updated hrequested hfound hvalid

theorem resumption_eq_ok {record after : TransactionStateRecord} :
    resumption env record = .ok (.ok after) ↔
      ∃ state retryCount, record.resumePoint = .ok (.ok (state, retryCount)) ∧
        record.resumed env state retryCount = after := by
  unfold resumption
  split
  · simp [*]
  · simp [*]
  · rename_i state retryCount hpoint
    simp [hpoint]

theorem retire_cases {id : UInt64} {policy : RecoveryRetentionPolicy} {e : Effect}
    {effect : TransactionStateRecord → RecoveryMetadata → Effect}
    (h : retire env find id policy effect = e) :
    e = .keep ∨ ∃ record recovery, find id = some record ∧
      record.eligibleRecovery policy env.timestamp = some recovery ∧ e = effect record recovery := by
  unfold retire at h
  split at h
  · exact Or.inl h.symm
  · rename_i record hfound
    split at h
    · exact Or.inl h.symm
    · rename_i recovery heligible
      exact Or.inr ⟨record, recovery, hfound, heligible, h.symm⟩

theorem effect_acts {operation : Operation} {e : Effect}
    (h : effect decode env find operation = .ok e) : Acts decode env find operation e := by
  cases operation with
  | setEviction enabled maxPerCall =>
    obtain rfl := Except.ok.inj h
    exact .kept _
  | autoEvictIfNeeded =>
    obtain rfl := Except.ok.inj h
    exact .kept _
  | createTransactionWithReason id initiator routingReason =>
    obtain rfl := Except.ok.inj h
    exact .opened id initiator routingReason
  | startTransaction id => exact acts_of_requested rfl h
  | completeTransaction id => exact acts_of_requested rfl h
  | failTransaction id message => exact acts_of_requested rfl h
  | advanceTransactionState id state => exact acts_of_requested rfl h
  | recordRecoveryAttempt id =>
    obtain rfl | ⟨record, after, hfound, hattempted, rfl⟩ := onRecord_eq_ok h
    · exact .rejected _
    · exact .attempted hfound hattempted
  | resumePartialRecovery id =>
    obtain rfl | ⟨record, after, hfound, hresumed, rfl⟩ := onRecord_eq_ok h
    · exact .rejected _
    · obtain ⟨state, retryCount, hpoint, rfl⟩ := resumption_eq_ok.mp hresumed
      exact .resumed hfound hpoint
  | importRecoveryState json initiator =>
    obtain rfl := Except.ok.inj h
    unfold importEffect
    split
    · exact .rejected _
    · rename_i id recovery hread
      split
      · exact .imported initiator hread ‹_›
      · split
        · exact .rejected _
        · exact .replaced initiator hread ‹_›
  | pruneRecoveryMetadata id policy =>
    obtain hsame := Except.ok.inj h
    rcases retire_cases hsame with rfl | ⟨record, recovery, hfound, _, rfl⟩
    · exact .kept _
    · exact .pruned policy hfound
  | archiveRecoveryMetadata id policy =>
    obtain hsame := Except.ok.inj h
    rcases retire_cases hsame with rfl | ⟨record, recovery, hfound, heligible, rfl⟩
    · exact .kept _
    · exact .archived hfound heligible

/-- A call that resumes a failed record from an open state does so unless it panics. -/
theorem effect_resume {id : UInt64} {record : TransactionStateRecord} {recovery : RecoveryMetadata}
    {e : Effect} (hfound : find id = some record) (hfailed : record.state = .failed)
    (hrecovery : record.recoveryMetadata = some recovery)
    (hopen : recovery.failedFromState.isTerminal = false)
    (heffect : effect decode env find (.resumePartialRecovery id) = .ok e) :
    ∃ retryCount, e = .rewrite id (record.resumed env recovery.failedFromState retryCount) := by
  simp only [effect, onRecord, hfound, resumption, TransactionStateRecord.resumePoint, hfailed,
    hrecovery, hopen, ne_eq, not_true_eq_false, Bool.false_eq_true, if_false] at heffect
  cases hcount : Word.checkedAdd32 recovery.retryCount 1 with
  | none => simp [hcount] at heffect
  | some retryCount =>
    simp only [hcount, Except.ok.injEq] at heffect
    exact ⟨retryCount, heffect.symm⟩

end Description

/-! ### The description is what both modes do -/

/-- The tracker without the logs that nothing reads. -/
def unlogged (t : TransactionStateTracker) : TransactionStateTracker :=
  { t with auditLog := [], txaudit := .empty }

def write (t : TransactionStateTracker) (id : UInt64) (record : TransactionStateRecord) :
    TransactionStateTracker :=
  if t.isDevMode then t.recache id record else t.store id record

def fileEntry (t : TransactionStateTracker) (id : UInt64) (entry : ArchivedRecoveryMetadata) :
    TransactionStateTracker :=
  if t.isDevMode then { t with archive := t.archive ++ [entry] }
  else { t with rcvarch := t.rcvarch.set id entry }

def apply (t : TransactionStateTracker) : Effect → TransactionStateTracker
  | .reject | .keep => t
  | .insert id record => t.register id record
  | .rewrite id record => t.write id record
  | .file id record entry => (t.write id record).fileEntry id entry

def prepared (host : Host) (t : TransactionStateTracker) : Operation → TransactionStateTracker
  | .setEviction enabled maxPerCall =>
    { t with evictionEnabled := enabled, maxEvictionsPerCall := maxPerCall }
  | .autoEvictIfNeeded | .createTransactionWithReason _ _ _ => t.autoEvictIfNeeded host
  | _ => t

section Refinement

variable (host : Host) (decode : String → Except String ImportedRecovery)
  (t : TransactionStateTracker) (env : Env) (id : UInt64)

/-- Whether a call was rejected, and the tracker it left without its logs. -/
def visible (outcome : Option String × TransactionStateTracker) : Bool × TransactionStateTracker :=
  (outcome.1.isSome, outcome.2.unlogged)

def applied (e : Effect) : Bool × TransactionStateTracker := (e.isRejection, (t.apply e).unlogged)

@[simp] theorem isDevMode_audit (entry : TransitionAuditEntry) :
    (t.audit entry).isDevMode = t.isDevMode := by
  unfold audit
  split <;> rfl

theorem unlogged_audit (entry : TransitionAuditEntry) : (t.audit entry).unlogged = t.unlogged := by
  unfold audit
  split <;> rfl

theorem write_audit (entry : TransitionAuditEntry) (record : TransactionStateRecord) :
    ((t.audit entry).write id record).unlogged = (t.write id record).unlogged := by
  unfold write
  rw [isDevMode_audit]
  unfold audit
  split <;> rfl

def notFound : String :=
  if t.isDevMode then "Transaction not found in cache" else "Transaction not found"

theorem updateState_eq (newState : TransactionState) (errorMessage : Option String) :
    t.updateState env id newState errorMessage =
      match t.getTransactionState id with
      | none => (.error t.notFound, t)
      | some record =>
        let valid := record.state.isValidTransition newState
        let t := t.audit ⟨id, record.state, newState, env.timestamp, valid⟩
        if !valid then (.error (record.state.illegalTransitionMessage newState), t)
        else
          let record := record.updated env newState errorMessage
          (.ok record, t.write id record) := by
  unfold updateState getTransactionState notFound write
  obtain ⟨_ | _⟩ := t
  · rfl
  · rfl

theorem recordRecoveryAttempt_eq :
    t.recordRecoveryAttempt id =
      match t.getTransactionState id with
      | none => .ok (.error t.notFound, t)
      | some record =>
        match record.attempted with
        | .error panic => .error panic
        | .ok (.error message) => .ok (.error message, t)
        | .ok (.ok record) => .ok (.ok (), t.write id record) := by
  unfold recordRecoveryAttempt getTransactionState notFound write
  cases t.isDevMode with
  | true => rfl
  | false => rfl

theorem resumePartialRecovery_eq :
    t.resumePartialRecovery env id =
      match t.getTransactionState id with
      | none => .ok (.error t.notFound, t)
      | some record =>
        match record.resumePoint with
        | .error panic => .error panic
        | .ok (.error message) => .ok (.error message, t)
        | .ok (.ok (resumeState, newRetryCount)) =>
          let record := record.resumed env resumeState newRetryCount
          let entry := ⟨id, .failed, resumeState, env.timestamp, true⟩
          .ok (.ok record, if t.isDevMode then (t.write id record).audit entry
            else t.write id record) := by
  unfold resumePartialRecovery getTransactionState notFound write
  cases t.isDevMode with
  | true => rfl
  | false => rfl

theorem pruneRecoveryMetadata_eq (policy : RecoveryRetentionPolicy) :
    t.pruneRecoveryMetadata env id policy =
      match t.getTransactionState id with
      | none => (false, t)
      | some record =>
        match record.eligibleRecovery policy env.timestamp with
        | some _ => (true, t.write id record.cleared)
        | none => (false, t) := by
  unfold pruneRecoveryMetadata getTransactionState write
  cases t.isDevMode with
  | true => rfl
  | false => rfl

theorem archiveRecoveryMetadata_eq (policy : RecoveryRetentionPolicy) :
    t.archiveRecoveryMetadata env id policy =
      match t.getTransactionState id with
      | none => (false, t)
      | some record =>
        match record.eligibleRecovery policy env.timestamp with
        | some recovery =>
          (true, (t.write id record.cleared).fileEntry id (.ofRecovery env id recovery))
        | none => (false, t) := by
  unfold archiveRecoveryMetadata getTransactionState write fileEntry
  obtain ⟨_ | _⟩ := t
  · rfl
  · rfl

theorem updateState_visible (newState : TransactionState) (errorMessage : Option String) :
    .ok (visible (perform.rejection (t.updateState env id newState errorMessage))) =
      t.applied <$> onRecord t.getTransactionState id (transition env newState errorMessage) := by
  rw [updateState_eq, onRecord]
  cases t.getTransactionState id with
  | none => rfl
  | some record =>
    dsimp only [transition]
    cases record.state.isValidTransition newState with
    | true =>
      change Except.ok (false, _) = Except.ok (false, _)
      exact congrArg (fun u => Except.ok (false, u)) (write_audit t id _ _)
    | false =>
      change Except.ok (true, _) = Except.ok (true, _)
      exact congrArg (fun u => Except.ok (true, u)) (unlogged_audit t _)

theorem recordRecoveryAttempt_visible :
    (visible ∘ perform.rejection) <$> t.recordRecoveryAttempt id =
      t.applied <$> onRecord t.getTransactionState id TransactionStateRecord.attempted := by
  rw [recordRecoveryAttempt_eq, onRecord]
  cases t.getTransactionState id with
  | none => rfl
  | some record =>
    dsimp only
    cases record.attempted with
    | error panic => rfl
    | ok verdict => cases verdict <;> rfl

theorem resumePartialRecovery_visible :
    (visible ∘ perform.rejection) <$> t.resumePartialRecovery env id =
      t.applied <$> onRecord t.getTransactionState id (resumption env) := by
  rw [resumePartialRecovery_eq, onRecord]
  cases t.getTransactionState id with
  | none => rfl
  | some record =>
    unfold resumption
    dsimp only
    cases record.resumePoint with
    | error panic => rfl
    | ok verdict =>
      cases verdict with
      | error message => rfl
      | ok point =>
        change Except.ok (false, _) = Except.ok (false, _)
        apply congrArg fun u => Except.ok (false, u)
        change (if t.isDevMode = true then _ else _ : TransactionStateTracker).unlogged = _
        split
        · exact unlogged_audit _ _
        · rfl

theorem importRecoveryState_visible (json : String) (initiator : Address) :
    visible (perform.rejection (t.importRecoveryState decode env json initiator)) =
      t.applied (importEffect decode env t.getTransactionState json initiator) := by
  unfold importRecoveryState importEffect readImport
  cases decode json with
  | error e => rfl
  | ok found =>
    dsimp only
    cases TransactionState.fromStr found.failedFromState with
    | none => rfl
    | some failedFrom =>
      dsimp only
      by_cases hterminal : failedFrom.isTerminal = true
      · rw [if_pos hterminal, if_pos hterminal]
        rfl
      · rw [if_neg hterminal, if_neg hterminal]
        dsimp only
        cases t.getTransactionState found.transactionId with
        | none => rfl
        | some record =>
          dsimp only
          by_cases hfailed : record.state ≠ .failed
          · rw [if_pos hfailed, if_pos hfailed]
            rfl
          · rw [if_neg hfailed, if_neg hfailed]
            unfold applied apply write
            cases t.isDevMode <;> rfl

theorem pruneRecoveryMetadata_visible (policy : RecoveryRetentionPolicy) :
    (false, (t.pruneRecoveryMetadata env id policy).2.unlogged) =
      t.applied (retire env t.getTransactionState id policy fun record _ =>
        .rewrite id record.cleared) := by
  rw [pruneRecoveryMetadata_eq, retire]
  cases t.getTransactionState id with
  | none => rfl
  | some record =>
    dsimp only
    cases record.eligibleRecovery policy env.timestamp <;> rfl

theorem archiveRecoveryMetadata_visible (policy : RecoveryRetentionPolicy) :
    (false, (t.archiveRecoveryMetadata env id policy).2.unlogged) =
      t.applied (retire env t.getTransactionState id policy fun record recovery =>
        .file id record.cleared (.ofRecovery env id recovery)) := by
  rw [archiveRecoveryMetadata_eq, retire]
  cases t.getTransactionState id with
  | none => rfl
  | some record =>
    dsimp only
    cases record.eligibleRecovery policy env.timestamp <;> rfl

/-- Every call has the described effect, and is rejected or stopped as described. -/
theorem perform_visible (c : Call) :
    visible <$> t.perform host decode c =
      (t.prepared host c.operation).applied <$>
        effect decode c.env t.getTransactionState c.operation := by
  obtain ⟨env, operation⟩ := c
  cases operation with
  | setEviction enabled maxPerCall => rfl
  | autoEvictIfNeeded => rfl
  | createTransactionWithReason id initiator routingReason => rfl
  | startTransaction id => exact updateState_visible t env id _ _
  | completeTransaction id => exact updateState_visible t env id _ _
  | failTransaction id message => exact updateState_visible t env id _ _
  | advanceTransactionState id state => exact updateState_visible t env id _ _
  | recordRecoveryAttempt id =>
    change visible <$> (perform.rejection <$> t.recordRecoveryAttempt id) = _
    rw [← comp_map]
    exact recordRecoveryAttempt_visible t id
  | resumePartialRecovery id =>
    change visible <$> (perform.rejection <$> t.resumePartialRecovery env id) = _
    rw [← comp_map]
    exact resumePartialRecovery_visible t env id
  | importRecoveryState json initiator =>
    exact congrArg Except.ok (importRecoveryState_visible decode t env json initiator)
  | pruneRecoveryMetadata id policy =>
    exact congrArg Except.ok (pruneRecoveryMetadata_visible t env id policy)
  | archiveRecoveryMetadata id policy =>
    exact congrArg Except.ok (archiveRecoveryMetadata_visible t env id policy)

end Refinement

section Steps

variable {host : Host} {decode : String → Except String ImportedRecovery}
  {t t' : TransactionStateTracker} {c : Call} {rejection : Option String}

theorem perform_eq_ok (h : t.perform host decode c = .ok (rejection, t')) :
    ∃ e, effect decode c.env t.getTransactionState c.operation = .ok e ∧
      rejection.isSome = e.isRejection ∧
      t'.unlogged = ((t.prepared host c.operation).apply e).unlogged := by
  have hvisible := perform_visible host decode t c
  rw [h] at hvisible
  obtain ⟨e, heffect, happlied⟩ := map_eq_ok.mp hvisible.symm
  obtain ⟨hrejection, hstate⟩ := Prod.mk.inj happlied
  exact ⟨e, heffect, hrejection.symm, hstate.symm⟩

theorem step_eq_ok (h : t.step host decode c = .ok t') :
    ∃ e, effect decode c.env t.getTransactionState c.operation = .ok e ∧
      t'.unlogged = ((t.prepared host c.operation).apply e).unlogged := by
  obtain ⟨⟨rejection, u⟩, hperform, rfl⟩ := map_eq_ok.mp h
  obtain ⟨e, heffect, _, hstate⟩ := perform_eq_ok hperform
  exact ⟨e, heffect, hstate⟩

theorem succeeds_step :
    Succeeds (t.step host decode c) ↔
      Succeeds (effect decode c.env t.getTransactionState c.operation) := by
  rw [step, succeeds_map, ← succeeds_map (f := visible), perform_visible, succeeds_map]

end Steps

/-! ### What an effect leaves to be found -/

section Records

variable {t : TransactionStateTracker} {id x : UInt64} {record old : TransactionStateRecord}

theorem getTransactionState_congr {t u : TransactionStateTracker} (h : t.unlogged = u.unlogged) :
    t.getTransactionState = u.getTransactionState := by
  change t.unlogged.getTransactionState = u.unlogged.getTransactionState
  rw [h]

theorem find_write (hold : t.getTransactionState id = some old)
    (hid : record.transactionId = old.transactionId) :
    (t.write id record).getTransactionState x =
      if x = id then some record else t.getTransactionState x := by
  cases hdev : t.isDevMode with
  | true =>
    simp only [getTransactionState, hdev, if_true] at hold ⊢
    simp only [write, recache, cached, hdev, if_true] at hold ⊢
    rw [KeyedList.lookup_rewrite (hid.trans (KeyedList.key_of_lookup hold)), hold, Option.map_some]
  | false =>
    simp only [getTransactionState, write, store, hdev, Bool.false_eq_true, if_false]
    exact KeyedStore.get_set _ _ _ _

theorem find_register (hnew : t.getTransactionState id = none) (hid : record.transactionId = id) :
    (t.register id record).getTransactionState x =
      if x = id then some record else t.getTransactionState x := by
  cases hdev : t.isDevMode with
  | true =>
    simp only [getTransactionState, hdev, if_true] at hnew ⊢
    simp only [register, cached, hdev, if_true] at hnew ⊢
    rw [KeyedList.lookup_append, KeyedList.lookup_singleton, hid]
    by_cases hx : x = id
    · rw [hx, hnew, if_pos rfl, Option.none_or]
    · rw [if_neg (Ne.symm hx), if_neg hx, Option.or_none]
  | false =>
    simp only [getTransactionState, register, store, hdev, Bool.false_eq_true, if_false]
    exact KeyedStore.get_set _ _ _ _

theorem find_register_of_ne (hid : record.transactionId = id) (hx : x ≠ id) :
    (t.register id record).getTransactionState x = t.getTransactionState x := by
  cases hdev : t.isDevMode with
  | true =>
    simp only [getTransactionState, register, cached, hdev, if_true]
    rw [KeyedList.lookup_append, KeyedList.lookup_singleton, hid, if_neg (Ne.symm hx),
      Option.or_none]
  | false =>
    simp only [getTransactionState, register, store, hdev, Bool.false_eq_true, if_false]
    exact KeyedStore.get_set_of_ne _ _ hx

theorem find_fileEntry (entry : ArchivedRecoveryMetadata) :
    (t.fileEntry id entry).getTransactionState = t.getTransactionState := by
  unfold fileEntry
  split <;> rfl

def evictees (host : Host) (t : TransactionStateTracker) : List UInt64 :=
  if t.evictionEnabled ∧ t.budgetStatus ≠ .ok then t.oldestIds host t.cachedTerminal else []

theorem autoEvictIfNeeded_of_evictees_eq_nil {host : Host} (hdev : t.isDevMode = true)
    (h : t.evictees host = []) : t.autoEvictIfNeeded host = t := by
  unfold autoEvictIfNeeded
  by_cases henabled : t.evictionEnabled = true
  · by_cases hstatus : t.budgetStatus = .ok
    · simp [henabled, hstatus]
    · rw [evictees, if_pos ⟨henabled, hstatus⟩] at h
      simp [henabled, hstatus, hdev, h]
  · simp [henabled]

theorem autoEvictIfNeeded_of_budgetStatus {host : Host} (h : t.budgetStatus = .ok) :
    t.autoEvictIfNeeded host = t := by
  unfold autoEvictIfNeeded
  simp [h]

/-- An eviction leaves a record alone or removes it. -/
theorem find_autoEvictIfNeeded (host : Host) :
    (t.autoEvictIfNeeded host).getTransactionState id = t.getTransactionState id ∨
      (t.autoEvictIfNeeded host).getTransactionState id = none := by
  unfold autoEvictIfNeeded
  dsimp only
  split
  · exact Or.inl rfl
  split
  · exact Or.inl rfl
  split
  · rename_i hdev
    split
    · simp only [getTransactionState, cached, hdev, if_true]
      by_cases hid : id ∈ t.oldestIds host t.cachedTerminal
      · right
        rw [KeyedList.lookup_eq_none]
        simp only [List.mem_map, List.mem_filter, not_exists, not_and]
        rintro record ⟨_, hkept⟩ rfl
        simp [hid] at hkept
      · left
        apply KeyedList.lookup_filter_of_not
        rintro record _ rfl
        simp [hid]
    · exact Or.inl rfl
  · rename_i hdev
    split
    · simp only [getTransactionState, hdev, Bool.false_eq_true, if_false,
        KeyedStore.get_foldl_remove]
      split
      · exact Or.inr rfl
      · exact Or.inl rfl
    · exact Or.inl rfl

/-- The record is kept by the tracker, if only behind another one with its id. -/
def Holds (t : TransactionStateTracker) (record : TransactionStateRecord) : Prop :=
  if t.isDevMode then record ∈ t.cache else ∃ id, t.txstate.get id = some record

theorem holds_of_find (h : t.getTransactionState id = some record) : t.Holds record := by
  unfold Holds
  unfold getTransactionState at h
  split
  · rename_i hdev
    rw [if_pos hdev] at h
    exact KeyedList.mem_of_lookup h
  · rename_i hdev
    rw [if_neg hdev] at h
    exact ⟨id, h⟩

theorem holds_congr {t u : TransactionStateTracker} (h : t.unlogged = u.unlogged) :
    t.Holds record ↔ u.Holds record := by
  change t.unlogged.Holds record ↔ u.unlogged.Holds record
  rw [h]

theorem holds_of_register (h : (t.register id record).Holds old) : old = record ∨ t.Holds old := by
  cases hdev : t.isDevMode with
  | true =>
    simp only [Holds, register, hdev, if_true, List.mem_append, List.mem_singleton] at h ⊢
    exact h.symm
  | false =>
    simp only [Holds, register, store, hdev, Bool.false_eq_true, if_false] at h ⊢
    obtain ⟨k, hk⟩ := h
    rcases KeyedStore.get_set_cases hk with ⟨_, rfl⟩ | hk
    · exact Or.inl rfl
    · exact Or.inr ⟨k, hk⟩

theorem holds_register (t : TransactionStateTracker) (id : UInt64)
    (record : TransactionStateRecord) : (t.register id record).Holds record := by
  cases hdev : t.isDevMode with
  | true => simp [Holds, register, hdev]
  | false =>
    simp only [Holds, register, store, hdev, Bool.false_eq_true, if_false]
    exact ⟨id, KeyedStore.get_set_self _ _ _⟩

theorem holds_of_write (h : (t.write id record).Holds old) : old = record ∨ t.Holds old := by
  cases hdev : t.isDevMode with
  | true =>
    simp only [Holds, write, recache, hdev, if_true] at h ⊢
    exact KeyedList.mem_of_mem_rewrite h
  | false =>
    simp only [Holds, write, store, hdev, Bool.false_eq_true, if_false] at h ⊢
    obtain ⟨k, hk⟩ := h
    rcases KeyedStore.get_set_cases hk with ⟨_, rfl⟩ | hk
    · exact Or.inl rfl
    · exact Or.inr ⟨k, hk⟩

theorem holds_fileEntry (entry : ArchivedRecoveryMetadata) :
    (t.fileEntry id entry).Holds record ↔ t.Holds record := by
  unfold fileEntry
  split <;> rfl

theorem holds_of_autoEvictIfNeeded {host : Host} (h : (t.autoEvictIfNeeded host).Holds record) :
    t.Holds record := by
  unfold autoEvictIfNeeded at h
  dsimp only at h
  split at h
  · exact h
  split at h
  · exact h
  split at h
  · rename_i hdev
    split at h
    · simp only [Holds, hdev, if_true] at h ⊢
      exact List.mem_of_mem_filter h
    · exact h
  · rename_i hdev
    split at h
    · simp only [Holds, hdev, Bool.false_eq_true, if_false, KeyedStore.get_foldl_remove] at h ⊢
      obtain ⟨k, hk⟩ := h
      split at hk
      · cases hk
      · exact ⟨k, hk⟩
    · exact h

end Records

/-! ### What a step leaves to be found -/

section Steps

variable {host : Host} {decode : String → Except String ImportedRecovery}
  {t : TransactionStateTracker} {operation : Operation} {e : Effect} {id x : UInt64}
  {record : TransactionStateRecord}

theorem find_prepared (host : Host) (t : TransactionStateTracker) (operation : Operation) :
    (t.prepared host operation).getTransactionState id = t.getTransactionState id ∨
      (t.prepared host operation).getTransactionState id = none := by
  cases operation with
  | autoEvictIfNeeded => exact find_autoEvictIfNeeded host
  | createTransactionWithReason _ _ _ => exact find_autoEvictIfNeeded host
  | _ => exact Or.inl rfl

theorem holds_of_prepared (h : (t.prepared host operation).Holds record) :
    t.Holds record := by
  cases operation with
  | autoEvictIfNeeded => exact holds_of_autoEvictIfNeeded h
  | createTransactionWithReason _ _ _ => exact holds_of_autoEvictIfNeeded h
  | _ => exact h

theorem find_prepared_of_not_evicts (host : Host) (t : TransactionStateTracker)
    (h : operation.evicts = false) :
    (t.prepared host operation).getTransactionState = t.getTransactionState := by
  cases operation <;> first | rfl | cases h

theorem find_apply_of_replaces (hfits : e.Fits t.getTransactionState operation)
    (htarget : e.target = some (id, record)) (hreplaces : e.replaces = true) :
    ((t.prepared host operation).apply e).getTransactionState x =
      if x = id then some record else t.getTransactionState x := by
  cases e with
  | reject => cases hreplaces
  | keep => cases hreplaces
  | insert _ _ => cases hreplaces
  | rewrite k after =>
    obtain ⟨hquiet, old, hold, hid⟩ := hfits
    cases htarget
    have hsame := find_prepared_of_not_evicts host t hquiet
    rw [← hsame] at hold ⊢
    exact find_write hold hid
  | file k after entry =>
    obtain ⟨hquiet, old, hold, hid⟩ := hfits
    cases htarget
    have hsame := find_prepared_of_not_evicts host t hquiet
    rw [← hsame] at hold ⊢
    rw [apply, find_fileEntry]
    exact find_write hold hid

/-- Other records are left alone or evicted. -/
theorem find_apply_of_target_ne (hfits : e.Fits t.getTransactionState operation)
    (hne : ∀ record, e.target ≠ some (x, record)) :
    ((t.prepared host operation).apply e).getTransactionState x = t.getTransactionState x ∨
      ((t.prepared host operation).apply e).getTransactionState x = none := by
  cases e with
  | reject => exact find_prepared host t operation
  | keep => exact find_prepared host t operation
  | insert id record =>
    have hx : x ≠ id := fun hx => hne record (by rw [hx]; rfl)
    rw [apply, find_register_of_ne hfits hx]
    exact find_prepared host t operation
  | rewrite id record =>
    have hx : x ≠ id := fun hx => hne record (by rw [hx]; rfl)
    rw [find_apply_of_replaces hfits rfl rfl, if_neg hx]
    exact Or.inl rfl
  | file id record entry =>
    have hx : x ≠ id := fun hx => hne record (by rw [hx]; rfl)
    rw [find_apply_of_replaces hfits rfl rfl, if_neg hx]
    exact Or.inl rfl

theorem holds_of_apply (h : ((t.prepared host operation).apply e).Holds record) :
    t.Holds record ∨ ∃ id, e.target = some (id, record) := by
  have hwritten {id : UInt64} {after : TransactionStateRecord}
      (h : record = after ∨ (t.prepared host operation).Holds record) :
      t.Holds record ∨ ∃ k, some (id, after) = some (k, record) := by
    rcases h with rfl | h
    · exact Or.inr ⟨id, rfl⟩
    · exact Or.inl (holds_of_prepared h)
  cases e with
  | reject => exact Or.inl (holds_of_prepared h)
  | keep => exact Or.inl (holds_of_prepared h)
  | insert id after => exact hwritten (holds_of_register h)
  | rewrite id after => exact hwritten (holds_of_write h)
  | file id after entry => exact hwritten (holds_of_write ((holds_fileEntry entry).mp h))

theorem holds_target (hfits : e.Fits t.getTransactionState operation)
    (htarget : e.target = some (id, record)) :
    ((t.prepared host operation).apply e).Holds record := by
  by_cases hreplaces : e.replaces = true
  · apply holds_of_find
    rw [find_apply_of_replaces hfits htarget hreplaces, if_pos rfl]
  · cases e with
    | insert k after =>
      cases htarget
      exact holds_register _ _ _
    | _ => first | exact absurd rfl hreplaces | cases htarget

end Steps

end TransactionStateTracker

end AnchorKit
