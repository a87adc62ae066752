import AnchorKit.TrackerMaintenance
import AnchorKit.TrackerHistories
import AnchorKit.TransactionInvariants
import AnchorKit.Library.JsonQuoting
import AnchorKit.Library.Text

/-!
# Exported recovery states

The recovery metadata of a failed transaction is exported as a JSON text, and imported elsewhere
from it. What is exported goes by the metadata alone, which a resumption leaves with a transaction
that is no longer failed.
-/

namespace AnchorKit

open Fallible Machine

theorem TransactionState.fromStr_asStr (state : TransactionState) :
    fromStr state.asStr = some state := by
  cases state <;> rfl

namespace TransactionStateTracker

def getRecoveryMetadata (t : TransactionStateTracker) (transactionId : UInt64) :
    Option RecoveryMetadata :=
  (t.getTransactionState transactionId).bind TransactionStateRecord.recoveryMetadata

def exported (transactionId : UInt64) (recovery : RecoveryMetadata) : ImportedRecovery :=
  { failureReason := recovery.failureReason, lastUpdatedLedger := recovery.lastUpdatedLedger
    failedFromState := recovery.failedFromState.asStr, retryCount := recovery.retryCount
    transactionId }

/-- `encode` is the JSON serializer. -/
def exportRecoveryState (encode : ImportedRecovery → Except String String)
    (t : TransactionStateTracker) (transactionId : UInt64) : Except String String :=
  match t.getRecoveryMetadata transactionId with
  | none => .error ("No recovery metadata for transaction " ++ toString transactionId)
  | some recovery =>
    match encode (exported transactionId recovery) with
    | .error e => .error ("Serialization error: " ++ e)
    | .ok text => .ok text

section Properties

variable (encode : ImportedRecovery → Except String String)
  (decode : String → Except String ImportedRecovery)

/-- An import of the text succeeds and leaves a failed transaction with the recovery metadata
that was exported, which is exported as the same text. -/
structure Restores (t : TransactionStateTracker) (id : UInt64) (text : String)
    (imported : Except String Unit × TransactionStateTracker) : Prop where
  accepted : imported.1 = .ok ()
  failed : ∃ record, imported.2.getTransactionState id = some record ∧ record.state = .failed
  same : imported.2.getRecoveryMetadata id = t.getRecoveryMetadata id
  again : imported.2.exportRecoveryState encode id = .ok text

/-- What is exported are the failed transactions with recovery metadata, and a tracker that does not
know an exported one gets it back from its text. -/
structure ExportsFailed (t : TransactionStateTracker) : Prop where
  admitted (id : UInt64) : Succeeds (t.exportRecoveryState encode id) ↔
    ∃ record, t.getTransactionState id = some record ∧ record.state = .failed ∧
      record.recoveryMetadata.isSome = true
  restored (id : UInt64) (text : String) (hexport : t.exportRecoveryState encode id = .ok text)
    (other : TransactionStateTracker) (hnew : other.getTransactionState id = none) (env : Env)
    (initiator : Address) :
    Restores encode t id text (other.importRecoveryState decode env text initiator)

/-- The serializer does not fail, and the parser reads its texts back. -/
def RoundTrips : Prop := ∀ x, ∃ text, encode x = .ok text ∧ decode text = .ok x

variable {encode decode} {t : TransactionStateTracker} {id : UInt64} {text : String}

theorem exportRecoveryState_eq_ok :
    t.exportRecoveryState encode id = .ok text ↔
      ∃ recovery, t.getRecoveryMetadata id = some recovery ∧
        encode (exported id recovery) = .ok text := by
  unfold exportRecoveryState
  cases t.getRecoveryMetadata id with
  | none => simp
  | some recovery =>
    dsimp only
    cases hencode : encode (exported id recovery) with
    | error e => simp [hencode]
    | ok text' => simp [hencode]

/-- Exporting asks for nothing but recovery metadata. -/
theorem succeeds_export (hserde : RoundTrips encode decode) :
    Succeeds (t.exportRecoveryState encode id) ↔
      ∃ record, t.getTransactionState id = some record ∧ record.recoveryMetadata.isSome = true := by
  simp only [Succeeds, exportRecoveryState_eq_ok, getRecoveryMetadata, Option.bind_eq_some_iff]
  constructor
  · rintro ⟨_, recovery, ⟨record, hfound, hrecovery⟩, _⟩
    exact ⟨record, hfound, by rw [hrecovery]; rfl⟩
  · rintro ⟨record, hfound, hsome⟩
    obtain ⟨recovery, hrecovery⟩ := Option.isSome_iff_exists.mp hsome
    obtain ⟨text, hencode, _⟩ := hserde (exported id recovery)
    exact ⟨text, recovery, ⟨record, hfound, hrecovery⟩, hencode⟩

/-- A tracker that does not know the transaction takes it up as failed. -/
theorem importRecoveryState_exported {recovery : RecoveryMetadata} {other : TransactionStateTracker}
    {env : Env} {initiator : Address} (hserde : RoundTrips encode decode)
    (hopen : recovery.failedFromState.isTerminal = false)
    (hencode : encode (exported id recovery) = .ok text)
    (hnew : other.getTransactionState id = none) :
    other.importRecoveryState decode env text initiator =
      (.ok (), other.register id (.imported env recovery id initiator)) := by
  obtain ⟨text', hencode', hdecode⟩ := hserde (exported id recovery)
  rw [hencode] at hencode'
  obtain rfl := Except.ok.inj hencode'
  simp [importRecoveryState, hdecode, exported, TransactionState.fromStr_asStr, hopen, hnew]

theorem restores_of_export {recovery : RecoveryMetadata} {other : TransactionStateTracker}
    {env : Env} {initiator : Address} (hserde : RoundTrips encode decode)
    (hrecovery : t.getRecoveryMetadata id = some recovery)
    (hopen : recovery.failedFromState.isTerminal = false)
    (hencode : encode (exported id recovery) = .ok text)
    (hnew : other.getTransactionState id = none) :
    Restores encode t id text (other.importRecoveryState decode env text initiator) := by
  have hfound : (other.register id (.imported env recovery id initiator)).getTransactionState id =
      some (.imported env recovery id initiator) := by
    have hid : (TransactionStateRecord.imported env recovery id initiator).transactionId = id := rfl
    rw [find_register hnew hid, if_pos rfl]
  have hsame : (other.register id (.imported env recovery id initiator)).getRecoveryMetadata id =
      some recovery := by
    rw [getRecoveryMetadata, hfound]
    rfl
  rw [importRecoveryState_exported hserde hopen hencode hnew]
  exact
    { accepted := rfl
      failed := ⟨_, hfound, rfl⟩
      same := hsame.trans hrecovery.symm
      again := exportRecoveryState_eq_ok.mpr ⟨recovery, hsame, hencode⟩ }

/-! ### Recovery metadata of failed transactions -/

/-- Only a failed transaction has recovery metadata, and it did not fail from a terminal state. -/
def RecoversFailed (record : TransactionStateRecord) : Prop :=
  ∀ recovery, record.recoveryMetadata = some recovery →
    record.state = .failed ∧ recovery.failedFromState.isTerminal = false

theorem recoversFailed_of_some {record : TransactionStateRecord} {recovery : RecoveryMetadata}
    (hfailed : record.state = .failed) (hrecovery : record.recoveryMetadata = some recovery)
    (hopen : recovery.failedFromState.isTerminal = false) : RecoversFailed record := by
  intro recovery' hrecovery'
  obtain rfl := Option.some.inj (hrecovery.symm.trans hrecovery')
  exact ⟨hfailed, hopen⟩

theorem recoversFailed_of_none {record : TransactionStateRecord}
    (hnone : record.recoveryMetadata = none) : RecoversFailed record := by
  intro recovery hrecovery
  rw [hnone] at hrecovery
  cases hrecovery

theorem exportsFailed_of_held (hserde : RoundTrips encode decode)
    (h : ∀ record, t.Holds record → RecoversFailed record) : ExportsFailed encode decode t where
  admitted id := by
    rw [succeeds_export hserde]
    apply exists_congr
    intro record
    apply and_congr_right
    intro hfound
    refine ⟨fun hsome => ⟨?_, hsome⟩, And.right⟩
    obtain ⟨recovery, hrecovery⟩ := Option.isSome_iff_exists.mp hsome
    exact (h record (holds_of_find hfound) recovery hrecovery).1
  restored id text hexport other hnew env initiator := by
    obtain ⟨recovery, hrecovery, hencode⟩ := exportRecoveryState_eq_ok.mp hexport
    obtain ⟨record, hfound, hmeta⟩ := Option.bind_eq_some_iff.mp hrecovery
    have hopen := (h record (holds_of_find hfound) recovery hmeta).2
    exact restores_of_export hserde hrecovery hopen hencode hnew

def ResumesFailed (t : TransactionStateTracker) (operation : Operation) : Prop :=
  ∃ id record, operation = .resumePartialRecovery id ∧ t.getTransactionState id = some record ∧
    record.state = .failed ∧ record.recoveryMetadata.isSome = true

variable {env : Env} {operation : Operation} {e : Effect} {record : TransactionStateRecord}

theorem recoversFailed_imported {json : String} {initiator : Address}
    (htarget : (importEffect decode env t.getTransactionState json initiator).target =
      some (id, record)) : RecoversFailed record := by
  unfold importEffect at htarget
  cases hread : readImport decode json with
  | none =>
    rw [hread] at htarget
    cases htarget
  | some read =>
    obtain ⟨x, recovery⟩ := read
    have hopen := readImport_open hread
    rw [hread] at htarget
    dsimp only at htarget
    split at htarget
    · cases htarget
      exact recoversFailed_of_some rfl rfl hopen
    · split at htarget
      · cases htarget
      · rename_i old _ hfailed
        cases htarget
        exact recoversFailed_of_some (not_not.mp hfailed) rfl hopen

theorem recoversFailed_target
    (heffect : effect decode env t.getTransactionState operation = .ok e)
    (hpre : ∀ id record, t.getTransactionState id = some record → RecoversFailed record)
    (hgood : ¬ ResumesFailed t operation) (htarget : e.target = some (id, record)) :
    RecoversFailed record := by
  cases effect_acts heffect with
  | rejected => cases htarget
  | kept => cases htarget
  | opened =>
    cases htarget
    exact recoversFailed_of_none rfl
  | imported initiator _ _ =>
    obtain hsame := Except.ok.inj heffect
    rw [← hsame] at htarget
    exact recoversFailed_imported htarget
  | replaced initiator _ _ =>
    obtain hsame := Except.ok.inj heffect
    rw [← hsame] at htarget
    exact recoversFailed_imported htarget
  | @updated _ x newState message old _ hfound hvalid =>
    cases htarget
    intro recovery hrecovery
    by_cases hfailed : newState = .failed
    · simp only [TransactionStateRecord.updated, hfailed, if_true, Option.some.injEq] at hrecovery
      obtain rfl := hrecovery
      exact ⟨hfailed, not_isTerminal_of_isValidTransition hvalid⟩
    · simp only [TransactionStateRecord.updated, hfailed, if_false] at hrecovery
      rw [(hpre _ _ hfound recovery hrecovery).1] at hvalid
      cases hvalid
  | attempted hfound hattempted =>
    cases htarget
    obtain ⟨hfailed, recovery, _, hrecovery, _, rfl⟩ :=
      TransactionStateRecord.attempted_eq_ok.mp hattempted
    exact recoversFailed_of_some hfailed rfl (hpre _ _ hfound recovery hrecovery).2
  | resumed hfound hpoint =>
    obtain ⟨hfailed, recovery, hrecovery, _⟩ := TransactionStateRecord.resumePoint_eq_ok.mp hpoint
    exact absurd ⟨_, _, rfl, hfound, hfailed, by rw [hrecovery]; rfl⟩ hgood
  | pruned =>
    cases htarget
    exact recoversFailed_of_none rfl
  | archived =>
    cases htarget
    exact recoversFailed_of_none rfl

/-- A resumption leaves recovery metadata with a transaction that is not failed. -/
theorem found_of_resumesFailed {host : Host} {t' : TransactionStateTracker}
    (hpre : ∀ record, t.Holds record → RecoversFailed record) (hresumes : ResumesFailed t operation)
    (hstep : t.step host decode ⟨env, operation⟩ = .ok t') :
    ∃ id record, t'.getTransactionState id = some record ∧ record.state ≠ .failed ∧
      record.recoveryMetadata.isSome = true := by
  obtain ⟨x, old, rfl, hfound, hfailed, hsome⟩ := hresumes
  obtain ⟨recovery, hrecovery⟩ := Option.isSome_iff_exists.mp hsome
  have hopen := (hpre old (holds_of_find hfound) recovery hrecovery).2
  obtain ⟨e, heffect, hstate⟩ := step_eq_ok hstep
  obtain ⟨retryCount, rfl⟩ := effect_resume hfound hfailed hrecovery hopen heffect
  refine ⟨x, old.resumed env recovery.failedFromState retryCount, ?_, ?_, ?_⟩
  · rw [getTransactionState_congr hstate, find_apply_of_replaces (effect_acts heffect).fits rfl rfl,
      if_pos rfl]
  · intro hstill
    change recovery.failedFromState = .failed at hstill
    rw [hstill] at hopen
    cases hopen
  · simp [TransactionStateRecord.resumed, hrecovery]

end Properties

end TransactionStateTracker

namespace MaintainedTracker

variable {encode : ImportedRecovery → Except String String}
  {decode : String → Except String ImportedRecovery} {host : Host} {m m' : MaintainedTracker}
  {c : Call}

def ResumesFailed (m : MaintainedTracker) (operation : Operation) : Prop :=
  ∃ tracked, operation = .tracked tracked ∧ m.tracker.ResumesFailed tracked

/-- Whatever is not a resumption leaves recovery metadata to failed transactions. -/
theorem recoversFailed_step (hstep : m.step host decode c = .ok m')
    (hpre : ∀ record, m.tracker.Holds record → TransactionStateTracker.RecoversFailed record)
    (hgood : ¬ ResumesFailed m c.operation) (record : TransactionStateRecord)
    (hheld : m'.tracker.Holds record) : TransactionStateTracker.RecoversFailed record := by
  rcases holds_of_step hstep hheld with hold | ⟨old, _, rfl⟩ | ⟨tracked, e, id, hop, heffect, htarget⟩
  · exact hpre record hold
  · exact TransactionStateTracker.recoversFailed_of_none rfl
  · refine TransactionStateTracker.recoversFailed_target heffect ?_ ?_ htarget
    · exact fun id record hfound => hpre record (TransactionStateTracker.holds_of_find hfound)
    · exact fun hresumes => hgood ⟨tracked, hop, hresumes⟩

theorem exportsFailed_step (hserde : TransactionStateTracker.RoundTrips encode decode)
    (hstep : m.step host decode c = .ok m')
    (hpre : ∀ record, m.tracker.Holds record → TransactionStateTracker.RecoversFailed record) :
    TransactionStateTracker.ExportsFailed encode decode m'.tracker ↔
      ¬ ResumesFailed m c.operation := by
  constructor
  · rintro hpost ⟨tracked, hop, hresumes⟩
    obtain ⟨env, operation⟩ := c
    obtain rfl : operation = .tracked tracked := hop
    obtain ⟨t', htracked, rfl⟩ := map_eq_ok.mp hstep
    obtain ⟨id, record, hfound, hactive, hsome⟩ :=
      TransactionStateTracker.found_of_resumesFailed hpre hresumes htracked
    have hexports := (TransactionStateTracker.succeeds_export hserde).mpr ⟨record, hfound, hsome⟩
    obtain ⟨record', hfound', hfailed, _⟩ := (hpost.admitted id).mp hexports
    obtain rfl := Option.some.inj (hfound.symm.trans hfound')
    exact hactive hfailed
  · intro hgood
    exact TransactionStateTracker.exportsFailed_of_held hserde (recoversFailed_step hstep hpre hgood)

/-- In every state of a run exactly the failed transactions with recovery metadata are exported, and
restored from their texts, exactly when the run resumes none of them. -/
theorem exports_failed_iff (host : Host) (encode : ImportedRecovery → Except String String)
    (decode : String → Except String ImportedRecovery)
    (hserde : TransactionStateTracker.RoundTrips encode decode) (isDevMode : Bool)
    (calls : List Call) :
    (∀ js, js <+: calls → TransactionStateTracker.ExportsFailed encode decode
      (Machine.run (step host decode) (new isDevMode) js).tracker) ↔
      ∀ u ∈ transitions (step host decode) (new isDevMode) calls,
        ¬ ResumesFailed u.pre u.input.operation := by
  have hnew (record : TransactionStateRecord) (hheld : (new isDevMode).tracker.Holds record) :
      TransactionStateTracker.RecoversFailed record := by
    cases isDevMode with
    | true => cases hheld
    | false =>
      obtain ⟨id, hid⟩ := hheld
      cases hid
  apply forall_prefix_invariant_iff (step host decode)
    (fun _ m => TransactionStateTracker.ExportsFailed encode decode m.tracker)
    (fun _ m => ∀ record, m.tracker.Holds record → TransactionStateTracker.RecoversFailed record)
    (fun u => ¬ ResumesFailed u.pre u.input.operation)
  · exact TransactionStateTracker.exportsFailed_of_held hserde hnew
  · exact hnew
  · intro _ u hu hpre _
    exact exportsFailed_step hserde hu hpre
  · intro _ u hu hpre _ hgood
    exact recoversFailed_step hu hpre hgood

end MaintainedTracker

/-! ### A serializer and its parser -/

namespace Demo

def stringField (s : String) (rest : Text) : Text := JsonQuoting.escape s.toList ++ '"' :: rest

def numberField (n : ℕ) (terminator : Char) (rest : Text) : Text :=
  Nat.toDigits 10 n ++ terminator :: rest

def exportText (x : ImportedRecovery) : Text :=
  "\x7b\"failure_reason\":\"".toList ++ stringField x.failureReason
    (",\"last_updated_ledger\":".toList ++ numberField x.lastUpdatedLedger.toNat ','
      ("\"failed_from_state\":\"".toList ++ stringField x.failedFromState
        (",\"retry_count\":".toList ++ numberField x.retryCount.toNat ','
          ("\"transaction_id\":".toList ++ numberField x.transactionId.toNat '\x7d' []))))

def readLiteral (expected : String) (t : Text) : Option Text := t.dropPrefix? expected.toList

def readNumber {α : Type} (parse : Text → Option α) (terminator : Char) (t : Text) :
    Option (α × Text) := do
  let (digits, rest) ← Text.cutAt [terminator] t
  let n ← parse digits
  return (n, rest)

def readExport (t : Text) : Option ImportedRecovery := do
  let t ← readLiteral "\x7b\"failure_reason\":\"" t
  let (failureReason, t) ← JsonQuoting.unquote t
  let t ← readLiteral ",\"last_updated_ledger\":" t
  let (lastUpdatedLedger, t) ← readNumber Text.parseU32 ',' t
  let t ← readLiteral "\"failed_from_state\":\"" t
  let (failedFromState, t) ← JsonQuoting.unquote t
  let t ← readLiteral ",\"retry_count\":" t
  let (retryCount, t) ← readNumber Text.parseU32 ',' t
  let t ← readLiteral "\"transaction_id\":" t
  let (transactionId, t) ← readNumber Text.parseU64 '\x7d' t
  if t = [] then
    some ⟨String.ofList failureReason, lastUpdatedLedger, String.ofList failedFromState, retryCount,
      transactionId⟩
  else none

theorem readLiteral_bind {α : Type} (expected : String) (t : Text) (f : Text → Option α) :
    (readLiteral expected (expected.toList ++ t) >>= f) = f t := by
  rw [readLiteral, List.dropPrefix?_append_of_beq t (by simp)]
  rfl

theorem unquote_bind {α : Type} (s : String) (t : Text) (f : Text × Text → Option α) :
    (JsonQuoting.unquote (stringField s t) >>= f) = f (s.toList, t) := by
  rw [stringField, JsonQuoting.unquote_escape]
  rfl

theorem readNumber_bind {α β : Type} {parse : Text → Option α} {n : ℕ} {a : α}
    {terminator : Char} (hparse : parse (Nat.toDigits 10 n) = some a)
    (hterminator : terminator.isDigit = false) (t : Text) (f : α × Text → Option β) :
    (readNumber parse terminator (numberField n terminator t) >>= f) = f (a, t) := by
  have hfree : terminator ∉ Nat.toDigits 10 n := by
    intro hmem
    rw [Text.isDigit_toDigits _ hmem] at hterminator
    cases hterminator
  rw [readNumber, numberField, Text.cutAt_singleton hfree]
  simp [hparse]

/-- The text of an export is read back, whatever the strings in it are. -/
theorem readExport_exportText (x : ImportedRecovery) : readExport (exportText x) = some x := by
  unfold readExport exportText
  rw [readLiteral_bind, unquote_bind]
  dsimp only
  rw [readLiteral_bind, readNumber_bind (Text.parseU32_toDigits x.lastUpdatedLedger) rfl]
  dsimp only
  rw [readLiteral_bind, unquote_bind]
  dsimp only
  rw [readLiteral_bind, readNumber_bind (Text.parseU32_toDigits x.retryCount) rfl]
  dsimp only
  rw [readLiteral_bind, readNumber_bind (Text.parseU64_toDigits x.transactionId) rfl]
  dsimp only
  rw [if_pos rfl, String.ofList_toList, String.ofList_toList]

def encodeExport (x : ImportedRecovery) : Except String String := .ok (String.ofList (exportText x))

def decodeExport (json : String) : Except String ImportedRecovery :=
  match readExport json.toList with
  | some x => .ok x
  | none => .error "expected value at line 1 column 1"

theorem roundTrips_export : TransactionStateTracker.RoundTrips encodeExport decodeExport := by
  intro x
  refine ⟨_, rfl, ?_⟩
  simp [decodeExport, readExport_exportText]

def createdAndFailed : List MaintainedTracker.Call :=
  [⟨⟨100, 7, []⟩, .tracked (.createTransactionWithReason 1 initiator none)⟩,
    ⟨⟨101, 7, []⟩, .tracked (.failTransaction 1 "timeout")⟩]

def createdFailedAndResumed : List MaintainedTracker.Call :=
  createdAndFailed ++ [⟨⟨102, 8, []⟩, .tracked (.resumePartialRecovery 1)⟩]

end Demo

/-- The transaction fails before it is started, and is exported as such. -/
theorem exports_failed_without_resumption :
    (Machine.run (MaintainedTracker.step Demo.trackerHost Demo.decodeExport)
      (MaintainedTracker.new true) Demo.createdAndFailed).tracker.exportRecoveryState
        Demo.encodeExport 1 = .ok Demo.exportedPending ∧
    ∀ js, js <+: Demo.createdAndFailed →
      TransactionStateTracker.ExportsFailed Demo.encodeExport Demo.decodeExport
        (Machine.run (MaintainedTracker.step Demo.trackerHost Demo.decodeExport)
          (MaintainedTracker.new true) js).tracker := by
  refine ⟨by decide, ?_⟩
  apply (MaintainedTracker.exports_failed_iff Demo.trackerHost Demo.encodeExport Demo.decodeExport
    Demo.roundTrips_export true Demo.createdAndFailed).mpr
  rintro u hu ⟨_, hop, id, _, rfl, _⟩
  have hinput := (map_input_sublist _ _ _).subset (List.mem_map_of_mem hu)
  simp only [Demo.createdAndFailed, List.mem_cons, List.not_mem_nil, or_false] at hinput
  rcases hinput with hcall | hcall <;> (rw [hcall] at hop; cases hop)

/-- A resumed transaction is pending again and is still exported. -/
theorem resumed_transaction_still_exported :
    ¬ TransactionStateTracker.ExportsFailed Demo.encodeExport Demo.decodeExport
      (Machine.run (MaintainedTracker.step Demo.trackerHost Demo.decodeExport)
        (MaintainedTracker.new true) Demo.createdFailedAndResumed).tracker := by
  intro h
  have hpending : ((Machine.run (MaintainedTracker.step Demo.trackerHost Demo.decodeExport)
      (MaintainedTracker.new true) Demo.createdFailedAndResumed).tracker.getTransactionState 1).map
        TransactionStateRecord.state = some .pending := by decide
  have hexport := (h.admitted 1).mp ⟨_, rfl⟩
  obtain ⟨record, hfound, hfailed, _⟩ := hexport
  rw [hfound, Option.map_some, hfailed] at hpending
  cases hpending

end AnchorKit
