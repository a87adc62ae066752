import AnchorKit.TrackerEffects
import AnchorKit.Library.Machine

/-!
# The retry count of a transaction

One transaction, followed from its creation on through calls that do not replace or drop its
recovery metadata from outside. Recorded attempts and resumptions are counted in the metadata,
and a retention policy gives up on it at a maximal count; but failing again starts over at zero.
-/

namespace AnchorKit

open Fallible Machine

def TransactionStateRecord.retries (record : TransactionStateRecord) : ℕ :=
  match record.recoveryMetadata with
  | none => 0
  | some recovery => recovery.retryCount.toNat

namespace TransactionStateTracker

variable (host : Host) (decode : String → Except String ImportedRecovery) (id : UInt64)

/-- The operation creates the transaction, or prunes, archives or imports its recovery metadata. -/
def Operation.Supersedes : Operation → Prop
  | .createTransactionWithReason x _ _ => x = id
  | .pruneRecoveryMetadata x _ | .archiveRecoveryMetadata x _ => x = id
  | .importRecoveryState json _ => ∃ recovery, readImport decode json = some (id, recovery)
  | _ => False

/-- A call that leaves the transaction's recovery metadata to failures, attempts and resumptions.
Calls about other transactions are among them, and so are evictions. -/
def RetryCall := { c : Call // ¬ c.operation.Supersedes decode id }

def retryStep (t : TransactionStateTracker) (c : RetryCall decode id) :
    Except Panic TransactionStateTracker :=
  t.step host decode c.val

def countsAsRetry (u : Machine.Transition TransactionStateTracker (RetryCall decode id)) : Bool :=
  (match u.input.val.operation with
    | .resumePartialRecovery x | .recordRecoveryAttempt x => x = id
    | _ => false) &&
  match u.pre.perform host decode u.input.val with
  | .ok (none, _) => true
  | _ => false

def retriesMade (past : List (Machine.Transition TransactionStateTracker (RetryCall decode id))) :
    ℕ :=
  past.countP (countsAsRetry host decode id)

/-- The metadata counts the retries made, so that a policy gives up after enough of them. -/
structure RetriesCounted
    (past : List (Machine.Transition TransactionStateTracker (RetryCall decode id)))
    (t : TransactionStateTracker) : Prop where
  count (record : TransactionStateRecord) (hfound : t.getTransactionState id = some record) :
    record.retries = retriesMade host decode id past
  eligible (record : TransactionStateRecord) (hfound : t.getTransactionState id = some record)
    (recovery : RecoveryMetadata) (hrecovery : record.recoveryMetadata = some recovery)
    (policy : RecoveryRetentionPolicy)
    (hmax : policy.maxRetryCount.toNat ≤ retriesMade host decode id past)
    (lastUpdated now : UInt64) : policy.isEligible recovery lastUpdated now = true

/-- The call moves the transaction to `Failed` while its metadata counts retries. -/
def FailsAgain (u : Machine.Transition TransactionStateTracker (RetryCall decode id)) : Prop :=
  ∃ message record, u.input.val.operation.requested = some (id, .failed, message) ∧
    u.pre.getTransactionState id = some record ∧
    record.state.isValidTransition .failed = true ∧ 0 < record.retries

variable {host decode id}

theorem retriesCounted_iff {t : TransactionStateTracker}
    {past : List (Machine.Transition TransactionStateTracker (RetryCall decode id))} :
    RetriesCounted host decode id past t ↔
      ∀ record, t.getTransactionState id = some record →
        record.retries = retriesMade host decode id past := by
  refine ⟨RetriesCounted.count, fun hcount => ⟨hcount, ?_⟩⟩
  intro record hfound recovery hrecovery policy hmax lastUpdated now
  have hretries := hcount record hfound
  simp only [TransactionStateRecord.retries, hrecovery] at hretries
  have hreached : policy.maxRetryCount ≤ recovery.retryCount := by
    rw [UInt32.le_iff_toNat_le]
    omega
  simp [RecoveryRetentionPolicy.isEligible, hreached]

theorem retries_updated (env : Env) (newState : TransactionState) (message : Option String)
    (record : TransactionStateRecord) :
    (record.updated env newState message).retries =
      if newState = .failed then 0 else record.retries := by
  unfold TransactionStateRecord.retries TransactionStateRecord.updated
  by_cases hfailed : newState = .failed
  · simp [hfailed]
  · simp [hfailed]

theorem retries_attempted {record after : TransactionStateRecord}
    (h : record.attempted = .ok (.ok after)) : after.retries = record.retries + 1 := by
  obtain ⟨_, recovery, retryCount, hrecovery, hcount, rfl⟩ :=
    TransactionStateRecord.attempted_eq_ok.mp h
  simp only [TransactionStateRecord.retries, hrecovery]
  exact hcount.symm

theorem retries_resumed {record : TransactionStateRecord} {env : Env} {state : TransactionState}
    {retryCount : UInt32} (h : record.resumePoint = .ok (.ok (state, retryCount))) :
    (record.resumed env state retryCount).retries = record.retries + 1 := by
  obtain ⟨_, recovery, hrecovery, _, _, hcount⟩ := TransactionStateRecord.resumePoint_eq_ok.mp h
  simp only [TransactionStateRecord.retries, TransactionStateRecord.resumed, hrecovery,
    Option.map_some]
  exact hcount.symm

inductive RetryStep (host : Host)
    (u : Machine.Transition TransactionStateTracker (RetryCall decode id)) : Prop
  | idle (hfind : u.post.getTransactionState id = u.pre.getTransactionState id ∨
      u.post.getTransactionState id = none)
    (hcount : countsAsRetry host decode id u = false) (hgood : ¬ FailsAgain decode id u)
  | moved {record : TransactionStateRecord} {newState : TransactionState}
      {message : Option String} (hpre : u.pre.getTransactionState id = some record)
    (hrequested : u.input.val.operation.requested = some (id, newState, message))
    (hvalid : record.state.isValidTransition newState = true)
    (hpost : u.post.getTransactionState id =
      some (record.updated u.input.val.env newState message))
    (hcount : countsAsRetry host decode id u = false)
  | retried {record after : TransactionStateRecord}
      (hpre : u.pre.getTransactionState id = some record)
    (hpost : u.post.getTransactionState id = some after)
    (hretries : after.retries = record.retries + 1)
    (hcount : countsAsRetry host decode id u = true) (hgood : ¬ FailsAgain decode id u)

theorem countsAsRetry_of_not_recovers
    {u : Machine.Transition TransactionStateTracker (RetryCall decode id)}
    (h : u.input.val.operation ≠ .resumePartialRecovery id ∧
      u.input.val.operation ≠ .recordRecoveryAttempt id) :
    countsAsRetry host decode id u = false := by
  unfold countsAsRetry
  rw [Bool.and_eq_false_iff]
  left
  split
  · rename_i x hop
    exact decide_eq_false fun hx => h.1 (hx ▸ hop)
  · rename_i x hop
    exact decide_eq_false fun hx => h.2 (hx ▸ hop)
  · rfl

theorem target_of_countsAsRetry
    {u : Machine.Transition TransactionStateTracker (RetryCall decode id)}
    {rejection : Option String} {e : Effect}
    (hperform : u.pre.perform host decode u.input.val = .ok (rejection, u.post))
    (heffect : effect decode u.input.val.env u.pre.getTransactionState u.input.val.operation =
      .ok e) (hrejection : rejection.isSome = e.isRejection)
    (h : countsAsRetry host decode id u = true) : ∃ record, e.target = some (id, record) := by
  have hmark {verdict : TransactionStateRecord →
      Except Panic (Except String TransactionStateRecord)}
      (hverdict : onRecord u.pre.getTransactionState id verdict = .ok e) :
      ∃ record, e.target = some (id, record) := by
    obtain rfl | ⟨_, after, _, _, rfl⟩ := onRecord_eq_ok hverdict
    · rw [countsAsRetry, hperform, Bool.and_eq_true] at h
      cases rejection with
      | none => cases hrejection
      | some message => exact absurd h.2 (by simp)
    · exact ⟨after, rfl⟩
  by_cases hresume : u.input.val.operation = .resumePartialRecovery id
  · rw [hresume] at heffect
    exact hmark heffect
  · by_cases hattempt : u.input.val.operation = .recordRecoveryAttempt id
    · rw [hattempt] at heffect
      exact hmark heffect
    · rw [countsAsRetry_of_not_recovers ⟨hresume, hattempt⟩] at h
      cases h

theorem target_of_failsAgain {u : Machine.Transition TransactionStateTracker (RetryCall decode id)}
    {e : Effect} (heffect : effect decode u.input.val.env u.pre.getTransactionState
      u.input.val.operation = .ok e) (h : FailsAgain decode id u) :
    ∃ record, e.target = some (id, record) := by
  obtain ⟨message, record, hrequested, hfound, hvalid, _⟩ := h
  rw [effect_of_requested hrequested, onRecord, hfound] at heffect
  simp only [transition, hvalid, if_true] at heffect
  obtain rfl := Except.ok.inj heffect
  exact ⟨_, rfl⟩

theorem retryStep_cases {u : Machine.Transition TransactionStateTracker (RetryCall decode id)}
    (h : retryStep host decode id u.pre u.input = .ok u.post) : RetryStep host u := by
  obtain ⟨⟨rejection, _⟩, hperform, rfl⟩ := map_eq_ok.mp h
  obtain ⟨e, heffect, hrejection, hstate⟩ := perform_eq_ok hperform
  have hfind := getTransactionState_congr hstate
  have hacts := effect_acts heffect
  have hfits := hacts.fits
  by_cases htarget : ∃ record, e.target = some (id, record)
  · obtain ⟨after, htarget⟩ := htarget
    have hcounts (hnone : rejection.isSome = false)
        (hrecovers : u.input.val.operation = .resumePartialRecovery id ∨
          u.input.val.operation = .recordRecoveryAttempt id) :
        countsAsRetry host decode id u = true := by
      obtain rfl : rejection = none := by simpa using hnone
      rcases hrecovers with hop | hop <;> simp [countsAsRetry, hperform, hop]
    have hreads (hreplaces : e.replaces = true) : u.post.getTransactionState id = some after := by
      rw [hfind, find_apply_of_replaces hfits htarget hreplaces, if_pos rfl]
    obtain ⟨pre, ⟨⟨env, operation⟩, hquiet⟩, post⟩ := u
    cases hacts with
    | rejected => cases htarget
    | kept => cases htarget
    | opened x initiator routingReason =>
      cases htarget
      exact absurd rfl hquiet
    | imported initiator hread _ =>
      cases htarget
      exact absurd ⟨_, hread⟩ hquiet
    | replaced initiator hread _ =>
      cases htarget
      exact absurd ⟨_, hread⟩ hquiet
    | updated hrequested hfound hvalid =>
      cases htarget
      apply RetryStep.moved hfound hrequested hvalid (hreads rfl)
      apply countsAsRetry_of_not_recovers
      constructor <;> (rintro rfl; cases hrequested)
    | attempted hfound hattempted =>
      cases htarget
      refine .retried hfound (hreads rfl) (retries_attempted hattempted)
        (hcounts hrejection (Or.inr rfl)) ?_
      rintro ⟨_, _, hrequested, _⟩
      cases hrequested
    | resumed hfound hpoint =>
      cases htarget
      refine .retried hfound (hreads rfl) (retries_resumed hpoint)
        (hcounts hrejection (Or.inl rfl)) ?_
      rintro ⟨_, _, hrequested, _⟩
      cases hrequested
    | pruned policy _ =>
      cases htarget
      exact absurd rfl hquiet
    | archived _ _ =>
      cases htarget
      exact absurd rfl hquiet
  · apply RetryStep.idle
    · rw [hfind]
      exact find_apply_of_target_ne hfits fun record hrecord => htarget ⟨record, hrecord⟩
    · rw [← Bool.not_eq_true]
      exact fun hcount => htarget (target_of_countsAsRetry hperform heffect hrejection hcount)
    · exact fun hagain => htarget (target_of_failsAgain heffect hagain)

theorem retriesMade_snoc
    (past : List (Machine.Transition TransactionStateTracker (RetryCall decode id)))
    (u : Machine.Transition TransactionStateTracker (RetryCall decode id)) :
    retriesMade host decode id (past ++ [u]) =
      retriesMade host decode id past + if countsAsRetry host decode id u then 1 else 0 := by
  simp [retriesMade, List.countP_append, List.countP_singleton]

/-- The count survives exactly the calls that do not fail a transaction with retries again. -/
theorem retriesCounted_step
    {past : List (Machine.Transition TransactionStateTracker (RetryCall decode id))}
    {u : Machine.Transition TransactionStateTracker (RetryCall decode id)}
    (h : retryStep host decode id u.pre u.input = .ok u.post)
    (hpre : RetriesCounted host decode id past u.pre) :
    RetriesCounted host decode id (past ++ [u]) u.post ↔ ¬ FailsAgain decode id u := by
  rw [retriesCounted_iff, retriesMade_snoc]
  cases retryStep_cases h with
  | idle hfind hcount hgood =>
    refine iff_of_true ?_ hgood
    intro record hfound
    rw [hcount]
    rcases hfind with hsame | hgone
    · exact hpre.count record (hsame ▸ hfound)
    · rw [hgone] at hfound
      cases hfound
  | @moved record newState message hfound hrequested hvalid hpost hcount =>
    have hmade := hpre.count record hfound
    rw [hcount, hpost]
    constructor
    · rintro hkept ⟨_, again, hrequested', hagain, _, hpositive⟩
      rw [hrequested] at hrequested'
      obtain ⟨rfl, rfl⟩ : newState = .failed ∧ message = _ := by simpa using hrequested'
      obtain rfl : record = again := Option.some.inj (hfound.symm.trans hagain)
      have hreset := hkept _ rfl
      rw [retries_updated, if_pos rfl] at hreset
      simp only [Bool.false_eq_true, if_false] at hreset
      omega
    · rintro hgood after hafter
      obtain rfl := Option.some.inj hafter
      rw [retries_updated]
      by_cases hfailed : newState = .failed
      · subst hfailed
        have hzero : record.retries = 0 := by
          by_contra hpositive
          exact hgood ⟨message, record, hrequested, hfound, hvalid, Nat.pos_of_ne_zero hpositive⟩
        simp [← hmade, hzero]
      · simp [hfailed, hmade]
  | @retried record after hfound hpost hretries hcount hgood =>
    refine iff_of_true ?_ hgood
    intro found hafter
    rw [hpost] at hafter
    obtain rfl := Option.some.inj hafter
    rw [hretries, hcount, hpre.count record hfound]
    rfl

/-- After a creation the metadata counts the retries made, at every point, exactly when the
transaction does not fail again once a retry has been made. -/
theorem retries_counted_iff (t : TransactionStateTracker) (env : Env) (initiator : Address)
    (routingReason : Option String) (hnew : t.getTransactionState id = none)
    (calls : List (RetryCall decode id)) :
    (∀ js, js <+: calls → RetriesCounted host decode id
      (transitions (retryStep host decode id)
        (t.createTransactionWithReason host env id initiator routingReason).2 js)
      (Machine.run (retryStep host decode id)
        (t.createTransactionWithReason host env id initiator routingReason).2 js)) ↔
    ∀ u ∈ transitions (retryStep host decode id)
      (t.createTransactionWithReason host env id initiator routingReason).2 calls,
      ¬ FailsAgain decode id u := by
  apply forall_prefix_invariant_iff (retryStep host decode id) (RetriesCounted host decode id)
    (fun _ _ => True) (fun u => ¬ FailsAgain decode id u)
  · rw [retriesCounted_iff]
    intro record hfound
    have hfree : (t.autoEvictIfNeeded host).getTransactionState id = none := by
      rcases find_autoEvictIfNeeded host with hsame | hgone
      · exact hsame.trans hnew
      · exact hgone
    rw [createTransactionWithReason, find_register hfree rfl, if_pos rfl] at hfound
    obtain rfl := Option.some.inj hfound
    rfl
  · trivial
  · exact fun past u hstep _ hpre => retriesCounted_step hstep hpre
  · exact fun _ _ _ _ _ _ => trivial

end TransactionStateTracker

namespace Demo

open TransactionStateTracker

/-- Transaction 1 as it is created in development mode. -/
def opened : TransactionStateTracker :=
  ((new true).createTransactionWithReason trackerHost ⟨100, 1, []⟩ 1 initiator none).2

def failsAndResumes : List (RetryCall decodeExported 1) :=
  [⟨trackerCall 101 (.startTransaction 1), id⟩,
    ⟨trackerCall 102 (.failTransaction 1 "timeout"), id⟩,
    ⟨trackerCall 103 (.resumePartialRecovery 1), id⟩]

def failsAgain : List (RetryCall decodeExported 1) :=
  failsAndResumes ++ [⟨trackerCall 104 (.failTransaction 1 "timeout"), id⟩]

end Demo

namespace TransactionStateTracker

theorem retries_counted_while_resumed :
    RetriesCounted Demo.trackerHost Demo.decodeExported 1
      (transitions (retryStep Demo.trackerHost Demo.decodeExported 1) Demo.opened
        Demo.failsAndResumes)
      (Machine.run (retryStep Demo.trackerHost Demo.decodeExported 1) Demo.opened
        Demo.failsAndResumes) := by
  apply (retries_counted_iff (new true) ⟨100, 1, []⟩ Demo.initiator none rfl
    Demo.failsAndResumes).mpr ?_ _ List.prefix_rfl
  have hfresh : (transitions (retryStep Demo.trackerHost Demo.decodeExported 1) Demo.opened
      Demo.failsAndResumes).all (fun u => u.input.val.operation.requested.isNone ||
        (u.pre.getTransactionState 1).map (·.retries) = some 0) = true := by decide +kernel
  intro u hu
  have hu := List.all_eq_true.mp hfresh u hu
  rintro ⟨message, record, hrequested, hfound, _, hpositive⟩
  simp [hrequested, hfound] at hu
  omega

/-- The second failure forgets the resumption before it. -/
theorem retry_forgotten :
    ¬ RetriesCounted Demo.trackerHost Demo.decodeExported 1
      (transitions (retryStep Demo.trackerHost Demo.decodeExported 1) Demo.opened Demo.failsAgain)
      (Machine.run (retryStep Demo.trackerHost Demo.decodeExported 1) Demo.opened Demo.failsAgain) := by
  intro h
  have hmade : retriesMade Demo.trackerHost Demo.decodeExported 1
      (transitions (retryStep Demo.trackerHost Demo.decodeExported 1) Demo.opened
        Demo.failsAgain) = 1 := by decide +kernel
  have hkept : ((Machine.run (retryStep Demo.trackerHost Demo.decodeExported 1) Demo.opened
      Demo.failsAgain).getTransactionState 1).map (·.retries) = some 0 := by decide +kernel
  obtain ⟨record, hfound, hretries⟩ := Option.map_eq_some_iff.mp hkept
  have hcount := h.count record hfound
  omega

end TransactionStateTracker

end AnchorKit
