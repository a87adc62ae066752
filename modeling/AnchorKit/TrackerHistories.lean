import AnchorKit.TrackerEffects
import AnchorKit.Library.Machine

/-!
# The state histories of transaction records

The history of a record tells how the transaction got where it is: it starts with `Pending`, ends
with the current state, and goes on by permitted transitions and by resumptions. An imported
record brings a history that was never lived through.
-/

namespace AnchorKit

open Fallible Machine

namespace TransactionStateRecord

def states (record : TransactionStateRecord) : List TransactionState :=
  record.stateHistory.map Prod.fst

def times (record : TransactionStateRecord) : List UInt64 := record.stateHistory.map Prod.snd

end TransactionStateRecord

/-- `b` may follow the `i`-th state `a`: by a permitted transition, or as the state that was left
for `Failed`. -/
def Continues (states : List TransactionState) (i : ℕ) (a b : TransactionState) : Prop :=
  a.isValidTransition b = true ∨ a = .failed ∧ ∃ j, j + 1 = i ∧ states[j]? = some b

/-- The states of a transaction that has come to `state`. -/
structure Progression (states : List TransactionState) (state : TransactionState) : Prop where
  first : states.head? = some .pending
  last : states.getLast? = some state
  steps (i : ℕ) (a b : TransactionState) (ha : states[i]? = some a)
    (hb : states[i + 1]? = some b) : Continues states i a b

structure WellFormedHistory (record : TransactionStateRecord) : Prop where
  progression : Progression record.states record.state
  ordered : record.times.Pairwise (· ≤ ·)

section Progression

variable {states : List TransactionState} {state newState : TransactionState}

theorem progression_pending : Progression [.pending] .pending where
  first := rfl
  last := rfl
  steps := by
    intro i a b _ hb
    simp at hb

theorem continues_append (i : ℕ) (a b : TransactionState) {rest : List TransactionState}
    (hi : i < states.length) :
    Continues (states ++ rest) i a b ↔ Continues states i a b := by
  unfold Continues
  apply or_congr_right
  apply and_congr_right
  intro _
  apply exists_congr
  intro j
  apply and_congr_right
  intro hj
  rw [List.getElem?_append_left (by omega)]

theorem continues_last {before : List TransactionState} :
    Continues (before ++ [state]) before.length state newState ↔
      state.isValidTransition newState = true ∨
        state = .failed ∧ before.getLast? = some newState := by
  unfold Continues
  apply or_congr_right
  apply and_congr_right
  intro _
  rw [List.getLast?_eq_getElem?]
  constructor
  · rintro ⟨j, hj, hb⟩
    rw [List.getElem?_append_left (by omega)] at hb
    rwa [← hj, Nat.add_sub_cancel]
  · intro hb
    have hpositive : 0 < before.length := by
      by_contra hzero
      obtain rfl : before = [] := List.eq_nil_of_length_eq_zero (by omega)
      cases hb
    refine ⟨before.length - 1, by omega, ?_⟩
    rwa [List.getElem?_append_left (by omega)]

/-- A history goes on exactly when the new state may follow its last one. -/
theorem progression_snoc (h : Progression states state) :
    Progression (states ++ [newState]) newState ↔
      state.isValidTransition newState = true ∨
        state = .failed ∧ states.dropLast.getLast? = some newState := by
  obtain ⟨before, rfl⟩ := List.getLast?_eq_some_iff.mp h.last
  have hlength : (before ++ [state]).length = before.length + 1 := by simp
  rw [List.dropLast_concat, ← continues_last]
  constructor
  · intro hlonger
    rw [← continues_append _ _ _ (by omega)]
    apply hlonger.steps
    · simp
    · rw [← hlength, List.getElem?_append_right le_rfl, Nat.sub_self]
      rfl
  · intro hnext
    refine ⟨?_, List.getLast?_concat, ?_⟩
    · rw [List.head?_append, h.first, Option.some_or]
    · intro i a b ha hb
      rcases Nat.lt_trichotomy (i + 1) (before ++ [state]).length with hlt | heq | hgt
      · rw [List.getElem?_append_left (by omega)] at ha hb
        exact (continues_append i a b (by omega)).mpr (h.steps i a b ha hb)
      · obtain rfl : i = before.length := by omega
        rw [List.getElem?_append_left (by omega)] at ha
        rw [heq, List.getElem?_append_right le_rfl, Nat.sub_self] at hb
        obtain rfl : state = a := by simpa using ha
        obtain rfl : newState = b := by simpa using hb
        exact (continues_append _ _ _ (by omega)).mpr hnext
      · rw [List.getElem?_eq_none (by rw [List.length_append, List.length_singleton]; omega)] at hb
        cases hb

end Progression

theorem progression_imported {failedFrom : TransactionState}
    (hopen : failedFrom.isTerminal = false) :
    Progression [.pending, failedFrom, .failed] .failed ↔ failedFrom ≠ .pending := by
  constructor
  · rintro h rfl
    obtain hvalid | ⟨hfailed, _⟩ := h.steps 0 .pending .pending rfl rfl
    · cases hvalid
    · cases hfailed
  · intro hne
    obtain rfl : failedFrom = .inProgress := by
      cases failedFrom with
      | pending => exact absurd rfl hne
      | inProgress => rfl
      | completed => cases hopen
      | failed => cases hopen
    have hstarted : Progression [.pending, .inProgress] .inProgress :=
      (progression_snoc progression_pending).mpr (Or.inl rfl)
    exact (progression_snoc hstarted).mpr (Or.inl rfl)

namespace TransactionStateTracker

variable (decode : String → Except String ImportedRecovery)

/-- The call is an import that creates a record as failed from `Pending`, or it resumes a record
in another state than the one its history held before `Failed`. -/
inductive BreaksHistory (t : TransactionStateTracker) : Operation → Prop
  | imports {json : String} {id : UInt64} {recovery : RecoveryMetadata} (initiator : Address)
      (hread : readImport decode json = some (id, recovery))
      (hnew : t.getTransactionState id = none) (hfrom : recovery.failedFromState = .pending) :
    BreaksHistory t (.importRecoveryState json initiator)
  | resumes {id : UInt64} {record : TransactionStateRecord} {recovery : RecoveryMetadata}
      (hfound : t.getTransactionState id = some record) (hfailed : record.state = .failed)
      (hrecovery : record.recoveryMetadata = some recovery)
      (hopen : recovery.failedFromState.isTerminal = false)
      (helsewhere : record.states.dropLast.getLast? ≠ some recovery.failedFromState) :
    BreaksHistory t (.resumePartialRecovery id)

variable {decode} {host : Host} {t : TransactionStateTracker} {env : Env} {operation : Operation}
  {e : Effect} {id : UInt64} {record : TransactionStateRecord}

theorem readImport_open {json : String} {recovery : RecoveryMetadata}
    (h : readImport decode json = some (id, recovery)) :
    recovery.failedFromState.isTerminal = false := by
  unfold readImport at h
  split at h
  · cases h
  split at h
  · cases h
  split at h
  · cases h
  · rename_i hopen
    obtain ⟨_, rfl⟩ := Prod.mk.inj (Option.some.inj h)
    simpa using hopen

/-- The record that a call leaves has a proper history unless the call breaks it. -/
theorem progression_target (hacts : Acts decode env t.getTransactionState operation e)
    (hpre : ∀ id record, t.getTransactionState id = some record →
      Progression record.states record.state)
    (htarget : e.target = some (id, record)) :
    Progression record.states record.state ↔ ¬ BreaksHistory decode t operation := by
  cases hacts with
  | rejected => cases htarget
  | kept => cases htarget
  | opened x initiator routingReason =>
    cases htarget
    exact iff_of_true progression_pending nofun
  | @imported json x recovery initiator hread hnew =>
    cases htarget
    have hopen := readImport_open hread
    change Progression [.pending, recovery.failedFromState, .failed] .failed ↔ _
    rw [progression_imported hopen]
    constructor
    · rintro hne (⟨_, hread', _, hfrom⟩ | _)
      obtain ⟨_, rfl⟩ := Prod.mk.inj (Option.some.inj (hread.symm.trans hread'))
      exact hne hfrom
    · exact fun hgood hfrom => hgood (.imports initiator hread hnew hfrom)
  | @replaced json x recovery old initiator hread hfound =>
    cases htarget
    have hold := hpre _ _ hfound
    refine iff_of_true hold ?_
    rintro (⟨_, hread', hnew, _⟩ | _)
    obtain ⟨rfl, _⟩ := Prod.mk.inj (Option.some.inj (hread.symm.trans hread'))
    rw [hnew] at hfound
    cases hfound
  | @updated _ x newState message old hrequested hfound hvalid =>
    cases htarget
    refine iff_of_true ?_ ?_
    · have hlonger := (progression_snoc (hpre _ _ hfound)).mpr (Or.inl hvalid)
      simpa [TransactionStateRecord.states, TransactionStateRecord.updated] using hlonger
    · rintro (_ | _) <;> cases hrequested
  | attempted hfound hattempted =>
    cases htarget
    obtain ⟨_, _, _, _, _, rfl⟩ := TransactionStateRecord.attempted_eq_ok.mp hattempted
    have hold := hpre _ _ hfound
    exact iff_of_true hold nofun
  | @resumed x old state retryCount hfound hpoint =>
    cases htarget
    obtain ⟨hfailed, recovery, hrecovery, rfl, hopen, _⟩ :=
      TransactionStateRecord.resumePoint_eq_ok.mp hpoint
    have hsnoc := @progression_snoc _ _ recovery.failedFromState (hpre _ _ hfound)
    simp only [TransactionStateRecord.states, TransactionStateRecord.resumed, List.map_append,
      List.map_singleton] at hsnoc ⊢
    rw [hsnoc, hfailed]
    constructor
    · rintro (hvalid | ⟨_, hback⟩) (_ | ⟨hfound', _, hrecovery', _, helsewhere⟩)
      · cases hvalid
      · obtain rfl := Option.some.inj (hfound.symm.trans hfound')
        obtain rfl := Option.some.inj (hrecovery.symm.trans hrecovery')
        exact helsewhere hback
    · intro hgood
      refine Or.inr ⟨rfl, ?_⟩
      by_contra helsewhere
      exact hgood (.resumes hfound hfailed hrecovery hopen helsewhere)
  | pruned policy hfound =>
    cases htarget
    have hold := hpre _ _ hfound
    exact iff_of_true hold nofun
  | archived hfound _ =>
    cases htarget
    have hold := hpre _ _ hfound
    exact iff_of_true hold nofun

theorem target_of_breaksHistory (h : BreaksHistory decode t operation)
    (heffect : effect decode env t.getTransactionState operation = .ok e) :
    ∃ id record, e.target = some (id, record) := by
  cases h with
  | imports initiator hread hnew hfrom =>
    obtain rfl := Except.ok.inj heffect
    simp only [importEffect, hread, hnew]
    exact ⟨_, _, rfl⟩
  | @resumes x old recovery hfound hfailed hrecovery hopen helsewhere =>
    obtain ⟨_, rfl⟩ := effect_resume hfound hfailed hrecovery hopen heffect
    exact ⟨_, _, rfl⟩

theorem progression_step {t' : TransactionStateTracker} {c : Call}
    (h : t.step host decode c = .ok t')
    (hpre : ∀ record, t.Holds record → Progression record.states record.state) :
    (∀ record, t'.Holds record → Progression record.states record.state) ↔
      ¬ BreaksHistory decode t c.operation := by
  obtain ⟨e, heffect, hstate⟩ := step_eq_ok h
  have hacts := effect_acts heffect
  have hfound (id : UInt64) (record : TransactionStateRecord)
      (hrecord : t.getTransactionState id = some record) : Progression record.states record.state :=
    hpre record (holds_of_find hrecord)
  constructor
  · intro hpost hbreaks
    obtain ⟨id, record, htarget⟩ := target_of_breaksHistory hbreaks heffect
    have hheld : t'.Holds record := (holds_congr hstate).mpr (holds_target hacts.fits htarget)
    exact (progression_target hacts hfound htarget).mp (hpost record hheld) hbreaks
  · intro hgood record hheld
    rcases holds_of_apply ((holds_congr hstate).mp hheld) with hold | ⟨id, htarget⟩
    · exact hpre record hold
    · exact (progression_target hacts hfound htarget).mpr hgood

/-! ### Times -/

theorem times_target (hacts : Acts decode env t.getTransactionState operation e)
    (htarget : e.target = some (id, record)) :
    (∃ n, record.times = List.replicate n env.timestamp) ∨
      ∃ old, t.getTransactionState id = some old ∧
        (record.times = old.times ∨ record.times = old.times ++ [env.timestamp]) := by
  cases hacts with
  | rejected => cases htarget
  | kept => cases htarget
  | opened => cases htarget; exact Or.inl ⟨1, rfl⟩
  | imported => cases htarget; exact Or.inl ⟨3, rfl⟩
  | replaced _ _ hfound => cases htarget; exact Or.inr ⟨_, hfound, Or.inl rfl⟩
  | updated _ hfound _ =>
    cases htarget
    exact Or.inr ⟨_, hfound, Or.inr (List.map_append ..)⟩
  | attempted hfound hattempted =>
    cases htarget
    obtain ⟨_, _, _, _, _, rfl⟩ := TransactionStateRecord.attempted_eq_ok.mp hattempted
    exact Or.inr ⟨_, hfound, Or.inl rfl⟩
  | resumed hfound _ =>
    cases htarget
    exact Or.inr ⟨_, hfound, Or.inr (List.map_append ..)⟩
  | pruned _ hfound => cases htarget; exact Or.inr ⟨_, hfound, Or.inl rfl⟩
  | archived hfound _ => cases htarget; exact Or.inr ⟨_, hfound, Or.inl rfl⟩

structure Timed (past : List (Machine.Transition TransactionStateTracker Call))
    (record : TransactionStateRecord) : Prop where
  ordered : record.times.Pairwise (· ≤ ·)
  past_time (x : UInt64) (hx : x ∈ record.times) : ∃ u ∈ past, u.input.env.timestamp = x

theorem timed_step {past : List (Machine.Transition TransactionStateTracker Call)}
    {u : Machine.Transition TransactionStateTracker Call}
    (h : u.pre.step host decode u.input = .ok u.post)
    (hpre : ∀ record, u.pre.Holds record → Timed past record)
    (hclock : ∀ v ∈ past, v.input.env.timestamp ≤ u.input.env.timestamp) :
    ∀ record, u.post.Holds record → Timed (past ++ [u]) record := by
  obtain ⟨e, heffect, hstate⟩ := step_eq_ok h
  have hlater {record : TransactionStateRecord} (hrecord : Timed past record) (x : UInt64)
      (hx : x ∈ record.times) : ∃ v ∈ past ++ [u], v.input.env.timestamp = x := by
    obtain ⟨v, hv, htime⟩ := hrecord.past_time x hx
    exact ⟨v, List.mem_append_left _ hv, htime⟩
  have hnow : ∃ v ∈ past ++ [u], v.input.env.timestamp = u.input.env.timestamp :=
    ⟨u, List.mem_append_right _ List.mem_cons_self, rfl⟩
  intro record hheld
  rcases holds_of_apply ((holds_congr hstate).mp hheld) with hold | ⟨id, htarget⟩
  · exact ⟨(hpre record hold).ordered, hlater (hpre record hold)⟩
  · obtain ⟨n, hn⟩ | ⟨old, hfound, htimes⟩ := times_target (effect_acts heffect) htarget
    · constructor
      · rw [hn, List.pairwise_replicate]
        exact Or.inr (UInt64.le_refl _)
      · intro x hx
        rw [hn] at hx
        rwa [List.eq_of_mem_replicate hx]
    · have hold := hpre old (holds_of_find hfound)
      rcases htimes with hsame | hlonger
      · exact ⟨hsame ▸ hold.ordered, hsame ▸ hlater hold⟩
      · constructor
        · rw [hlonger, List.pairwise_append]
          refine ⟨hold.ordered, List.pairwise_singleton _ _, ?_⟩
          intro x hx y hy
          obtain ⟨v, hv, rfl⟩ := hold.past_time x hx
          rw [List.mem_singleton.mp hy]
          exact hclock v hv
        · intro x hx
          rw [hlonger] at hx
          rcases List.mem_append.mp hx with hx | hx
          · exact hlater hold x hx
          · rwa [List.mem_singleton.mp hx]

/-! ### Runs -/

def Rejected (host : Host) (decode : String → Except String ImportedRecovery)
    (u : Machine.Transition TransactionStateTracker Call) : Prop :=
  ∃ message, u.pre.perform host decode u.input = .ok (some message, u.post)

theorem unlogged_of_rejected {u : Machine.Transition TransactionStateTracker Call}
    (h : Rejected host decode u) : u.post.unlogged = u.pre.unlogged := by
  obtain ⟨message, hperform⟩ := h
  obtain ⟨e, _, hrejection, hstate⟩ := perform_eq_ok hperform
  have hprepared : u.pre.prepared host u.input.operation = u.pre := by
    unfold perform at hperform
    cases hoperation : u.input.operation <;> rw [hoperation] at hperform <;>
      first | rfl | cases Except.ok.inj hperform
  cases e with
  | reject => rw [hstate, hprepared, apply]
  | _ => cases hrejection

/-- Every record has a proper history at every point, and no rejected call changes a record. -/
structure HistoriesKept (host : Host) (decode : String → Except String ImportedRecovery)
    (t : TransactionStateTracker) (calls : List Call) : Prop where
  wellFormed (js : List Call) (hjs : js <+: calls) (record : TransactionStateRecord)
    (hheld : (Machine.run (step host decode) t js).Holds record) : WellFormedHistory record
  unchanged (u : Machine.Transition TransactionStateTracker Call)
    (hu : u ∈ transitions (step host decode) t calls) (hrejected : Rejected host decode u) :
    u.post.cache = u.pre.cache ∧ u.post.txstate = u.pre.txstate

/-- Under a non-decreasing clock the histories are kept exactly by the runs without a call that
breaks one. -/
theorem histories_kept_iff (host : Host) (decode : String → Except String ImportedRecovery)
    (isDevMode : Bool) (calls : List Call)
    (hclock : calls.Pairwise fun c d => c.env.timestamp ≤ d.env.timestamp) :
    HistoriesKept host decode (new isDevMode) calls ↔
      ∀ u ∈ transitions (step host decode) (new isDevMode) calls,
        ¬ BreaksHistory decode u.pre u.input.operation := by
  have hnone (record : TransactionStateRecord) : ¬ (new isDevMode).Holds record := by
    cases isDevMode <;> simp [Holds, new]
  have htimed (js : List Call) (hjs : js <+: calls) :
      ∀ record, (Machine.run (step host decode) (new isDevMode) js).Holds record →
        Timed (transitions (step host decode) (new isDevMode) js) record := by
    apply guarded_history_invariant (step host decode)
      (fun past t => ∀ record, t.Holds record → Timed past record)
      (fun past u => ∀ v ∈ past, v.input.env.timestamp ≤ u.input.env.timestamp)
    · exact fun record hheld => absurd hheld (hnone record)
    · exact fun past u hu hpre hlater => timed_step hu hpre hlater
    · exact atEachStep_of_pairwise _ (hclock.sublist hjs.sublist)
  have hprogress := forall_prefix_invariant_iff (step host decode)
    (fun _ t => ∀ record, t.Holds record → Progression record.states record.state)
    (fun _ _ => True) (fun u => ¬ BreaksHistory decode u.pre u.input.operation)
    (fun record hheld => absurd hheld (hnone record)) trivial
    (fun _ u hu _ hpre => progression_step hu hpre) (fun _ _ _ _ _ _ => trivial) calls
  rw [← hprogress]
  constructor
  · exact fun hkept js hjs record hheld => (hkept.wellFormed js hjs record hheld).progression
  · intro hall
    refine ⟨fun js hjs record hheld => ⟨hall js hjs record hheld, ?_⟩, ?_⟩
    · exact (htimed js hjs record hheld).ordered
    · intro u _ hrejected
      have hsame := unlogged_of_rejected hrejected
      have hcache : u.post.unlogged.cache = u.pre.unlogged.cache := congrArg cache hsame
      have htxstate : u.post.unlogged.txstate = u.pre.unlogged.txstate := congrArg txstate hsame
      exact ⟨hcache, htxstate⟩

end TransactionStateTracker

namespace Demo

open TransactionStateTracker

def resumed : List TransactionStateTracker.Call :=
  [trackerCall 100 (.createTransactionWithReason 1 initiator none),
    trackerCall 101 (.startTransaction 1), trackerCall 101 (.completeTransaction 2),
    trackerCall 102 (.failTransaction 1 "timeout"), trackerCall 103 (.resumePartialRecovery 1)]

def importsPending : List TransactionStateTracker.Call :=
  [trackerCall 100 (.importRecoveryState exportedPending initiator)]

end Demo

namespace TransactionStateTracker

/-- A failed transaction that resumes where it was has a proper history. -/
theorem histories_kept_of_resumed :
    HistoriesKept Demo.trackerHost Demo.decodeExported (new false) Demo.resumed := by
  apply (histories_kept_iff Demo.trackerHost Demo.decodeExported false Demo.resumed
    (by decide)).mpr
  have hback : (transitions (step Demo.trackerHost Demo.decodeExported) (new false)
      Demo.resumed).all (fun u =>
        match u.input.operation with
        | .importRecoveryState _ _ => false
        | .resumePartialRecovery id =>
          (u.pre.getTransactionState id).all fun record =>
            record.states.dropLast.getLast? =
              record.recoveryMetadata.map RecoveryMetadata.failedFromState
        | _ => true) = true := by decide +kernel
  intro u hu hbreaks
  have hu := List.all_eq_true.mp hback u hu
  generalize u.input.operation = operation at hu hbreaks
  cases hbreaks with
  | imports => cases hu
  | resumes hfound _ hrecovery _ helsewhere =>
    simp only [hfound, hrecovery, Option.all_some, Option.map_some, decide_eq_true_eq] at hu
    exact helsewhere hu

/-- The made-up history stays in `Pending` before it fails. -/
theorem imported_history_broken :
    ¬ HistoriesKept Demo.trackerHost Demo.decodeExported (new true) Demo.importsPending := by
  intro h
  have hmade : ((Machine.run (step Demo.trackerHost Demo.decodeExported) (new true)
      Demo.importsPending).getTransactionState 1).map TransactionStateRecord.states =
        some [.pending, .pending, .failed] := by decide +kernel
  obtain ⟨record, hfound, hstates⟩ := Option.map_eq_some_iff.mp hmade
  have hproper := (h.wellFormed _ List.prefix_rfl record (holds_of_find hfound)).progression
  rw [hstates] at hproper
  obtain hvalid | ⟨hfailed, _⟩ := hproper.steps 0 .pending .pending rfl rfl
  · cases hvalid
  · cases hfailed

end TransactionStateTracker

end AnchorKit
