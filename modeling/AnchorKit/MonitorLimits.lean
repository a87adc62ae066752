import AnchorKit.StreamingMonitor

/-!
# Limits of the streaming monitor

What a turn of the loop leaves alone, and how a limit on the transitions that are kept acts on a
run: the run is the one without a limit, with the newest transitions kept at every point.
-/

namespace AnchorKit
namespace StreamingMonitor

open Changes

namespace StreamingTransactionMonitor

def unlimited (m : StreamingTransactionMonitor) :
    StreamingTransactionMonitor :=
  m.withBackpressure { m.backpressure with maxQueuedTransitions := 0 }

/-- The monitor with a limit, which keeps the newest transitions. -/
def restrict (limit : ℕ) (m : StreamingTransactionMonitor) : StreamingTransactionMonitor :=
  { m with
    backpressure := { m.backpressure with maxQueuedTransitions := limit }
    transitions := newest limit m.transitions }

section Record

variable (m : StreamingTransactionMonitor) (a b : TransactionState) (ts : UInt64) (tr : TraceContext)

@[simp] theorem recordTransition_backpressure :
    (m.recordTransition a b ts tr).1.backpressure = m.backpressure := by
  unfold recordTransition
  split
  · rfl
  · rfl

@[simp] theorem recordTransition_retryConfig :
    (m.recordTransition a b ts tr).1.retryConfig = m.retryConfig := by
  unfold recordTransition
  split
  · rfl
  · rfl

@[simp] theorem recordTransition_trace : (m.recordTransition a b ts tr).1.trace = m.trace := by
  unfold recordTransition
  split
  · rfl
  · rfl

theorem evict_eq_newest {α : Type} (limit : ℕ) (l : List α) :
    (if 0 < limit then dropOldest limit l else l) = newest limit l := by
  unfold newest
  rcases Nat.eq_zero_or_pos limit with rfl | hpos
  · rfl
  · rw [if_pos hpos, if_neg (Nat.ne_of_gt hpos), dropOldest_eq]

theorem recordTransition_restrict {m : StreamingTransactionMonitor} (limit : ℕ)
    (h : m.backpressure.maxQueuedTransitions = 0) :
    ((m.restrict limit).recordTransition a b ts tr).1 =
      (m.recordTransition a b ts tr).1.restrict limit := by
  unfold recordTransition restrict
  simp only [getLast?_newest, h, evict_eq_newest]
  split
  · rfl
  · simp only [newest_snoc]
    rfl

end Record

end StreamingTransactionMonitor

namespace Loop

/-- The loop of a monitor with a limit. -/
def restrict (limit : ℕ) (s : Loop) : Loop := { s with monitor := s.monitor.restrict limit }

section Commute

variable {s : Loop} (limit : ℕ) (ts : UInt64) (tr : TraceContext)

theorem changeState_restrict (h : s.monitor.backpressure.maxQueuedTransitions = 0)
    (a b : TransactionState) :
    (s.restrict limit).changeState a b ts tr = (s.changeState a b ts tr).restrict limit := by
  unfold changeState restrict
  rw [s.monitor.recordTransition_restrict a b ts tr limit h]

theorem conclude_restrict (h : s.monitor.backpressure.maxQueuedTransitions = 0)
    (state : TransactionState) (event : TransactionStatusUpdate) :
    (s.restrict limit).conclude state event ts tr =
      (s.conclude state event ts tr).restrict limit := by
  have hlast : (s.restrict limit).lastState = s.lastState := rfl
  unfold conclude
  rw [hlast]
  cases s.lastState with
  | none => rfl
  | some prev =>
    dsimp only
    rw [changeState_restrict limit ts tr h]
    rfl

theorem noteState_restrict (h : s.monitor.backpressure.maxQueuedTransitions = 0)
    (state : TransactionState) :
    (s.restrict limit).noteState state ts tr = (s.noteState state ts tr).restrict limit := by
  have hlast : (s.restrict limit).lastState = s.lastState := rfl
  unfold noteState
  rw [hlast]
  cases s.lastState with
  | none =>
    have hrecord := s.monitor.recordTransition_restrict .pending state ts tr limit h
    simp only [restrict, hrecord]
  | some prev =>
    by_cases hmoved : prev ≠ state
    · simp only [if_pos hmoved]
      exact changeState_restrict limit ts tr h prev state
    · simp only [if_neg hmoved]

theorem settleState_restrict (s : Loop) (state : TransactionState) (willCoalesce : Bool) :
    (s.restrict limit).settleState state willCoalesce =
      ((s.settleState state willCoalesce).1.restrict limit,
        (s.settleState state willCoalesce).2) := by
  unfold settleState
  cases willCoalesce with
  | false =>
    by_cases hfailed : state = .failed
    · simp only [if_pos hfailed]
      rfl
    · simp only [if_neg hfailed]
      rfl
  | true =>
    by_cases hfailed : state = .failed
    · simp only [if_pos hfailed]
      rfl
    · simp only [if_neg hfailed]
      rfl

theorem observe_restrict (h : s.monitor.backpressure.maxQueuedTransitions = 0)
    (state : TransactionState) : (s.restrict limit).observe state ts tr =
      ((s.observe state ts tr).1.restrict limit, (s.observe state ts tr).2) := by
  unfold observe
  rw [noteState_restrict limit ts tr h, settleState_restrict]
  rfl

theorem handle_restrict (h : s.monitor.backpressure.maxQueuedTransitions = 0)
    (result : Except Text PollResult) : (s.restrict limit).handle result ts tr =
      ((s.handle result ts tr).1.restrict limit, (s.handle result ts tr).2) := by
  unfold handle
  split
  · rw [conclude_restrict limit ts tr h]
  · rw [conclude_restrict limit ts tr h]
  · rw [conclude_restrict limit ts tr h]
  · rw [conclude_restrict limit ts tr h]
  · exact observe_restrict limit ts tr h _

end Commute

end Loop

/-! ### What a turn of the loop leaves alone -/

structure SameSetup (s s' : Loop) : Prop where
  backpressure : s'.monitor.backpressure = s.monitor.backpressure
  retryConfig : s'.monitor.retryConfig = s.monitor.retryConfig
  calls : s'.calls = s.calls

namespace SameSetup

variable (s : Loop) (ts : UInt64) (tr : TraceContext)

theorem changeState (a b : TransactionState) : SameSetup s (s.changeState a b ts tr) :=
  ⟨s.monitor.recordTransition_backpressure a b ts tr,
    s.monitor.recordTransition_retryConfig a b ts tr, rfl⟩

theorem conclude (state : TransactionState) (event : TransactionStatusUpdate) :
    SameSetup s (s.conclude state event ts tr) := by
  unfold Loop.conclude
  cases s.lastState with
  | none => exact ⟨rfl, rfl, rfl⟩
  | some prev =>
    obtain ⟨hbackpressure, hretry, hcalls⟩ := changeState s ts tr prev state
    exact ⟨hbackpressure, hretry, hcalls⟩

theorem noteState (state : TransactionState) : SameSetup s (s.noteState state ts tr) := by
  unfold Loop.noteState
  cases s.lastState with
  | none =>
    exact ⟨s.monitor.recordTransition_backpressure .pending state ts tr,
      s.monitor.recordTransition_retryConfig .pending state ts tr, rfl⟩
  | some prev =>
    dsimp only
    split
    · exact changeState s ts tr prev state
    · exact ⟨rfl, rfl, rfl⟩

theorem settleState (state : TransactionState) (willCoalesce : Bool) :
    SameSetup s (s.settleState state willCoalesce).1 := by
  unfold Loop.settleState
  cases willCoalesce with
  | false =>
    dsimp only
    split
    · exact ⟨rfl, rfl, rfl⟩
    · exact ⟨rfl, rfl, rfl⟩
  | true =>
    dsimp only
    split
    · exact ⟨rfl, rfl, rfl⟩
    · exact ⟨rfl, rfl, rfl⟩

theorem observe (state : TransactionState) : SameSetup s (s.observe state ts tr).1 := by
  have hnote := noteState s ts tr state
  have hsettle := settleState (s.noteState state ts tr) state
    (s.monitor.backpressure.coalesceUpdates && s.lastState = some state)
  exact ⟨hsettle.backpressure.trans hnote.backpressure, hsettle.retryConfig.trans hnote.retryConfig,
    hsettle.calls.trans hnote.calls⟩

theorem handle (result : Except Text PollResult) : SameSetup s (s.handle result ts tr).1 := by
  unfold Loop.handle
  split
  · exact conclude s ts tr _ _
  · exact conclude s ts tr _ _
  · exact conclude s ts tr _ _
  · exact conclude s ts tr _ _
  · exact observe s ts tr _

end SameSetup

section Runs

variable (sha256 : Bytes → BytesN 32) (poll : Poll) (clock : ℕ → UInt64)
variable {m : StreamingTransactionMonitor}

theorem pollCycle_setup (s : Loop) :
    (pollCycle sha256 poll clock s).1.monitor.backpressure = s.monitor.backpressure ∧
      (pollCycle sha256 poll clock s).1.monitor.retryConfig = s.monitor.retryConfig ∧
      (pollCycle sha256 poll clock s).1.calls =
        (s.monitor.retryConfig.retryWithBackoff poll (fun _ => true) s.calls).2 := by
  obtain ⟨hbackpressure, hretry, hcalls⟩ := SameSetup.handle
    { s with cycle := s.cycle + 1,
             calls := (s.monitor.retryConfig.retryWithBackoff poll (fun _ => true) s.calls).2 }
    (clock (s.monitor.retryConfig.retryWithBackoff poll (fun _ => true) s.calls).2)
    (s.monitor.trace.childForAttempt sha256 s.cycle)
    (s.monitor.retryConfig.retryWithBackoff poll (fun _ => true) s.calls).1
  exact ⟨hbackpressure, hretry, hcalls⟩

theorem pollCycle_restrict {s : Loop} (limit : ℕ)
    (h : s.monitor.backpressure.maxQueuedTransitions = 0) :
    pollCycle sha256 poll clock (s.restrict limit) =
      ((pollCycle sha256 poll clock s).1.restrict limit, (pollCycle sha256 poll clock s).2) := by
  exact Loop.handle_restrict limit _ _ (s := { s with
    cycle := s.cycle + 1
    calls := (s.monitor.retryConfig.retryWithBackoff poll (fun _ => true) s.calls).2 }) h _

theorem runTraced_setup (m : StreamingTransactionMonitor) (n : ℕ) :
    (runTraced sha256 poll clock m n).1.monitor.backpressure = m.backpressure ∧
      (runTraced sha256 poll clock m n).1.monitor.retryConfig = m.retryConfig := by
  induction n with
  | zero => exact ⟨rfl, rfl⟩
  | succ n ih =>
    rw [runTraced]
    split
    · rename_i s hs
      rw [hs] at ih
      exact ih
    · rename_i s hs
      rw [hs] at ih
      obtain ⟨hbackpressure, hretry, _⟩ := pollCycle_setup sha256 poll clock s
      exact ⟨hbackpressure.trans ih.1, hretry.trans ih.2⟩

/-- A run with a limit is the run without one, restricted. -/
theorem runTraced_restrict (hfresh : m.transitions = []) (n : ℕ) :
    runTraced sha256 poll clock m n =
      ((runTraced sha256 poll clock m.unlimited n).1.restrict
          m.backpressure.maxQueuedTransitions,
        (runTraced sha256 poll clock m.unlimited n).2) := by
  induction n with
  | zero =>
    have hstart : m = m.unlimited.restrict m.backpressure.maxQueuedTransitions := by
      unfold StreamingTransactionMonitor.restrict
      change m = { m with transitions := newest _ m.transitions }
      rw [hfresh]
      have hnil : newest m.backpressure.maxQueuedTransitions ([] : List StateTransition) = [] := by
        simp [newest]
      rw [hnil, ← hfresh]
    exact congrArg (fun m' => ((⟨m', none, [], 0, 0⟩ : Loop), false)) hstart
  | succ n ih =>
    rw [runTraced, ih, runTraced]
    have hsetup := (runTraced_setup sha256 poll clock m.unlimited n).1
    cases hu : runTraced sha256 poll clock m.unlimited n with
    | mk s stopped =>
      rw [hu] at hsetup
      cases stopped with
      | true => rfl
      | false =>
        have hzero : s.monitor.backpressure.maxQueuedTransitions = 0 := by
          rw [hsetup]
          rfl
        exact pollCycle_restrict sha256 poll clock _ hzero

end Runs

end StreamingMonitor
end AnchorKit
