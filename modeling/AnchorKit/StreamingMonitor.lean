import AnchorKit.Library.Changes
import AnchorKit.Storage
import AnchorKit.TraceContext

/-!
# The streaming monitor

A transaction is polled until it is over. Every poll is retried, and what it shows is recorded as
a transition and handed out as an event. Delays between polls and attempts are left out.
-/

namespace AnchorKit

/-- Of a retry configuration only the number of attempts decides what is returned. -/
structure RetryConfig where
  maxAttempts : UInt32
deriving DecidableEq, Repr

namespace RetryConfig

def default : RetryConfig := ⟨3⟩

def attempts {T E : Type} (f : ℕ → Except E T) (retryable : E → Bool) : ℕ → ℕ → Except E T × ℕ
  | 0, calls => (f calls, calls + 1)
  | more + 1, calls =>
    match f calls with
    | .ok value => (.ok value, calls + 1)
    | .error e =>
      if retryable e then attempts f retryable more (calls + 1) else (.error e, calls + 1)

/-- No attempts stand for one. The result comes with the number of calls made so far. -/
def retryWithBackoff {T E : Type} (config : RetryConfig) (f : ℕ → Except E T) (retryable : E → Bool)
    (calls : ℕ) : Except E T × ℕ :=
  attempts f retryable (config.maxAttempts.toNat - 1) calls

end RetryConfig

namespace StreamingMonitor

open Changes

inductive PollResult
  | pending (state : TransactionState)
  | completed (stellarTxId : Text)
  | eof
  | failed (reason : Text)
deriving DecidableEq, Repr

inductive TransactionStatusUpdate
  | stateChanged (fromState toState : TransactionState) (timestamp : UInt64)
  | moreInfoAvailable (url : Text)
  | completed (stellarTxId : Text)
  | failed (reason : Text)
deriving DecidableEq, Repr

structure StateTransition where
  fromState : TransactionState
  toState : TransactionState
  timestamp : UInt64
  traceId : Text
  spanId : Text
deriving DecidableEq, Repr

structure BackpressureConfig where
  maxQueuedTransitions : ℕ
  coalesceUpdates : Bool
  coalesceAcrossPolls : Bool
deriving DecidableEq, Repr

namespace BackpressureConfig

def default : BackpressureConfig := ⟨100, true, true⟩

def unlimited : BackpressureConfig := ⟨0, false, false⟩

def aggressive : BackpressureConfig := ⟨10, true, true⟩

end BackpressureConfig

structure StreamingTransactionMonitor where
  transactionId : UInt64
  retryConfig : RetryConfig
  transitions : List StateTransition
  backpressure : BackpressureConfig
  trace : TraceContext

/-- `poll_fn` by the number of calls before; an error is what the attempt failed with. -/
abbrev Poll := ℕ → Except Text PollResult

/-- The monitor with the variables of its loop: the last state, the events handed out, the poll
cycles and the calls of `poll_fn`. -/
structure Loop where
  monitor : StreamingTransactionMonitor
  lastState : Option TransactionState
  events : List TransactionStatusUpdate
  cycle : UInt32
  calls : ℕ

namespace StreamingTransactionMonitor

variable (sha256 : Bytes → BytesN 32)

def new (transactionId : UInt64) : StreamingTransactionMonitor where
  transactionId
  retryConfig := .default
  transitions := []
  backpressure := .default
  trace := .rootFromSeed sha256 ("monitor:".toList ++ Nat.toDigits 10 transactionId.toNat)

def withRetry (m : StreamingTransactionMonitor) (config : RetryConfig) :
    StreamingTransactionMonitor :=
  { m with retryConfig := config }

def withBackpressure (m : StreamingTransactionMonitor) (config : BackpressureConfig) :
    StreamingTransactionMonitor :=
  { m with backpressure := config }

def withTrace (m : StreamingTransactionMonitor) (trace : TraceContext) :
    StreamingTransactionMonitor :=
  { m with trace :=
      trace.child sha256 ("monitor:".toList ++ Nat.toDigits 10 m.transactionId.toNat) }

def recordTransition (m : StreamingTransactionMonitor) (fromState toState : TransactionState)
    (timestamp : UInt64) (pollTrace : TraceContext) : StreamingTransactionMonitor × Bool :=
  if m.backpressure.coalesceAcrossPolls = true ∧
      m.transitions.getLast?.any (fun last => last.fromState = fromState ∧ last.toState = toState) then
    (m, false)
  else
    let transition : StateTransition :=
      { fromState, toState, timestamp, traceId := pollTrace.traceId.val,
        spanId := pollTrace.spanId.val }
    let transitions := m.transitions ++ [transition]
    let transitions :=
      if 0 < m.backpressure.maxQueuedTransitions then
        dropOldest m.backpressure.maxQueuedTransitions transitions
      else transitions
    ({ m with transitions }, true)

end StreamingTransactionMonitor

namespace Loop

def changeState (s : Loop) (prev state : TransactionState) (timestamp : UInt64)
    (pollTrace : TraceContext) : Loop :=
  { s with
    monitor := (s.monitor.recordTransition prev state timestamp pollTrace).1
    events := s.events ++ [.stateChanged prev state timestamp] }

/-- The last change, if a state was seen before, and the event that ends the run. -/
def conclude (s : Loop) (state : TransactionState) (event : TransactionStatusUpdate)
    (timestamp : UInt64) (pollTrace : TraceContext) : Loop :=
  let s := match s.lastState with
    | some prev => s.changeState prev state timestamp pollTrace
    | none => s
  { s with events := s.events ++ [event] }

/-- A state that is shown is recorded and handed out when it is another one; the first is recorded
as a change from `Pending`. -/
def noteState (s : Loop) (currentState : TransactionState) (timestamp : UInt64)
    (pollTrace : TraceContext) : Loop :=
  match s.lastState with
  | some prev =>
    if prev ≠ currentState then s.changeState prev currentState timestamp pollTrace else s
  | none => { s with
      monitor := (s.monitor.recordTransition .pending currentState timestamp pollTrace).1 }

/-- The state becomes the last one; only a failed one ends the run. -/
def settleState (s : Loop) (currentState : TransactionState) (willCoalesce : Bool) : Loop × Bool :=
  let s := if willCoalesce = false then { s with lastState := some currentState } else s
  if currentState = .failed then
    ({ s with events := s.events ++ [.failed "transaction failed".toList] }, true)
  else (s, false)

def observe (s : Loop) (currentState : TransactionState) (timestamp : UInt64)
    (pollTrace : TraceContext) : Loop × Bool :=
  let willCoalesce := s.monitor.backpressure.coalesceUpdates && s.lastState = some currentState
  (s.noteState currentState timestamp pollTrace).settleState currentState willCoalesce

def handle (s : Loop) (result : Except Text PollResult) (timestamp : UInt64)
    (pollTrace : TraceContext) : Loop × Bool :=
  match result with
  | .error reason => (s.conclude .failed (.failed reason) timestamp pollTrace, true)
  | .ok (.failed reason) => (s.conclude .failed (.failed reason) timestamp pollTrace, true)
  | .ok .eof => (s.conclude .completed (.completed []) timestamp pollTrace, true)
  | .ok (.completed stellarTxId) =>
    (s.conclude .completed (.completed stellarTxId) timestamp pollTrace, true)
  | .ok (.pending currentState) => s.observe currentState timestamp pollTrace

end Loop

section Runs

variable (sha256 : Bytes → BytesN 32) (poll : Poll) (clock : ℕ → UInt64)

/-- One turn of the loop. The clock is read at most once in it, after the calls of `poll_fn`. -/
def pollCycle (s : Loop) : Loop × Bool :=
  let cycleTrace := s.monitor.trace.childForAttempt sha256 s.cycle
  let polled := s.monitor.retryConfig.retryWithBackoff poll (fun _ => true) s.calls
  { s with cycle := s.cycle + 1, calls := polled.2 }.handle polled.1 (clock polled.2) cycleTrace

/-- At most so many turns of the loop, with whether the run returned. -/
def runTraced (m : StreamingTransactionMonitor) : ℕ → Loop × Bool
  | 0 => (⟨m, none, [], 0, 0⟩, false)
  | n + 1 =>
    match runTraced m n with
    | (s, true) => (s, true)
    | (s, false) => pollCycle sha256 poll clock s

end Runs

end StreamingMonitor

end AnchorKit
