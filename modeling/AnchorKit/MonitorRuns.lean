import AnchorKit.MonitorLimits

/-!
# Runs of the streaming monitor

What a run hands out and what it records, compared with the states that its polls show up to the
first that is final. The two agree unless the first poll shows `Pending`, which is recorded as a
change, or the final state comes as a pending `Completed`, which does not end the run.
-/

namespace AnchorKit
namespace StreamingMonitor

open Changes

def observedState : Except Text PollResult → TransactionState
  | .error _ | .ok (.failed _) => .failed
  | .ok .eof | .ok (.completed _) => .completed
  | .ok (.pending state) => state

def isFinal (state : TransactionState) : Bool := state = .completed || state = .failed

def showsTerminal (result : Except Text PollResult) : Bool := isFinal (observedState result)

def changeOf : TransactionStatusUpdate → Option (TransactionState × TransactionState)
  | .stateChanged fromState toState _ => some (fromState, toState)
  | _ => none

def TransactionStatusUpdate.isTerminal : TransactionStatusUpdate → Bool
  | .completed _ | .failed _ => true
  | _ => false

def StateTransition.pair (t : StateTransition) : TransactionState × TransactionState :=
  (t.fromState, t.toState)

section Polls

variable (config : RetryConfig) (poll : Poll)

def callsBefore : ℕ → ℕ
  | 0 => 0
  | i + 1 => (config.retryWithBackoff poll (fun _ => true) (callsBefore i)).2

/-- What the retries of a cycle end in. -/
def polled (i : ℕ) : Except Text PollResult :=
  (config.retryWithBackoff poll (fun _ => true) (callsBefore config poll i)).1

/-- What the first cycles show, up to the first that shows the end. -/
def shown (n : ℕ) : List (Except Text PollResult) :=
  throughFirst showsTerminal ((List.range n).map (polled config poll))

def observed (n : ℕ) : List TransactionState := (shown config poll n).map observedState

/-- The polls begin with another state than `Pending`, and do not end with a pending one. -/
structure ShowsPlainly : Prop where
  start : polled config poll 0 ≠ .ok (.pending .pending)
  finish (i : ℕ) : (∀ j < i, showsTerminal (polled config poll j) = false) →
    polled config poll i ≠ .ok (.pending .completed)

end Polls

def EndsOnce (events : List TransactionStatusUpdate) : Prop :=
  ∃ before last, events = before ++ [last] ∧ last.isTerminal = true ∧
    ∀ e ∈ before, e.isTerminal = false

section Runs

variable (sha256 : Bytes → BytesN 32) (poll : Poll) (clock : ℕ → UInt64)
variable (m : StreamingTransactionMonitor)

/-- Events and transitions of the first turns tell what the polls show. The transitions that are
kept are the newest of those that a monitor without a limit keeps. -/
structure TellsTheStory (n : ℕ) : Prop where
  polls : (runTraced sha256 poll clock m n).1.calls =
    callsBefore m.retryConfig poll (shown m.retryConfig poll n).length
  stops : (runTraced sha256 poll clock m n).2 = true ↔
    ∃ result ∈ shown m.retryConfig poll n, showsTerminal result = true
  changed : (runTraced sha256 poll clock m n).1.events.filterMap changeOf =
    changes (observed m.retryConfig poll n)
  ends : (runTraced sha256 poll clock m n).2 = true →
    EndsOnce (runTraced sha256 poll clock m n).1.events
  goesOn : (runTraced sha256 poll clock m n).2 = false →
    ∀ e ∈ (runTraced sha256 poll clock m n).1.events, e.isTerminal = false
  moves : ∀ t ∈ (runTraced sha256 poll clock m.unlimited n).1.monitor.transitions,
    t.fromState ≠ t.toState
  path : IsPath .pending
    ((runTraced sha256 poll clock m.unlimited n).1.monitor.transitions.map StateTransition.pair)
  kept : (runTraced sha256 poll clock m n).1.monitor.transitions =
    newest m.backpressure.maxQueuedTransitions
      (runTraced sha256 poll clock m.unlimited n).1.monitor.transitions

end Runs

/-! ### What a turn of the loop tells -/

/-- Without a limit, events and transitions tell these states and nothing final yet. -/
structure Recounts (s : Loop) (obs : List TransactionState) : Prop where
  unlimited : s.monitor.backpressure.maxQueuedTransitions = 0
  changed : s.events.filterMap changeOf = changes obs
  quiet : ∀ e ∈ s.events, e.isTerminal = false
  recorded : s.monitor.transitions.map StateTransition.pair = changes (.pending :: obs)
  newest : ∀ t ∈ s.monitor.transitions.getLast?, obs.getLast? = some t.toState

/-- The states are not final ones, and the last of them is remembered. -/
structure Tells (s : Loop) (obs : List TransactionState) : Prop extends Recounts s obs where
  last : s.lastState = obs.getLast?
  unfinished : ∀ state ∈ obs, isFinal state = false

/-- Events and transitions tell these states, the last of which is final. -/
structure Told (s : Loop) (obs : List TransactionState) : Prop where
  changed : s.events.filterMap changeOf = changes obs
  ends : EndsOnce s.events
  recorded : s.monitor.transitions.map StateTransition.pair = changes (.pending :: obs) ∨
    s.monitor.transitions = []

section Tells

variable {s : Loop} {obs : List TransactionState} {ts : UInt64} {tr : TraceContext}

theorem map_pair_recordTransition {m : StreamingTransactionMonitor} {a b : TransactionState}
    (hlimit : m.backpressure.maxQueuedTransitions = 0)
    (hnew : ∀ t ∈ m.transitions.getLast?, ¬ (t.fromState = a ∧ t.toState = b)) :
    (m.recordTransition a b ts tr).1.transitions =
      m.transitions ++ [⟨a, b, ts, tr.traceId.val, tr.spanId.val⟩] := by
  unfold StreamingTransactionMonitor.recordTransition
  rw [if_neg, hlimit]
  · rfl
  · rintro ⟨_, hany⟩
    rw [Option.any_eq_true] at hany
    obtain ⟨t, ht, heq⟩ := hany
    exact hnew t ht (of_decide_eq_true heq)

theorem Tells.changeState {prev state : TransactionState} (h : Tells s obs)
    (hlast : s.lastState = some prev) (hne : prev ≠ state) :
    Recounts (s.changeState prev state ts tr) (obs ++ [state]) := by
  have hobs := h.last
  rw [hlast] at hobs
  obtain ⟨before, rfl⟩ := List.getLast?_eq_some_iff.mp hobs.symm
  have hrecord : (s.monitor.recordTransition prev state ts tr).1.transitions =
      s.monitor.transitions ++ [⟨prev, state, ts, tr.traceId.val, tr.spanId.val⟩] := by
    apply map_pair_recordTransition h.unlimited
    rintro t ht ⟨_, hto⟩
    have hsame := h.newest t ht
    rw [List.getLast?_concat, hto] at hsame
    exact hne (Option.some.inj hsame)
  have hchange : change prev state = [(prev, state)] := if_neg hne
  constructor
  · exact (SameSetup.changeState s ts tr prev state).backpressure ▸ h.unlimited
  · rw [Loop.changeState, List.filterMap_append, h.changed, changes_snoc, hchange]
    rfl
  · intro e he
    rcases List.mem_append.mp he with he | he
    · exact h.quiet e he
    · rw [List.mem_singleton.mp he]
      rfl
  · rw [Loop.changeState, hrecord, List.map_append, h.recorded, changes_cons_snoc, hchange]
    rfl
  · intro t ht
    rw [Loop.changeState, hrecord, List.getLast?_concat] at ht
    obtain rfl := Option.some.inj ht
    rw [List.getLast?_concat]

theorem Tells.noteState {state : TransactionState} (h : Tells s obs)
    (hstart : obs = [] → state ≠ .pending) :
    Recounts (s.noteState state ts tr) (obs ++ [state]) := by
  unfold Loop.noteState
  cases hlast : s.lastState with
  | none =>
    have hobs := h.last
    rw [hlast] at hobs
    obtain rfl := List.getLast?_eq_none_iff.mp hobs.symm
    have hnil : s.monitor.transitions = [] := by
      have hrecorded := h.recorded
      rwa [changes_singleton, List.map_eq_nil_iff] at hrecorded
    have hrecord : (s.monitor.recordTransition .pending state ts tr).1.transitions =
        [⟨.pending, state, ts, tr.traceId.val, tr.spanId.val⟩] := by
      rw [map_pair_recordTransition h.unlimited, hnil, List.nil_append]
      intro t ht
      rw [hnil] at ht
      cases ht
    have hchange : change TransactionState.pending state = [(.pending, state)] :=
      if_neg (hstart rfl).symm
    constructor
    · rw [StreamingTransactionMonitor.recordTransition_backpressure]
      exact h.unlimited
    · exact h.changed
    · exact h.quiet
    · rw [hrecord, List.nil_append, changes_cons_cons, hchange]
      rfl
    · intro t ht
      rw [hrecord] at ht
      obtain rfl := Option.some.inj ht
      rfl
  | some prev =>
    by_cases hne : prev ≠ state
    · simp only [if_pos hne]
      exact h.changeState hlast hne
    · rw [not_not] at hne
      obtain rfl := hne
      have hobs := h.last
      rw [hlast] at hobs
      obtain ⟨before, rfl⟩ := List.getLast?_eq_some_iff.mp hobs.symm
      have hchange : change prev prev = [] := if_pos rfl
      simp only [ne_eq, not_true_eq_false, if_false]
      constructor
      · exact h.unlimited
      · rw [changes_snoc, hchange, List.append_nil, h.changed]
      · exact h.quiet
      · rw [changes_cons_snoc, hchange, List.append_nil, h.recorded]
      · intro t ht
        rw [List.getLast?_concat, ← h.newest t ht, List.getLast?_concat]

theorem noteState_lastState (s : Loop) (state : TransactionState) :
    (s.noteState state ts tr).lastState = s.lastState := by
  unfold Loop.noteState
  split
  · split
    · rfl
    · rfl
  · rfl

/-- A state that is coalesced is the last one already. -/
theorem observe_eq (s : Loop) (state : TransactionState) : s.observe state ts tr =
    if state = .failed then
      ({ s.noteState state ts tr with
          lastState := some state
          events := (s.noteState state ts tr).events ++ [.failed "transaction failed".toList] },
        true)
    else ({ s.noteState state ts tr with lastState := some state }, false) := by
  unfold Loop.observe Loop.settleState
  cases hcoalesce : (s.monitor.backpressure.coalesceUpdates && s.lastState = some state) with
  | false => rfl
  | true =>
    have hlast : (s.noteState state ts tr).lastState = some state := by
      rw [Bool.and_eq_true, decide_eq_true_eq] at hcoalesce
      rw [noteState_lastState, hcoalesce.2]
    rw [← hlast]
    rfl

/-- A state that is not final is told, and the run goes on. -/
theorem Tells.observe {state : TransactionState} (h : Tells s obs) (hstate : isFinal state = false)
    (hstart : obs = [] → state ≠ .pending) :
    Tells (s.observe state ts tr).1 (obs ++ [state]) ∧ (s.observe state ts tr).2 = false := by
  have hfailed : state ≠ .failed := by
    rintro rfl
    cases hstate
  have hnoted : Recounts (s.noteState state ts tr) (obs ++ [state]) := h.noteState hstart
  obtain ⟨hunlimited, hchanged, hquiet, hrecorded, hnewest⟩ := hnoted
  rw [observe_eq, if_neg hfailed]
  refine ⟨⟨⟨hunlimited, hchanged, hquiet, hrecorded, hnewest⟩, ?_, ?_⟩, rfl⟩
  · exact List.getLast?_concat.symm
  · intro o ho
    rcases List.mem_append.mp ho with ho | ho
    · exact h.unfinished o ho
    · rwa [List.mem_singleton.mp ho]

theorem endsOnce_snoc {events : List TransactionStatusUpdate} {event : TransactionStatusUpdate}
    (hquiet : ∀ e ∈ events, e.isTerminal = false) (hevent : event.isTerminal = true) :
    EndsOnce (events ++ [event]) :=
  ⟨events, event, rfl, hevent, hquiet⟩

theorem filterMap_changeOf_snoc {events : List TransactionStatusUpdate}
    {event : TransactionStatusUpdate} (hevent : event.isTerminal = true) :
    (events ++ [event]).filterMap changeOf = events.filterMap changeOf := by
  rw [List.filterMap_append]
  cases event with
  | stateChanged a b ts => cases hevent
  | moreInfoAvailable url => cases hevent
  | completed stellarTxId => exact List.append_nil _
  | failed reason => exact List.append_nil _

theorem Tells.observe_failed (h : Tells s obs) :
    Told (s.observe .failed ts tr).1 (obs ++ [.failed]) ∧ (s.observe .failed ts tr).2 = true := by
  have hnoted : Recounts (s.noteState .failed ts tr) (obs ++ [.failed]) :=
    h.noteState fun _ => by decide
  obtain ⟨_, hchanged, hquiet, hrecorded, _⟩ := hnoted
  rw [observe_eq, if_pos rfl]
  refine ⟨⟨?_, endsOnce_snoc hquiet rfl, Or.inl hrecorded⟩, rfl⟩
  exact (filterMap_changeOf_snoc rfl).trans hchanged

theorem Tells.conclude {state : TransactionState} {event : TransactionStatusUpdate} (h : Tells s obs)
    (hstate : isFinal state = true) (hevent : event.isTerminal = true) :
    Told (s.conclude state event ts tr) (obs ++ [state]) := by
  have hobs := h.last
  unfold Loop.conclude
  cases hlast : s.lastState with
  | none =>
    rw [hlast] at hobs
    obtain rfl := List.getLast?_eq_none_iff.mp hobs.symm
    refine ⟨(filterMap_changeOf_snoc hevent).trans h.changed, endsOnce_snoc h.quiet hevent,
      Or.inr ?_⟩
    have hrecorded := h.recorded
    rwa [changes_singleton, List.map_eq_nil_iff] at hrecorded
  | some prev =>
    rw [hlast] at hobs
    have hne : prev ≠ state := by
      rintro rfl
      rw [h.unfinished prev (List.mem_of_getLast? hobs.symm)] at hstate
      cases hstate
    have hnoted : Recounts (s.changeState prev state ts tr) (obs ++ [state]) :=
      h.changeState hlast hne
    obtain ⟨_, hchanged, hquiet, hrecorded, _⟩ := hnoted
    exact ⟨(filterMap_changeOf_snoc hevent).trans hchanged, endsOnce_snoc hquiet hevent,
      Or.inl hrecorded⟩

/-- A poll that shows no final state is told, and one that does is told and ends the run, unless it
is a pending `Completed`. -/
theorem Tells.handle (h : Tells s obs) (ts : UInt64) (tr : TraceContext)
    {result : Except Text PollResult}
    (hstart : obs = [] → result ≠ .ok (.pending .pending))
    (hfinish : result ≠ .ok (.pending .completed)) :
    (showsTerminal result = false ∧ (s.handle result ts tr).2 = false ∧
      Tells (s.handle result ts tr).1 (obs ++ [observedState result])) ∨
    (showsTerminal result = true ∧ (s.handle result ts tr).2 = true ∧
      Told (s.handle result ts tr).1 (obs ++ [observedState result])) := by
  match result with
  | .error reason => exact Or.inr ⟨rfl, rfl, h.conclude rfl rfl⟩
  | .ok (.failed reason) => exact Or.inr ⟨rfl, rfl, h.conclude rfl rfl⟩
  | .ok .eof => exact Or.inr ⟨rfl, rfl, h.conclude rfl rfl⟩
  | .ok (.completed stellarTxId) => exact Or.inr ⟨rfl, rfl, h.conclude rfl rfl⟩
  | .ok (.pending .failed) => exact Or.inr ⟨rfl, h.observe_failed.2, h.observe_failed.1⟩
  | .ok (.pending .completed) => exact absurd rfl hfinish
  | .ok (.pending .pending) =>
    have hobserve : Tells (s.observe .pending ts tr).1 (obs ++ [.pending]) ∧
        (s.observe .pending ts tr).2 = false :=
      h.observe rfl fun hnil => absurd rfl (hstart hnil)
    exact Or.inl ⟨rfl, hobserve.2, hobserve.1⟩
  | .ok (.pending .inProgress) =>
    have hobserve : Tells (s.observe .inProgress ts tr).1 (obs ++ [.inProgress]) ∧
        (s.observe .inProgress ts tr).2 = false :=
      h.observe rfl fun _ => by decide
    exact Or.inl ⟨rfl, hobserve.2, hobserve.1⟩

end Tells

/-! ### Runs -/

section Shown

variable {config : RetryConfig} {poll : Poll} {n i : ℕ}

theorem shown_of_unfinished (h : ∀ j < n, showsTerminal (polled config poll j) = false) :
    shown config poll n = (List.range n).map (polled config poll) := by
  apply throughFirst_of_forall
  intro result hresult
  obtain ⟨j, hj, rfl⟩ := List.mem_map.mp hresult
  exact h j (List.mem_range.mp hj)

theorem shown_of_finished (hin : i < n) (h : ∀ j < i, showsTerminal (polled config poll j) = false)
    (hi : showsTerminal (polled config poll i) = true) :
    shown config poll n = (List.range (i + 1)).map (polled config poll) := by
  obtain ⟨k, rfl⟩ := Nat.exists_eq_add_of_le (show i + 1 ≤ n by omega)
  have hfirst : ∃ x ∈ (List.range (i + 1)).map (polled config poll), showsTerminal x = true :=
    ⟨_, List.mem_map_of_mem (List.mem_range.mpr (Nat.lt_succ_self i)), hi⟩
  rw [shown, List.range_add, List.map_append, throughFirst_append hfirst, List.range_succ,
    List.map_append]
  apply throughFirst_snoc
  intro result hresult
  obtain ⟨j, hj, rfl⟩ := List.mem_map.mp hresult
  exact h j (List.mem_range.mp hj)

end Shown

section Story

variable (sha256 : Bytes → BytesN 32) (poll : Poll) (clock : ℕ → UInt64)
variable {m : StreamingTransactionMonitor}

/-- A run without a limit, after so many turns: it tells every poll, or it has ended with the first
final one. -/
inductive Follows (poll : Poll) (m : StreamingTransactionMonitor) (n : ℕ) (s : Loop) : Bool → Prop
  | running (hopen : ∀ j < n, showsTerminal (polled m.retryConfig poll j) = false)
      (hcalls : s.calls = callsBefore m.retryConfig poll n)
      (htells : Tells s (((List.range n).map (polled m.retryConfig poll)).map observedState)) :
      Follows poll m n s false
  | ended (i : ℕ) (hin : i < n)
      (hopen : ∀ j < i, showsTerminal (polled m.retryConfig poll j) = false)
      (hfinal : showsTerminal (polled m.retryConfig poll i) = true)
      (hcalls : s.calls = callsBefore m.retryConfig poll (i + 1))
      (htold : Told s (((List.range (i + 1)).map (polled m.retryConfig poll)).map observedState)) :
      Follows poll m n s true

/-- One turn of the loop polls as the configuration says and handles what the retries end in. -/
theorem pollCycle_eq {s : Loop} {n : ℕ} (hretry : s.monitor.retryConfig = m.retryConfig)
    (hcalls : s.calls = callsBefore m.retryConfig poll n) :
    pollCycle sha256 poll clock s =
      Loop.handle { s with cycle := s.cycle + 1, calls := callsBefore m.retryConfig poll (n + 1) }
        (polled m.retryConfig poll n) (clock (callsBefore m.retryConfig poll (n + 1)))
        (s.monitor.trace.childForAttempt sha256 s.cycle) := by
  rw [pollCycle, hretry, hcalls]
  rfl

theorem follows_runTraced (hfresh : m.transitions = [])
    (hplain : ShowsPlainly m.retryConfig poll) (n : ℕ) :
    Follows poll m n (runTraced sha256 poll clock m.unlimited n).1
      (runTraced sha256 poll clock m.unlimited n).2 := by
  induction n with
  | zero =>
    refine .running (fun j hj => absurd hj (Nat.not_lt_zero j)) rfl ⟨⟨rfl, rfl, ?_, ?_, ?_⟩, rfl, ?_⟩
    · exact fun e he => absurd he List.not_mem_nil
    · change m.transitions.map StateTransition.pair = []
      rw [hfresh]
      rfl
    · intro t ht
      change t ∈ m.transitions.getLast? at ht
      rw [hfresh] at ht
      cases ht
    · exact fun o ho => absurd ho List.not_mem_nil
  | succ n ih =>
    have hretry : (runTraced sha256 poll clock m.unlimited n).1.monitor.retryConfig =
        m.retryConfig := (runTraced_setup sha256 poll clock m.unlimited n).2
    rw [runTraced]
    cases hrun : runTraced sha256 poll clock m.unlimited n with
    | mk s stopped =>
      rw [hrun] at ih hretry
      dsimp only at ih hretry ⊢
      cases ih with
      | ended i hin hopen hfinal hcalls htold =>
        exact .ended i (Nat.lt_succ_of_lt hin) hopen hfinal hcalls htold
      | running hopen hcalls htells =>
        dsimp only
        rw [pollCycle_eq sha256 poll clock hretry hcalls]
        have htells' : Tells
            { s with cycle := s.cycle + 1, calls := callsBefore m.retryConfig poll (n + 1) }
            (((List.range n).map (polled m.retryConfig poll)).map observedState) :=
          ⟨⟨htells.unlimited, htells.changed, htells.quiet, htells.recorded, htells.newest⟩,
            htells.last, htells.unfinished⟩
        have hstart : ((List.range n).map (polled m.retryConfig poll)).map observedState = [] →
            polled m.retryConfig poll n ≠ .ok (.pending .pending) := by
          intro hnil
          rw [List.map_eq_nil_iff, List.map_eq_nil_iff, List.range_eq_nil] at hnil
          rw [hnil]
          exact hplain.start
        have hobs : ((List.range (n + 1)).map (polled m.retryConfig poll)).map observedState =
            ((List.range n).map (polled m.retryConfig poll)).map observedState ++
              [observedState (polled m.retryConfig poll n)] := by
          simp [List.range_succ]
        have hhandled := htells'.handle (clock (callsBefore m.retryConfig poll (n + 1)))
          (s.monitor.trace.childForAttempt sha256 s.cycle) hstart (hplain.finish n hopen)
        have hsame := SameSetup.handle
          { s with cycle := s.cycle + 1, calls := callsBefore m.retryConfig poll (n + 1) }
          (clock (callsBefore m.retryConfig poll (n + 1)))
          (s.monitor.trace.childForAttempt sha256 s.cycle) (polled m.retryConfig poll n)
        rw [← hobs] at hhandled
        obtain ⟨hopen', hgoes, htells⟩ | ⟨hfinal, hstops, htold⟩ := hhandled
        · rw [hgoes]
          refine .running (fun j hj => ?_) hsame.calls htells
          rcases Nat.lt_succ_iff_lt_or_eq.mp hj with hj | rfl
          · exact hopen j hj
          · exact hopen'
        · rw [hstops]
          exact .ended n (Nat.lt_succ_self n) hopen hfinal hsame.calls htold

theorem path_of_recorded {ts : List StateTransition} {obs : List TransactionState}
    (h : ts.map StateTransition.pair = changes (.pending :: obs) ∨ ts = []) :
    (∀ t ∈ ts, t.fromState ≠ t.toState) ∧ IsPath .pending (ts.map StateTransition.pair) := by
  rcases h with h | rfl
  · refine ⟨fun t ht => ?_, ?_⟩
    · have hmem : t.pair ∈ changes (.pending :: obs) := h ▸ List.mem_map_of_mem ht
      exact fst_ne_snd_of_mem_changes hmem
    · rw [h]
      exact isPath_changes _ _
  · exact ⟨fun t ht => absurd ht List.not_mem_nil, trivial⟩

theorem tellsTheStory_of_plain (hfresh : m.transitions = [])
    (hplain : ShowsPlainly m.retryConfig poll) (n : ℕ) :
    TellsTheStory sha256 poll clock m n := by
  have hfollows := follows_runTraced sha256 poll clock hfresh hplain n
  have hrun := runTraced_restrict sha256 poll clock hfresh n
  cases hu : runTraced sha256 poll clock m.unlimited n with
  | mk u stopped =>
    rw [hu] at hfollows hrun
    dsimp only at hfollows hrun
    have hkept : (runTraced sha256 poll clock m n).1.monitor.transitions =
        newest m.backpressure.maxQueuedTransitions
          (runTraced sha256 poll clock m.unlimited n).1.monitor.transitions := by
      rw [hrun, hu]
      rfl
    cases hfollows with
    | running hopen hcalls htells =>
      have hshown := shown_of_unfinished hopen
      have hpath := path_of_recorded (Or.inl htells.recorded)
      constructor
      · rw [hrun, hshown, List.length_map, List.length_range]
        exact hcalls
      · rw [hrun, hshown]
        refine iff_of_false Bool.false_ne_true ?_
        rintro ⟨result, hresult, hfinal⟩
        obtain ⟨j, hj, rfl⟩ := List.mem_map.mp hresult
        rw [hopen j (List.mem_range.mp hj)] at hfinal
        cases hfinal
      · rw [hrun, observed, hshown]
        exact htells.changed
      · rw [hrun]
        exact fun h => absurd h Bool.false_ne_true
      · rw [hrun]
        exact fun _ => htells.quiet
      · rw [hu]
        exact hpath.1
      · rw [hu]
        exact hpath.2
      · exact hkept
    | ended i hin hopen hfinal hcalls htold =>
      have hshown := shown_of_finished hin hopen hfinal
      have hpath := path_of_recorded htold.recorded
      constructor
      · rw [hrun, hshown, List.length_map, List.length_range]
        exact hcalls
      · rw [hrun, hshown]
        refine iff_of_true rfl ⟨_, List.mem_map_of_mem (List.mem_range.mpr (Nat.lt_succ_self i)), hfinal⟩
      · rw [hrun, observed, hshown]
        exact htold.changed
      · rw [hrun]
        exact fun _ => htold.ends
      · rw [hrun]
        exact fun h => Bool.noConfusion h
      · rw [hu]
        exact hpath.1
      · rw [hu]
        exact hpath.2
      · exact hkept

/-- A poll that begins with `Pending` is recorded as a change to the same state. -/
theorem start_of_tellsTheStory (hfresh : m.transitions = [])
    (h : TellsTheStory sha256 poll clock m 1) :
    polled m.retryConfig poll 0 ≠ .ok (.pending .pending) := by
  intro hpending
  have hrun : runTraced sha256 poll clock m.unlimited 1 =
      Loop.handle ⟨m.unlimited, none, [], 1, callsBefore m.retryConfig poll 1⟩
        (polled m.retryConfig poll 0) (clock (callsBefore m.retryConfig poll 1))
        (m.trace.childForAttempt sha256 0) := rfl
  have hmoves := h.moves
  rw [hrun, hpending] at hmoves
  have hrecord : (m.unlimited.recordTransition .pending .pending
      (clock (callsBefore m.retryConfig poll 1)) (m.trace.childForAttempt sha256 0)).1.transitions =
        [⟨.pending, .pending, clock (callsBefore m.retryConfig poll 1),
          (m.trace.childForAttempt sha256 0).traceId.val,
          (m.trace.childForAttempt sha256 0).spanId.val⟩] := by
    have htransitions : m.unlimited.transitions = [] := hfresh
    rw [map_pair_recordTransition rfl, htransitions, List.nil_append]
    intro t ht
    rw [htransitions] at ht
    cases ht
  rw [Loop.handle, observe_eq, if_neg (by decide)] at hmoves
  change ∀ t ∈ (m.unlimited.recordTransition .pending .pending
      (clock (callsBefore m.retryConfig poll 1)) (m.trace.childForAttempt sha256 0)).1.transitions,
    t.fromState ≠ t.toState at hmoves
  rw [hrecord] at hmoves
  exact hmoves _ List.mem_cons_self rfl

/-- A pending `Completed` does not end the run. -/
theorem finish_of_tellsTheStory (h : ∀ n, TellsTheStory sha256 poll clock m n) (i : ℕ)
    (hopen : ∀ j < i, showsTerminal (polled m.retryConfig poll j) = false) :
    polled m.retryConfig poll i ≠ .ok (.pending .completed) := by
  intro hcompleted
  have hfinal : showsTerminal (polled m.retryConfig poll i) = true := by
    rw [hcompleted]
    rfl
  have hshown := shown_of_unfinished hopen
  have hcalls := (h i).polls
  have hstops := (h (i + 1)).stops
  rw [hshown, List.length_map, List.length_range] at hcalls
  rw [shown_of_finished (Nat.lt_succ_self i) hopen hfinal] at hstops
  have hstopped := hstops.mpr ⟨_, List.mem_map_of_mem (List.mem_range.mpr (Nat.lt_succ_self i)), hfinal⟩
  have hgoing : (runTraced sha256 poll clock m i).2 = false := by
    apply Bool.eq_false_iff.mpr
    intro hstopped
    obtain ⟨result, hresult, hfinal⟩ := (h i).stops.mp hstopped
    rw [hshown] at hresult
    obtain ⟨j, hj, rfl⟩ := List.mem_map.mp hresult
    rw [hopen j (List.mem_range.mp hj)] at hfinal
    cases hfinal
  have hretry := (runTraced_setup sha256 poll clock m i).2
  rw [runTraced] at hstopped
  cases hrun : runTraced sha256 poll clock m i with
  | mk s stopped =>
    rw [hrun] at hcalls hgoing hretry hstopped
    dsimp only at hcalls hgoing hretry
    subst hgoing
    dsimp only at hstopped
    rw [pollCycle_eq sha256 poll clock hretry hcalls, hcompleted, Loop.handle, observe_eq,
      if_neg (by decide)] at hstopped
    cases hstopped

end Story

end StreamingMonitor

/-- On a fresh monitor events and transitions tell, at every turn of the loop, what the polls show
exactly when these begin with another state than `Pending` and do not end with a pending
`Completed`. -/
theorem tellsTheStory_iff (sha256 : Bytes → BytesN 32) (poll : StreamingMonitor.Poll)
    (clock : ℕ → UInt64) {m : StreamingMonitor.StreamingTransactionMonitor}
    (hfresh : m.transitions = []) :
    (∀ n, StreamingMonitor.TellsTheStory sha256 poll clock m n) ↔
      StreamingMonitor.ShowsPlainly m.retryConfig poll := by
  constructor
  · intro h
    exact ⟨StreamingMonitor.start_of_tellsTheStory sha256 poll clock hfresh (h 1),
      StreamingMonitor.finish_of_tellsTheStory sha256 poll clock h⟩
  · intro h
    exact StreamingMonitor.tellsTheStory_of_plain sha256 poll clock hfresh h

namespace Demo

open StreamingMonitor

/-- A poll that shows a state in progress, and then others like the given one. -/
def progressThen (later : PollResult) : Poll := fun calls =>
  .ok (if calls = 0 then .pending .inProgress else later)

theorem progressThen_open (later : PollResult) :
    ∀ j < 1, showsTerminal (polled .default (progressThen later) j) = false := by
  intro j hj
  obtain rfl := Nat.lt_one_iff.mp hj
  rfl

end Demo

open StreamingMonitor

/-- A run goes on after a poll that shows the transaction pending and completed. -/
theorem pending_completed_goes_on :
    ¬ ∃ (sha256 : Bytes → BytesN 32) (clock : ℕ → UInt64), ∀ n,
      TellsTheStory sha256 (Demo.progressThen (.pending .completed)) clock (.new sha256 7) n := by
  rintro ⟨sha256, clock, h⟩
  exact finish_of_tellsTheStory sha256 _ clock h 1
    (Demo.progressThen_open (.pending .completed)) rfl

theorem tellsTheStory_progress_completed :
    ShowsPlainly .default (Demo.progressThen (.completed ['t'])) ∧
      ∀ (sha256 : Bytes → BytesN 32) (clock : ℕ → UInt64) (n : ℕ),
        TellsTheStory sha256 (Demo.progressThen (.completed ['t'])) clock (.new sha256 7) n := by
  have hplain : ShowsPlainly .default (Demo.progressThen (.completed ['t'])) := by
    constructor
    · intro h
      cases h
    · intro i hopen hcompleted
      rcases Nat.lt_or_ge 1 i with hlater | hearlier
      · cases hopen 1 hlater
      · rcases Nat.le_one_iff_eq_zero_or_eq_one.mp hearlier with rfl | rfl
        · cases hcompleted
        · cases hcompleted
  exact ⟨hplain, fun sha256 clock n => (tellsTheStory_iff sha256 _ clock rfl).mpr hplain n⟩

end AnchorKit
