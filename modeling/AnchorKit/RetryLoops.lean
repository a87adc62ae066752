import AnchorKit.RetryDelays
import AnchorKit.StreamingMonitor

/-!
# Retry loops

An operation that may fail is run again after a delay, as long as its error is worth it and
attempts are left. The limit is counted by the loop itself or by a budget that is consumed. The
operation and the sleep act on a world of their own, here mostly a log of what was done.
-/

namespace AnchorKit

open Fallible

namespace Retry

section Loops

variable {τ ε J W : Type} [JitterSource J] (config : RetryConfig)
  (f : UInt32 → W → Except ε τ × W) (retryable : ε → Bool) (sleepFn : UInt64 → W → W)

def backoffLoop : ℕ → UInt32 → Option ε → J → W → Except Panic (Except ε τ × J × W)
  | 0, _, lastErr, jitterSource, w =>
    match lastErr with
    | some e => .ok (.error e, jitterSource, w)
    | none => .error (.expectFailed "retry_with_backoff: max_attempts must be >= 1")
  | left + 1, attempt, _, jitterSource, w =>
    match f attempt w with
    | (.ok val, w) => .ok (.ok val, jitterSource, w)
    | (.error e, w) =>
      if !retryable e then .ok (.error e, jitterSource, w)
      else do
        let next ← add32 attempt 1
        if config.maxAttempts ≤ next then return (.error e, jitterSource, w)
        else
          let (delay, jitterSource) ← config.delayForAttempt attempt jitterSource
          backoffLoop left next (some e) jitterSource (sleepFn delay w)

/-- No attempts stand for one. -/
def retryWithBackoff (jitterSource : J) (w : W) : Except Panic (Except ε τ × J × W) :=
  if config.maxAttempts = 0 then
    let (result, w) := f 0 w
    .ok (result, jitterSource, w)
  else
    backoffLoop config f retryable sleepFn config.maxAttempts.toNat 0 none jitterSource w

def retryWithBackoffTraced (sha256 : Bytes → BytesN 32) (parent : TraceContext)
    (f : UInt32 → TraceContext → W → Except ε τ × W) (jitterSource : J) (w : W) :
    Except Panic (Except ε τ × J × W) :=
  retryWithBackoff config (fun attempt => f attempt (parent.childForAttempt sha256 attempt))
    retryable sleepFn jitterSource w

end Loops

structure BudgetExhaustedError where
  requestId : String
  maxAttempts : UInt32
deriving DecidableEq, Repr

structure RetryBudget where
  requestId : String
  maxAttempts : UInt32
  consumed : UInt32
deriving DecidableEq, Repr

namespace RetryBudget

def new (requestId : String) (maxAttempts : UInt32) : RetryBudget :=
  ⟨requestId, max maxAttempts 1, 0⟩

def remaining (budget : RetryBudget) : UInt32 :=
  Word.saturatingSub32 budget.maxAttempts budget.consumed

def isExhausted (budget : RetryBudget) : Bool := budget.maxAttempts ≤ budget.consumed

def consume (budget : RetryBudget) :
    Except Panic (Except BudgetExhaustedError UInt32 × RetryBudget) :=
  if budget.isExhausted then .ok (.error ⟨budget.requestId, budget.maxAttempts⟩, budget)
  else do
    let consumed ← add32 budget.consumed 1
    return (.ok budget.consumed, { budget with consumed })

theorem consume_eq (budget : RetryBudget) :
    budget.consume =
      if budget.maxAttempts ≤ budget.consumed then
        .ok (.error ⟨budget.requestId, budget.maxAttempts⟩, budget)
      else .ok (.ok budget.consumed, { budget with consumed := budget.consumed + 1 }) := by
  unfold consume isExhausted
  by_cases hspent : budget.maxAttempts ≤ budget.consumed
  · simp [hspent]
  · have hnext : add32 budget.consumed 1 = .ok (budget.consumed + 1) := by
      have hlimit := budget.maxAttempts.toNat_lt
      rw [UInt32.le_iff_toNat_le] at hspent
      rw [add32_eq_ok, UInt32.toNat_add]
      exact (Nat.mod_eq_of_lt (by change budget.consumed.toNat + 1 < 2 ^ 32; omega)).symm
    simp [hspent, hnext, bind, Except.bind, pure, Except.pure]

theorem consume_of_lt {budget : RetryBudget}
    (h : budget.consumed.toNat < budget.maxAttempts.toNat) :
    budget.consume =
      .ok (.ok budget.consumed, { budget with consumed := budget.consumed + 1 }) := by
  rw [consume_eq, if_neg]
  rw [UInt32.le_iff_toNat_le]
  omega

theorem remaining_of_consume {budget budget' : RetryBudget} {attempt : UInt32}
    (h : budget.consume = .ok (.ok attempt, budget')) :
    attempt = budget.consumed ∧ budget'.maxAttempts = budget.maxAttempts ∧
      budget'.consumed.toNat = budget.consumed.toNat + 1 ∧
      budget.consumed.toNat < budget.maxAttempts.toNat := by
  rw [consume_eq] at h
  split at h
  · cases h
  · rename_i hleft
    obtain ⟨hattempt, rfl⟩ := Prod.mk.inj (Except.ok.inj h)
    obtain rfl := Except.ok.inj hattempt
    have hlimit := budget.maxAttempts.toNat_lt
    rw [UInt32.le_iff_toNat_le] at hleft
    refine ⟨rfl, rfl, ?_, by omega⟩
    rw [UInt32.toNat_add]
    exact Nat.mod_eq_of_lt (by change budget.consumed.toNat + 1 < 2 ^ 32; omega)

end RetryBudget

section Budget

variable {τ ε W : Type} (f : UInt32 → W → Except ε τ × W) (isRetryable : ε → Bool)
  (sleepFn : UInt64 → W → W) (onExhausted : BudgetExhaustedError → ε) (delayFn : UInt32 → UInt64)

def executeWithBudget (budget : RetryBudget) (w : W) :
    Except Panic (Except ε τ × RetryBudget × W) :=
  match _hconsume : budget.consume with
  | .error panic => .error panic
  | .ok (.error exhausted, budget) => .ok (.error (onExhausted exhausted), budget, w)
  | .ok (.ok attempt, budget') =>
    match f attempt w with
    | (.ok val, w) => .ok (.ok val, budget', w)
    | (.error e, w) =>
      if !isRetryable e || budget'.isExhausted then .ok (.error e, budget', w)
      else executeWithBudget budget' (sleepFn (delayFn attempt) w)
termination_by budget.maxAttempts.toNat - budget.consumed.toNat
decreasing_by
  obtain ⟨_, hmax, hconsumed, hlt⟩ := RetryBudget.remaining_of_consume _hconsume
  rw [hmax]
  omega

end Budget

/-! ### What is observed of a loop -/

inductive Event (α : Type)
  | invoked (invocation : α)
  | slept (delayMs : UInt64)
deriving DecidableEq, Repr

def Event.invocation {α : Type} : Event α → Option α
  | .invoked a => some a
  | .slept _ => none

def Event.map {α β : Type} (f : α → β) : Event α → Event β
  | .invoked a => .invoked (f a)
  | .slept delayMs => .slept delayMs

def invocations {α : Type} (log : List (Event α)) : List α := log.filterMap Event.invocation

section Observed

variable {τ ε α : Type}

def operation (outcomes : ℕ → Except ε τ) (a : α) (log : List (Event α)) :
    Except ε τ × List (Event α) :=
  (outcomes (invocations log).length, log ++ [.invoked a])

def sleep (delayMs : UInt64) (log : List (Event α)) : List (Event α) := log ++ [.slept delayMs]

/-- Invocations from the `k`-th on, with one sleep between each two. -/
def paced (arg : UInt32 → α) (k : ℕ) : List UInt64 → List (Event α)
  | [] => [.invoked (arg (UInt32.ofNat k))]
  | delay :: delays => .invoked (arg (UInt32.ofNat k)) :: .slept delay :: paced arg (k + 1) delays

/-- The outcome ends the loop whatever is left of it. -/
def Settles (retryable : ε → Bool) : Except ε τ → Prop
  | .ok _ => True
  | .error e => retryable e = false

/-- The loop that is about to make the `k`-th attempt makes its last one as the `n`-th. -/
structure EndsAt (retryable : ε → Bool) (outcomes : ℕ → Except ε τ) (limit k n : ℕ) : Prop where
  reached : k ≤ n
  allowed : n < limit
  before (i : ℕ) (hk : k ≤ i) (hn : i < n) : ¬ Settles retryable (outcomes i)
  ends : n + 1 = limit ∨ Settles retryable (outcomes n)

variable {retryable : ε → Bool} {outcomes : ℕ → Except ε τ} {limit k n m : ℕ}

theorem EndsAt.unique (hn : EndsAt retryable outcomes limit k n)
    (hm : EndsAt retryable outcomes limit k m) : n = m := by
  rcases Nat.lt_trichotomy n m with hlt | heq | hgt
  · rcases hn.ends with hlast | hsettles
    · have := hm.allowed
      omega
    · exact absurd hsettles (hm.before n hn.reached hlt)
  · exact heq
  · rcases hm.ends with hlast | hsettles
    · have := hn.allowed
      omega
    · exact absurd hsettles (hn.before m hm.reached hgt)

theorem EndsAt.cons (hk : ¬ Settles retryable (outcomes k))
    (h : EndsAt retryable outcomes limit (k + 1) n) : EndsAt retryable outcomes limit k n where
  reached := by
    have := h.reached
    omega
  allowed := h.allowed
  before := by
    intro i hki hin
    rcases Nat.eq_or_lt_of_le hki with rfl | hlt
    · exact hk
    · exact h.before i hlt hin
  ends := h.ends

theorem endsAt_self (hk : k < limit) (h : k + 1 = limit ∨ Settles retryable (outcomes k)) :
    EndsAt retryable outcomes limit k k where
  reached := le_rfl
  allowed := hk
  before := by
    intro i hki hik
    omega
  ends := h

@[simp] theorem invocations_nil : invocations ([] : List (Event α)) = [] := rfl

@[simp] theorem invocations_append (log log' : List (Event α)) :
    invocations (log ++ log') = invocations log ++ invocations log' := List.filterMap_append ..

@[simp] theorem invocations_invoked (a : α) (log : List (Event α)) :
    invocations (.invoked a :: log) = a :: invocations log := rfl

@[simp] theorem invocations_slept (delayMs : UInt64) (log : List (Event α)) :
    invocations (.slept delayMs :: log) = invocations log := rfl

theorem invocations_map {β : Type} (g : α → β) (log : List (Event α)) :
    invocations (log.map (Event.map g)) = (invocations log).map g := by
  induction log with
  | nil => rfl
  | cons event log ih =>
    cases event with
    | invoked a => simpa [Event.map] using ih
    | slept delayMs => simpa [Event.map] using ih

theorem invocations_paced (arg : UInt32 → α) (k : ℕ) (delays : List UInt64) :
    invocations (paced arg k delays) =
      (List.range' k (delays.length + 1)).map fun i => arg (UInt32.ofNat i) := by
  induction delays generalizing k with
  | nil => rfl
  | cons delay delays ih =>
    rw [paced, invocations_invoked, invocations_slept, ih, List.length_cons]
    rfl

theorem length_invocations_paced (arg : UInt32 → α) (delays : List UInt64) :
    (invocations (paced arg 0 delays)).length = delays.length + 1 := by
  rw [invocations_paced, List.length_map, List.length_range']

theorem getLast?_invocations_paced (arg : UInt32 → α) (delays : List UInt64) :
    (invocations (paced arg 0 delays)).getLast? = some (arg (UInt32.ofNat delays.length)) := by
  rw [invocations_paced, List.getLast?_map, List.getLast?_range']
  simp

/-- A retryable error does not settle anything. -/
theorem not_settles_error {e : ε} :
    ¬ Settles retryable (.error e : Except ε τ) ↔ retryable e = true := by
  simp [Settles]

/-- A loop that, about to make the `k`-th attempt, makes it and ends when it settles the matter or
is the last one allowed, and otherwise sleeps once and goes on. -/
structure IsRetryLoop {σ β : Type} (retryable : ε → Bool) (outcomes : ℕ → Except ε τ) (limit : ℕ)
    (arg : UInt32 → α) (AtAttempt : σ → ℕ → Prop)
    (loop : σ → List (Event α) → Except Panic (Except ε τ × β × List (Event α))) : Prop where
  stops (s : σ) (k : ℕ) (log : List (Event α)) (hat : AtAttempt s k)
    (hlog : (invocations log).length = k) (hk : k < limit)
    (hends : k + 1 = limit ∨ Settles retryable (outcomes k)) :
    ∃ b, loop s log = .ok (outcomes k, b, log ++ [.invoked (arg (UInt32.ofNat k))])
  continues (s : σ) (k : ℕ) (log : List (Event α)) (hat : AtAttempt s k)
    (hlog : (invocations log).length = k) (hk : k + 1 < limit)
    (hopen : ¬ Settles retryable (outcomes k)) :
    ∃ s' delay, AtAttempt s' (k + 1) ∧
      loop s log = loop s' (log ++ [.invoked (arg (UInt32.ofNat k)), .slept delay])

/-- Such a loop makes its attempts up to the one that ends it and returns the last outcome. -/
theorem IsRetryLoop.result {σ β : Type} {arg : UInt32 → α} {AtAttempt : σ → ℕ → Prop}
    {loop : σ → List (Event α) → Except Panic (Except ε τ × β × List (Event α))}
    (h : IsRetryLoop retryable outcomes limit arg AtAttempt loop) {s : σ} {log : List (Event α)}
    (hat : AtAttempt s k) (hlog : (invocations log).length = k) (hk : k < limit) :
    ∃ delays b, EndsAt retryable outcomes limit k (k + delays.length) ∧
      loop s log = .ok (outcomes (k + delays.length), b, log ++ paced arg k delays) := by
  induction hleft : limit - k generalizing k s log with
  | zero => omega
  | succ left ih =>
    by_cases hends : k + 1 = limit ∨ Settles retryable (outcomes k)
    · obtain ⟨b, hstop⟩ := h.stops s k log hat hlog hk hends
      exact ⟨[], b, endsAt_self hk hends, hstop⟩
    · rw [not_or] at hends
      obtain ⟨hmore, hopen⟩ := hends
      have hnext : k + 1 < limit := by omega
      obtain ⟨s', delay, hat', hcontinue⟩ := h.continues s k log hat hlog hnext hopen
      have hlonger : (invocations (log ++ [.invoked (arg (UInt32.ofNat k)), .slept delay])).length =
          k + 1 := by
        rw [invocations_append, List.length_append, hlog]
        rfl
      obtain ⟨delays, b, hend, hresult⟩ := ih hat' hlonger hnext (by omega)
      refine ⟨delay :: delays, b, ?_, ?_⟩
      · rw [List.length_cons, ← Nat.add_assoc, Nat.add_right_comm]
        exact hend.cons hopen
      · rw [hcontinue, hresult, List.length_cons, Nat.add_right_comm, Nat.add_assoc, paced]
        simp

end Observed

/-! ### The three loops -/

/-- The variables of `retry_with_backoff`, with the number of attempts that are left. -/
structure BackoffState (ε J : Type) where
  left : ℕ
  attempt : UInt32
  lastErr : Option ε
  jitterSource : J

def BackoffState.AtAttempt {ε J : Type} (config : RetryConfig) (s : BackoffState ε J) (k : ℕ) :
    Prop :=
  s.attempt.toNat = k ∧ k + s.left = config.maxAttempts.toNat

def RetryBudget.AtAttempt (limit : ℕ) (budget : RetryBudget) (k : ℕ) : Prop :=
  budget.consumed.toNat = k ∧ budget.maxAttempts.toNat = limit

section Runs

variable {τ ε α J : Type} [JitterSource J] (config : RetryConfig) (retryable : ε → Bool)
  (outcomes : ℕ → Except ε τ) (arg : UInt32 → α)

theorem add32_one_of_lt {a b : UInt32} (h : a.toNat < b.toNat) : add32 a 1 = .ok (a + 1) := by
  have hb := b.toNat_lt
  rw [add32_eq_ok, UInt32.toNat_add]
  exact (Nat.mod_eq_of_lt (by change a.toNat + 1 < 2 ^ 32; omega)).symm

theorem toNat_add_one_of_lt {a b : UInt32} (h : a.toNat < b.toNat) :
    (a + 1).toNat = a.toNat + 1 := (add32_eq_ok.mp (add32_one_of_lt h)).symm

theorem le_add_one_iff_of_lt {a b : UInt32} (h : a.toNat < b.toNat) :
    b ≤ a + 1 ↔ a.toNat + 1 = b.toNat := by
  rw [UInt32.le_iff_toNat_le, toNat_add_one_of_lt h]
  omega

theorem isRetryLoop_backoffLoop :
    IsRetryLoop retryable outcomes config.maxAttempts.toNat arg (BackoffState.AtAttempt config)
      fun (s : BackoffState ε J) log =>
        backoffLoop config (fun a => operation outcomes (arg a)) retryable sleep s.left s.attempt
          s.lastErr s.jitterSource log where
  stops := by
    rintro ⟨left, attempt, lastErr, source⟩ _ log ⟨rfl, hleft⟩ hlog hk hends
    dsimp only at hleft hlog hk hends ⊢
    obtain ⟨left, rfl⟩ : ∃ l, left = l + 1 := Nat.exists_eq_succ_of_ne_zero (by omega)
    refine ⟨source, ?_⟩
    rw [UInt32.ofNat_toNat, backoffLoop, operation, hlog]
    cases houtcome : outcomes attempt.toNat with
    | ok val => rfl
    | error e =>
      rw [houtcome] at hends
      dsimp only
      cases hretryable : retryable e with
      | false => rfl
      | true =>
        have hlast : config.maxAttempts ≤ attempt + 1 :=
          (le_add_one_iff_of_lt hk).mpr (hends.resolve_right (not_settles_error.mpr hretryable))
        rw [add32_one_of_lt hk]
        simp [hlast, bind, Except.bind, pure, Except.pure]
  continues := by
    rintro ⟨left, attempt, lastErr, source⟩ _ log ⟨rfl, hleft⟩ hlog hk hopen
    dsimp only at hlog hk hopen hleft ⊢
    obtain ⟨left, rfl⟩ : ∃ l, left = l + 1 := Nat.exists_eq_succ_of_ne_zero (by omega)
    have hlt : attempt.toNat < config.maxAttempts.toNat := by omega
    obtain ⟨⟨delay, source'⟩, hdelay⟩ := config.succeeds_delayForAttempt attempt source
    cases houtcome : outcomes attempt.toNat with
    | ok val =>
      rw [houtcome] at hopen
      exact absurd trivial hopen
    | error e =>
      rw [houtcome, not_settles_error] at hopen
      refine ⟨⟨left, attempt + 1, some e, source'⟩, delay, ⟨toNat_add_one_of_lt hlt, ?_⟩, ?_⟩
      · dsimp only
        omega
      · have hmore : ¬ config.maxAttempts ≤ attempt + 1 := by
          rw [le_add_one_iff_of_lt hlt]
          omega
        rw [UInt32.ofNat_toNat, backoffLoop, operation, hlog, houtcome]
        dsimp only
        rw [hopen, add32_one_of_lt hlt]
        simp [hmore, hdelay, sleep, bind, Except.bind]

theorem isRetryLoop_executeWithBudget (limit : ℕ) (onExhausted : BudgetExhaustedError → ε)
    (delayFn : UInt32 → UInt64) :
    IsRetryLoop retryable outcomes limit arg (RetryBudget.AtAttempt limit)
      fun (budget : RetryBudget) log =>
        executeWithBudget (fun a => operation outcomes (arg a)) retryable sleep onExhausted delayFn
          budget log where
  stops := by
    rintro budget _ log ⟨rfl, rfl⟩ hlog hk hends
    have hconsume := RetryBudget.consume_of_lt hk
    refine ⟨{ budget with consumed := budget.consumed + 1 }, ?_⟩
    rw [UInt32.ofNat_toNat, executeWithBudget, hconsume]
    dsimp only
    rw [operation, hlog]
    cases houtcome : outcomes budget.consumed.toNat with
    | ok val => rfl
    | error e =>
      rw [houtcome] at hends
      dsimp only
      cases hretryable : retryable e with
      | false => rfl
      | true =>
        have hlast : budget.maxAttempts ≤ budget.consumed + 1 :=
          (le_add_one_iff_of_lt hk).mpr (hends.resolve_right (not_settles_error.mpr hretryable))
        simp [RetryBudget.isExhausted, hlast]
  continues := by
    rintro budget _ log ⟨rfl, rfl⟩ hlog hk hopen
    have hlt : budget.consumed.toNat < budget.maxAttempts.toNat := by omega
    have hconsume := RetryBudget.consume_of_lt hlt
    cases houtcome : outcomes budget.consumed.toNat with
    | ok val =>
      rw [houtcome] at hopen
      exact absurd trivial hopen
    | error e =>
      rw [houtcome, not_settles_error] at hopen
      refine ⟨{ budget with consumed := budget.consumed + 1 }, delayFn budget.consumed,
        ⟨toNat_add_one_of_lt hlt, rfl⟩, ?_⟩
      have hmore : ¬ budget.maxAttempts ≤ budget.consumed + 1 := by
        rw [le_add_one_iff_of_lt hlt]
        omega
      rw [UInt32.ofNat_toNat, executeWithBudget, hconsume]
      dsimp only
      rw [operation, hlog, houtcome]
      dsimp only
      rw [hopen]
      simp [RetryBudget.isExhausted, hmore, sleep]

theorem retryWithBackoff_eq (hmax : config.maxAttempts ≠ 0) (source : J) :
    ∃ delays source', EndsAt retryable outcomes config.maxAttempts.toNat 0 delays.length ∧
      retryWithBackoff config (fun a => operation outcomes (arg a)) retryable sleep source [] =
        .ok (outcomes delays.length, source', paced arg 0 delays) := by
  have hpositive : 0 < config.maxAttempts.toNat :=
    Nat.pos_of_ne_zero fun h => hmax (UInt32.toNat_inj.mp h)
  have hlog : (invocations ([] : List (Event α))).length = 0 := rfl
  have hloop := (isRetryLoop_backoffLoop (J := J) config retryable outcomes arg).result
    (s := ⟨config.maxAttempts.toNat, 0, none, source⟩) ⟨rfl, Nat.zero_add _⟩ hlog hpositive
  simpa [retryWithBackoff, hmax] using hloop

theorem executeWithBudget_eq (hmax : config.maxAttempts ≠ 0) (requestId : String)
    (onExhausted : BudgetExhaustedError → ε) (delayFn : UInt32 → UInt64) :
    ∃ delays budget, EndsAt retryable outcomes config.maxAttempts.toNat 0 delays.length ∧
      executeWithBudget (fun a => operation outcomes (arg a)) retryable sleep onExhausted delayFn
          (.new requestId config.maxAttempts) [] =
        .ok (outcomes delays.length, budget, paced arg 0 delays) := by
  have hpositive : 0 < config.maxAttempts.toNat :=
    Nat.pos_of_ne_zero fun h => hmax (UInt32.toNat_inj.mp h)
  have hbudget : (max config.maxAttempts 1).toNat = config.maxAttempts.toNat := by
    rw [Word.toNat_max32]
    exact Nat.max_eq_left hpositive
  have hfresh :
      (RetryBudget.new requestId config.maxAttempts).AtAttempt config.maxAttempts.toNat 0 :=
    ⟨rfl, hbudget⟩
  have hlog : (invocations ([] : List (Event α))).length = 0 := rfl
  have hloop := (isRetryLoop_executeWithBudget retryable outcomes arg config.maxAttempts.toNat
    onExhausted delayFn).result hfresh hlog hpositive
  simpa using hloop

/-- Without attempts the loop still makes one. -/
theorem retryWithBackoff_eq_max (source : J) :
    ∃ delays source', EndsAt retryable outcomes (max 1 config.maxAttempts.toNat) 0 delays.length ∧
      retryWithBackoff config (fun a => operation outcomes (arg a)) retryable sleep source [] =
        .ok (outcomes delays.length, source', paced arg 0 delays) := by
  by_cases hmax : config.maxAttempts = 0
  · refine ⟨[], source, ?_, ?_⟩
    · rw [hmax]
      exact endsAt_self Nat.one_pos (Or.inl rfl)
    · rw [retryWithBackoff, if_pos hmax]
      rfl
  · have hpositive : 1 ≤ config.maxAttempts.toNat :=
      Nat.pos_of_ne_zero fun h => hmax (UInt32.toNat_inj.mp h)
    rw [max_eq_right hpositive]
    exact retryWithBackoff_eq config retryable outcomes arg hmax source

/-! ### Loops in a larger world -/

section Embedding

variable {W W' : Type} {f : UInt32 → W → Except ε τ × W} {f' : UInt32 → W' → Except ε τ × W'}
  {sleepFn : UInt64 → W → W} {sleepFn' : UInt64 → W' → W'} {ι : W → W'}

theorem backoffLoop_embed (hf : ∀ a w, f' a (ι w) = ((f a w).1, ι (f a w).2))
    (hsleep : ∀ delay w, sleepFn' delay (ι w) = ι (sleepFn delay w)) (left : ℕ) (attempt : UInt32)
    (lastErr : Option ε) (source : J) (w : W) :
    backoffLoop config f' retryable sleepFn' left attempt lastErr source (ι w) =
      (backoffLoop config f retryable sleepFn left attempt lastErr source w).map
        fun r => (r.1, r.2.1, ι r.2.2) := by
  induction left generalizing attempt lastErr source w with
  | zero =>
    cases lastErr with
    | none => rfl
    | some e => rfl
  | succ left ih =>
    rw [backoffLoop, backoffLoop, hf]
    cases hresult : f attempt w with
    | mk result w' =>
      cases result with
      | ok val => rfl
      | error e =>
        dsimp only
        cases retryable e with
        | false => rfl
        | true =>
          cases add32 attempt 1 with
          | error panic => rfl
          | ok next =>
            by_cases hlast : config.maxAttempts ≤ next
            · simp [hlast, bind, Except.bind, pure, Except.pure, Except.map]
            · cases config.delayForAttempt attempt source with
              | error panic => simp [hlast, bind, Except.bind, Except.map]
              | ok drawn =>
                have hrest := ih next (some e) drawn.2 (sleepFn drawn.1 w')
                rw [← hsleep] at hrest
                simpa [hlast, bind, Except.bind] using hrest

/-- A loop whose operation and sleep act on a part of the world is the loop on that part. -/
theorem retryWithBackoff_embed (hf : ∀ a w, f' a (ι w) = ((f a w).1, ι (f a w).2))
    (hsleep : ∀ delay w, sleepFn' delay (ι w) = ι (sleepFn delay w)) (source : J) (w : W) :
    retryWithBackoff config f' retryable sleepFn' source (ι w) =
      (retryWithBackoff config f retryable sleepFn source w).map
        fun r => (r.1, r.2.1, ι r.2.2) := by
  unfold retryWithBackoff
  split
  · rw [hf]
    rfl
  · exact backoffLoop_embed config retryable hf hsleep _ _ _ _ _

end Embedding

/-! ### Loops without sleeps -/

section Attempts

variable {W : Type} (f : W → Except ε τ × W)

def attempts : ℕ → W → Except ε τ × W
  | 0, w => f w
  | retries + 1, w =>
    match f w with
    | (.ok val, w) => (.ok val, w)
    | (.error e, w) => if retryable e then attempts retries w else (.error e, w)

theorem backoffLoop_eq_attempts {attempt : UInt32} {retries : ℕ}
    (hleft : attempt.toNat + (retries + 1) = config.maxAttempts.toNat) (lastErr : Option ε)
    (source : J) (w : W) :
    ∃ source', backoffLoop config (fun _ => f) retryable (fun _ w => w) (retries + 1) attempt
      lastErr source w =
        .ok ((attempts retryable f retries w).1, source', (attempts retryable f retries w).2) := by
  induction retries generalizing attempt lastErr source w with
  | zero =>
    refine ⟨source, ?_⟩
    rw [backoffLoop, attempts]
    cases hf : f w with
    | mk result w' =>
      cases result with
      | ok val => rfl
      | error e =>
        have hlast : config.maxAttempts ≤ attempt + 1 :=
          (le_add_one_iff_of_lt (by omega)).mpr (by omega)
        dsimp only
        rw [add32_one_of_lt (show attempt.toNat < config.maxAttempts.toNat by omega)]
        cases retryable e with
        | false => rfl
        | true => simp [hlast, bind, Except.bind, pure, Except.pure]
  | succ retries ih =>
    have hlt : attempt.toNat < config.maxAttempts.toNat := by omega
    rw [backoffLoop, attempts]
    cases hf : f w with
    | mk result w' =>
      cases result with
      | ok val => exact ⟨source, rfl⟩
      | error e =>
        dsimp only
        cases retryable e with
        | false => exact ⟨source, rfl⟩
        | true =>
          have hmore : ¬ config.maxAttempts ≤ attempt + 1 := by
            rw [le_add_one_iff_of_lt hlt]
            omega
          have hnext := toNat_add_one_of_lt hlt
          obtain ⟨⟨delay, source'⟩, hdelay⟩ := config.succeeds_delayForAttempt attempt source
          have hleft' : (attempt + 1).toNat + (retries + 1) = config.maxAttempts.toNat := by omega
          obtain ⟨source'', hrest⟩ := ih hleft' (some e) source' w'
          refine ⟨source'', ?_⟩
          rw [add32_one_of_lt hlt]
          simpa [hmore, hdelay, bind, Except.bind] using hrest

/-- The jitter only decides how long the sleeps are. -/
theorem retryWithBackoff_eq_attempts {retries : ℕ}
    (hretries : retries + 1 = config.maxAttempts.toNat) (source : J) (w : W) :
    ∃ source', retryWithBackoff config (fun _ => f) retryable (fun _ w => w) source w =
      .ok ((attempts retryable f retries w).1, source', (attempts retryable f retries w).2) := by
  have hmax : config.maxAttempts ≠ 0 := by
    intro h
    rw [h] at hretries
    cases hretries
  rw [retryWithBackoff, if_neg hmax, ← hretries]
  exact backoffLoop_eq_attempts config retryable f ((Nat.zero_add _).trans hretries) none source w

end Attempts

/-! ### Recorded attempts -/

section Recorded

variable {W : Type} (note : Except ε τ → α) (f : W → Except ε τ × W) (sleepFn : UInt64 → W → W)

def recorded (w : W × List α) : Except ε τ × (W × List α) :=
  ((f w.1).1, (f w.1).2, w.2 ++ [note (f w.1).1])

def unrecorded (delay : UInt64) (w : W × List α) : W × List α := (sleepFn delay w.1, w.2)

end Recorded

/-- The number of invocations that the documentation allows. -/
def documentedLimit : ℕ := if config.strategy = .noRetry then 1 else config.maxAttempts.toNat

/-- The operation is invoked with 0, 1, 2, … up to the attempt that settles the matter or is the
last one allowed, with one sleep between each two, and its last outcome is returned; with a trace
or a budget the invocations and the outcome are the same. -/
structure RetriesAsDocumented (source : J) : Prop where
  plain : ∃ delays source', EndsAt retryable outcomes (documentedLimit config) 0 delays.length ∧
    retryWithBackoff config (operation outcomes) retryable sleep source [] =
      .ok (outcomes delays.length, source', paced id 0 delays)
  traced (sha256 : Bytes → BytesN 32) (parent : TraceContext) :
    ∃ result log log' source' source'',
      retryWithBackoff config (operation outcomes) retryable sleep source [] =
          .ok (result, source', log) ∧
        retryWithBackoffTraced config retryable sleep sha256 parent
            (fun attempt trace => operation outcomes (attempt, trace)) source [] =
          .ok (result, source'', log') ∧
        invocations log' =
          (invocations log).map fun attempt => (attempt, parent.childForAttempt sha256 attempt)
  budgeted (requestId : String) (onExhausted : BudgetExhaustedError → ε)
      (delayFn : UInt32 → UInt64) :
    ∃ result log log' source' budget,
      retryWithBackoff config (operation outcomes) retryable sleep source [] =
          .ok (result, source', log) ∧
        executeWithBudget (operation outcomes) retryable sleep onExhausted delayFn
            (.new requestId config.maxAttempts) [] = .ok (result, budget, log') ∧
        invocations log' = invocations log

variable {config retryable outcomes}

theorem length_eq_of_paced_eq {k : ℕ} {delays delays' : List UInt64}
    (h : paced arg k delays = paced arg k delays') : delays.length = delays'.length := by
  have hlength := congrArg (fun log => (invocations log).length) h
  simp only [invocations_paced, List.length_map, List.length_range'] at hlength
  omega

/-- The attempt that ends the loop also ends it under the documented limit, unless the strategy
forbids a retry that is made. -/
theorem endsAt_documentedLimit_iff {n : ℕ}
    (h : EndsAt retryable outcomes config.maxAttempts.toNat 0 n) :
    EndsAt retryable outcomes (documentedLimit config) 0 n ↔
      config.strategy ≠ .noRetry ∨ config.maxAttempts = 1 ∨ Settles retryable (outcomes 0) := by
  unfold documentedLimit
  by_cases hstrategy : config.strategy = .noRetry
  · rw [if_pos hstrategy]
    constructor
    · intro hone
      obtain rfl : n = 0 := by
        have := hone.allowed
        omega
      rcases h.ends with hlast | hsettles
      · exact Or.inr (Or.inl (UInt32.toNat_inj.mp hlast.symm))
      · exact Or.inr (Or.inr hsettles)
    · rintro (hother | hlast | hsettles)
      · exact absurd hstrategy hother
      · rw [hlast] at h
        exact h
      · have hfirst : EndsAt retryable outcomes config.maxAttempts.toNat 0 0 :=
          endsAt_self ((Nat.zero_le n).trans_lt h.allowed) (Or.inr hsettles)
        obtain rfl := h.unique hfirst
        exact endsAt_self Nat.one_pos (Or.inr hsettles)
  · rw [if_neg hstrategy]
    exact iff_of_true h (Or.inl hstrategy)

/-- The loops are as documented exactly when the strategy lets the operation be retried or nothing
is retried anyway. -/
theorem retries_as_documented_iff (hvalid : config.Validates) (source : J) :
    RetriesAsDocumented config retryable outcomes source ↔
      config.strategy ≠ .noRetry ∨ config.maxAttempts = 1 ∨ Settles retryable (outcomes 0) := by
  have hmax := (RetryConfig.validates_iff.mp hvalid).1
  obtain ⟨delays, source', hend, hplain⟩ := retryWithBackoff_eq config retryable
    outcomes id hmax source
  change retryWithBackoff config (operation outcomes) retryable sleep source [] = _ at hplain
  rw [← endsAt_documentedLimit_iff hend]
  constructor
  · intro hdocumented
    obtain ⟨delays', source'', hend', hplain'⟩ := hdocumented.plain
    have hsame := (Prod.mk.inj (Prod.mk.inj (Except.ok.inj (hplain.symm.trans hplain'))).2).2
    rwa [length_eq_of_paced_eq id hsame]
  · intro hend'
    refine ⟨⟨delays, source', hend', hplain⟩, ?_, ?_⟩
    · intro sha256 parent
      obtain ⟨delays', source'', hend'', htraced⟩ := retryWithBackoff_eq config retryable
        outcomes (fun a => (a, parent.childForAttempt sha256 a)) hmax source
      have hcount := hend''.unique hend
      refine ⟨_, _, _, _, _, hplain, hcount ▸ htraced, ?_⟩
      rw [invocations_paced, invocations_paced, hcount, List.map_map]
      rfl
    · intro requestId onExhausted delayFn
      obtain ⟨delays', budget, hend'', hbudgeted⟩ := executeWithBudget_eq config retryable
        outcomes id hmax requestId onExhausted delayFn
      have hcount := hend''.unique hend
      refine ⟨_, _, _, _, _, hplain, hcount ▸ hbudgeted, ?_⟩
      rw [invocations_paced, invocations_paced, hcount]

/-- A validated configuration whose operation succeeds at its second attempt. -/
theorem retries_as_documented_default :
    RetriesAsDocumented (τ := Bool) (ε := Unit) .default (fun _ => true)
      (fun n => if n = 1 then .ok true else .error ()) (MockJitterSource.new [7]) :=
  (retries_as_documented_iff (RetryConfig.validates_iff.mpr (by decide)) _).mpr
    (Or.inl (by decide))

/-- Without retries the operation is still invoked as often as there are attempts. -/
theorem noRetry_retries :
    RetryConfig.Validates ⟨3, 100, 5000, 2, .noRetry, .none⟩ ∧
      ¬ RetriesAsDocumented (τ := Unit) (ε := Unit) ⟨3, 100, 5000, 2, .noRetry, .none⟩
        (fun _ => true) (fun _ => .error ()) (MockJitterSource.new []) := by
  refine ⟨RetryConfig.validates_iff.mpr (by decide), fun h => ?_⟩
  obtain ⟨delays, source', hend, hrun⟩ := h.plain
  obtain rfl : delays = [] := List.eq_nil_of_length_eq_zero (Nat.lt_one_iff.mp hend.allowed)
  have hthree : (retryWithBackoff (τ := Unit) (ε := Unit)
      ⟨3, 100, 5000, 2, .noRetry, .none⟩ (operation fun _ => .error ()) (fun _ => true) sleep
      (MockJitterSource.new []) []).map (fun r => invocations r.2.2) = .ok [0, 1, 2] := by rfl
  rw [hrun] at hthree
  change (Except.ok [0] : Except Panic (List UInt32)) = .ok [0, 1, 2] at hthree
  exact absurd (Except.ok.inj hthree) (by decide)

/-! ### The attempts of the streaming monitor -/

theorem attempts_eq (retryable : ε → Bool) (outcomes : ℕ → Except ε τ) (more calls : ℕ) :
    ∃ n, EndsAt retryable outcomes (calls + more + 1) calls n ∧
      AnchorKit.RetryConfig.attempts outcomes retryable more calls = (outcomes n, n + 1) := by
  induction more generalizing calls with
  | zero => exact ⟨calls, endsAt_self (by omega) (Or.inl rfl), rfl⟩
  | succ more ih =>
    rw [AnchorKit.RetryConfig.attempts]
    cases houtcome : outcomes calls with
    | ok value =>
      refine ⟨calls, endsAt_self (by omega) (Or.inr ?_), by rw [houtcome]⟩
      rw [houtcome]
      trivial
    | error e =>
      dsimp only
      cases hretryable : retryable e with
      | false =>
        refine ⟨calls, endsAt_self (by omega) (Or.inr ?_), by rw [houtcome]; rfl⟩
        rw [houtcome]
        exact hretryable
      | true =>
        obtain ⟨n, hend, hresult⟩ := ih (calls + 1)
        rw [if_pos rfl, hresult]
        refine ⟨n, EndsAt.cons ?_ ?_, rfl⟩
        · rw [houtcome, not_settles_error]
          exact hretryable
        · rwa [Nat.add_right_comm calls, Nat.add_right_comm] at hend

/-- The monitor, which leaves the delays out, counts the invocations of the full loop and returns
its outcome. -/
theorem retryWithBackoff_counts (hmax : config.maxAttempts ≠ 0) {source source' : J}
    {result : Except ε τ} {log : List (Event UInt32)}
    (h : retryWithBackoff config (operation outcomes) retryable sleep source [] =
      .ok (result, source', log)) :
    AnchorKit.RetryConfig.retryWithBackoff ⟨config.maxAttempts⟩ outcomes retryable 0 =
      (result, (invocations log).length) := by
  obtain ⟨delays, source'', hend, hplain⟩ := retryWithBackoff_eq config retryable
    outcomes id hmax source
  obtain ⟨hresult, hrest⟩ := Prod.mk.inj (Except.ok.inj (h.symm.trans hplain))
  obtain ⟨_, hlog⟩ := Prod.mk.inj hrest
  have hpositive : 0 < config.maxAttempts.toNat :=
    Nat.pos_of_ne_zero fun h => hmax (UInt32.toNat_inj.mp h)
  obtain ⟨n, hend', hattempts⟩ := attempts_eq retryable outcomes
    (config.maxAttempts.toNat - 1) 0
  rw [Nat.zero_add, Nat.sub_add_cancel hpositive] at hend'
  obtain rfl := hend'.unique hend
  rw [AnchorKit.RetryConfig.retryWithBackoff, hattempts, hresult, hlog, invocations_paced]
  simp

end Runs

end Retry

end AnchorKit
