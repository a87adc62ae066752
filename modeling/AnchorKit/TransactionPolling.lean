import AnchorKit.RetryLoops

/-!
# Polling a transaction

The status of a transaction is fetched again and again until it is terminal, an error survives the
retries or the time is up. The interval between two polls is added up without a check; it may be
zero, or large enough for the sum to overflow.
-/

namespace AnchorKit

open Fallible

/-- `is_retryable` of error codes. -/
def Retry.isRetryable : ErrorCode → Bool
  | .attestationNotFound | .staleQuote | .noQuotesAvailable | .cacheExpired | .cacheNotFound => true
  | _ => false

namespace Sep6

open Retry

inductive TransactionKind
  | deposit
  | withdrawal
deriving DecidableEq, Repr

inductive TransactionStatus
  | pending
  | incomplete
  | pendingExternal
  | pendingAnchor
  | pendingTrust
  | pendingUser
  | completed
  | refunded
  | expired
  | noMarket
  | tooSmall
  | tooLarge
  | pendingStellar
  | waitingCustomerAction
  | error
deriving DecidableEq, Repr

structure TransactionStatusResponse where
  transactionId : Text
  kind : TransactionKind
  status : TransactionStatus
  amountIn : Option UInt64
  amountOut : Option UInt64
  amountFee : Option UInt64
  message : Option Text
deriving DecidableEq, Repr

structure PollConfig where
  intervalMs : UInt64
  maxDurationMs : UInt64
  terminalStates : List TransactionStatus
deriving DecidableEq, Repr

def PollConfig.default : PollConfig :=
  ⟨2000, 60000, [.completed, .refunded, .expired, .error, .noMarket, .tooSmall, .tooLarge]⟩

inductive PollResult
  | completed (response : TransactionStatusResponse)
  | timedOut
  | failed (e : AnchorKitError)
deriving DecidableEq, Repr

/-- `RetryConfig::new(3, 100, 1_000, 2)`. -/
def pollRetryConfig : Retry.RetryConfig := ⟨3, 100, 1000, 2, .exponential, .full⟩

theorem new_eq_pollRetryConfig : Retry.RetryConfig.new 3 100 1000 2 = .ok pollRetryConfig := rfl

section Model

variable {W : Type} (txId : Text) (config : PollConfig)
  (fetchFn : Text → W → Except AnchorKitError TransactionStatusResponse × W)
  (sleepFn : UInt64 → W → W)

/-- At most the given number of rounds of the loop; it has no limit of its own. -/
def pollLoop : ℕ → UInt64 → W → Except Panic (Option (PollResult × W))
  | 0, _, _ => .ok none
  | rounds + 1, elapsedMs, w => do
    let js := MockJitterSource.new [0]
    let (result, _, w) ← retryWithBackoff pollRetryConfig (fun _ => fetchFn txId)
      (fun e => isRetryable e.code) (fun _ w => w) js w
    match result with
    | .error e => return some (.failed e, w)
    | .ok resp =>
      if resp.status ∈ config.terminalStates then return some (.completed resp, w)
      else
        let next ← add64 elapsedMs config.intervalMs
        if config.maxDurationMs ≤ next then return some (.timedOut, w)
        else
          let w := sleepFn config.intervalMs w
          let elapsedMs ← add64 elapsedMs config.intervalMs
          pollLoop rounds elapsedMs w

def pollTransactionStatus (rounds : ℕ) (w : W) : Except Panic (Option (PollResult × W)) :=
  pollLoop txId config fetchFn sleepFn rounds 0 w

end Model

/-! ### What is observed of a poll -/

structure PollWorld where
  fetches : ℕ
  slept : List UInt64
deriving DecidableEq, Repr

section Observed

variable (outcomes : ℕ → Except AnchorKitError TransactionStatusResponse)

def fetchNext (_txId : Text) (w : PollWorld) :
    Except AnchorKitError TransactionStatusResponse × PollWorld :=
  (outcomes w.fetches, { w with fetches := w.fetches + 1 })

def sleepFor (ms : UInt64) (w : PollWorld) : PollWorld := { w with slept := w.slept ++ [ms] }

def lastFetch : ℕ → ℕ → ℕ
  | 0, n => n
  | retries + 1, n =>
    match outcomes n with
    | .ok _ => n
    | .error e => if isRetryable e.code then lastFetch retries (n + 1) else n

def roundStart : ℕ → ℕ
  | 0 => 0
  | k + 1 => lastFetch outcomes 2 (roundStart k) + 1

/-- What the `k`-th round came to, after its retries. -/
def roundResult (k : ℕ) : Except AnchorKitError TransactionStatusResponse :=
  outcomes (lastFetch outcomes 2 (roundStart outcomes k))

variable (config : PollConfig)

/-- What the `k`-th round decides, when its response is terminal or an error survived its
retries. -/
def verdict (k : ℕ) : Option PollResult :=
  match roundResult outcomes k with
  | .ok resp => if resp.status ∈ config.terminalStates then some (.completed resp) else none
  | .error e => some (.failed e)

/-- The time is not up before the `k`-th round. -/
def InTime (k : ℕ) : Prop := k = 0 ∨ k * config.intervalMs.toNat < config.maxDurationMs.toNat

def NeverTerminal : Prop := ∀ n resp, outcomes n = .ok resp → resp.status ∉ config.terminalStates

/-- The first round to decide anything decides the result, if it is in time. -/
def RightResult (r : PollResult) : Prop :=
  (∃ k, InTime config k ∧ (∀ i < k, verdict outcomes config i = none) ∧
      verdict outcomes config k = some r) ∨
    r = .timedOut ∧ ∀ k, InTime config k → verdict outcomes config k = none

def totalSlept (w : PollWorld) : ℕ := (w.slept.map UInt64.toNat).sum

/-- The poll returns the right result, and it does not sleep too long when the transaction never
reaches a terminal state. -/
def PollsRightly (txId : Text) : Prop :=
  ∃ rounds r w, pollTransactionStatus txId config (fetchNext outcomes) sleepFor rounds ⟨0, []⟩ =
      .ok (some (r, w)) ∧
    RightResult outcomes config r ∧
    (NeverTerminal outcomes config → totalSlept w < config.maxDurationMs.toNat)

/-- The first multiple of the interval that reaches the maximum is still a 64-bit number. -/
def ReachesMax : Prop :=
  ∃ k, config.maxDurationMs.toNat ≤ (k + 1) * config.intervalMs.toNat ∧
    (k + 1) * config.intervalMs.toNat < 2 ^ 64

end Observed

/-! ### One round -/

section Rounds

variable {outcomes : ℕ → Except AnchorKitError TransactionStatusResponse} {config : PollConfig}
  {txId : Text} {k : ℕ} {elapsed : UInt64}

theorem attempts_fetchNext (retries : ℕ) (w : PollWorld) :
    attempts (fun e => isRetryable e.code) (fetchNext outcomes txId) retries w =
      (outcomes (lastFetch outcomes retries w.fetches),
        { w with fetches := lastFetch outcomes retries w.fetches + 1 }) := by
  induction retries generalizing w with
  | zero => rfl
  | succ retries ih =>
    rw [attempts, lastFetch, fetchNext]
    cases houtcome : outcomes w.fetches with
    | ok resp =>
      dsimp only
      rw [houtcome]
    | error e =>
      dsimp only
      cases hretry : isRetryable e.code with
      | false =>
        rw [if_neg Bool.false_ne_true, if_neg Bool.false_ne_true, houtcome]
      | true =>
        rw [if_pos rfl, if_pos rfl, ih]

def worldAt (outcomes : ℕ → Except AnchorKitError TransactionStatusResponse) (config : PollConfig)
    (k : ℕ) : PollWorld :=
  ⟨roundStart outcomes k, List.replicate k config.intervalMs⟩

def worldAfter (outcomes : ℕ → Except AnchorKitError TransactionStatusResponse)
    (config : PollConfig) (k : ℕ) : PollWorld :=
  ⟨roundStart outcomes (k + 1), List.replicate k config.intervalMs⟩

theorem sleepFor_worldAfter : sleepFor config.intervalMs (worldAfter outcomes config k) =
    worldAt outcomes config (k + 1) := by
  rw [sleepFor, worldAt, List.replicate_succ']
  rfl

theorem totalSlept_worldAfter :
    totalSlept (worldAfter outcomes config k) = k * config.intervalMs.toNat := by
  rw [totalSlept, worldAfter, List.map_replicate, List.sum_replicate_nat]

/-- A round that decides nothing is followed by another one while there is time. -/
theorem pollLoop_succ (txId : Text) (rounds : ℕ) (elapsed : UInt64) :
    pollLoop txId config (fetchNext outcomes) sleepFor (rounds + 1) elapsed
        (worldAt outcomes config k) =
      (match verdict outcomes config k with
      | some r => .ok (some (r, worldAfter outcomes config k))
      | none => do
        let next ← add64 elapsed config.intervalMs
        if config.maxDurationMs ≤ next then
          .ok (some (.timedOut, worldAfter outcomes config k))
        else
          pollLoop txId config (fetchNext outcomes) sleepFor rounds next
            (worldAt outcomes config (k + 1))) := by
  have hretries : 2 + 1 = pollRetryConfig.maxAttempts.toNat := rfl
  obtain ⟨js, hround⟩ := retryWithBackoff_eq_attempts pollRetryConfig (fun e => isRetryable e.code)
    (fetchNext outcomes txId) hretries (MockJitterSource.new [0]) (worldAt outcomes config k)
  rw [attempts_fetchNext] at hround
  rw [pollLoop]
  dsimp only
  rw [hround]
  rw [← sleepFor_worldAfter]
  unfold verdict roundResult
  simp only [bind, Except.bind]
  change (match outcomes (lastFetch outcomes 2 (roundStart outcomes k)) with
    | .error e => _
    | .ok resp => _) = _
  cases outcomes (lastFetch outcomes 2 (roundStart outcomes k)) with
  | error e => rfl
  | ok resp =>
    dsimp only
    split
    · rfl
    · cases add64 elapsed config.intervalMs with
      | error e => rfl
      | ok next => rfl

/-! ### All rounds -/

theorem inTime_zero : InTime config 0 := Or.inl rfl

/-- The loop that is about to make the `k`-th round. -/
structure AtRound (outcomes : ℕ → Except AnchorKitError TransactionStatusResponse)
    (config : PollConfig) (k : ℕ) (elapsed : UInt64) : Prop where
  elapsed : elapsed.toNat = k * config.intervalMs.toNat
  inTime : InTime config k
  undecided (i : ℕ) (hi : i < k) : verdict outcomes config i = none

theorem atRound_zero : AtRound outcomes config 0 0 where
  elapsed := (Nat.zero_mul _).symm
  inTime := inTime_zero
  undecided := by
    intro i hi
    cases hi

theorem AtRound.succ {next : UInt64} (h : AtRound outcomes config k elapsed)
    (hnone : verdict outcomes config k = none)
    (hnext : elapsed.toNat + config.intervalMs.toNat = next.toNat)
    (hlt : ¬ config.maxDurationMs ≤ next) : AtRound outcomes config (k + 1) next where
  elapsed := by rw [← hnext, h.elapsed, Nat.succ_mul]
  inTime := by
    rw [UInt64.le_iff_toNat_le, ← hnext, h.elapsed, ← Nat.succ_mul, not_le] at hlt
    exact Or.inr hlt
  undecided := by
    intro i hi
    rcases Nat.lt_succ_iff_lt_or_eq.mp hi with hi | rfl
    · exact h.undecided i hi
    · exact hnone

/-- When the time is up after a round, nothing was decided in time. -/
theorem AtRound.none_of_le (h : AtRound outcomes config k elapsed)
    (hnone : verdict outcomes config k = none)
    (hmax : config.maxDurationMs.toNat ≤ (k + 1) * config.intervalMs.toNat) (j : ℕ)
    (hj : InTime config j) : verdict outcomes config j = none := by
  rcases Nat.lt_trichotomy j k with hlt | rfl | hgt
  · exact h.undecided j hlt
  · exact hnone
  · rcases hj with rfl | hj
    · cases hgt
    · have hle := Nat.mul_le_mul_right config.intervalMs.toNat (Nat.succ_le_of_lt hgt)
      rw [Nat.succ_eq_add_one] at hle
      omega

/-- What a poll returns is right, it was reached in time, and something was decided unless the
interval reaches the maximum. -/
theorem pollLoop_sound {rounds : ℕ} {r : PollResult} {w : PollWorld}
    (h : AtRound outcomes config k elapsed)
    (hpoll : pollLoop txId config (fetchNext outcomes) sleepFor rounds elapsed
      (worldAt outcomes config k) = .ok (some (r, w))) :
    RightResult outcomes config r ∧ (∃ j, InTime config j ∧ w = worldAfter outcomes config j) ∧
      ((∃ j, InTime config j ∧ verdict outcomes config j ≠ none) ∨ ReachesMax config) := by
  induction rounds generalizing k elapsed with
  | zero => cases hpoll
  | succ rounds ih =>
    rw [pollLoop_succ] at hpoll
    cases hverdict : verdict outcomes config k with
    | some r' =>
      rw [hverdict] at hpoll
      obtain ⟨rfl, rfl⟩ := Prod.mk.inj (Option.some.inj (Except.ok.inj hpoll))
      refine ⟨Or.inl ⟨k, h.inTime, h.undecided, hverdict⟩, ⟨k, h.inTime, rfl⟩,
        Or.inl ⟨k, h.inTime, ?_⟩⟩
      rw [hverdict]
      exact Option.some_ne_none _
    | none =>
      rw [hverdict] at hpoll
      obtain ⟨next, hnext, hrest⟩ := bind_eq_ok.mp hpoll
      rw [add64_eq_ok] at hnext
      split at hrest
      · rename_i hmax
        obtain ⟨rfl, rfl⟩ := Prod.mk.inj (Option.some.inj (Except.ok.inj hrest))
        have hlimit := next.toNat_lt
        rw [UInt64.le_iff_toNat_le, ← hnext, h.elapsed, ← Nat.succ_mul] at hmax
        rw [← hnext, h.elapsed, ← Nat.succ_mul] at hlimit
        exact ⟨Or.inr ⟨rfl, h.none_of_le hverdict hmax⟩, ⟨k, h.inTime, rfl⟩,
          Or.inr ⟨k, hmax, hlimit⟩⟩
      · rename_i hlt
        exact ih (h.succ hverdict hnext hlt) hrest

/-- The poll is decided, or its time is up, at the given round or before. -/
theorem pollLoop_complete {k j : ℕ} {elapsed : UInt64} (h : AtRound outcomes config k elapsed)
    (hkj : k ≤ j)
    (hends : (InTime config j ∧ verdict outcomes config j ≠ none) ∨
      config.maxDurationMs.toNat ≤ (j + 1) * config.intervalMs.toNat ∧
        (j + 1) * config.intervalMs.toNat < 2 ^ 64) :
    ∃ rounds r w, pollLoop txId config (fetchNext outcomes) sleepFor rounds elapsed
      (worldAt outcomes config k) = .ok (some (r, w)) := by
  cases hverdict : verdict outcomes config k with
  | some r =>
    refine ⟨1, r, worldAfter outcomes config k, ?_⟩
    rw [pollLoop_succ, hverdict]
  | none =>
    have hmax := config.maxDurationMs.toNat_lt
    by_cases hup : config.maxDurationMs.toNat ≤ (k + 1) * config.intervalMs.toNat
    · -- the time is up after this round, and the sum that tells it does not overflow
      have hsmall : elapsed.toNat + config.intervalMs.toNat < 2 ^ 64 := by
        rw [h.elapsed, ← Nat.succ_mul]
        rcases hends with ⟨htime, hdecides⟩ | ⟨_, hsmall⟩
        · exact absurd (h.none_of_le hverdict hup j htime) hdecides
        · exact (Nat.mul_le_mul_right _ (Nat.succ_le_succ hkj)).trans_lt hsmall
      have hnext := add64_of_lt hsmall
      have hle : config.maxDurationMs ≤ elapsed + config.intervalMs := by
        rw [UInt64.le_iff_toNat_le, ← add64_eq_ok.mp hnext, h.elapsed, ← Nat.succ_mul]
        exact hup
      refine ⟨1, .timedOut, worldAfter outcomes config k, ?_⟩
      rw [pollLoop_succ, hverdict, hnext]
      exact if_pos hle
    · have hsmall : elapsed.toNat + config.intervalMs.toNat < 2 ^ 64 := by
        rw [h.elapsed, ← Nat.succ_mul]
        exact (not_le.mp hup).trans hmax
      have hnext := add64_of_lt hsmall
      have hlt : ¬ config.maxDurationMs ≤ elapsed + config.intervalMs := by
        rw [UInt64.le_iff_toNat_le, ← add64_eq_ok.mp hnext, h.elapsed, ← Nat.succ_mul]
        exact hup
      have hlater : k < j := by
        refine lt_of_le_of_ne hkj ?_
        rintro rfl
        rcases hends with ⟨_, hdecides⟩ | ⟨hreaches, _⟩
        · exact hdecides hverdict
        · exact hup hreaches
      obtain ⟨rounds, r, w, hrest⟩ :=
        pollLoop_complete (h.succ hverdict (add64_eq_ok.mp hnext) hlt) hlater hends
      refine ⟨rounds + 1, r, w, ?_⟩
      rw [pollLoop_succ, hverdict, hnext]
      exact (if_neg hlt).trans hrest
termination_by j - k

/-- A poll is right exactly when something is decided in time or the time runs out by the interval,
and there is some time at all unless the transaction reaches a terminal state. -/
theorem pollsRightly_iff (outcomes : ℕ → Except AnchorKitError TransactionStatusResponse)
    (config : PollConfig) (txId : Text) : PollsRightly outcomes config txId ↔
      (NeverTerminal outcomes config → 0 < config.maxDurationMs.toNat) ∧
        ((∃ k, InTime config k ∧ verdict outcomes config k ≠ none) ∨ ReachesMax config) := by
  constructor
  · rintro ⟨rounds, r, w, hpoll, _, hslept⟩
    obtain ⟨_, _, hends⟩ := pollLoop_sound atRound_zero hpoll
    exact ⟨fun hnever => Nat.zero_lt_of_lt (hslept hnever), hends⟩
  · intro ⟨hpositive, hends⟩
    have hreturns : ∃ rounds r w, pollTransactionStatus txId config (fetchNext outcomes) sleepFor
        rounds ⟨0, []⟩ = .ok (some (r, w)) := by
      rcases hends with ⟨k, hends⟩ | ⟨k, hends⟩
      · exact pollLoop_complete atRound_zero (Nat.zero_le k) (Or.inl hends)
      · exact pollLoop_complete atRound_zero (Nat.zero_le k) (Or.inr hends)
    obtain ⟨rounds, r, w, hpoll⟩ := hreturns
    obtain ⟨hright, ⟨j, hj, rfl⟩, _⟩ := pollLoop_sound atRound_zero hpoll
    refine ⟨rounds, r, _, hpoll, hright, fun hnever => ?_⟩
    rw [totalSlept_worldAfter]
    rcases hj with rfl | hj
    · rw [Nat.zero_mul]
      exact hpositive hnever
    · exact hj

def pendingResponse : TransactionStatusResponse :=
  { transactionId := "txn-001".toList, kind := .deposit, status := .pending, amountIn := none,
    amountOut := none, amountFee := none, message := none }

/-- A pending transaction is polled for ever when there is no interval. -/
theorem zero_interval_polls_forever :
    ¬ PollsRightly (fun _ => .ok pendingResponse) { PollConfig.default with intervalMs := 0 }
      "txn-001".toList := by
  rintro ⟨rounds, r, w, hpoll, _⟩
  rcases (pollLoop_sound atRound_zero hpoll).2.2 with ⟨k, _, hdecides⟩ | ⟨k, hreaches, _⟩
  · refine hdecides ?_
    rw [verdict, roundResult]
    exact if_neg (by decide)
  · exact absurd hreaches (by simp [PollConfig.default])

end Rounds

end Sep6

end AnchorKit
