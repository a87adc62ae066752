import AnchorKit.Types
import Mathlib.Tactic.Linarith

/-!
# Delays between retries

The delay after a failed attempt grows with the attempt by one of several strategies and is then
moved by jitter that is drawn from seeds. The strategies are followed exactly whatever the size of
the numbers: wherever the arithmetic saturates, the maximum delay applies.
-/

namespace AnchorKit

open Fallible

namespace Retry

inductive BackoffStrategy
  | exponential
  | linear
  | constant
  | noRetry
deriving DecidableEq, Repr

inductive JitterPolicy
  | full
  | equal
  | none
deriving DecidableEq, Repr

structure RetryConfig where
  maxAttempts : UInt32
  baseDelayMs : UInt64
  maxDelayMs : UInt64
  backoffMultiplier : UInt32
  strategy : BackoffStrategy
  jitterPolicy : JitterPolicy
deriving DecidableEq, Repr

class JitterSource (J : Type) where
  nextSeed : J → UInt64 × J

structure LedgerJitterSource where
  sequence : UInt32
  timestamp : UInt64
  counter : UInt64
deriving DecidableEq, Repr

def LedgerJitterSource.new (sequence : UInt32) (timestamp : UInt64) : LedgerJitterSource :=
  ⟨sequence, timestamp, 0⟩

instance : JitterSource LedgerJitterSource where
  nextSeed source :=
    (source.sequence.toUInt64 ^^^ source.timestamp ^^^ source.counter,
      { source with counter := source.counter + 1 })

/-- The seeds again and again. -/
structure MockJitterSource where
  seeds : List UInt64
  index : ℕ
deriving DecidableEq, Repr

def MockJitterSource.new (seeds : List UInt64) : MockJitterSource := ⟨seeds, 0⟩

instance : JitterSource MockJitterSource where
  nextSeed source :=
    match source.seeds[source.index % source.seeds.length]? with
    | some seed => (seed, { source with index := source.index + 1 })
    | none => (0, source)

namespace RetryConfig

def validate (maxAttempts backoffMultiplier : UInt32) (maxDelayMs : UInt64) :
    Except AnchorKitError Unit := do
  require (maxAttempts ≠ 0)
    ⟨.validationError, "RetryConfig max_attempts must be at least 1", none⟩
  require (backoffMultiplier ≠ 0)
    ⟨.validationError, "RetryConfig backoff_multiplier must be at least 1", none⟩
  require (maxDelayMs ≠ 0)
    ⟨.validationError, "RetryConfig max_delay_ms must be at least 1", none⟩

def withStrategy (maxAttempts : UInt32) (baseDelayMs maxDelayMs : UInt64)
    (backoffMultiplier : UInt32) (strategy : BackoffStrategy) (jitterPolicy : JitterPolicy) :
    Except AnchorKitError RetryConfig := do
  validate maxAttempts backoffMultiplier maxDelayMs
  return { maxAttempts, baseDelayMs, maxDelayMs, backoffMultiplier, strategy, jitterPolicy }

def new (maxAttempts : UInt32) (baseDelayMs maxDelayMs : UInt64) (backoffMultiplier : UInt32) :
    Except AnchorKitError RetryConfig :=
  withStrategy maxAttempts baseDelayMs maxDelayMs backoffMultiplier .exponential .full

def default : RetryConfig := ⟨3, 100, 5000, 2, .exponential, .full⟩

def aggressive : RetryConfig := ⟨5, 50, 2000, 2, .exponential, .full⟩

def conservative : RetryConfig := ⟨2, 500, 10000, 2, .exponential, .full⟩

def linear : RetryConfig := ⟨6, 100, 5000, 2, .linear, .full⟩

def constant : RetryConfig := ⟨5, 500, 500, 1, .constant, .none⟩

def Validates (config : RetryConfig) : Prop :=
  validate config.maxAttempts config.backoffMultiplier config.maxDelayMs = .ok ()

theorem validates_iff {config : RetryConfig} :
    config.Validates ↔
      config.maxAttempts ≠ 0 ∧ config.backoffMultiplier ≠ 0 ∧ config.maxDelayMs ≠ 0 := by
  simp [Validates, validate]

/-- What the constructors let through and the predefined configurations validate. -/
theorem validates_of_withStrategy {maxAttempts backoffMultiplier : UInt32}
    {baseDelayMs maxDelayMs : UInt64} {strategy : BackoffStrategy} {jitterPolicy : JitterPolicy}
    {config : RetryConfig}
    (h : withStrategy maxAttempts baseDelayMs maxDelayMs backoffMultiplier strategy jitterPolicy =
      .ok config) : config.Validates := by
  obtain ⟨_, hvalid, hconfig⟩ := bind_eq_ok.mp h
  obtain rfl := pure_eq_ok.mp hconfig
  exact hvalid

theorem validates_of_preset :
    ∀ config ∈ [default, aggressive, conservative, linear, constant], config.Validates := by
  simp [validates_iff, default, aggressive, conservative, linear, constant]

def baseDelayForAttempt (config : RetryConfig) (attempt : UInt32) : UInt64 :=
  match config.strategy with
  | .exponential =>
    let exp := Word.saturatingPow64 config.backoffMultiplier.toUInt64 attempt.toNat
    min (Word.saturatingMul64 config.baseDelayMs exp) config.maxDelayMs
  | .linear =>
    let factor := Word.saturatingAdd64 attempt.toUInt64 1
    min (Word.saturatingMul64 config.baseDelayMs factor) config.maxDelayMs
  | .constant => min config.baseDelayMs config.maxDelayMs
  | .noRetry => 0

variable {J : Type} [JitterSource J]

def delayForAttempt (config : RetryConfig) (attempt : UInt32) (jitterSource : J) :
    Except Panic (UInt64 × J) :=
  let base := config.baseDelayForAttempt attempt
  match config.jitterPolicy with
  | .full => do
    let jitterBound ← add64 (config.baseDelayMs / 2) 1
    let (jitter, jitterSource) :=
      if jitterBound = 0 then (0, jitterSource)
      else
        let (seed, jitterSource) := JitterSource.nextSeed jitterSource
        (seed % jitterBound, jitterSource)
    return (min (Word.saturatingAdd64 base jitter) config.maxDelayMs, jitterSource)
  | .equal =>
    let half := base / 2
    let jitterBound := if half = 0 then 1 else half
    let (seed, jitterSource) := JitterSource.nextSeed jitterSource
    let offset := seed % jitterBound
    let (seed, jitterSource) := JitterSource.nextSeed jitterSource
    let sign := seed % 2
    if sign = 0 then
      .ok (min (Word.saturatingAdd64 base offset) config.maxDelayMs, jitterSource)
    else
      .ok (max (Word.saturatingSub64 base offset) (min config.baseDelayMs base), jitterSource)
  | .none => .ok (min base config.maxDelayMs, jitterSource)

/-! ### The delays in exact arithmetic -/

/-- The strategy without bounds on the numbers. -/
def exactDelay (config : RetryConfig) (attempt : ℕ) : ℕ :=
  match config.strategy with
  | .exponential =>
    min (config.baseDelayMs.toNat * config.backoffMultiplier.toNat ^ attempt)
      config.maxDelayMs.toNat
  | .linear => min (config.baseDelayMs.toNat * (attempt + 1)) config.maxDelayMs.toNat
  | .constant => min config.baseDelayMs.toNat config.maxDelayMs.toNat
  | .noRetry => 0

/-- A factor beyond the bound may be replaced by the bound, unless nothing is multiplied. -/
theorem min_mul_min (a b m bound : ℕ) (hm : m ≤ bound) :
    min (min (a * min b bound) bound) m = min (a * b) m := by
  rcases Nat.le_total b bound with hb | hb
  · rw [Nat.min_eq_left hb]
    omega
  · rw [Nat.min_eq_right hb]
    rcases Nat.eq_zero_or_pos a with rfl | ha
    · simp
    · have hlow : bound ≤ a * bound := Nat.le_mul_of_pos_left bound ha
      have hhigh : bound ≤ a * b := hlow.trans (Nat.mul_le_mul_left a hb)
      omega

theorem toNat_baseDelayForAttempt (config : RetryConfig) (attempt : UInt32) :
    (config.baseDelayForAttempt attempt).toNat = config.exactDelay attempt.toNat := by
  have hmax := config.maxDelayMs.toNat_lt
  have hattempt := attempt.toNat_lt
  unfold baseDelayForAttempt exactDelay
  cases config.strategy with
  | exponential =>
    simp only [Word.toNat_min64, Word.toNat_saturatingMul64, Word.toNat_saturatingPow64,
      UInt32.toNat_toUInt64]
    exact min_mul_min _ _ _ _ (by omega)
  | linear =>
    simp only [Word.toNat_min64, Word.toNat_saturatingMul64, Word.toNat_saturatingAdd64,
      UInt32.toNat_toUInt64]
    exact min_mul_min _ _ _ _ (by omega)
  | constant => exact Word.toNat_min64 _ _
  | noRetry => rfl

theorem exactDelay_le (config : RetryConfig) (attempt : ℕ) :
    config.exactDelay attempt ≤ config.maxDelayMs.toNat := by
  unfold exactDelay
  cases config.strategy <;> simp

def fullDelay (config : RetryConfig) (attempt : UInt32) (seed : UInt64) : UInt64 :=
  min (Word.saturatingAdd64 (config.baseDelayForAttempt attempt)
    (seed % (config.baseDelayMs / 2 + 1))) config.maxDelayMs

def equalDelay (config : RetryConfig) (attempt : UInt32) (first second : UInt64) : UInt64 :=
  let base := config.baseDelayForAttempt attempt
  let offset := first % if base / 2 = 0 then 1 else base / 2
  if second % 2 = 0 then min (Word.saturatingAdd64 base offset) config.maxDelayMs
  else max (Word.saturatingSub64 base offset) (min config.baseDelayMs base)

theorem toNat_half_succ (a : UInt64) : (a / 2 + 1).toNat = a.toNat / 2 + 1 := by
  have ha := a.toNat_lt
  rw [UInt64.toNat_add, UInt64.toNat_div]
  exact Nat.mod_eq_of_lt (by change a.toNat / 2 + 1 < 2 ^ 64; omega)

section Draws

variable {config : RetryConfig} {attempt : UInt32}

theorem delayForAttempt_full (h : config.jitterPolicy = .full) (source : J) :
    config.delayForAttempt attempt source =
      .ok (config.fullDelay attempt (JitterSource.nextSeed source).1,
        (JitterSource.nextSeed source).2) := by
  have hbound := toNat_half_succ config.baseDelayMs
  have hadd : add64 (config.baseDelayMs / 2) 1 = .ok (config.baseDelayMs / 2 + 1) := by
    rw [add64_eq_ok, hbound, UInt64.toNat_div]
    rfl
  have hpositive : config.baseDelayMs / 2 + 1 ≠ 0 := by
    intro hzero
    rw [hzero] at hbound
    exact absurd hbound (by simp)
  simp [delayForAttempt, h, hadd, hpositive, fullDelay, bind, Except.bind, pure, Except.pure]

theorem delayForAttempt_equal (h : config.jitterPolicy = .equal) (source : J) :
    config.delayForAttempt attempt source =
      .ok (config.equalDelay attempt (JitterSource.nextSeed source).1
          (JitterSource.nextSeed (JitterSource.nextSeed source).2).1,
        (JitterSource.nextSeed (JitterSource.nextSeed source).2).2) := by
  simp only [delayForAttempt, h, equalDelay]
  split <;> rfl

theorem delayForAttempt_none (h : config.jitterPolicy = .none) (source : J) :
    config.delayForAttempt attempt source =
      .ok (min (config.baseDelayForAttempt attempt) config.maxDelayMs, source) := by
  simp only [delayForAttempt, h]

theorem succeeds_delayForAttempt (config : RetryConfig) (attempt : UInt32) (source : J) :
    Succeeds (config.delayForAttempt attempt source) := by
  cases h : config.jitterPolicy with
  | full => exact ⟨_, delayForAttempt_full h source⟩
  | equal => exact ⟨_, delayForAttempt_equal h source⟩
  | none => exact ⟨_, delayForAttempt_none h source⟩

end Draws

theorem toNat_fullDelay (config : RetryConfig) (attempt : UInt32) (seed : UInt64) :
    (config.fullDelay attempt seed).toNat =
      min (config.exactDelay attempt.toNat + seed.toNat % (config.baseDelayMs.toNat / 2 + 1))
        config.maxDelayMs.toNat := by
  have hmax := config.maxDelayMs.toNat_lt
  rw [fullDelay, Word.toNat_min64, Word.toNat_saturatingAdd64, toNat_baseDelayForAttempt,
    UInt64.toNat_mod, toNat_half_succ]
  omega

def offsets (delay : ℕ) : ℕ := max (delay / 2) 1

theorem toNat_equalDelay (config : RetryConfig) (attempt : UInt32) (first second : UInt64) :
    (config.equalDelay attempt first second).toNat =
      if second.toNat % 2 = 0 then
        min (config.exactDelay attempt.toNat +
          first.toNat % offsets (config.exactDelay attempt.toNat)) config.maxDelayMs.toNat
      else
        max (config.exactDelay attempt.toNat -
            first.toNat % offsets (config.exactDelay attempt.toNat))
          (min config.baseDelayMs.toNat (config.exactDelay attempt.toNat)) := by
  have hmax := config.maxDelayMs.toNat_lt
  have hbase := toNat_baseDelayForAttempt config attempt
  have hhalf : (config.baseDelayForAttempt attempt / 2).toNat =
      config.exactDelay attempt.toNat / 2 := by rw [UInt64.toNat_div, hbase]; rfl
  have hoffset : (first % if config.baseDelayForAttempt attempt / 2 = 0 then 1
      else config.baseDelayForAttempt attempt / 2).toNat =
        first.toNat % offsets (config.exactDelay attempt.toNat) := by
    rw [UInt64.toNat_mod, offsets]
    by_cases hzero : config.baseDelayForAttempt attempt / 2 = 0
    · rw [hzero] at hhalf
      rw [if_pos hzero, ← hhalf]
      rfl
    · have hpositive : 0 < config.exactDelay attempt.toNat / 2 := by
        rw [← hhalf]
        exact Nat.pos_of_ne_zero fun h => hzero (UInt64.toNat_inj.mp h)
      rw [if_neg hzero, hhalf, Nat.max_eq_left hpositive]
  have hsign : second % 2 = 0 ↔ second.toNat % 2 = 0 := by
    rw [← UInt64.toNat_inj, UInt64.toNat_mod]
    rfl
  unfold equalDelay
  dsimp only
  by_cases hs : second.toNat % 2 = 0
  · rw [if_pos hs, if_pos (hsign.mpr hs), Word.toNat_min64, Word.toNat_saturatingAdd64, hbase,
      hoffset]
    omega
  · rw [if_neg hs, if_neg (mt hsign.mp hs), Word.toNat_max64, Word.toNat_min64,
      Word.toNat_saturatingSub64, hbase, hoffset]

/-! ### The documented ranges -/

/-- Some source of seeds leads to the delay. -/
def Possible (config : RetryConfig) (attempt : UInt32) (delay : UInt64) : Prop :=
  ∃ (J : Type) (_ : JitterSource J) (source source' : J),
    config.delayForAttempt attempt source = .ok (delay, source')

/-- What is documented of the delays after an attempt. A deviation by less than a millisecond is
none, and no delay above the maximum is asked for. -/
structure DelaysAsDocumented (config : RetryConfig) (attempt : UInt32) : Prop where
  succeeds (J : Type) [JitterSource J] (source : J) :
    Succeeds (config.delayForAttempt attempt source)
  bounded (d : UInt64) (hd : config.Possible attempt d) : d ≤ config.maxDelayMs
  monotone (h : config.jitterPolicy = .none) (later : UInt32) (hlater : attempt ≤ later)
    (d d' : UInt64) (hd : config.Possible attempt d) (hd' : config.Possible later d') : d ≤ d'
  full (h : config.jitterPolicy = .full) (d : UInt64) (hd : config.Possible attempt d) :
    config.exactDelay attempt.toNat ≤ d.toNat ∧
      d.toNat ≤ min (config.exactDelay attempt.toNat + config.baseDelayMs.toNat / 2)
        config.maxDelayMs.toNat
  equal (h : config.jitterPolicy = .equal) (d : UInt64) (hd : config.Possible attempt d) :
    4 * (d.toNat - config.exactDelay attempt.toNat) ≤ config.exactDelay attempt.toNat ∧
      4 * (config.exactDelay attempt.toNat - d.toNat) ≤ config.exactDelay attempt.toNat
  above (h : config.jitterPolicy = .equal) (hroom : 4 ≤ config.exactDelay attempt.toNat)
    (hmax : config.exactDelay attempt.toNat < config.maxDelayMs.toNat) :
    ∃ d, config.Possible attempt d ∧ config.exactDelay attempt.toNat < d.toNat
  below (h : config.jitterPolicy = .equal) (hroom : 4 ≤ config.exactDelay attempt.toNat) :
    ∃ d, config.Possible attempt d ∧ d.toNat < config.exactDelay attempt.toNat

section Possible

variable {config : RetryConfig} {attempt : UInt32} {d : UInt64}

theorem possible_none (h : config.jitterPolicy = .none) :
    config.Possible attempt d ↔ d.toNat = config.exactDelay attempt.toNat := by
  have hvalue : (min (config.baseDelayForAttempt attempt) config.maxDelayMs).toNat =
      config.exactDelay attempt.toNat := by
    rw [Word.toNat_min64, toNat_baseDelayForAttempt]
    exact Nat.min_eq_left (exactDelay_le config _)
  rw [← hvalue, UInt64.toNat_inj]
  constructor
  · rintro ⟨_, _, source, _, hdelay⟩
    rw [delayForAttempt_none h] at hdelay
    exact (Prod.mk.inj (Except.ok.inj hdelay)).1.symm
  · rintro rfl
    exact ⟨MockJitterSource, inferInstance, .new [], _, delayForAttempt_none h _⟩

theorem possible_full (h : config.jitterPolicy = .full) :
    config.Possible attempt d ↔ ∃ seed, d = config.fullDelay attempt seed := by
  constructor
  · rintro ⟨_, _, source, _, hdelay⟩
    rw [delayForAttempt_full h] at hdelay
    exact ⟨_, (Prod.mk.inj (Except.ok.inj hdelay)).1.symm⟩
  · rintro ⟨seed, rfl⟩
    exact ⟨MockJitterSource, inferInstance, .new [seed], _, delayForAttempt_full h _⟩

theorem possible_equal (h : config.jitterPolicy = .equal) :
    config.Possible attempt d ↔ ∃ first second, d = config.equalDelay attempt first second := by
  constructor
  · rintro ⟨_, _, source, _, hdelay⟩
    rw [delayForAttempt_equal h] at hdelay
    exact ⟨_, _, (Prod.mk.inj (Except.ok.inj hdelay)).1.symm⟩
  · rintro ⟨first, second, rfl⟩
    exact ⟨MockJitterSource, inferInstance, .new [first, second], _, delayForAttempt_equal h _⟩

end Possible

/-! ### Where the documentation is followed -/

/-- A multiplier of zero, which no constructor lets through, stops the growth after one attempt. -/
def Collapses (config : RetryConfig) (attempt : UInt32) : Prop :=
  config.strategy = .exponential ∧ config.backoffMultiplier = 0 ∧ attempt = 0 ∧
    0 < config.baseDelayMs ∧ 0 < config.maxDelayMs

/-- The delay before jitter is too short to be moved, or it is above the base delay and as far from
the bounds on both sides as the documentation allows. -/
def Balanced (config : RetryConfig) (attempt : UInt32) : Prop :=
  let delay := config.exactDelay attempt.toNat
  delay < 4 ∨ config.baseDelayMs.toNat < delay ∧
    (delay ≤ 5 ∨
      config.maxDelayMs.toNat ≤ delay + delay / 4 ∧ delay ≤ config.baseDelayMs.toNat + delay / 4)

/-- The cases in which the jitter is as documented. -/
def JitterAsDocumented (config : RetryConfig) (attempt : UInt32) : Prop :=
  match config.jitterPolicy with
  | .full => True
  | .equal => config.Balanced attempt
  | .none => ¬ config.Collapses attempt

instance (config : RetryConfig) (attempt : UInt32) : Decidable (config.Collapses attempt) :=
  inferInstanceAs (Decidable (_ ∧ _))

instance (config : RetryConfig) (attempt : UInt32) : Decidable (config.Balanced attempt) :=
  inferInstanceAs (Decidable (_ ∨ _))

theorem exactDelay_mono (config : RetryConfig) {a b : ℕ} (hab : a ≤ b)
    (hgrows : config.strategy = .exponential → config.backoffMultiplier ≠ 0) :
    config.exactDelay a ≤ config.exactDelay b := by
  unfold exactDelay
  cases hstrategy : config.strategy with
  | exponential =>
    have hmultiplier : 0 < config.backoffMultiplier.toNat :=
      Nat.pos_of_ne_zero fun h => hgrows hstrategy (UInt32.toNat_inj.mp h)
    exact min_le_min_right _ (Nat.mul_le_mul_left _ (Nat.pow_le_pow_right hmultiplier hab))
  | linear => exact min_le_min_right _ (Nat.mul_le_mul_left _ (Nat.succ_le_succ hab))
  | constant => exact le_rfl
  | noRetry => exact le_rfl

theorem exactDelay_mono_iff (config : RetryConfig) (attempt : UInt32) :
    (∀ later, attempt ≤ later → config.exactDelay attempt.toNat ≤ config.exactDelay later.toNat) ↔
      ¬ config.Collapses attempt := by
  constructor
  · rintro hmono ⟨hstrategy, hmultiplier, rfl, hbase, hmax⟩
    have hnext := hmono 1 (by decide)
    have hlow : config.exactDelay 1 = 0 := by simp [exactDelay, hstrategy, hmultiplier]
    have hhigh : 0 < config.exactDelay 0 := by
      rw [UInt64.lt_iff_toNat_lt] at hbase hmax
      simpa [exactDelay, hstrategy] using ⟨hbase, hmax⟩
    change config.exactDelay 0 ≤ config.exactDelay 1 at hnext
    omega
  · intro hgrows later hlater
    by_cases hzero : config.strategy = .exponential ∧ config.backoffMultiplier = 0
    · obtain ⟨hstrategy, hmultiplier⟩ := hzero
      have hnothing : config.exactDelay attempt.toNat = 0 := by
        by_contra hpositive
        apply hgrows
        have hfirst : attempt = 0 := by
          by_contra hlate
          have hpower : attempt.toNat ≠ 0 := fun h => hlate (UInt32.toNat_inj.mp h)
          exact hpositive (by simp [exactDelay, hstrategy, hmultiplier, hpower])
        subst hfirst
        refine ⟨hstrategy, hmultiplier, rfl, ?_⟩
        rw [UInt64.lt_iff_toNat_lt, UInt64.lt_iff_toNat_lt]
        have hboth : 0 < min config.baseDelayMs.toNat config.maxDelayMs.toNat := by
          have hsome := Nat.pos_of_ne_zero hpositive
          simpa [exactDelay, hstrategy] using hsome
        exact lt_min_iff.mp hboth
      omega
    · rw [not_and] at hzero
      exact exactDelay_mono config (UInt32.le_iff_toNat_le.mp hlater) hzero

/-- The offsets reach from nothing up to just below half of the delay. -/
theorem offset_le (delay : ℕ) (seed : UInt64) : seed.toNat % offsets delay ≤ delay / 2 - 1 := by
  have hpositive : 0 < offsets delay := by unfold offsets; omega
  have hlt := Nat.mod_lt seed.toNat hpositive
  unfold offsets at hlt ⊢
  omega

theorem exists_offset {delay k : ℕ} (hdelay : delay < 2 ^ 64) (hk : k ≤ delay / 2 - 1) :
    ∃ seed : UInt64, seed.toNat % offsets delay = k := by
  refine ⟨UInt64.ofNat k, ?_⟩
  rw [Word.toNat_ofNat64 (by omega), offsets]
  exact Nat.mod_eq_of_lt (by omega)

section Equal

variable {config : RetryConfig} {attempt : UInt32}

theorem possible_above (h : config.jitterPolicy = .equal) {k : ℕ}
    (hk : k ≤ config.exactDelay attempt.toNat / 2 - 1) :
    ∃ d, config.Possible attempt d ∧
      d.toNat = min (config.exactDelay attempt.toNat + k) config.maxDelayMs.toNat := by
  have hmax := config.maxDelayMs.toNat_lt
  have hle := exactDelay_le config attempt.toNat
  obtain ⟨seed, hseed⟩ := exists_offset (by omega) hk
  refine ⟨_, (possible_equal h).mpr ⟨seed, 0, rfl⟩, ?_⟩
  rw [toNat_equalDelay, if_pos (by rfl), hseed]

theorem possible_below (h : config.jitterPolicy = .equal) {k : ℕ}
    (hk : k ≤ config.exactDelay attempt.toNat / 2 - 1) :
    ∃ d, config.Possible attempt d ∧
      d.toNat = max (config.exactDelay attempt.toNat - k)
        (min config.baseDelayMs.toNat (config.exactDelay attempt.toNat)) := by
  have hmax := config.maxDelayMs.toNat_lt
  have hle := exactDelay_le config attempt.toNat
  obtain ⟨seed, hseed⟩ := exists_offset (by omega) hk
  refine ⟨_, (possible_equal h).mpr ⟨seed, 1, rfl⟩, ?_⟩
  rw [toNat_equalDelay, if_neg (by decide), hseed]

theorem cases_of_possible (h : config.jitterPolicy = .equal) {d : UInt64}
    (hd : config.Possible attempt d) :
    ∃ k ≤ config.exactDelay attempt.toNat / 2 - 1,
      d.toNat = min (config.exactDelay attempt.toNat + k) config.maxDelayMs.toNat ∨
        d.toNat = max (config.exactDelay attempt.toNat - k)
          (min config.baseDelayMs.toNat (config.exactDelay attempt.toNat)) := by
  obtain ⟨first, second, rfl⟩ := (possible_equal h).mp hd
  refine ⟨_, offset_le _ first, ?_⟩
  rw [toNat_equalDelay]
  split
  · exact Or.inl rfl
  · exact Or.inr rfl

end Equal

theorem bounded_of_possible {config : RetryConfig} {attempt : UInt32} {d : UInt64}
    (hd : config.Possible attempt d) : d ≤ config.maxDelayMs := by
  have hle := exactDelay_le config attempt.toNat
  rw [UInt64.le_iff_toNat_le]
  cases h : config.jitterPolicy with
  | full =>
    obtain ⟨seed, rfl⟩ := (possible_full h).mp hd
    rw [toNat_fullDelay]
    exact Nat.min_le_right _ _
  | equal =>
    obtain ⟨k, _, hvalue | hvalue⟩ := cases_of_possible h hd
    · omega
    · omega
  | none => rwa [(possible_none h).mp hd]

section Policies

variable {config : RetryConfig} {attempt : UInt32}

theorem delaysAsDocumented_full (h : config.jitterPolicy = .full) :
    config.DelaysAsDocumented attempt := by
  have hle := exactDelay_le config attempt.toNat
  refine ⟨fun _ _ => succeeds_delayForAttempt config attempt, fun _ => bounded_of_possible,
    ?_, ?_, ?_, ?_, ?_⟩
  · intro hnone
    cases h.symm.trans hnone
  · intro _ d hd
    obtain ⟨seed, rfl⟩ := (possible_full h).mp hd
    have hjitter : seed.toNat % (config.baseDelayMs.toNat / 2 + 1) <
        config.baseDelayMs.toNat / 2 + 1 := Nat.mod_lt _ (Nat.succ_pos _)
    rw [toNat_fullDelay]
    omega
  all_goals
    intro hequal
    cases h.symm.trans hequal

/-- Without jitter the delays are as documented exactly when they do not fall. -/
theorem delaysAsDocumented_none (h : config.jitterPolicy = .none) :
    config.DelaysAsDocumented attempt ↔ ¬ config.Collapses attempt := by
  rw [← exactDelay_mono_iff]
  constructor
  · intro hdocumented later hlater
    have hvalue (n : UInt32) : ∃ d, config.Possible n d ∧ d.toNat = config.exactDelay n.toNat := by
      have hlt := (exactDelay_le config n.toNat).trans_lt config.maxDelayMs.toNat_lt
      have hexact := Word.toNat_ofNat64 hlt
      exact ⟨_, (possible_none h).mpr hexact, hexact⟩
    obtain ⟨d, hd, hdelay⟩ := hvalue attempt
    obtain ⟨d', hd', hdelay'⟩ := hvalue later
    have hmono := hdocumented.monotone h later hlater d d' hd hd'
    rwa [UInt64.le_iff_toNat_le, hdelay, hdelay'] at hmono
  · intro hmono
    refine ⟨fun _ _ => succeeds_delayForAttempt config attempt, fun _ => bounded_of_possible,
      ?_, ?_, ?_, ?_, ?_⟩
    · intro _ later hlater d d' hd hd'
      rw [UInt64.le_iff_toNat_le, (possible_none h).mp hd, (possible_none h).mp hd']
      exact hmono later hlater
    · intro hfull
      cases h.symm.trans hfull
    all_goals
      intro hequal
      cases h.symm.trans hequal

theorem balanced_of_delaysAsDocumented (h : config.jitterPolicy = .equal)
    (hdocumented : config.DelaysAsDocumented attempt) : config.Balanced attempt := by
  have hle := exactDelay_le config attempt.toNat
  dsimp only [Balanced]
  rcases Nat.lt_or_ge (config.exactDelay attempt.toNat) 4 with hshort | hroom
  · exact Or.inl hshort
  refine Or.inr ⟨?_, ?_⟩
  · obtain ⟨d, hd, hlow⟩ := hdocumented.below h hroom
    obtain ⟨k, _, hvalue | hvalue⟩ := cases_of_possible h hd
    · omega
    · omega
  · rcases Nat.lt_or_ge 5 (config.exactDelay attempt.toNat) with hlong | hshort
    · -- the first offset beyond a quarter of the delay
      have hoffset : config.exactDelay attempt.toNat / 4 + 1 ≤
          config.exactDelay attempt.toNat / 2 - 1 := by omega
      obtain ⟨d, hd, hhigh⟩ := possible_above h hoffset
      obtain ⟨d', hd', hlow⟩ := possible_below h hoffset
      have hband := hdocumented.equal h d hd
      have hband' := hdocumented.equal h d' hd'
      exact Or.inr ⟨by omega, by omega⟩
    · exact Or.inl hshort

theorem delaysAsDocumented_equal (h : config.jitterPolicy = .equal) :
    config.DelaysAsDocumented attempt ↔ config.Balanced attempt := by
  have hle := exactDelay_le config attempt.toNat
  refine ⟨balanced_of_delaysAsDocumented h, ?_⟩
  intro hbalanced
  dsimp only [Balanced] at hbalanced
  refine ⟨fun _ _ => succeeds_delayForAttempt config attempt, fun _ => bounded_of_possible,
    ?_, ?_, ?_, ?_, ?_⟩
  · intro hnone
    cases h.symm.trans hnone
  · intro hfull
    cases h.symm.trans hfull
  · intro _ d hd
    obtain ⟨k, hk, hvalue | hvalue⟩ := cases_of_possible h hd
    · omega
    · omega
  · intro _ hroom hmax
    have hone : 1 ≤ config.exactDelay attempt.toNat / 2 - 1 := by omega
    obtain ⟨d, hd, hvalue⟩ := possible_above h hone
    exact ⟨d, hd, by omega⟩
  · intro _ hroom
    have hone : 1 ≤ config.exactDelay attempt.toNat / 2 - 1 := by omega
    obtain ⟨d, hd, hvalue⟩ := possible_below h hone
    exact ⟨d, hd, by omega⟩

end Policies

/-- The delays of an attempt are as documented exactly when its jitter is. -/
theorem delays_as_documented_iff (config : RetryConfig) (attempt : UInt32) :
    config.DelaysAsDocumented attempt ↔ config.JitterAsDocumented attempt := by
  unfold JitterAsDocumented
  cases h : config.jitterPolicy with
  | full => exact iff_of_true (delaysAsDocumented_full h) trivial
  | none => exact delaysAsDocumented_none h
  | equal => exact delaysAsDocumented_equal h

/-- Equal jitter moves the first delay of 100 by 49. -/
theorem equal_jitter_beyond_quarter :
    ¬ DelaysAsDocumented ⟨3, 100, 5000, 2, .exponential, .equal⟩ 0 := by
  intro h
  have hdrawn : Possible ⟨3, 100, 5000, 2, .exponential, .equal⟩ 0 149 :=
    ⟨MockJitterSource, inferInstance, .new [49, 0], ⟨[49, 0], 2⟩, by rfl⟩
  have hband := (h.equal rfl 149 hdrawn).1
  exact absurd hband (by decide)

end RetryConfig

end Retry

end AnchorKit
