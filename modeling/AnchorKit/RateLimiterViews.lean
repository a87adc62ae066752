import AnchorKit.BurstControl
import AnchorKit.SubmissionQuota

/-!
# Views of the rate limiter

Two entry points report whether an attestor has used up its submissions. Both read the global
configuration, and each has its own idea of when a window has expired; the limiter asks for the
attestor's own configuration and lets the admin through.
-/

namespace AnchorKit

open Fallible RateLimiter

structure RateLimiterHealth where
  attestor : Address
  submissionCount : UInt32
  maxSubmissions : UInt32
  windowLength : UInt32
  windowStartLedger : UInt32
  isThrottled : Bool
deriving DecidableEq, Repr

structure RateLimiterDiagnostics where
  attestor : Address
  submissionCount : UInt32
  windowStartLedger : UInt32
  maxSubmissions : UInt32
  windowLength : UInt32
  isAtLimit : Bool
  checkedAt : UInt64
deriving DecidableEq, Repr

/-- The health report's own test for the end of a window. -/
def healthWindowExpired (config : RateLimitConfig) (state : RateLimitState)
    (currentLedger : UInt32) : Bool :=
  Word.saturatingAdd32 state.windowStartLedger config.windowLength ≤ currentLedger

def getRateLimiterHealth (env : Env) (s : Storage) (attestor : Address) : RateLimiterHealth :=
  let config := getConfig s
  let state := storedState s attestor env.sequence
  let windowExpired := healthWindowExpired config state env.sequence
  let effectiveCount := if windowExpired then 0 else state.submissionCount
  { attestor
    submissionCount := effectiveCount
    maxSubmissions := config.maxSubmissions
    windowLength := config.windowLength
    windowStartLedger := state.windowStartLedger
    isThrottled := !windowExpired && config.maxSubmissions ≤ effectiveCount }

def getRateLimiterDiagnostics (env : Env) (s : Storage) (attestor : Address) :
    RateLimiterDiagnostics :=
  let config := getConfig s
  let state := storedState s attestor env.sequence
  { attestor
    submissionCount := state.submissionCount
    windowStartLedger := state.windowStartLedger
    maxSubmissions := config.maxSubmissions
    windowLength := config.windowLength
    isAtLimit := config.maxSubmissions ≤ state.submissionCount
    checkedAt := env.timestamp }

/-- The limiter turns away the attestor's next single submission. -/
def Rejects (env : Env) (s : Storage) (attestor : Address) : Prop :=
  ∃ s' e, checkAndIncrement env s attestor (effectiveConfig s attestor) = .ok (s', .error e)

structure ViewsExact (env : Env) (s : Storage) (attestor : Address) : Prop where
  health : (getRateLimiterHealth env s attestor).isThrottled = true ↔ Rejects env s attestor
  diagnostics : (getRateLimiterDiagnostics env s attestor).isAtLimit = true ↔
    Rejects env s attestor

def OwnWindowExpired (env : Env) (s : Storage) (attestor : Address) : Prop :=
  isWindowExpired env.sequence (storedState s attestor env.sequence).windowStartLedger
    (effectiveConfig s attestor).windowLength = true

/-- The stored count tells the same under the global and under the attestor's own configuration,
and the views see the end of the window that the limiter sees. -/
def LimitsAgree (env : Env) (s : Storage) (attestor : Address) : Prop :=
  let state := storedState s attestor env.sequence
  if (getConfig s).maxSubmissions ≤ state.submissionCount then
    s.access.admin ≠ some attestor ∧
      (effectiveConfig s attestor).maxSubmissions ≤ state.submissionCount ∧
      ¬ OwnWindowExpired env s attestor ∧
      healthWindowExpired (getConfig s) state env.sequence = false
  else
    s.access.admin = some attestor ∨
      state.submissionCount < (effectiveConfig s attestor).maxSubmissions ∨
      OwnWindowExpired env s attestor

section Views

variable {env : Env} {s : Storage} {attestor : Address}

theorem admitsOne_iff (hsound : s.rateLimits.Sound) : AdmitsOne env s attestor ↔
    (storedState s attestor env.sequence).submissionCount <
        (effectiveConfig s attestor).maxSubmissions ∨ OwnWindowExpired env s attestor := by
  unfold AdmitsOne openWindow rollWindow OwnWindowExpired
  split
  · rename_i hexpired
    refine iff_of_true ?_ (.inr hexpired)
    have hvalid := (valid_effectiveConfig hsound attestor).1
    exact UInt32.pos_iff_ne_zero.mpr hvalid
  · rename_i hopen
    rw [or_iff_left hopen]

theorem rejects_iff (hsound : s.rateLimits.Sound) : Rejects env s attestor ↔
    s.access.admin ≠ some attestor ∧
      (effectiveConfig s attestor).maxSubmissions ≤
        (storedState s attestor env.sequence).submissionCount ∧
      ¬ OwnWindowExpired env s attestor := by
  have hadmits : (s.access.admin ≠ some attestor ∧ ¬ AdmitsOne env s attestor) ↔
      s.access.admin ≠ some attestor ∧
        (effectiveConfig s attestor).maxSubmissions ≤
          (storedState s attestor env.sequence).submissionCount ∧
        ¬ OwnWindowExpired env s attestor := by
    rw [admitsOne_iff hsound, not_or, UInt32.not_lt]
  rw [← hadmits]
  constructor
  · intro h
    obtain ⟨s', e, hcheck⟩ := h
    have hadmin := ne_admin_of_error hcheck
    refine ⟨hadmin, fun hroom => ?_⟩
    rw [checkAndIncrement_plain hadmin hsound.noBurst hsound.noFairness,
      if_neg (UInt32.not_le.mpr hroom)] at hcheck
    cases hcheck
  · intro h
    obtain ⟨hadmin, hfull⟩ := h
    refine ⟨s, windowExhausted, ?_⟩
    rw [checkAndIncrement_plain hadmin hsound.noBurst hsound.noFairness,
      if_pos (UInt32.not_lt.mp hfull)]

theorem isThrottled_iff : (getRateLimiterHealth env s attestor).isThrottled = true ↔
    healthWindowExpired (getConfig s) (storedState s attestor env.sequence) env.sequence = false ∧
      (getConfig s).maxSubmissions ≤ (storedState s attestor env.sequence).submissionCount := by
  rw [getRateLimiterHealth]
  cases healthWindowExpired (getConfig s) (storedState s attestor env.sequence) env.sequence with
  | true => exact iff_of_false Bool.false_ne_true (nofun)
  | false =>
    rw [Bool.not_false, Bool.true_and, decide_eq_true_iff, if_neg Bool.false_ne_true,
      and_iff_right rfl]

theorem isAtLimit_iff : (getRateLimiterDiagnostics env s attestor).isAtLimit = true ↔
    (getConfig s).maxSubmissions ≤ (storedState s attestor env.sequence).submissionCount :=
  decide_eq_true_iff

end Views

/-- In every reachable state the views are exact where the limits agree, and only there. -/
theorem views_exact_iff (host : Host) (is : List Input) (env : Env) (attestor : Address) :
    ViewsExact env (run host is) attestor ↔ LimitsAgree env (run host is) attestor := by
  have hsound := limits_sound_run host is
  have hviews : ViewsExact env (run host is) attestor ↔
      ((getRateLimiterHealth env (run host is) attestor).isThrottled = true ↔
        Rejects env (run host is) attestor) ∧
      ((getRateLimiterDiagnostics env (run host is) attestor).isAtLimit = true ↔
        Rejects env (run host is) attestor) := ⟨fun h => ⟨h.1, h.2⟩, fun h => ⟨h.1, h.2⟩⟩
  rw [hviews, isThrottled_iff, isAtLimit_iff, rejects_iff hsound, LimitsAgree]
  split
  · rename_i hfull
    rw [and_iff_left hfull, iff_true_left hfull]
    constructor
    · intro h
      obtain ⟨hhealth, hadmin, hown, hopen⟩ := h
      exact ⟨hadmin, hown, hopen, hhealth.mpr ⟨hadmin, hown, hopen⟩⟩
    · intro h
      obtain ⟨hadmin, hown, hopen, hhealth⟩ := h
      exact ⟨iff_of_true hhealth ⟨hadmin, hown, hopen⟩, hadmin, hown, hopen⟩
  · rename_i hroom
    constructor
    · intro h
      by_contra hnot
      obtain ⟨hadmin, hnot⟩ := not_or.mp hnot
      obtain ⟨hown, hopen⟩ := not_or.mp hnot
      exact hroom (h.2.mpr ⟨hadmin, UInt32.not_lt.mp hown, hopen⟩)
    · intro h
      have hadmitted : ¬ ((run host is).access.admin ≠ some attestor ∧
          (effectiveConfig (run host is) attestor).maxSubmissions ≤
            (storedState (run host is) attestor env.sequence).submissionCount ∧
          ¬ OwnWindowExpired env (run host is) attestor) := by
        intro hreject
        obtain ⟨hadmin, hown, hopen⟩ := hreject
        rcases h with hbypass | hbelow | hexpired
        · exact hadmin hbypass
        · exact UInt32.not_le.mpr hbelow hown
        · exact hopen hexpired
      exact ⟨iff_of_false (fun hhealth => hroom hhealth.2) hadmitted,
        iff_of_false hroom hadmitted⟩

namespace Demo

/-- `alice` uses up its window with a batch of two. -/
def fullBatch : List Input :=
  [deploy, openSession, sessionRegister alice 1,
    onLedger 1 (.submitAttestationBatch alice [attestation alice 1 7, attestation alice 1 8])]

end Demo

/-- The diagnostics go on after the window has ended. -/
theorem diagnostics_outlast_window : ¬ ∀ (host : Host) (is : List Input) (env : Env)
    (attestor : Address), ViewsExact env (run host is) attestor := by
  intro h
  have hviews := h Demo.host Demo.fullBatch ⟨1000, 200, []⟩ Demo.alice
  have hrejects := hviews.diagnostics.mp (by decide)
  obtain ⟨-, -, hopen⟩ := (rejects_iff (limits_sound_run Demo.host Demo.fullBatch)).mp hrejects
  exact hopen (show isWindowExpired _ _ _ = true by decide)

end AnchorKit
