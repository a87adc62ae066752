import AnchorKit.Registry
import AnchorKit.Library.Machine
import Mathlib.Data.List.DropRight

/-!
# Health of anchors

Monitors report single calls or whole windows of calls. The counters of an anchor add up what was
reported since they were last reset, and the latest windows are kept for a score. No other entry
point writes these records, so the rest of the storage is an input here.
-/

namespace AnchorKit

open Fallible

structure AnchorHealthMetrics where
  anchor : Address
  successCount : UInt64
  failureCount : UInt64
  totalCalls : UInt64
  uptimeBps : UInt32
  lastEventAt : UInt64
deriving DecidableEq, Repr

structure AnchorHealthWindow where
  startedAt : UInt64
  endedAt : UInt64
  successCount : UInt64
  failureCount : UInt64
  p50LatencyMsX10 : UInt64
  routingAttemptCount : UInt64
  routingFailureCount : UInt64
  recoveryTimeSeconds : UInt64
deriving DecidableEq, Repr

def AnchorHealthWindow.Fits (w : AnchorHealthWindow) : Prop :=
  w.successCount.toNat + w.failureCount.toNat < 2 ^ 64

inductive HealthTrendDirection
  | improving
  | stable
  | degrading
deriving DecidableEq, Repr

structure AnchorHealthScore where
  anchor : Address
  compositeBps : UInt32
  successRateBps : UInt32
  latencyBps : UInt32
  routingBps : UInt32
  recoveryBps : UInt32
  trend : HealthTrendDirection
  previousCompositeBps : UInt32
  scoredAt : UInt64
  windowCount : UInt32
deriving DecidableEq, Repr

structure AnchorHealthScore.InRange (score : AnchorHealthScore) : Prop where
  composite : score.compositeBps.toNat ≤ 10000
  successRate : score.successRateBps.toNat ≤ 10000
  latency : score.latencyBps.toNat ≤ 10000
  routing : score.routingBps.toNat ≤ 10000
  recovery : score.recoveryBps.toNat ≤ 10000
  previous : score.previousCompositeBps.toNat ≤ 10000

structure HealthStore where
  metrics : KeyedStore Address AnchorHealthMetrics
  windows : KeyedStore Address (List AnchorHealthWindow)

namespace HealthStore

def maxHealthWindows : ℕ := 24

def empty : HealthStore := ⟨.empty, .empty⟩

def shareBps (count total : UInt64) : UInt32 :=
  if total = 0 then 0 else (Word.saturatingMul64 count 10000 / total).toUInt32

def getAnchorHealth (store : HealthStore) (anchor : Address) : AnchorHealthMetrics :=
  (store.metrics.get anchor).getD
    { anchor, successCount := 0, failureCount := 0, totalCalls := 0, uptimeBps := 0,
      lastEventAt := 0 }

def getAnchorHealthWindows (store : HealthStore) (anchor : Address) : List AnchorHealthWindow :=
  (store.windows.get anchor).getD []

def count (env : Env) (store : HealthStore) (anchor : Address) (successes failures : UInt64) :
    Except Panic HealthStore := do
  let metrics := store.getAnchorHealth anchor
  let successCount ← add64 metrics.successCount successes
  let failureCount ← add64 metrics.failureCount failures
  let totalCalls ← add64 successCount failureCount
  return { store with
    metrics := store.metrics.set anchor { metrics with
      successCount, failureCount, totalCalls, uptimeBps := shareBps successCount totalCalls
      lastEventAt := env.timestamp } }

def recordHealthEvent (env : Env) (s : Storage) (store : HealthStore) (anchor : Address)
    (success : Bool) : Except Panic HealthStore := do
  requireAdmin env s
  anchor.requireAuth (env.spendAdmin s)
  checkAttestor s anchor
  if success then store.count env anchor 1 0 else store.count env anchor 0 1

def pushWindow (windows : List AnchorHealthWindow) (window : AnchorHealthWindow) :
    List AnchorHealthWindow :=
  (if maxHealthWindows ≤ windows.length then windows.drop 1 else windows) ++ [window]

def recordHealthWindow (env : Env) (s : Storage) (store : HealthStore) (anchor : Address)
    (window : AnchorHealthWindow) : Except Panic HealthStore := do
  requireAdmin env s
  let windows := pushWindow (store.getAnchorHealthWindows anchor) window
  let store := { store with windows := store.windows.set anchor windows }
  store.count env anchor window.successCount window.failureCount

/-- The counters start again at zero; the windows stay. -/
def resetAnchorHealth (env : Env) (s : Storage) (store : HealthStore) (anchor : Address) :
    Except Panic HealthStore := do
  requireAdmin env s
  return { store with
    metrics := store.metrics.set anchor
      { anchor, successCount := 0, failureCount := 0, totalCalls := 0, uptimeBps := 0
        lastEventAt := env.timestamp } }

/-! ### The score -/

/-- Full marks up to the target, none from the ceiling on, and a straight line between them. -/
def linearBps (target ceiling value : UInt64) : Except Panic UInt32 := do
  let range ← sub64 ceiling target
  let above ← sub64 value target
  return min (Word.saturatingSub64 10000 (Word.saturatingMul64 above 10000 / range)).toUInt32 10000

def successRateBps (w : AnchorHealthWindow) : Except Panic UInt32 := do
  let total ← add64 w.successCount w.failureCount
  return shareBps w.successCount total

/-- A window without measurements is neutral. -/
def latencyBps (w : AnchorHealthWindow) : Except Panic UInt32 :=
  if w.p50LatencyMsX10 = 0 then .ok 5000
  else if w.p50LatencyMsX10 ≤ 5000 then .ok 10000
  else if 100000 ≤ w.p50LatencyMsX10 then .ok 0
  else linearBps 5000 100000 w.p50LatencyMsX10

def routingBps (w : AnchorHealthWindow) : Except Panic UInt32 :=
  if w.routingAttemptCount = 0 then .ok 10000
  else do
    let failures := min w.routingFailureCount w.routingAttemptCount
    let routed ← sub64 w.routingAttemptCount failures
    return (Word.saturatingMul64 routed 10000 / w.routingAttemptCount).toUInt32

def recoveryBps (w : AnchorHealthWindow) : Except Panic UInt32 :=
  if w.recoveryTimeSeconds = 0 then .ok 10000
  else if w.recoveryTimeSeconds ≤ 60 then .ok 10000
  else if 3600 ≤ w.recoveryTimeSeconds then .ok 0
  else linearBps 60 3600 w.recoveryTimeSeconds

/-- The scores of a window for each signal. -/
structure SubScores where
  successRate : UInt32
  latency : UInt32
  routing : UInt32
  recovery : UInt32

def scoreOne (w : AnchorHealthWindow) : Except Panic SubScores := do
  let successRate ← successRateBps w
  let latency ← latencyBps w
  let routing ← routingBps w
  let recovery ← recoveryBps w
  return { successRate, latency, routing, recovery }

def compositeFrom (scores : SubScores) : Except Panic UInt32 := do
  let successRate ← mul64 scores.successRate.toUInt64 40
  let latency ← mul64 scores.latency.toUInt64 25
  let sum ← add64 successRate latency
  let routing ← mul64 scores.routing.toUInt64 20
  let sum ← add64 sum routing
  let recovery ← mul64 scores.recovery.toUInt64 15
  let sum ← add64 sum recovery
  return sum.toUInt32 / 100

def trendThresh : UInt32 := 150

/-- The subtractions are guarded by the comparisons before them. -/
def trendBetween (previous composite : UInt32) : HealthTrendDirection :=
  if previous < composite ∧ trendThresh < composite - previous then .improving
  else if composite < previous ∧ trendThresh < previous - composite then .degrading
  else .stable

def getAnchorHealthScore (env : Env) (store : HealthStore) (anchor : Address) :
    Except Panic AnchorHealthScore :=
  let windows := store.getAnchorHealthWindows anchor
  match windows.reverse with
  | [] => .ok {
      anchor, compositeBps := 0, successRateBps := 0, latencyBps := 0, routingBps := 0
      recoveryBps := 0, trend := .stable, previousCompositeBps := 0, scoredAt := env.timestamp
      windowCount := 0 }
  | latest :: earlier => do
    let scores ← scoreOne latest
    let compositeBps ← compositeFrom scores
    let (trend, previousCompositeBps) ← match earlier with
      | [] => pure (HealthTrendDirection.stable, (0 : UInt32))
      | previous :: _ => do
        let previousScores ← scoreOne previous
        let previousComposite ← compositeFrom previousScores
        pure (trendBetween previousComposite compositeBps, previousComposite)
    return {
      anchor, compositeBps, successRateBps := scores.successRate, latencyBps := scores.latency
      routingBps := scores.routing, recoveryBps := scores.recovery, trend, previousCompositeBps
      scoredAt := env.timestamp, windowCount := UInt32.ofNat windows.length }

/-! ### Counting -/

section Counting

variable {env : Env} {store store' : HealthStore} {anchor : Address}
  {successes failures count total : UInt64}

theorem toNat_shareBps (h : count.toNat ≤ total.toNat) : (shareBps count total).toNat =
    min (count.toNat * 10000) (2 ^ 64 - 1) / total.toNat := by
  have hten : (10000 : UInt64).toNat = 10000 := by decide
  unfold shareBps
  by_cases htotal : total = 0
  · rw [if_pos htotal, htotal]
    exact (Nat.div_zero _).symm
  · have hpos : 0 < total.toNat := by
      rw [Nat.pos_iff_ne_zero]
      exact fun hzero => htotal (UInt64.toNat_inj.mp hzero)
    have hbound : min (count.toNat * 10000) (2 ^ 64 - 1) / total.toNat ≤ 10000 := by
      apply Nat.div_le_of_le_mul
      have := Nat.mul_le_mul_right 10000 h
      omega
    rw [if_neg htotal, UInt64.toNat_toUInt32, UInt64.toNat_div, Word.toNat_saturatingMul64, hten,
      Nat.mod_eq_of_lt (by omega)]

theorem shareBps_le (h : count.toNat ≤ total.toNat) : (shareBps count total).toNat ≤ 10000 := by
  rw [toNat_shareBps h]
  apply Nat.div_le_of_le_mul
  have := Nat.mul_le_mul_right 10000 h
  omega

/-- The saturating product gives the exact share as long as the largest multiple of the total that
the exact product reaches is a word. -/
theorem shareBps_exact_iff (h : count.toNat ≤ total.toNat) :
    (shareBps count total).toNat = count.toNat * 10000 / total.toNat ↔
      count.toNat * 10000 / total.toNat * total.toNat < 2 ^ 64 := by
  rw [toNat_shareBps h]
  have hdown := Nat.div_mul_le_self (count.toNat * 10000) total.toNat
  by_cases hsmall : count.toNat * 10000 ≤ 2 ^ 64 - 1
  · rw [min_eq_left hsmall]
    exact iff_of_true rfl (by omega)
  · rw [min_eq_right (by omega)]
    have hcount := count.toNat_lt
    have hpos : 0 < total.toNat := by omega
    constructor
    · intro heq
      rw [← heq]
      have := Nat.div_mul_le_self (2 ^ 64 - 1) total.toNat
      omega
    · intro hfits
      apply Nat.le_antisymm
      · exact Nat.div_le_div_right (by omega)
      · rw [Nat.le_div_iff_mul_le hpos]
        omega

def counted (env : Env) (store : HealthStore) (anchor : Address) (successes failures : UInt64) :
    AnchorHealthMetrics :=
  let metrics := store.getAnchorHealth anchor
  { metrics with
    successCount := metrics.successCount + successes
    failureCount := metrics.failureCount + failures
    totalCalls := metrics.successCount + successes + (metrics.failureCount + failures)
    uptimeBps := shareBps (metrics.successCount + successes)
      (metrics.successCount + successes + (metrics.failureCount + failures))
    lastEventAt := env.timestamp }

/-- The counters overflow as soon as their total does. -/
theorem count_eq : store.count env anchor successes failures =
    if (store.getAnchorHealth anchor).successCount.toNat + successes.toNat +
        ((store.getAnchorHealth anchor).failureCount.toNat + failures.toNat) < 2 ^ 64 then
      .ok { store with
        metrics := store.metrics.set anchor (store.counted env anchor successes failures) }
    else .error .arithmeticOverflow := by
  by_cases hs : (store.getAnchorHealth anchor).successCount.toNat + successes.toNat < 2 ^ 64
  · have hsuccesses : ((store.getAnchorHealth anchor).successCount + successes).toNat =
        (store.getAnchorHealth anchor).successCount.toNat + successes.toNat := by
      rw [UInt64.toNat_add, Nat.mod_eq_of_lt hs]
    by_cases hf : (store.getAnchorHealth anchor).failureCount.toNat + failures.toNat < 2 ^ 64
    · have hfailures : ((store.getAnchorHealth anchor).failureCount + failures).toNat =
          (store.getAnchorHealth anchor).failureCount.toNat + failures.toNat := by
        rw [UInt64.toNat_add, Nat.mod_eq_of_lt hf]
      rw [count, add64_of_lt hs, add64_of_lt hf]
      split
      · rename_i htotal
        rw [← hsuccesses, ← hfailures] at htotal
        change (add64 _ _ >>= _) = _
        rw [add64_of_lt htotal]
        rfl
      · rename_i htotal
        rw [← hsuccesses, ← hfailures] at htotal
        change (add64 _ _ >>= _) = _
        rw [add64_of_le (Nat.not_lt.mp htotal)]
        rfl
    · rw [count, add64_of_lt hs, add64_of_le (Nat.not_lt.mp hf)]
      split
      · omega
      · rfl
  · rw [count, add64_of_le (Nat.not_lt.mp hs)]
    split
    · omega
    · rfl

end Counting

/-! ### Scores stay in range -/

section Scoring

variable {env : Env} {store : HealthStore} {anchor : Address} {w : AnchorHealthWindow}
  {target ceiling value : UInt64} {scores : SubScores}

structure SubScores.InRange (scores : SubScores) : Prop where
  successRate : scores.successRate.toNat ≤ 10000
  latency : scores.latency.toNat ≤ 10000
  routing : scores.routing.toNat ≤ 10000
  recovery : scores.recovery.toNat ≤ 10000

theorem linearBps_in_range (hceiling : target ≤ ceiling) (hvalue : target ≤ value) :
    ∃ bps, linearBps target ceiling value = .ok bps ∧ bps.toNat ≤ 10000 := by
  refine ⟨_, bind_eq_ok.mpr ⟨_, sub64_of_le hceiling, bind_eq_ok.mpr
    ⟨_, sub64_of_le hvalue, rfl⟩⟩, ?_⟩
  rw [Word.toNat_min32]
  exact Nat.min_le_right _ _

theorem successRateBps_in_range (h : w.Fits) :
    ∃ bps, successRateBps w = .ok bps ∧ bps.toNat ≤ 10000 := by
  refine ⟨shareBps w.successCount (w.successCount + w.failureCount), ?_, shareBps_le ?_⟩
  · rw [successRateBps, add64_of_lt h]
    rfl
  · rw [UInt64.toNat_add, Nat.mod_eq_of_lt h]
    exact Nat.le_add_right _ _

/-- The scale that latency and recovery time share. -/
theorem graded_in_range {absent : UInt32} (habsent : absent.toNat ≤ 10000)
    (hceiling : target ≤ ceiling) :
    ∃ bps, (if value = 0 then .ok absent
        else if value ≤ target then .ok 10000
        else if ceiling ≤ value then .ok 0
        else linearBps target ceiling value : Except Panic UInt32) = .ok bps ∧
      bps.toNat ≤ 10000 := by
  split
  · exact ⟨absent, rfl, habsent⟩
  · split
    · exact ⟨10000, rfl, by decide⟩
    · rename_i hslow
      split
      · exact ⟨0, rfl, by decide⟩
      · exact linearBps_in_range hceiling (UInt64.le_of_lt (UInt64.not_le.mp hslow))

theorem latencyBps_in_range : ∃ bps, latencyBps w = .ok bps ∧ bps.toNat ≤ 10000 :=
  graded_in_range (by decide) (by decide)

theorem recoveryBps_in_range : ∃ bps, recoveryBps w = .ok bps ∧ bps.toNat ≤ 10000 :=
  graded_in_range (by decide) (by decide)

theorem routingBps_in_range : ∃ bps, routingBps w = .ok bps ∧ bps.toNat ≤ 10000 := by
  unfold routingBps
  split
  · exact ⟨10000, rfl, by decide⟩
  · rename_i hattempts
    have hmin : min w.routingFailureCount w.routingAttemptCount ≤ w.routingAttemptCount := by
      rw [UInt64.le_iff_toNat_le, Word.toNat_min64]
      exact Nat.min_le_right _ _
    have hshare : (w.routingAttemptCount -
        min w.routingFailureCount w.routingAttemptCount).toNat ≤ w.routingAttemptCount.toNat := by
      rw [UInt64.toNat_sub_of_le _ _ hmin]
      exact Nat.sub_le _ _
    have hrange := shareBps_le hshare
    rw [shareBps, if_neg hattempts] at hrange
    exact ⟨_, bind_eq_ok.mpr ⟨_, sub64_of_le hmin, rfl⟩, hrange⟩

theorem scoreOne_in_range (h : w.Fits) : ∃ scores, scoreOne w = .ok scores ∧ scores.InRange := by
  obtain ⟨successRate, hsuccess, hs⟩ := successRateBps_in_range h
  obtain ⟨latency, hlatency, hl⟩ := latencyBps_in_range (w := w)
  obtain ⟨routing, hrouting, hr⟩ := routingBps_in_range (w := w)
  obtain ⟨recovery, hrecovery, hc⟩ := recoveryBps_in_range (w := w)
  refine ⟨⟨successRate, latency, routing, recovery⟩, ?_, hs, hl, hr, hc⟩
  rw [scoreOne, hsuccess, hlatency, hrouting, hrecovery]
  rfl

theorem weighted {bps : UInt32} (weight : UInt64) (hbps : bps.toNat ≤ 10000)
    (hweight : weight.toNat ≤ 100) :
    ∃ part, mul64 bps.toUInt64 weight = .ok part ∧ part.toNat = bps.toNat * weight.toNat := by
  have hproduct := Nat.mul_le_mul hbps hweight
  have hvalue : (bps.toUInt64 * weight).toNat = bps.toNat * weight.toNat := by
    rw [UInt64.toNat_mul, UInt32.toNat_toUInt64, Nat.mod_eq_of_lt (by omega)]
  exact ⟨_, mul64_eq_ok.mpr (by rw [UInt32.toNat_toUInt64, hvalue]), hvalue⟩

theorem added {a b : UInt64} (h : a.toNat + b.toNat < 2 ^ 64) :
    ∃ sum, add64 a b = .ok sum ∧ sum.toNat = a.toNat + b.toNat := by
  refine ⟨_, add64_of_lt h, ?_⟩
  rw [UInt64.toNat_add, Nat.mod_eq_of_lt h]

theorem compositeFrom_in_range (h : scores.InRange) :
    ∃ bps, compositeFrom scores = .ok bps ∧ bps.toNat ≤ 10000 := by
  obtain ⟨hsuccess, hlatency, hrouting, hrecovery⟩ := h
  obtain ⟨successRate, hs, hsvalue⟩ := weighted 40 hsuccess (by decide)
  obtain ⟨latency, hl, hlvalue⟩ := weighted 25 hlatency (by decide)
  obtain ⟨routing, hr, hrvalue⟩ := weighted 20 hrouting (by decide)
  obtain ⟨recovery, hc, hcvalue⟩ := weighted 15 hrecovery (by decide)
  change successRate.toNat = _ * 40 at hsvalue
  change latency.toNat = _ * 25 at hlvalue
  change routing.toNat = _ * 20 at hrvalue
  change recovery.toNat = _ * 15 at hcvalue
  obtain ⟨first, hfirst, hfirstvalue⟩ := added (a := successRate) (b := latency) (by omega)
  obtain ⟨second, hsecond, hsecondvalue⟩ := added (a := first) (b := routing) (by omega)
  obtain ⟨sum, hsum, hsumvalue⟩ := added (a := second) (b := recovery) (by omega)
  refine ⟨sum.toUInt32 / 100, ?_, ?_⟩
  · rw [compositeFrom]
    exact bind_eq_ok.mpr ⟨_, hs, bind_eq_ok.mpr ⟨_, hl, bind_eq_ok.mpr ⟨_, hfirst,
      bind_eq_ok.mpr ⟨_, hr, bind_eq_ok.mpr ⟨_, hsecond, bind_eq_ok.mpr ⟨_, hc,
      bind_eq_ok.mpr ⟨_, hsum, rfl⟩⟩⟩⟩⟩⟩⟩
  · have hhundred : (100 : UInt32).toNat = 100 := by decide
    have hsmall : sum.toNat ≤ 1000000 := by omega
    rw [UInt32.toNat_div, UInt64.toNat_toUInt32, hhundred, Nat.mod_eq_of_lt (by omega)]
    omega

/-- When the calls of every stored window can be counted, the score can be computed. -/
theorem getAnchorHealthScore_in_range
    (h : ∀ w ∈ store.getAnchorHealthWindows anchor, w.Fits) :
    ∃ score, getAnchorHealthScore env store anchor = .ok score ∧ score.InRange := by
  have hzero : (0 : UInt32).toNat ≤ 10000 := by decide
  unfold getAnchorHealthScore
  dsimp only
  cases hwindows : (store.getAnchorHealthWindows anchor).reverse with
  | nil => exact ⟨_, rfl, ⟨hzero, hzero, hzero, hzero, hzero, hzero⟩⟩
  | cons latest earlier =>
    have hfit : ∀ w ∈ latest :: earlier, w.Fits := by
      intro w hw
      rw [← hwindows, List.mem_reverse] at hw
      exact h w hw
    obtain ⟨scores, hscores, hrange⟩ := scoreOne_in_range (hfit latest List.mem_cons_self)
    obtain ⟨composite, hcomposite, hcrange⟩ := compositeFrom_in_range hrange
    obtain ⟨hs, hl, hr, hc⟩ := hrange
    cases earlier with
    | nil =>
      exact ⟨_, bind_eq_ok.mpr ⟨_, hscores, bind_eq_ok.mpr ⟨_, hcomposite,
        bind_eq_ok.mpr ⟨_, rfl, rfl⟩⟩⟩, ⟨hcrange, hs, hl, hr, hc, hzero⟩⟩
    | cons previous rest =>
      obtain ⟨before, hbefore, hbrange⟩ := scoreOne_in_range (hfit previous (by simp))
      obtain ⟨old, hold, horange⟩ := compositeFrom_in_range hbrange
      exact ⟨_, bind_eq_ok.mpr ⟨_, hscores, bind_eq_ok.mpr ⟨_, hcomposite, bind_eq_ok.mpr ⟨_, hbefore,
        bind_eq_ok.mpr ⟨_, hold, rfl⟩⟩⟩⟩, ⟨hcrange, hs, hl, hr, hc, horange⟩⟩

/-- Pushing onto the latest windows leaves the latest windows. -/
theorem pushWindow_rtake {recorded : List AnchorHealthWindow} :
    pushWindow (recorded.rtake maxHealthWindows) w =
      (recorded ++ [w]).rtake maxHealthWindows := by
  have hlength : (recorded.rtake maxHealthWindows).length =
      min maxHealthWindows recorded.length := by
    rw [List.rtake, List.length_drop]
    omega
  rw [pushWindow, hlength, maxHealthWindows, List.rtake_concat_succ]
  congr 1
  split
  · rw [List.rtake, List.rtake, List.drop_drop]
    congr 1
    omega
  · rw [List.rtake, List.rtake]
    congr 1
    omega

end Scoring

end HealthStore

end AnchorKit
