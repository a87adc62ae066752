import AnchorKit.Access
import AnchorKit.Library.Binary32

/-!
# Reputation of anchors

The admin keeps counters of what an anchor did, and weights for them. The composite score is
computed in single precision, which keeps the order of the rates it combines.
-/

namespace AnchorKit

open Fallible

structure AnchorReputationRecord where
  anchor : Address
  totalRouted : UInt64
  successfulRouted : UInt64
  operatorQualityScore : UInt32
  uptimeTicks : UInt64
  totalTicks : UInt64
  updatedAt : UInt64
deriving DecidableEq, Repr

/-- Weights in thousandths. -/
structure ReputationWeights where
  successRateWeight : UInt32
  uptimeWeight : UInt32
  operatorQualityWeight : UInt32
deriving DecidableEq, Repr

structure ReputationStore where
  record : KeyedStore Address AnchorReputationRecord
  weights : Option ReputationWeights

namespace ReputationWeights

def defaultWeights : ReputationWeights := ⟨400, 350, 250⟩

def isValid (w : ReputationWeights) : Bool :=
  ((Word.checkedAdd32 w.successRateWeight w.uptimeWeight).bind fun s =>
    Word.checkedAdd32 s w.operatorQualityWeight) = some 1000

/-- A rate in single precision, which is one where nothing was counted yet. -/
def rate (part total : UInt64) : ℚ :=
  if total = 0 then 1
  else Binary32.div (Binary32.ofNat (min part total).toNat) (Binary32.ofNat total.toNat)

def qualityRate (score : UInt32) : ℚ :=
  Binary32.div (Binary32.ofNat (min score 10000).toNat) 10000

def combine (w : ReputationWeights) (successRate uptimeRate operatorQualityRate : ℚ) : ℚ :=
  let scaled (weight : UInt32) : ℚ := Binary32.div (Binary32.ofNat weight.toNat) 1000
  Binary32.add
    (Binary32.add (Binary32.mul (scaled w.successRateWeight) successRate)
      (Binary32.mul (scaled w.uptimeWeight) uptimeRate))
    (Binary32.mul (scaled w.operatorQualityWeight) operatorQualityRate)

def computeComposite (w : ReputationWeights) (record : AnchorReputationRecord) : ℕ :=
  let composite := w.combine (rate record.successfulRouted record.totalRouted)
    (rate record.uptimeTicks record.totalTicks) (qualityRate record.operatorQualityScore)
  (Binary32.mul (Binary32.clamp composite 0 1) (10000 : ℕ)).floor.toNat

end ReputationWeights

def setAnchorReputation (env : Env) (s : Storage) (st : ReputationStore) (anchor : Address)
    (totalRouted successfulRouted : UInt64) (operatorQualityScore : UInt32)
    (uptimeTicks totalTicks : UInt64) : Except Panic ReputationStore := do
  requireAdmin env s
  require (successfulRouted ≤ totalRouted) (.withError .validationError)
  require (operatorQualityScore ≤ 10000) (.withError .validationError)
  let record : AnchorReputationRecord :=
    { anchor, totalRouted, successfulRouted, operatorQualityScore, uptimeTicks, totalTicks,
      updatedAt := env.timestamp }
  return { st with record := st.record.set anchor record }

def setReputationWeights (env : Env) (s : Storage) (st : ReputationStore)
    (successRateWeight uptimeWeight operatorQualityWeight : UInt32) :
    Except Panic ReputationStore := do
  requireAdmin env s
  let weights : ReputationWeights := { successRateWeight, uptimeWeight, operatorQualityWeight }
  require (weights.isValid = true) (.withError .invalidWeights)
  return { st with weights := some weights }

namespace ReputationStore

def getAnchorReputation (st : ReputationStore) (anchor : Address) :
    Option AnchorReputationRecord := st.record.get anchor

def getReputationWeights (st : ReputationStore) : ReputationWeights :=
  st.weights.getD .defaultWeights

def getAnchorCompositeReputation (st : ReputationStore) (anchor : Address) : ℕ :=
  match st.getAnchorReputation anchor with
  | some record => st.getReputationWeights.computeComposite record
  | none => 0

end ReputationStore

/-- What a sort of the scored anchors compares: scores from the highest down, then XDR bytes. -/
def rankOrder (a b : ℕ × Bytes × Address) : Ordering :=
  (compare b.1 a.1).then (compare a.2.1 b.2.1)

def rankAnchorsByReputation (host : Host) (toXdr : Address → Bytes) (s : Storage)
    (st : ReputationStore) : List Address :=
  let scored := s.anchors.list.map fun anchor =>
    (st.getAnchorCompositeReputation anchor, toXdr anchor, anchor)
  (host.unstableSort.sort (fun a b => rankOrder a b ≠ .gt) scored).map fun entry => entry.2.2

/-! ### The composite score -/

namespace ReputationWeights

def exactRate (part total : UInt64) : ℚ :=
  if total = 0 then 1 else ((min part total).toNat : ℚ) / total.toNat

/-- One record is at least as good as another one in each of the three signals. -/
structure AtLeastAsGood (r r' : AnchorReputationRecord) : Prop where
  success : exactRate r'.successfulRouted r'.totalRouted ≤
    exactRate r.successfulRouted r.totalRouted
  uptime : exactRate r'.uptimeTicks r'.totalTicks ≤ exactRate r.uptimeTicks r.totalTicks
  quality : r'.operatorQualityScore ≤ r.operatorQualityScore

/-- The counters are below two to the power of 24, so that single precision holds them exactly. -/
def Exact (r : AnchorReputationRecord) : Prop :=
  r.totalRouted.toNat < 2 ^ 24 ∧ r.totalTicks.toNat < 2 ^ 24

variable {w : ReputationWeights} {part total part' total' : UInt64}

theorem rate_eq (h : total.toNat < 2 ^ 24) :
    rate part total = Binary32.round (exactRate part total) := by
  unfold rate exactRate
  by_cases hzero : total = 0
  · rw [if_pos hzero, if_pos hzero, Binary32.round_one]
  · have hmin : (min part total).toNat < 2 ^ 24 := by
      rw [Word.toNat_min64]
      omega
    rw [if_neg hzero, if_neg hzero, Binary32.ofNat_eq hmin, Binary32.ofNat_eq h]
    rfl

theorem rate_mono (h : total.toNat < 2 ^ 24) (h' : total'.toNat < 2 ^ 24)
    (hle : exactRate part' total' ≤ exactRate part total) :
    rate part' total' ≤ rate part total := by
  rw [rate_eq h, rate_eq h']
  exact Binary32.round_mono hle

theorem qualityRate_mono {score score' : UInt32} (h : score' ≤ score) :
    qualityRate score' ≤ qualityRate score := by
  refine Binary32.div_mono (by norm_num) (Binary32.ofNat_mono ?_)
  rw [UInt32.le_iff_toNat_le] at h
  have := Word.toNat_min32 score 10000
  have := Word.toNat_min32 score' 10000
  omega

theorem combine_mono {a b c a' b' c' : ℚ} (ha : a' ≤ a) (hb : b' ≤ b) (hc : c' ≤ c) :
    w.combine a' b' c' ≤ w.combine a b c := by
  have hscaled (weight : UInt32) : 0 ≤ Binary32.div (Binary32.ofNat weight.toNat) 1000 :=
    Binary32.zero_le_div (Binary32.ofNat_nonneg _) (by norm_num)
  exact Binary32.add_mono
    (Binary32.add_mono (Binary32.mul_mono (hscaled _) ha) (Binary32.mul_mono (hscaled _) hb))
    (Binary32.mul_mono (hscaled _) hc)

theorem computeComposite_le (w : ReputationWeights) (record : AnchorReputationRecord) :
    w.computeComposite record ≤ 10000 :=
  Binary32.floor_mul_le (by norm_num) (Binary32.clamp_bounds zero_le_one).2

/-- Rounding does not turn a better record into a lower score. -/
theorem computeComposite_mono {r r' : AnchorReputationRecord} (hr : Exact r) (hr' : Exact r')
    (h : AtLeastAsGood r r') : w.computeComposite r' ≤ w.computeComposite r := by
  have hcombined := w.combine_mono (rate_mono hr.1 hr'.1 h.success) (rate_mono hr.2 hr'.2 h.uptime)
    (qualityRate_mono h.quality)
  have hclamped := Binary32.clamp_mono zero_le_one hcombined
  have hscaled := Binary32.round_mono
    (mul_le_mul_of_nonneg_right hclamped (Nat.cast_nonneg (10000 : ℕ)))
  exact Int.toNat_le_toNat (Rat.floor_monotone hscaled)

end ReputationWeights

end AnchorKit
