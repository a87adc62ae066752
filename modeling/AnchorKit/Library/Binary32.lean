import Mathlib.Data.Rat.Floor
import Mathlib.Algebra.Order.Field.Basic
import Mathlib.Algebra.Order.Field.Power
import Mathlib.Tactic.FieldSimp
import Mathlib.Tactic.Linarith
import Mathlib.Tactic.NormNum
import Mathlib.Tactic.Positivity
import Mathlib.Tactic.Ring

/-!
# Rounding to single precision

Every operation rounds its exact result to 24 significant bits, ties to even. The exponent is
unbounded, so results are those of binary32 as long as none of them leaves its normal range.
Rounding keeps the order of values, and with it every operation that does.
-/

namespace Binary32

/-- The nearest integer, ties to even. -/
def roundInt (x : ℚ) : ℤ :=
  let k := x.floor
  if x - k < 1 / 2 then k
  else if 1 / 2 < x - k then k + 1
  else k + k % 2

/-- The exponent of the largest power of two that does not exceed `|x|`. -/
def exponent (x : ℚ) : ℤ :=
  let e : ℤ := Nat.log2 x.num.natAbs - Nat.log2 x.den
  if |x| < 2 ^ e then e - 1 else e

def round (x : ℚ) : ℚ :=
  if x = 0 then 0
  else
    let ulp : ℚ := 2 ^ (exponent x - 23)
    roundInt (x / ulp) * ulp

def ofNat (n : ℕ) : ℚ := round n

def add (x y : ℚ) : ℚ := round (x + y)

def sub (x y : ℚ) : ℚ := round (x - y)

def mul (x y : ℚ) : ℚ := round (x * y)

def div (x y : ℚ) : ℚ := round (x / y)

def clamp (x low high : ℚ) : ℚ := if x < low then low else if high < x then high else x

variable {x y z : ℚ}

/-! ### Rounding to integers -/

theorem roundInt_of_lt (h : x - x.floor < 1 / 2) : roundInt x = x.floor := if_pos h

theorem roundInt_of_gt (h : 1 / 2 < x - x.floor) : roundInt x = x.floor + 1 := by
  unfold roundInt
  rw [if_neg (not_lt_of_gt h), if_pos h]

theorem roundInt_of_eq (h : x - x.floor = 1 / 2) : roundInt x = x.floor + x.floor % 2 := by
  unfold roundInt
  dsimp only
  rw [h, if_neg (lt_irrefl _), if_neg (lt_irrefl _)]

theorem roundInt_bounds (x : ℚ) : x.floor ≤ roundInt x ∧ roundInt x ≤ x.floor + 1 := by
  rcases lt_trichotomy (x - x.floor) (1 / 2) with h | h | h
  · rw [roundInt_of_lt h]
    omega
  · rw [roundInt_of_eq h]
    omega
  · rw [roundInt_of_gt h]
    omega

@[simp] theorem roundInt_intCast (n : ℤ) : roundInt n = n := by
  simp [roundInt]

theorem roundInt_mono (h : x ≤ y) : roundInt x ≤ roundInt y := by
  have hx := roundInt_bounds x
  have hy := roundInt_bounds y
  rcases lt_or_eq_of_le (Rat.floor_monotone h) with hlt | heq
  · omega
  -- above one integer, the fractions are compared
  by_cases hlow : x - x.floor < 1 / 2
  · rw [roundInt_of_lt hlow]
    omega
  by_cases hhigh : 1 / 2 < y - y.floor
  · rw [roundInt_of_gt hhigh]
    omega
  · have hfloor : (x.floor : ℚ) = y.floor := congrArg Int.cast heq
    have hxy : x = y := by linarith
    rw [hxy]

theorem le_roundInt {n : ℤ} (h : (n : ℚ) ≤ x) : n ≤ roundInt x := by
  simpa using roundInt_mono h

theorem roundInt_le {n : ℤ} (h : x ≤ n) : roundInt x ≤ n := by
  simpa using roundInt_mono h

theorem floor_neg_of_ne (h : x ≠ x.floor) : (-x).floor = -x.floor - 1 := by
  have hle : (x.floor : ℚ) ≤ x := Rat.floor_le x
  have hlt : x < x.floor + 1 := by exact_mod_cast Rat.lt_floor_add_one x
  change ⌊-x⌋ = _
  refine Int.floor_eq_iff.mpr ⟨?_, ?_⟩
  · push_cast
    linarith
  · push_cast
    have := lt_of_le_of_ne hle (Ne.symm h)
    linarith

theorem roundInt_neg (x : ℚ) : roundInt (-x) = -roundInt x := by
  by_cases hint : x = x.floor
  · rw [hint, ← Int.cast_neg, roundInt_intCast, roundInt_intCast]
  have hfloor := floor_neg_of_ne hint
  have hfrac : -x - (-x).floor = 1 - (x - x.floor) := by
    rw [hfloor]
    push_cast
    ring
  rcases lt_trichotomy (x - x.floor) (1 / 2) with h | h | h
  · rw [roundInt_of_lt h, roundInt_of_gt (by linarith), hfloor]
    omega
  · rw [roundInt_of_eq h, roundInt_of_eq (by linarith), hfloor]
    omega
  · rw [roundInt_of_gt h, roundInt_of_lt (by linarith), hfloor]
    omega

/-! ### The exponent -/

/-- The power of two at the exponent is the largest one that does not exceed the value. -/
theorem exponent_spec (h : x ≠ 0) : (2 : ℚ) ^ exponent x ≤ |x| ∧ |x| < 2 ^ (exponent x + 1) := by
  have hden : (0 : ℚ) < x.den := by exact_mod_cast x.den_pos
  have hnum : x.num.natAbs ≠ 0 := Int.natAbs_ne_zero.mpr (Rat.num_ne_zero.mpr h)
  have habs : |x| * x.den = x.num.natAbs := by
    have := Rat.mul_den_eq_num x
    rw [Nat.cast_natAbs, Int.cast_abs, ← this, abs_mul, abs_of_pos hden]
  have hnlo : ((2 ^ x.num.natAbs.log2 : ℕ) : ℚ) ≤ x.num.natAbs :=
    Nat.cast_le.mpr (Nat.log2_self_le hnum)
  have hnhi : (x.num.natAbs : ℚ) < ((2 ^ (x.num.natAbs.log2 + 1) : ℕ) : ℚ) :=
    Nat.cast_lt.mpr Nat.lt_log2_self
  have hdlo : ((2 ^ x.den.log2 : ℕ) : ℚ) ≤ x.den := Nat.cast_le.mpr (Nat.log2_self_le x.den_ne_zero)
  have hdhi : (x.den : ℚ) < ((2 ^ (x.den.log2 + 1) : ℕ) : ℚ) := Nat.cast_lt.mpr Nat.lt_log2_self
  set a := x.num.natAbs.log2 with ha
  set b := x.den.log2 with hb
  push_cast at hnlo hnhi hdlo hdhi
  have hlow : (2 : ℚ) ^ ((a : ℤ) - b - 1) < |x| := by
    refine lt_of_mul_lt_mul_right ?_ hden.le
    rw [habs]
    calc (2 : ℚ) ^ ((a : ℤ) - b - 1) * x.den
        < 2 ^ ((a : ℤ) - b - 1) * 2 ^ (b + 1) := mul_lt_mul_of_pos_left hdhi (by positivity)
      _ = 2 ^ a := by
          rw [← zpow_natCast, ← zpow_natCast, ← zpow_add₀ two_ne_zero]
          congr 1
          push_cast
          ring
      _ ≤ x.num.natAbs := hnlo
  have hhigh : |x| < (2 : ℚ) ^ ((a : ℤ) - b + 1) := by
    refine lt_of_mul_lt_mul_right ?_ hden.le
    rw [habs]
    calc (x.num.natAbs : ℚ) < 2 ^ (a + 1) := hnhi
      _ = 2 ^ ((a : ℤ) - b + 1) * 2 ^ b := by
          rw [← zpow_natCast, ← zpow_natCast, ← zpow_add₀ two_ne_zero]
          congr 1
          push_cast
          ring
      _ ≤ 2 ^ ((a : ℤ) - b + 1) * x.den := mul_le_mul_of_nonneg_left hdlo (by positivity)
  unfold exponent
  dsimp only
  rw [← ha, ← hb]
  split
  · rename_i hlt
    rw [sub_add_cancel]
    exact ⟨hlow.le, hlt⟩
  · rename_i hle
    exact ⟨not_lt.mp hle, hhigh⟩

theorem exponent_le_of_lt {e : ℤ} (hx : x ≠ 0) (h : |x| < 2 ^ e) : exponent x < e := by
  by_contra hle
  have hpow : (2 : ℚ) ^ e ≤ 2 ^ exponent x := zpow_le_zpow_right₀ one_le_two (not_lt.mp hle)
  linarith [(exponent_spec hx).1]

theorem exponent_mono (hx : x ≠ 0) (h : |x| ≤ |y|) : exponent x ≤ exponent y := by
  have hy : y ≠ 0 := by
    rintro rfl
    rw [abs_zero] at h
    exact hx (abs_nonpos_iff.mp h)
  have hlt := exponent_le_of_lt hx (lt_of_le_of_lt h (exponent_spec hy).2)
  omega

@[simp] theorem exponent_neg (x : ℚ) : exponent (-x) = exponent x := by
  simp [exponent]

/-! ### Rounding -/

def ulp (x : ℚ) : ℚ := 2 ^ (exponent x - 23)

theorem ulp_pos (x : ℚ) : 0 < ulp x := zpow_pos two_pos _

theorem round_of_ne (h : x ≠ 0) : round x = roundInt (x / ulp x) * ulp x := if_neg h

@[simp] theorem round_zero : round 0 = 0 := if_pos rfl

@[simp] theorem round_neg (x : ℚ) : round (-x) = -round x := by
  by_cases h : x = 0
  · rw [h, neg_zero, round_zero, neg_zero]
  · have hulp : ulp (-x) = ulp x := by rw [ulp, exponent_neg, ulp]
    rw [round_of_ne (neg_ne_zero.mpr h), round_of_ne h, hulp, neg_div, roundInt_neg]
    push_cast
    ring

/-- In units of the last place, a value has 24 bits. -/
theorem scaled_bounds (h : x ≠ 0) : 2 ^ 23 ≤ |x| / ulp x ∧ |x| / ulp x ≤ 2 ^ 24 := by
  obtain ⟨hlow, hhigh⟩ := exponent_spec h
  have hsplit (k : ℤ) : (2 : ℚ) ^ (exponent x - 23 + k) = 2 ^ k * ulp x := by
    rw [ulp, ← zpow_add₀ two_ne_zero]
    congr 1
    ring
  constructor
  · rw [le_div_iff₀ (ulp_pos x)]
    have := hsplit 23
    rw [sub_add_cancel] at this
    exact_mod_cast this ▸ hlow
  · rw [div_le_iff₀ (ulp_pos x)]
    have := hsplit 24
    rw [show exponent x - 23 + 24 = exponent x + 1 by ring] at this
    exact_mod_cast (this ▸ hhigh).le

theorem zpow_exponent (x : ℚ) : (2 : ℚ) ^ exponent x = 2 ^ 23 * ulp x := by
  rw [ulp, ← zpow_natCast, ← zpow_add₀ two_ne_zero]
  congr 1
  push_cast
  ring

theorem round_pos_bounds (h : 0 < x) :
    (2 : ℚ) ^ exponent x ≤ round x ∧ round x ≤ 2 ^ (exponent x + 1) := by
  obtain ⟨hlow, hhigh⟩ := scaled_bounds h.ne'
  rw [abs_of_pos h] at hlow hhigh
  have hpos := ulp_pos x
  rw [round_of_ne h.ne', zpow_add₀ two_ne_zero, zpow_one, zpow_exponent]
  constructor
  · have hint : (2 ^ 23 : ℤ) ≤ roundInt (x / ulp x) := le_roundInt (by exact_mod_cast hlow)
    exact mul_le_mul_of_nonneg_right (by exact_mod_cast hint) hpos.le
  · have hint : roundInt (x / ulp x) ≤ (2 ^ 24 : ℤ) := roundInt_le (by exact_mod_cast hhigh)
    calc (roundInt (x / ulp x) : ℚ) * ulp x ≤ 2 ^ 24 * ulp x :=
          mul_le_mul_of_nonneg_right (by exact_mod_cast hint) hpos.le
      _ = 2 ^ 23 * ulp x * 2 := by ring

theorem round_pos (h : 0 < x) : 0 < round x :=
  lt_of_lt_of_le (zpow_pos two_pos _) (round_pos_bounds h).1

theorem round_mono_of_pos (hx : 0 < x) (h : x ≤ y) : round x ≤ round y := by
  have hy : 0 < y := lt_of_lt_of_le hx h
  have hexp : exponent x ≤ exponent y :=
    exponent_mono hx.ne' (by rwa [abs_of_pos hx, abs_of_pos hy])
  rcases lt_or_eq_of_le hexp with hlt | heq
  · -- a power of two lies between the two results
    calc round x ≤ 2 ^ (exponent x + 1) := (round_pos_bounds hx).2
      _ ≤ 2 ^ exponent y := zpow_le_zpow_right₀ one_le_two hlt
      _ ≤ round y := (round_pos_bounds hy).1
  · have hulp : ulp x = ulp y := by rw [ulp, ulp, heq]
    rw [round_of_ne hx.ne', round_of_ne hy.ne', hulp]
    have hint : roundInt (x / ulp y) ≤ roundInt (y / ulp y) :=
      roundInt_mono (div_le_div_of_nonneg_right h (ulp_pos y).le)
    exact mul_le_mul_of_nonneg_right (by exact_mod_cast hint) (ulp_pos y).le

theorem round_nonneg (h : 0 ≤ x) : 0 ≤ round x := by
  rcases eq_or_lt_of_le h with rfl | hpos
  · rw [round_zero]
  · exact (round_pos hpos).le

theorem round_mono (h : x ≤ y) : round x ≤ round y := by
  rcases lt_trichotomy x 0 with hx | rfl | hx
  · rcases lt_or_ge y 0 with hy | hy
    · have := round_mono_of_pos (neg_pos.mpr hy) (neg_le_neg h)
      rw [round_neg, round_neg] at this
      exact neg_le_neg_iff.mp this
    · have := round_pos (neg_pos.mpr hx)
      rw [round_neg] at this
      exact le_trans (by linarith) (round_nonneg hy)
  · rw [round_zero]
    exact round_nonneg h
  · exact round_mono_of_pos hx h

def Representable (x : ℚ) : Prop := ∃ m e : ℤ, |m| < 2 ^ 24 ∧ x = m * 2 ^ e

theorem Representable.round_eq (h : Representable x) : round x = x := by
  obtain ⟨m, e, hm, rfl⟩ := h
  by_cases hx : (m : ℚ) * 2 ^ e = 0
  · rw [hx, round_zero]
  have hbound : |(m : ℚ) * 2 ^ e| < 2 ^ (e + 24) := by
    have hpow : (0 : ℚ) < 2 ^ e := zpow_pos two_pos e
    rw [abs_mul, abs_of_pos hpow, add_comm, zpow_add₀ two_ne_zero]
    refine mul_lt_mul_of_pos_right ?_ hpow
    exact_mod_cast hm
  have hexp : exponent ((m : ℚ) * 2 ^ e) < e + 24 := exponent_le_of_lt hx hbound
  -- the value is an integer in units of the last place
  obtain ⟨k, hk⟩ : ∃ k : ℕ, e = exponent ((m : ℚ) * 2 ^ e) - 23 + k :=
    ⟨(e - (exponent ((m : ℚ) * 2 ^ e) - 23)).toNat, by omega⟩
  have hscaled : (m : ℚ) * 2 ^ e / ulp ((m : ℚ) * 2 ^ e) = ((m * 2 ^ k : ℤ) : ℚ) := by
    rw [div_eq_iff (ulp_pos _).ne', ulp]
    push_cast
    rw [mul_assoc, ← zpow_natCast, ← zpow_add₀ two_ne_zero, add_comm, ← hk]
  rw [round_of_ne hx, hscaled, roundInt_intCast, ← hscaled, div_mul_cancel₀ _ (ulp_pos _).ne']

theorem representable_natCast {n : ℕ} (h : n < 2 ^ 24) : Representable (n : ℚ) :=
  ⟨n, 0, by rw [Nat.abs_cast]; exact_mod_cast h, by simp⟩

theorem round_natCast {n : ℕ} (h : n < 2 ^ 24) : round (n : ℚ) = n :=
  (representable_natCast h).round_eq

@[simp] theorem round_one : round 1 = 1 := by
  have h : (1 : ℕ) < 2 ^ 24 := by norm_num
  simpa using round_natCast h

theorem ofNat_eq {n : ℕ} (h : n < 2 ^ 24) : ofNat n = n := round_natCast h

/-! ### Operations -/

theorem ofNat_nonneg (n : ℕ) : 0 ≤ ofNat n := round_nonneg (Nat.cast_nonneg n)

theorem ofNat_mono {n m : ℕ} (h : n ≤ m) : ofNat n ≤ ofNat m := round_mono (Nat.cast_le.mpr h)

theorem add_mono {x' y' : ℚ} (hx : x ≤ x') (hy : y ≤ y') : add x y ≤ add x' y' :=
  round_mono (add_le_add hx hy)

theorem sub_anti (h : x ≤ y) (z : ℚ) : sub z y ≤ sub z x := round_mono (sub_le_sub_left h z)

theorem mul_mono (hz : 0 ≤ z) (h : x ≤ y) : mul z x ≤ mul z y :=
  round_mono (mul_le_mul_of_nonneg_left h hz)

theorem div_mono (hz : 0 ≤ z) (h : x ≤ y) : div x z ≤ div y z :=
  round_mono (div_le_div_of_nonneg_right h hz)

theorem zero_le_div (hx : 0 ≤ x) (hy : 0 ≤ y) : 0 ≤ div x y := round_nonneg (div_nonneg hx hy)

theorem clamp_bounds {low high : ℚ} (h : low ≤ high) :
    low ≤ clamp x low high ∧ clamp x low high ≤ high := by
  unfold clamp
  split
  · exact ⟨le_refl _, h⟩
  · split
    · exact ⟨h, le_refl _⟩
    · exact ⟨not_lt.mp ‹_›, not_lt.mp ‹_›⟩

theorem clamp_mono {low high : ℚ} (hlow : low ≤ high) (h : x ≤ y) :
    clamp x low high ≤ clamp y low high := by
  unfold clamp
  split
  · exact (clamp_bounds hlow).1
  · split
    · rw [if_neg (by linarith), if_pos (by linarith)]
    · have hx := not_lt.mp ‹¬ x < low›
      rw [if_neg (by linarith)]
      split
      · exact not_lt.mp ‹¬ high < x›
      · exact h

/-- Scaling by a whole number and cutting off the fraction stays below that number. -/
theorem floor_mul_le {n : ℕ} (hn : n < 2 ^ 24) (hx : x ≤ 1) : (mul x n).floor.toNat ≤ n := by
  have hmul : mul x n ≤ n := by
    calc mul x n ≤ round (n : ℚ) := round_mono (mul_le_of_le_one_left (Nat.cast_nonneg n) hx)
      _ = n := round_natCast hn
  have hfloor : (mul x n).floor ≤ n := by
    have := Rat.floor_monotone hmul
    rwa [← Int.cast_natCast, Rat.floor_intCast] at this
  omega

end Binary32
