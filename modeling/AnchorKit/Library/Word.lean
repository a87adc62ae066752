import Mathlib.Data.UInt

/-!
# Checked and saturating machine arithmetic

The overflow-checked and saturating operations of fixed-width unsigned integers, with their
values as natural numbers.
-/

namespace Word

def checkedAdd64 (a b : UInt64) : Option UInt64 :=
  if a.toNat + b.toNat < 2 ^ 64 then some (a + b) else none

def checkedAdd32 (a b : UInt32) : Option UInt32 :=
  if a.toNat + b.toNat < 2 ^ 32 then some (a + b) else none

def checkedMul64 (a b : UInt64) : Option UInt64 :=
  if a.toNat * b.toNat < 2 ^ 64 then some (a * b) else none

def checkedSub64 (a b : UInt64) : Option UInt64 := if b ≤ a then some (a - b) else none

def saturatingAdd64 (a b : UInt64) : UInt64 :=
  if a.toNat + b.toNat < 2 ^ 64 then a + b else UInt64.ofNat (2 ^ 64 - 1)

def saturatingAdd32 (a b : UInt32) : UInt32 :=
  if a.toNat + b.toNat < 2 ^ 32 then a + b else UInt32.ofNat (2 ^ 32 - 1)

def saturatingSub64 (a b : UInt64) : UInt64 := if b ≤ a then a - b else 0

def saturatingSub32 (a b : UInt32) : UInt32 := if b ≤ a then a - b else 0

def saturatingMul32 (a b : UInt32) : UInt32 :=
  if a.toNat * b.toNat < 2 ^ 32 then a * b else UInt32.ofNat (2 ^ 32 - 1)

def saturatingMul64 (a b : UInt64) : UInt64 :=
  if a.toNat * b.toNat < 2 ^ 64 then a * b else UInt64.ofNat (2 ^ 64 - 1)

def saturatingPow64 (a : UInt64) (n : ℕ) : UInt64 :=
  if a.toNat ^ n < 2 ^ 64 then UInt64.ofNat (a.toNat ^ n) else UInt64.ofNat (2 ^ 64 - 1)

theorem checkedAdd64_eq_some {a b c : UInt64} :
    checkedAdd64 a b = some c ↔ a.toNat + b.toNat = c.toNat := by
  unfold checkedAdd64
  have hc := c.toNat_lt
  split
  · rename_i h
    have hab : (a + b).toNat = a.toNat + b.toNat := by
      rw [UInt64.toNat_add, Nat.mod_eq_of_lt h]
    rw [Option.some.injEq, ← hab, ← UInt64.toNat_inj]
  · constructor
    · intro h; cases h
    · intro h; omega

theorem checkedSub64_eq_some {a b c : UInt64} :
    checkedSub64 a b = some c ↔ b.toNat + c.toNat = a.toNat := by
  unfold checkedSub64
  by_cases hle : b ≤ a
  · have hsub := UInt64.toNat_sub_of_le a b hle
    have hnat := UInt64.le_iff_toNat_le.mp hle
    rw [if_pos hle, Option.some.injEq, ← UInt64.toNat_inj]
    omega
  · have hnat := mt UInt64.le_iff_toNat_le.mpr hle
    rw [if_neg hle]
    exact iff_of_false nofun (by omega)

theorem checkedAdd32_eq_some {a b c : UInt32} :
    checkedAdd32 a b = some c ↔ a.toNat + b.toNat = c.toNat := by
  unfold checkedAdd32
  have hc := c.toNat_lt
  split
  · rename_i h
    have hab : (a + b).toNat = a.toNat + b.toNat := by
      rw [UInt32.toNat_add, Nat.mod_eq_of_lt h]
    rw [Option.some.injEq, ← hab, ← UInt32.toNat_inj]
  · constructor
    · intro h; cases h
    · intro h; omega

theorem checkedMul64_eq_some {a b c : UInt64} :
    checkedMul64 a b = some c ↔ a.toNat * b.toNat = c.toNat := by
  unfold checkedMul64
  have hc := c.toNat_lt
  split
  · rename_i h
    have hab : (a * b).toNat = a.toNat * b.toNat := by
      rw [UInt64.toNat_mul, Nat.mod_eq_of_lt h]
    rw [Option.some.injEq, ← hab, ← UInt64.toNat_inj]
  · constructor
    · intro h; cases h
    · intro h; omega

theorem checkedAdd64_eq_none {a b : UInt64} :
    checkedAdd64 a b = none ↔ 2 ^ 64 ≤ a.toNat + b.toNat := by
  unfold checkedAdd64
  split
  · exact iff_of_false nofun (by omega)
  · exact iff_of_true rfl (by omega)

theorem toNat_saturatingAdd64 (a b : UInt64) :
    (saturatingAdd64 a b).toNat = min (a.toNat + b.toNat) (2 ^ 64 - 1) := by
  unfold saturatingAdd64
  split
  · rw [UInt64.toNat_add]
    omega
  · simp
    omega

theorem toNat_saturatingAdd32 (a b : UInt32) :
    (saturatingAdd32 a b).toNat = min (a.toNat + b.toNat) (2 ^ 32 - 1) := by
  unfold saturatingAdd32
  split
  · rw [UInt32.toNat_add]
    omega
  · simp
    omega

theorem toNat_saturatingSub64 (a b : UInt64) :
    (saturatingSub64 a b).toNat = a.toNat - b.toNat := by
  unfold saturatingSub64
  split
  · rename_i h
    exact UInt64.toNat_sub_of_le _ _ h
  · rename_i h
    have hlt : a.toNat < b.toNat := by simpa [UInt64.le_iff_toNat_le] using h
    simp
    omega

theorem toNat_saturatingSub32 (a b : UInt32) :
    (saturatingSub32 a b).toNat = a.toNat - b.toNat := by
  unfold saturatingSub32
  split
  · rename_i h
    exact UInt32.toNat_sub_of_le _ _ h
  · rename_i h
    have hlt : a.toNat < b.toNat := by simpa [UInt32.le_iff_toNat_le] using h
    simp
    omega

theorem toNat_saturatingMul32 (a b : UInt32) :
    (saturatingMul32 a b).toNat = min (a.toNat * b.toNat) (2 ^ 32 - 1) := by
  unfold saturatingMul32
  split
  · rw [UInt32.toNat_mul]
    rw [Nat.mod_eq_of_lt (by assumption)]
    omega
  · simp
    omega

theorem toNat_saturatingMul64 (a b : UInt64) :
    (saturatingMul64 a b).toNat = min (a.toNat * b.toNat) (2 ^ 64 - 1) := by
  unfold saturatingMul64
  split
  · rw [UInt64.toNat_mul]
    rw [Nat.mod_eq_of_lt (by assumption)]
    omega
  · simp
    omega

theorem toNat_min32 (a b : UInt32) : (min a b).toNat = min a.toNat b.toNat := by
  change (if a ≤ b then a else b).toNat = _
  split
  · rename_i h
    rw [UInt32.le_iff_toNat_le] at h
    omega
  · rename_i h
    rw [UInt32.le_iff_toNat_le] at h
    omega

theorem toNat_min64 (a b : UInt64) : (min a b).toNat = min a.toNat b.toNat := by
  change (if a ≤ b then a else b).toNat = _
  split
  · rename_i h
    rw [UInt64.le_iff_toNat_le] at h
    omega
  · rename_i h
    rw [UInt64.le_iff_toNat_le] at h
    omega

theorem toNat_max64 (a b : UInt64) : (max a b).toNat = max a.toNat b.toNat := by
  change (if a ≤ b then b else a).toNat = _
  split
  · rename_i h
    rw [UInt64.le_iff_toNat_le] at h
    omega
  · rename_i h
    rw [UInt64.le_iff_toNat_le] at h
    omega

theorem toNat_max32 (a b : UInt32) : (max a b).toNat = max a.toNat b.toNat := by
  change (if a ≤ b then b else a).toNat = _
  split
  · rename_i h
    rw [UInt32.le_iff_toNat_le] at h
    omega
  · rename_i h
    rw [UInt32.le_iff_toNat_le] at h
    omega

theorem toNat_ofNat32 {n : ℕ} (h : n < 2 ^ 32) : (UInt32.ofNat n).toNat = n := by
  rw [UInt32.toNat_ofNat']
  exact Nat.mod_eq_of_lt h

theorem toNat_ofNat64 {n : ℕ} (h : n < 2 ^ 64) : (UInt64.ofNat n).toNat = n := by
  rw [UInt64.toNat_ofNat']
  exact Nat.mod_eq_of_lt h

theorem toNat_saturatingPow64 (a : UInt64) (n : ℕ) :
    (saturatingPow64 a n).toNat = min (a.toNat ^ n) (2 ^ 64 - 1) := by
  unfold saturatingPow64
  split
  · rename_i h
    rw [toNat_ofNat64 h]
    omega
  · rw [toNat_ofNat64 (by omega)]
    omega

theorem checkedAdd64_one_eq_some {a b : UInt64} :
    checkedAdd64 a 1 = some b ↔ a.toNat + 1 = b.toNat := by
  rw [checkedAdd64_eq_some, UInt64.toNat_one]

theorem checkedAdd64_one_eq_none {a : UInt64} : checkedAdd64 a 1 = none ↔ a.toNat + 1 = 2 ^ 64 := by
  have ha := a.toNat_lt
  rw [checkedAdd64, UInt64.toNat_one]
  split
  · exact iff_of_false nofun (by omega)
  · exact iff_of_true rfl (by omega)

theorem checkedAdd32_one_eq_some {a b : UInt32} :
    checkedAdd32 a 1 = some b ↔ a.toNat + 1 = b.toNat := by
  rw [checkedAdd32_eq_some, UInt32.toNat_one]

end Word
