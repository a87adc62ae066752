import Mathlib.Data.BitVec

/-!
# Shift registers with feedback

A register is shifted up bit by bit, and the bit that leaves it decides whether the feedback word is
added. A shift is linear over exclusive or, and injective when the lowest bit is fed back. Where
chunks are added at the top and shifted through, two neighbouring chunks that together are as wide
as the register are told apart from any other two.
-/

namespace ShiftRegister

variable {w k : ℕ}

def step (poly s : BitVec w) : BitVec w := if s.msb then s <<< 1 ^^^ poly else s <<< 1

def steps (poly : BitVec w) : ℕ → BitVec w → BitVec w
  | 0, s => s
  | n + 1, s => steps poly n (step poly s)

def absorb (poly : BitVec (k + w)) (s : BitVec (k + w)) (c : BitVec k) : BitVec (k + w) :=
  steps poly k (s ^^^ (c ++ 0#w))

section Shifts

variable {poly s t : BitVec w}

theorem step_eq : step poly s = s <<< 1 ^^^ if s.msb then poly else 0#w := by
  unfold step
  cases s.msb with
  | false => exact BitVec.xor_zero.symm
  | true => rfl

theorem step_xor : step poly (s ^^^ t) = step poly s ^^^ step poly t := by
  have hfeedback : (if (s ^^^ t).msb then poly else 0#w) =
      (if s.msb then poly else 0#w) ^^^ if t.msb then poly else 0#w := by
    rw [BitVec.msb_xor]
    cases s.msb <;> cases t.msb <;> simp
  rw [step_eq, step_eq, step_eq, hfeedback, BitVec.shiftLeft_xor_distrib]
  ac_rfl

theorem steps_xor (n : ℕ) : steps poly n (s ^^^ t) = steps poly n s ^^^ steps poly n t := by
  induction n generalizing s t with
  | zero => rfl
  | succ n ih => rw [steps, step_xor, ih]; rfl

theorem steps_add (m n : ℕ) : steps poly (m + n) s = steps poly n (steps poly m s) := by
  induction m generalizing s with
  | zero => rw [Nat.zero_add]; rfl
  | succ m ih => rw [Nat.succ_add, steps, ih]; rfl

/-- Nothing but zero becomes zero. -/
theorem step_eq_zero (hpoly : poly.getLsbD 0 = true) (h : step poly s = 0#w) : s = 0#w := by
  have hwidth : 0 < w := BitVec.lt_of_getLsbD hpoly
  cases htop : s.msb with
  | true =>
    rw [step, htop, if_pos rfl, BitVec.xor_eq_zero_iff] at h
    rw [← h, BitVec.getLsbD_shiftLeft] at hpoly
    simp at hpoly
  | false =>
    rw [step, htop, if_neg Bool.false_ne_true] at h
    apply BitVec.eq_of_getLsbD_eq
    intro i hi
    rw [BitVec.getLsbD_zero]
    rcases Nat.eq_or_lt_of_le (Nat.succ_le_of_lt hi) with hlast | hinner
    · rw [BitVec.msb_eq_getLsbD_last] at htop
      have hi : w - 1 = i := by omega
      rwa [hi] at htop
    · have hbit := congrArg (BitVec.getLsbD · (i + 1)) h
      have hpast : ¬ i + 1 < 1 := by omega
      simpa only [BitVec.getLsbD_shiftLeft, BitVec.getLsbD_zero, hinner, hpast, decide_true,
        decide_false, Bool.not_false, Bool.true_and, Nat.add_sub_cancel] using hbit

theorem step_injective (hpoly : poly.getLsbD 0 = true) (h : step poly s = step poly t) : s = t := by
  rw [← BitVec.xor_eq_zero_iff, ← step_xor] at h
  exact BitVec.xor_eq_zero_iff.mp (step_eq_zero hpoly h)

theorem steps_injective (hpoly : poly.getLsbD 0 = true) {n : ℕ}
    (h : steps poly n s = steps poly n t) : s = t := by
  induction n generalizing s t with
  | zero => exact h
  | succ n ih => exact step_injective hpoly (ih h)

/-- Without feedback a register is only shifted. -/
theorem toNat_steps {n : ℕ} (h : s.toNat * 2 ^ n < 2 ^ w) :
    (steps poly n s).toNat = s.toNat * 2 ^ n := by
  induction n generalizing s with
  | zero => rw [Nat.pow_zero, Nat.mul_one]; rfl
  | succ n ih =>
    have hdouble : s.toNat * 2 * 2 ^ n < 2 ^ w := by
      rwa [Nat.mul_assoc, ← Nat.pow_succ']
    have hsmall : s.toNat * 2 < 2 ^ w :=
      Nat.lt_of_le_of_lt (Nat.le_mul_of_pos_right _ (Nat.two_pow_pos n)) hdouble
    have htop : s.msb = false := by
      rw [BitVec.msb_eq_decide, decide_eq_false_iff_not, Nat.not_le]
      cases w with
      | zero => omega
      | succ w =>
        rw [Nat.pow_succ] at hsmall
        exact Nat.lt_of_mul_lt_mul_right hsmall
    have hshift : (step poly s).toNat = s.toNat * 2 := by
      rw [step, htop, if_neg Bool.false_ne_true, BitVec.toNat_shiftLeft, Nat.shiftLeft_eq,
        Nat.pow_one, Nat.mod_eq_of_lt hsmall]
    rw [← hshift] at hdouble
    rw [steps, ih hdouble, hshift, Nat.mul_assoc, ← Nat.pow_succ']

end Shifts

section Chunks

variable {poly s t : BitVec (k + w)} {c d : BitVec k}

theorem absorb_injective (hpoly : poly.getLsbD 0 = true) (h : absorb poly s c = absorb poly t c) :
    s = t :=
  (BitVec.xor_left_inj _).mp (steps_injective hpoly h)

/-- What two registers with different chunks differ by does not depend on what was in them. -/
theorem absorb_xor : absorb poly s c ^^^ absorb poly s d = steps poly k ((c ^^^ d) ++ 0#w) := by
  rw [absorb, absorb, ← steps_xor]
  congr 1
  have hchunks : (c ^^^ d) ++ 0#w = (c ++ 0#w) ^^^ (d ++ 0#w) := by
    rw [BitVec.xor_append, BitVec.xor_self]
  rw [hchunks, BitVec.xor_comm s, BitVec.xor_assoc, ← BitVec.xor_assoc s, BitVec.xor_self,
    BitVec.zero_xor]

theorem foldl_absorb_injective (hpoly : poly.getLsbD 0 = true) {cs : List (BitVec k)}
    (h : cs.foldl (absorb poly) s = cs.foldl (absorb poly) t) : s = t := by
  induction cs generalizing s t with
  | nil => exact h
  | cons c cs ih => exact absorb_injective hpoly (ih h)

end Chunks

section TwoChunks

variable {poly s : BitVec (k + k)} {c c' d d' : BitVec k}

/-- Two chunks are one of the double width. -/
theorem absorb_absorb : absorb poly (absorb poly s c) d = steps poly (k + k) (s ^^^ (c ++ d)) := by
  have hlow : d ++ 0#k = steps poly k (0#k ++ d) := by
    have hzero : (0#k ++ d).toNat = d.toNat := by simp [BitVec.toNat_append]
    apply BitVec.eq_of_toNat_eq
    rw [toNat_steps, hzero, BitVec.toNat_append]
    · simp [Nat.shiftLeft_eq]
    · rw [hzero, Nat.pow_add]
      exact Nat.mul_lt_mul_of_pos_right d.isLt (Nat.two_pow_pos k)
  have hsplit : c ++ d = (c ++ 0#k) ^^^ (0#k ++ d) := by
    rw [BitVec.xor_append, BitVec.xor_zero, BitVec.zero_xor]
  rw [absorb, absorb, hlow, ← steps_xor, ← steps_add, hsplit, BitVec.xor_assoc]

/-- Messages that differ in two neighbouring chunks leave different registers. -/
theorem foldl_absorb_append_inj (hpoly : poly.getLsbD 0 = true) {cs es : List (BitVec k)}
    (h : (cs ++ c :: d :: es).foldl (absorb poly) s =
      (cs ++ c' :: d' :: es).foldl (absorb poly) s) :
    c = c' ∧ d = d' := by
  simp only [List.foldl_append, List.foldl_cons] at h
  have hregister := foldl_absorb_injective hpoly h
  rw [absorb_absorb, absorb_absorb] at hregister
  have happend := (BitVec.xor_right_inj _).mp (steps_injective hpoly hregister)
  have hhigh := congrArg (BitVec.extractLsb' k k) happend
  have hlow := congrArg (BitVec.extractLsb' 0 k) happend
  rw [BitVec.extractLsb'_append_eq_left, BitVec.extractLsb'_append_eq_left] at hhigh
  rw [BitVec.extractLsb'_append_eq_right, BitVec.extractLsb'_append_eq_right] at hlow
  exact ⟨hhigh, hlow⟩

end TwoChunks

end ShiftRegister
