import Mathlib.Algebra.BigOperators.Group.Finset.Basic
import Mathlib.Algebra.Order.BigOperators.Group.Finset

/-!
# Consecutive blocks

Blocks of given lengths follow one another, so that a position is in one block, at one place of it,
and positions are in the order of their blocks and then of their places.
-/

namespace Blocks

def start (len : ℕ → ℕ) (k : ℕ) : ℕ := ∑ i ∈ Finset.range k, len i

/-- The position is at place `r` of block `k`. -/
structure At (len : ℕ → ℕ) (n k r : ℕ) : Prop where
  place : r < len k
  position : n = start len k + r

variable {len : ℕ → ℕ} {n n' k k' r r' : ℕ}

@[simp] theorem start_zero (len : ℕ → ℕ) : start len 0 = 0 := Finset.sum_range_zero len

theorem start_succ (len : ℕ → ℕ) (k : ℕ) : start len (k + 1) = start len k + len k :=
  Finset.sum_range_succ len k

theorem start_succ' (len : ℕ → ℕ) (k : ℕ) :
    start len (k + 1) = len 0 + start (fun i => len (i + 1)) k := by
  rw [start, Finset.sum_range_succ', Nat.add_comm]
  rfl

theorem start_mono (h : k ≤ k') : start len k ≤ start len k' :=
  Finset.sum_le_sum_of_subset (Finset.range_mono h)

theorem at_zero (h : n < len 0) : At len n 0 n := ⟨h, by rw [start_zero, Nat.zero_add]⟩

/-- Behind the first block, positions are counted from its end. -/
theorem At.succ (hle : len 0 ≤ n) (h : At (fun i => len (i + 1)) (n - len 0) k r) :
    At len n (k + 1) r := by
  refine ⟨h.place, ?_⟩
  have hposition := h.position
  rw [start_succ']
  omega

theorem At.lt_of_block_lt (h : At len n k r) (h' : At len n' k' r') (hlt : k < k') : n < n' := by
  have hend : start len (k + 1) ≤ start len k' := start_mono hlt
  rw [start_succ] at hend
  have hplace := h.place
  have hposition := h.position
  have hposition' := h'.position
  omega

theorem At.lt_iff (h : At len n k r) (h' : At len n' k' r') :
    n < n' ↔ k < k' ∨ k = k' ∧ r < r' := by
  rcases Nat.lt_trichotomy k k' with hlt | rfl | hgt
  · exact iff_of_true (h.lt_of_block_lt h' hlt) (Or.inl hlt)
  · rw [h.position, h'.position]
    omega
  · have hlt := h'.lt_of_block_lt h hgt
    omega

theorem At.unique (h : At len n k r) (h' : At len n k' r') : k = k' ∧ r = r' := by
  have hforth := h.lt_iff h'
  have hback := h'.lt_iff h
  omega

end Blocks
