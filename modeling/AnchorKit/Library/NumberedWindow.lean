import AnchorKit.Library.KeyCount
import AnchorKit.Library.Numbered
import Mathlib.Order.Interval.Finset.Nat

/-!
# Windows of a numbered store

A store whose keys are handed out by a counter and freed from the oldest one on holds a window:
all numbers from some bound up to the counter.
-/

namespace Numbered

variable {V : Type}

/-- Exactly the numbers from `lo` up to `n` are in use. -/
structure Window (m : KeyedStore UInt64 V) (lo n : UInt64) : Prop where
  le : lo ≤ n
  has_iff : ∀ id, m.has id = true ↔ lo ≤ id ∧ id < n

variable {m : KeyedStore UInt64 V} {lo n n' id : UInt64}

theorem window_empty (n : UInt64) : Window (.empty : KeyedStore UInt64 V) n n := by
  refine ⟨UInt64.le_refl n, fun id => ?_⟩
  simp only [KeyedStore.has_empty, Bool.false_eq_true, false_iff, not_and, UInt64.not_lt]
  exact fun hle => hle

namespace Window

theorem toNat_le (h : Window m lo n) : lo.toNat ≤ n.toNat := UInt64.le_iff_toNat_le.mp h.le

theorem keys_eq (h : Window m lo n) :
    m.keys = ((Finset.Ico lo.toNat n.toNat).image UInt64.ofNat : Set UInt64) := by
  ext id
  rw [KeyedStore.mem_keys, h.has_iff, UInt64.le_iff_toNat_le, UInt64.lt_iff_toNat_lt]
  simp only [Finset.coe_image, Set.mem_image, Finset.coe_Ico, Set.mem_Ico]
  constructor
  · intro hid
    exact ⟨id.toNat, hid, UInt64.ofNat_toNat⟩
  · rintro ⟨i, hi, rfl⟩
    have hn := n.toNat_lt
    rwa [UInt64.toNat_ofNat_of_lt' (by change i < 2 ^ 64; omega)]

theorem finite (h : Window m lo n) : m.keys.Finite := by
  rw [h.keys_eq]
  exact Finset.finite_toSet _

theorem size_eq (h : Window m lo n) : m.size = n.toNat - lo.toNat := by
  have hinj : Set.InjOn UInt64.ofNat (Finset.Ico lo.toNat n.toNat) := by
    intro i hi j hj hij
    have hn := n.toNat_lt
    simp only [Finset.coe_Ico, Set.mem_Ico] at hi hj
    have hval := congrArg UInt64.toNat hij
    rwa [UInt64.toNat_ofNat_of_lt' (by change i < 2 ^ 64; omega),
      UInt64.toNat_ofNat_of_lt' (by change j < 2 ^ 64; omega)] at hval
  rw [KeyedStore.size, h.keys_eq, Set.ncard_coe_finset, Finset.card_image_of_injOn hinj,
    Nat.card_Ico]

theorem has_next (h : Window m lo n) : m.has n = false := by
  rw [Bool.eq_false_iff, ne_eq, h.has_iff]
  exact fun hin => UInt64.lt_irrefl n hin.2

theorem push (h : Window m lo n) (hn : n'.toNat = n.toNat + 1) (v : V) :
    Window (m.set n v) lo n' := by
  have hle := h.toNat_le
  refine ⟨UInt64.le_iff_toNat_le.mpr (by omega), fun id => ?_⟩
  rw [KeyedStore.has_set]
  split
  · rename_i hid
    subst hid
    simp only [UInt64.le_iff_toNat_le, UInt64.lt_iff_toNat_lt, true_iff]
    omega
  · rename_i hid
    have hne : id.toNat ≠ n.toNat := fun heq => hid (UInt64.toNat_inj.mp heq)
    rw [h.has_iff, UInt64.le_iff_toNat_le, UInt64.lt_iff_toNat_lt, UInt64.lt_iff_toNat_lt]
    omega

theorem toNat_bound_succ (hlt : lo < n) : (lo + 1).toNat = lo.toNat + 1 := by
  have hn := n.toNat_lt
  rw [UInt64.lt_iff_toNat_lt] at hlt
  rw [UInt64.toNat_add, Nat.mod_eq_of_lt]
  · rfl
  · change lo.toNat + 1 < 2 ^ 64
    omega

theorem drop_oldest (h : Window m lo n) (hlt : lo < n) : Window (m.remove lo) (lo + 1) n := by
  have hnext := toNat_bound_succ hlt
  refine ⟨?_, fun id => ?_⟩
  · rw [UInt64.lt_iff_toNat_lt] at hlt
    rw [UInt64.le_iff_toNat_le, hnext]
    omega
  · rw [KeyedStore.has_remove]
    split
    · rename_i hid
      subst hid
      simp only [Bool.false_eq_true, false_iff, not_and, UInt64.le_iff_toNat_le, hnext]
      omega
    · rename_i hid
      have hne : id.toNat ≠ lo.toNat := fun heq => hid (UInt64.toNat_inj.mp heq)
      rw [h.has_iff, UInt64.le_iff_toNat_le, UInt64.le_iff_toNat_le, hnext]
      exact and_congr_left' (by omega)

/-- Freeing a number below the bound changes nothing. -/
theorem remove_below (h : Window m lo n) (hid : id < lo) : m.remove id = m := by
  apply KeyedStore.remove_of_has_eq_false
  rw [Bool.eq_false_iff, ne_eq, h.has_iff]
  exact fun hin => UInt64.lt_irrefl id (UInt64.lt_of_lt_of_le hid hin.1)

/-- Freeing all numbers below the counter leaves nothing. -/
theorem remove_all (h : Window m lo n) :
    ((List.range n.toNat).map UInt64.ofNat).foldl KeyedStore.remove m = .empty := by
  apply KeyedStore.ext
  intro id
  rw [KeyedStore.get_foldl_remove, KeyedStore.get_empty]
  split
  · rfl
  · rename_i hid
    rw [← KeyedStore.has_eq_false_iff, Bool.eq_false_iff, ne_eq, h.has_iff]
    rintro ⟨_, hlt⟩
    apply hid
    rw [List.mem_map]
    exact ⟨id.toNat, List.mem_range.mpr (UInt64.lt_iff_toNat_lt.mp hlt), UInt64.ofNat_toNat⟩

end Window

/-- A dense store is the window that was never moved. -/
theorem Dense.window (h : Dense m n) : Window m 0 n := by
  refine ⟨UInt64.zero_le, fun id => ?_⟩
  rw [h id]
  exact (and_iff_right UInt64.zero_le).symm

theorem Dense.size_eq (h : Dense m n) : m.size = n.toNat := h.window.size_eq

end Numbered
