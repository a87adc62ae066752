import AnchorKit.Library.KeyedStore
import Mathlib.Data.Set.Card

/-!
# Sizes of keyed stores

The number of keys in use, where these are finitely many. A new key adds one, and a sweep takes
one away for each key it drops.
-/

namespace KeyedStore

variable {K V : Type*}

def keys (m : KeyedStore K V) : Set K := {k | m.has k = true}

noncomputable def size (m : KeyedStore K V) : ℕ := m.keys.ncard

@[simp] theorem mem_keys {m : KeyedStore K V} {k : K} : k ∈ m.keys ↔ m.has k = true := Iff.rfl

@[simp] theorem keys_empty : (empty : KeyedStore K V).keys = ∅ := by
  ext k
  simp

@[simp] theorem size_empty : (empty : KeyedStore K V).size = 0 := by
  rw [size, keys_empty, Set.ncard_empty]

variable [DecidableEq K] {m : KeyedStore K V} {k : K}

theorem keys_set (v : V) : (m.set k v).keys = insert k m.keys := by
  ext x
  simp [has_set]

theorem keys_remove : (m.remove k).keys = m.keys \ {k} := by
  ext x
  by_cases hx : x = k <;> simp [has_remove, hx]

theorem finite_keys_set (h : m.keys.Finite) (v : V) : (m.set k v).keys.Finite := by
  rw [keys_set]
  exact h.insert k

theorem finite_keys_remove (h : m.keys.Finite) : (m.remove k).keys.Finite := by
  rw [keys_remove]
  exact h.sdiff

theorem size_set_of_free (h : m.keys.Finite) (hfree : m.has k = false) (v : V) :
    (m.set k v).size = m.size + 1 := by
  have hnew : k ∉ m.keys := by simp [hfree]
  rw [size, keys_set, Set.ncard_insert_of_notMem hnew h, size]

theorem size_set_of_has (hused : m.has k = true) (v : V) : (m.set k v).size = m.size := by
  have hold : k ∈ m.keys := hused
  rw [size, keys_set, Set.insert_eq_of_mem hold, size]

theorem size_remove_of_has (h : m.keys.Finite) (hused : m.has k = true) :
    (m.remove k).size + 1 = m.size := by
  rw [size, keys_remove]
  exact Set.ncard_sdiff_singleton_add_one hused h

/-- `n` keys were dropped one after the other, each with a value that satisfied `p`. -/
inductive Dropped (p : V → Prop) (m : KeyedStore K V) : KeyedStore K V → ℕ → Prop
  | nothing : Dropped p m m 0
  | next {m' : KeyedStore K V} {n : ℕ} {k : K} {v : V} (earlier : Dropped p m m' n)
      (hget : m'.get k = some v) (hp : p v) : Dropped p m (m'.remove k) (n + 1)

namespace Dropped

variable {p : V → Prop} {m' : KeyedStore K V} {n : ℕ}

theorem size_add (h : Dropped p m m' n) (hfin : m.keys.Finite) :
    m'.keys.Finite ∧ m'.size + n = m.size := by
  induction h with
  | nothing => exact ⟨hfin, rfl⟩
  | next earlier hget hp ih =>
    obtain ⟨hfin', hsize⟩ := ih
    have hone := size_remove_of_has hfin' (has_iff.mpr ⟨_, hget⟩)
    exact ⟨finite_keys_remove hfin', by omega⟩

theorem get_of_get (h : Dropped p m m' n) {k : K} {v : V} (hget : m'.get k = some v) :
    m.get k = some v := by
  induction h with
  | nothing => exact hget
  | next earlier hdropped hp ih =>
    rw [get_remove] at hget
    split at hget
    · cases hget
    · exact ih hget

/-- What is gone satisfied `p`. -/
theorem of_get_eq_none (h : Dropped p m m' n) {k : K} {v : V} (hget : m.get k = some v)
    (hgone : m'.get k = none) : p v := by
  induction h with
  | nothing =>
    rw [hget] at hgone
    cases hgone
  | next earlier hdropped hp ih =>
    rename_i m' n x w
    rw [get_remove] at hgone
    split at hgone
    · rename_i hx
      have hw : m.get k = some w := earlier.get_of_get (hx ▸ hdropped)
      rw [hget] at hw
      exact Option.some.inj hw ▸ hp
    · exact ih hgone

end Dropped

end KeyedStore
