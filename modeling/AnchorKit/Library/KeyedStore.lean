import Mathlib.Logic.Function.Basic

/-!
# Keyed stores

A store maps keys to optional values. Writing and removing change one key; every other key is
read as before.
-/

/-- A partial map from keys to values, with the reads and writes of a ledger key family. -/
def KeyedStore (K V : Type*) := K → Option V

namespace KeyedStore

variable {K V : Type*}

def empty : KeyedStore K V := fun _ => none

def get (m : KeyedStore K V) (k : K) : Option V := m k

def has (m : KeyedStore K V) (k : K) : Bool := (m.get k).isSome

@[simp] theorem get_empty (k : K) : (empty : KeyedStore K V).get k = none := rfl

@[simp] theorem has_empty (k : K) : (empty : KeyedStore K V).has k = false := rfl

theorem has_iff {m : KeyedStore K V} {k : K} : m.has k = true ↔ ∃ v, m.get k = some v := by
  simp [has, Option.isSome_iff_exists]

theorem has_eq_false_iff {m : KeyedStore K V} {k : K} : m.has k = false ↔ m.get k = none := by
  simp [has]

theorem ext {m m' : KeyedStore K V} (h : ∀ k, m.get k = m'.get k) : m = m' := funext h

def mapKeyed (f : K → V → V) (m : KeyedStore K V) : KeyedStore K V := fun k => (m.get k).map (f k)

@[simp] theorem get_mapKeyed (f : K → V → V) (m : KeyedStore K V) (k : K) :
    (m.mapKeyed f).get k = (m.get k).map (f k) := rfl

variable [DecidableEq K]

def set (m : KeyedStore K V) (k : K) (v : V) : KeyedStore K V :=
  fun x => if x = k then some v else m x

def remove (m : KeyedStore K V) (k : K) : KeyedStore K V := fun x => if x = k then none else m x

theorem get_set (m : KeyedStore K V) (k x : K) (v : V) :
    (m.set k v).get x = if x = k then some v else m.get x := rfl

theorem get_remove (m : KeyedStore K V) (k x : K) :
    (m.remove k).get x = if x = k then none else m.get x := rfl

@[simp] theorem get_set_self (m : KeyedStore K V) (k : K) (v : V) :
    (m.set k v).get k = some v := by simp [get_set]

@[simp] theorem get_remove_self (m : KeyedStore K V) (k : K) : (m.remove k).get k = none := by
  simp [get_remove]

theorem get_set_of_ne (m : KeyedStore K V) {k x : K} (v : V) (h : x ≠ k) :
    (m.set k v).get x = m.get x := by simp [get_set, h]

theorem get_set_cases {m : KeyedStore K V} {k x : K} {v w : V}
    (hget : (m.set k w).get x = some v) : (x = k ∧ v = w) ∨ m.get x = some v := by
  rw [get_set] at hget
  by_cases hx : x = k
  · rw [if_pos hx] at hget
    exact Or.inl ⟨hx, (Option.some.inj hget).symm⟩
  · rw [if_neg hx] at hget
    exact Or.inr hget

theorem has_set (m : KeyedStore K V) (k x : K) (v : V) :
    (m.set k v).has x = if x = k then true else m.has x := by
  by_cases h : x = k <;> simp [has, get_set, h]

theorem has_remove (m : KeyedStore K V) (k x : K) :
    (m.remove k).has x = if x = k then false else m.has x := by
  by_cases h : x = k <;> simp [has, get_remove, h]

/-- Removing a key that is not in use changes nothing. -/
theorem remove_of_has_eq_false {m : KeyedStore K V} {k : K} (h : m.has k = false) :
    m.remove k = m := by
  apply ext
  intro x
  rw [get_remove]
  split
  · rename_i hx
    rw [hx, has_eq_false_iff.mp h]
  · rfl

theorem get_foldl_remove (m : KeyedStore K V) (ks : List K) (x : K) :
    (ks.foldl remove m).get x = if x ∈ ks then none else m.get x := by
  induction ks generalizing m with
  | nil => simp
  | cons k ks ih =>
    rw [List.foldl_cons, ih, get_remove]
    by_cases hk : x = k <;> simp [hk]

/-- Writing back what is already stored changes nothing. -/
theorem set_of_get_eq_some {m : KeyedStore K V} {k : K} {v : V} (h : m.get k = some v) :
    m.set k v = m := by
  funext x
  by_cases hx : x = k
  · subst hx
    change (m.set x v).get x = m x
    rw [get_set_self, ← h]
    rfl
  · exact get_set_of_ne m v hx

theorem set_set (m : KeyedStore K V) (k : K) (v w : V) : (m.set k v).set k w = m.set k w := by
  funext x
  by_cases hx : x = k <;> simp [set, hx]

end KeyedStore
