import AnchorKit.Library.KeyedStore
import Mathlib.Data.List.Basic
import Mathlib.Data.UInt

/-!
# Numbered stores

A store whose keys are handed out by a counter. It is dense when exactly the numbers below the
counter are in use; writing at the counter and advancing it keeps the store dense and leaves
every entry as it was.
-/

namespace Numbered

variable {V : Type}

/-- Exactly the numbers below `n` are in use. -/
def Dense (m : KeyedStore UInt64 V) (n : UInt64) : Prop := ∀ id, m.has id = true ↔ id < n

variable {m : KeyedStore UInt64 V} {n n' id : UInt64} {v : V}

theorem dense_empty : Dense (.empty : KeyedStore UInt64 V) 0 := by
  intro id
  simp [UInt64.lt_iff_toNat_lt]

theorem Dense.lt_of_get (h : Dense m n) (hget : m.get id = some v) : id < n :=
  (h id).mp (KeyedStore.has_iff.mpr ⟨v, hget⟩)

theorem Dense.get_next (h : Dense m n) : m.get n = none := by
  cases hget : m.get n with
  | none => rfl
  | some v => exact absurd (h.lt_of_get hget) (by simp)

theorem Dense.set_next (h : Dense m n) (hn : n'.toNat = n.toNat + 1) (v : V) :
    Dense (m.set n v) n' := by
  intro id
  rw [KeyedStore.has_set]
  by_cases hid : id = n
  · subst hid
    simp [UInt64.lt_iff_toNat_lt, hn]
  · have hne : id.toNat ≠ n.toNat := fun heq => hid (UInt64.toNat_inj.mp heq)
    rw [if_neg hid, h id, UInt64.lt_iff_toNat_lt, UInt64.lt_iff_toNat_lt, hn]
    omega

/-- Rewriting an entry uses no new number. -/
theorem Dense.set_of_get (h : Dense m n) (hget : m.get id = some v) (w : V) :
    Dense (m.set id w) n := by
  intro id'
  rw [KeyedStore.has_set]
  by_cases hid : id' = id
  · rw [if_pos hid, hid]
    exact iff_of_true rfl (h.lt_of_get hget)
  · rw [if_neg hid]
    exact h id'

/-- Writing at the counter overwrites nothing. -/
theorem Dense.get_set_of_get (h : Dense m n) (hget : m.get id = some v) (w : V) :
    (m.set n w).get id = some v := by
  have hne : id ≠ n := by
    rintro rfl
    rw [h.get_next] at hget
    cases hget
  rw [KeyedStore.get_set_of_ne m w hne, hget]

/-- Only numbers below `n` are in use; some of them may have been freed again. -/
def Below (m : KeyedStore UInt64 V) (n : UInt64) : Prop := ∀ id v, m.get id = some v → id < n

theorem below_empty : Below (.empty : KeyedStore UInt64 V) 0 := by
  intro id v hget
  cases hget

theorem Below.set_next (h : Below m n) (hn : n'.toNat = n.toNat + 1) (v : V) :
    Below (m.set n v) n' := by
  intro id w hget
  rw [UInt64.lt_iff_toNat_lt, hn]
  rcases KeyedStore.get_set_cases hget with ⟨rfl, _⟩ | hold
  · omega
  · have hlt := h id w hold
    rw [UInt64.lt_iff_toNat_lt] at hlt
    omega

/-- Writing at the counter overwrites nothing, whatever was freed. -/
theorem Below.get_set_of_get (h : Below m n) (hget : m.get id = some v) (w : V) :
    (m.set n w).get id = some v := by
  have hne : id ≠ n := by
    rintro rfl
    exact UInt64.lt_irrefl _ (h id v hget)
  rw [KeyedStore.get_set_of_ne m w hne, hget]

end Numbered

/-!
## Logs with numbered entries

Entries are stored under consecutive numbers from zero, next to their count, so that any range of
numbers reads off a part of the log.
-/

namespace NumberedLog

variable {V : Type*}

/-- The entries that are read under their numbers, and their count, are those of the list. -/
structure Holds (read : UInt64 → Option V) (count : UInt64) (l : List V) : Prop where
  length : count.toNat = l.length
  get : ∀ i, read i = l[i.toNat]?

variable {read read' : UInt64 → Option V} {count next : UInt64} {l : List V} {v : V}

theorem holds_nil : Holds (fun _ => (none : Option V)) 0 [] := ⟨rfl, fun _ => rfl⟩

theorem Holds.push (h : Holds read count l) (hnext : count.toNat + 1 = next.toNat)
    (hread : ∀ i, read' i = if i = count then some v else read i) : Holds read' next (l ++ [v]) where
  length := by rw [← hnext, h.length, List.length_append, List.length_singleton]
  get i := by
    rw [hread]
    by_cases hi : i = count
    · rw [if_pos hi, hi, h.length, List.getElem?_concat_length]
    · have hne : i.toNat ≠ l.length := by
        rw [← h.length]
        exact fun heq => hi (UInt64.toNat_inj.mp heq)
      rw [if_neg hi, h.get]
      rcases Nat.lt_or_ge i.toNat l.length with hlt | hge
      · rw [List.getElem?_append_left hlt]
      · have hlength : (l ++ [v]).length ≤ i.toNat := by
          rw [List.length_append, List.length_singleton]
          omega
        rw [List.getElem?_eq_none hge, List.getElem?_eq_none hlength]

theorem filterMap_getElem?_range' (l : List V) (n start : ℕ) (hn : l.length - start = n) :
    (List.range' start n).filterMap (fun i => l[i]?) = l.drop start := by
  induction n generalizing start with
  | zero =>
    rw [List.range'_zero, List.filterMap_nil, List.drop_eq_nil_of_le (by omega)]
  | succ n ih =>
    have hlt : start < l.length := by omega
    rw [List.range'_succ, List.filterMap_cons_some (List.getElem?_eq_getElem hlt),
      ih (start + 1) (by omega), ← List.drop_eq_getElem_cons hlt]

theorem Holds.filterMap_range' (h : Holds read count l) (start : ℕ) :
    (List.range' start (count.toNat - start)).filterMap (fun i => read (UInt64.ofNat i)) =
      l.drop start := by
  have hread : ∀ i ∈ List.range' start (count.toNat - start),
      read (UInt64.ofNat i) = l[i]? := by
    intro i hi
    rw [List.mem_range'_1] at hi
    have hsize : i < 2 ^ 64 := by
      have := count.toNat_lt
      omega
    rw [h.get, UInt64.toNat_ofNat_of_lt' hsize]
  rw [List.filterMap_congr hread]
  exact filterMap_getElem?_range' l _ start (by rw [h.length])

end NumberedLog
