import Mathlib.Algebra.BigOperators.Group.List.Basic
import Mathlib.Algebra.GroupWithZero.Nat
import Std.Data.TreeMap.Lemmas

/-!
# Ordered maps with keys that compare equal only when they are

Lookups after an insertion or a removal by equality of the keys, and sums over all values of a map.
-/

namespace OrderedMap

variable {α β : Type*} {cmp : α → α → Ordering} [Std.TransCmp cmp] [Std.LawfulEqCmp cmp]

section Lookups

variable [DecidableEq α]

theorem getElem?_insert (t : Std.TreeMap α β cmp) (k k' : α) (v : β) :
    (t.insert k v)[k']? = if k = k' then some v else t[k']? := by
  simp only [Std.TreeMap.getElem?_insert, Std.LawfulEqCmp.compare_eq_iff_eq]

theorem getElem?_erase (t : Std.TreeMap α β cmp) (k k' : α) :
    (t.erase k)[k']? = if k = k' then none else t[k']? := by
  simp only [Std.TreeMap.getElem?_erase, Std.LawfulEqCmp.compare_eq_iff_eq]

theorem getD_insert (t : Std.TreeMap α β cmp) (k k' : α) (v fallback : β) :
    (t.insert k v).getD k' fallback = if k = k' then v else t.getD k' fallback := by
  simp only [Std.TreeMap.getD_insert, Std.LawfulEqCmp.compare_eq_iff_eq]

/-- The value that a key has already changes nothing. -/
theorem toList_insert_of_getElem? {t : Std.TreeMap α β cmp} {k : α} {v : β} (h : t[k]? = some v) :
    (t.insert k v).toList = t.toList := by
  refine Std.TreeMap.Equiv.toList_eq (Std.TreeMap.Equiv.of_forall_constGet?_eq fun k' => ?_)
  rw [getElem?_insert]
  split
  · rename_i hk
    rw [← hk, h]
  · rfl

/-- Setting the value of a key replaces what it had in a sum over all values. -/
theorem sum_toList_insert (t : Std.TreeMap α β cmp) (f : β → ℕ) (k : α) (v : β) :
    ((t.insert k v).toList.map fun e => f e.2).sum + t[k]?.elim 0 f =
      (t.toList.map fun e => f e.2).sum + f v := by
  have hinsert (v : β) : ((t.insert k v).toList.map fun e => f e.2).sum =
      f v + ((t.toList.filter fun e => ¬ (k == e.1) = true).map fun e => f e.2).sum := by
    rw [(Std.TreeMap.toList_insert_perm.map fun e : α × β => f e.2).sum_nat, List.map_cons,
      List.sum_cons]
  cases hget : t[k]? with
  | none =>
    have hall : (t.toList.filter fun e => ¬ (k == e.1) = true) = t.toList := by
      rw [List.filter_eq_self]
      intro e he
      refine decide_eq_true fun hk => ?_
      have hsome := Std.TreeMap.mem_toList_iff_getElem?_eq_some.mp he
      rw [← beq_iff_eq.mp hk, hget] at hsome
      cases hsome
    rw [hinsert, hall, Option.elim_none]
    omega
  | some old =>
    have hold := hinsert old
    rw [toList_insert_of_getElem? hget] at hold
    rw [hinsert, hold, Option.elim_some]
    omega

end Lookups

end OrderedMap
