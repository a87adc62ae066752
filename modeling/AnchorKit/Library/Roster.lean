import AnchorKit.Library.KeyedStore
import Mathlib.Data.List.Nodup

/-!
# Rosters

A finite set kept three times: as a store of flags, as a store of values for its members, and as
a list of its members. The representations agree when each member has a flag, a value and one
place in the list, and nothing else has any of them.
-/

namespace Roster

variable {K F V : Type}

structure Agrees (flag : KeyedStore K F) (value : KeyedStore K V) (list : List K) : Prop where
  value_iff : ∀ a, flag.has a = true ↔ value.has a = true
  mem_iff : ∀ a, flag.has a = true ↔ a ∈ list
  nodup : list.Nodup

variable {flag : KeyedStore K F} {value : KeyedStore K V} {list : List K} {a : K}

theorem agrees_empty : Agrees (.empty : KeyedStore K F) (.empty : KeyedStore K V) [] :=
  ⟨by simp, by simp, List.nodup_nil⟩

theorem Agrees.not_mem (h : Agrees flag value list) (ha : flag.has a = false) : a ∉ list := by
  intro hmem
  rw [(h.mem_iff a).mpr hmem] at ha
  cases ha

variable [DecidableEq K]

def pushIfAbsent (list : List K) (a : K) : List K := if a ∈ list then list else list ++ [a]

theorem mem_pushIfAbsent {b : K} : b ∈ pushIfAbsent list a ↔ b = a ∨ b ∈ list := by
  unfold pushIfAbsent
  by_cases h : a ∈ list
  · rw [if_pos h]
    constructor
    · exact Or.inr
    · rintro (rfl | hb)
      · exact h
      · exact hb
  · rw [if_neg h]
    simp [or_comm]

theorem nodup_pushIfAbsent (h : list.Nodup) : (pushIfAbsent list a).Nodup := by
  unfold pushIfAbsent
  by_cases ha : a ∈ list
  · rwa [if_pos ha]
  · rw [if_neg ha]
    exact List.concat_eq_append ▸ h.concat ha

theorem length_pushIfAbsent (ha : a ∉ list) : (pushIfAbsent list a).length = list.length + 1 := by
  rw [pushIfAbsent, if_neg ha, List.length_append, List.length_singleton]

namespace Agrees

/-- Enrolling a new member in all three places. -/
theorem enroll (h : Agrees flag value list) (f : F) (v : V) :
    Agrees (flag.set a f) (value.set a v) (pushIfAbsent list a) := by
  refine ⟨fun b => ?_, fun b => ?_, nodup_pushIfAbsent h.nodup⟩
  · rw [KeyedStore.has_set, KeyedStore.has_set]
    by_cases hb : b = a
    · simp [hb]
    · simp [hb, h.value_iff b]
  · rw [KeyedStore.has_set, mem_pushIfAbsent]
    by_cases hb : b = a
    · simp [hb]
    · simp [hb, h.mem_iff b]

theorem withdraw (h : Agrees flag value list) :
    Agrees (flag.remove a) (value.remove a) (list.erase a) := by
  refine ⟨fun b => ?_, fun b => ?_, h.nodup.erase a⟩
  · rw [KeyedStore.has_remove, KeyedStore.has_remove]
    by_cases hb : b = a
    · simp [hb]
    · simp [hb, h.value_iff b]
  · rw [KeyedStore.has_remove, h.nodup.mem_erase_iff]
    by_cases hb : b = a
    · simp [hb]
    · simp [hb, h.mem_iff b]

/-- Withdrawing a member everywhere but in the list breaks the agreement. -/
theorem stranded (h : Agrees flag value list) (ha : flag.has a = true) :
    ¬ Agrees (flag.remove a) (value.remove a) list := by
  intro hbad
  have hmem : a ∈ list := (h.mem_iff a).mp ha
  have hflag := (hbad.mem_iff a).mpr hmem
  rw [KeyedStore.has_remove, if_pos rfl] at hflag
  cases hflag

theorem length_erase (h : Agrees flag value list) (ha : flag.has a = true) :
    (list.erase a).length + 1 = list.length := by
  have hmem : a ∈ list := (h.mem_iff a).mp ha
  rw [List.length_erase_of_mem hmem]
  have hpos := List.length_pos_of_mem hmem
  omega

end Agrees

end Roster
