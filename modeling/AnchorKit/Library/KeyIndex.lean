import AnchorKit.Library.KeyedStore
import Mathlib.Data.Set.Card

/-!
# Indexed stores

A list that indexes a keyed store holds each key in use once and no other. Appending a key that
was free, rewriting the value of a key in use and removing keys from both keep the index exact.
-/

variable {K V : Type*}

structure KeyIndex (m : KeyedStore K V) (ks : List K) : Prop where
  nodup : ks.Nodup
  mem_iff : ∀ k, k ∈ ks ↔ m.has k = true

namespace KeyIndex

theorem empty : KeyIndex (.empty : KeyedStore K V) [] where
  nodup := List.nodup_nil
  mem_iff := by simp

variable [DecidableEq K] {m : KeyedStore K V} {ks : List K} {k : K}

theorem append (h : KeyIndex m ks) (hfree : m.has k = false) (v : V) :
    KeyIndex (m.set k v) (ks ++ [k]) where
  nodup := by
    have hnew : k ∉ ks := by
      rw [h.mem_iff, hfree]
      nofun
    exact h.nodup.append (List.nodup_singleton k) (by simpa using hnew)
  mem_iff := by
    intro x
    rw [List.mem_append, List.mem_singleton, h.mem_iff, KeyedStore.has_set]
    by_cases hx : x = k <;> simp [hx]

theorem overwrite (h : KeyIndex m ks) (hused : m.has k = true) (v : V) :
    KeyIndex (m.set k v) ks where
  nodup := h.nodup
  mem_iff := by
    intro x
    rw [h.mem_iff, KeyedStore.has_set]
    by_cases hx : x = k
    · simp [hx, hused]
    · simp [hx]

theorem remove (h : KeyIndex m ks) (gone : List K) :
    KeyIndex (gone.foldl KeyedStore.remove m) (ks.filter fun k => !gone.contains k) where
  nodup := h.nodup.filter _
  mem_iff := by
    intro x
    have hget := KeyedStore.get_foldl_remove m gone x
    have hhas : (gone.foldl KeyedStore.remove m).has x = if x ∈ gone then false else m.has x := by
      unfold KeyedStore.has
      rw [hget]
      split <;> rfl
    rw [List.mem_filter, h.mem_iff, hhas]
    by_cases hx : x ∈ gone <;> simp [hx]

theorem count_eq_one (h : KeyIndex m ks) (hused : m.has k = true) : ks.count k = 1 :=
  List.count_eq_one_of_mem h.nodup ((h.mem_iff k).mpr hused)

theorem ncard_eq_length (h : KeyIndex m ks) : Set.ncard {k | m.has k = true} = ks.length := by
  have hset : {k | m.has k = true} = (ks.toFinset : Set K) := by
    ext k
    simp [← h.mem_iff]
  rw [hset, Set.ncard_coe_finset, List.toFinset_card_of_nodup h.nodup]

end KeyIndex
