import Mathlib.Data.List.Sort

/-!
# Unstable sorting

A sort that orders a list by a comparison and may leave elements that compare equal in any order.
-/

structure UnstableSort where
  sort : {α : Type} → (α → α → Bool) → List α → List α
  perm : ∀ {α : Type} (le : α → α → Bool) (l : List α), (sort le l).Perm l
  pairwise : ∀ {α : Type} (le : α → α → Bool) (l : List α),
    (∀ a b c, le a b = true → le b c = true → le a c = true) →
    (∀ a b, le a b = true ∨ le b a = true) → (sort le l).Pairwise fun a b => le a b = true

namespace UnstableSort

variable (u : UnstableSort) {α : Type} (le : α → α → Bool) (l : List α)

@[simp] theorem mem_sort {a : α} : a ∈ u.sort le l ↔ a ∈ l := (u.perm le l).mem_iff

/-- Taking the first elements of a sorted list leaves none behind that comes before them. -/
theorem le_of_mem_take (htrans : ∀ a b c, le a b = true → le b c = true → le a c = true)
    (htotal : ∀ a b, le a b = true ∨ le b a = true) {n : ℕ} {a b : α}
    (ha : a ∈ (u.sort le l).take n) (hb : b ∈ l) (hleft : b ∉ (u.sort le l).take n) :
    le a b = true := by
  have hsorted := u.pairwise le l htrans htotal
  have hmem := (u.mem_sort le l).mpr hb
  rw [← List.take_append_drop n (u.sort le l)] at hsorted hmem
  have hdropped : b ∈ (u.sort le l).drop n := (List.mem_append.mp hmem).resolve_left hleft
  exact (List.pairwise_append.mp hsorted).2.2 a ha b hdropped

section Scores

variable {β : Type} (score : β → ℕ) (n : ℕ) (m : List β)

def higher (a b : ℕ × β) : Bool := b.1 ≤ a.1

theorem higher_trans (a b c : ℕ × β) (hab : higher a b = true) (hbc : higher b c = true) :
    higher a c = true := by
  simp only [higher, decide_eq_true_eq] at *
  omega

theorem higher_total (a b : ℕ × β) : higher a b = true ∨ higher b a = true := by
  simp only [higher, decide_eq_true_eq]
  omega

/-- The elements with the highest scores, at most `n` of them. -/
def topScored : List β := ((u.sort higher (m.map fun a => (score a, a))).take n).map Prod.snd

variable {score n m} {a b : β}

theorem mem_scored {e : ℕ × β} (he : e ∈ (u.sort higher (m.map fun a => (score a, a))).take n) :
    e.2 ∈ m ∧ e.1 = score e.2 := by
  obtain ⟨a, ha, rfl⟩ := List.mem_map.mp ((u.mem_sort _ _).mp (List.mem_of_mem_take he))
  exact ⟨ha, rfl⟩

/-- No element is taken more often than it is there. -/
theorem topScored_subperm : (u.topScored score n m).Subperm m := by
  have hsub := ((List.take_sublist n _).map Prod.snd).subperm.trans
    ((u.perm higher (m.map fun a => (score a, a))).map Prod.snd).subperm
  have hsame : (m.map fun a => (score a, a)).map Prod.snd = m := by
    rw [List.map_map]
    exact List.map_id m
  rwa [hsame] at hsub

theorem length_topScored : (u.topScored score n m).length = min n m.length := by
  rw [topScored, List.length_map, List.length_take, (u.perm _ _).length_eq, List.length_map]

theorem pairwise_topScored : (u.topScored score n m).Pairwise fun a b => score b ≤ score a := by
  have hsorted := u.pairwise higher (m.map fun a => (score a, a)) higher_trans higher_total
  refine List.pairwise_map.mpr ((hsorted.sublist (List.take_sublist n _)).imp_of_mem ?_)
  intro a b ha hb hab
  rw [← (u.mem_scored ha).2, ← (u.mem_scored hb).2]
  exact of_decide_eq_true hab

theorem score_le_of_not_mem_topScored (ha : a ∈ m) (hout : a ∉ u.topScored score n m)
    (hb : b ∈ u.topScored score n m) : score a ≤ score b := by
  obtain ⟨e, he, rfl⟩ := List.mem_map.mp hb
  have hmem : (score a, a) ∈ m.map fun a => (score a, a) := List.mem_map_of_mem ha
  have hle := of_decide_eq_true (u.le_of_mem_take higher _ higher_trans higher_total he hmem
    fun hleft => hout (List.mem_map.mpr ⟨_, hleft, rfl⟩))
  rwa [(u.mem_scored he).2] at hle

end Scores

/-- Where only equal elements compare equal, every unstable sort gives the same list. -/
theorem sort_eq_sort (v : UnstableSort)
    (htrans : ∀ a b c, le a b = true → le b c = true → le a c = true)
    (htotal : ∀ a b, le a b = true ∨ le b a = true)
    (hanti : ∀ a ∈ l, ∀ b ∈ l, le a b = true → le b a = true → a = b) :
    u.sort le l = v.sort le l := by
  refine List.Perm.eq_of_pairwise ?_ (u.pairwise le l htrans htotal)
    (v.pairwise le l htrans htotal) ((u.perm le l).trans (v.perm le l).symm)
  intro a b ha hb
  exact hanti a ((u.mem_sort le l).mp ha) b ((v.mem_sort le l).mp hb)

def insertion : UnstableSort where
  sort := fun le l => l.insertionSort fun a b => le a b = true
  perm := fun _ l => List.perm_insertionSort _ l
  pairwise := by
    intro α le l htrans htotal
    have : IsTrans α fun a b => le a b = true := ⟨htrans⟩
    have : Std.Total fun a b => le a b = true := ⟨htotal⟩
    exact List.pairwise_insertionSort _ l

/-- Insertion sort of the reversed list, which leaves equal elements in the opposite order. -/
def reversed : UnstableSort where
  sort := fun le l => insertion.sort le l.reverse
  perm := fun le l => (insertion.perm le l.reverse).trans (List.reverse_perm l)
  pairwise := fun le l => insertion.pairwise le l.reverse

end UnstableSort
