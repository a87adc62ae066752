import Mathlib.Data.List.Sort

/-!
# Stable sorting by a comparator

Elements that compare equal stay in the order they had. The sorted list is then the same for every
order of the elements exactly when only equal elements compare equal.
-/

namespace StableSort

variable {α : Type} {cmp : α → α → Ordering} {l other : List α} {a b : α}

/-- `slice::sort_by`. -/
def sortBy (cmp : α → α → Ordering) (l : List α) : List α :=
  l.mergeSort fun a b => cmp a b ≠ .gt

theorem sortBy_perm (cmp : α → α → Ordering) (l : List α) : (sortBy cmp l).Perm l :=
  List.mergeSort_perm l _

@[simp] theorem mem_sortBy : a ∈ sortBy cmp l ↔ a ∈ l := (sortBy_perm cmp l).mem_iff

theorem sortBy_of_pairwise (h : l.Pairwise fun a b => cmp a b ≠ .gt) : sortBy cmp l = l :=
  List.mergeSort_of_pairwise (h.imp decide_eq_true)

def ties (cmp : α → α → Ordering) (a : α) (l : List α) : List α := l.filter fun b => cmp a b = .eq

theorem mem_ties : b ∈ ties cmp a l ↔ b ∈ l ∧ cmp a b = .eq := by
  rw [ties, List.mem_filter, decide_eq_true_iff]

theorem ties_cons (h : cmp a b = .eq) : ties cmp a (b :: l) = b :: ties cmp a l :=
  List.filter_cons_of_pos (decide_eq_true h)

variable [Std.TransCmp cmp]

theorem le_trans (a b c : α) (hab : decide (cmp a b ≠ .gt) = true)
    (hbc : decide (cmp b c ≠ .gt) = true) : decide (cmp a c ≠ .gt) = true := by
  simp only [decide_eq_true_eq, ne_eq, ← Ordering.isLE_iff_ne_gt] at hab hbc ⊢
  exact Std.TransCmp.isLE_trans hab hbc

theorem le_total (a b : α) : (decide (cmp a b ≠ .gt) || decide (cmp b a ≠ .gt)) = true := by
  have hswap : cmp b a = (cmp a b).swap := Std.OrientedCmp.eq_swap
  rw [hswap]
  cases cmp a b with
  | lt => rfl
  | eq => rfl
  | gt => rfl

theorem pairwise_sortBy (l : List α) : (sortBy cmp l).Pairwise fun a b => cmp a b ≠ .gt :=
  (List.pairwise_mergeSort le_trans le_total l).imp of_decide_eq_true

/-- Elements that compare equal keep their order. -/
theorem ties_sortBy (a : α) (l : List α) : ties cmp a (sortBy cmp l) = ties cmp a l := by
  have hties : (ties cmp a l).Pairwise fun b c => decide (cmp b c ≠ .gt) = true := by
    refine List.pairwise_of_forall_mem_list fun b hb c hc => ?_
    have hab := Std.OrientedCmp.eq_symm (mem_ties.mp hb).2
    rw [Std.TransCmp.eq_trans hab (mem_ties.mp hc).2]
    rfl
  have hsub : (ties cmp a l).Sublist (sortBy cmp l) :=
    List.sublist_mergeSort le_trans le_total hties List.filter_sublist
  have hfilter : ties cmp a (ties cmp a l) = ties cmp a l := by
    rw [ties, List.filter_eq_self]
    intro b hb
    exact decide_eq_true (mem_ties.mp hb).2
  refine (List.Sublist.eq_of_length ?_ ?_).symm
  · rw [← hfilter]
    exact hsub.filter _
  · exact ((sortBy_perm cmp l).filter _).length_eq.symm

/-- Two elements of a list can be brought to its front. -/
theorem exists_perm_cons_cons (ha : a ∈ l) (hb : b ∈ l) (hne : a ≠ b) :
    ∃ rest, (a :: b :: rest).Perm l := by
  obtain ⟨s, t, rfl⟩ := List.append_of_mem ha
  have hmiddle : (s ++ a :: t).Perm (a :: (s ++ t)) := List.perm_middle
  have hb : b ∈ s ++ t := ((List.mem_cons.mp (hmiddle.mem_iff.mp hb)).resolve_left hne.symm)
  obtain ⟨s', t', hst⟩ := List.append_of_mem hb
  refine ⟨s' ++ t', (hmiddle.trans ?_).symm⟩
  rw [hst]
  exact List.Perm.cons a List.perm_middle

/-- A sorted list does not depend on the order of the input exactly when only equal elements
compare equal. -/
theorem sortBy_congr_iff : (∀ other : List α, other.Perm l → sortBy cmp other = sortBy cmp l) ↔
    ∀ a ∈ l, ∀ b ∈ l, cmp a b = .eq → a = b := by
  constructor
  · intro hsame a ha b hb htie
    by_contra hne
    obtain ⟨rest, hrest⟩ := exists_perm_cons_cons ha hb hne
    have hswapped : (b :: a :: rest).Perm l := (List.Perm.swap a b rest).trans hrest
    have hsorted := (hsame _ hrest).trans (hsame _ hswapped).symm
    -- the two lists differ in the order of `a` and `b`, which the sort keeps
    have hties := congrArg (ties cmp a) hsorted
    rw [ties_sortBy, ties_sortBy, ties_cons Std.ReflCmp.compare_self,
      ties_cons (l := a :: rest) htie] at hties
    exact hne (List.cons.inj hties).1
  · intro hties other hperm
    refine List.Perm.eq_of_pairwise ?_ (pairwise_sortBy other) (pairwise_sortBy l)
      ((sortBy_perm cmp other).trans (hperm.trans (sortBy_perm cmp l).symm))
    intro a b ha hb hab hba
    refine hties a (hperm.mem_iff.mp (mem_sortBy.mp ha)) b (mem_sortBy.mp hb) ?_
    have hswap : cmp b a = (cmp a b).swap := Std.OrientedCmp.eq_swap
    rw [hswap] at hba
    cases hcmp : cmp a b with
    | lt =>
      rw [hcmp] at hba
      exact absurd rfl hba
    | eq => rfl
    | gt => exact absurd hcmp hab

/-- Where only equal elements compare equal, sorting forgets the order and nothing else. -/
theorem sortBy_eq_iff_perm [Std.LawfulEqCmp cmp] :
    sortBy cmp l = sortBy cmp other ↔ l.Perm other := by
  constructor
  · intro hsame
    have hother := sortBy_perm cmp other
    rw [← hsame] at hother
    exact (sortBy_perm cmp l).symm.trans hother
  · intro hperm
    exact sortBy_congr_iff.mpr (fun a _ b _ htie => Std.LawfulEqCmp.eq_of_compare htie) l hperm

end StableSort
