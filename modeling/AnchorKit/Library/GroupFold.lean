import Mathlib.Data.List.Nodup
import Mathlib.Data.List.Dedup
import Mathlib.Algebra.BigOperators.Group.List.Basic
import Mathlib.Algebra.GroupWithZero.Nat

/-!
# Folding groups of a sorted sequence

A pass over records in the order of their keys that folds the records of one key into a summary and
starts a new one when the key changes. What the pass keeps is, at every point, the summaries of
the groups so far.
-/

namespace GroupFold

variable {R S : Type*} (key : R → ℕ) (add : S → R → S) (empty : S)

def group (k : ℕ) (l : List R) : List R := l.filter fun r => key r = k

def summary (k : ℕ) (l : List R) : S := (group key k l).foldl add empty

/-- The finished groups are those with records before the current key, in order and each with its
summary; the records of the current key are folded apart. -/
structure Grouped (past : List R) (done : List (ℕ × S)) (current : ℕ) (scratch : S) : Prop where
  increasing : (done.map Prod.fst).Pairwise (· < ·)
  before : ∀ g ∈ done, g.1 < current
  nonempty : ∀ g ∈ done, group key g.1 past ≠ []
  summarized : ∀ g ∈ done, g.2 = summary key add empty g.1 past
  folded : scratch = summary key add empty current past
  covered : ∀ r ∈ past, key r = current ∨ ∃ g ∈ done, g.1 = key r

structure Groups (past : List R) (done : List (ℕ × S)) : Prop where
  increasing : (done.map Prod.fst).Pairwise (· < ·)
  nonempty : ∀ g ∈ done, group key g.1 past ≠ []
  summarized : ∀ g ∈ done, g.2 = summary key add empty g.1 past
  covered : ∀ r ∈ past, ∃ g ∈ done, g.1 = key r

variable {key add empty} {past : List R} {done : List (ℕ × S)} {current : ℕ} {scratch : S} {r : R}

theorem group_snoc_of_eq (h : key r = current) :
    group key current (past ++ [r]) = group key current past ++ [r] := by
  simp [group, h]

theorem group_snoc_of_ne {k : ℕ} (h : key r ≠ k) :
    group key k (past ++ [r]) = group key k past := by
  simp [group, h]

theorem group_eq_nil {k : ℕ} : group key k past = [] ↔ ∀ r ∈ past, key r ≠ k := by
  simp [group]

theorem Grouped.start (current : ℕ) : Grouped key add empty [] [] current empty where
  increasing := List.Pairwise.nil
  before := by simp
  nonempty := by simp
  summarized := by simp
  folded := rfl
  covered := by simp

theorem Grouped.push (h : Grouped key add empty past done current scratch) (hr : key r = current) :
    Grouped key add empty (past ++ [r]) done current (add scratch r) where
  increasing := h.increasing
  before := h.before
  nonempty g hg := by
    rw [group_snoc_of_ne (hr ▸ Nat.ne_of_gt (h.before g hg))]
    exact h.nonempty g hg
  summarized g hg := by
    rw [h.summarized g hg, summary, summary,
      group_snoc_of_ne (hr ▸ Nat.ne_of_gt (h.before g hg))]
  folded := by
    rw [h.folded, summary, summary, group_snoc_of_eq hr, List.foldl_append]
    rfl
  covered x hx := by
    rcases List.mem_append.mp hx with hx | hx
    · exact h.covered x hx
    · rw [List.mem_singleton.mp hx]
      exact Or.inl hr

theorem Grouped.le_current (h : Grouped key add empty past done current scratch) :
    ∀ r ∈ past, key r ≤ current := by
  intro r hr
  rcases h.covered r hr with heq | ⟨g, hg, heq⟩
  · exact Nat.le_of_eq heq
  · rw [← heq]
    exact Nat.le_of_lt (h.before g hg)

theorem Grouped.close (h : Grouped key add empty past done current scratch) {next : ℕ}
    (hnext : current < next) :
    Grouped key add empty past
      (done ++ if group key current past = [] then [] else [(current, scratch)]) next empty := by
  have hbefore : ∀ g ∈ done ++ (if group key current past = [] then [] else [(current, scratch)]),
      g ∈ done ∨ g = (current, scratch) ∧ group key current past ≠ [] := by
    intro g hg
    rcases List.mem_append.mp hg with hg | hg
    · exact Or.inl hg
    · split at hg
      · cases hg
      · rename_i hne
        exact Or.inr ⟨List.mem_singleton.mp hg, hne⟩
  constructor
  · rw [List.map_append, List.pairwise_append]
    refine ⟨h.increasing, ?_, ?_⟩
    · split
      · exact List.Pairwise.nil
      · exact List.pairwise_singleton _ _
    · intro k hk k' hk'
      obtain ⟨g, hg, rfl⟩ := List.mem_map.mp hk
      split at hk'
      · cases hk'
      · rw [List.mem_singleton.mp hk']
        exact h.before g hg
  · intro g hg
    rcases hbefore g hg with hg | ⟨rfl, _⟩
    · exact Nat.lt_trans (h.before g hg) hnext
    · exact hnext
  · intro g hg
    rcases hbefore g hg with hg | ⟨rfl, hne⟩
    · exact h.nonempty g hg
    · exact hne
  · intro g hg
    rcases hbefore g hg with hg | ⟨rfl, _⟩
    · exact h.summarized g hg
    · exact h.folded
  · have hnone : group key next past = [] :=
      group_eq_nil.mpr fun r hr => Nat.ne_of_lt (Nat.lt_of_le_of_lt (h.le_current r hr) hnext)
    rw [summary, hnone]
    rfl
  · intro r hr
    right
    rcases h.covered r hr with heq | ⟨g, hg, heq⟩
    · have hne : group key current past ≠ [] := fun hnil => group_eq_nil.mp hnil r hr heq
      refine ⟨(current, scratch), ?_, heq.symm⟩
      rw [if_neg hne]
      exact List.mem_append_right _ List.mem_cons_self
    · exact ⟨g, List.mem_append_left _ hg, heq⟩

theorem Grouped.finish (h : Grouped key add empty past done current scratch) :
    Groups key add empty past
      (done ++ if group key current past = [] then [] else [(current, scratch)]) := by
  have hclosed := h.close (Nat.lt_succ_self current)
  refine ⟨hclosed.increasing, hclosed.nonempty, hclosed.summarized, ?_⟩
  intro r hr
  rcases hclosed.covered r hr with heq | hex
  · have hle := h.le_current r hr
    omega
  · exact hex

namespace Groups

variable (h : Groups key add empty past done)
include h

theorem nodup_keys : (done.map Prod.fst).Nodup := h.increasing.imp fun hlt => Nat.ne_of_lt hlt

theorem perm_keys : (done.map Prod.fst).Perm (past.map key).dedup := by
  rw [List.perm_ext_iff_of_nodup h.nodup_keys (List.nodup_dedup _)]
  intro k
  rw [List.mem_dedup, List.mem_map, List.mem_map]
  constructor
  · rintro ⟨g, hg, rfl⟩
    obtain ⟨r, hr⟩ := List.exists_mem_of_ne_nil _ (h.nonempty g hg)
    obtain ⟨hmem, hkey⟩ := List.mem_filter.mp hr
    exact ⟨r, hmem, of_decide_eq_true hkey⟩
  · rintro ⟨r, hr, rfl⟩
    exact h.covered r hr

theorem exists_of_ne_nil {k : ℕ} (hk : group key k past ≠ []) :
    ∃ g ∈ done, g.1 = k ∧ g.2 = summary key add empty k past := by
  obtain ⟨r, hr⟩ := List.exists_mem_of_ne_nil _ hk
  obtain ⟨hmem, hkey⟩ := List.mem_filter.mp hr
  obtain ⟨g, hg, heq⟩ := h.covered r hmem
  rw [of_decide_eq_true hkey] at heq
  exact ⟨g, hg, heq, heq ▸ h.summarized g hg⟩

end Groups

/-- Values summed group by group are summed once each. -/
theorem sum_groups {keys : List ℕ} (hkeys : keys.Nodup) (f : R → ℕ) {l : List R}
    (h : ∀ r ∈ l, key r ∈ keys) :
    (keys.map fun k => ((group key k l).map f).sum).sum = (l.map f).sum := by
  induction l with
  | nil => simp [group]
  | cons r l ih =>
    have hgroup : ∀ k, ((group key k (r :: l)).map f).sum =
        (if k = key r then f r else 0) + ((group key k l).map f).sum := by
      intro k
      by_cases hk : key r = k
      · simp [group, hk]
      · simp [group, hk, Ne.symm hk]
    have hone : (keys.map fun k => if k = key r then f r else 0).sum = f r := by
      rw [List.sum_map_eq_nsmul_single (key r), List.count_eq_one_of_mem hkeys (h r List.mem_cons_self),
        one_nsmul, if_pos rfl]
      intro k hne _
      exact if_neg hne
    simp only [hgroup]
    rw [List.sum_map_add, hone, ih fun x hx => h x (List.mem_cons_of_mem _ hx), List.map_cons,
      List.sum_cons]

end GroupFold
