import AnchorKit.Library.Roster
import Mathlib.Data.List.Infix
import Mathlib.Data.List.Perm.Subperm
import Mathlib.Logic.Relation

/-!
# Breadth-first walks

The nodes of a directed graph in the order in which a breadth-first walk discovers them, and the
walk that keeps no more than a given number of nodes. Such a walk keeps the first nodes of the
order, and the whole order lists the nodes that can be reached.
-/

namespace BreadthFirst

open Relation Roster

variable {α : Type}

/-! ### Reachability under a new edge -/

/-- A path that may use one edge more is an old path or goes through the edge. -/
theorem transGen_or_edge {r : α → α → Prop} {a b x y : α}
    (h : TransGen (fun u v => r u v ∨ u = a ∧ v = b) x y) :
    TransGen r x y ∨ ReflTransGen r x a ∧ ReflTransGen r b y := by
  induction h with
  | single hstep =>
    rcases hstep with hr | ⟨rfl, rfl⟩
    · exact Or.inl (.single hr)
    · exact Or.inr ⟨.refl, .refl⟩
  | tail _ hstep ih =>
    rcases hstep with hr | ⟨rfl, rfl⟩
    · rcases ih with hold | ⟨hin, hout⟩
      · exact Or.inl (hold.tail hr)
      · exact Or.inr ⟨hin, hout.tail hr⟩
    · rcases ih with hold | ⟨hin, _⟩
      · exact Or.inr ⟨hold.to_reflTransGen, .refl⟩
      · exact Or.inr ⟨hin, .refl⟩

/-- An edge closes a cycle only when its end reaches its start. -/
theorem acyclic_or_edge {r : α → α → Prop} {a b : α} (h : ∀ x, ¬ TransGen r x x)
    (hba : ¬ ReflTransGen r b a) (x : α) : ¬ TransGen (fun u v => r u v ∨ u = a ∧ v = b) x x := by
  intro hcycle
  rcases transGen_or_edge hcycle with hold | ⟨hin, hout⟩
  · exact h x hold
  · exact hba (hout.trans hin)

/-! ### The order of discovery -/

variable [DecidableEq α]

def discover (known next : List α) : List α := next.foldl pushIfAbsent known

variable (succ : α → List α) (start : α)

/-- The known nodes after the first `k` of them have been expanded. -/
def order : ℕ → List α
  | 0 => [start]
  | k + 1 =>
    match (order k)[k]? with
    | some a => discover (order k) (succ a)
    | none => order k

theorem prefix_pushIfAbsent (known : List α) (a : α) : known <+: pushIfAbsent known a := by
  unfold pushIfAbsent
  split
  · exact List.prefix_rfl
  · exact List.prefix_append _ _

theorem prefix_discover (known next : List α) : known <+: discover known next := by
  induction next generalizing known with
  | nil => exact List.prefix_rfl
  | cons a next ih => exact (prefix_pushIfAbsent known a).trans (ih _)

theorem mem_discover {known next : List α} {a : α} :
    a ∈ discover known next ↔ a ∈ known ∨ a ∈ next := by
  induction next generalizing known with
  | nil => simp [discover]
  | cons b next ih =>
    have hcons : a ∈ discover known (b :: next) ↔ a ∈ pushIfAbsent known b ∨ a ∈ next := ih
    rw [hcons, mem_pushIfAbsent, List.mem_cons]
    tauto

/-- Nothing is noted twice. -/
theorem discover_of_subset {known next : List α} (h : ∀ a ∈ next, a ∈ known) :
    discover known next = known := by
  induction next with
  | nil => rfl
  | cons a next ih =>
    have hhead : pushIfAbsent known a = known := if_pos (h a List.mem_cons_self)
    have hcons : discover known (a :: next) = discover (pushIfAbsent known a) next := rfl
    rw [hcons, hhead]
    exact ih fun b hb => h b (List.mem_cons_of_mem a hb)

theorem discover_of_nodup {known next : List α} (h : (known ++ next).Nodup) :
    discover known next = known ++ next := by
  induction next generalizing known with
  | nil => simp [discover]
  | cons a next ih =>
    have hnew : a ∉ known := by
      intro ha
      exact (List.nodup_append.mp h).2.2 a ha a List.mem_cons_self rfl
    have hcons : discover known (a :: next) = discover (pushIfAbsent known a) next := rfl
    rw [hcons, pushIfAbsent, if_neg hnew, ih (by simpa using h), List.append_assoc,
      List.singleton_append]

theorem order_succ_of_get {k : ℕ} {a : α} (h : (order succ start k)[k]? = some a) :
    order succ start (k + 1) = discover (order succ start k) (succ a) := by
  rw [order, h]

theorem order_succ_of_length_le {k : ℕ} (h : (order succ start k).length ≤ k) :
    order succ start (k + 1) = order succ start k := by
  rw [order, List.getElem?_eq_none h]

theorem prefix_order_succ (k : ℕ) : order succ start k <+: order succ start (k + 1) := by
  rw [order]
  split
  · exact prefix_discover _ _
  · exact List.prefix_rfl

theorem prefix_order {k l : ℕ} (h : k ≤ l) : order succ start k <+: order succ start l := by
  induction l, h using Nat.le_induction with
  | base => exact List.prefix_rfl
  | succ l _ ih => exact ih.trans (prefix_order_succ succ start l)

theorem order_getElem? {k l i : ℕ} {a : α} (h : k ≤ l) (ha : (order succ start k)[i]? = some a) :
    (order succ start l)[i]? = some a := by
  obtain ⟨rest, hrest⟩ := prefix_order succ start h
  obtain ⟨hi, _⟩ := List.getElem?_eq_some_iff.mp ha
  rw [← hrest, List.getElem?_append_left hi, ha]

/-- A position below the number of expansions is filled by then or stays empty. -/
theorem order_getElem?_of_lt {i k : ℕ} {a : α} (hik : i ≤ k)
    (ha : (order succ start k)[i]? = some a) : (order succ start i)[i]? = some a := by
  by_contra hnot
  have hnone : (order succ start i)[i]? = none := by
    cases hi : (order succ start i)[i]? with
    | none => rfl
    | some b =>
      have hb := order_getElem? succ start hik hi
      rw [ha] at hb
      exact absurd (hi.trans hb.symm) hnot
  have hstays : ∀ l, i ≤ l → order succ start l = order succ start i := by
    intro l hl
    induction l, hl using Nat.le_induction with
    | base => rfl
    | succ l hl ih =>
      rw [order_succ_of_length_le succ start, ih]
      rw [ih]
      exact (List.getElem?_eq_none_iff.mp hnone).trans hl
  rw [hstays k hik, hnone] at ha
  cases ha

/-- What the expanded nodes lead to is known. -/
theorem succ_subset_order {i k : ℕ} {a b : α} (hik : i < k)
    (ha : (order succ start k)[i]? = some a) (hb : b ∈ succ a) : b ∈ order succ start k := by
  have hhere := order_getElem?_of_lt succ start hik.le ha
  have hnext : b ∈ order succ start (i + 1) := by
    rw [order_succ_of_get succ start hhere]
    exact mem_discover.mpr (Or.inr hb)
  exact (prefix_order succ start hik).subset hnext

abbrev Reaches : α → α → Prop := ReflTransGen fun a b => b ∈ succ a

theorem reaches_of_mem_order {k : ℕ} {a : α} (h : a ∈ order succ start k) :
    Reaches succ start a := by
  induction k generalizing a with
  | zero =>
    obtain rfl := List.mem_singleton.mp h
    exact .refl
  | succ k ih =>
    rw [order] at h
    split at h
    · rename_i node hnode
      rcases mem_discover.mp h with hold | hnew
      · exact ih hold
      · exact (ih (List.mem_of_getElem? hnode)).tail hnew
    · exact ih h

theorem mem_order_of_reaches {a : α} (h : Reaches succ start a) : ∃ k, a ∈ order succ start k := by
  induction h with
  | refl => exact ⟨0, List.mem_singleton_self start⟩
  | tail _ hstep ih =>
    obtain ⟨k, hk⟩ := ih
    obtain ⟨i, hi⟩ := List.mem_iff_getElem?.mp hk
    -- by the time that many nodes are expanded, the node before is among them
    have hlate := order_getElem? succ start (Nat.le_max_left k (i + 1)) hi
    exact ⟨max k (i + 1), succ_subset_order succ start (Nat.le_max_right k (i + 1)) hlate hstep⟩

/-! ### Walks of bounded size -/

variable (bound : ℕ)

def AmongFirst (a : α) : Prop := ∃ k, a ∈ (order succ start k).take bound

def pushWithin (known : List α) (a : α) : List α :=
  if a ∈ known ∨ bound ≤ known.length then known else known ++ [a]

def discoverWithin (known next : List α) : List α := next.foldl (pushWithin bound) known

variable {succ start bound}

theorem AmongFirst.reaches {a : α} (h : AmongFirst succ start bound a) :
    Reaches succ start a := by
  obtain ⟨k, hk⟩ := h
  exact reaches_of_mem_order succ start (List.mem_of_mem_take hk)

theorem prefix_discoverWithin (known next : List α) : known <+: discoverWithin bound known next := by
  induction next generalizing known with
  | nil => exact List.prefix_rfl
  | cons a next ih =>
    have hpush : known <+: pushWithin bound known a := by
      unfold pushWithin
      split
      · exact List.prefix_rfl
      · exact List.prefix_append _ _
    exact hpush.trans (ih _)

theorem pushWithin_take (known : List α) (a : α) :
    pushWithin bound (known.take bound) a = (pushIfAbsent known a).take bound := by
  unfold pushWithin pushIfAbsent
  rw [List.length_take]
  by_cases hfull : bound ≤ known.length
  · have hroom : a ∈ known.take bound ∨ bound ≤ min bound known.length := by omega
    rw [if_pos hroom]
    split
    · rfl
    · rw [List.take_append_of_le_length hfull]
  · have hlt : known.length < bound := by omega
    have hroom : ¬ bound ≤ min bound known.length := by omega
    rw [List.take_of_length_le hlt.le]
    by_cases ha : a ∈ known
    · rw [if_pos (Or.inl ha), if_pos ha, List.take_of_length_le hlt.le]
    · rw [if_neg (by tauto), if_neg ha, List.take_of_length_le (by simpa [Nat.succ_le_iff] using hlt)]

/-- With a bound, the first nodes of the unbounded discovery are kept. -/
theorem discoverWithin_take (known next : List α) :
    discoverWithin bound (known.take bound) next = (discover known next).take bound := by
  induction next generalizing known with
  | nil => rfl
  | cons a next ih =>
    have hcons : discoverWithin bound (known.take bound) (a :: next) =
      discoverWithin bound (pushWithin bound (known.take bound) a) next := rfl
    rw [hcons, pushWithin_take, ih]
    rfl

/-- Expanding any node that is already expanded, or the next one, leads along the order. -/
theorem discoverWithin_order {k i : ℕ} {a : α} (hik : i ≤ k)
    (ha : ((order succ start k).take bound)[i]? = some a) :
    discoverWithin bound ((order succ start k).take bound) (succ a) =
      (order succ start (max k (i + 1))).take bound := by
  have hget : (order succ start k)[i]? = some a := by
    rw [List.getElem?_take] at ha
    split at ha
    · exact ha
    · cases ha
  rw [discoverWithin_take]
  rcases Nat.lt_or_eq_of_le hik with hlt | rfl
  · have hknown : ∀ b ∈ succ a, b ∈ order succ start k :=
      fun b hb => succ_subset_order succ start hlt hget hb
    rw [discover_of_subset hknown, Nat.max_eq_left hlt]
  · rw [← order_succ_of_get succ start hget, Nat.max_eq_right (Nat.le_succ i)]

/-- Once all nodes that were kept have been expanded, the walk has kept what it ever will. -/
theorem amongFirst_iff_of_expanded {k : ℕ} (h : ((order succ start k).take bound).length ≤ k)
    {a : α} : AmongFirst succ start bound a ↔ a ∈ (order succ start k).take bound := by
  have hstays : ∀ l, k ≤ l → (order succ start l).take bound = (order succ start k).take bound := by
    intro l hl
    induction l, hl using Nat.le_induction with
    | base => rfl
    | succ l hl ih =>
      rw [← ih]
      rw [← ih, List.length_take] at h
      rcases Nat.lt_or_ge (order succ start l).length bound with hlt | hge
      · rw [order_succ_of_length_le succ start (by omega)]
      · -- the bound is used up, and the order only grows at its end
        obtain ⟨rest, hrest⟩ := prefix_order_succ succ start l
        rw [← hrest, List.take_append_of_le_length hge]
  constructor
  · rintro ⟨l, hl⟩
    rcases Nat.le_total k l with hkl | hlk
    · rwa [hstays l hkl] at hl
    · exact ((prefix_order succ start hlk).take bound).subset hl
  · exact fun ha => ⟨k, ha⟩

/-- When no more nodes can be reached than are kept, the walk keeps them all. -/
theorem amongFirst_iff_reaches (nodes : List α) (hlength : nodes.length ≤ bound)
    (hnodes : ∀ a, Reaches succ start a → a ∈ nodes) {a : α} :
    AmongFirst succ start bound a ↔ Reaches succ start a := by
  constructor
  · exact AmongFirst.reaches
  · intro h
    obtain ⟨k, hk⟩ := mem_order_of_reaches succ start h
    have hnodup : ∀ k, (order succ start k).Nodup := by
      intro k
      induction k with
      | zero => exact List.nodup_singleton start
      | succ k ih =>
        rw [order]
        split
        · exact List.foldlRecOn (motive := List.Nodup) _ _ ih fun _ hb _ _ => nodup_pushIfAbsent hb
        · exact ih
    have hsubset : order succ start k ⊆ nodes :=
      fun b hb => hnodes b (reaches_of_mem_order succ start hb)
    have hshort : (order succ start k).length ≤ bound :=
      (List.subperm_of_subset (hnodup k) hsubset).length_le.trans hlength
    exact ⟨k, by rwa [List.take_of_length_le hshort]⟩

end BreadthFirst
