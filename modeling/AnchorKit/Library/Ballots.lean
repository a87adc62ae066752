import AnchorKit.Library.KeyedStore
import Mathlib.Data.List.Nodup

/-!
# Ballots

A store of questions that are voted on. A ballot is opened with its first voter, takes every
further voter once while it is live, and is decided once, when enough voters have been counted.
A ballot that was decided or is no longer live stays as it is.
-/

namespace Ballots

variable {K V B : Type}

structure View (V B : Type) where
  voters : B → List V
  decided : B → Bool

structure Rules (V B : Type) where
  eligible : V → Prop
  live : B → Prop
  quorum : ℕ

inductive Event (K V : Type)
  | opened (k : K) (v : V)
  | voted (k : K) (v : V)
  | decided (k : K)
  | other

variable [DecidableEq K] {view : View V B} {rules : Rules V B} {m m' : KeyedStore K B}
  {e : Event K V} {k : K} {b : B} {v : V}

inductive Step (view : View V B) (rules : Rules V B) (m : KeyedStore K B) :
    Event K V → KeyedStore K B → Prop
  | opened {k : K} {v : V} {b : B} (hfree : m.get k = none) (hv : rules.eligible v)
      (hvoters : view.voters b = [v]) (hopen : view.decided b = false) :
      Step view rules m (.opened k v) (m.set k b)
  | voted {k : K} {v : V} {b b' : B} (hget : m.get k = some b) (hlive : rules.live b)
      (hopen : view.decided b = false) (hv : rules.eligible v) (hnew : v ∉ view.voters b)
      (hvoters : view.voters b' = view.voters b ++ [v]) (hopen' : view.decided b' = false) :
      Step view rules m (.voted k v) (m.set k b')
  | repeated {k : K} {v : V} : Step view rules m (.voted k v) m
  | decided {k : K} {b b' : B} (hget : m.get k = some b) (hlive : rules.live b)
      (hopen : view.decided b = false) (hquorum : rules.quorum ≤ (view.voters b).length)
      (hvoters : view.voters b' = view.voters b) (hdone : view.decided b' = true) :
      Step view rules m (.decided k) (m.set k b')
  | other : Step view rules m .other m

/-- No voter is counted twice. -/
def CountedOnce (view : View V B) (m : KeyedStore K B) : Prop :=
  ∀ k b, m.get k = some b → (view.voters b).Nodup

namespace Step

theorem get_of_settled (h : Step view rules m e m') (hget : m.get k = some b)
    (hsettled : view.decided b = true ∨ ¬ rules.live b) : m'.get k = some b := by
  have hother {x : K} {c c' : B} (hx : m.get x = some c) (hlive : rules.live c)
      (hopen : view.decided c = false) : (m.set x c').get k = some b := by
    have hne : k ≠ x := by
      rintro rfl
      obtain rfl := Option.some.inj (hget.symm.trans hx)
      rcases hsettled with hdone | hdead
      · rw [hopen] at hdone
        cases hdone
      · exact hdead hlive
    rw [KeyedStore.get_set_of_ne _ _ hne, hget]
  cases h with
  | @opened x _ _ hfree =>
    have hne : k ≠ x := by
      rintro rfl
      rw [hfree] at hget
      cases hget
    rw [KeyedStore.get_set_of_ne _ _ hne, hget]
  | voted hx hlive hopen => exact hother hx hlive hopen
  | decided hx hlive hopen => exact hother hx hlive hopen
  | repeated | other => exact hget

theorem countedOnce (h : Step view rules m e m') (hm : CountedOnce view m) :
    CountedOnce view m' := by
  have hset {x : K} {c : B} (hc : (view.voters c).Nodup) : CountedOnce view (m.set x c) := by
    intro k b hget
    rcases KeyedStore.get_set_cases hget with ⟨_, rfl⟩ | hold
    · exact hc
    · exact hm k b hold
  cases h with
  | opened hfree hv hvoters => exact hset (by simp [hvoters])
  | voted hget hlive hopen hv hnew hvoters =>
    refine hset ?_
    rw [hvoters, ← List.concat_eq_append]
    exact (hm _ _ hget).concat hnew
  | decided hget hlive hopen hquorum hvoters => exact hset (hvoters ▸ hm _ _ hget)
  | repeated | other => exact hm

theorem voter_origin (h : Step view rules m e m') (hget : m'.get k = some b)
    (hv : v ∈ view.voters b) :
    (∃ c, m.get k = some c ∧ v ∈ view.voters c) ∨
      (rules.eligible v ∧ (e = .opened k v ∨ e = .voted k v)) := by
  cases h with
  | opened hfree heligible hvoters =>
    rcases KeyedStore.get_set_cases hget with ⟨rfl, rfl⟩ | hold
    · obtain rfl : v = _ := by simpa [hvoters] using hv
      exact Or.inr ⟨heligible, .inl rfl⟩
    · exact Or.inl ⟨b, hold, hv⟩
  | voted hx hlive hopen heligible hnew hvoters =>
    rcases KeyedStore.get_set_cases hget with ⟨rfl, rfl⟩ | hold
    · rw [hvoters] at hv
      rcases List.mem_append.mp hv with hv | hv
      · exact Or.inl ⟨_, hx, hv⟩
      · obtain rfl := List.mem_singleton.mp hv
        exact Or.inr ⟨heligible, .inr rfl⟩
    · exact Or.inl ⟨b, hold, hv⟩
  | decided hx hlive hopen hquorum hvoters =>
    rcases KeyedStore.get_set_cases hget with ⟨rfl, rfl⟩ | hold
    · exact Or.inl ⟨_, hx, hvoters ▸ hv⟩
    · exact Or.inl ⟨b, hold, hv⟩
  | repeated | other => exact Or.inl ⟨b, hget, hv⟩

theorem of_decided (h : Step view rules m (.decided k) m') :
    ∃ b b', m.get k = some b ∧ rules.live b ∧ view.decided b = false ∧
      rules.quorum ≤ (view.voters b).length ∧ m'.get k = some b' ∧ view.decided b' = true := by
  cases h with
  | decided hget hlive hopen hquorum hvoters hdone =>
    exact ⟨_, _, hget, hlive, hopen, hquorum, KeyedStore.get_set_self _ _ _, hdone⟩

end Step

end Ballots
