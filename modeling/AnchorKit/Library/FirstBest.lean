import Mathlib.Order.Lattice

/-!
# The first best element of a list

A loop that keeps the best element so far, and replaces it by a better one only, ends with the
first of the best elements. The order is any relation that compares two elements as a key does.
-/

namespace FirstBest

variable {α κ : Type*}

def keepBest (better : α → α → Bool) (first : α) (xs : List α) : α :=
  xs.foldl (fun best x => if better x best then x else best) first

/-- One round of the loop when there may be no best element yet. -/
def keep (better : α → α → Bool) : Option α → α → Option α
  | none, x => some x
  | some best, x => some (if better x best then x else best)

/-- The same loop without an element to start from. -/
def keepBest? (better : α → α → Bool) (xs : List α) : Option α := xs.foldl (keep better) none

/-- The relation compares two elements as some key of theirs is compared. -/
structure Ranks (better : α → α → Bool) : Prop where
  asymm : ∀ x y, better x y = true → better y x = false
  cotrans : ∀ x y z, better x z = true → better x y = true ∨ better y z = true

theorem Ranks.of_key [LinearOrder κ] (key : α → κ) {better : α → α → Bool}
    (h : ∀ x y, better x y = true ↔ key x < key y) : Ranks better where
  asymm := by
    intro x y hxy
    rw [Bool.eq_false_iff, ne_eq, h]
    exact lt_asymm ((h x y).mp hxy)
  cotrans := by
    intro x y z hxz
    rw [h x y, h y z]
    rcases lt_or_ge (key x) (key y) with hxy | hyx
    · exact Or.inl hxy
    · exact Or.inr (lt_of_le_of_lt hyx ((h x z).mp hxz))

theorem Ranks.irrefl {better : α → α → Bool} (h : Ranks better) (x : α) : better x x = false := by
  cases hx : better x x with
  | false => rfl
  | true => exact hx.symm.trans (h.asymm x x hx)

theorem Ranks.trans {better : α → α → Bool} (h : Ranks better) {x y z : α}
    (hxy : better x y = true) (hyz : better y z = true) : better x z = true := by
  rcases h.cotrans x z y hxy with hxz | hzy
  · exact hxz
  · rw [h.asymm y z hyz] at hzy
    cases hzy

/-- The element is better than all before it, and none after it is better. -/
def IsFirstBest (better : α → α → Bool) (xs : List α) (best : α) : Prop :=
  ∃ before after, xs = before ++ best :: after ∧ (∀ x ∈ before, better best x = true) ∧
    ∀ x ∈ after, better x best = false

section Loop

variable {better : α → α → Bool} {seen xs : List α} {best first x : α}

theorem isFirstBest_singleton : IsFirstBest better [x] x :=
  ⟨[], [], rfl, by simp, by simp⟩

theorem IsFirstBest.keep (h : IsFirstBest better seen best) (hx : better x best = false) :
    IsFirstBest better (seen ++ [x]) best := by
  obtain ⟨before, after, rfl, hbefore, hafter⟩ := h
  refine ⟨before, after ++ [x], by simp, hbefore, ?_⟩
  intro y hy
  rcases List.mem_append.mp hy with hold | hnew
  · exact hafter y hold
  · obtain rfl := List.mem_singleton.mp hnew
    exact hx

theorem IsFirstBest.replace (h : IsFirstBest better seen best) (hrank : Ranks better)
    (hx : better x best = true) : IsFirstBest better (seen ++ [x]) x := by
  obtain ⟨before, after, rfl, hbefore, hafter⟩ := h
  refine ⟨before ++ best :: after, [], rfl, ?_, by simp⟩
  intro y hy
  rcases List.mem_append.mp hy with hearlier | hlater
  · exact hrank.trans hx (hbefore y hearlier)
  · rcases List.mem_cons.mp hlater with rfl | hlater
    · exact hx
    · -- `y` is not better than the old best, so `x` is better than `y`
      rcases hrank.cotrans x y best hx with hxy | hybest
      · exact hxy
      · rw [hafter y hlater] at hybest
        cases hybest

theorem IsFirstBest.step (h : IsFirstBest better seen best) (hrank : Ranks better) :
    IsFirstBest better (seen ++ [x]) (if better x best then x else best) := by
  cases hx : better x best with
  | true => exact h.replace hrank hx
  | false => exact h.keep hx

theorem IsFirstBest.keepBest (h : IsFirstBest better seen best) (hrank : Ranks better) :
    IsFirstBest better (seen ++ xs) (keepBest better best xs) := by
  induction xs generalizing seen best with
  | nil => simpa [FirstBest.keepBest] using h
  | cons x rest ih =>
    have hstep := ih (h.step hrank (x := x))
    rw [List.append_assoc, List.singleton_append] at hstep
    exact hstep

/-- The loop that starts with the first element and visits it once more. -/
theorem isFirstBest_keepBest (hrank : Ranks better) :
    IsFirstBest better (first :: xs) (keepBest better first (first :: xs)) := by
  have hstart : keepBest better first (first :: xs) = keepBest better first xs := by
    simp [keepBest, hrank.irrefl first]
  rw [hstart]
  exact isFirstBest_singleton.keepBest hrank

theorem keepBest?_cons : keepBest? better (first :: xs) = some (keepBest better first xs) := by
  have hloop : ∀ best, xs.foldl (keep better) (some best) = some (keepBest better best xs) := by
    induction xs with
    | nil => exact fun _ => rfl
    | cons x rest ih => exact fun best => ih (if better x best then x else best)
  exact hloop first

theorem keepBest?_eq_none : keepBest? better xs = none ↔ xs = [] := by
  cases xs with
  | nil => exact iff_of_true rfl rfl
  | cons first rest =>
    rw [keepBest?_cons]
    exact iff_of_false nofun nofun

theorem isFirstBest_keepBest? (hrank : Ranks better) (h : keepBest? better xs = some best) :
    IsFirstBest better xs best := by
  cases xs with
  | nil => cases h
  | cons first rest =>
    rw [keepBest?_cons] at h
    rw [← Option.some.inj h]
    exact isFirstBest_singleton.keepBest hrank

theorem IsFirstBest.mem (h : IsFirstBest better xs best) : best ∈ xs := by
  obtain ⟨before, after, rfl, _, _⟩ := h
  exact List.mem_append_right _ List.mem_cons_self

theorem IsFirstBest.not_better (h : IsFirstBest better xs best) (hrank : Ranks better)
    (hx : x ∈ xs) : better x best = false := by
  obtain ⟨before, after, rfl, hbefore, hafter⟩ := h
  rcases List.mem_append.mp hx with hearlier | hlater
  · exact hrank.asymm best x (hbefore x hearlier)
  · rcases List.mem_cons.mp hlater with rfl | hlater
    · exact hrank.irrefl x
    · exact hafter x hlater

end Loop

section Key

variable [Preorder κ] {better : α → α → Bool} {xs : List α} {best : α}

theorem keepBest_mem (better : α → α → Bool) (first : α) (xs : List α) :
    keepBest better first xs ∈ first :: xs := by
  induction xs generalizing first with
  | nil => exact List.mem_cons_self
  | cons x rest ih =>
    have hrest : keepBest better first (x :: rest) ∈ (if better x first then x else first) :: rest :=
      ih _
    rcases List.mem_cons.mp hrest with hkept | hlater
    · rw [hkept]
      split <;> simp
    · exact List.mem_cons_of_mem _ (List.mem_cons_of_mem _ hlater)

/-- Whichever way the loop breaks ties, it ends with an element that no key exceeds. -/
theorem le_keepBest (key : α → κ) (htaken : ∀ x y, better x y = true → key y ≤ key x)
    (hleft : ∀ x y, better x y = false → key x ≤ key y) (first : α) (xs : List α) :
    ∀ x ∈ first :: xs, key x ≤ key (keepBest better first xs) := by
  induction xs generalizing first with
  | nil =>
    intro x hx
    obtain rfl := List.mem_singleton.mp hx
    exact le_rfl
  | cons y rest ih =>
    have hround : key first ≤ key (if better y first then y else first) ∧
        key y ≤ key (if better y first then y else first) := by
      cases hy : better y first with
      | true => exact ⟨htaken y first hy, le_rfl⟩
      | false => exact ⟨le_rfl, hleft y first hy⟩
    have hrest := ih (if better y first then y else first)
    have hkept := hrest _ List.mem_cons_self
    intro x hx
    rcases List.mem_cons.mp hx with rfl | hx
    · exact hround.1.trans hkept
    · rcases List.mem_cons.mp hx with rfl | hx
      · exact hround.2.trans hkept
      · exact hrest x (List.mem_cons_of_mem _ hx)

theorem mem_of_keepBest? (h : keepBest? better xs = some best) : best ∈ xs := by
  cases xs with
  | nil => cases h
  | cons first rest =>
    rw [keepBest?_cons] at h
    rw [← Option.some.inj h]
    exact keepBest_mem better first rest

theorem le_of_keepBest? (key : α → κ) (htaken : ∀ x y, better x y = true → key y ≤ key x)
    (hleft : ∀ x y, better x y = false → key x ≤ key y) (h : keepBest? better xs = some best) :
    ∀ x ∈ xs, key x ≤ key best := by
  cases xs with
  | nil => simp
  | cons first rest =>
    rw [keepBest?_cons] at h
    rw [← Option.some.inj h]
    exact le_keepBest key htaken hleft first rest

end Key

end FirstBest
