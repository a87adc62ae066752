import Mathlib.Data.List.Induction

/-!
# Changes in a sequence of observations

The steps at which a sequence takes another value, and bounded histories that keep the newest
entries.
-/

namespace Changes

variable {α β : Type*}

section Changes

variable [DecidableEq α]

def changes : List α → List (α × α)
  | a :: b :: l => if a = b then changes (b :: l) else (a, b) :: changes (b :: l)
  | _ => []

def change (a b : α) : List (α × α) := if a = b then [] else [(a, b)]

@[simp] theorem changes_nil : changes ([] : List α) = [] := rfl

@[simp] theorem changes_singleton (a : α) : changes [a] = [] := rfl

theorem changes_cons_cons (a b : α) (l : List α) :
    changes (a :: b :: l) = change a b ++ changes (b :: l) := by
  rw [changes, change]
  split
  · rfl
  · rfl

theorem changes_snoc (l : List α) (a b : α) :
    changes (l ++ [a] ++ [b]) = changes (l ++ [a]) ++ change a b := by
  induction l with
  | nil => simp [changes_cons_cons]
  | cons x l ih =>
    cases l with
    | nil => simp [changes_cons_cons]
    | cons y l =>
      simp only [List.cons_append] at ih ⊢
      rw [changes_cons_cons, changes_cons_cons, ih, List.append_assoc]

theorem changes_cons_snoc (c : α) (l : List α) (a b : α) :
    changes (c :: (l ++ [a] ++ [b])) = changes (c :: (l ++ [a])) ++ change a b :=
  changes_snoc (c :: l) a b

theorem fst_ne_snd_of_mem_changes {l : List α} {p : α × α} (h : p ∈ changes l) : p.1 ≠ p.2 := by
  induction l with
  | nil => cases h
  | cons a l ih =>
    cases l with
    | nil => cases h
    | cons b l =>
      rw [changes_cons_cons, change, List.mem_append] at h
      rcases h with h | h
      · split at h
        · cases h
        · rename_i hne
          obtain rfl := List.mem_singleton.mp h
          exact hne
      · exact ih h

def IsPath (start : α) : List (α × α) → Prop
  | [] => True
  | step :: steps => step.1 = start ∧ IsPath step.2 steps

theorem isPath_changes (a : α) (l : List α) : IsPath a (changes (a :: l)) := by
  induction l generalizing a with
  | nil => exact trivial
  | cons b l ih =>
    rw [changes_cons_cons, change]
    by_cases h : a = b
    · rw [if_pos h, h]
      exact ih b
    · rw [if_neg h]
      exact ⟨rfl, ih b⟩

end Changes

/-! ### Up to an event -/

/-- The entries up to the first with the property, which is the last of them. -/
def throughFirst (p : β → Bool) : List β → List β
  | [] => []
  | x :: l => if p x then [x] else x :: throughFirst p l

section ThroughFirst

variable {p : β → Bool} {l : List β}

theorem throughFirst_of_forall (h : ∀ x ∈ l, p x = false) : throughFirst p l = l := by
  induction l with
  | nil => rfl
  | cons x l ih =>
    obtain ⟨hx, hl⟩ := List.forall_mem_cons.mp h
    rw [throughFirst, if_neg (by rw [hx]; exact Bool.false_ne_true), ih hl]

theorem throughFirst_append (h : ∃ x ∈ l, p x = true) (l' : List β) :
    throughFirst p (l ++ l') = throughFirst p l := by
  induction l with
  | nil =>
    obtain ⟨x, hx, _⟩ := h
    cases hx
  | cons x l ih =>
    rw [List.cons_append, throughFirst, throughFirst]
    by_cases hx : p x = true
    · rw [if_pos hx, if_pos hx]
    · obtain ⟨y, hy, hp⟩ := h
      rcases List.mem_cons.mp hy with rfl | hy
      · exact absurd hp hx
      · rw [if_neg hx, if_neg hx, ih ⟨y, hy, hp⟩]

theorem throughFirst_snoc (h : ∀ x ∈ l, p x = false) (x : β) :
    throughFirst p (l ++ [x]) = l ++ [x] := by
  induction l with
  | nil =>
    rw [List.nil_append, throughFirst]
    split
    · rfl
    · rfl
  | cons y l ih =>
    obtain ⟨hy, hl⟩ := List.forall_mem_cons.mp h
    rw [List.cons_append, throughFirst, if_neg (by rw [hy]; exact Bool.false_ne_true), ih hl]

end ThroughFirst

/-! ### The newest entries -/

/-- All entries when there is no limit, and otherwise the last of them. -/
def newest (limit : ℕ) (l : List β) : List β := if limit = 0 then l else l.drop (l.length - limit)

def dropOldest (limit : ℕ) : List β → List β
  | [] => []
  | x :: l => if limit < (x :: l).length then dropOldest limit l else x :: l

theorem dropOldest_eq (limit : ℕ) (l : List β) : dropOldest limit l = l.drop (l.length - limit) := by
  induction l with
  | nil => rw [dropOldest, List.drop_nil]
  | cons x l ih =>
    rw [dropOldest]
    split
    · rename_i h
      rw [List.length_cons] at h ⊢
      rw [ih, show l.length + 1 - limit = (l.length - limit) + 1 by omega, List.drop_succ_cons]
    · rename_i h
      rw [show (x :: l).length - limit = 0 by omega, List.drop_zero]

/-- A new entry after the newest ones, when the oldest are dropped. -/
theorem newest_snoc (limit : ℕ) (l : List β) (x : β) :
    newest limit (newest limit l ++ [x]) = newest limit (l ++ [x]) := by
  unfold newest
  by_cases h : limit = 0
  · simp only [if_pos h]
  · simp only [if_neg h, List.length_append, List.length_drop, List.length_singleton]
    rcases Nat.lt_or_ge l.length limit with hlt | hge
    · rw [show l.length - limit = 0 by omega, List.drop_zero, Nat.sub_zero]
    · rw [List.drop_append_of_le_length (by rw [List.length_drop]; omega),
        List.drop_append_of_le_length (by omega), List.drop_drop]
      congr 2
      omega

theorem getLast?_newest (limit : ℕ) (l : List β) : (newest limit l).getLast? = l.getLast? := by
  induction l using List.reverseRecOn with
  | nil => simp [newest]
  | append_singleton l x _ =>
    unfold newest
    by_cases h : limit = 0
    · rw [if_pos h]
    · rw [if_neg h, List.length_append, List.length_singleton,
        List.drop_append_of_le_length (by omega), List.getLast?_concat, List.getLast?_concat]

end Changes
