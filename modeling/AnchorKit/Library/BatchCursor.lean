import AnchorKit.Library.Fallible
import Mathlib.Data.List.Basic

/-!
# Resumable batches

A walk over a list of keys rewrites what its action finds to rewrite and stops behind a full
batch, leaving the last key it handled as a cursor. On a strictly increasing list, the walk that
resumes at the cursor goes on with exactly the keys that are left.
-/

namespace BatchCursor

open Fallible

variable {σ κ ε : Type} (act : σ → κ → Except ε (Option σ))

/-- Act on every key; the second component lists the keys that were rewritten. -/
def sweep (s : σ) : List κ → Except ε (σ × List κ)
  | [] => .ok (s, [])
  | k :: ks => do
    match ← act s k with
    | none => sweep s ks
    | some t =>
      let (u, rewritten) ← sweep t ks
      return (u, k :: rewritten)

section Sweep

variable {act} {s t : σ} {k : κ} {ks xs ys r : List κ}

theorem sweep_cons : sweep act s (k :: ks) = .ok (t, r) ↔
    (act s k = .ok none ∧ sweep act s ks = .ok (t, r)) ∨
      ∃ u rest, act s k = .ok (some u) ∧ sweep act u ks = .ok (t, rest) ∧ r = k :: rest := by
  rw [sweep, bind_eq_ok]
  constructor
  · rintro ⟨found, hact, h⟩
    cases found with
    | none => exact Or.inl ⟨hact, h⟩
    | some u =>
      simp only [bind_eq_ok, pure_eq_ok, Prod.mk.injEq] at h
      obtain ⟨⟨v, rest⟩, hrest, rfl, rfl⟩ := h
      exact Or.inr ⟨u, rest, hact, hrest, rfl⟩
  · rintro (⟨hact, h⟩ | ⟨u, rest, hact, hrest, rfl⟩)
    · exact ⟨none, hact, h⟩
    · refine ⟨some u, hact, ?_⟩
      simp only [bind_eq_ok, pure_eq_ok]
      exact ⟨(t, rest), hrest, rfl⟩

theorem rewritten_sublist (h : sweep act s ks = .ok (t, r)) : r.Sublist ks := by
  induction ks generalizing s r with
  | nil =>
    obtain ⟨_, rfl⟩ := Prod.mk.inj (Except.ok.inj h)
    exact List.Sublist.slnil
  | cons k ks ih =>
    rcases sweep_cons.mp h with ⟨_, hrest⟩ | ⟨u, rest, _, hrest, rfl⟩
    · exact (ih hrest).cons k
    · exact (ih hrest).cons_cons k

end Sweep

variable [LE κ] [DecidableLE κ]

/-- The keys a walk that resumes at `resume` has before it. -/
def behind (resume : κ) (ks : List κ) : List κ := ks.filter fun k => !decide (k ≤ resume)

def walk (batch : ℕ) (resume : κ) (s : σ) (done : ℕ) (last : κ) :
    List κ → Except ε (σ × Option κ × ℕ)
  | [] => .ok (s, none, done)
  | k :: ks =>
    if k ≤ resume then walk batch resume s done last ks
    else if batch ≤ done then .ok (s, some last, done)
    else do
      match ← act s k with
      | none => walk batch resume s done k ks
      | some t => walk batch resume t (done + 1) k ks

/-- What a walk does with the keys before it: it sweeps the first ones and leaves the rest. -/
structure Walked (batch done : ℕ) (last : κ) (s : σ) (todo : List κ) (t : σ) (cursor : Option κ)
    (n : ℕ) (now later rewritten : List κ) : Prop where
  split : todo = now ++ later
  swept : sweep act s now = .ok (t, rewritten)
  count : n = done + rewritten.length
  within : done ≤ batch → n ≤ batch
  stopped : (cursor = none ∧ later = []) ∨
    (cursor = some (now.getLast?.getD last) ∧ later ≠ [] ∧ batch ≤ n)

variable {act} {batch done n : ℕ} {resume last k : κ} {s t : σ} {cursor : Option κ}
  {ks : List κ}

theorem behind_cons_of_le (h : k ≤ resume) : behind resume (k :: ks) = behind resume ks := by
  simp [behind, h]

theorem behind_cons_of_not_le (h : ¬ k ≤ resume) :
    behind resume (k :: ks) = k :: behind resume ks := by
  simp [behind, h]

theorem walk_ok (h : walk act batch resume s done last ks = .ok (t, cursor, n)) :
    ∃ now later rewritten,
      Walked act batch done last s (behind resume ks) t cursor n now later rewritten := by
  induction ks generalizing s done last with
  | nil =>
    obtain ⟨rfl, rfl, rfl⟩ : s = t ∧ none = cursor ∧ done = n := by simpa [walk] using h
    exact ⟨[], [], [], rfl, rfl, rfl, fun hle => hle, Or.inl ⟨rfl, rfl⟩⟩
  | cons k ks ih =>
    rw [walk] at h
    by_cases hle : k ≤ resume
    · rw [if_pos hle] at h
      rw [behind_cons_of_le hle]
      exact ih h
    · rw [if_neg hle] at h
      rw [behind_cons_of_not_le hle]
      by_cases hfull : batch ≤ done
      · rw [if_pos hfull] at h
        obtain ⟨rfl, rfl, rfl⟩ : s = t ∧ some last = cursor ∧ done = n := by simpa using h
        exact ⟨[], _, [], rfl, rfl, rfl, fun hle => hle, Or.inr ⟨rfl, by simp, hfull⟩⟩
      · rw [if_neg hfull, bind_eq_ok] at h
        obtain ⟨found, hact, h⟩ := h
        -- the key is handled now, so it is the cursor if the walk stops right behind it
        have hlast (now : List κ) : (k :: now).getLast?.getD last = now.getLast?.getD k := by
          rw [List.getLast?_cons, Option.getD_some]
        cases found with
        | none =>
          obtain ⟨now, later, rewritten, hw⟩ := ih h
          refine ⟨k :: now, later, rewritten, by rw [hw.split]; rfl,
            sweep_cons.mpr (Or.inl ⟨hact, hw.swept⟩), hw.count, hw.within, ?_⟩
          rw [hlast]
          exact hw.stopped
        | some u =>
          obtain ⟨now, later, rewritten, hw⟩ := ih h
          refine ⟨k :: now, later, k :: rewritten, by rw [hw.split]; rfl,
            sweep_cons.mpr (Or.inr ⟨u, rewritten, hact, hw.swept, rfl⟩), ?_, ?_, ?_⟩
          · rw [hw.count, List.length_cons]
            omega
          · intro _
            exact hw.within (by omega)
          · rw [hlast]
            exact hw.stopped

/-- A walk only stops on an error that the sweep would stop on as well. -/
theorem walk_succeeds (h : Succeeds (sweep act s (behind resume ks))) :
    Succeeds (walk act batch resume s done last ks) := by
  induction ks generalizing s done last with
  | nil => exact ⟨_, rfl⟩
  | cons k ks ih =>
    rw [walk]
    by_cases hle : k ≤ resume
    · rw [if_pos hle]
      rw [behind_cons_of_le hle] at h
      exact ih h
    · rw [if_neg hle]
      rw [behind_cons_of_not_le hle] at h
      obtain ⟨⟨t, r⟩, h⟩ := h
      split
      · exact ⟨_, rfl⟩
      · rw [succeeds_bind]
        rcases sweep_cons.mp h with ⟨hact, hrest⟩ | ⟨u, rest, hact, hrest, _⟩
        · exact ⟨none, hact, ih ⟨_, hrest⟩⟩
        · exact ⟨some u, hact, ih ⟨_, hrest⟩⟩

section Resume

variable [Std.IsLinearOrder κ]

/-- Resuming at the last key handled leaves the keys that were not reached. -/
theorem behind_last (hsorted : ks.Pairwise fun a b => ¬ b ≤ a) {c : κ} {now later : List κ}
    (h : behind resume ks = now ++ c :: later) : behind c ks = later := by
  have hc : ¬ c ≤ resume := by
    have hmem : c ∈ behind resume ks := by simp [h]
    simpa [behind] using (List.mem_filter.mp hmem).2
  have hresume : resume ≤ c := (Std.le_total (a := resume) (b := c)).resolve_right hc
  -- what lies behind the new cursor lies behind the old one
  have hrefilter : behind c ks = behind c (behind resume ks) := by
    unfold behind
    rw [List.filter_filter]
    apply List.filter_congr
    intro k _
    by_cases hk : k ≤ resume
    · simp [Std.le_trans hk hresume]
    · simp [hk]
  have hpair : (now ++ c :: later).Pairwise fun a b => ¬ b ≤ a := h ▸ hsorted.filter _
  obtain ⟨_, htail, hcross⟩ := List.pairwise_append.mp hpair
  have hnow : behind c now = [] := by
    apply List.filter_eq_nil_iff.mpr
    intro k hk
    have hle : k ≤ c := (Std.le_total (a := k) (b := c)).resolve_right
      (hcross k hk c List.mem_cons_self)
    simpa using hle
  have hlater : behind c later = later := by
    apply List.filter_eq_self.mpr
    intro k hk
    simpa using (List.pairwise_cons.mp htail).1 k hk
  rw [hrefilter, h, behind, List.filter_append, ← behind, ← behind, hnow,
    behind_cons_of_le (Std.le_refl c), hlater, List.nil_append]

end Resume

end BatchCursor
