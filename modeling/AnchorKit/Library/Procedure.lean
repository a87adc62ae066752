import AnchorKit.Library.Fallible

/-!
# Procedures

A procedure works on a state. It returns a value or rejects its input with an error, and in both
cases says what the state looks like afterwards, or it is stopped, which leaves no state behind.
-/

abbrev Procedure (π σ ε : Type) := ExceptT ε (StateT σ (Except π))

namespace Procedure

variable {π σ ε α β : Type}

def Returns (x : Procedure π σ ε α) (s : σ) (a : α) (s' : σ) : Prop := x.run.run s = .ok (.ok a, s')

def Rejects (x : Procedure π σ ε α) (s : σ) (e : ε) (s' : σ) : Prop :=
  x.run.run s = .ok (.error e, s')

section Steps

variable {x : Procedure π σ ε α} {f : α → Procedure π σ ε β} {s s' : σ} {e e' : ε} {a : α} {b : β}

theorem returns_bind : Returns (x >>= f) s b s' ↔ ∃ a t, Returns x s a t ∧ Returns (f a) t b s' := by
  unfold Returns
  rw [ExceptT.run_bind, StateT.run_bind, Fallible.bind_eq_ok]
  constructor
  · rintro ⟨⟨result, t⟩, hx, hf⟩
    cases result with
    | error e => cases hf
    | ok a => exact ⟨a, t, hx, hf⟩
  · rintro ⟨a, t, hx, hf⟩
    exact ⟨(.ok a, t), hx, hf⟩

theorem rejects_bind : Rejects (x >>= f) s e s' ↔
    Rejects x s e s' ∨ ∃ a t, Returns x s a t ∧ Rejects (f a) t e s' := by
  unfold Returns Rejects
  rw [ExceptT.run_bind, StateT.run_bind, Fallible.bind_eq_ok]
  constructor
  · rintro ⟨⟨result, t⟩, hx, hf⟩
    cases result with
    | error e' =>
      obtain ⟨herror, rfl⟩ := Prod.mk.inj (Except.ok.inj hf)
      obtain rfl := Except.error.inj herror
      exact Or.inl hx
    | ok a => exact Or.inr ⟨a, t, hx, hf⟩
  · rintro (hx | ⟨a, t, hx, hf⟩)
    · exact ⟨(.error e, s'), hx, rfl⟩
    · exact ⟨(.ok a, t), hx, hf⟩

@[simp] theorem returns_pure {c : α} :
    Returns (pure c : Procedure π σ ε α) s a s' ↔ c = a ∧ s = s' := by
  constructor
  · intro h
    obtain ⟨hvalue, rfl⟩ := Prod.mk.inj (Except.ok.inj h)
    exact ⟨Except.ok.inj hvalue, rfl⟩
  · rintro ⟨rfl, rfl⟩
    rfl

@[simp] theorem not_rejects_pure : ¬ Rejects (pure a : Procedure π σ ε α) s e s' := by
  intro h
  cases Except.ok.inj h

@[simp] theorem not_returns_throw : ¬ Returns (throw e : Procedure π σ ε α) s a s' := by
  intro h
  cases Except.ok.inj h

@[simp] theorem rejects_throw :
    Rejects (throw e' : Procedure π σ ε α) s e s' ↔ e' = e ∧ s = s' := by
  constructor
  · intro h
    obtain ⟨herror, rfl⟩ := Prod.mk.inj (Except.ok.inj h)
    exact ⟨Except.error.inj herror, rfl⟩
  · rintro ⟨rfl, rfl⟩
    rfl

@[simp] theorem not_returns_stop {p : π} :
    ¬ Returns (throwThe π p : Procedure π σ ε α) s a s' := nofun

@[simp] theorem not_rejects_stop {p : π} :
    ¬ Rejects (throwThe π p : Procedure π σ ε α) s e s' := nofun

@[simp] theorem returns_get {t : σ} :
    Returns (getThe σ : Procedure π σ ε σ) s t s' ↔ t = s ∧ s = s' := by
  constructor
  · intro h
    obtain ⟨hvalue, rfl⟩ := Prod.mk.inj (Except.ok.inj h)
    exact ⟨(Except.ok.inj hvalue).symm, rfl⟩
  · rintro ⟨rfl, rfl⟩
    rfl

@[simp] theorem not_rejects_get : ¬ Rejects (getThe σ : Procedure π σ ε σ) s e s' := by
  intro h
  cases Except.ok.inj h

@[simp] theorem returns_modify {g : σ → σ} {u : Unit} :
    Returns (modifyThe σ g : Procedure π σ ε PUnit) s u s' ↔ g s = s' := by
  constructor
  · intro h
    exact (Prod.mk.inj (Except.ok.inj h)).2
  · rintro rfl
    rfl

@[simp] theorem not_rejects_modify {g : σ → σ} :
    ¬ Rejects (modifyThe σ g : Procedure π σ ε PUnit) s e s' := by
  intro h
  cases Except.ok.inj h

theorem returns_check {c : Prop} [Decidable c] {f : α → Procedure π σ ε β} {y : Procedure π σ ε β} :
    Returns (if c then throw e >>= f else y) s b s' ↔ ¬ c ∧ Returns y s b s' := by
  by_cases hc : c
  · rw [if_pos hc, returns_bind]
    simp [hc]
  · rw [if_neg hc]
    exact (and_iff_right hc).symm

theorem rejects_check {c : Prop} [Decidable c] {f : α → Procedure π σ ε β} {y : Procedure π σ ε β} :
    Rejects (if c then throw e' >>= f else y) s e s' ↔
      (c ∧ e' = e ∧ s = s') ∨ (¬ c ∧ Rejects y s e s') := by
  by_cases hc : c
  · rw [if_pos hc, rejects_bind]
    simp [hc]
  · rw [if_neg hc]
    simp [hc]

end Steps

/-! ### Rejections that change nothing -/

/-- Whatever the outcome, nothing is written. -/
def ReadOnly (x : Procedure π σ ε α) : Prop := ∀ s r s', x.run.run s = .ok (r, s') → s' = s

def Restores (x : Procedure π σ ε α) : Prop := ∀ s e s', Rejects x s e s' → s' = s

section Restores

variable {x : Procedure π σ ε α} {f : α → Procedure π σ ε β} {y : Procedure π σ ε β} {e : ε}

theorem readOnly_pure (a : α) : ReadOnly (pure a : Procedure π σ ε α) := by
  intro s r s' h
  exact (Prod.mk.inj (Except.ok.inj h)).2.symm

theorem readOnly_throw (e : ε) : ReadOnly (throw e : Procedure π σ ε α) := by
  intro s r s' h
  exact (Prod.mk.inj (Except.ok.inj h)).2.symm

theorem readOnly_stop (p : π) : ReadOnly (throwThe π p : Procedure π σ ε α) := nofun

theorem readOnly_get : ReadOnly (getThe σ : Procedure π σ ε σ) := by
  intro s r s' h
  exact (Prod.mk.inj (Except.ok.inj h)).2.symm

theorem ReadOnly.restores (h : ReadOnly x) : Restores x := fun s e s' => h s (.error e) s'

theorem restores_modify (g : σ → σ) : Restores (modifyThe σ g : Procedure π σ ε PUnit) :=
  fun _ _ _ h => absurd h not_rejects_modify

theorem ReadOnly.bind_restores (hx : ReadOnly x) (hf : ∀ a, Restores (f a)) :
    Restores (x >>= f) := by
  intro s e s' h
  rcases rejects_bind.mp h with hr | ⟨a, t, hreturns, hr⟩
  · exact hx s _ s' hr
  · obtain rfl := hx s _ t hreturns
    exact hf a _ e s' hr

theorem ReadOnly.bind (hx : ReadOnly x) (hf : ∀ a, ReadOnly (f a)) : ReadOnly (x >>= f) := by
  intro s r s' h
  rw [ExceptT.run_bind, StateT.run_bind, Fallible.bind_eq_ok] at h
  obtain ⟨⟨result, t⟩, hresult, h⟩ := h
  obtain rfl := hx s result t hresult
  cases result with
  | error e => exact (Prod.mk.inj (Except.ok.inj h)).2.symm
  | ok a => exact hf a _ r s' h

theorem ReadOnly.check {c : Prop} [Decidable c] (hy : ReadOnly y) :
    ReadOnly (if c then throw e >>= f else y) := by
  by_cases hc : c
  · rw [if_pos hc]
    intro s r s' h
    exact (Prod.mk.inj (Except.ok.inj h)).2.symm
  · rwa [if_neg hc]

theorem Restores.check {c : Prop} [Decidable c] (hy : Restores y) :
    Restores (if c then throw e >>= f else y) := by
  by_cases hc : c
  · rw [if_pos hc]
    intro s e' s' h
    rcases rejects_bind.mp h with hthrown | ⟨_, _, hreturns, _⟩
    · exact (rejects_throw.mp hthrown).2.symm
    · exact absurd hreturns not_returns_throw
  · rwa [if_neg hc]

end Restores

end Procedure
