import AnchorKit.Library.Fallible

/-!
# Guarded operations

An operation is told which principals have authorized it and which of them calls it. It is
guarded when all that these two decide is whether one check passes: behind the check everybody
succeeds or fails alike. Whoever passes the check alone can then do all that anybody can do.
-/

namespace Guarded

open Fallible

variable {P ε α β : Type}

abbrev Operation (P ε α : Type) := List P → P → Except ε α

abbrev Check (P : Type) := List P → P → Prop

/-- Somebody can make the operation succeed. -/
def Possible (op : Operation P ε α) : Prop := ∃ signers caller, Succeeds (op signers caller)

/-- `x` makes the operation succeed with no authorization but its own. -/
def Performs (op : Operation P ε α) (x : P) : Prop :=
  ∃ signers, (∀ y ∈ signers, y = x) ∧ Succeeds (op signers x)

/-- `x` passes the check with no authorization but its own. -/
def PassesAlone (guard : Check P) (x : P) : Prop :=
  ∃ signers, (∀ y ∈ signers, y = x) ∧ guard signers x

structure GuardedBy (op : Operation P ε α) (guard : Check P) : Prop where
  passed : ∀ {signers caller}, Succeeds (op signers caller) → guard signers caller
  enough : ∀ {signers caller signers' caller'}, guard signers caller →
    Succeeds (op signers' caller') → Succeeds (op signers caller)

theorem GuardedBy.performs_iff {op : Operation P ε α} {guard : Check P} (h : GuardedBy op guard)
    {x : P} : Performs op x ↔ Possible op ∧ PassesAlone guard x := by
  constructor
  · rintro ⟨signers, hown, hop⟩
    exact ⟨⟨signers, x, hop⟩, signers, hown, h.passed hop⟩
  · rintro ⟨⟨signers', caller', hop⟩, signers, hown, hguard⟩
    exact ⟨signers, hown, h.enough hguard hop⟩

/-- Success splits into the check and a condition on neither signers nor caller. -/
theorem GuardedBy.of_iff {op : Operation P ε α} {guard : Check P} {body : Prop}
    (h : ∀ signers caller, Succeeds (op signers caller) ↔ guard signers caller ∧ body) :
    GuardedBy op guard where
  passed := fun hs => ((h _ _).mp hs).1
  enough := fun hguard hs => (h _ _).mpr ⟨hguard, ((h _ _).mp hs).2⟩

/-- A check in front of a body that treats everybody alike. -/
theorem GuardedBy.of_check {op : Operation P ε α} {guard : Check P}
    (check : Operation P ε Unit) (body : Operation P ε α)
    (hop : ∀ signers caller, op signers caller = (do check signers caller; body signers caller))
    (hcheck : ∀ signers caller, Succeeds (check signers caller) ↔ guard signers caller)
    (hbody : ∀ signers caller signers' caller', Succeeds (body signers' caller') →
      Succeeds (body signers caller)) : GuardedBy op guard where
  passed := by
    intro signers caller h
    rw [hop, succeeds_bind] at h
    obtain ⟨u, hu, _⟩ := h
    exact (hcheck signers caller).mp ⟨u, hu⟩
  enough := by
    intro signers caller signers' caller' hguard h
    obtain ⟨u, hu⟩ := (hcheck signers caller).mpr hguard
    rw [hop, succeeds_bind] at h ⊢
    obtain ⟨_, _, h⟩ := h
    exact ⟨u, hu, hbody signers caller signers' caller' h⟩

theorem GuardedBy.check {op inner : Operation P ε α} {first guard both : Check P}
    (check : Operation P ε Unit) (h : GuardedBy inner guard)
    (hop : ∀ signers caller, op signers caller = (do check signers caller; inner signers caller))
    (hcheck : ∀ signers caller, Succeeds (check signers caller) ↔ first signers caller)
    (hboth : ∀ signers caller, both signers caller ↔ first signers caller ∧ guard signers caller) :
    GuardedBy op both where
  passed := by
    intro signers caller hs
    rw [hop, succeeds_bind] at hs
    obtain ⟨u, hu, hs⟩ := hs
    have hfirst := (hcheck signers caller).mp ⟨u, hu⟩
    exact (hboth signers caller).mpr ⟨hfirst, h.passed hs⟩
  enough := by
    intro signers caller signers' caller' hguard hs
    obtain ⟨hfirst, hguard⟩ := (hboth signers caller).mp hguard
    obtain ⟨u, hu⟩ := (hcheck signers caller).mpr hfirst
    rw [hop, succeeds_bind] at hs ⊢
    obtain ⟨_, _, hs⟩ := hs
    exact ⟨u, hu, h.enough hguard hs⟩

/-- A precondition in front that concerns nobody in particular. -/
theorem GuardedBy.require {op inner : Operation P ε α} {guard : Check P} {p : Prop} [Decidable p]
    {e : ε} (h : GuardedBy inner guard)
    (hop : ∀ signers caller, op signers caller = (do require p e; inner signers caller)) :
    GuardedBy op guard where
  passed := by
    intro signers caller hs
    rw [hop, succeeds_require_bind] at hs
    exact h.passed hs.2
  enough := by
    intro signers caller signers' caller' hguard hs
    rw [hop, succeeds_require_bind] at hs ⊢
    exact ⟨hs.1, h.enough hguard hs.2⟩

theorem GuardedBy.of_succeeds {op : Operation P ε β} {inner : Operation P ε α} {guard : Check P}
    (h : GuardedBy inner guard)
    (hop : ∀ signers caller, Succeeds (op signers caller) ↔ Succeeds (inner signers caller)) :
    GuardedBy op guard where
  passed := fun hs => h.passed ((hop _ _).mp hs)
  enough := fun hguard hs => (hop _ _).mpr (h.enough hguard ((hop _ _).mp hs))

end Guarded
