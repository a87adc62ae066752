import Mathlib.Data.List.Basic

/-!
# Write footprints

A state is observed through a family of views, one for each component. A transition whose
footprint is a list of components leaves every other view as it was.
-/

namespace Footprint

variable {σ C : Type} {V : C → Type} (view : (c : C) → σ → V c)

/-- Every component outside `W` looks the same in both states. -/
def SameOutside (W : List C) (s s' : σ) : Prop := ∀ c, c ∉ W → view c s' = view c s

variable {view} {W : List C} {s s' : σ}

theorem SameOutside.view_eq (h : SameOutside view W s s') {c : C} (hc : c ∉ W) :
    view c s' = view c s := h c hc

end Footprint
