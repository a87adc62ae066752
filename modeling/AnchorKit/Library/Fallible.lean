import Mathlib.Logic.Basic

/-!
# Guards and inversion for fallible programs

A program that may abort is a function into `Except ε`. The guard `require` and the unwrapping
`expect` are the two ways such a program stops early; the lemmas below turn the success of a
`do` block into the conjunction of what each of its lines checked and returned.
-/

namespace Fallible

variable {ε α β : Type}

/-- Abort with `e` unless `p` holds. -/
def require (p : Prop) [Decidable p] (e : ε) : Except ε Unit := if p then .ok () else .error e

/-- Unwrap an optional value, aborting with `e` when it is absent. -/
def expect (o : Option α) (e : ε) : Except ε α :=
  match o with
  | some a => .ok a
  | none => .error e

@[simp] theorem require_eq_ok {p : Prop} [Decidable p] {e : ε} {u : Unit} :
    require p e = .ok u ↔ p := by
  unfold require
  split <;> simp [*]

theorem require_eq_error {p : Prop} [Decidable p] {e e' : ε} (h : require p e = .error e') :
    e' = e := by
  unfold require at h
  split at h
  · cases h
  · exact (Except.error.inj h).symm

@[simp] theorem expect_eq_ok {o : Option α} {e : ε} {a : α} : expect o e = .ok a ↔ o = some a := by
  cases o <;> simp [expect]

theorem bind_eq_ok {x : Except ε α} {f : α → Except ε β} {b : β} :
    (x >>= f) = .ok b ↔ ∃ a, x = .ok a ∧ f a = .ok b := by
  cases x with
  | error e => simp [bind, Except.bind]
  | ok a => simp [bind, Except.bind]

theorem bind_pure_eq_error {x : Except ε α} {f : α → β} {e : ε} :
    (x >>= fun a => pure (f a)) = .error e ↔ x = .error e := by
  cases x with
  | error e' =>
    constructor
    · intro h
      exact congrArg _ (Except.error.inj h)
    · intro h
      exact congrArg _ (Except.error.inj h)
  | ok a =>
    constructor
    · intro h
      cases h
    · intro h
      cases h

@[simp] theorem require_bind_eq_ok {p : Prop} [Decidable p] {e : ε} {f : Unit → Except ε β}
    {b : β} : (require p e >>= f) = .ok b ↔ p ∧ f () = .ok b := by
  unfold require
  by_cases hp : p <;> simp [hp, bind, Except.bind]

theorem require_bind_of {p : Prop} [Decidable p] {e : ε} {f : Unit → Except ε β} (h : p) :
    (require p e >>= f) = f () := by
  rw [require, if_pos h]
  rfl

theorem require_bind_of_not {p : Prop} [Decidable p] {e : ε} {f : Unit → Except ε β} (h : ¬ p) :
    (require p e >>= f) = .error e := by
  rw [require, if_neg h]
  rfl

@[simp] theorem expect_bind_eq_ok {o : Option α} {e : ε} {f : α → Except ε β} {b : β} :
    (expect o e >>= f) = .ok b ↔ ∃ a, o = some a ∧ f a = .ok b := by
  simp [bind_eq_ok]

@[simp] theorem expect_some_bind {e : ε} {a : α} {f : α → Except ε β} :
    (expect (some a) e >>= f) = f a := rfl

@[simp] theorem pure_eq_ok {a b : α} : (pure a : Except ε α) = .ok b ↔ a = b := by
  simp [pure, Except.pure]

theorem map_eq_ok {x : Except ε α} {f : α → β} {b : β} :
    f <$> x = .ok b ↔ ∃ a, x = .ok a ∧ f a = b := by
  cases x with
  | error e => simp [Functor.map, Except.map]
  | ok a => simp [Functor.map, Except.map]

theorem forM_eq_ok {f : α → Except ε Unit} {l : List α} :
    l.forM f = .ok () ↔ ∀ a ∈ l, f a = .ok () := by
  induction l with
  | nil => simp [pure, Except.pure]
  | cons a l ih =>
    rw [List.forM_eq_forM] at ih
    rw [List.forM_eq_forM, List.forM_cons, bind_eq_ok, List.forall_mem_cons, ← ih]
    exact ⟨fun ⟨_, ha, hl⟩ => ⟨ha, hl⟩, fun ⟨ha, hl⟩ => ⟨_, ha, hl⟩⟩

theorem mapError_eq_ok {ε' : Type} {x : Except ε α} {f : ε → ε'} {a : α} :
    x.mapError f = .ok a ↔ x = .ok a := by
  cases x with
  | error e =>
    constructor
    · intro h
      cases h
    · intro h
      cases h
  | ok b =>
    constructor
    · intro h
      exact congrArg _ (Except.ok.inj h)
    · intro h
      exact congrArg _ (Except.ok.inj h)

def Succeeds (x : Except ε α) : Prop := ∃ a, x = .ok a

@[simp] theorem succeeds_ok (a : α) : Succeeds (.ok a : Except ε α) := ⟨a, rfl⟩

@[simp] theorem succeeds_pure (a : α) : Succeeds (pure a : Except ε α) := ⟨a, rfl⟩

@[simp] theorem not_succeeds_error (e : ε) : ¬ Succeeds (.error e : Except ε α) := nofun

theorem succeeds_bind {x : Except ε α} {f : α → Except ε β} :
    Succeeds (x >>= f) ↔ ∃ a, x = .ok a ∧ Succeeds (f a) := by
  constructor
  · rintro ⟨b, h⟩
    obtain ⟨a, hx, hf⟩ := bind_eq_ok.mp h
    exact ⟨a, hx, b, hf⟩
  · rintro ⟨a, hx, b, hf⟩
    exact ⟨b, bind_eq_ok.mpr ⟨a, hx, hf⟩⟩

@[simp] theorem succeeds_require {p : Prop} [Decidable p] {e : ε} : Succeeds (require p e) ↔ p := by
  simp [Succeeds]

theorem succeeds_require_bind {p : Prop} [Decidable p] {e : ε} {f : Unit → Except ε β} :
    Succeeds (require p e >>= f) ↔ p ∧ Succeeds (f ()) := by
  simp [Succeeds]

@[simp] theorem succeeds_map {x : Except ε α} {f : α → β} : Succeeds (f <$> x) ↔ Succeeds x := by
  cases x with
  | error e => simp [Functor.map, Except.map]
  | ok a => simp [Functor.map, Except.map]

@[simp] theorem succeeds_bind_pure {x : Except ε α} {f : α → β} :
    Succeeds (x >>= fun a => pure (f a)) ↔ Succeeds x := by
  cases x with
  | error e => simp [bind, Except.bind]
  | ok a => simp [bind, Except.bind]

/-- The program never stops with the error `e`. -/
def Avoids (e : ε) (x : Except ε α) : Prop := x ≠ .error e

section Avoids

variable {e e' : ε}

theorem avoids_require {p : Prop} [Decidable p] (h : e' ≠ e) : Avoids e (require p e') := by
  unfold require Avoids
  split
  · nofun
  · intro heq
    exact h (Except.error.inj heq)

theorem avoids_expect {o : Option α} (h : e' ≠ e) : Avoids e (expect o e') := by
  cases o with
  | none => exact fun heq => h (Except.error.inj heq)
  | some a => exact nofun

theorem avoids_pure (a : α) : Avoids e (pure a : Except ε α) := nofun

theorem avoids_error (h : e' ≠ e) : Avoids e (Except.error e' : Except ε α) :=
  fun heq => h (Except.error.inj heq)

/-- A block avoids an error when each of its lines does. -/
theorem Avoids.bind {x : Except ε α} {f : α → Except ε β} (hx : Avoids e x)
    (hf : ∀ a, x = .ok a → Avoids e (f a)) : Avoids e (x >>= f) := by
  cases x with
  | error e'' => exact fun heq => hx (congrArg _ (Except.error.inj heq))
  | ok a => exact hf a rfl

end Avoids

def collect (f : α → Except ε (Option β)) : List α → Except ε (List β)
  | [] => .ok []
  | a :: l => do
    let b ← f a
    let rest ← collect f l
    return b.toList ++ rest

theorem mem_collect {f : α → Except ε (Option β)} {l : List α} {out : List β}
    (h : collect f l = .ok out) {b : β} : b ∈ out ↔ ∃ a ∈ l, f a = .ok (some b) := by
  induction l generalizing out with
  | nil =>
    obtain rfl := Except.ok.inj h
    simp
  | cons a l ih =>
    simp only [collect, bind_eq_ok, pure_eq_ok] at h
    obtain ⟨found, hfound, rest, hrest, rfl⟩ := h
    have hhere : b ∈ found.toList ↔ f a = .ok (some b) := by simp [hfound]
    rw [List.mem_append, hhere, ih hrest]
    simp

/-- The parts around an element that was collected come from the parts around its source. -/
theorem collect_eq_append {f : α → Except ε (Option β)} {l : List α} {before after : List β} {b : β}
    (h : collect f l = .ok (before ++ b :: after)) :
    ∃ left a right, l = left ++ a :: right ∧ f a = .ok (some b) ∧
      collect f left = .ok before ∧ collect f right = .ok after := by
  induction l generalizing before with
  | nil =>
    obtain ⟨_, hnil⟩ := List.append_eq_nil_iff.mp (Except.ok.inj h).symm
    cases hnil
  | cons a l ih =>
    simp only [collect, bind_eq_ok, pure_eq_ok] at h
    obtain ⟨found, hfound, rest, hrest, hout⟩ := h
    cases found with
    | none =>
      obtain rfl : rest = before ++ b :: after := hout
      obtain ⟨left, a', right, rfl, ha', hleft, hright⟩ := ih hrest
      refine ⟨a :: left, a', right, rfl, ha', ?_, hright⟩
      simp only [collect, bind_eq_ok, pure_eq_ok]
      exact ⟨none, hfound, before, hleft, rfl⟩
    | some c =>
      cases before with
      | nil =>
        obtain ⟨rfl, rfl⟩ := List.cons_eq_cons.mp hout
        exact ⟨[], a, l, rfl, hfound, rfl, hrest⟩
      | cons c' before =>
        obtain ⟨rfl, rfl⟩ := List.cons_eq_cons.mp hout
        obtain ⟨left, a', right, rfl, ha', hleft, hright⟩ := ih hrest
        refine ⟨a :: left, a', right, rfl, ha', ?_, hright⟩
        simp only [collect, bind_eq_ok, pure_eq_ok]
        exact ⟨some c, hfound, before, hleft, rfl⟩

theorem succeeds_collect {f : α → Except ε (Option β)} {l : List α} :
    Succeeds (collect f l) ↔ ∀ a ∈ l, Succeeds (f a) := by
  induction l with
  | nil => simp [collect]
  | cons a l ih =>
    rw [collect, succeeds_bind, List.forall_mem_cons, ← ih]
    simp only [succeeds_bind_pure]
    exact exists_and_right

theorem collect_cons_eq_error {f : α → Except ε (Option β)} {b : α} {l : List α} {e : ε} :
    collect f (b :: l) = .error e ↔
      f b = .error e ∨ Succeeds (f b) ∧ collect f l = .error e := by
  cases hb : f b with
  | error e' =>
    have hstop : collect f (b :: l) = .error e' := by
      rw [collect, hb]
      rfl
    rw [hstop]
    constructor
    · intro h
      exact Or.inl (congrArg _ (Except.error.inj h))
    · rintro (h | ⟨⟨_, hok⟩, -⟩)
      · exact congrArg _ (Except.error.inj h)
      · cases hok
  | ok found =>
    rw [collect, hb]
    constructor
    · intro h
      refine Or.inr ⟨⟨found, rfl⟩, ?_⟩
      exact bind_pure_eq_error.mp h
    · rintro (h | ⟨-, h⟩)
      · cases h
      · exact bind_pure_eq_error.mpr h

/-- The run stops at the first element that fails, with its error. -/
theorem collect_eq_error {f : α → Except ε (Option β)} {l : List α} {e : ε} :
    collect f l = .error e ↔ ∃ before a after, l = before ++ a :: after ∧
      (∀ b ∈ before, Succeeds (f b)) ∧ f a = .error e := by
  induction l with
  | nil =>
    constructor
    · intro h
      cases h
    · rintro ⟨before, a, after, h, -⟩
      exact absurd h.symm (List.append_ne_nil_of_right_ne_nil before (List.cons_ne_nil a after))
  | cons b l ih =>
    rw [collect_cons_eq_error, ih]
    constructor
    · rintro (hb | ⟨hok, before, a, after, rfl, hbefore, ha⟩)
      · exact ⟨[], b, l, rfl, fun _ hmem => absurd hmem List.not_mem_nil, hb⟩
      · exact ⟨b :: before, a, after, rfl, List.forall_mem_cons.mpr ⟨hok, hbefore⟩, ha⟩
    · rintro ⟨before, a, after, hl, hbefore, ha⟩
      cases before with
      | nil =>
        obtain ⟨rfl, rfl⟩ := List.cons_eq_cons.mp hl
        exact Or.inl ha
      | cons c before =>
        obtain ⟨rfl, rfl⟩ := List.cons_eq_cons.mp hl
        obtain ⟨hc, hbefore⟩ := List.forall_mem_cons.mp hbefore
        exact Or.inr ⟨hc, before, a, after, rfl, hbefore, ha⟩

/-- A missing value stays missing. -/
def transpose : Option (Except ε α) → Except ε (Option α)
  | none => .ok none
  | some (.ok a) => .ok (some a)
  | some (.error e) => .error e

section Transpose

variable {f : α → Except ε β} {P : α → Prop} {g : α → β} {o : Option α}

theorem transpose_map_eq_ok (hf : ∀ a b, f a = .ok b ↔ P a ∧ b = g a) {r : Option β} :
    transpose (o.map f) = .ok r ↔ (∀ a ∈ o, P a) ∧ r = o.map g := by
  cases o with
  | none => simp [transpose, eq_comm]
  | some a =>
    have hvalue : transpose ((some a).map f) = .ok r ↔ ∃ b, f a = .ok b ∧ some b = r := by
      rw [Option.map_some]
      cases f a with
      | error e => simp [transpose]
      | ok b => simp [transpose]
    rw [hvalue]
    simp only [hf, Option.mem_some_iff, forall_eq', Option.map_some]
    constructor
    · rintro ⟨b, ⟨ha, rfl⟩, rfl⟩
      exact ⟨ha, rfl⟩
    · rintro ⟨ha, rfl⟩
      exact ⟨_, ⟨ha, rfl⟩, rfl⟩

theorem transpose_map_eq_error {e : ε} :
    transpose (o.map f) = .error e ↔ ∃ a ∈ o, f a = .error e := by
  cases o with
  | none => simp [transpose]
  | some a =>
    rw [Option.map_some]
    cases hf : f a with
    | error e' => simp [transpose, hf]
    | ok b => simp [transpose, hf]

end Transpose

/-! ### The first defect

A check that stops at the first thing wrong is compared with the list of all that is wrong.
-/

section Defects

variable {σ : Type} {p : Prop} [Decidable p] {e : ε} {ds es : List ε} {d : α → List ε}

def firstOf : List ε → Except ε Unit
  | [] => .ok ()
  | e :: _ => .error e

/-- The defect of a condition that does not hold. -/
def defectUnless (p : Prop) [Decidable p] (e : ε) : List ε := if p then [] else [e]

/-- The defects of each element, given the elements before it. -/
def eachAfter (d : List α → α → List ε) : List α → List ε
  | [] => []
  | a :: l => d [] a ++ eachAfter (fun before => d (a :: before)) l

@[simp] theorem defectUnless_eq_nil : defectUnless p e = [] ↔ p := by
  unfold defectUnless
  split <;> simp [*]

theorem eachAfter_eq_nil {d : List α → α → List ε} {l : List α} :
    eachAfter d l = [] ↔ ∀ before a after, l = before ++ a :: after → d before a = [] := by
  induction l generalizing d with
  | nil => simp [eachAfter]
  | cons a l ih =>
    rw [eachAfter, List.append_eq_nil_iff, ih]
    constructor
    · rintro ⟨hhead, htail⟩ before b after hl
      cases before with
      | nil =>
        obtain ⟨rfl, rfl⟩ := List.cons_eq_cons.mp hl
        exact hhead
      | cons c before =>
        obtain ⟨rfl, rfl⟩ := List.cons_eq_cons.mp hl
        exact htail before b after rfl
    · intro h
      refine ⟨h [] a l rfl, fun before b after hl => ?_⟩
      exact h (a :: before) b after (by rw [hl, List.cons_append])

theorem firstOf_eq_ok : firstOf ds = .ok () ↔ ds = [] := by
  cases ds <;> simp [firstOf]

theorem firstOf_eq_error : firstOf ds = .error e ↔ ds.head? = some e := by
  cases ds <;> simp [firstOf]

theorem firstOf_append : firstOf (ds ++ es) = (firstOf ds >>= fun _ => firstOf es) := by
  cases ds <;> rfl

theorem firstOf_defectUnless : firstOf (defectUnless p e) = require p e := by
  unfold defectUnless require
  split <;> rfl

theorem firstOf_map {ε' : Type} (f : ε → ε') (ds : List ε) :
    firstOf (ds.map f) = (firstOf ds).mapError f := by
  cases ds <;> rfl

theorem firstOf_flatMap (d : α → List ε) (l : List α) :
    firstOf (l.flatMap d) = l.forM fun a => firstOf (d a) := by
  induction l with
  | nil => rfl
  | cons a l ih => rw [List.flatMap_cons, firstOf_append, ih]; rfl

theorem firstOf_elim (d : α → List ε) (o : Option α) :
    firstOf (o.elim [] d) = o.forM fun a => firstOf (d a) := by
  cases o <;> rfl

theorem elim_eq_nil {o : Option α} : o.elim [] d = [] ↔ ∀ a ∈ o, d a = [] := by
  cases o <;> simp

/-- A loop that carries on what it has read reports each element by what was read before it. -/
theorem foldlM_eq_firstOf {body : σ → α → Except ε σ} {d : σ → α → List ε} {next : σ → α → σ}
    (h : ∀ s a, body s a = (firstOf (d s a) >>= fun _ => pure (next s a))) (s : σ) (l : List α) :
    l.foldlM body s = (firstOf (eachAfter (fun before a => d (before.foldl next s) a) l) >>=
      fun _ => pure (l.foldl next s)) := by
  induction l generalizing s with
  | nil => rfl
  | cons a l ih =>
    rw [List.foldlM_cons, eachAfter, firstOf_append, h]
    cases hd : firstOf (d s a) with
    | error e =>
      rw [List.foldl_nil, hd]
      rfl
    | ok u =>
      rw [List.foldl_nil, hd]
      exact ih (next s a)

end Defects

end Fallible
