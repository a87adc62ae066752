import Mathlib.Data.List.Induction

/-!
# Transactional state machines

A machine is a partial step function. A call that fails is reverted: it leaves the state as it
was, and it does not appear among the committed transitions. Properties of runs follow from
properties of one committed transition by the rules at the end of the file, which also cover
quantities computed from the history of a run.
-/

namespace Machine

variable {σ ι ε γ : Type*} (step : σ → ι → Except ε σ)

structure Transition (σ ι : Type*) where
  pre : σ
  input : ι
  post : σ

/-- Execute one call; a failing call reverts. -/
def commit (s : σ) (i : ι) : σ :=
  match step s i with
  | .ok s' => s'
  | .error _ => s

def run (s : σ) (is : List ι) : σ := is.foldl (commit step) s

def committed (s : σ) (i : ι) : List (Transition σ ι) :=
  match step s i with
  | .ok s' => [⟨s, i, s'⟩]
  | .error _ => []

def transitions (s : σ) : List ι → List (Transition σ ι)
  | [] => []
  | i :: is => committed step s i ++ transitions (commit step s i) is

theorem commit_ok {s s' : σ} {i : ι} (h : step s i = .ok s') : commit step s i = s' := by
  simp [commit, h]

theorem commit_error {s : σ} {i : ι} {e : ε} (h : step s i = .error e) : commit step s i = s := by
  simp [commit, h]

theorem committed_ok {s s' : σ} {i : ι} (h : step s i = .ok s') :
    committed step s i = [⟨s, i, s'⟩] := by
  simp [committed, h]

theorem committed_error {s : σ} {i : ι} {e : ε} (h : step s i = .error e) :
    committed step s i = [] := by
  simp [committed, h]

@[simp] theorem run_nil (s : σ) : run step s [] = s := rfl

@[simp] theorem transitions_nil (s : σ) : transitions step s [] = [] := rfl

theorem run_append (s : σ) (is js : List ι) :
    run step s (is ++ js) = run step (run step s is) js := by
  simp [run]

theorem run_snoc (s : σ) (is : List ι) (i : ι) :
    run step s (is ++ [i]) = commit step (run step s is) i := by
  simp [run]

theorem transitions_append (s : σ) (is js : List ι) :
    transitions step s (is ++ js) =
      transitions step s is ++ transitions step (run step s is) js := by
  induction is generalizing s with
  | nil => rfl
  | cons i is ih =>
    simp only [List.cons_append, transitions, ih, List.append_assoc]
    rfl

theorem transitions_snoc (s : σ) (is : List ι) (i : ι) :
    transitions step s (is ++ [i]) =
      transitions step s is ++ committed step (run step s is) i := by
  rw [transitions_append]
  simp [transitions]

theorem step_of_mem_committed {s : σ} {i : ι} {t : Transition σ ι} (h : t ∈ committed step s i) :
    t.pre = s ∧ t.input = i ∧ step t.pre t.input = .ok t.post := by
  unfold committed at h
  split at h
  · rename_i s' hs
    obtain rfl := List.mem_singleton.mp h
    exact ⟨rfl, rfl, hs⟩
  · cases h

theorem step_of_mem_transitions {s : σ} {is : List ι} {t : Transition σ ι}
    (h : t ∈ transitions step s is) : step t.pre t.input = .ok t.post := by
  induction is generalizing s with
  | nil => cases h
  | cons i is ih =>
    rcases List.mem_append.mp h with h | h
    · exact (step_of_mem_committed step h).2.2
    · exact ih h

/-- Every committed transition starts in the state reached by a prefix of the run. -/
theorem exists_prefix_of_mem_transitions {s : σ} {is : List ι} {t : Transition σ ι}
    (h : t ∈ transitions step s is) :
    ∃ js ks, is = js ++ t.input :: ks ∧ run step s js = t.pre := by
  induction is generalizing s with
  | nil => cases h
  | cons i is ih =>
    rcases List.mem_append.mp h with h | h
    · obtain ⟨hs, hi, _⟩ := step_of_mem_committed step h
      exact ⟨[], is, by simp [hi], hs.symm⟩
    · obtain ⟨js, ks, rfl, hr⟩ := ih h
      exact ⟨i :: js, ks, rfl, hr⟩

theorem mem_snoc {α : Type*} {past : List α} {x y : α} : y ∈ past ++ [x] ↔ y ∈ past ∨ y = x := by
  rw [List.mem_append, List.mem_singleton]

theorem forall_mem_snoc {α : Type*} {P : α → Prop} {past : List α} {x : α} :
    (∀ y ∈ past ++ [x], P y) ↔ (∀ y ∈ past, P y) ∧ P x := by
  rw [List.forall_mem_append, List.forall_mem_singleton]

/-- An element of a history that one more element was appended to is the new one or an old one. -/
theorem snoc_eq_split {α : Type*} {past before after : List α} {x y : α}
    (h : past ++ [x] = before ++ y :: after) :
    (after = [] ∧ past = before ∧ x = y) ∨
      ∃ rest, after = rest ++ [x] ∧ past = before ++ y :: rest := by
  rcases List.eq_nil_or_concat after with rfl | ⟨rest, z, rfl⟩
  · obtain ⟨hpast, hlast⟩ := List.append_inj' h rfl
    exact Or.inl ⟨rfl, hpast, List.singleton_inj.mp hlast⟩
  · have h' : past ++ [x] = (before ++ y :: rest) ++ [z] := by simpa using h
    obtain ⟨hpast, hlast⟩ := List.append_inj' h' rfl
    obtain rfl := List.singleton_inj.mp hlast
    exact Or.inr ⟨rest, by simp, hpast⟩

/-- The calls before the `m`-th committed transition reach the state it starts in. -/
theorem exists_prefix_of_transitions_eq {s : σ} {is : List ι} {before after : List (Transition σ ι)}
    {t : Transition σ ι} (h : transitions step s is = before ++ t :: after) :
    ∃ js ks, is = js ++ t.input :: ks ∧ run step s js = t.pre ∧
      transitions step s js = before := by
  induction is using List.reverseRecOn generalizing after with
  | nil => simp at h
  | append_singleton is i ih =>
    rw [transitions_snoc] at h
    cases hc : step (run step s is) i with
    | error e =>
      rw [committed_error step hc, List.append_nil] at h
      obtain ⟨js, ks, rfl, hr, ht⟩ := ih h
      exact ⟨js, ks ++ [i], by simp, hr, ht⟩
    | ok s' =>
      rw [committed_ok step hc] at h
      rcases snoc_eq_split h with ⟨_, hb, rfl⟩ | ⟨rest, _, hb⟩
      · exact ⟨is, [], rfl, rfl, hb⟩
      · obtain ⟨js, ks, rfl, hr, ht⟩ := ih hb
        exact ⟨js, ks ++ [i], by simp, hr, ht⟩

/-- The invariant rule: what every good committed transition preserves holds after every run
whose committed transitions are good. -/
theorem invariant_of_transitions (Inv : σ → Prop) (Good : Transition σ ι → Prop) {s : σ}
    (h0 : Inv s)
    (hstep : ∀ t : Transition σ ι, step t.pre t.input = .ok t.post → Inv t.pre → Good t → Inv t.post)
    (is : List ι) (hgood : ∀ t ∈ transitions step s is, Good t) : Inv (run step s is) := by
  induction is using List.reverseRecOn with
  | nil => exact h0
  | append_singleton is i ih =>
    rw [transitions_snoc] at hgood
    have hpre : Inv (run step s is) := ih fun t ht => hgood t (List.mem_append_left _ ht)
    rw [run_snoc]
    cases hc : step (run step s is) i with
    | error e => rwa [commit_error step hc]
    | ok s' =>
      rw [commit_ok step hc]
      have ht : ⟨run step s is, i, s'⟩ ∈ transitions step s is ++ committed step (run step s is) i :=
        by simp [committed_ok step hc]
      exact hstep ⟨run step s is, i, s'⟩ hc hpre (hgood _ ht)

/-- The unconditional form of `invariant_of_transitions`. -/
theorem invariant (Inv : σ → Prop) {s : σ} (h0 : Inv s)
    (hstep : ∀ s i s', step s i = .ok s' → Inv s → Inv s') (is : List ι) :
    Inv (run step s is) :=
  invariant_of_transitions step Inv (fun _ => True) h0
    (fun t ht hi _ => hstep t.pre t.input t.post ht hi) is (fun _ _ => trivial)

/-- `P` holds of every element of a history, given the elements before it. -/
def AtEachStep {α : Type*} (P : List α → α → Prop) (past : List α) : Prop :=
  ∀ before t after, past = before ++ t :: after → P before t

section AtEachStep

variable {α : Type*} {P : List α → α → Prop} {past : List α}

theorem atEachStep_iff :
    AtEachStep P past ↔ ∀ k : Fin past.length, P (past.take k) (past.get k) := by
  constructor
  · intro h k
    apply h (past.take k) (past.get k) (past.drop (k + 1))
    have hcut := List.take_append_drop k past
    rw [List.drop_eq_getElem_cons k.isLt] at hcut
    exact hcut.symm
  · rintro h before t after rfl
    have hk := h ⟨before.length, by simp⟩
    simpa using hk

instance [∀ before t, Decidable (P before t)] : Decidable (AtEachStep P past) :=
  decidable_of_iff _ atEachStep_iff.symm

theorem atEachStep_forall_mem {R : α → α → Prop} :
    AtEachStep (fun before t => ∀ b ∈ before, R b t) past ↔ past.Pairwise R := by
  induction past using List.reverseRecOn with
  | nil => exact ⟨fun _ => .nil, fun _ before t after h => by simp at h⟩
  | append_singleton past t ih =>
    rw [List.pairwise_append, ← ih]
    constructor
    · intro h
      exact ⟨fun before b after hb => h before b (after ++ [t]) (by simp [hb]),
        List.pairwise_singleton _ _, fun b hb c hc => by
          rw [List.mem_singleton.mp hc]
          exact h past t [] rfl b hb⟩
    · rintro ⟨hpast, _, hlast⟩ before b after hb
      rcases snoc_eq_split hb with ⟨_, rfl, rfl⟩ | ⟨rest, _, rfl⟩
      · exact fun c hc => hlast c hc _ List.mem_cons_self
      · exact hpast before _ rest rfl

theorem AtEachStep.of_append {rest : List α} (h : AtEachStep P (past ++ rest)) :
    AtEachStep P past := by
  rintro before t after rfl
  apply h before t (after ++ rest)
  rw [List.append_assoc, List.cons_append]

end AtEachStep

section HoldsSince

variable {α : Type*} {P Q : α → Prop} {past : List α} {u : α}

/-- `P` held at some element of a history, and `Q` at none after it. -/
def HoldsSince (P Q : α → Prop) (past : List α) : Prop :=
  ∃ before u after, past = before ++ u :: after ∧ P u ∧ ∀ v ∈ after, ¬ Q v

theorem not_holdsSince_nil : ¬ HoldsSince P Q [] := by
  rintro ⟨before, u, after, hsplit, _⟩
  simp at hsplit

theorem holdsSince_snoc : HoldsSince P Q (past ++ [u]) ↔ P u ∨ HoldsSince P Q past ∧ ¬ Q u := by
  constructor
  · rintro ⟨before, v, after, hsplit, hP, hQ⟩
    rcases snoc_eq_split hsplit with ⟨_, _, rfl⟩ | ⟨rest, rfl, hpast⟩
    · exact Or.inl hP
    · rw [forall_mem_snoc] at hQ
      exact Or.inr ⟨⟨before, v, rest, hpast, hP, hQ.1⟩, hQ.2⟩
  · rintro (hP | ⟨⟨before, v, after, rfl, hP, hQ⟩, hlast⟩)
    · exact ⟨past, u, [], rfl, hP, by simp⟩
    · refine ⟨before, v, after ++ [u], by simp, hP, ?_⟩
      exact forall_mem_snoc.mpr ⟨hQ, hlast⟩

theorem HoldsSince.exists_mem (h : HoldsSince P Q past) : ∃ u ∈ past, P u := by
  obtain ⟨before, u, after, rfl, hP, _⟩ := h
  exact ⟨u, List.mem_append_right _ List.mem_cons_self, hP⟩

end HoldsSince

section SinceLast

variable {α β : Type*} {f : α → Option β} {past : List α} {b : β}

/-- The last value of `f` in a history, with the elements after it. -/
def sinceLast (f : α → Option β) (past : List α) : Option (β × List α) :=
  past.foldl (fun acc t =>
    match f t with
    | some b => some (b, [])
    | none => acc.map fun p => (p.1, p.2 ++ [t])) none

def lastSome (f : α → Option β) (past : List α) : Option β := (sinceLast f past).map Prod.fst

theorem sinceLast_snoc_of_none {t : α} (h : f t = none) :
    sinceLast f (past ++ [t]) = (sinceLast f past).map fun p => (p.1, p.2 ++ [t]) := by
  rw [sinceLast, List.foldl_append, List.foldl_cons, List.foldl_nil, h]
  rfl

theorem sinceLast_snoc_of_some {t : α} (h : f t = some b) :
    sinceLast f (past ++ [t]) = some (b, []) := by
  rw [sinceLast, List.foldl_append, List.foldl_cons, List.foldl_nil, h]

theorem lastSome_snoc (f : α → Option β) (past : List α) (t : α) :
    lastSome f (past ++ [t]) = (f t).or (lastSome f past) := by
  cases h : f t with
  | none => rw [lastSome, sinceLast_snoc_of_none h, Option.map_map, Option.none_or]; rfl
  | some b => rw [lastSome, sinceLast_snoc_of_some h]; rfl

theorem sinceLast_eq_some {after : List α} :
    sinceLast f past = some (b, after) ↔
      ∃ before t, past = before ++ t :: after ∧ f t = some b ∧ ∀ u ∈ after, f u = none := by
  induction past using List.reverseRecOn generalizing after with
  | nil => simp [sinceLast]
  | append_singleton past t ih =>
    cases h : f t with
    | some c =>
      rw [sinceLast_snoc_of_some h, Option.some_inj, Prod.mk.injEq]
      constructor
      · rintro ⟨rfl, rfl⟩
        exact ⟨past, t, rfl, h, by simp⟩
      · rintro ⟨before, u, hsplit, hu, hafter⟩
        rcases snoc_eq_split hsplit with ⟨rfl, _, rfl⟩ | ⟨rest, rfl, _⟩
        · exact ⟨Option.some.inj (h.symm.trans hu), rfl⟩
        · have hnone := hafter t (by simp)
          rw [h] at hnone
          cases hnone
    | none =>
      rw [sinceLast_snoc_of_none h, Option.map_eq_some_iff]
      constructor
      · rintro ⟨⟨c, rest⟩, hrest, hsame⟩
        rw [Prod.mk.injEq] at hsame
        obtain ⟨rfl, rfl⟩ := hsame
        obtain ⟨before, u, rfl, hu, hafter⟩ := ih.mp hrest
        exact ⟨before, u, by simp, hu, forall_mem_snoc.mpr ⟨hafter, h⟩⟩
      · rintro ⟨before, u, hsplit, hu, hafter⟩
        rcases snoc_eq_split hsplit with ⟨_, _, rfl⟩ | ⟨rest, rfl, hpast⟩
        · rw [h] at hu
          cases hu
        · exact ⟨(b, rest), ih.mpr ⟨before, u, hpast, hu, (forall_mem_snoc.mp hafter).1⟩, rfl⟩

theorem exists_mem_of_lastSome (h : lastSome f past = some b) : ∃ t ∈ past, f t = some b := by
  obtain ⟨⟨c, after⟩, hsince, hfst⟩ := Option.map_eq_some_iff.mp h
  obtain ⟨before, t, rfl, ht, _⟩ := sinceLast_eq_some.mp hsince
  exact ⟨t, List.mem_append_right _ List.mem_cons_self, ht.trans (congrArg some hfst)⟩

theorem isSome_lastSome :
    (lastSome f past).isSome = true ↔ ∃ t ∈ past, (f t).isSome = true := by
  induction past using List.reverseRecOn with
  | nil => simp [lastSome, sinceLast]
  | append_singleton past t ih =>
    rw [lastSome_snoc, Option.isSome_or, Bool.or_eq_true, ih]
    simp only [mem_snoc, or_and_right, exists_or, exists_eq_left]
    exact or_comm

end SinceLast

/-- The invariant rule for a state together with the history that led to it; whether a
transition is good may depend on the history before it. -/
theorem guarded_history_invariant (Inv : List (Transition σ ι) → σ → Prop)
    (Good : List (Transition σ ι) → Transition σ ι → Prop) {s : σ} (h0 : Inv [] s)
    (hstep : ∀ past (t : Transition σ ι), step t.pre t.input = .ok t.post → Inv past t.pre →
      Good past t → Inv (past ++ [t]) t.post)
    (is : List ι) (hgood : AtEachStep Good (transitions step s is)) :
    Inv (transitions step s is) (run step s is) := by
  induction is using List.reverseRecOn with
  | nil => exact h0
  | append_singleton is i ih =>
    rw [transitions_snoc] at hgood ⊢
    have hpre := ih hgood.of_append
    rw [run_snoc]
    cases hc : step (run step s is) i with
    | error e => rwa [commit_error step hc, committed_error step hc, List.append_nil]
    | ok s' =>
      rw [committed_ok step hc] at hgood
      rw [commit_ok step hc, committed_ok step hc]
      exact hstep _ ⟨run step s is, i, s'⟩ hc hpre (hgood _ _ [] rfl)

/-- The form of `guarded_history_invariant` for guards on single transitions. -/
theorem history_invariant (Inv : List (Transition σ ι) → σ → Prop) (Good : Transition σ ι → Prop)
    {s : σ} (h0 : Inv [] s)
    (hstep : ∀ past (t : Transition σ ι), step t.pre t.input = .ok t.post → Inv past t.pre →
      Good t → Inv (past ++ [t]) t.post)
    (is : List ι) (hgood : ∀ t ∈ transitions step s is, Good t) :
    Inv (transitions step s is) (run step s is) := by
  apply guarded_history_invariant step Inv (fun _ => Good) h0 hstep is
  intro before t after h
  apply hgood t
  rw [h]
  exact List.mem_append_right _ List.mem_cons_self

theorem map_input_sublist (s : σ) (is : List ι) :
    ((transitions step s is).map Transition.input).Sublist is := by
  induction is generalizing s with
  | nil => exact List.Sublist.slnil
  | cons i is ih =>
    rw [transitions, List.map_append]
    cases hc : step s i with
    | error e =>
      rw [committed_error step hc]
      exact (ih _).cons i
    | ok s' =>
      rw [committed_ok step hc]
      exact (ih _).cons_cons i

/-- An order on the inputs of a run is an order on its committed transitions. -/
theorem atEachStep_of_pairwise {R : ι → ι → Prop} {s : σ} {is : List ι} (hR : is.Pairwise R) :
    AtEachStep (fun before t => ∀ u ∈ before, R u.input t.input) (transitions step s is) := by
  intro before t after h
  have hpast := hR.sublist (map_input_sublist step s is)
  rw [h, List.map_append, List.map_cons] at hpast
  intro u hu
  exact (List.pairwise_append.mp hpast).2.2 u.input (List.mem_map_of_mem hu) t.input
    List.mem_cons_self

/-- The part of a history since its last element that opens a new period. -/
def since {α : Type*} (opens : α → Bool) (past : List α) : List α :=
  past.foldl (fun acc t => if opens t then [t] else acc ++ [t]) []

theorem since_snoc {α : Type*} (opens : α → Bool) (past : List α) (t : α) :
    since opens (past ++ [t]) = if opens t then [t] else since opens past ++ [t] := by
  simp [since, List.foldl_append]

theorem transitions_mono {s : σ} {is js : List ι} (h : js <+: is) :
    transitions step s js <+: transitions step s is := by
  obtain ⟨ks, rfl⟩ := h
  rw [transitions_append]
  exact List.prefix_append _ _

/-- When a good transition is exactly one after which the invariant still holds, the invariant
holds at every point of a run exactly when the run takes good transitions only. The auxiliary
invariant may be used in telling them apart and has to survive good transitions. -/
theorem forall_prefix_invariant_iff (Inv Aux : List (Transition σ ι) → σ → Prop)
    (Good : Transition σ ι → Prop) {s : σ} (h0 : Inv [] s) (a0 : Aux [] s)
    (hstep : ∀ past (t : Transition σ ι), step t.pre t.input = .ok t.post → Aux past t.pre →
      Inv past t.pre → (Inv (past ++ [t]) t.post ↔ Good t))
    (haux : ∀ past (t : Transition σ ι), step t.pre t.input = .ok t.post → Aux past t.pre →
      Inv past t.pre → Good t → Aux (past ++ [t]) t.post) (is : List ι) :
    (∀ js, js <+: is → Inv (transitions step s js) (run step s js)) ↔
      ∀ t ∈ transitions step s is, Good t := by
  have hboth (js : List ι) (hg : ∀ t ∈ transitions step s js, Good t) :
      Inv (transitions step s js) (run step s js) ∧ Aux (transitions step s js) (run step s js) :=
    history_invariant step (fun past s => Inv past s ∧ Aux past s) Good ⟨h0, a0⟩
      (fun past t ht hpre hg =>
        ⟨(hstep past t ht hpre.2 hpre.1).mpr hg, haux past t ht hpre.2 hpre.1 hg⟩) js hg
  constructor
  · intro hinv
    induction is using List.reverseRecOn with
    | nil => intro t ht; simp at ht
    | append_singleton is i ih =>
      have hpast := ih fun js hjs => hinv js (hjs.trans (List.prefix_append _ _))
      obtain ⟨hpre, hauxpre⟩ := hboth is hpast
      have hpost := hinv _ List.prefix_rfl
      rw [transitions_snoc, run_snoc] at hpost
      rw [transitions_snoc]
      cases hc : step (run step s is) i with
      | error e => rwa [committed_error step hc, List.append_nil]
      | ok s' =>
        rw [commit_ok step hc, committed_ok step hc] at hpost
        rw [committed_ok step hc]
        exact forall_mem_snoc.mpr ⟨hpast, (hstep _ _ hc hauxpre hpre).mp hpost⟩
  · intro hg js hjs
    exact (hboth js fun t ht => hg t ((transitions_mono step hjs).subset ht)).1

/-- When, given an auxiliary invariant, the good transitions are exactly those with the property,
and good transitions keep the invariant, then a run has the property throughout exactly when it
takes good transitions only. -/
theorem forall_transitions_iff (Aux : σ → Prop) (P Good : Transition σ ι → Prop) {s : σ}
    (a0 : Aux s)
    (hstep : ∀ t : Transition σ ι, step t.pre t.input = .ok t.post → Aux t.pre → (P t ↔ Good t))
    (haux : ∀ t : Transition σ ι, step t.pre t.input = .ok t.post → Aux t.pre → Good t →
      Aux t.post) (is : List ι) :
    (∀ t ∈ transitions step s is, P t) ↔ ∀ t ∈ transitions step s is, Good t := by
  rw [← forall_prefix_invariant_iff step (fun past _ => ∀ t ∈ past, P t) (fun _ => Aux) Good
    (by simp) a0
    (fun past t ht hpre hpast => by rw [forall_mem_snoc, ← hstep t ht hpre]; exact and_iff_right hpast)
    (fun _ t ht hpre _ hgood => haux t ht hpre hgood) is]
  constructor
  · intro h js hjs t ht
    exact h t ((transitions_mono step hjs).subset ht)
  · intro h
    exact h is List.prefix_rfl

/-- When a call is good exactly if it is fine where it is made and keeps the invariant, then the
invariant holds at every point of a run and every call of it is fine, exactly when all calls of the
run are good. Here a call that fails counts as well. -/
theorem forall_calls_iff (Inv : List (Transition σ ι) → σ → Prop) (Fine : σ → ι → Prop)
    (Good : List (Transition σ ι) → ι → Prop) {s : σ} (h0 : Inv [] s)
    (hcall : ∀ past s i, Inv past s →
      ((Fine s i ∧ Inv (past ++ committed step s i) (commit step s i)) ↔ Good past i))
    (is : List ι) :
    ((∀ js, js <+: is → Inv (transitions step s js) (run step s js)) ∧
      ∀ js i, js ++ [i] <+: is → Fine (run step s js) i) ↔
      ∀ js i, js ++ [i] <+: is → Good (transitions step s js) i := by
  constructor
  · rintro ⟨hinv, hfine⟩ js i hjs
    have hpost := hinv (js ++ [i]) hjs
    rw [transitions_snoc, run_snoc] at hpost
    exact (hcall _ _ i (hinv js ((List.prefix_append js [i]).trans hjs))).mp
      ⟨hfine js i hjs, hpost⟩
  · intro hgood
    have hinv : ∀ js, js <+: is → Inv (transitions step s js) (run step s js) := by
      intro js
      induction js using List.reverseRecOn with
      | nil => exact fun _ => h0
      | append_singleton js i ih =>
        intro hjs
        have hpre := ih ((List.prefix_append js [i]).trans hjs)
        rw [transitions_snoc, run_snoc]
        exact ((hcall _ _ i hpre).mpr (hgood js i hjs)).2
    refine ⟨hinv, fun js i hjs => ?_⟩
    exact ((hcall _ _ i (hinv js ((List.prefix_append js [i]).trans hjs))).mpr (hgood js i hjs)).1

def failed (s : σ) (i : ι) : List (ι × ε) :=
  match step s i with
  | .ok _ => []
  | .error e => [(i, e)]

def failures (s : σ) : List ι → List (ι × ε)
  | [] => []
  | i :: is => failed step s i ++ failures (commit step s i) is

end Machine
