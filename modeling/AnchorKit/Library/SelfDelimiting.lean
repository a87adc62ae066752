import Mathlib.Data.Set.Basic
import Mathlib.Data.UInt

/-!
# Self-delimiting encodings

An encoding is self-delimiting when it can be read off the front of a longer string in at most one
way. Fixed-width encodings, encodings with their length in front and concatenations of
self-delimiting ones are self-delimiting, and a list of them can be written without separators.
-/

variable {α β γ : Type*}

/-- On the values in `S`, no encoding continues another one. -/
def SelfDelimiting (S : Set α) (enc : α → List γ) : Prop :=
  ∀ a ∈ S, ∀ b ∈ S, ∀ x y, enc a ++ x = enc b ++ y → a = b ∧ x = y

namespace SelfDelimiting

variable {S : Set α} {T : Set β} {enc : α → List γ} {enc' : β → List γ}

theorem injective (h : SelfDelimiting S enc) {a b : α} (ha : a ∈ S) (hb : b ∈ S)
    (heq : enc a = enc b) : a = b :=
  (h a ha b hb [] [] (by rw [heq])).1

theorem of_length (hlength : ∀ a ∈ S, ∀ b ∈ S, (enc a).length = (enc b).length)
    (hinj : Set.InjOn enc S) : SelfDelimiting S enc := by
  intro a ha b hb x y heq
  obtain ⟨henc, hrest⟩ := List.append_inj heq (hlength a ha b hb)
  exact ⟨hinj ha hb henc, hrest⟩

/-- A terminator that does not occur before the end. -/
theorem terminated {t : γ} (hfree : ∀ a ∈ S, t ∉ enc a) (hinj : Set.InjOn enc S) :
    SelfDelimiting S fun a => enc a ++ [t] := by
  have hsplit (l m x y : List γ) (hl : t ∉ l) (hm : t ∉ m) (h : l ++ t :: x = m ++ t :: y) :
      l = m ∧ x = y := by
    induction l generalizing m with
    | nil =>
      cases m with
      | nil => exact ⟨rfl, (List.cons.inj h).2⟩
      | cons c m =>
        obtain ⟨rfl, _⟩ := List.cons.inj h
        exact absurd List.mem_cons_self hm
    | cons c l ih =>
      cases m with
      | nil =>
        obtain ⟨rfl, _⟩ := List.cons.inj h
        exact absurd List.mem_cons_self hl
      | cons c' m =>
        obtain ⟨rfl, hrest⟩ := List.cons.inj h
        obtain ⟨rfl, rfl⟩ := ih m (List.not_mem_of_not_mem_cons hl)
          (List.not_mem_of_not_mem_cons hm) hrest
        exact ⟨rfl, rfl⟩
  intro a ha b hb x y h
  simp only [List.append_assoc, List.singleton_append] at h
  obtain ⟨henc, hrest⟩ := hsplit _ _ x y (hfree a ha) (hfree b hb) h
  exact ⟨hinj ha hb henc, hrest⟩

/-- A body whose length can be told from a header in front of it. -/
theorem headed (size : α → β) {body : α → List γ} (hsize : SelfDelimiting T enc')
    (hmem : ∀ a ∈ S, size a ∈ T)
    (hlength : ∀ a ∈ S, ∀ b ∈ S, size a = size b → (body a).length = (body b).length)
    (hinj : Set.InjOn body S) : SelfDelimiting S fun a => enc' (size a) ++ body a := by
  intro a ha b hb x y heq
  simp only [List.append_assoc] at heq
  obtain ⟨hs, hrest⟩ := hsize _ (hmem a ha) _ (hmem b hb) _ _ heq
  obtain ⟨hbody, hxy⟩ := List.append_inj hrest (hlength a ha b hb hs)
  exact ⟨hinj ha hb hbody, hxy⟩

theorem counted (h : SelfDelimiting S enc) {l m : List α} (hl : ∀ a ∈ l, a ∈ S)
    (hm : ∀ a ∈ m, a ∈ S) (hlength : l.length = m.length) {x y : List γ}
    (heq : l.flatMap enc ++ x = m.flatMap enc ++ y) : l = m ∧ x = y := by
  induction l generalizing m with
  | nil =>
    obtain rfl := List.length_eq_zero_iff.mp hlength.symm
    exact ⟨rfl, heq⟩
  | cons a l ih =>
    cases m with
    | nil => cases hlength
    | cons b m =>
      simp only [List.flatMap_cons, List.append_assoc] at heq
      obtain ⟨rfl, hrest⟩ := h a (hl a List.mem_cons_self) b (hm b List.mem_cons_self) _ _ heq
      obtain ⟨rfl, rfl⟩ := ih (fun c hc => hl c (List.mem_cons_of_mem _ hc))
        (fun c hc => hm c (List.mem_cons_of_mem _ hc)) (Nat.succ.inj hlength) hrest
      exact ⟨rfl, rfl⟩

/-- A whole list of encodings none of which is empty. -/
theorem list (h : SelfDelimiting S enc) (hne : ∀ a, enc a ≠ []) {l m : List α}
    (hl : ∀ a ∈ l, a ∈ S) (hm : ∀ a ∈ m, a ∈ S) (heq : l.flatMap enc = m.flatMap enc) :
    l = m := by
  induction l generalizing m with
  | nil =>
    cases m with
    | nil => rfl
    | cons b m => exact absurd (List.append_eq_nil_iff.mp heq.symm).1 (hne b)
  | cons a l ih =>
    cases m with
    | nil => exact absurd (List.append_eq_nil_iff.mp heq).1 (hne a)
    | cons b m =>
      simp only [List.flatMap_cons] at heq
      obtain ⟨rfl, hrest⟩ := h a (hl a List.mem_cons_self) b (hm b List.mem_cons_self) _ _ heq
      rw [ih (fun c hc => hl c (List.mem_cons_of_mem _ hc))
        (fun c hc => hm c (List.mem_cons_of_mem _ hc)) hrest]

end SelfDelimiting

/-- The low `width` bytes of a number, most significant first. -/
def beBytes : ℕ → ℕ → List UInt8
  | 0, _ => []
  | width + 1, n => beBytes width (n / 256) ++ [UInt8.ofNat n]

@[simp] theorem length_beBytes (width n : ℕ) : (beBytes width n).length = width := by
  induction width generalizing n with
  | zero => rfl
  | succ width ih => simp [beBytes, ih]

theorem beBytes_inj {width n m : ℕ} (hn : n < 256 ^ width) (hm : m < 256 ^ width)
    (h : beBytes width n = beBytes width m) : n = m := by
  induction width generalizing n m with
  | zero => omega
  | succ width ih =>
    obtain ⟨hhigh, hlow⟩ := List.append_inj' h rfl
    have hdiv : n / 256 = m / 256 :=
      ih (Nat.div_lt_of_lt_mul (by rwa [pow_succ'] at hn))
        (Nat.div_lt_of_lt_mul (by rwa [pow_succ'] at hm)) hhigh
    have hmod : n % 256 = m % 256 := by
      simpa using congrArg UInt8.toNat (List.singleton_inj.mp hlow)
    omega

theorem selfDelimiting_beBytes (width : ℕ) :
    SelfDelimiting {n | n < 256 ^ width} (beBytes width) :=
  .of_length (by simp) fun _ hn _ hm h => beBytes_inj hn hm h
