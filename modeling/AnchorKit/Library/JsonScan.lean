import AnchorKit.Library.JsonText

/-!
# Searching a JSON text for a name

A byte search for a name in quotes with a colon right behind it, in a text that is well-formed
JSON. Names are found at every depth, but only where they are spelled out, and nothing else is
found: inside a string every quote follows a backslash, and outside of strings a quote only opens
one.
-/

namespace JsonText

def afterFirst (key : Bytes) : Bytes → Option Bytes
  | [] => none
  | b :: rest =>
    if key.isPrefixOf (b :: rest) then some ((b :: rest).drop key.length) else afterFirst key rest

/-- The bytes `"name":`. -/
def keyOf (name : Bytes) : Bytes := 0x22 :: name ++ [0x22, 0x3A]

/-- A name that is written without quotes and backslashes, and starts with none of the bytes that
may follow a string. -/
structure PlainName (name : Bytes) : Prop where
  no_quote : 0x22 ∉ name
  no_backslash : 0x5C ∉ name
  starts : ∃ b, name.head? = some b ∧ b ∉ ([0x20, 0x09, 0x0A, 0x0D, 0x2C, 0x3A, 0x5D, 0x7D] : Bytes)

/-- The text ends, or goes on with whitespace, a comma or a closing bracket. -/
def Stops (rest : Bytes) : Prop :=
  ∀ b, rest.head? = some b → b ∈ ([0x20, 0x09, 0x0A, 0x0D, 0x2C, 0x5D, 0x7D] : Bytes)

/-- The inside of a string: no quote but behind a backslash. -/
inductive Escaped : Bytes → Prop
  | nil : Escaped []
  | byte {b : UInt8} {rest : Bytes} (hquote : b ≠ 0x22) (hbackslash : b ≠ 0x5C)
      (hrest : Escaped rest) : Escaped (b :: rest)
  | pair (b : UInt8) {rest : Bytes} (hrest : Escaped rest) : Escaped (0x5C :: b :: rest)

theorem Escaped.append {s t : Bytes} (hs : Escaped s) (ht : Escaped t) : Escaped (s ++ t) := by
  induction hs with
  | nil => exact ht
  | byte hquote hbackslash _ ih => exact .byte hquote hbackslash ih
  | pair b _ ih => exact .pair b ih

theorem escaped_of_forall {s : Bytes} (h : ∀ b ∈ s, b ≠ 0x22 ∧ b ≠ 0x5C) : Escaped s := by
  induction s with
  | nil => exact .nil
  | cons b s ih =>
    obtain ⟨hquote, hbackslash⟩ := h b List.mem_cons_self
    exact .byte hquote hbackslash (ih fun c hc => h c (List.mem_cons_of_mem _ hc))

/-- In UTF-8 only ASCII characters have bytes below 128. -/
theorem utf8_ne {c : Char} (h : 0x20 ≤ c.toNat ∧ c.toNat ≠ 0x22 ∧ c.toNat ≠ 0x5C) :
    ∀ b ∈ String.utf8EncodeChar c, b ≠ 0x22 ∧ b ≠ 0x5C := by
  have hvalue : c.val.toNat = c.toNat := rfl
  have hne {n : ℕ} (hn : n < 256) (hquote : n ≠ 0x22) (hbackslash : n ≠ 0x5C) :
      UInt8.ofNat n ≠ 0x22 ∧ UInt8.ofNat n ≠ 0x5C := by
    have hto : (UInt8.ofNat n).toNat = n := by
      rw [UInt8.toNat_ofNat']
      exact Nat.mod_eq_of_lt hn
    rw [Ne, Ne, ← UInt8.toNat_inj, ← UInt8.toNat_inj, hto]
    exact ⟨hquote, hbackslash⟩
  have hmax : c.toNat < 0x110000 := by
    rcases c.valid with hlow | ⟨_, hhigh⟩
    · exact Nat.lt_trans hlow (by decide)
    · exact hhigh
  intro b hb
  unfold String.utf8EncodeChar at hb
  rw [hvalue] at hb
  dsimp only at hb
  split at hb
  · obtain rfl := List.mem_singleton.mp hb
    exact hne (by omega) h.2.1 h.2.2
  split at hb
  · simp only [List.mem_cons, List.not_mem_nil, or_false] at hb
    rcases hb with rfl | rfl <;> exact hne (by omega) (by omega) (by omega)
  split at hb
  · simp only [List.mem_cons, List.not_mem_nil, or_false] at hb
    rcases hb with rfl | rfl | rfl <;> exact hne (by omega) (by omega) (by omega)
  · simp only [List.mem_cons, List.not_mem_nil, or_false] at hb
    rcases hb with rfl | rfl | rfl | rfl <;> exact hne (by omega) (by omega) (by omega)

theorem hexDigit_ne (d : HexDigit) : d.byte ≠ 0x22 ∧ d.byte ≠ 0x5C := by
  obtain ⟨value, upper⟩ := d
  revert value upper
  decide

theorem escaped_item (item : StringItem) : Escaped item.bytes := by
  cases item with
  | char c hc => exact escaped_of_forall (utf8_ne hc)
  | escape e => exact .pair _ .nil
  | codeUnit a b c d =>
    apply Escaped.pair
    apply escaped_of_forall
    simp only [List.mem_cons, List.not_mem_nil, or_false, forall_eq_or_imp, forall_eq]
    exact ⟨hexDigit_ne a, hexDigit_ne b, hexDigit_ne c, hexDigit_ne d⟩

theorem escaped_rawText (s : List StringItem) : Escaped (rawText s) := by
  induction s with
  | nil => exact .nil
  | cons item s ih => exact (escaped_item item).append ih

/-! ### Skipping -/

section Scan

variable {name : Bytes} {rest : Bytes}

/-- Nothing is found before the first byte of the key. -/
theorem afterFirst_skip {b : UInt8} {key skipped : Bytes} (h : b ∉ skipped) :
    afterFirst (b :: key) (skipped ++ rest) = afterFirst (b :: key) rest := by
  induction skipped with
  | nil => rfl
  | cons c skipped ih =>
    rw [List.mem_cons, not_or] at h
    rw [List.cons_append, afterFirst, if_neg (by simp [h.1]), ih h.2]

theorem afterFirst_append {skipped : Bytes} (h : 0x22 ∉ skipped) :
    afterFirst (keyOf name) (skipped ++ rest) = afterFirst (keyOf name) rest :=
  afterFirst_skip h

theorem afterFirst_cons_of_ne {b : UInt8} (hb : b ≠ 0x22) :
    afterFirst (keyOf name) (b :: rest) = afterFirst (keyOf name) rest := by
  have hnot : 0x22 ∉ [b] := by simpa using hb.symm
  exact afterFirst_append hnot

/-- A name matches the inside of a string only as a whole. -/
theorem prefix_escaped_iff {raw : Bytes} (hraw : Escaped raw) (hquote : 0x22 ∉ name)
    (hbackslash : 0x5C ∉ name) :
    name ++ [0x22, 0x3A] <+: raw ++ 0x22 :: rest ↔ name = raw ∧ rest.head? = some 0x3A := by
  induction hraw generalizing name with
  | nil =>
    cases name with
    | nil => cases rest <;> simp [eq_comm]
    | cons n name =>
      have hn : n ≠ 0x22 := fun h => hquote (h ▸ List.mem_cons_self)
      simp [hn]
  | @byte b raw hb _ _ ih =>
    cases name with
    | nil => simp [Ne.symm hb]
    | cons n name =>
      have hn : 0x22 ∉ name := fun h => hquote (List.mem_cons_of_mem _ h)
      have hn' : 0x5C ∉ name := fun h => hbackslash (List.mem_cons_of_mem _ h)
      simp only [List.cons_append, List.cons_prefix_cons, ih hn hn', List.cons.injEq, and_assoc]
  | @pair b raw _ _ =>
    cases name with
    | nil => simp
    | cons n name =>
      have hn : n ≠ 0x5C := fun h => hbackslash (h ▸ List.mem_cons_self)
      simp [hn]

theorem keyOf_isPrefixOf_iff {raw : Bytes} (hraw : Escaped raw) (hname : PlainName name) :
    (keyOf name).isPrefixOf (0x22 :: raw ++ 0x22 :: rest) = true ↔
      name = raw ∧ rest.head? = some 0x3A := by
  rw [List.isPrefixOf_iff_prefix, keyOf, List.cons_append, List.cons_append,
    List.cons_prefix_cons, prefix_escaped_iff hraw hname.no_quote hname.no_backslash]
  simp

theorem drop_keyOf : (0x22 :: name ++ 0x22 :: 0x3A :: rest).drop (keyOf name).length = rest := by
  rw [show 0x22 :: name ++ 0x22 :: 0x3A :: rest = keyOf name ++ rest by simp [keyOf]]
  exact List.drop_left

/-- At a quote in a string the search ends if the rest of the string is the name. -/
theorem afterFirst_quote {raw : Bytes} (hraw : Escaped raw) (hname : PlainName name) :
    afterFirst (keyOf name) (0x22 :: raw ++ 0x22 :: rest) =
      if name = raw ∧ rest.head? = some 0x3A then some rest.tail
      else afterFirst (keyOf name) (raw ++ 0x22 :: rest) := by
  rw [List.cons_append, afterFirst, ← List.cons_append]
  by_cases h : name = raw ∧ rest.head? = some 0x3A
  · rw [if_pos h, if_pos ((keyOf_isPrefixOf_iff hraw hname).mpr h)]
    obtain ⟨rfl, hcolon⟩ := h
    obtain ⟨tail, rfl⟩ := List.head?_eq_some_iff.mp hcolon
    rw [drop_keyOf, List.tail_cons]
  · rw [if_neg h, if_neg (mt (keyOf_isPrefixOf_iff hraw hname).mp h)]

theorem cons_suffix_cons_iff {b : UInt8} {raw : Bytes} (hb : b ≠ 0x22) :
    0x22 :: name <:+ b :: raw ↔ 0x22 :: name <:+ raw := by
  rw [List.suffix_cons_iff]
  simp [Ne.symm hb]

/-- The search past a quote, given how it goes on inside the string. -/
theorem afterFirst_from_quote {raw : Bytes} (hraw : Escaped raw) (hname : PlainName name)
    (hinside : afterFirst (keyOf name) (raw ++ 0x22 :: rest) =
      if 0x22 :: name <:+ raw ∧ rest.head? = some 0x3A then some rest.tail
      else afterFirst (keyOf name) rest) :
    afterFirst (keyOf name) (0x22 :: raw ++ 0x22 :: rest) =
      if 0x22 :: name <:+ 0x22 :: raw ∧ rest.head? = some 0x3A then some rest.tail
      else afterFirst (keyOf name) rest := by
  rw [afterFirst_quote hraw hname, hinside]
  by_cases hall : name = raw ∧ rest.head? = some 0x3A
  · rw [if_pos hall, if_pos ⟨hall.1 ▸ List.suffix_rfl, hall.2⟩]
  · rw [if_neg hall]
    congr 1
    rw [List.suffix_cons_iff, List.cons.injEq]
    simp only [true_and, or_and_right, eq_iff_iff]
    exact (or_iff_right hall).symm

theorem afterFirst_inside {raw : Bytes} (hraw : Escaped raw) (hname : PlainName name)
    (hrest : ∀ b, rest.head? = some b → name.head? ≠ some b) :
    afterFirst (keyOf name) (raw ++ 0x22 :: rest) =
      if 0x22 :: name <:+ raw ∧ rest.head? = some 0x3A then some rest.tail
      else afterFirst (keyOf name) rest := by
  induction hraw with
  | nil =>
    have hkey : (keyOf name).isPrefixOf (0x22 :: rest) = false := by
      obtain ⟨b, hhead, _⟩ := hname.starts
      obtain ⟨tail, rfl⟩ := List.head?_eq_some_iff.mp hhead
      cases rest with
      | nil => rfl
      | cons c rest =>
        have hne : b ≠ c := fun h => hrest c rfl (by rw [← h]; rfl)
        simp [keyOf, List.isPrefixOf, hne]
    rw [List.nil_append, afterFirst, hkey]
    simp
  | @byte b raw hb _ _ ih =>
    rw [List.cons_append, afterFirst_cons_of_ne hb, ih]
    simp only [cons_suffix_cons_iff hb]
  | @pair b raw hraw ih =>
    have hslash : (0x5C : UInt8) ≠ 0x22 := by decide
    rw [List.cons_append, List.cons_append, afterFirst_cons_of_ne hslash]
    simp only [cons_suffix_cons_iff hslash]
    by_cases hb : b = 0x22
    · rw [hb, ← List.cons_append]
      exact afterFirst_from_quote hraw hname ih
    · rw [afterFirst_cons_of_ne hb, ih]
      simp only [cons_suffix_cons_iff hb]

def Spells (s : List StringItem) (name : Bytes) : Prop := 0x22 :: name <:+ 0x22 :: rawText s

instance (s : List StringItem) (name : Bytes) : Decidable (Spells s name) :=
  inferInstanceAs (Decidable (_ <:+ _))

theorem afterFirst_quoted (s : List StringItem) (hname : PlainName name)
    (hrest : ∀ b, rest.head? = some b → name.head? ≠ some b) :
    afterFirst (keyOf name) (quoted s ++ rest) =
      if Spells s name ∧ rest.head? = some 0x3A then some rest.tail
      else afterFirst (keyOf name) rest := by
  have hinside := afterFirst_inside (escaped_rawText s) hname hrest
  have hquote := afterFirst_from_quote (escaped_rawText s) hname hinside
  rwa [quoted, List.append_assoc, List.singleton_append]

end Scan

end JsonText
