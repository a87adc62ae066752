import AnchorKit.Library.JsonReading

/-!
# The data of a JSON text

What a JSON text says, apart from how it is spelled: literals, numbers by their value, strings by
their code points, and the elements and members in their order. A text has one reading: two syntax
trees with the same bytes say the same, so that every reader that follows the grammar finds it.
-/

namespace JsonText

inductive Data
  | null
  | bool (b : Bool)
  | number (q : ℚ)
  | string (codes : List ℕ)
  | array (elements : List Data)
  | object (members : List (List ℕ × Data))

def Literal.data : Literal → Data
  | null => .null
  | true => .bool Bool.true
  | false => .bool Bool.false

mutual

def Value.data : Value → Data
  | .literal l => l.data
  | .number n => .number n.value
  | .string s => .string (codePoints s)
  | .emptyArray _ => .array []
  | .array elements => .array elements.data
  | .emptyObject _ => .object []
  | .object members => .object members.data

def Elements.data : Elements → List Data
  | .last _ v _ => [v.data]
  | .more _ v _ rest => v.data :: rest.data

def Members.data : Members → List (List ℕ × Data)
  | .last _ name _ _ v _ => [(codePoints name, v.data)]
  | .more _ name _ _ v _ rest => (codePoints name, v.data) :: rest.data

end

def Describes (text : Bytes) (data : Data) : Prop :=
  (∃ doc : ObjectText, doc.bytes = text) ∧
    ∀ doc : ObjectText, doc.bytes = text → doc.body.data = data

/-! ### Whitespace -/

/-- The text does not start with whitespace. -/
def Solid (text : Bytes) : Prop := ∀ b ∈ text.head?, b ∉ ([0x20, 0x09, 0x0A, 0x0D] : Bytes)

section Unique

variable {t t' : Bytes}

theorem Solid.cons {b : UInt8} (hb : b ∉ ([0x20, 0x09, 0x0A, 0x0D] : Bytes)) : Solid (b :: t) := by
  intro c hc
  obtain rfl := Option.some.inj hc
  exact hb

theorem Space.byte_injective {a b : Space} (h : a.byte = b.byte) : a = b := by
  revert h
  cases a <;> cases b <;> decide

theorem Space.byte_mem (a : Space) : a.byte ∈ ([0x20, 0x09, 0x0A, 0x0D] : Bytes) := by
  cases a <;> decide

theorem spaces_unique {ws ws' : List Space} (h : spaces ws ++ t = spaces ws' ++ t') (ht : Solid t)
    (ht' : Solid t') : t = t' := by
  induction ws generalizing ws' with
  | nil =>
    cases ws' with
    | nil => exact h
    | cons w' ws' =>
      obtain rfl : t = w'.byte :: (spaces ws' ++ t') := h
      exact absurd w'.byte_mem (ht _ rfl)
  | cons w ws ih =>
    cases ws' with
    | nil =>
      obtain rfl : w.byte :: (spaces ws ++ t) = t' := h
      exact absurd w.byte_mem (ht' _ rfl)
    | cons w' ws' => exact ih (List.cons.inj h).2

/-! ### Strings -/

structure StringItem.Alike (i j : StringItem) : Prop where
  code : i.codePoint = j.codePoint
  high : i.highSurrogate = j.highSurrogate
  low : i.lowSurrogate = j.lowSurrogate

theorem StringItem.Alike.refl (i : StringItem) : i.Alike i := ⟨rfl, rfl, rfl⟩

theorem codePoints_congr {s s' : List StringItem} (h : List.Forall₂ StringItem.Alike s s') :
    codePoints s = codePoints s' := by
  induction s using codePoints.induct generalizing s' with
  | case1 =>
    cases h
    rfl
  | case2 i =>
    obtain _ | ⟨hi, hnil⟩ := h
    cases hnil
    rw [codePoints, codePoints, hi.code]
  | case3 i j rest high low hhigh hlow ih =>
    obtain _ | ⟨hi, hrest⟩ := h
    obtain _ | ⟨hj, hrest⟩ := hrest
    rw [codePoints, codePoints, ← hi.high, ← hj.low, hhigh, hlow]
    exact congrArg _ (ih hrest)
  | case4 i j rest hnone ih =>
    obtain _ | ⟨hi, hrest⟩ := h
    obtain _ | ⟨hj, htail⟩ := hrest
    have hpair := ih (.cons hj htail)
    rw [codePoints, codePoints, ← hi.high, ← hj.low, ← hi.code, hpair]
    split
    · rename_i hhigh hlow
      exact (hnone _ _ hhigh hlow).elim
    · rfl

/-- Without code units that are half of a pair, every item stands for a character. -/
theorem codePoints_of_forall {s : List StringItem} (h : ∀ i ∈ s, i.highSurrogate = none) :
    codePoints s = s.map StringItem.codePoint := by
  induction s with
  | nil => rfl
  | cons i s ih =>
    have hrest := ih fun j hj => h j (List.mem_cons_of_mem i hj)
    cases s with
    | nil => rfl
    | cons j rest =>
      rw [codePoints, h i List.mem_cons_self, hrest]
      rfl

theorem utf8EncodeChar_unique {c c' : Char}
    (h : String.utf8EncodeChar c ++ t = String.utf8EncodeChar c' ++ t') : c = c' ∧ t = t' := by
  have hdecode (c : Char) (t : Bytes) :
      ByteArray.utf8DecodeChar? (String.utf8EncodeChar c ++ t).toByteArray 0 = some c := by
    rw [List.toByteArray_append]
    exact ByteArray.utf8DecodeChar?_utf8EncodeChar_append
  have hsame := hdecode c t
  rw [h, hdecode c' t'] at hsame
  obtain rfl := Option.some.inj hsame
  exact ⟨rfl, List.append_cancel_left h⟩

theorem HexDigit.value_of_byte {a b : HexDigit} (h : a.byte = b.byte) : a.value = b.value := by
  obtain ⟨value, upper⟩ := a
  obtain ⟨value', upper'⟩ := b
  revert value upper value' upper'
  decide

theorem Escape.byte_injective {a b : Escape} (h : a.byte = b.byte) : a = b := by
  revert h
  cases a <;> cases b <;> decide

theorem Escape.byte_ne (e : Escape) : e.byte ≠ 0x75 := by
  cases e <;> decide

/-- A character that stands for itself is not written with a quote or a backslash in front. -/
theorem head_char {c : Char} (hc : 0x20 ≤ c.toNat ∧ c.toNat ≠ 0x22 ∧ c.toNat ≠ 0x5C)
    {b : UInt8} (hb : b = 0x22 ∨ b = 0x5C) : String.utf8EncodeChar c ++ t ≠ b :: t' := by
  obtain ⟨first, others, hbytes⟩ :=
    List.exists_cons_of_ne_nil (String.utf8EncodeChar_ne_nil (c := c))
  have hne := utf8_ne hc first (hbytes ▸ List.mem_cons_self)
  intro h
  rw [hbytes] at h
  obtain ⟨rfl, _⟩ := List.cons.inj h
  exact hb.elim hne.1 hne.2

theorem item_unique {i i' : StringItem} (h : i.bytes ++ t = i'.bytes ++ t') :
    i.Alike i' ∧ t = t' := by
  cases i with
  | char c hc =>
    cases i' with
    | char c' hc' =>
      obtain ⟨rfl, hrest⟩ := utf8EncodeChar_unique h
      exact ⟨.refl _, hrest⟩
    | escape e' => exact absurd h (head_char hc (.inr rfl))
    | codeUnit a' b' c' d' => exact absurd h (head_char hc (.inr rfl))
  | escape e =>
    cases i' with
    | char c' hc' => exact absurd h.symm (head_char hc' (.inr rfl))
    | escape e' =>
      obtain ⟨hbyte, hrest⟩ := List.cons.inj (List.cons.inj h).2
      obtain rfl := Escape.byte_injective hbyte
      exact ⟨.refl _, hrest⟩
    | codeUnit a' b' c' d' =>
      exact absurd (List.cons.inj (List.cons.inj h).2).1 e.byte_ne
  | codeUnit a b c d =>
    cases i' with
    | char c' hc' => exact absurd h.symm (head_char hc' (.inr rfl))
    | escape e' => exact absurd (List.cons.inj (List.cons.inj h).2).1.symm e'.byte_ne
    | codeUnit a' b' c' d' =>
      simp only [StringItem.bytes, List.cons_append, List.nil_append, List.cons.injEq,
        true_and] at h
      obtain ⟨ha, hb, hc, hd, hrest⟩ := h
      have hcode : (StringItem.codeUnit a b c d).codePoint =
          (StringItem.codeUnit a' b' c' d').codePoint := by
        simp only [StringItem.codePoint, HexDigit.value_of_byte ha, HexDigit.value_of_byte hb,
          HexDigit.value_of_byte hc, HexDigit.value_of_byte hd]
      refine ⟨⟨hcode, ?_, ?_⟩, hrest⟩
      · rw [StringItem.highSurrogate, StringItem.highSurrogate, hcode]
      · rw [StringItem.lowSurrogate, StringItem.lowSurrogate, hcode]

theorem item_ne_quote (i : StringItem) : i.bytes ++ t ≠ 0x22 :: t' := by
  cases i with
  | char c hc => exact head_char hc (.inl rfl)
  | escape e => exact nofun
  | codeUnit a b c d => exact nofun

theorem rawText_unique {s s' : List StringItem}
    (h : rawText s ++ 0x22 :: t = rawText s' ++ 0x22 :: t') :
    List.Forall₂ StringItem.Alike s s' ∧ t = t' := by
  induction s generalizing s' with
  | nil =>
    cases s' with
    | nil => exact ⟨.nil, (List.cons.inj h).2⟩
    | cons i' s' =>
      rw [rawText, rawText, List.flatMap_cons, List.append_assoc] at h
      exact absurd h.symm (item_ne_quote i')
  | cons i s ih =>
    cases s' with
    | nil =>
      rw [rawText, rawText, List.flatMap_cons, List.append_assoc] at h
      exact absurd h (item_ne_quote i)
    | cons i' s' =>
      rw [rawText, rawText, List.flatMap_cons, List.flatMap_cons, List.append_assoc,
        List.append_assoc] at h
      obtain ⟨halike, hrest⟩ := item_unique h
      obtain ⟨hall, hend⟩ := ih hrest
      exact ⟨.cons halike hall, hend⟩

theorem quoted_unique {s s' : List StringItem} (h : quoted s ++ t = quoted s' ++ t') :
    codePoints s = codePoints s' ∧ t = t' := by
  rw [quoted, quoted, List.append_assoc, List.append_assoc, List.cons_append,
    List.cons_append] at h
  obtain ⟨hall, hend⟩ := rawText_unique (List.cons.inj h).2
  exact ⟨codePoints_congr hall, hend⟩

/-! ### Numbers -/

theorem digitByte_injective : ∀ {d e : Fin 10}, digitByte d = digitByte e → d = e := by
  decide

/-- Neither a digit nor anything else a number goes on with. -/
def Ends (text : Bytes) : Prop :=
  ∀ b ∈ text.head?, (b < 0x30 ∨ 0x39 < b) ∧ b ≠ 0x2E ∧ b ≠ 0x45 ∧ b ≠ 0x65

theorem Stops.ends (h : Stops t) : Ends t := by
  intro b hb
  have hmem := h b hb
  simp only [List.mem_cons, List.not_mem_nil, or_false] at hmem
  obtain rfl | rfl | rfl | rfl | rfl | rfl | rfl := hmem <;> decide

theorem digits_unique {ds ds' : List (Fin 10)}
    (h : ds.map digitByte ++ t = ds'.map digitByte ++ t')
    (ht : ∀ b ∈ t.head?, b < 0x30 ∨ 0x39 < b) (ht' : ∀ b ∈ t'.head?, b < 0x30 ∨ 0x39 < b) :
    ds = ds' ∧ t = t' := by
  induction ds generalizing ds' with
  | nil =>
    cases ds' with
    | nil => exact ⟨rfl, h⟩
    | cons d' ds' =>
      obtain rfl : t = digitByte d' :: (ds'.map digitByte ++ t') := h
      exact absurd rfl (ne_digitByte (ht _ rfl) d')
  | cons d ds ih =>
    cases ds' with
    | nil =>
      obtain rfl : digitByte d :: (ds.map digitByte ++ t) = t' := h
      exact absurd rfl (ne_digitByte (ht' _ rfl) d)
    | cons d' ds' =>
      obtain ⟨hbyte, hrest⟩ := List.cons.inj h
      obtain ⟨hall, hend⟩ := ih hrest
      exact ⟨List.cons_eq_cons.mpr ⟨digitByte_injective hbyte, hall⟩, hend⟩

theorem sign_unique {s s' : Sign} {ds ds' : List (Fin 10)} (hne : ds ≠ []) (hne' : ds' ≠ [])
    (h : s.bytes ++ ds.map digitByte ++ t = s'.bytes ++ ds'.map digitByte ++ t') : s = s' := by
  have hdigit : ∀ d : Fin 10, digitByte d ≠ 0x2B ∧ digitByte d ≠ 0x2D := by decide
  obtain ⟨d, ds, rfl⟩ := List.exists_cons_of_ne_nil hne
  obtain ⟨d', ds', rfl⟩ := List.exists_cons_of_ne_nil hne'
  have hhead := congrArg List.head? h
  cases s <;> cases s' <;>
    simp [Sign.bytes, hdigit d, (hdigit d').1.symm, (hdigit d').2.symm] at hhead ⊢

theorem exponentMark_injective : ∀ {a b : Bool},
    (if a then 0x45 else 0x65 : UInt8) = (if b then 0x45 else 0x65) → a = b := by
  decide

theorem exponent_unique {e e' : Option Exponent} (ht : Ends t) (ht' : Ends t')
    (h : e.elim [] Exponent.bytes ++ t = e'.elim [] Exponent.bytes ++ t') : e = e' ∧ t = t' := by
  have hhead (e : Exponent) (r : Bytes) : ∃ b rest, e.bytes ++ r = b :: rest ∧
      (b = 0x45 ∨ b = 0x65) := by
    refine ⟨_, _, rfl, ?_⟩
    cases e.upper
    · exact .inr rfl
    · exact .inl rfl
  cases e with
  | none =>
    cases e' with
    | none => exact ⟨rfl, h⟩
    | some e' =>
      obtain ⟨b, rest, hbytes, hb⟩ := hhead e' t'
      obtain rfl : t = b :: rest := Eq.trans h hbytes
      have hends := ht b rfl
      rcases hb with rfl | rfl
      · exact absurd rfl hends.2.2.1
      · exact absurd rfl hends.2.2.2
  | some e =>
    cases e' with
    | none =>
      obtain ⟨b, rest, hbytes, hb⟩ := hhead e t
      obtain rfl : b :: rest = t' := hbytes.symm.trans h
      have hends := ht' b rfl
      rcases hb with rfl | rfl
      · exact absurd rfl hends.2.2.1
      · exact absurd rfl hends.2.2.2
    | some e' =>
      obtain ⟨upper, sign, ds, hne⟩ := e
      obtain ⟨upper', sign', ds', hne'⟩ := e'
      obtain ⟨hcase, hrest⟩ : (if upper then 0x45 else 0x65 : UInt8) =
          (if upper' then 0x45 else 0x65) ∧
          sign.bytes ++ ds.map digitByte ++ t = sign'.bytes ++ ds'.map digitByte ++ t' :=
        List.cons.inj h
      obtain rfl := exponentMark_injective hcase
      obtain rfl := sign_unique hne hne' hrest
      rw [List.append_assoc, List.append_assoc, List.append_cancel_left_eq] at hrest
      obtain ⟨rfl, hend⟩ := digits_unique hrest (fun b hb => (ht b hb).1) fun b hb => (ht' b hb).1
      exact ⟨rfl, hend⟩

theorem fraction_unique {ds ds' : List (Fin 10)} {e e' : Option Exponent} (ht : Ends t)
    (ht' : Ends t')
    (h : (if ds = [] then [] else 0x2E :: ds.map digitByte) ++ (e.elim [] Exponent.bytes ++ t) =
      (if ds' = [] then [] else 0x2E :: ds'.map digitByte) ++ (e'.elim [] Exponent.bytes ++ t')) :
    ds = ds' ∧ e = e' ∧ t = t' := by
  have hhead {e : Option Exponent} {r : Bytes} (hr : Ends r) :
      ∀ b ∈ (e.elim [] Exponent.bytes ++ r).head?, (b < 0x30 ∨ 0x39 < b) ∧ b ≠ 0x2E := by
    cases e with
    | none => exact fun b hb => ⟨(hr b hb).1, (hr b hb).2.1⟩
    | some e =>
      intro b hb
      obtain rfl := Option.some.inj hb
      cases e.upper <;> decide
  by_cases hds : ds = []
  · by_cases hds' : ds' = []
    · rw [if_pos hds, if_pos hds', List.nil_append, List.nil_append] at h
      obtain ⟨hexponent, hend⟩ := exponent_unique ht ht' h
      exact ⟨hds.trans hds'.symm, hexponent, hend⟩
    · rw [if_pos hds, if_neg hds', List.nil_append, List.cons_append] at h
      exact absurd rfl (hhead ht _ (congrArg List.head? h)).2
  · by_cases hds' : ds' = []
    · rw [if_neg hds, if_pos hds', List.nil_append, List.cons_append] at h
      exact absurd rfl (hhead ht' _ (congrArg List.head? h.symm)).2
    · rw [if_neg hds, if_neg hds', List.cons_append, List.cons_append] at h
      obtain ⟨hdigits, hrest⟩ := digits_unique (List.cons.inj h).2
        (fun b hb => (hhead ht b hb).1) fun b hb => (hhead ht' b hb).1
      exact ⟨hdigits, exponent_unique ht ht' hrest⟩

theorem number_unique {n n' : Number} (ht : Stops t) (ht' : Stops t')
    (h : n.bytes ++ t = n'.bytes ++ t') : n = n' ∧ t = t' := by
  have hsign : n.negative = n'.negative := by
    obtain ⟨b, rest, hbytes, hb⟩ := number_head n
    obtain ⟨b', rest', hbytes', hb'⟩ := number_head n'
    rw [hbytes, hbytes'] at h
    obtain ⟨rfl, _⟩ := List.cons.inj h
    have hminus : ∀ d : Fin 10, (0x2D : UInt8) ≠ digitByte d := by decide
    rcases hb with ⟨rfl, hn⟩ | ⟨⟨d, rfl⟩, hn⟩
    · rcases hb' with ⟨_, hn'⟩ | ⟨⟨d', hd'⟩, _⟩
      · rw [hn, hn']
      · exact absurd hd' (hminus d')
    · rcases hb' with ⟨hd, _⟩ | ⟨_, hn'⟩
      · exact absurd hd.symm (hminus d)
      · rw [hn, hn']
  have hsplit (n : Number) (r : Bytes) : n.bytes ++ r = (if n.negative then [0x2D] else []) ++
      (n.integer.map digitByte ++ (n.fractionBytes ++ n.exponentBytes ++ r)) := by
    simp only [Number.bytes, List.append_assoc]
  rw [hsplit, hsplit, hsign, List.append_cancel_left_eq] at h
  obtain ⟨hinteger, hrest⟩ := digits_unique h (number_tail n ht) (number_tail n' ht')
  rw [List.append_assoc, List.append_assoc] at hrest
  obtain ⟨hfraction, hexponent, hend⟩ := fraction_unique ht.ends ht'.ends hrest
  obtain ⟨negative, integer, fraction, exponent, _, _⟩ := n
  obtain ⟨negative', integer', fraction', exponent', _, _⟩ := n'
  obtain rfl : negative = negative' := hsign
  obtain rfl : integer = integer' := hinteger
  obtain rfl : fraction = fraction' := hfraction
  obtain rfl : exponent = exponent' := hexponent
  exact ⟨rfl, hend⟩

/-! ### Values -/

theorem literal_unique {l l' : Literal} (h : l.bytes ++ t = l'.bytes ++ t') : l = l' ∧ t = t' := by
  have hhead : l.bytes.head? = l'.bytes.head? := by
    have hne (l : Literal) : l.bytes ≠ [] := by cases l <;> exact List.cons_ne_nil _ _
    rw [← List.head?_append_of_ne_nil _ (hne l), ← List.head?_append_of_ne_nil _ (hne l'), h]
  obtain rfl : l = l' := by
    revert hhead
    cases l <;> cases l' <;> decide
  exact ⟨rfl, List.append_cancel_left h⟩

inductive Kind
  | literal
  | number
  | string
  | array
  | object
deriving DecidableEq

def Value.kind : Value → Kind
  | .literal _ => .literal
  | .number _ => .number
  | .string _ => .string
  | .emptyArray _ | .array _ => .array
  | .emptyObject _ | .object _ => .object

def kindOf (b : UInt8) : Option Kind :=
  if b = 0x7B then some .object
  else if b = 0x5B then some .array
  else if b = 0x22 then some .string
  else if b = 0x2D ∨ 0x30 ≤ b ∧ b ≤ 0x39 then some .number
  else if b = 0x6E ∨ b = 0x74 ∨ b = 0x66 then some .literal
  else none

theorem Value.head_bytes (v : Value) : ∃ b rest, v.bytes = b :: rest ∧ kindOf b = some v.kind := by
  cases v with
  | literal l => cases l <;> exact ⟨_, _, rfl, rfl⟩
  | number n =>
    obtain ⟨b, rest, hbytes, hb⟩ := number_head n
    refine ⟨b, rest, hbytes, ?_⟩
    rcases hb with ⟨rfl, _⟩ | ⟨⟨d, rfl⟩, _⟩
    · rfl
    · have hdigit : ∀ d : Fin 10, kindOf (digitByte d) = some .number := by decide
      exact hdigit d
  | _ => exact ⟨_, _, rfl, rfl⟩

theorem Value.solid (v : Value) (rest : Bytes) : Solid (v.bytes ++ rest) := by
  obtain ⟨b, bytes, hbytes, hkind⟩ := v.head_bytes
  rw [hbytes]
  refine .cons ?_
  rintro hb
  simp only [List.mem_cons, List.not_mem_nil, or_false] at hb
  rcases hb with rfl | rfl | rfl | rfl <;> cases hkind

theorem Value.kind_unique {v v' : Value} (h : v.bytes ++ t = v'.bytes ++ t') :
    v.kind = v'.kind := by
  obtain ⟨b, rest, hbytes, hkind⟩ := v.head_bytes
  obtain ⟨b', rest', hbytes', hkind'⟩ := v'.head_bytes
  rw [hbytes, hbytes'] at h
  obtain ⟨rfl, _⟩ := List.cons.inj h
  exact Option.some.inj (hkind.symm.trans hkind')

theorem solid_quoted (s : List StringItem) (rest : Bytes) : Solid (quoted s ++ rest) :=
  .cons (by decide)

theorem Elements.head_bytes (es : Elements) (rest : Bytes) :
    ∃ ws v r, es.bytes ++ rest = spaces ws ++ (Value.bytes v ++ r) := by
  cases es with
  | last before v after => exact ⟨before, v, spaces after ++ rest, by simp [Elements.bytes]⟩
  | more before v after tail =>
    exact ⟨before, v, spaces after ++ 0x2C :: (tail.bytes ++ rest), by simp [Elements.bytes]⟩

theorem Members.head_bytes (ms : Members) (rest : Bytes) :
    ∃ ws name r, ms.bytes ++ rest = spaces ws ++ (quoted name ++ r) := by
  cases ms with
  | last before name beforeColon afterColon v after =>
    exact ⟨before, name, spaces beforeColon ++ 0x3A :: (spaces afterColon ++ v.bytes ++
      spaces after ++ rest), by simp [Members.bytes]⟩
  | more before name beforeColon afterColon v after tail =>
    exact ⟨before, name, spaces beforeColon ++ 0x3A :: (spaces afterColon ++ v.bytes ++
      spaces after ++ 0x2C :: (tail.bytes ++ rest)), by simp [Members.bytes]⟩

theorem elements_not_empty {es : Elements} {inner : List Space} {rest : Bytes} :
    es.bytes ++ rest ≠ spaces inner ++ 0x5D :: t := by
  obtain ⟨ws, v, r, hbytes⟩ := es.head_bytes rest
  intro h
  rw [hbytes] at h
  obtain ⟨b, bytes, hv, hkind⟩ := v.head_bytes
  have hsame := spaces_unique h (v.solid r) (.cons (by decide))
  rw [hv] at hsame
  obtain ⟨rfl, _⟩ := List.cons.inj hsame
  cases hkind

theorem members_not_empty {ms : Members} {inner : List Space} {rest : Bytes} :
    ms.bytes ++ rest ≠ spaces inner ++ 0x7D :: t := by
  obtain ⟨ws, name, r, hbytes⟩ := ms.head_bytes rest
  intro h
  rw [hbytes] at h
  have hsame := spaces_unique h (solid_quoted name r) (.cons (by decide))
  cases hsame

/-- What follows the value of an element or a member. -/
theorem after_unique {after after' : List Space} {b b' : UInt8}
    (hb : b ∈ ([0x2C, 0x5D, 0x7D] : Bytes)) (hb' : b' ∈ ([0x2C, 0x5D, 0x7D] : Bytes))
    (h : spaces after ++ b :: t = spaces after' ++ b' :: t') : b = b' ∧ t = t' := by
  have hsolid {b : UInt8} (hb : b ∈ ([0x2C, 0x5D, 0x7D] : Bytes)) :
      b ∉ ([0x20, 0x09, 0x0A, 0x0D] : Bytes) := by
    simp only [List.mem_cons, List.not_mem_nil, or_false] at hb
    rcases hb with rfl | rfl | rfl <;> decide
  exact List.cons.inj (spaces_unique h (.cons (hsolid hb)) (.cons (hsolid hb')))

theorem stops_after (after : List Space) {b : UInt8} (hb : b ∈ ([0x2C, 0x5D, 0x7D] : Bytes))
    (rest : Bytes) : Stops (spaces after ++ b :: rest) := by
  refine Stops.spaces (stops_cons _ ?_) after
  simp only [List.mem_cons, List.not_mem_nil, or_false] at hb ⊢
  rcases hb with rfl | rfl | rfl <;> simp

theorem name_unique {before before' beforeColon beforeColon' afterColon afterColon' : List Space}
    {name name' : List StringItem} {v v' : Value}
    (h : spaces before ++ (quoted name ++ (spaces beforeColon ++ 0x3A ::
        (spaces afterColon ++ (v.bytes ++ t)))) =
      spaces before' ++ (quoted name' ++ (spaces beforeColon' ++ 0x3A ::
        (spaces afterColon' ++ (v'.bytes ++ t'))))) :
    codePoints name = codePoints name' ∧ v.bytes ++ t = v'.bytes ++ t' := by
  have hname := spaces_unique h (solid_quoted _ _) (solid_quoted _ _)
  obtain ⟨hcodes, hcolon⟩ := quoted_unique hname
  have hvalue := spaces_unique hcolon (.cons (by decide)) (.cons (by decide))
  exact ⟨hcodes, spaces_unique (List.cons.inj hvalue).2 (v.solid t) (v'.solid t')⟩

theorem ended_unique {v v' : Value} {after after' : List Space} {b b' : UInt8}
    (hv : ∀ {t t' : Bytes}, Stops t → Stops t' → v.bytes ++ t = v'.bytes ++ t' →
      v.data = v'.data ∧ t = t')
    (hb : b ∈ ([0x2C, 0x5D, 0x7D] : Bytes)) (hb' : b' ∈ ([0x2C, 0x5D, 0x7D] : Bytes))
    (h : v.bytes ++ (spaces after ++ b :: t) = v'.bytes ++ (spaces after' ++ b' :: t')) :
    v.data = v'.data ∧ b = b' ∧ t = t' := by
  obtain ⟨hdata, hafter⟩ := hv (stops_after after hb t) (stops_after after' hb' t') h
  exact ⟨hdata, after_unique hb hb' hafter⟩

mutual

theorem Value.data_unique (v v' : Value) {t t' : Bytes} (ht : Stops t) (ht' : Stops t')
    (h : v.bytes ++ t = v'.bytes ++ t') : v.data = v'.data ∧ t = t' := by
  have hkind := Value.kind_unique h
  cases v with
  | literal l =>
    cases v' with
    | literal l' =>
      obtain ⟨rfl, hend⟩ := literal_unique h
      exact ⟨rfl, hend⟩
    | _ => cases hkind
  | number n =>
    cases v' with
    | number n' =>
      obtain ⟨rfl, hend⟩ := number_unique ht ht' h
      exact ⟨rfl, hend⟩
    | _ => cases hkind
  | string s =>
    cases v' with
    | string s' =>
      obtain ⟨hcodes, hend⟩ := quoted_unique h
      exact ⟨congrArg Data.string hcodes, hend⟩
    | _ => cases hkind
  | emptyArray inner =>
    cases v' with
    | emptyArray inner' =>
      simp only [Value.bytes, List.cons_append, List.append_assoc, List.nil_append] at h
      have hclose := spaces_unique (List.cons.inj h).2 (.cons (by decide)) (.cons (by decide))
      exact ⟨rfl, (List.cons.inj hclose).2⟩
    | array es' =>
      simp only [Value.bytes, List.cons_append, List.append_assoc, List.nil_append] at h
      exact absurd (List.cons.inj h).2.symm elements_not_empty
    | _ => cases hkind
  | array es =>
    cases v' with
    | emptyArray inner' =>
      simp only [Value.bytes, List.cons_append, List.append_assoc, List.nil_append] at h
      exact absurd (List.cons.inj h).2 elements_not_empty
    | array es' =>
      simp only [Value.bytes, List.cons_append, List.append_assoc, List.nil_append] at h
      obtain ⟨hdata, hend⟩ := es.data_unique es' (List.cons.inj h).2
      exact ⟨congrArg Data.array hdata, hend⟩
    | _ => cases hkind
  | emptyObject inner =>
    cases v' with
    | emptyObject inner' =>
      simp only [Value.bytes, List.cons_append, List.append_assoc, List.nil_append] at h
      have hclose := spaces_unique (List.cons.inj h).2 (.cons (by decide)) (.cons (by decide))
      exact ⟨rfl, (List.cons.inj hclose).2⟩
    | object ms' =>
      simp only [Value.bytes, List.cons_append, List.append_assoc, List.nil_append] at h
      exact absurd (List.cons.inj h).2.symm members_not_empty
    | _ => cases hkind
  | object ms =>
    cases v' with
    | emptyObject inner' =>
      simp only [Value.bytes, List.cons_append, List.append_assoc, List.nil_append] at h
      exact absurd (List.cons.inj h).2 members_not_empty
    | object ms' =>
      simp only [Value.bytes, List.cons_append, List.append_assoc, List.nil_append] at h
      obtain ⟨hdata, hend⟩ := ms.data_unique ms' (List.cons.inj h).2
      exact ⟨congrArg Data.object hdata, hend⟩
    | _ => cases hkind

theorem Elements.data_unique (es es' : Elements) {t t' : Bytes}
    (h : es.bytes ++ 0x5D :: t = es'.bytes ++ 0x5D :: t') : es.data = es'.data ∧ t = t' := by
  cases es with
  | last before v after =>
    cases es' with
    | last before' v' after' =>
      simp only [Elements.bytes, List.append_assoc] at h
      have hvalue := spaces_unique h (v.solid _) (v'.solid _)
      obtain ⟨hdata, _, hend⟩ := ended_unique (v.data_unique v') (by decide) (by decide) hvalue
      exact ⟨by rw [Elements.data, Elements.data, hdata], hend⟩
    | more before' v' after' rest' =>
      simp only [Elements.bytes, List.append_assoc, List.cons_append] at h
      have hvalue := spaces_unique h (v.solid _) (v'.solid _)
      obtain ⟨_, hmark, _⟩ := ended_unique (v.data_unique v') (by decide) (by decide) hvalue
      exact absurd hmark (by decide)
  | more before v after rest =>
    cases es' with
    | last before' v' after' =>
      simp only [Elements.bytes, List.append_assoc, List.cons_append] at h
      have hvalue := spaces_unique h (v.solid _) (v'.solid _)
      obtain ⟨_, hmark, _⟩ := ended_unique (v.data_unique v') (by decide) (by decide) hvalue
      exact absurd hmark (by decide)
    | more before' v' after' rest' =>
      simp only [Elements.bytes, List.append_assoc, List.cons_append] at h
      have hvalue := spaces_unique h (v.solid _) (v'.solid _)
      obtain ⟨hdata, _, hbehind⟩ := ended_unique (v.data_unique v') (by decide) (by decide) hvalue
      obtain ⟨hrest, hend⟩ := rest.data_unique rest' hbehind
      exact ⟨by rw [Elements.data, Elements.data, hdata, hrest], hend⟩

theorem Members.data_unique (ms ms' : Members) {t t' : Bytes}
    (h : ms.bytes ++ 0x7D :: t = ms'.bytes ++ 0x7D :: t') : ms.data = ms'.data ∧ t = t' := by
  cases ms with
  | last before name beforeColon afterColon v after =>
    cases ms' with
    | last before' name' beforeColon' afterColon' v' after' =>
      simp only [Members.bytes, List.append_assoc, List.cons_append] at h
      obtain ⟨hname, hvalue⟩ := name_unique h
      obtain ⟨hdata, _, hend⟩ := ended_unique (v.data_unique v') (by decide) (by decide) hvalue
      exact ⟨by rw [Members.data, Members.data, hname, hdata], hend⟩
    | more before' name' beforeColon' afterColon' v' after' rest' =>
      simp only [Members.bytes, List.append_assoc, List.cons_append] at h
      obtain ⟨_, hvalue⟩ := name_unique h
      obtain ⟨_, hmark, _⟩ := ended_unique (v.data_unique v') (by decide) (by decide) hvalue
      exact absurd hmark (by decide)
  | more before name beforeColon afterColon v after rest =>
    cases ms' with
    | last before' name' beforeColon' afterColon' v' after' =>
      simp only [Members.bytes, List.append_assoc, List.cons_append] at h
      obtain ⟨_, hvalue⟩ := name_unique h
      obtain ⟨_, hmark, _⟩ := ended_unique (v.data_unique v') (by decide) (by decide) hvalue
      exact absurd hmark (by decide)
    | more before' name' beforeColon' afterColon' v' after' rest' =>
      simp only [Members.bytes, List.append_assoc, List.cons_append] at h
      obtain ⟨hname, hvalue⟩ := name_unique h
      obtain ⟨hdata, _, hbehind⟩ := ended_unique (v.data_unique v') (by decide) (by decide) hvalue
      obtain ⟨hrest, hend⟩ := rest.data_unique rest' hbehind
      exact ⟨by rw [Members.data, Members.data, hname, hdata, hrest], hend⟩

end

theorem ObjectText.data_unique {doc doc' : ObjectText} (h : doc.bytes = doc'.bytes) :
    doc.body.data = doc'.body.data := by
  have hend (ws : List Space) : Stops (spaces ws) := by
    have hnil : Stops [] := nofun
    simpa using hnil.spaces ws
  simp only [ObjectText.bytes, List.append_assoc] at h
  have hbody := spaces_unique h (doc.body.solid _) (doc'.body.solid _)
  exact (doc.body.data_unique doc'.body (hend _) (hend _) hbody).1

theorem describes_of_doc (doc : ObjectText) {text : Bytes} {data : Data} (hbytes : doc.bytes = text)
    (hdata : doc.body.data = data) : Describes text data := by
  refine ⟨⟨doc, hbytes⟩, fun doc' hbytes' => ?_⟩
  rw [← hdata]
  exact ObjectText.data_unique (hbytes'.trans hbytes.symm)

end Unique

/-! ### Texts without whitespace -/

section Compact

def decimal (n : ℕ) : List (Fin 10) := (Nat.toDigits 10 n).map fun c => digit (c.toNat - 0x30)

theorem map_decimal (n : ℕ) : (decimal n).map digitChar = Nat.toDigits 10 n := by
  have hdigit {c : Char} (hc : c.isDigit = true) : digitChar (digit (c.toNat - 0x30)) = c := by
    have hcode := Text.isDigit_iff.mp hc
    have hvalue : (digit (c.toNat - 0x30)).val = c.toNat - 0x30 := Nat.mod_eq_of_lt (by omega)
    rw [digitChar, hvalue, show 0x30 + (c.toNat - 0x30) = c.toNat by omega, Char.ofNat_toNat]
  rw [decimal, List.map_map]
  exact (List.map_congr_left fun c hc => hdigit (Text.isDigit_toDigits c hc)).trans (List.map_id _)

theorem digitsValue_decimal (n : ℕ) : digitsValue (decimal n) = n := by
  rw [← decimalValue_map, map_decimal, Text.decimalValue_toDigits]

theorem decimal_ne_nil (n : ℕ) : decimal n ≠ [] := fun h =>
  Nat.toDigits_ne_nil (List.map_eq_nil_iff.mp h)

theorem head?_toDigits {n : ℕ} (hn : 0 < n) : (Nat.toDigits 10 n).head? ≠ some '0' := by
  have hsmall : ∀ k < 10, 0 < k → (Nat.digitChar k) ≠ '0' := by decide
  induction n using Nat.strongRecOn with
  | ind n ih =>
    rw [Nat.toDigits_eq_if (by decide)]
    split
    · rename_i hlt
      exact fun h => hsmall n hlt hn (Option.some.inj h)
    · rename_i hle
      rw [List.head?_append_of_ne_nil _ Nat.toDigits_ne_nil]
      exact ih _ (by omega) (by omega)

theorem decimal_no_leading_zero (n : ℕ) : decimal n = [0] ∨ (decimal n).head? ≠ some 0 := by
  rcases Nat.eq_zero_or_pos n with rfl | hn
  · exact .inl rfl
  · refine .inr fun h => head?_toDigits hn ?_
    rw [← map_decimal, List.head?_map, h]
    rfl

def integerNumber (negative : Bool) (n : ℕ) : Number :=
  ⟨negative, decimal n, [], none, decimal_ne_nil n, decimal_no_leading_zero n⟩

theorem value_integerNumber (negative : Bool) (n : ℕ) :
    (integerNumber negative n).value = if negative then -(n : ℚ) else n := by
  cases negative <;> simp [Number.value, integerNumber, digitsValue_decimal]

theorem utf8_toDigits (n : ℕ) : Text.utf8 (Nat.toDigits 10 n) = (decimal n).map digitByte := by
  rw [Text.utf8_eq_map fun c hc => ?_, ← map_decimal, List.map_map]
  · exact List.map_congr_left fun d _ => (digitChar_facts d).2.2.2.1
  · rw [← map_decimal] at hc
    obtain ⟨d, _, rfl⟩ := List.mem_map.mp hc
    exact (digitChar_facts d).2.2.1

theorem bytes_integerNumber (negative : Bool) (n : ℕ) : (integerNumber negative n).bytes =
    (if negative then [0x2D] else []) ++ Text.utf8 (Nat.toDigits 10 n) := by
  rw [utf8_toDigits]
  cases negative <;>
    simp [Number.bytes, Number.fractionBytes, Number.exponentBytes, integerNumber]

/-- Members without whitespace, at least one. -/
def compactMembers : List StringItem × Value → List (List StringItem × Value) → Members
  | m, [] => .last [] m.1 [] [] m.2 []
  | m, next :: ms => .more [] m.1 [] [] m.2 [] (compactMembers next ms)

def compactObject : List (List StringItem × Value) → Value
  | [] => .emptyObject []
  | m :: ms => .object (compactMembers m ms)

def compactMember (m : List StringItem × Value) : Bytes := quoted m.1 ++ 0x3A :: m.2.bytes

theorem bytes_compactMembers (m : List StringItem × Value) (ms : List (List StringItem × Value)) :
    (compactMembers m ms).bytes =
      compactMember m ++ ms.flatMap fun next => 0x2C :: compactMember next := by
  induction ms generalizing m with
  | nil => simp [compactMembers, Members.bytes, compactMember, spaces]
  | cons next ms ih => simp [compactMembers, Members.bytes, compactMember, spaces, ih]

theorem bytes_compactObject_cons (m : List StringItem × Value)
    (ms : List (List StringItem × Value)) : (compactObject (m :: ms)).bytes =
      0x7B :: (compactMember m ++ ms.flatMap fun next => 0x2C :: compactMember next) ++ [0x7D] := by
  rw [compactObject, Value.bytes, bytes_compactMembers]

theorem data_compactMembers (m : List StringItem × Value) (ms : List (List StringItem × Value)) :
    (compactMembers m ms).data = (m :: ms).map fun m => (codePoints m.1, m.2.data) := by
  induction ms generalizing m with
  | nil => rfl
  | cons next ms ih =>
    rw [compactMembers, Members.data, ih]
    rfl

theorem data_compactObject (ms : List (List StringItem × Value)) : (compactObject ms).data =
    .object (ms.map fun m => (codePoints m.1, m.2.data)) := by
  cases ms with
  | nil => rfl
  | cons m ms => exact congrArg Data.object (data_compactMembers m ms)

end Compact

end JsonText
