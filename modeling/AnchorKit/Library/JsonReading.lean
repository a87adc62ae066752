import AnchorKit.Library.JsonMembers
import AnchorKit.Library.Text
import AnchorKit.Library.Word

/-!
# Reading a JSON text

What the object's own members with a name say, and what is read at the first member that a byte
search for the name finds.
-/

namespace JsonText

def nameBytes (name : List Char) : Bytes := name.map fun c => c.toNat.toUInt8

def topLevel (doc : ObjectText) (name : List Char) : List Value :=
  doc.body.named (name.map Char.toNat)

/-- The values, at least one, all stand for what was read; when nothing was read there are none. -/
def Denotes {α : Type} (Stands : Value → α → Prop) (values : List Value) : Option α → Prop
  | some a => values ≠ [] ∧ ∀ v ∈ values, Stands v a
  | none => values = []

def IsNumber (v : Value) (n : UInt64) : Prop := ∃ k, v = .number k ∧ k.value = n.toNat

/-- The value is a string, and the bytes are the UTF-8 encoding of its characters. -/
def IsText (v : Value) (text : Bytes) : Prop :=
  ∃ (s : List StringItem) (cs : List Char), v = .string s ∧ codePoints s = cs.map Char.toNat ∧
    cs.flatMap String.utf8EncodeChar = text

section Unique

variable {v : Value}

theorem IsNumber.unique {n m : UInt64} (h : IsNumber v n) (h' : IsNumber v m) : n = m := by
  obtain ⟨k, rfl, hn⟩ := h
  obtain ⟨k', hk, hm⟩ := h'
  cases hk
  rw [hn] at hm
  exact UInt64.toNat_inj.mp (by exact_mod_cast hm)

theorem Denotes.unique {α : Type} {Stands : Value → α → Prop} {vs : List Value} {a b : α}
    (h : Denotes Stands vs (some a)) (hunique : ∀ v a b, Stands v a → Stands v b → a = b)
    (h' : Denotes Stands vs (some b)) : a = b := by
  obtain ⟨v, vs, rfl⟩ := List.exists_cons_of_ne_nil h.1
  exact hunique v a b (h.2 v List.mem_cons_self) (h'.2 v List.mem_cons_self)

end Unique

/-! ### Readings -/

def firstSpelled (doc : ObjectText) (name : List Char) : Option Value :=
  (doc.body.spelled (nameBytes name)).head?

theorem head?_spelled (doc : ObjectText) (name : List Char) :
    firstSpelled doc name = (doc.found (nameBytes name)).map Found.value :=
  (map_value_found doc).symm

theorem number_head (k : Number) : ∃ b rest, k.bytes = b :: rest ∧
    (b = 0x2D ∧ k.negative = true ∨ (∃ d, b = digitByte d) ∧ k.negative = false) := by
  obtain ⟨d, ds, hinteger⟩ := List.exists_cons_of_ne_nil k.integer_ne_nil
  unfold Number.bytes
  rw [hinteger]
  cases k.negative with
  | true => exact ⟨_, _, rfl, .inl ⟨rfl, rfl⟩⟩
  | false => exact ⟨_, _, rfl, .inr ⟨⟨d, rfl⟩, rfl⟩⟩

/-- After its digits a number goes on with a fraction, an exponent or what may follow a value. -/
theorem number_tail (k : Number) {tail : Bytes} (htail : Stops tail) (b : UInt8)
    (hb : b ∈ (k.fractionBytes ++ k.exponentBytes ++ tail).head?) : b < 0x30 ∨ 0x39 < b := by
  unfold Number.fractionBytes Number.exponentBytes at hb
  split at hb
  · cases hexponent : k.exponent with
    | none =>
      rw [hexponent] at hb
      have hmem := htail b hb
      simp only [List.mem_cons, List.not_mem_nil, or_false] at hmem
      obtain rfl | rfl | rfl | rfl | rfl | rfl | rfl := hmem <;> decide
    | some e =>
      rw [hexponent] at hb
      obtain rfl := Option.some.inj hb
      split <;> decide
  · obtain rfl := Option.some.inj hb
    decide

theorem ne_digitByte {b : UInt8} (h : b < 0x30 ∨ 0x39 < b) (d : Fin 10) : b ≠ digitByte d := by
  have hbounds : ∀ d : Fin 10, 0x30 ≤ digitByte d ∧ digitByte d ≤ 0x39 := by decide
  rintro rfl
  rcases h with hlt | hlt
  · exact UInt8.not_le.mpr hlt (hbounds d).1
  · exact UInt8.not_le.mpr hlt (hbounds d).2

/-- The digits before the fraction and the exponent, when they have no sign and fit. -/
def integerPart : Value → Option UInt64
  | .number k =>
    if k.negative = false ∧ digitsValue k.integer < 2 ^ 64 then
      some (UInt64.ofNat (digitsValue k.integer))
    else none
  | _ => none

theorem integerPart_number {k : Number} {n : UInt64} :
    integerPart (.number k) = some n ↔ k.negative = false ∧ digitsValue k.integer = n.toNat := by
  have hn := n.toNat_lt
  rw [integerPart]
  split
  · rename_i h
    rw [Option.some.injEq, ← UInt64.toNat_inj, Word.toNat_ofNat64 h.2, and_iff_right h.1]
  · rename_i h
    refine iff_of_false nofun ?_
    rintro ⟨hsign, hvalue⟩
    exact h ⟨hsign, hvalue ▸ hn⟩

/-- The bytes of a string up to the first quote among them. -/
def plainText : Value → Option Bytes
  | .string s => some ((rawText s).takeWhile (· ≠ 0x22))
  | _ => none

/-! ### Values without escapes, fractions and whitespace -/

/-- A string without escapes. -/
def jsonText (cs : List Char) : List StringItem :=
  cs.filterMap fun c =>
    if hc : 0x20 ≤ c.toNat ∧ c.toNat ≠ 0x22 ∧ c.toNat ≠ 0x5C then some (.char c hc) else none

theorem digits_ne_nil (d : ℕ) (ds : List ℕ) : digit d :: ds.map digit ≠ [] :=
  List.cons_ne_nil _ _

theorem digits_no_leading_zero {d : ℕ} (ds : List ℕ) (hd : digit d ≠ digit 0) :
    digit d :: ds.map digit = [0] ∨ (digit d :: ds.map digit).head? ≠ some 0 :=
  Or.inr fun h => hd (Option.some.inj h)

def jsonNumber (d : ℕ) (ds : List ℕ) (hd : digit d ≠ digit 0) : Value :=
  .number ⟨false, digit d :: ds.map digit, [], none, digits_ne_nil d ds,
    digits_no_leading_zero ds hd⟩

theorem jsonNumber_reads {d : ℕ} {ds : List ℕ} (hd : digit d ≠ digit 0) (n : UInt64)
    (hn : digitsValue (digit d :: ds.map digit) = n.toNat) :
    ∃ m, integerPart (jsonNumber d ds hd) = some m ∧
      IsNumber (jsonNumber d ds hd) m := by
  refine ⟨n, integerPart_number.mpr ⟨rfl, hn⟩, _, rfl, ?_⟩
  rw [Number.value_of_integer rfl rfl rfl, hn]

/-- A member without whitespace. -/
def jsonMember (name : List Char) (v : Value) (rest : Members) : Members :=
  .more [] (jsonText name) [] [] v [] rest

/-! ### Searches by characters -/

section Characters

variable {t : Text}

/-- The bytes behind a key of ASCII characters are those of the characters behind it. -/
theorem afterFirst_utf8 {key : Text} (hne : key ≠ []) (hkey : ∀ c ∈ key, Text.isAscii c = true)
    (t : Text) :
    afterFirst key.utf8 t.utf8 = (Text.cutAt key t).map fun parts => parts.2.utf8 := by
  obtain ⟨k, key, rfl⟩ := List.exists_cons_of_ne_nil hne
  have hk : Text.isAscii k = true := hkey k List.mem_cons_self
  have hlow : UInt8.ofNat k.toNat < 0x80 := by
    have hcode : k.toNat < 0x80 := of_decide_eq_true hk
    rw [UInt8.lt_iff_toNat_lt, UInt8.toNat_ofNat', Nat.mod_eq_of_lt (by omega)]
    exact hcode
  induction t with
  | nil => rfl
  | cons c t ih =>
    rw [Text.cutAt]
    by_cases hstart : (k :: key) <+: c :: t
    · rw [if_pos (List.isPrefixOf_iff_prefix.mpr hstart)]
      obtain ⟨rest, hrest⟩ := hstart
      have hbytes : Text.utf8 (k :: key) <+: Text.utf8 (c :: t) :=
        (Text.utf8_prefix_iff hkey).mpr ⟨rest, hrest⟩
      rw [← hrest, List.drop_left, Option.map_some]
      rw [← hrest] at hbytes
      rw [Text.utf8_append, Text.utf8_cons, Text.utf8_of_isAscii hk, List.singleton_append,
        List.cons_append, afterFirst, if_pos, ← List.cons_append, List.drop_left]
      rw [List.isPrefixOf_iff_prefix, ← List.cons_append]
      exact List.prefix_append _ _
    · rw [if_neg (mt List.isPrefixOf_iff_prefix.mp hstart), Option.map_map]
      change _ = (Text.cutAt (k :: key) t).map fun parts => parts.2.utf8
      rw [← ih]
      have hnot : ¬ Text.utf8 (k :: key) <+: Text.utf8 (c :: t) :=
        mt (Text.utf8_prefix_iff hkey).mp hstart
      rw [Text.utf8_cons, Text.utf8_of_isAscii hk, List.singleton_append] at hnot ⊢
      cases hc : Text.isAscii c with
      | true =>
        rw [Text.utf8_cons, Text.utf8_of_isAscii hc, List.singleton_append] at hnot ⊢
        rw [afterFirst, if_neg (mt List.isPrefixOf_iff_prefix.mp hnot)]
      | false =>
        apply afterFirst_skip
        intro hmem
        exact absurd hlow (UInt8.not_lt.mpr (Text.le_of_mem_utf8 hc _ hmem))

theorem cutAt_found {key : Text} {name : Bytes} {doc : ObjectText} (hname : PlainName name)
    (hne : key ≠ []) (hascii : ∀ c ∈ key, Text.isAscii c = true) (hkey : key.utf8 = keyOf name)
    (hdoc : t.utf8 = doc.bytes) :
    match doc.found name with
    | none => Text.cutAt key t = none
    | some f => ∃ parts tail, Text.cutAt key t = some parts ∧ Stops tail ∧
        f.value.firstQuoted.or (nextQuoted tail) = f.quoted ∧
        parts.2.utf8 = spaces f.afterColon ++ f.value.bytes ++ tail := by
  have hcut := afterFirst_utf8 hne hascii t
  have hfound := afterFirst_found hname doc
  rw [hdoc, hkey] at hcut
  cases hend : doc.found name with
  | none =>
    rw [hend] at hfound
    rw [hfound] at hcut
    exact Option.map_eq_none_iff.mp hcut.symm
  | some f =>
    rw [hend] at hfound
    obtain ⟨tail, htail, hnext, hfound⟩ := hfound
    rw [hfound] at hcut
    obtain ⟨parts, hparts, hbytes⟩ := Option.map_eq_some_iff.mp hcut.symm
    exact ⟨parts, tail, hparts, htail, hnext, hbytes⟩

/-- The text between the next two quotes, in characters and in bytes. -/
theorem nextQuoted_utf8 (t : Text) : nextQuoted t.utf8 =
    ((Text.cutAt ['"'] t).bind fun parts => Text.cutAt ['"'] parts.2).map fun parts =>
      parts.1.utf8 := by
  have hmem {s : Text} : (0x22 : UInt8) ∈ s.utf8 ↔ '"' ∈ s := Text.mem_utf8_iff (c := '"') rfl
  by_cases hopen : '"' ∈ t
  · obtain ⟨front, inner, rfl, hfront⟩ := List.eq_append_cons_of_mem hopen
    have hbytes : Text.utf8 (front ++ '"' :: inner) = Text.utf8 front ++ 0x22 :: Text.utf8 inner := by
      rw [Text.utf8_append]
      rfl
    rw [hbytes, nextQuoted_append (mt hmem.mp hfront), Text.cutAt_singleton hfront,
      Option.bind_some]
    rw [nextQuoted, List.dropWhile_cons_of_neg (by simp)]
    dsimp only
    by_cases hclose : '"' ∈ inner
    · rw [if_pos (hmem.mpr hclose)]
      obtain ⟨text, back, rfl, htext⟩ := List.eq_append_cons_of_mem hclose
      have hbytes : Text.utf8 (text ++ '"' :: back) = Text.utf8 text ++ 0x22 :: Text.utf8 back := by
        rw [Text.utf8_append]
        rfl
      rw [hbytes, takeWhile_to_quote, Text.cutAt_singleton htext, Option.map_some,
        List.takeWhile_eq_self_iff.mpr]
      intro b hb
      exact decide_eq_true fun heq => htext (hmem.mp (heq ▸ hb))
    · rw [if_neg (mt hmem.mp hclose), Text.cutAt_eq_none hclose]
      rfl
  · have hskip := nextQuoted_append (mt hmem.mp hopen) []
    rw [List.append_nil] at hskip
    rw [hskip, Text.cutAt_eq_none hopen]
    rfl

def digitChar (d : Fin 10) : Char := Char.ofNat (0x30 + d.val)

theorem digitChar_facts : ∀ d : Fin 10, (digitChar d).isDigit = true ∧ digitChar d ≠ '+' ∧
    Text.isAscii (digitChar d) = true ∧ UInt8.ofNat (digitChar d).toNat = digitByte d ∧
    (digitChar d).toNat - 0x30 = d := by
  decide

/-- The characters of a string whose bytes start with digits. -/
theorem takeWhile_isDigit (ds : List (Fin 10)) {rest : Bytes}
    (hrest : ∀ b ∈ rest.head?, ∀ d, b ≠ digitByte d) (ht : t.utf8 = ds.map digitByte ++ rest) :
    t.takeWhile Char.isDigit = ds.map digitChar := by
  induction ds generalizing t with
  | nil =>
    cases t with
    | nil => rfl
    | cons c t =>
      rw [List.takeWhile_cons_of_neg]
      · rfl
      intro hdigit
      have hcode := Text.isDigit_iff.mp hdigit
      have hc : Text.isAscii c = true := decide_eq_true (by omega)
      rw [List.map_nil, List.nil_append, Text.utf8_cons, Text.utf8_of_isAscii hc] at ht
      have hhead : UInt8.ofNat c.toNat ∈ rest.head? := by
        rw [← ht]
        rfl
      apply hrest _ hhead ⟨c.toNat - 0x30, by omega⟩
      rw [digitByte]
      congr 1
      change c.toNat = 0x30 + (c.toNat - 0x30)
      omega
  | cons d ds ih =>
    obtain ⟨hdigit, _, hascii, hbyte, _⟩ := digitChar_facts d
    have hlow : ∀ d : Fin 10, digitByte d < 0x80 := by decide
    obtain ⟨c, t, rfl, hc, hsame, htail⟩ := Text.exists_cons_of_utf8 ht (hlow d)
    rw [← hbyte, Text.ofNat_toNat_inj hascii hc] at hsame
    obtain rfl := hsame
    rw [List.takeWhile_cons_of_pos hdigit, ih htail, List.map_cons]

theorem decimalValue_map (ds : List (Fin 10)) :
    Text.decimalValue (ds.map digitChar) = digitsValue ds := by
  have hfold (n : ℕ) : (ds.map digitChar).foldl (fun n c => n * 10 + (c.toNat - 0x30)) n =
      ds.foldl appendDigit n := by
    induction ds generalizing n with
    | nil => rfl
    | cons d ds ih =>
      rw [List.map_cons, List.foldl_cons, List.foldl_cons, ih, (digitChar_facts d).2.2.2.2,
        appendDigit, Nat.mul_comm]
  exact hfold 0

theorem parseU64_digits {ds : List (Fin 10)} (hne : ds ≠ []) :
    Text.parseU64 (ds.map digitChar) =
      if digitsValue ds < 2 ^ 64 then some (UInt64.ofNat (digitsValue ds)) else none := by
  have hhead : (ds.map digitChar).head? ≠ some '+' := by
    obtain ⟨d, ds, rfl⟩ := List.exists_cons_of_ne_nil hne
    exact fun h => (digitChar_facts d).2.1 (Option.some.inj h)
  have hall : (ds.map digitChar).all Char.isDigit = true := by
    simp only [List.all_map, List.all_eq_true]
    exact fun d _ => (digitChar_facts d).1
  have hnil : ds.map digitChar ≠ [] := by simpa using hne
  rw [Text.parseU64, if_neg hhead]
  simp only [decimalValue_map, hall, true_and, hnil, ne_eq, not_false_iff]

end Characters

end JsonText
