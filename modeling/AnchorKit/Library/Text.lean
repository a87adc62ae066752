import Mathlib.Algebra.GroupWithZero.Nat
import Mathlib.Data.List.DropRight

/-!
# Texts

Unicode strings as lists of characters, with the measures and cuts of UTF-8 strings: lengths and
positions count bytes, case is folded on ASCII letters alone.
-/

abbrev Text := List Char

namespace Text

def utf8 (t : Text) : List UInt8 := t.flatMap String.utf8EncodeChar

def byteLen (t : Text) : ℕ := (t.map Char.utf8Size).sum

/-- The first `n` bytes, unless the string is shorter or a character lies across the cut. -/
def getTo : ℕ → Text → Option Text
  | 0, _ => some []
  | _ + 1, [] => none
  | n + 1, c :: t =>
    if c.utf8Size ≤ n + 1 then (getTo (n + 1 - c.utf8Size) t).map (c :: ·) else none

def isAscii (c : Char) : Bool := c.toNat < 0x80

def isAsciiControl (c : Char) : Bool := c.toNat < 0x20 || c.toNat = 0x7f

def isAsciiWhitespace (c : Char) : Bool :=
  c = ' ' || c = '\t' || c = '\n' || c = '\x0c' || c = '\r'

/-- What all characters of a string satisfy is decided along the string. -/
instance decidableForallMem {p : Char → Prop} [DecidablePred p] (t : Text) :
    Decidable (∀ c ∈ t, p c) :=
  List.decidableBAll p t

/-- The string in lower case; only ASCII letters have two cases. -/
def asciiLower (t : Text) : Text := t.map Char.toLower

/-- The string in upper case; only ASCII letters have two cases. -/
def asciiUpper (t : Text) : Text := t.map Char.toUpper

def eqIgnoreAsciiCase (s t : Text) : Bool := s.asciiLower = t.asciiLower

/-- The string without such characters at either end. -/
def trimMatches (p : Char → Bool) (t : Text) : Text := (t.dropWhile p).rdropWhile p

def cutAt (pattern : Text) : Text → Option (Text × Text)
  | [] => if pattern = [] then some ([], []) else none
  | c :: t =>
    if pattern.isPrefixOf (c :: t) then some ([], (c :: t).drop pattern.length)
    else (cutAt pattern t).map fun parts => (c :: parts.1, parts.2)

/-- What stands before and after the last occurrence of a character. -/
def rcutAt (c : Char) : Text → Option (Text × Text)
  | [] => none
  | d :: t =>
    match rcutAt c t with
    | some (front, back) => some (d :: front, back)
    | none => if d = c then some ([], t) else none

def decimalValue (t : Text) : ℕ := t.foldl (fun n c => n * 10 + (c.toNat - 0x30)) 0

/-- Decimal digits, perhaps behind a plus sign, of a number below `2 ^ 32`. -/
def parseU32 (t : Text) : Option UInt32 :=
  let digits : Text := if t.head? = some '+' then t.tail else t
  if digits ≠ [] ∧ digits.all Char.isDigit = true ∧ decimalValue digits < 2 ^ 32 then
    some (UInt32.ofNat (decimalValue digits))
  else none

/-- Decimal digits, perhaps behind a plus sign, of a number below `2 ^ 64`. -/
def parseU64 (t : Text) : Option UInt64 :=
  let digits : Text := if t.head? = some '+' then t.tail else t
  if digits ≠ [] ∧ digits.all Char.isDigit = true ∧ decimalValue digits < 2 ^ 64 then
    some (UInt64.ofNat (decimalValue digits))
  else none

section Trim

variable {p : Char → Bool}

theorem trimMatches_cons_concat {c d : Char} (hc : p c = false) (hd : p d = false) (m : Text) :
    trimMatches p (c :: (m ++ [d])) = c :: (m ++ [d]) := by
  rw [trimMatches, List.dropWhile_cons_of_neg (by simp [hc]), ← List.cons_append]
  exact List.rdropWhile_concat_neg _ _ _ (by simp [hd])

theorem trimMatches_of_forall {t : Text} (h : ∀ c ∈ t, p c = false) : trimMatches p t = t := by
  have hfront : t.dropWhile p = t := by
    cases t with
    | nil => rfl
    | cons c t => exact List.dropWhile_cons_of_neg (by simp [h c List.mem_cons_self])
  rw [trimMatches, hfront, List.rdropWhile_eq_self_iff]
  intro hne
  rw [h _ (List.getLast_mem hne)]
  exact Bool.false_ne_true

theorem dropWhile_eq_self {t : Text} : t.dropWhile p = t ↔ ∀ c ∈ t.head?, p c = false := by
  cases t with
  | nil => simp
  | cons c t =>
    rw [List.head?_cons]
    constructor
    · intro h d hd
      obtain rfl := Option.some.inj hd
      rw [Bool.eq_false_iff]
      intro hp
      rw [List.dropWhile_cons_of_pos hp] at h
      have hlength := (List.dropWhile_suffix p (l := t)).length_le
      rw [h, List.length_cons] at hlength
      omega
    · intro h
      exact List.dropWhile_cons_of_neg (by simp [h c rfl])

theorem rdropWhile_eq_self {t : Text} : t.rdropWhile p = t ↔ ∀ c ∈ t.getLast?, p c = false := by
  rw [List.rdropWhile_eq_self_iff]
  constructor
  · intro h c hc
    obtain ⟨hne, rfl⟩ := List.mem_getLast?_eq_getLast hc
    exact Bool.eq_false_iff.mpr (h hne)
  · intro h hne
    rw [h _ (List.getLast?_eq_some_getLast hne)]
    exact Bool.false_ne_true

/-- A string is left as it is when neither of its ends is cut. -/
theorem trimMatches_eq_self {t : Text} : trimMatches p t = t ↔
    (∀ c ∈ t.head?, p c = false) ∧ ∀ c ∈ t.getLast?, p c = false := by
  rw [← dropWhile_eq_self, ← rdropWhile_eq_self]
  constructor
  · intro h
    have hlength := congrArg List.length h
    have hback := (List.rdropWhile_prefix p (l := t.dropWhile p)).length_le
    have hfront := (List.dropWhile_suffix p (l := t)).length_le
    rw [trimMatches] at hlength
    have hdrop : t.dropWhile p = t := (List.dropWhile_suffix p).eq_of_length (by omega)
    rw [trimMatches, hdrop] at h
    exact ⟨hdrop, h⟩
  · intro ⟨hdrop, hrdrop⟩
    rw [trimMatches, hdrop, hrdrop]

theorem trimMatches_trimMatches (p : Char → Bool) (t : Text) :
    trimMatches p (trimMatches p t) = trimMatches p t := by
  have hfront : (trimMatches p t).dropWhile p = trimMatches p t := by
    rw [dropWhile_eq_self]
    intro c hc
    obtain ⟨rest, hrest⟩ := List.rdropWhile_prefix p (l := t.dropWhile p)
    have hhead : c ∈ (t.dropWhile p).head? := by
      rw [← hrest, List.head?_append_of_ne_nil]
      · exact hc
      · intro hnil
        rw [trimMatches, hnil] at hc
        cases hc
    exact dropWhile_eq_self.mp (List.dropWhile_idempotent p t) c hhead
  rw [trimMatches, hfront, trimMatches, List.rdropWhile_idempotent]

/-- Only when nothing is left of the end, more than the end is cut. -/
theorem rdropWhile_append_eq (p : Char → Bool) (s t : Text) :
    (s ++ t).rdropWhile p = if t.rdropWhile p = [] then s.rdropWhile p else s ++ t.rdropWhile p := by
  rw [List.rdropWhile, List.reverse_append, List.dropWhile_append]
  unfold List.rdropWhile
  split
  · rename_i h
    rw [if_pos (by rw [List.isEmpty_iff.mp h]; rfl)]
  · rename_i h
    rw [if_neg (by simpa using h)]
    simp

theorem rdropWhile_append {s : Text} (h : ∀ c ∈ s, p c = true) (t : Text) :
    (t ++ s).rdropWhile p = t.rdropWhile p := by
  rw [List.rdropWhile, List.reverse_append, List.dropWhile_append_of_pos, List.rdropWhile]
  intro c hc
  exact h c (List.mem_reverse.mp hc)

/-- What stands before a character that stays, stays as well. -/
theorem rdropWhile_append_cons {d : Char} (hd : p d = false) (s t : Text) :
    (s ++ d :: t).rdropWhile p = s ++ d :: t.rdropWhile p := by
  have hstay : (d :: s.reverse).dropWhile p = d :: s.reverse :=
    List.dropWhile_cons_of_neg (by simp [hd])
  have hreverse : (s ++ d :: t).reverse = t.reverse ++ d :: s.reverse := by simp
  rw [List.rdropWhile, hreverse, List.dropWhile_append, List.rdropWhile]
  split
  · rename_i hempty
    rw [List.isEmpty_iff.mp hempty, hstay]
    simp
  · simp

theorem trimMatches_append_left {s : Text} (h : ∀ c ∈ s, p c = true) (t : Text) :
    trimMatches p (s ++ t) = trimMatches p t := by
  rw [trimMatches, List.dropWhile_append_of_pos h, trimMatches]

theorem trimMatches_append_right {s : Text} (h : ∀ c ∈ s, p c = true) (t : Text) :
    trimMatches p (t ++ s) = trimMatches p t := by
  rw [trimMatches, List.dropWhile_append]
  split
  · rename_i hempty
    rw [trimMatches, List.isEmpty_iff.mp hempty, List.dropWhile_eq_nil_iff.mpr h]
  · exact rdropWhile_append h _

/-- A character that stays at the front keeps what is behind it in place. -/
theorem trimMatches_cons {d : Char} (hd : p d = false) (t : Text) :
    trimMatches p (d :: t) = d :: t.rdropWhile p := by
  rw [trimMatches, List.dropWhile_cons_of_neg (by simp [hd])]
  exact rdropWhile_append_cons hd [] t

theorem trimMatches_eq_nil {t : Text} (h : ∀ c ∈ t, p c = true) : trimMatches p t = [] := by
  rw [trimMatches, List.dropWhile_eq_nil_iff.mpr h]
  rfl

theorem mem_of_mem_trimMatches {t : Text} {c : Char} (h : c ∈ trimMatches p t) : c ∈ t := by
  have hback := (List.rdropWhile_prefix p (l := t.dropWhile p)).subset h
  exact (List.dropWhile_suffix p).subset hback

end Trim

section Cuts

variable {c : Char} {s t : Text}

theorem cutAt_append {d : Char} {pattern : Text} (h : d ∉ s) (t : Text) :
    cutAt (d :: pattern) (s ++ (d :: pattern ++ t)) = some (s, t) := by
  induction s with
  | nil => simp [cutAt]
  | cons c s ih =>
    rw [List.mem_cons, not_or] at h
    rw [List.cons_append, cutAt, if_neg (by simp [h.1]), ih h.2]
    rfl

theorem cutAt_singleton (h : c ∉ s) (t : Text) : cutAt [c] (s ++ c :: t) = some (s, t) :=
  cutAt_append h t

theorem cutAt_append_left (h : c ∉ s) (t : Text) :
    cutAt [c] (s ++ t) = (cutAt [c] t).map fun parts => (s ++ parts.1, parts.2) := by
  induction s with
  | nil => simp
  | cons d s ih =>
    rw [List.mem_cons, not_or] at h
    rw [List.cons_append, cutAt, if_neg (by simp [h.1]), ih h.2, Option.map_map]
    rfl

theorem cutAt_eq_none (h : c ∉ t) : cutAt [c] t = none := by
  induction t with
  | nil => rfl
  | cons d t ih =>
    rw [List.mem_cons, not_or] at h
    rw [cutAt, if_neg (by simp [h.1]), ih h.2]
    rfl

theorem eq_of_cutAt {pattern front back : Text} (h : cutAt pattern t = some (front, back)) :
    t = front ++ (pattern ++ back) := by
  induction t generalizing front with
  | nil =>
    unfold cutAt at h
    split at h
    · rename_i hnil
      cases h
      rw [hnil]
      rfl
    · cases h
  | cons c t ih =>
    unfold cutAt at h
    split at h
    · rename_i hstart
      obtain ⟨rest, hrest⟩ := List.isPrefixOf_iff_prefix.mp hstart
      obtain ⟨rfl, rfl⟩ := Prod.mk.inj (Option.some.inj h)
      rw [← hrest, List.drop_left]
      rfl
    · obtain ⟨⟨front', back'⟩, hcut, heq⟩ := Option.map_eq_some_iff.mp h
      obtain ⟨rfl, rfl⟩ := Prod.mk.inj heq
      rw [ih hcut]
      rfl

theorem isSome_cutAt {pattern : Text} : (cutAt pattern t).isSome = true ↔ pattern <:+: t := by
  constructor
  · intro h
    obtain ⟨⟨front, back⟩, hcut⟩ := Option.isSome_iff_exists.mp h
    exact ⟨front, back, (eq_of_cutAt hcut ▸ List.append_assoc front pattern back)⟩
  · intro h
    induction t with
    | nil =>
      rw [cutAt, if_pos (List.infix_nil.mp h)]
      rfl
    | cons c t ih =>
      unfold cutAt
      split
      · rfl
      · rename_i hnot
        rw [Option.isSome_map]
        refine ih ((List.infix_cons_iff.mp h).resolve_left fun hprefix => hnot ?_)
        exact List.isPrefixOf_iff_prefix.mpr hprefix

theorem rcutAt_of_not_mem (h : c ∉ t) : rcutAt c t = none := by
  induction t with
  | nil => rfl
  | cons d t ih =>
    rw [List.mem_cons, not_or] at h
    rw [rcutAt, ih h.2]
    exact if_neg (Ne.symm h.1)

theorem rcutAt_append (h : c ∉ t) (s : Text) : rcutAt c (s ++ c :: t) = some (s, t) := by
  induction s with
  | nil =>
    rw [List.nil_append, rcutAt, rcutAt_of_not_mem h]
    exact if_pos rfl
  | cons d s ih =>
    rw [List.cons_append, rcutAt, ih]

/-- A string with a character cut at its last occurrence. -/
theorem exists_eq_append_of_mem (h : c ∈ t) : ∃ front back, t = front ++ c :: back ∧ c ∉ back := by
  induction t with
  | nil => cases h
  | cons d t ih =>
    by_cases hlater : c ∈ t
    · obtain ⟨front, back, rfl, hback⟩ := ih hlater
      exact ⟨d :: front, back, rfl, hback⟩
    · obtain rfl : c = d := (List.mem_cons.mp h).resolve_right hlater
      exact ⟨[], t, rfl, hlater⟩

/-- The characters of a string are those of its parts and the separators. -/
theorem mem_part_of_mem {d : Char} (h : d ∈ t) : d = c ∨ ∃ part ∈ t.splitOn c, d ∈ part := by
  induction t with
  | nil => cases h
  | cons a t ih =>
    obtain ⟨first, others, hparts⟩ := List.exists_cons_of_ne_nil (List.splitOn_ne_nil c t)
    rw [hparts] at ih
    rw [List.splitOn_cons_eq_if_modifyHead, hparts]
    by_cases ha : a = c
    · rw [if_pos (beq_iff_eq.mpr ha)]
      rcases List.mem_cons.mp h with rfl | hlater
      · exact Or.inl ha
      · refine (ih hlater).imp_right fun ⟨part, hpart, hd⟩ => ?_
        exact ⟨part, List.mem_cons_of_mem _ hpart, hd⟩
    · rw [if_neg (by simpa using ha), List.modifyHead_cons]
      rcases List.mem_cons.mp h with rfl | hlater
      · exact Or.inr ⟨d :: first, List.mem_cons_self, List.mem_cons_self⟩
      · refine (ih hlater).imp_right fun ⟨part, hpart, hd⟩ => ?_
        rcases List.mem_cons.mp hpart with rfl | hpart
        · exact ⟨a :: part, List.mem_cons_self, List.mem_cons_of_mem _ hd⟩
        · exact ⟨part, List.mem_cons_of_mem _ hpart, hd⟩

theorem mem_of_mem_splitOn {part : Text} {d : Char} (h : part ∈ t.splitOn c) (hd : d ∈ part) :
    d ∈ t := by
  induction t generalizing part with
  | nil =>
    rw [List.splitOn_nil, List.mem_singleton] at h
    rwa [h] at hd
  | cons a t ih =>
    obtain ⟨first, others, hparts⟩ := List.exists_cons_of_ne_nil (List.splitOn_ne_nil c t)
    rw [hparts] at ih
    rw [List.splitOn_cons_eq_if_modifyHead, hparts] at h
    split at h
    · rcases List.mem_cons.mp h with rfl | h
      · cases hd
      · exact List.mem_cons_of_mem _ (ih h hd)
    · rw [List.modifyHead_cons] at h
      rcases List.mem_cons.mp h with rfl | h
      · rcases List.mem_cons.mp hd with rfl | hd
        · exact List.mem_cons_self
        · exact List.mem_cons_of_mem _ (ih List.mem_cons_self hd)
      · exact List.mem_cons_of_mem _ (ih (List.mem_cons_of_mem _ h) hd)

theorem not_mem_of_mem_splitOn {part : Text} (h : part ∈ t.splitOn c) : c ∉ part := by
  induction t generalizing part with
  | nil =>
    rw [List.splitOn_nil, List.mem_singleton] at h
    rw [h]
    exact List.not_mem_nil
  | cons a t ih =>
    obtain ⟨first, others, hparts⟩ := List.exists_cons_of_ne_nil (List.splitOn_ne_nil c t)
    rw [hparts] at ih
    rw [List.splitOn_cons_eq_if_modifyHead, hparts] at h
    split at h
    · rcases List.mem_cons.mp h with rfl | hpart
      · exact List.not_mem_nil
      · exact ih hpart
    · rename_i ha
      rw [List.modifyHead_cons] at h
      rcases List.mem_cons.mp h with rfl | hpart
      · rw [List.mem_cons, not_or]
        exact ⟨fun heq => ha (beq_iff_eq.mpr heq.symm), ih List.mem_cons_self⟩
      · exact ih (List.mem_cons_of_mem _ hpart)

/-- The first part of a cut has not the character that it was cut at. -/
theorem not_mem_of_cutAt {front back : Text} (h : cutAt [c] t = some (front, back)) : c ∉ front := by
  induction t generalizing front with
  | nil => cases h
  | cons d t ih =>
    unfold cutAt at h
    split at h
    · obtain ⟨rfl, _⟩ := Prod.mk.inj (Option.some.inj h)
      exact List.not_mem_nil
    · rename_i hne
      obtain ⟨⟨front', back'⟩, hcut, heq⟩ := Option.map_eq_some_iff.mp h
      obtain ⟨rfl, rfl⟩ := Prod.mk.inj heq
      rw [List.mem_cons, not_or]
      exact ⟨fun heq => hne (by simp [heq]), ih hcut⟩

end Cuts

section Bytes

variable {s t : Text} {c : Char}

@[simp] theorem utf8_nil : utf8 [] = [] := rfl

@[simp] theorem utf8_cons : utf8 (c :: t) = String.utf8EncodeChar c ++ utf8 t := rfl

@[simp] theorem byteLen_nil : byteLen [] = 0 := rfl

@[simp] theorem byteLen_cons : byteLen (c :: t) = c.utf8Size + byteLen t := rfl

@[simp] theorem byteLen_append : byteLen (s ++ t) = byteLen s + byteLen t := by
  simp [byteLen]

theorem length_utf8 (t : Text) : (utf8 t).length = byteLen t := by
  induction t with
  | nil => rfl
  | cons c t ih => simp [ih]

theorem byteLen_eq_zero : byteLen t = 0 ↔ t = [] := by
  cases t with
  | nil => simp
  | cons c t =>
    have hsize := Char.utf8Size_pos c
    simp only [byteLen_cons, reduceCtorEq, iff_false]
    omega

theorem utf8Size_of_isAscii (h : isAscii c = true) : c.utf8Size = 1 := by
  have hcode : c.toNat < 0x80 := of_decide_eq_true h
  unfold Char.utf8Size
  rw [if_pos]
  rw [UInt32.le_iff_toNat_le]
  exact Nat.le_of_lt_succ hcode

theorem byteLen_of_isAscii (h : ∀ c ∈ t, isAscii c = true) : byteLen t = t.length := by
  induction t with
  | nil => rfl
  | cons c t ih =>
    obtain ⟨hc, ht⟩ := List.forall_mem_cons.mp h
    rw [byteLen_cons, utf8Size_of_isAscii hc, ih ht, List.length_cons]
    omega

theorem utf8_of_isAscii (h : isAscii c = true) :
    String.utf8EncodeChar c = [UInt8.ofNat c.toNat] := by
  have hcode : c.toNat < 0x80 := of_decide_eq_true h
  unfold String.utf8EncodeChar
  dsimp only
  exact if_pos (Nat.le_of_lt_succ hcode)

theorem utf8_eq_map (h : ∀ c ∈ t, isAscii c = true) :
    utf8 t = t.map fun c => UInt8.ofNat c.toNat := by
  induction t with
  | nil => rfl
  | cons c t ih =>
    obtain ⟨hc, ht⟩ := List.forall_mem_cons.mp h
    rw [utf8_cons, utf8_of_isAscii hc, ih ht, List.map_cons]
    rfl

/-- No byte of a character that is not ASCII is one. -/
theorem le_of_mem_utf8 (h : isAscii c = false) : ∀ b ∈ String.utf8EncodeChar c, 0x80 ≤ b := by
  have hcode : ¬ c.val.toNat ≤ 0x7f := by
    simp only [isAscii, decide_eq_false_iff_not] at h
    exact fun hle => h (Nat.lt_succ_of_le hle)
  have hhigh {n : ℕ} (hlow : 0x80 ≤ n) (hn : n < 256) : 0x80 ≤ UInt8.ofNat n := by
    rw [UInt8.le_iff_toNat_le, UInt8.toNat_ofNat', Nat.mod_eq_of_lt hn]
    exact hlow
  have hmax : c.val.toNat < 0x110000 := by
    rcases c.valid with hlow | ⟨_, hmax⟩
    · exact Nat.lt_trans hlow (by decide)
    · exact hmax
  unfold String.utf8EncodeChar
  dsimp only
  rw [if_neg hcode]
  split
  · simp only [List.forall_mem_cons]
    exact ⟨hhigh (by omega) (by omega), hhigh (by omega) (by omega), nofun⟩
  split
  · simp only [List.forall_mem_cons]
    exact ⟨hhigh (by omega) (by omega), hhigh (by omega) (by omega), hhigh (by omega) (by omega),
      nofun⟩
  · simp only [List.forall_mem_cons]
    exact ⟨hhigh (by omega) (by omega), hhigh (by omega) (by omega), hhigh (by omega) (by omega),
      hhigh (by omega) (by omega), nofun⟩

theorem isAscii_of_utf8 (h : ∀ b ∈ String.utf8EncodeChar c, b < 0x80) : isAscii c = true := by
  by_contra hnot
  obtain ⟨b, bytes, hbytes⟩ := List.exists_cons_of_ne_nil
    (String.utf8EncodeChar_ne_nil (c := c))
  have hb : b ∈ String.utf8EncodeChar c := hbytes ▸ List.mem_cons_self
  have hhigh := le_of_mem_utf8 (Bool.of_not_eq_true hnot) b hb
  exact absurd (h b hb) (UInt8.not_lt.mpr hhigh)

/-- A property that only ASCII bytes have holds of all bytes exactly when it holds of all
characters, which then are ASCII. -/
theorem forall_utf8_iff {p : UInt8 → Prop} (hp : ∀ b, p b → b < 0x80) :
    (∀ b ∈ utf8 t, p b) ↔ ∀ c ∈ t, isAscii c = true ∧ p (UInt8.ofNat c.toNat) := by
  simp only [utf8, List.mem_flatMap, forall_exists_index, and_imp]
  rw [forall_comm]
  refine forall_congr' fun c => ?_
  rw [forall_comm]
  refine forall_congr' fun hc => ?_
  constructor
  · intro h
    have hascii : isAscii c = true := isAscii_of_utf8 fun b hb => hp b (h b hb)
    rw [utf8_of_isAscii hascii] at h
    exact ⟨hascii, h _ List.mem_cons_self⟩
  · intro ⟨hascii, hbyte⟩ b hb
    rw [utf8_of_isAscii hascii] at hb
    rwa [List.mem_singleton.mp hb]

theorem utf8_injective (h : utf8 s = utf8 t) : s = t := by
  have hencode : s.utf8Encode = t.utf8Encode := congrArg List.toByteArray h
  have hdecode := List.utf8Decode?_utf8Encode (l := s)
  rw [hencode, List.utf8Decode?_utf8Encode] at hdecode
  exact (List.toArray_inj (Option.some.inj hdecode)).symm

theorem ofNat_byte (h : isAscii c = true) : Char.ofNat (UInt8.ofNat c.toNat).toNat = c := by
  have hcode : c.toNat < 0x80 := of_decide_eq_true h
  rw [UInt8.toNat_ofNat', Nat.mod_eq_of_lt (by omega)]
  exact Char.ofNat_toNat c

theorem ofNat_toNat_inj {d : Char} (hc : isAscii c = true) (hd : isAscii d = true) :
    UInt8.ofNat c.toNat = UInt8.ofNat d.toNat ↔ c = d := by
  have hc : c.toNat < 0x80 := of_decide_eq_true hc
  have hd : d.toNat < 0x80 := of_decide_eq_true hd
  rw [← UInt8.toNat_inj, UInt8.toNat_ofNat', UInt8.toNat_ofNat', Nat.mod_eq_of_lt (by omega),
    Nat.mod_eq_of_lt (by omega), Char.toNat_inj]

theorem mem_utf8_iff (hc : isAscii c = true) : UInt8.ofNat c.toNat ∈ utf8 t ↔ c ∈ t := by
  have hcode : UInt8.ofNat c.toNat < 0x80 := by
    have hc : c.toNat < 0x80 := of_decide_eq_true hc
    rw [UInt8.lt_iff_toNat_lt, UInt8.toNat_ofNat', Nat.mod_eq_of_lt (by omega)]
    exact hc
  induction t with
  | nil => simp
  | cons d t ih =>
    rw [utf8_cons, List.mem_append, List.mem_cons]
    refine or_congr ?_ ih
    cases hd : isAscii d with
    | true => rw [utf8_of_isAscii hd, List.mem_singleton, ofNat_toNat_inj hc hd]
    | false =>
      refine iff_of_false (fun hmem => ?_) ?_
      · exact absurd hcode (UInt8.not_lt.mpr (le_of_mem_utf8 hd _ hmem))
      · rintro rfl
        rw [hc] at hd
        cases hd

/-- A string whose first byte is ASCII starts with that character. -/
theorem exists_cons_of_utf8 {b : UInt8} {bytes : List UInt8} (h : utf8 t = b :: bytes)
    (hb : b < 0x80) :
    ∃ c rest, t = c :: rest ∧ isAscii c = true ∧ b = UInt8.ofNat c.toNat ∧ utf8 rest = bytes := by
  cases t with
  | nil => cases h
  | cons c rest =>
    rw [utf8_cons] at h
    cases hc : isAscii c with
    | true =>
      rw [utf8_of_isAscii hc] at h
      obtain ⟨hbyte, hrest⟩ := List.cons.inj h
      exact ⟨c, rest, rfl, hc, hbyte.symm, hrest⟩
    | false =>
      obtain ⟨first, others, hbytes⟩ := List.exists_cons_of_ne_nil
        (String.utf8EncodeChar_ne_nil (c := c))
      have hhigh := le_of_mem_utf8 hc first (hbytes ▸ List.mem_cons_self)
      rw [hbytes] at h
      obtain ⟨rfl, _⟩ := List.cons.inj h
      exact absurd hb (UInt8.not_lt.mpr hhigh)

@[simp] theorem utf8_append : utf8 (s ++ t) = utf8 s ++ utf8 t := List.flatMap_append

/-- A string of ASCII characters starts the bytes of another where it starts the string. -/
theorem utf8_prefix_iff (hs : ∀ c ∈ s, isAscii c = true) : utf8 s <+: utf8 t ↔ s <+: t := by
  constructor
  · intro h
    induction s generalizing t with
    | nil => exact List.nil_prefix
    | cons c s ih =>
      obtain ⟨hc, hs⟩ := List.forall_mem_cons.mp hs
      obtain ⟨bytes, hbytes⟩ := h
      rw [utf8_cons, utf8_of_isAscii hc, List.append_assoc, List.singleton_append] at hbytes
      have hcode : UInt8.ofNat c.toNat < 0x80 := by
        have hc : c.toNat < 0x80 := of_decide_eq_true hc
        rw [UInt8.lt_iff_toNat_lt, UInt8.toNat_ofNat', Nat.mod_eq_of_lt (by omega)]
        exact hc
      obtain ⟨d, rest, rfl, hd, hsame, hrest⟩ := exists_cons_of_utf8 hbytes.symm hcode
      obtain rfl := (ofNat_toNat_inj hc hd).mp hsame
      exact List.cons_prefix_cons.mpr ⟨rfl, ih hs ⟨bytes, hrest.symm⟩⟩
  · rintro ⟨rest, rfl⟩
    rw [utf8_append]
    exact List.prefix_append _ _

theorem getTo_eq_some {n : ℕ} : getTo n t = some s ↔ s <+: t ∧ byteLen s = n := by
  induction t generalizing n s with
  | nil =>
    cases n with
    | zero =>
      simp only [getTo, Option.some.injEq, byteLen_eq_zero, List.prefix_nil, and_self]
      exact eq_comm
    | succ n =>
      simp only [getTo, reduceCtorEq, false_iff, List.prefix_nil]
      intro ⟨hnil, hlen⟩
      rw [hnil] at hlen
      cases hlen
  | cons c t ih =>
    cases n with
    | zero =>
      simp only [getTo, Option.some.injEq, byteLen_eq_zero]
      constructor
      · rintro rfl
        exact ⟨List.nil_prefix, rfl⟩
      · exact fun h => h.2.symm
    | succ n =>
      have hsize := Char.utf8Size_pos c
      simp only [getTo]
      cases s with
      | nil =>
        have hzero : ¬ byteLen [] = n + 1 := by simp
        simp only [hzero, and_false, iff_false]
        split
        · simp
        · simp
      | cons d s =>
        rw [List.cons_prefix_cons, byteLen_cons]
        split
        · rename_i hle
          simp only [Option.map_eq_some_iff, List.cons.injEq, ih]
          constructor
          · rintro ⟨_, ⟨hstart, hlen⟩, rfl, rfl⟩
            exact ⟨⟨rfl, hstart⟩, by omega⟩
          · rintro ⟨⟨rfl, hstart⟩, hlen⟩
            exact ⟨s, ⟨hstart, by omega⟩, rfl, rfl⟩
        · rename_i hgt
          simp only [reduceCtorEq, false_iff]
          rintro ⟨⟨rfl, _⟩, hlen⟩
          omega

end Bytes

section Classes

variable {c : Char}

theorem isDigit_iff : c.isDigit = true ↔ 0x30 ≤ c.toNat ∧ c.toNat ≤ 0x39 := by
  simp only [Char.isDigit, Bool.and_eq_true, decide_eq_true_eq, ge_iff_le, UInt32.le_iff_toNat_le]
  rfl

theorem isAlphanum_iff : c.isAlphanum = true ↔ (0x41 ≤ c.toNat ∧ c.toNat ≤ 0x5a) ∨
    (0x61 ≤ c.toNat ∧ c.toNat ≤ 0x7a) ∨ (0x30 ≤ c.toNat ∧ c.toNat ≤ 0x39) := by
  have hupper : c.isUpper = true ↔ 0x41 ≤ c.toNat ∧ c.toNat ≤ 0x5a := by
    change decide (c.val ≥ 65 ∧ c.val ≤ 90) = true ↔ _
    rw [decide_eq_true_iff, ge_iff_le, UInt32.le_iff_toNat_le, UInt32.le_iff_toNat_le]
    rfl
  have hlower : c.isLower = true ↔ 0x61 ≤ c.toNat ∧ c.toNat ≤ 0x7a := by
    change (decide (c.val ≥ 97) && decide (c.val ≤ 122)) = true ↔ _
    rw [Bool.and_eq_true, decide_eq_true_iff, decide_eq_true_iff, ge_iff_le,
      UInt32.le_iff_toNat_le, UInt32.le_iff_toNat_le]
    rfl
  change (c.isUpper || c.isLower || c.isDigit) = true ↔ _
  rw [Bool.or_eq_true, Bool.or_eq_true, hupper, hlower, isDigit_iff, or_assoc]

theorem isAsciiControl_eq_false : isAsciiControl c = false ↔ 0x20 ≤ c.toNat ∧ c.toNat ≠ 0x7f := by
  rw [isAsciiControl, Bool.or_eq_false_iff, decide_eq_false_iff_not, decide_eq_false_iff_not,
    Nat.not_lt]

theorem isAscii_of_isAlphanum (h : c.isAlphanum = true) : isAscii c = true := by
  rw [isAlphanum_iff] at h
  exact decide_eq_true (by omega)

theorem isAsciiControl_of_isAlphanum (h : c.isAlphanum = true) : isAsciiControl c = false := by
  rw [isAlphanum_iff] at h
  rw [isAsciiControl_eq_false]
  omega

/-- Without a sign, a number below `2 ^ 64` is read. -/
theorem parseU64_eq_some {t : Text} {v : UInt64} (hne : t ≠ [])
    (hdigits : ∀ c ∈ t, c.isDigit = true) : parseU64 t = some v ↔ decimalValue t = v.toNat := by
  have hplus : t.head? ≠ some '+' := by
    intro h
    have hdigit := hdigits _ (List.mem_of_head? h)
    exact absurd hdigit (by decide)
  have hall : t.all Char.isDigit = true := List.all_eq_true.mpr hdigits
  have hv := v.toNat_lt
  rw [parseU64, if_neg hplus]
  by_cases hlt : decimalValue t < 2 ^ 64
  · rw [if_pos ⟨hne, hall, hlt⟩, Option.some.injEq, ← UInt64.toNat_inj, UInt64.toNat_ofNat',
      Nat.mod_eq_of_lt hlt]
  · rw [if_neg fun h => hlt h.2.2]
    refine iff_of_false (by simp) fun h => hlt ?_
    rwa [h]

theorem decimalValue_toDigits (n : ℕ) : decimalValue (Nat.toDigits 10 n) = n := by
  have hfold (t : Text) (a : ℕ) : t.foldl (fun n c => n * 10 + (c.toNat - 0x30)) a =
      Nat.ofDigitChars 10 t a := by
    rw [Nat.ofDigitChars_eq_foldl]
    congr 1
    funext a c
    rw [Nat.mul_comm]
    rfl
  rw [decimalValue, hfold, Nat.ofDigitChars_ten_toDigits]

theorem isDigit_toDigits {n : ℕ} : ∀ c ∈ Nat.toDigits 10 n, c.isDigit = true := fun _ hc =>
  Nat.isDigit_of_mem_toDigits (by decide) (by decide) hc

theorem toDigits_head_ne_plus (n : ℕ) : (Nat.toDigits 10 n).head? ≠ some '+' := by
  intro h
  exact absurd (isDigit_toDigits _ (List.mem_of_head? h)) (by decide)

theorem parseU32_toDigits (n : UInt32) : parseU32 (Nat.toDigits 10 n.toNat) = some n := by
  have hall : (Nat.toDigits 10 n.toNat).all Char.isDigit = true :=
    List.all_eq_true.mpr isDigit_toDigits
  rw [parseU32, if_neg (toDigits_head_ne_plus _), decimalValue_toDigits,
    if_pos ⟨Nat.toDigits_ne_nil, hall, n.toNat_lt⟩, UInt32.ofNat_toNat]

theorem parseU64_toDigits (n : UInt64) : parseU64 (Nat.toDigits 10 n.toNat) = some n := by
  have hall : (Nat.toDigits 10 n.toNat).all Char.isDigit = true :=
    List.all_eq_true.mpr isDigit_toDigits
  rw [parseU64, if_neg (toDigits_head_ne_plus _), decimalValue_toDigits,
    if_pos ⟨Nat.toDigits_ne_nil, hall, n.toNat_lt⟩, UInt64.ofNat_toNat]

end Classes

section Case

variable {s t : Text} {c : Char}

theorem toNat_toLower (c : Char) :
    c.toLower.toNat = if 0x41 ≤ c.toNat ∧ c.toNat ≤ 0x5a then c.toNat + 0x20 else c.toNat := by
  have hupper : (c.val ≥ 'A'.val ∧ c.val ≤ 'Z'.val) ↔ 0x41 ≤ c.toNat ∧ c.toNat ≤ 0x5a := by
    rw [ge_iff_le, UInt32.le_iff_toNat_le, UInt32.le_iff_toNat_le]
    rfl
  unfold Char.toLower
  by_cases h : 0x41 ≤ c.toNat ∧ c.toNat ≤ 0x5a
  · rw [dif_pos (hupper.mpr h), if_pos h]
    change (c.val + 0x20).toNat = c.val.toNat + 0x20
    have hcode : c.val.toNat ≤ 0x5a := h.2
    rw [UInt32.toNat_add, Nat.mod_eq_of_lt]
    · rfl
    · change c.val.toNat + 0x20 < 2 ^ 32
      omega
  · rw [dif_neg (mt hupper.mp h), if_neg h]

theorem isAscii_toLower (c : Char) : isAscii c.toLower = isAscii c := by
  simp only [isAscii, toNat_toLower]
  split
  · rw [decide_eq_decide]
    omega
  · rfl

theorem toLower_toLower (c : Char) : c.toLower.toLower = c.toLower := by
  apply Char.ext
  rw [← UInt32.toNat_inj]
  change c.toLower.toLower.toNat = c.toLower.toNat
  simp only [toNat_toLower]
  split
  · rw [if_neg (by omega)]
  · rfl

theorem toNat_toUpper (c : Char) :
    c.toUpper.toNat = if 0x61 ≤ c.toNat ∧ c.toNat ≤ 0x7a then c.toNat - 0x20 else c.toNat := by
  have hlower : (c.val ≥ 'a'.val ∧ c.val ≤ 'z'.val) ↔ 0x61 ≤ c.toNat ∧ c.toNat ≤ 0x7a := by
    rw [ge_iff_le, UInt32.le_iff_toNat_le, UInt32.le_iff_toNat_le]
    rfl
  unfold Char.toUpper
  by_cases h : 0x61 ≤ c.toNat ∧ c.toNat ≤ 0x7a
  · rw [dif_pos (hlower.mpr h), if_pos h]
    change (c.val + ('A'.val - 'a'.val)).toNat = c.val.toNat - 0x20
    have hshift : ('A'.val - 'a'.val).toNat = 2 ^ 32 - 0x20 := rfl
    have hlow : 0x61 ≤ c.val.toNat := h.1
    have hhigh : c.val.toNat ≤ 0x7a := h.2
    rw [UInt32.toNat_add, hshift]
    omega
  · rw [dif_neg (mt hlower.mp h), if_neg h]

/-- Both cases tell the same characters apart. -/
theorem toUpper_eq_iff {c d : Char} : c.toUpper = d.toUpper ↔ c.toLower = d.toLower := by
  have hnat (a b : Char) : a = b ↔ a.toNat = b.toNat := by
    rw [Char.ext_iff, ← UInt32.toNat_inj]
    rfl
  rw [hnat, hnat, toNat_toUpper, toNat_toUpper, toNat_toLower, toNat_toLower]
  split_ifs <;> omega

theorem toUpper_toUpper (c : Char) : c.toUpper.toUpper = c.toUpper := by
  apply Char.ext
  rw [← UInt32.toNat_inj]
  change c.toUpper.toUpper.toNat = c.toUpper.toNat
  simp only [toNat_toUpper]
  split
  · rw [if_neg (by omega)]
  · rfl

theorem asciiUpper_asciiUpper (t : Text) : t.asciiUpper.asciiUpper = t.asciiUpper := by
  rw [asciiUpper, asciiUpper, List.map_map]
  exact List.map_congr_left fun c _ => toUpper_toUpper c

theorem asciiUpper_eq_iff : asciiUpper s = asciiUpper t ↔ asciiLower s = asciiLower t := by
  induction s generalizing t with
  | nil => simp [asciiUpper, asciiLower]
  | cons c s ih =>
    cases t with
    | nil => simp [asciiUpper, asciiLower]
    | cons d t =>
      simp only [asciiUpper, asciiLower, List.map_cons, List.cons.injEq] at ih ⊢
      rw [toUpper_eq_iff, ih]

@[simp] theorem asciiLower_nil : asciiLower [] = [] := rfl

@[simp] theorem asciiLower_cons : asciiLower (c :: t) = c.toLower :: asciiLower t := rfl

@[simp] theorem asciiLower_append : asciiLower (s ++ t) = asciiLower s ++ asciiLower t :=
  List.map_append

theorem toLower_eq_self (h : c.toNat < 0x41 ∨ 0x5a < c.toNat) : c.toLower = c := by
  apply Char.ext
  rw [← UInt32.toNat_inj]
  change c.toLower.toNat = c.toNat
  rw [toNat_toLower, if_neg (by omega)]

theorem asciiLower_eq_self (h : ∀ c ∈ t, c.toNat < 0x41 ∨ 0x5a < c.toNat) : asciiLower t = t := by
  rw [asciiLower]
  conv_rhs => rw [← List.map_id t]
  exact List.map_congr_left fun c hc => toLower_eq_self (h c hc)

theorem toLower_eq_iff {d : Char} (hd : d.toNat < 0x41 ∨ 0x7a < d.toNat) :
    c.toLower = d ↔ c = d := by
  constructor
  · intro heq
    have hcode := toNat_toLower c
    rw [heq] at hcode
    apply Char.toNat_inj.mp
    split at hcode
    · omega
    · exact hcode.symm
  · rintro rfl
    exact toLower_eq_self (by omega)

/-- Characters that are not letters are kept by lower case, and nothing else becomes one. -/
theorem mem_asciiLower {d : Char} (hd : d.toNat < 0x41 ∨ 0x7a < d.toNat) :
    d ∈ asciiLower t ↔ d ∈ t := by
  rw [asciiLower, List.mem_map]
  constructor
  · intro ⟨c, hc, heq⟩
    rwa [← (toLower_eq_iff hd).mp heq]
  · intro h
    exact ⟨d, h, (toLower_eq_iff hd).mpr rfl⟩

/-- Lower case does not move the separators. -/
theorem splitOn_asciiLower {d : Char} (hd : d.toNat < 0x41 ∨ 0x7a < d.toNat) (t : Text) :
    (asciiLower t).splitOn d = (t.splitOn d).map asciiLower := by
  induction t with
  | nil => rfl
  | cons c t ih =>
    obtain ⟨first, others, hparts⟩ := List.exists_cons_of_ne_nil (List.splitOn_ne_nil d t)
    rw [asciiLower_cons, List.splitOn_cons_eq_if_modifyHead, List.splitOn_cons_eq_if_modifyHead, ih,
      hparts]
    by_cases hc : c = d
    · rw [if_pos (by simpa using (toLower_eq_iff hd).mpr hc), if_pos (by simpa using hc)]
      rfl
    · rw [if_neg (by simpa using mt (toLower_eq_iff hd).mp hc), if_neg (by simpa using hc)]
      rfl

theorem eqIgnoreAsciiCase_iff : eqIgnoreAsciiCase s t = true ↔ s.asciiLower = t.asciiLower :=
  decide_eq_true_iff

theorem asciiLower_asciiLower (t : Text) : t.asciiLower.asciiLower = t.asciiLower := by
  rw [asciiLower, asciiLower, List.map_map]
  exact List.map_congr_left fun c _ => toLower_toLower c

theorem isAscii_of_asciiLower (h : ∀ c ∈ t, isAscii c = true)
    (hlower : s.asciiLower = t.asciiLower) : ∀ c ∈ s, isAscii c = true := by
  intro c hc
  have hmem : c.toLower ∈ t.asciiLower := hlower ▸ List.mem_map_of_mem hc
  obtain ⟨d, hd, heq⟩ := List.mem_map.mp hmem
  rw [← isAscii_toLower, ← heq, isAscii_toLower]
  exact h d hd

/-- The bytes up to the length of an ASCII string spell it, in some case, exactly when the
characters do. -/
theorem exists_getTo_eqIgnoreAsciiCase (hs : ∀ c ∈ s, isAscii c = true) :
    (∃ front, getTo (byteLen s) t = some front ∧ eqIgnoreAsciiCase front s = true) ↔
      s.asciiLower <+: t.asciiLower := by
  simp only [getTo_eq_some, eqIgnoreAsciiCase_iff]
  constructor
  · intro ⟨front, ⟨hstart, _⟩, hlower⟩
    rw [← hlower]
    exact hstart.map Char.toLower
  · intro hstart
    have hfront : asciiLower (t.take s.length) = s.asciiLower := by
      rw [asciiLower, List.map_take]
      have htake := List.prefix_iff_eq_take.mp hstart
      rw [asciiLower, List.length_map] at htake
      exact htake.symm
    have hascii := isAscii_of_asciiLower hs hfront
    refine ⟨t.take s.length, ⟨List.take_prefix _ _, ?_⟩, hfront⟩
    have hlength := congrArg List.length hfront
    rw [asciiLower, asciiLower, List.length_map, List.length_map] at hlength
    rw [byteLen_of_isAscii hascii, byteLen_of_isAscii hs, hlength]

/-- A pattern without letters is found in a string of any case. -/
theorem prefix_asciiLower_iff {pattern : Text}
    (hpattern : ∀ c ∈ pattern, c.toNat < 0x41 ∨ 0x7a < c.toNat) :
    pattern <+: asciiLower t ↔ pattern <+: t := by
  induction pattern generalizing t with
  | nil => simp
  | cons d pattern ih =>
    obtain ⟨hd, hpattern⟩ := List.forall_mem_cons.mp hpattern
    cases t with
    | nil => simp
    | cons c t =>
      rw [asciiLower_cons, List.cons_prefix_cons, List.cons_prefix_cons, ih hpattern, eq_comm,
        toLower_eq_iff hd, eq_comm]

/-- A string is cut at the same place in lower case and whatever follows. -/
theorem cutAt_asciiLower {d : Char} {pattern front back : Text}
    (hpattern : ∀ c ∈ d :: pattern, c.toNat < 0x41 ∨ 0x7a < c.toNat)
    (h : cutAt (d :: pattern) t = some (front, back)) (back' : Text) :
    cutAt (d :: pattern) (asciiLower front ++ (d :: pattern ++ back')) =
      some (asciiLower front, back') := by
  induction t generalizing front with
  | nil => cases h
  | cons c t ih =>
    unfold cutAt at h
    split at h
    · obtain ⟨rfl, _⟩ := Prod.mk.inj (Option.some.inj h)
      exact cutAt_append List.not_mem_nil back'
    · rename_i hstart
      obtain ⟨⟨front', back''⟩, hcut, heq⟩ := Option.map_eq_some_iff.mp h
      obtain ⟨rfl, rfl⟩ := Prod.mk.inj heq
      have hstay : ¬ d :: pattern <+: asciiLower (c :: front') ++ (d :: pattern ++ back') := by
        intro hprefix
        rw [← List.append_assoc] at hprefix
        have hle : (d :: pattern).length ≤ (asciiLower (c :: front') ++ d :: pattern).length := by
          rw [List.length_append]
          exact Nat.le_add_left _ _
        have hshort := List.prefix_of_prefix_length_le hprefix (List.prefix_append _ back') hle
        have hsame : asciiLower (c :: front') ++ d :: pattern =
            asciiLower (c :: front' ++ d :: pattern) := by
          rw [asciiLower_append, asciiLower_eq_self (t := d :: pattern)]
          intro e he
          have := hpattern e he
          omega
        rw [hsame, prefix_asciiLower_iff hpattern] at hshort
        apply hstart
        rw [List.isPrefixOf_iff_prefix, eq_of_cutAt hcut]
        refine hshort.trans ?_
        simp
      rw [asciiLower_cons, List.cons_append] at hstay ⊢
      rw [cutAt, if_neg (mt List.isPrefixOf_iff_prefix.mp hstay), ih hcut]
      rfl

theorem rdropWhile_asciiLower {p : Char → Bool} (hp : ∀ c : Char, p c.toLower = p c) :
    (asciiLower t).rdropWhile p = asciiLower (t.rdropWhile p) := by
  have hcomp : p ∘ Char.toLower = p := funext hp
  rw [asciiLower, List.rdropWhile, ← List.map_reverse, List.dropWhile_map, hcomp,
    ← List.map_reverse]
  rfl

end Case

section Padding

variable {s t u v : Text} {c : Char} {w n m : ℕ}

def zeroPadded (width n : ℕ) : Text :=
  List.replicate (width - (Nat.toDigits 10 n).length) '0' ++ Nat.toDigits 10 n

theorem foldl_decimal (t : Text) (n : ℕ) :
    t.foldl (fun n c => n * 10 + (c.toNat - 0x30)) n = n * 10 ^ t.length + decimalValue t := by
  induction t generalizing n with
  | nil => simp [decimalValue]
  | cons c t ih =>
    have hcons : decimalValue (c :: t) =
        (0 * 10 + (c.toNat - 0x30)) * 10 ^ t.length + decimalValue t := ih _
    rw [List.foldl_cons, ih, hcons, List.length_cons, Nat.pow_succ, Nat.zero_mul, Nat.zero_add,
      Nat.add_mul, Nat.add_assoc, Nat.mul_assoc, Nat.mul_comm 10]

theorem decimalValue_cons (c : Char) (t : Text) :
    decimalValue (c :: t) = (c.toNat - 0x30) * 10 ^ t.length + decimalValue t := by
  rw [decimalValue, List.foldl_cons, foldl_decimal, Nat.zero_mul, Nat.zero_add]

theorem decimalValue_lt (h : ∀ c ∈ t, c.isDigit = true) : decimalValue t < 10 ^ t.length := by
  induction t with
  | nil => exact Nat.one_pos
  | cons c t ih =>
    obtain ⟨hc, ht⟩ := List.forall_mem_cons.mp h
    have hdigit : c.toNat - 0x30 ≤ 9 := by
      have hhigh := (isDigit_iff.mp hc).2
      omega
    have hscaled := Nat.mul_le_mul_right (10 ^ t.length) hdigit
    have hrest := ih ht
    rw [decimalValue_cons, List.length_cons, Nat.pow_succ]
    omega

theorem decimalValue_zeroPadded (w n : ℕ) : decimalValue (zeroPadded w n) = n := by
  have hzeros (k : ℕ) : decimalValue (List.replicate k '0' ++ Nat.toDigits 10 n) = n := by
    induction k with
    | zero => exact decimalValue_toDigits n
    | succ k ih =>
      rw [List.replicate_succ, List.cons_append, decimalValue_cons, ih]
      exact (congrArg (· + n) (Nat.zero_mul _)).trans (Nat.zero_add n)
  exact hzeros _

theorem isDigit_zeroPadded : ∀ c ∈ zeroPadded w n, c.isDigit = true := by
  intro c hc
  rcases List.mem_append.mp hc with hc | hc
  · obtain rfl := List.eq_of_mem_replicate hc
    rfl
  · exact isDigit_toDigits c hc

theorem length_zeroPadded (hw : 0 < w) (h : n < 10 ^ w) : (zeroPadded w n).length = w := by
  have hlength := (Nat.length_toDigits_le_iff (by decide) hw).mpr h
  rw [zeroPadded, List.length_append, List.length_replicate]
  omega

/-- Strings of equally many digits are in the order of their numbers. -/
theorem lt_iff_decimalValue_lt (hs : ∀ c ∈ s, c.isDigit = true) (ht : ∀ c ∈ t, c.isDigit = true)
    (h : s.length = t.length) : s < t ↔ decimalValue s < decimalValue t := by
  induction s generalizing t with
  | nil =>
    obtain rfl := List.length_eq_zero_iff.mp h.symm
    simp
  | cons c s ih =>
    cases t with
    | nil => cases h
    | cons d t =>
      obtain ⟨hc, hs⟩ := List.forall_mem_cons.mp hs
      obtain ⟨hd, ht⟩ := List.forall_mem_cons.mp ht
      have hlength : s.length = t.length := Nat.succ_inj.mp h
      have hcd : c < d ↔ c.toNat < d.toNat := Iff.rfl
      have heq : c = d ↔ c.toNat = d.toNat := Char.toNat_inj.symm
      have hclow := (isDigit_iff.mp hc).1
      have hdlow := (isDigit_iff.mp hd).1
      have hslow := decimalValue_lt hs
      have htlow := decimalValue_lt ht
      rw [List.cons_lt_cons_iff, ih hs ht hlength, decimalValue_cons, decimalValue_cons, hcd, heq,
        hlength]
      rw [hlength] at hslow
      rcases Nat.lt_trichotomy c.toNat d.toNat with hlt | hsame | hgt
      · have hstep : c.toNat - 0x30 + 1 ≤ d.toNat - 0x30 := by omega
        have hscaled := Nat.mul_le_mul_right (10 ^ t.length) hstep
        rw [Nat.add_mul, Nat.one_mul] at hscaled
        exact iff_of_true (Or.inl hlt) (by omega)
      · rw [hsame]
        omega
      · have hstep : d.toNat - 0x30 + 1 ≤ c.toNat - 0x30 := by omega
        have hscaled := Nat.mul_le_mul_right (10 ^ t.length) hstep
        rw [Nat.add_mul, Nat.one_mul] at hscaled
        exact iff_of_false (by omega) (by omega)

/-- Parts of the same length decide before what is behind them. -/
theorem append_lt_append_iff (h : s.length = t.length) :
    s ++ u < t ++ v ↔ s < t ∨ s = t ∧ u < v := by
  induction s generalizing t with
  | nil =>
    obtain rfl := List.length_eq_zero_iff.mp h.symm
    simp
  | cons c s ih =>
    cases t with
    | nil => cases h
    | cons d t =>
      rw [List.cons_append, List.cons_append, List.cons_lt_cons_iff, ih (Nat.succ_inj.mp h),
        List.cons_lt_cons_iff, List.cons_eq_cons, and_or_left, ← or_assoc, and_assoc]

/-- Padded numbers are compared before what is behind them. -/
theorem zeroPadded_append_lt_iff (hw : 0 < w) (hn : n < 10 ^ w) (hm : m < 10 ^ w) :
    zeroPadded w n ++ u < zeroPadded w m ++ v ↔ n < m ∨ n = m ∧ u < v := by
  have hlength : (zeroPadded w n).length = (zeroPadded w m).length := by
    rw [length_zeroPadded hw hn, length_zeroPadded hw hm]
  have heq : zeroPadded w n = zeroPadded w m ↔ n = m := by
    constructor
    · intro hsame
      rw [← decimalValue_zeroPadded w n, hsame, decimalValue_zeroPadded]
    · exact congrArg _
  rw [append_lt_append_iff hlength, heq,
    lt_iff_decimalValue_lt isDigit_zeroPadded isDigit_zeroPadded hlength, decimalValue_zeroPadded,
    decimalValue_zeroPadded]

/-- A padded number is told from what is behind it, whatever its width. -/
theorem zeroPadded_append_cons_inj (hc : c.isDigit = false) :
    zeroPadded w n ++ c :: u = zeroPadded w m ++ c :: v ↔ n = m ∧ u = v := by
  have hmem (n : ℕ) : c ∉ zeroPadded w n := by
    intro hmem
    rw [isDigit_zeroPadded c hmem] at hc
    cases hc
  constructor
  · intro h
    have hcut := congrArg (cutAt [c]) h
    rw [cutAt_singleton (hmem n), cutAt_singleton (hmem m)] at hcut
    obtain ⟨hsame, hrest⟩ := Prod.mk.inj (Option.some.inj hcut)
    refine ⟨?_, hrest⟩
    rw [← decimalValue_zeroPadded w n, hsame, decimalValue_zeroPadded]
  · rintro ⟨rfl, rfl⟩
    rfl

end Padding

end Text
