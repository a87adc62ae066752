import AnchorKit.StellarToml

/-!
# The lines of a stellar.toml document

Documents of comments, headers and quoted values. Every line is written as one thing and read by
the parser as one thing; the two differ for a value that holds a number sign, is followed by a
comment or has spaces at its ends.
-/

namespace AnchorKit

open Fallible

namespace StellarToml

def IsSpace (t : Text) : Prop := ∀ c ∈ t, isWhitespace c = true ∧ c ≠ '\n'

instance (t : Text) : Decidable (IsSpace t) := inferInstanceAs (Decidable (∀ c ∈ t, _))

/-- A line `KEY = "value"`, perhaps with a comment behind the value. -/
structure Entry where
  indent : Text
  key : Text
  beforeEq : Text
  afterEq : Text
  value : Text
  gap : Text
  comment : Option Text
deriving DecidableEq, Repr

def isKeyChar (c : Char) : Bool :=
  !isWhitespace c && c ≠ '=' && c ≠ '"' && c ≠ '#' && c ≠ '[' && c ≠ ']'

namespace Entry

def tail (e : Entry) : Text :=
  match e.comment with
  | some comment => e.gap ++ '#' :: comment
  | none => e.gap

def text (e : Entry) : Text :=
  e.indent ++ (e.key ++ (e.beforeEq ++ '=' :: (e.afterEq ++ '"' :: (e.value ++ '"' :: e.tail))))

structure WellFormed (e : Entry) : Prop where
  indent : IsSpace e.indent
  key_nonempty : e.key ≠ []
  key_chars : ∀ c ∈ e.key, isKeyChar c = true
  beforeEq : IsSpace e.beforeEq
  afterEq : IsSpace e.afterEq
  value : '"' ∉ e.value ∧ '\n' ∉ e.value
  gap : IsSpace e.gap
  comment : ∀ comment ∈ e.comment, '\n' ∉ comment

/-- The value with all that follows it, as the parser looks at it. -/
def quoted (e : Entry) : Text := '"' :: (e.value ++ '"' :: e.tail.rdropWhile isWhitespace)

/-- The value that the parser takes from the line. -/
def read (e : Entry) : Text := readValue e.quoted

end Entry

/-- A line `[NAME]` or `[[NAME]]`. -/
structure Header where
  indent : Text
  double : Bool
  before : Text
  name : Text
  after : Text
  trailing : Text
deriving DecidableEq, Repr

namespace Header

def opening (h : Header) : Text := if h.double then ['[', '['] else ['[']

def closing (h : Header) : Text := if h.double then [']', ']'] else [']']

def inside (h : Header) : Text := h.before ++ (h.name ++ h.after)

def text (h : Header) : Text :=
  h.indent ++ ((h.opening ++ (h.inside ++ h.closing)) ++ h.trailing)

structure WellFormed (h : Header) : Prop where
  indent : IsSpace h.indent
  before : IsSpace h.before
  name : trimmed h.name = h.name ∧ ∀ c ∈ h.name, Parser.isBracket c = false ∧ c ≠ '\n'
  after : IsSpace h.after
  trailing : IsSpace h.trailing

def opensCurrency (h : Header) : Bool := h.double && h.name = "CURRENCIES".toList

def readsAsCurrency (h : Header) : Bool := Text.eqIgnoreAsciiCase h.name "CURRENCIES".toList

end Header

inductive Line
  | comment (indent text : Text)
  | blank (spaces : Text)
  | header (h : Header)
  | entry (e : Entry)
deriving DecidableEq, Repr

inductive Item
  | header (isCurrencies : Bool)
  | entry (key value : Text)
deriving DecidableEq, Repr

namespace Line

def text : Line → Text
  | .comment indent text => indent ++ '#' :: text
  | .blank spaces => spaces
  | .header h => h.text
  | .entry e => e.text

def WellFormed : Line → Prop
  | .comment indent text => IsSpace indent ∧ '\n' ∉ text
  | .blank spaces => IsSpace spaces
  | .header h => h.WellFormed
  | .entry e => e.WellFormed

def written : Line → Option Item
  | .header h => some (.header h.opensCurrency)
  | .entry e => some (.entry e.key e.value)
  | _ => none

def seen : Line → Option Item
  | .header h => some (.header h.readsAsCurrency)
  | .entry e => some (.entry e.key e.read)
  | _ => none

end Line

def Parser.visit (p : Parser) : Item → Except AnchorKitError Parser
  | .header isCurrencies => p.openTable isCurrencies
  | .entry key value => p.assign key value

section Reading

variable {t : Text} {e : Entry} {h : Header} {p : Parser} {c : Char}

theorem IsSpace.whitespace (hspace : IsSpace t) : ∀ c ∈ t, isWhitespace c = true :=
  fun c hc => (hspace c hc).1

theorem IsSpace.no_break (hspace : IsSpace t) : '\n' ∉ t := fun hmem => (hspace _ hmem).2 rfl

theorem isKeyChar_iff : isKeyChar c = true ↔ isWhitespace c = false ∧ c ≠ '=' ∧ c ≠ '"' ∧
    c ≠ '#' ∧ c ≠ '[' ∧ c ≠ ']' := by
  simp [isKeyChar, and_assoc]

/-- A character that is no space is not among spaces. -/
theorem IsSpace.not_mem (hspace : IsSpace t) (hc : isWhitespace c = false) : c ∉ t := by
  intro hmem
  rw [(hspace c hmem).1] at hc
  cases hc

theorem trimmed_quoted (e : Entry) : trimmed e.quoted = e.quoted := by
  have hquote : isWhitespace '"' = false := rfl
  unfold trimmed Entry.quoted
  rw [Text.trimMatches_cons hquote, Text.rdropWhile_append_cons hquote,
    List.rdropWhile_idempotent]

/-- The line without the spaces around it. -/
theorem trimmed_entry (hwf : e.WellFormed) :
    trimmed e.text = e.key ++ (e.beforeEq ++ '=' :: (e.afterEq ++ e.quoted)) := by
  have hquote : isWhitespace '"' = false := rfl
  unfold trimmed Entry.text Entry.quoted
  rw [Text.trimMatches_append_left hwf.indent.whitespace]
  obtain ⟨c, key, hkey⟩ := List.exists_cons_of_ne_nil hwf.key_nonempty
  have hc : isWhitespace c = false :=
    (isKeyChar_iff.mp (hwf.key_chars c (by rw [hkey]; exact List.mem_cons_self))).1
  have hsplit : key ++ (e.beforeEq ++ '=' :: (e.afterEq ++ '"' :: (e.value ++ '"' :: e.tail))) =
      (key ++ (e.beforeEq ++ '=' :: (e.afterEq ++ '"' :: e.value))) ++ '"' :: e.tail := by simp
  rw [hkey, List.cons_append, Text.trimMatches_cons hc, hsplit,
    Text.rdropWhile_append_cons hquote]
  simp

theorem parseKv_entry (hwf : e.WellFormed) :
    parseKv (e.key ++ (e.beforeEq ++ '=' :: (e.afterEq ++ e.quoted))) = some (e.key, e.read) := by
  have heq : '=' ∉ e.key ++ e.beforeEq := by
    rw [List.mem_append, not_or]
    refine ⟨fun hmem => ?_, hwf.beforeEq.not_mem rfl⟩
    exact (isKeyChar_iff.mp (hwf.key_chars _ hmem)).2.1 rfl
  have hkey : trimmed (e.key ++ e.beforeEq) = e.key := by
    unfold trimmed
    rw [Text.trimMatches_append_right hwf.beforeEq.whitespace]
    exact Text.trimMatches_of_forall fun c hc => (isKeyChar_iff.mp (hwf.key_chars c hc)).1
  have hvalue : trimmed (e.afterEq ++ e.quoted) = e.quoted := by
    unfold trimmed
    rw [Text.trimMatches_append_left hwf.afterEq.whitespace]
    exact trimmed_quoted e
  rw [← List.append_assoc, parseKv, Text.cutAt_singleton heq]
  simp [hkey, hvalue, hwf.key_nonempty, Entry.read]

theorem parseLine_entry (hwf : e.WellFormed) : p.parseLine e.text = p.assign e.key e.read := by
  obtain ⟨c, key, hkey⟩ := List.exists_cons_of_ne_nil hwf.key_nonempty
  have hc := isKeyChar_iff.mp (hwf.key_chars c (by rw [hkey]; exact List.mem_cons_self))
  have hhead : (trimmed e.text).head? = some c := by rw [trimmed_entry hwf, hkey]; rfl
  have hkv := parseKv_entry hwf
  rw [← trimmed_entry hwf] at hkv
  unfold Parser.parseLine
  dsimp only
  rw [if_neg, if_neg, hkv]
  · rw [hhead]
    simp [hc.2.2.2.2.1]
  · rw [hhead, not_or]
    refine ⟨by simp [hc.2.2.2.1], ?_⟩
    intro hnil
    rw [hnil] at hhead
    cases hhead

/-- The header without the spaces around it. -/
theorem trimmed_header (hwf : h.WellFormed) :
    trimmed h.text = h.opening ++ (h.inside ++ h.closing) := by
  unfold trimmed Header.text
  rw [Text.trimMatches_append_left hwf.indent.whitespace,
    Text.trimMatches_append_right hwf.trailing.whitespace, Text.trimMatches_eq_self]
  constructor
  · intro c hc
    cases hdouble : h.double <;> simp [Header.opening, hdouble] at hc <;> rw [← hc] <;> rfl
  · intro c hc
    cases hdouble : h.double <;> simp [Header.closing, hdouble] at hc <;> rw [← hc] <;> rfl

theorem inside_header (hwf : h.WellFormed) :
    trimmed (Text.trimMatches Parser.isBracket (h.opening ++ (h.inside ++ h.closing))) = h.name := by
  have hopening : ∀ c ∈ h.opening, Parser.isBracket c = true := by
    cases hdouble : h.double <;> simp [Header.opening, hdouble, Parser.isBracket]
  have hclosing : ∀ c ∈ h.closing, Parser.isBracket c = true := by
    cases hdouble : h.double <;> simp [Header.closing, hdouble, Parser.isBracket]
  have hspace (t : Text) (ht : IsSpace t) : ∀ c ∈ t, Parser.isBracket c = false := by
    intro c hc
    rw [Bool.eq_false_iff]
    intro hbracket
    simp only [Parser.isBracket, Bool.or_eq_true, decide_eq_true_eq] at hbracket
    rcases hbracket with rfl | rfl
    · exact ht.not_mem rfl hc
    · exact ht.not_mem rfl hc
  have hinside : ∀ c ∈ h.inside, Parser.isBracket c = false := by
    intro c hc
    unfold Header.inside at hc
    rw [List.mem_append, List.mem_append] at hc
    rcases hc with hc | hc | hc
    · exact hspace _ hwf.before c hc
    · exact (hwf.name.2 c hc).1
    · exact hspace _ hwf.after c hc
  rw [Text.trimMatches_append_left hopening, Text.trimMatches_append_right hclosing,
    Text.trimMatches_of_forall hinside]
  unfold trimmed Header.inside
  rw [Text.trimMatches_append_left hwf.before.whitespace,
    Text.trimMatches_append_right hwf.after.whitespace]
  exact hwf.name.1

theorem parseLine_header (hwf : h.WellFormed) : p.parseLine h.text = p.openTable h.readsAsCurrency := by
  have hhead : (trimmed h.text).head? = some '[' := by
    rw [trimmed_header hwf]
    cases hdouble : h.double <;> simp [Header.opening, hdouble]
  unfold Parser.parseLine
  dsimp only
  rw [if_neg, if_pos hhead, trimmed_header hwf, inside_header hwf]
  · rfl
  · rw [hhead, not_or]
    refine ⟨by decide, ?_⟩
    intro hnil
    rw [hnil] at hhead
    cases hhead

theorem parseLine_skipped (hskip : (trimmed t).head? = some '#' ∨ trimmed t = []) :
    p.parseLine t = .ok p := by
  unfold Parser.parseLine
  dsimp only
  rw [if_pos hskip]

theorem parseLine_text {line : Line} (hwf : line.WellFormed) :
    p.parseLine line.text = line.seen.elim (.ok p) p.visit := by
  cases line with
  | comment indent text =>
    apply parseLine_skipped
    obtain ⟨hindent, _⟩ := hwf
    have hsign : isWhitespace '#' = false := rfl
    left
    unfold trimmed Line.text
    rw [Text.trimMatches_append_left hindent.whitespace, Text.trimMatches_cons hsign]
    rfl
  | blank spaces => exact parseLine_skipped (Or.inr (Text.trimMatches_eq_nil (IsSpace.whitespace hwf)))
  | header h => exact parseLine_header hwf
  | entry e => exact parseLine_entry hwf

theorem mem_trimmed (hc : isWhitespace c = false) (hmem : c ∈ t) : c ∈ trimmed t := by
  obtain ⟨front, back, rfl⟩ := List.append_of_mem hmem
  have hfront : (front ++ c :: back).dropWhile isWhitespace =
      front.dropWhile isWhitespace ++ c :: back := by
    rw [List.dropWhile_append]
    split
    · rename_i hempty
      rw [List.isEmpty_iff.mp hempty, List.dropWhile_cons_of_neg (by simp [hc]), List.nil_append]
    · rfl
  unfold trimmed Text.trimMatches
  rw [hfront, Text.rdropWhile_append_cons hc]
  exact List.mem_append_right _ List.mem_cons_self

/-- The value stands alone: no comment is behind it, no number sign in it, no space around it. -/
structure Entry.Plain (e : Entry) : Prop where
  no_comment : e.comment = none
  no_sign : '#' ∉ e.value
  no_space : trimmed e.value = e.value

theorem sign_not_mem_read (e : Entry) : '#' ∉ e.read := by
  intro hmem
  have hcut := List.mem_takeWhile_imp (Text.mem_of_mem_trimMatches hmem)
  simp at hcut

theorem unquote_alone (hwf : e.WellFormed) (hcomment : e.comment = none) :
    unquote e.quoted = e.value := by
  have htail : e.tail.rdropWhile isWhitespace = [] := by
    rw [Entry.tail, hcomment, List.rdropWhile_eq_nil_iff]
    exact hwf.gap.whitespace
  unfold unquote Entry.quoted
  rw [htail, if_pos]
  · rw [List.tail_cons, List.dropLast_concat]
  · refine ⟨rfl, ?_, by simp⟩
    rw [← List.cons_append, List.getLast?_concat]

theorem quote_mem_read (hsign : '#' ∉ e.value) {comment : Text} (hcomment : e.comment = some comment) :
    '"' ∈ e.read := by
  have htail : e.tail.rdropWhile isWhitespace =
      e.gap ++ '#' :: comment.rdropWhile isWhitespace := by
    rw [Entry.tail, hcomment]
    exact Text.rdropWhile_append_cons rfl _ _
  apply mem_trimmed rfl
  unfold unquote
  split
  · -- the comment ends with a quote, and that one is taken off
    have hdrop : e.quoted.tail.dropLast =
        e.value ++ '"' :: (e.gap ++ '#' :: comment.rdropWhile isWhitespace).dropLast := by
      rw [Entry.quoted, htail, List.tail_cons, List.dropLast_append_of_ne_nil (by simp),
        List.dropLast_cons_of_ne_nil (by simp)]
    rw [hdrop, List.takeWhile_append_of_pos]
    · apply List.mem_append_right
      rw [List.takeWhile_cons_of_pos (by decide)]
      exact List.mem_cons_self
    · intro c hc
      rw [decide_eq_true_eq]
      rintro rfl
      exact hsign hc
  · rw [Entry.quoted, List.takeWhile_cons_of_pos (by decide)]
    exact List.mem_cons_self

/-- The parser reads the plain values as they are written, and no others. -/
theorem read_eq_value_iff (hwf : e.WellFormed) : e.read = e.value ↔ e.Plain := by
  constructor
  · intro h
    have hsign : '#' ∉ e.value := h ▸ sign_not_mem_read e
    have hcomment : e.comment = none := by
      cases hcomment : e.comment with
      | none => rfl
      | some comment =>
        have hquote := quote_mem_read hsign hcomment
        rw [h] at hquote
        exact absurd hquote hwf.value.1
    refine ⟨hcomment, hsign, ?_⟩
    rw [← h]
    exact Text.trimMatches_trimMatches _ _
  · intro h
    rw [Entry.read, readValue, unquote_alone hwf h.no_comment, List.takeWhile_eq_self_iff.mpr]
    · exact h.no_space
    · intro c hc
      rw [decide_eq_true_eq]
      rintro rfl
      exact h.no_sign hc

theorem no_break_line {line : Line} (hwf : line.WellFormed) : '\n' ∉ line.text := by
  cases line with
  | comment indent text =>
    obtain ⟨hindent, htext⟩ := hwf
    simp [Line.text, hindent.no_break, htext]
  | blank spaces => exact IsSpace.no_break hwf
  | header h =>
    have hname : '\n' ∉ h.name := fun hmem => (hwf.name.2 _ hmem).2 rfl
    cases hdouble : h.double <;>
      simp [Line.text, Header.text, Header.inside, Header.opening, Header.closing, hdouble,
        hwf.indent.no_break, hwf.before.no_break, hname, hwf.after.no_break, hwf.trailing.no_break]
  | entry e =>
    have hkey : '\n' ∉ e.key := by
      intro hmem
      have hspace := (isKeyChar_iff.mp (hwf.key_chars _ hmem)).1
      cases hspace
    have htail : '\n' ∉ e.tail := by
      unfold Entry.tail
      cases hcomment : e.comment with
      | none => exact hwf.gap.no_break
      | some comment => simp [hwf.gap.no_break, hwf.comment comment hcomment]
    simp [Line.text, Entry.text, hwf.indent.no_break, hkey, hwf.beforeEq.no_break,
      hwf.afterEq.no_break, hwf.value.2, htail]

end Reading

end StellarToml

end AnchorKit
