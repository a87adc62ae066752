import AnchorKit.DomainValidator

/-!
# The grammar of anchor domains

What an anchor domain is, from labels and ports up to the whole address, and how the validator's
checks add up to it. The validator asks for one character more than the shortest addresses have.
-/

namespace AnchorKit

open Fallible

/-- ASCII without control characters, the space and the forbidden characters. -/
def IsUrlChar (c : Char) : Prop :=
  0x20 < c.toNat ∧ c.toNat < 0x7f ∧ c ∉ forbiddenUrlChars

instance {c : Char} : Decidable (IsUrlChar c) := inferInstanceAs (Decidable (_ ∧ _ ∧ _))

/-- One to 63 letters, digits and hyphens, with no hyphen at either end. -/
structure IsLabel (label : Text) : Prop where
  length_pos : 1 ≤ label.length
  length_le : label.length ≤ 63
  chars : ∀ c ∈ label, c.isAlphanum = true ∨ c = '-'
  first : label.head? ≠ some '-'
  last : label.getLast? ≠ some '-'

/-- Two or more labels separated by dots, not all of them numbers. -/
structure IsHostName (host : Text) : Prop where
  length_le : host.length ≤ 253
  labels : 2 ≤ (host.splitOn '.').length
  label : ∀ label ∈ host.splitOn '.', IsLabel label
  not_numeric : ∃ label ∈ host.splitOn '.', ∃ c ∈ label, c.isDigit = false

structure IsPort (port : Text) : Prop where
  nonempty : port ≠ []
  digits : ∀ c ∈ port, c.isDigit = true
  pos : 1 ≤ Text.decimalValue port
  le : Text.decimalValue port ≤ 65535

/-- The port behind a colon, or nothing. -/
def portText : Option Text → Text
  | some port => ':' :: port
  | none => []

/-- Host and port, the path, and a query or fragment. -/
structure DomainParts where
  host : Text
  port : Option Text
  path : Text
  suffix : Text

namespace DomainParts

def authority (parts : DomainParts) : Text := parts.host ++ portText parts.port

def text (parts : DomainParts) : Text :=
  httpsPrefix ++ (parts.authority ++ (parts.path ++ parts.suffix))

structure WellFormed (parts : DomainParts) : Prop where
  host : IsHostName parts.host
  port : ∀ port ∈ parts.port, IsPort port
  path : parts.path = [] ∨ parts.path = ['/']
  suffix : ∀ c ∈ parts.suffix.head?, c = '?' ∨ c = '#'

end DomainParts

/-- An address of the given lengths that is made of well-formed parts. -/
structure IsAnchorDomain (minLength : ℕ) (domain : Text) : Prop where
  length_ge : minLength ≤ domain.length
  length_le : domain.length ≤ 2048
  chars : ∀ c ∈ domain, IsUrlChar c
  parts : ∃ parts : DomainParts, domain = parts.text ∧ parts.WellFormed

section Characters

variable {c : Char} {label host port url : Text}

theorem isAscii_of_isUrlChar (h : IsUrlChar c) : Text.isAscii c = true := by
  have hcode := h.2.1
  rw [Text.isAscii, decide_eq_true_eq]
  omega

theorem not_isWhitespace_of_isUrlChar (h : IsUrlChar c) : isWhitespace c = false := by
  obtain ⟨hlow, hhigh, _⟩ := h
  simp only [isWhitespace, Bool.or_eq_false_iff, Bool.and_eq_false_iff, decide_eq_false_iff_not]
  omega

theorem validateUrlCharacters_eq_ok :
    validateUrlCharacters url = .ok () ↔ ∀ c ∈ url, IsUrlChar c := by
  unfold validateUrlCharacters
  rw [forM_eq_ok]
  refine forall₂_congr fun c _ => ?_
  have hspace : c ≠ ' ' ↔ c.toNat ≠ 0x20 := by
    rw [Ne, ← Char.toNat_inj]
    rfl
  have hallowed : forbiddenUrlChars.contains c = false ↔ c ∉ forbiddenUrlChars := by
    rw [← Bool.not_eq_true, List.contains_iff_mem]
  simp only [require_bind_eq_ok, require_eq_ok, Text.isAsciiControl_eq_false, Text.isAscii,
    decide_eq_true_eq, hallowed, IsUrlChar, hspace]
  constructor
  · intro ⟨hascii, ⟨hlow, hdel⟩, hne, hmem⟩
    exact ⟨by omega, by omega, hmem⟩
  · intro ⟨hlow, hhigh, hmem⟩
    exact ⟨by omega, ⟨by omega, by omega⟩, by omega, hmem⟩

theorem labelChar_code (h : c.isAlphanum = true ∨ c = '-') :
    (0x41 ≤ c.toNat ∧ c.toNat ≤ 0x5a) ∨ (0x61 ≤ c.toNat ∧ c.toNat ≤ 0x7a) ∨
      (0x30 ≤ c.toNat ∧ c.toNat ≤ 0x39) ∨ c.toNat = 0x2d := by
  rcases h with h | rfl
  · rw [Text.isAlphanum_iff] at h
    omega
  · right; right; right
    rfl

theorem isAscii_of_labelChar (h : c.isAlphanum = true ∨ c = '-') : Text.isAscii c = true := by
  have hcode := labelChar_code h
  rw [Text.isAscii, decide_eq_true_eq]
  omega

theorem validateLabel_eq_ok : validateLabel label = .ok () ↔ IsLabel label := by
  simp only [validateLabel, require_bind_eq_ok, forM_eq_ok, require_eq_ok, Bool.and_eq_true,
    Bool.or_eq_true, decide_eq_true_eq]
  constructor
  · intro h
    obtain ⟨hne, hlen, ⟨hfirst, hlast⟩, hchars⟩ := h
    rw [Text.byteLen_of_isAscii fun c hc => isAscii_of_labelChar (hchars c hc)] at hlen
    refine ⟨List.length_pos_iff.mpr hne, hlen, hchars, fun hhead => ?_, fun hback => ?_⟩
    · rw [hhead] at hfirst
      revert hfirst
      decide
    · rw [hback] at hlast
      revert hlast
      decide
  · intro h
    have hne : label ≠ [] := List.length_pos_iff.mp h.length_pos
    refine ⟨hne, ?_, ⟨?_, ?_⟩, h.chars⟩
    · rw [Text.byteLen_of_isAscii fun c hc => isAscii_of_labelChar (h.chars c hc)]
      exact h.length_le
    · rw [List.head?_eq_some_head hne, Option.any_some]
      refine (h.chars _ (List.head_mem hne)).resolve_right fun heq => h.first ?_
      rw [List.head?_eq_some_head hne, heq]
    · rw [List.getLast?_eq_some_getLast hne, Option.any_some]
      refine (h.chars _ (List.getLast_mem hne)).resolve_right fun heq => h.last ?_
      rw [List.getLast?_eq_some_getLast hne, heq]

theorem isDigit_code (h : c.isDigit = true) : 0x30 ≤ c.toNat ∧ c.toNat ≤ 0x39 :=
  Text.isDigit_iff.mp h

theorem ne_of_code {d : Char} (h : c.toNat ≠ d.toNat) : c ≠ d := fun heq => h (heq ▸ rfl)

/-- A number without a sign is parsed as its value. -/
theorem parseU32_port (hne : port ≠ []) (hdigits : ∀ c ∈ port, c.isDigit = true) :
    (Text.parseU32 port).any (fun p => 1 ≤ p && p ≤ 65535) = true ↔
      1 ≤ Text.decimalValue port ∧ Text.decimalValue port ≤ 65535 := by
  have hsign : port.head? ≠ some '+' := by
    intro hhead
    have hcode := isDigit_code (hdigits '+' (List.mem_of_head? hhead))
    revert hcode
    decide
  unfold Text.parseU32
  rw [if_neg hsign]
  by_cases hfits : Text.decimalValue port < 2 ^ 32
  · rw [if_pos ⟨hne, List.all_eq_true.mpr hdigits, hfits⟩, Option.any_some]
    simp only [Bool.and_eq_true, decide_eq_true_eq, UInt32.le_iff_toNat_le, UInt32.toNat_ofNat',
      Nat.mod_eq_of_lt hfits]
    rfl
  · rw [if_neg fun h => hfits h.2.2, Option.any_none]
    refine iff_of_false Bool.false_ne_true fun h => hfits ?_
    exact Nat.lt_of_le_of_lt h.2 (by decide)

theorem colon_not_mem_digits (hdigits : ∀ c ∈ port, c.isDigit = true) : ':' ∉ port := by
  intro hmem
  have hcode := isDigit_code (hdigits ':' hmem)
  revert hcode
  decide

theorem splitPort_eq_ok {authority : Text} : splitPort authority = .ok host ↔
    (authority = host ∧ ':' ∉ authority) ∨
      ∃ port, authority = host ++ ':' :: port ∧ IsPort port := by
  unfold splitPort
  by_cases hcolon : ':' ∈ authority
  · obtain ⟨front, back, rfl, hback⟩ := Text.exists_eq_append_of_mem hcolon
    rw [Text.rcutAt_append hback]
    simp only [require_bind_eq_ok, pure_eq_ok, List.all_eq_true]
    constructor
    · rintro ⟨hne, hdigits, hvalue, rfl⟩
      obtain ⟨hpos, hle⟩ := (parseU32_port hne hdigits).mp hvalue
      exact Or.inr ⟨back, rfl, hne, hdigits, hpos, hle⟩
    · rintro (⟨_, hnot⟩ | ⟨port, heq, hport⟩)
      · exact absurd hcolon hnot
      · have hcut := Text.rcutAt_append (colon_not_mem_digits hport.digits) host
        rw [← heq, Text.rcutAt_append hback] at hcut
        obtain ⟨rfl, rfl⟩ := Prod.mk.inj (Option.some.inj hcut)
        exact ⟨hport.nonempty, hport.digits,
          (parseU32_port hport.nonempty hport.digits).mpr ⟨hport.pos, hport.le⟩, rfl⟩
  · rw [Text.rcutAt_of_not_mem hcolon]
    simp only [pure_eq_ok]
    constructor
    · intro heq
      exact Or.inl ⟨heq, hcolon⟩
    · rintro (⟨heq, _⟩ | ⟨port, rfl, _⟩)
      · exact heq
      · simp at hcolon

end Characters

section Hosts

variable {name authority : Text}

theorem splitOn_dot (front back : Text) :
    (front ++ '.' :: back).splitOn '.' = front.splitOn '.' ++ back.splitOn '.' :=
  List.splitOn_append_cons_self front back

theorem two_le_labels_iff : 2 ≤ (name.splitOn '.').length ↔ '.' ∈ name := by
  constructor
  · intro h
    by_contra hnot
    rw [List.splitOn_eq_singleton hnot, List.length_singleton] at h
    omega
  · intro h
    obtain ⟨front, back, rfl, _⟩ := Text.exists_eq_append_of_mem h
    rw [splitOn_dot, List.length_append]
    have hfront := List.length_pos_iff.mpr (List.splitOn_ne_nil '.' front)
    have hback := List.length_pos_iff.mpr (List.splitOn_ne_nil '.' back)
    omega

/-- With a dot in a wrong place there is an empty label. -/
theorem dots_of_labels (h : [] ∉ name.splitOn '.') :
    (Text.cutAt ['.', '.'] name).isNone = true ∧ name.head? ≠ some '.' ∧
      name.getLast? ≠ some '.' := by
  refine ⟨?_, fun hhead => h ?_, fun hlast => h ?_⟩
  · rw [Option.isNone_iff_eq_none, Option.eq_none_iff_forall_ne_some]
    rintro ⟨front, back⟩ hcut
    apply h
    rw [Text.eq_of_cutAt hcut]
    have hsplit : ('.' :: back).splitOn '.' = [] :: back.splitOn '.' := splitOn_dot [] back
    change [] ∈ (front ++ '.' :: '.' :: back).splitOn '.'
    rw [splitOn_dot, hsplit]
    simp
  · obtain ⟨rest, rfl⟩ := List.head?_eq_some_iff.mp hhead
    have hsplit : ('.' :: rest).splitOn '.' = [] :: rest.splitOn '.' := splitOn_dot [] rest
    rw [hsplit]
    exact List.mem_cons_self
  · obtain ⟨front, rfl⟩ := List.getLast?_eq_some_iff.mp hlast
    rw [splitOn_dot]
    simp

theorem isAscii_of_labels (h : ∀ label ∈ name.splitOn '.', IsLabel label) :
    ∀ c ∈ name, Text.isAscii c = true := by
  intro c hc
  rcases Text.mem_part_of_mem (c := '.') hc with rfl | ⟨label, hlabel, hmem⟩
  · decide
  · exact isAscii_of_labelChar ((h label hlabel).chars c hmem)

theorem IsHostName.nil_not_mem (h : IsHostName name) : [] ∉ name.splitOn '.' := by
  intro hmem
  have hpos := (h.label [] hmem).length_pos
  cases hpos

/-- The checks of a host without its port. -/
theorem hostChecks_iff : (name ≠ [] ∧ Text.byteLen name ≤ 253 ∧ name.contains '.' = true ∧
    (Text.cutAt ['.', '.'] name).isNone = true ∧
    (name.head? ≠ some '.' ∧ name.getLast? ≠ some '.') ∧
    ((name.splitOn '.').all fun label => label.all Char.isDigit) = false ∧
    (name.splitOn '.').forM validateLabel = .ok ()) ↔ IsHostName name := by
  simp only [forM_eq_ok, validateLabel_eq_ok, List.contains_iff_mem, ← two_le_labels_iff]
  have hnumeric : ((name.splitOn '.').all fun label => label.all Char.isDigit) = false ↔
      ∃ label ∈ name.splitOn '.', ∃ c ∈ label, c.isDigit = false := by
    simp only [List.all_eq_false, Bool.not_eq_true]
  rw [hnumeric]
  constructor
  · intro ⟨_, hlen, hlabels, _, _, hsome, hlabel⟩
    rw [Text.byteLen_of_isAscii (isAscii_of_labels hlabel)] at hlen
    exact ⟨hlen, hlabels, hlabel, hsome⟩
  · intro ⟨hlen, hlabels, hlabel, hsome⟩
    have hempty := IsHostName.nil_not_mem ⟨hlen, hlabels, hlabel, hsome⟩
    obtain ⟨hdots, hhead, hlast⟩ := dots_of_labels hempty
    refine ⟨?_, ?_, hlabels, hdots, ⟨hhead, hlast⟩, hsome, hlabel⟩
    · rintro rfl
      exact hempty List.mem_cons_self
    · rw [Text.byteLen_of_isAscii (isAscii_of_labels hlabel)]
      exact hlen

theorem hostChar (h : IsHostName name) {c : Char} (hc : c ∈ name) :
    c = '.' ∨ c.isAlphanum = true ∨ c = '-' := by
  refine (Text.mem_part_of_mem hc).imp_right ?_
  intro ⟨label, hlabel, hmem⟩
  exact (h.label label hlabel).chars c hmem

theorem hostChar_code (h : IsHostName name) {c : Char} (hc : c ∈ name) :
    (0x41 ≤ c.toNat ∧ c.toNat ≤ 0x5a) ∨ (0x61 ≤ c.toNat ∧ c.toNat ≤ 0x7a) ∨
      (0x30 ≤ c.toNat ∧ c.toNat ≤ 0x39) ∨ c.toNat = 0x2d ∨ c.toNat = 0x2e := by
  rcases hostChar h hc with rfl | hlabel
  · right; right; right; right
    rfl
  · have hcode := labelChar_code hlabel
    omega

/-- Host names and ports have no characters that end them. -/
theorem authorityChar {port : Option Text} (h : IsHostName name) (hport : ∀ p ∈ port, IsPort p)
    {c : Char} (hc : c ∈ name ++ portText port) :
    (0x41 ≤ c.toNat ∧ c.toNat ≤ 0x5a) ∨ (0x61 ≤ c.toNat ∧ c.toNat ≤ 0x7a) ∨
      (0x30 ≤ c.toNat ∧ c.toNat ≤ 0x39) ∨ c.toNat = 0x2d ∨ c.toNat = 0x2e ∨ c.toNat = 0x3a := by
  rcases List.mem_append.mp hc with hc | hc
  · have hcode := hostChar_code h hc
    omega
  · cases port with
    | none => cases hc
    | some port =>
      rcases List.mem_cons.mp hc with rfl | hc
      · right; right; right; right; right
        rfl
      · have hcode := isDigit_code ((hport port rfl).digits c hc)
        omega

theorem isUrlChar_of_authorityChar {c : Char}
    (h : (0x41 ≤ c.toNat ∧ c.toNat ≤ 0x5a) ∨ (0x61 ≤ c.toNat ∧ c.toNat ≤ 0x7a) ∨
      (0x30 ≤ c.toNat ∧ c.toNat ≤ 0x39) ∨ c.toNat = 0x2d ∨ c.toNat = 0x2e ∨ c.toNat = 0x3a) :
    IsUrlChar c := by
  refine ⟨by omega, by omega, fun hmem => ?_⟩
  have hforbidden : ∀ d ∈ forbiddenUrlChars, d.toNat = 0x3c ∨ d.toNat = 0x3e ∨
      (0x5b ≤ d.toNat ∧ d.toNat ≤ 0x60) ∨ 0x7b ≤ d.toNat := by decide
  have hcode := hforbidden c hmem
  omega

theorem colon_not_mem_host (h : IsHostName name) : ':' ∉ name := by
  intro hmem
  have hcode := hostChar_code h hmem
  revert hcode
  decide

theorem host_ne_nil (h : IsHostName name) : name ≠ [] := (hostChecks_iff.mpr h).1

theorem validateHost_eq_ok : validateHost authority = .ok () ↔
    ∃ name port, authority = name ++ portText port ∧ IsHostName name ∧
      ∀ p ∈ port, IsPort p := by
  simp only [validateHost, require_bind_eq_ok]
  simp only [bind_eq_ok (x := splitPort authority), require_bind_eq_ok, splitPort_eq_ok]
  constructor
  · intro ⟨_, _, name, hsplit, hchecks⟩
    have hname := hostChecks_iff.mp hchecks
    rcases hsplit with ⟨rfl, _⟩ | ⟨port, rfl, hport⟩
    · exact ⟨authority, none, (List.append_nil _).symm, hname, fun p hp => absurd hp (by simp)⟩
    · exact ⟨name, some port, rfl, hname, fun p hp => Option.some.inj hp ▸ hport⟩
  · rintro ⟨name, port, rfl, hname, hport⟩
    have hspace : (name ++ portText port).contains ' ' = false := by
      rw [← Bool.not_eq_true, List.contains_iff_mem]
      intro hmem
      have hcode := authorityChar hname hport hmem
      revert hcode
      decide
    refine ⟨?_, hspace, name, ?_, hostChecks_iff.mpr hname⟩
    · intro hnil
      exact host_ne_nil hname (List.append_eq_nil_iff.mp hnil).1
    · cases port with
      | none =>
        left
        rw [portText, List.append_nil]
        exact ⟨rfl, colon_not_mem_host hname⟩
      | some port => exact Or.inr ⟨port, rfl, hport port rfl⟩

end Hosts

section Domains

variable {domain : Text} {parts : DomainParts}

theorem pathOf_append {path suffix : Text} (hpath : path = [] ∨ path = ['/'])
    (hsuffix : ∀ c ∈ suffix.head?, c = '?' ∨ c = '#') : pathOf (path ++ suffix) = path := by
  have hend : pathOf suffix = [] := by
    cases suffix with
    | nil => rfl
    | cons c suffix => rcases hsuffix c rfl with rfl | rfl <;> rfl
  rcases hpath with rfl | rfl
  · exact hend
  · change '/' :: pathOf suffix = ['/']
    rw [hend]

theorem behind_path (rest : Text) :
    ∀ c ∈ (rest.dropWhile fun c => c ≠ '?' && c ≠ '#').head?, c = '?' ∨ c = '#' := by
  intro c hc
  have hhead := List.head?_dropWhile_not (fun c => c ≠ '?' && c ≠ '#') rest
  rw [Option.mem_def.mp hc] at hhead
  simpa [or_iff_not_imp_left] using hhead

theorem not_endsAuthority_of_authorityChar {c : Char}
    (h : (0x41 ≤ c.toNat ∧ c.toNat ≤ 0x5a) ∨ (0x61 ≤ c.toNat ∧ c.toNat ≤ 0x7a) ∨
      (0x30 ≤ c.toNat ∧ c.toNat ≤ 0x39) ∨ c.toNat = 0x2d ∨ c.toNat = 0x2e ∨ c.toNat = 0x3a) :
    endsAuthority c = false := by
  simp only [endsAuthority, Bool.or_eq_false_iff, decide_eq_false_iff_not]
  refine ⟨⟨ne_of_code ?_, ne_of_code ?_⟩, ne_of_code ?_⟩
  · change c.toNat ≠ 0x2f
    omega
  · change c.toNat ≠ 0x3f
    omega
  · change c.toNat ≠ 0x23
    omega

theorem DomainParts.WellFormed.splitsAs (h : parts.WellFormed) :
    SplitsAs (parts.authority ++ (parts.path ++ parts.suffix)) parts.authority
      (parts.path ++ parts.suffix) := by
  refine ⟨rfl, fun c hc => ?_, fun c hc => ?_⟩
  · exact not_endsAuthority_of_authorityChar (authorityChar h.host h.port hc)
  · rcases h.path with hpath | hpath
    · rw [hpath, List.nil_append] at hc
      rcases h.suffix c hc with rfl | rfl <;> rfl
    · rw [hpath] at hc
      obtain rfl : '/' = c := Option.some.inj hc
      rfl

theorem count_colon_le (h : parts.WellFormed) : parts.authority.count ':' ≤ 1 := by
  rw [DomainParts.authority, List.count_append,
    List.count_eq_zero_of_not_mem (colon_not_mem_host h.host)]
  cases hport : parts.port with
  | none => simp [portText]
  | some port =>
    have hdigits := colon_not_mem_digits (h.port port hport).digits
    simp [portText, List.count_eq_zero_of_not_mem hdigits]

theorem not_mem_authority (h : parts.WellFormed) {c : Char} (hc : c = '@' ∨ c = '[' ∨ c = ']') :
    c ∉ parts.authority := by
  intro hmem
  have hcode := authorityChar h.host h.port hmem
  rcases hc with rfl | rfl | rfl
  all_goals
    revert hcode
    decide

/-- The checks of the validator add up to the grammar, for addresses of at least twelve bytes. -/
theorem validateAnchorDomain_eq_ok :
    validateAnchorDomain domain = .ok () ↔ IsAnchorDomain 12 domain := by
  simp only [validateAnchorDomain, require_bind_eq_ok]
  simp only [bind_eq_ok (x := validateUrlCharacters domain), require_bind_eq_ok, validateHost_eq_ok]
  constructor
  · intro ⟨_, _, hmin, hmax, hscheme, (), hchars, _, _, _, _, hpath, name, port, hauthority, hname,
      hport⟩
    rw [validateUrlCharacters_eq_ok] at hchars
    have hascii := fun c hc => isAscii_of_isUrlChar (hchars c hc)
    rw [Text.byteLen_of_isAscii hascii] at hmin hmax
    obtain ⟨afterScheme, rfl⟩ := List.isPrefixOf_iff_prefix.mp hscheme
    rw [List.drop_left] at hpath hauthority
    have hsplit := splitsAs_self afterScheme
    rw [hsplit.drop_eq] at hpath
    let suffix := (restOf afterScheme).dropWhile fun c => c ≠ '?' && c ≠ '#'
    refine ⟨hmin, hmax, hchars, ⟨name, port, pathOf (restOf afterScheme), suffix⟩, ?_, hname, hport,
      hpath, ?_⟩
    · have hback : pathOf (restOf afterScheme) ++ suffix = restOf afterScheme :=
        List.takeWhile_append_dropWhile
      simp only [DomainParts.text, DomainParts.authority]
      rw [← hauthority, hback, ← hsplit.eq_append]
    · exact behind_path (restOf afterScheme)
  · intro ⟨hmin, hmax, hchars, parts, heq, hparts⟩
    have hlen := Text.byteLen_of_isAscii fun c hc => isAscii_of_isUrlChar (hchars c hc)
    have htrim : Text.trimMatches isWhitespace domain = domain :=
      Text.trimMatches_of_forall fun c hc => not_isWhitespace_of_isUrlChar (hchars c hc)
    have hne : parts.authority ≠ [] := fun hnil =>
      host_ne_nil hparts.host (List.append_eq_nil_iff.mp hnil).1
    have hdrop : domain.drop httpsPrefix.length =
        parts.authority ++ (parts.path ++ parts.suffix) := by
      rw [heq, DomainParts.text, List.drop_left]
    have hnot {c : Char} (hc : c = '@' ∨ c = '[' ∨ c = ']') : c ∉ parts.authority :=
      not_mem_authority hparts hc
    rw [htrim, hlen, hdrop, hparts.splitsAs.authorityOf_eq, List.drop_left,
      pathOf_append hparts.path hparts.suffix]
    refine ⟨?_, rfl, hmin, hmax, ?_, (), validateUrlCharacters_eq_ok.mpr hchars, ?_, hne, ?_, ?_,
      hparts.path, parts.host, parts.port, rfl, hparts.host, hparts.port⟩
    · rintro rfl
      cases hmin
    · rw [heq, DomainParts.text, List.isPrefixOf_iff_prefix]
      exact List.prefix_append _ _
    · exact fun hnil => hne (List.append_eq_nil_iff.mp hnil).1
    · rw [← Bool.not_eq_true, List.contains_iff_mem]
      exact hnot (Or.inl rfl)
    · intro ⟨_, hcount⟩
      exact Nat.not_lt.mpr (count_colon_le hparts) hcount

/-- Two labels of one character each and a dot between them. -/
theorem isHostName_three {a b c : Char} : IsHostName [a, b, c] ↔
    b = '.' ∧ a.isAlphanum = true ∧ c.isAlphanum = true ∧ ¬ (a.isDigit = true ∧ c.isDigit = true) := by
  have hlabel {d : Char} : IsLabel [d] ↔ d.isAlphanum = true := by
    constructor
    · intro h
      exact (h.chars d List.mem_cons_self).resolve_right fun heq => h.first (congrArg some heq)
    · intro h
      have hne : d ≠ '-' := by
        rintro rfl
        revert h
        decide
      exact ⟨by simp, by simp, by simp [h], by simpa using hne, by simpa using hne⟩
  have hsplit {a c : Char} (ha : a ≠ '.') (hc : c ≠ '.') : [a, '.', c].splitOn '.' = [[a], [c]] := by
    have hfirst : '.' ∉ [a] := fun hmem => ha (List.mem_singleton.mp hmem).symm
    have hlast : '.' ∉ [c] := fun hmem => hc (List.mem_singleton.mp hmem).symm
    change ([a] ++ '.' :: [c]).splitOn '.' = _
    rw [splitOn_dot, List.splitOn_eq_singleton hfirst, List.splitOn_eq_singleton hlast]
    rfl
  have hdot {d : Char} (h : d.isAlphanum = true) : d ≠ '.' := by
    rintro rfl
    revert h
    decide
  constructor
  · intro h
    obtain ⟨_, hfirst, hlast⟩ := dots_of_labels h.nil_not_mem
    have ha : a ≠ '.' := fun heq => hfirst (congrArg some heq)
    have hc : c ≠ '.' := fun heq => hlast (congrArg some heq)
    have hmem : '.' ∈ [a, b, c] := two_le_labels_iff.mp h.labels
    obtain rfl : b = '.' := by
      simp only [List.mem_cons, List.not_mem_nil, or_false] at hmem
      rcases hmem with heq | heq | heq
      · exact absurd heq.symm ha
      · exact heq.symm
      · exact absurd heq.symm hc
    have hboth := h.label
    have hsome := h.not_numeric
    rw [hsplit ha hc] at hboth hsome
    refine ⟨rfl, hlabel.mp (hboth [a] (by simp)), hlabel.mp (hboth [c] (by simp)), ?_⟩
    intro hdigits
    simp [hdigits.1, hdigits.2] at hsome
  · rintro ⟨rfl, ha, hc, hdigits⟩
    have hlabels := hsplit (hdot ha) (hdot hc)
    refine ⟨by simp, ?_, ?_, ?_⟩
    · rw [hlabels]
      exact le_refl _
    · rw [hlabels]
      simp [hlabel, ha, hc]
    · rw [hlabels]
      simp only [List.mem_cons, List.not_mem_nil, or_false, exists_eq_or_imp, exists_eq_left]
      by_cases hda : a.isDigit = true
      · right
        simpa [hda] using hdigits
      · left
        simpa using hda

end Domains

/-- An address whose host has two labels of one character, and nothing behind it. -/
def ShortestDomain (domain : Text) : Prop :=
  ∃ a c, domain = httpsPrefix ++ [a, '.', c] ∧ a.isAlphanum = true ∧ c.isAlphanum = true ∧
    ¬ (a.isDigit = true ∧ c.isDigit = true)

/-- The validator takes the address exactly when it is in the grammar, and what it takes has neither
credentials nor brackets nor a second colon in its authority. -/
structure AcceptsGrammar (domain : Text) : Prop where
  accepts : validateAnchorDomain domain = .ok () ↔ IsAnchorDomain 10 domain
  authority : validateAnchorDomain domain = .ok () →
    let authority := authorityOf (domain.drop httpsPrefix.length)
    '@' ∉ authority ∧ '[' ∉ authority ∧ ']' ∉ authority ∧ authority.count ':' ≤ 1

theorem isAnchorDomain_of_le {m n : ℕ} {domain : Text} (h : IsAnchorDomain m domain)
    (hlen : n ≤ domain.length) : IsAnchorDomain n domain :=
  ⟨hlen, h.length_le, h.chars, h.parts⟩

theorem short_iff {domain : Text} :
    IsAnchorDomain 10 domain ∧ domain.length < 12 ↔ ShortestDomain domain := by
  constructor
  · intro ⟨h, hlen⟩
    obtain ⟨⟨host, port, path, suffix⟩, rfl, hparts⟩ := h.parts
    obtain ⟨_, hfirst, hlast⟩ := dots_of_labels hparts.host.nil_not_mem
    have hdot : '.' ∈ host := two_le_labels_iff.mp hparts.host.labels
    simp only [DomainParts.text, DomainParts.authority, List.length_append] at hlen
    have hscheme : httpsPrefix.length = 8 := rfl
    have hthree : 3 ≤ host.length := by
      obtain ⟨front, back, rfl⟩ := List.append_of_mem hdot
      cases front with
      | nil => exact absurd rfl hfirst
      | cons a front =>
        cases back with
        | nil => exact absurd List.getLast?_concat hlast
        | cons b back =>
          simp only [List.length_append, List.length_cons]
          omega
    have hport : port = none := by
      cases port with
      | none => rfl
      | some p =>
        have hne := List.length_pos_iff.mpr (hparts.port p rfl).nonempty
        simp only [portText, List.length_cons] at hlen
        omega
    obtain rfl : path = [] := List.length_eq_zero_iff.mp (by omega)
    obtain rfl : suffix = [] := List.length_eq_zero_iff.mp (by omega)
    subst hport
    obtain ⟨a, b, c, rfl⟩ := List.length_eq_three.mp (by omega : host.length = 3)
    obtain ⟨rfl, ha, hc, hdigits⟩ := isHostName_three.mp hparts.host
    exact ⟨a, c, rfl, ha, hc, hdigits⟩
  · rintro ⟨a, c, rfl, ha, hc, hdigits⟩
    have hhost : IsHostName [a, '.', c] := isHostName_three.mpr ⟨rfl, ha, hc, hdigits⟩
    have hlength : (httpsPrefix ++ [a, '.', c]).length = 11 := rfl
    have hnone : ∀ p ∈ (none : Option Text), IsPort p := fun p hp => absurd hp (by simp)
    refine ⟨⟨by omega, by omega, ?_, ⟨[a, '.', c], none, [], []⟩, rfl, hhost, hnone, Or.inl rfl, ?_⟩,
      by omega⟩
    · intro d hd
      rcases List.mem_append.mp hd with hd | hd
      · have hscheme : ∀ d ∈ httpsPrefix, IsUrlChar d := by decide
        exact hscheme d hd
      · have hcode := authorityChar hhost hnone (List.mem_append_left _ hd)
        exact isUrlChar_of_authorityChar hcode
    · intro d hd
      cases hd

/-- The validator and the grammar agree on every address but the shortest ones. -/
theorem acceptsGrammar_iff (domain : Text) : AcceptsGrammar domain ↔ ¬ ShortestDomain domain := by
  rw [← short_iff]
  constructor
  · intro h ⟨hgrammar, hlen⟩
    have hlong := (validateAnchorDomain_eq_ok.mp (h.accepts.mpr hgrammar)).length_ge
    omega
  · intro hnot
    refine ⟨⟨fun h => ?_, fun h => ?_⟩, fun h => ?_⟩
    · have hgrammar := validateAnchorDomain_eq_ok.mp h
      have hlong := hgrammar.length_ge
      exact isAnchorDomain_of_le hgrammar (by omega)
    · rw [validateAnchorDomain_eq_ok]
      exact isAnchorDomain_of_le h (Nat.not_lt.mp fun hlen => hnot ⟨h, hlen⟩)
    · obtain ⟨parts, rfl, hparts⟩ := (validateAnchorDomain_eq_ok.mp h).parts
      rw [DomainParts.text, List.drop_left]
      dsimp only
      rw [hparts.splitsAs.authorityOf_eq]
      exact ⟨not_mem_authority hparts (Or.inl rfl), not_mem_authority hparts (Or.inr (Or.inl rfl)),
        not_mem_authority hparts (Or.inr (Or.inr rfl)), count_colon_le hparts⟩

/-- An address that the grammar allows and the validator refuses. -/
theorem shortest_domain_refused : ¬ AcceptsGrammar "https://a.b".toList := by
  intro h
  have hshort : ShortestDomain "https://a.b".toList := ⟨'a', 'b', by decide, by decide⟩
  have hlong := (validateAnchorDomain_eq_ok.mp (h.accepts.mpr (short_iff.mpr hshort).1)).length_ge
  revert hlong
  decide

end AnchorKit
