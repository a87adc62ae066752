import AnchorKit.HostFilters

/-!
# How canonical the normal form is

What the normalization of a URL takes away may hide something else that it would take away. The
normal form of a URL is compared with its own one, and with that of the other ways to write the URL.
-/

namespace AnchorKit

open Fallible

def normalForm (schemeLower authorityLower rest : Text) : Text :=
  schemeLower ++ schemeSeparator ++ normalizeAuthority schemeLower authorityLower ++
    if rest = ['/'] then [] else rest

def ReadsAs (url scheme authority rest : Text) : Prop :=
  ∃ afterScheme, Text.cutAt schemeSeparator (Text.trimMatches isWhitespace url) =
    some (scheme, afterScheme) ∧ authority = authorityOf afterScheme ∧ rest = restOf afterScheme

/-- The authority ends in the default port twice. -/
def DoublePort (url : Text) : Prop :=
  ∃ scheme authority rest, ReadsAs url scheme authority rest ∧
    ∃ portSuffix ∈ defaultPortSuffix (Text.asciiLower scheme),
      portSuffix ++ portSuffix <:+ Text.asciiLower authority

/-- Behind the authority there is at most a bare slash, and without it and the default port
there would be whitespace at the end. -/
def InnerSpace (url : Text) : Prop :=
  ∃ scheme authority rest, ReadsAs url scheme authority rest ∧ (rest = [] ∨ rest = ['/']) ∧
    ∃ c ∈ (normalizeAuthority (Text.asciiLower scheme) (Text.asciiLower authority)).getLast?,
      isWhitespace c = true

def IdempotentAt (url : Text) : Prop :=
  ∀ v, normalizeUrl url = .ok v → normalizeUrl v = .ok v

def StableAt (url : Text) (policy : UrlFilterPolicy) : Prop :=
  ∀ v, normalizeAndValidate url policy = .ok v →
    validateAnchorDomain v = .ok () ∧ normalizeAndValidate v policy = .ok v

/-- What the different spellings of a URL share: scheme and authority in lower case, and what comes
behind them but for a bare slash. -/
structure UrlCore where
  scheme : Text
  authority : Text
  tail : Text
  colon_not_mem : ':' ∉ scheme
  scheme_start : ∀ c ∈ scheme.head?, isWhitespace c = false
  inside : ∀ c ∈ authority, endsAuthority c = false
  behind : ∀ c ∈ tail.head?, endsAuthority c = true

/-- One way to write a URL: with some letter case, perhaps with the default port and with the slash
of the root, and with whitespace around it. -/
structure Spelling (core : UrlCore) where
  before : Text
  scheme : Text
  authority : Text
  port : Bool
  slash : Bool
  after : Text
  scheme_eq : Text.asciiLower scheme = core.scheme
  authority_eq : Text.asciiLower authority = core.authority
  port_default : port = true → (defaultPortSuffix core.scheme).isSome = true
  slash_root : slash = true → core.tail.head? ≠ some '/'
  before_blank : ∀ c ∈ before, isWhitespace c = true
  after_blank : ∀ c ∈ after, isWhitespace c = true

namespace Spelling

variable {core : UrlCore}

def portText (p : Spelling core) : Text :=
  if p.port then (defaultPortSuffix core.scheme).getD [] else []

def slashText (p : Spelling core) : Text := if p.slash then ['/'] else []

def text (p : Spelling core) : Text :=
  p.before ++ (p.scheme ++ (schemeSeparator ++
    (p.authority ++ (p.portText ++ (p.slashText ++ core.tail))))) ++ p.after

def SpaceEnds (core : UrlCore) : Prop := ∃ c ∈ core.authority.getLast?, isWhitespace c = true

/-- The authority ends in the default port, without the port that a spelling adds. -/
def PortEnds (core : UrlCore) : Prop :=
  ∃ portSuffix ∈ defaultPortSuffix core.scheme, portSuffix <:+ core.authority

/-- Two spellings of a URL that make no difference: a query or a fragment behind a slash, a second
default port and whitespace in front of a port or slash do. -/
structure Agrees (p q : Spelling core) : Prop where
  slash : core.tail ≠ [] → p.slash = q.slash
  port : PortEnds core → p.port = q.port
  space : core.tail = [] → SpaceEnds core →
    (p.port = true ∨ p.slash = true ↔ q.port = true ∨ q.slash = true)

end Spelling

def SameForm (url url' : Text) : Prop := ∃ v, normalizeUrl url = .ok v ∧ normalizeUrl url' = .ok v

section Once

variable {url v scheme authority rest schemeLower authorityLower : Text}

theorem isWhitespace_toLower (c : Char) : isWhitespace c.toLower = isWhitespace c := by
  unfold isWhitespace
  rw [Text.toNat_toLower]
  split
  · rename_i hupper
    rw [Bool.eq_iff_iff]
    simp
    omega
  · rfl

theorem ReadsAs.unique {scheme' authority' rest' : Text} (h : ReadsAs url scheme authority rest)
    (h' : ReadsAs url scheme' authority' rest') :
    scheme' = scheme ∧ authority' = authority ∧ rest' = rest := by
  obtain ⟨afterScheme, hcut, rfl, rfl⟩ := h
  obtain ⟨afterScheme', hcut', rfl, rfl⟩ := h'
  rw [hcut] at hcut'
  obtain ⟨rfl, rfl⟩ := Prod.mk.inj (Option.some.inj hcut')
  exact ⟨rfl, rfl, rfl⟩

theorem normalizeUrl_eq_ok : normalizeUrl url = .ok v ↔
    ∃ scheme authority rest, ReadsAs url scheme authority rest ∧
      v = normalForm (Text.asciiLower scheme) (Text.asciiLower authority) rest := by
  simp only [normalizeUrl, require_bind_eq_ok, expect_bind_eq_ok, pure_eq_ok]
  constructor
  · rintro ⟨_, ⟨scheme, afterScheme⟩, hcut, rfl⟩
    exact ⟨scheme, _, _, ⟨afterScheme, hcut, rfl, rfl⟩, rfl⟩
  · rintro ⟨scheme, _, _, ⟨afterScheme, hcut, rfl, rfl⟩, rfl⟩
    refine ⟨?_, ⟨scheme, afterScheme⟩, hcut, rfl⟩
    intro hnil
    rw [hnil] at hcut
    cases hcut

theorem ReadsAs.splitsAs (h : ReadsAs url scheme authority rest) :
    SplitsAs (authority ++ rest) authority rest := by
  obtain ⟨afterScheme, _, rfl, rfl⟩ := h
  have hself := splitsAs_self afterScheme
  exact ⟨rfl, hself.inside, hself.behind⟩

theorem ReadsAs.trim_eq (h : ReadsAs url scheme authority rest) :
    Text.trimMatches isWhitespace url = scheme ++ (schemeSeparator ++ (authority ++ rest)) := by
  obtain ⟨afterScheme, hcut, rfl, rfl⟩ := h
  rw [Text.eq_of_cutAt hcut, ← (splitsAs_self afterScheme).eq_append]

/-! ### The authority -/

theorem mem_defaultPortSuffix {portSuffix : Text} (h : portSuffix ∈ defaultPortSuffix schemeLower) :
    portSuffix = ":443".toList ∨ portSuffix = ":80".toList := by
  unfold defaultPortSuffix at h
  split at h
  · exact Or.inl (Option.some.inj h).symm
  split at h
  · exact Or.inr (Option.some.inj h).symm
  · cases h

theorem portSuffix_ne_nil {portSuffix : Text} (h : portSuffix ∈ defaultPortSuffix schemeLower) :
    portSuffix ≠ [] := by
  rcases mem_defaultPortSuffix h with rfl | rfl
  · decide
  · decide

theorem portSuffix_char {portSuffix : Text} (h : portSuffix ∈ defaultPortSuffix schemeLower) :
    ∀ c ∈ portSuffix, endsAuthority c = false ∧ isWhitespace c = false := by
  rcases mem_defaultPortSuffix h with rfl | rfl
  · decide
  · decide

theorem stripEnding_append (ending front : Text) :
    stripEnding ending (front ++ ending) = some front := by
  have hlength : (front ++ ending).length - ending.length = front.length := by
    rw [List.length_append, Nat.add_sub_cancel]
  rw [stripEnding, if_pos (List.isSuffixOf_iff_suffix.mpr (List.suffix_append _ _)), hlength,
    List.take_left]

theorem stripEnding_eq_none {ending t : Text} (h : ¬ ending <:+ t) : stripEnding ending t = none :=
  if_neg (mt List.isSuffixOf_iff_suffix.mp h)

theorem normalizeAuthority_append {portSuffix : Text}
    (h : portSuffix ∈ defaultPortSuffix schemeLower) (front : Text) :
    normalizeAuthority schemeLower (front ++ portSuffix) = front := by
  rw [normalizeAuthority, Option.mem_def.mp h]
  dsimp only
  rw [stripEnding_append, Option.getD_some]

theorem normalizeAuthority_of_not
    (h : ∀ portSuffix ∈ defaultPortSuffix schemeLower, ¬ portSuffix <:+ authorityLower) :
    normalizeAuthority schemeLower authorityLower = authorityLower := by
  unfold normalizeAuthority
  cases hport : defaultPortSuffix schemeLower with
  | none => rfl
  | some portSuffix =>
    dsimp only
    rw [stripEnding_eq_none (h portSuffix hport), Option.getD_none]

/-- The authority loses its default port, or it has none. -/
theorem normalizeAuthority_cases (schemeLower authorityLower : Text) :
    (∃ portSuffix ∈ defaultPortSuffix schemeLower,
      authorityLower = normalizeAuthority schemeLower authorityLower ++ portSuffix) ∨
      normalizeAuthority schemeLower authorityLower = authorityLower ∧
        ∀ portSuffix ∈ defaultPortSuffix schemeLower, ¬ portSuffix <:+ authorityLower := by
  by_cases h : ∃ portSuffix ∈ defaultPortSuffix schemeLower, portSuffix <:+ authorityLower
  · obtain ⟨portSuffix, hport, front, rfl⟩ := h
    exact Or.inl ⟨portSuffix, hport, by rw [normalizeAuthority_append hport]⟩
  · have hnot : ∀ portSuffix ∈ defaultPortSuffix schemeLower, ¬ portSuffix <:+ authorityLower :=
      fun portSuffix hport hsuffix => h ⟨portSuffix, hport, hsuffix⟩
    exact Or.inr ⟨normalizeAuthority_of_not hnot, hnot⟩

theorem prefix_normalizeAuthority (schemeLower authorityLower : Text) :
    normalizeAuthority schemeLower authorityLower <+: authorityLower := by
  rcases normalizeAuthority_cases schemeLower authorityLower with ⟨portSuffix, _, heq⟩ | ⟨heq, _⟩
  · exact ⟨portSuffix, heq.symm⟩
  · rw [heq]

theorem normalizeAuthority_eq_self : normalizeAuthority schemeLower authorityLower = authorityLower ↔
    ∀ portSuffix ∈ defaultPortSuffix schemeLower, ¬ portSuffix <:+ authorityLower := by
  refine ⟨?_, normalizeAuthority_of_not⟩
  rintro heq portSuffix hport ⟨front, rfl⟩
  rw [normalizeAuthority_append hport] at heq
  exact portSuffix_ne_nil hport (List.self_eq_append_right.mp heq)

/-- What is left has a default port exactly when there were two. -/
theorem normalizeAuthority_normalizeAuthority :
    normalizeAuthority schemeLower (normalizeAuthority schemeLower authorityLower) =
      normalizeAuthority schemeLower authorityLower ↔
      ∀ portSuffix ∈ defaultPortSuffix schemeLower,
        ¬ portSuffix ++ portSuffix <:+ authorityLower := by
  rw [normalizeAuthority_eq_self]
  rcases normalizeAuthority_cases schemeLower authorityLower with
    ⟨portSuffix, hport, heq⟩ | ⟨heq, hnot⟩
  · have hsame {other : Text} (hother : other ∈ defaultPortSuffix schemeLower) :
        other = portSuffix := Option.mem_unique hother hport
    have hiff : portSuffix ++ portSuffix <:+ authorityLower ↔
        portSuffix <:+ normalizeAuthority schemeLower authorityLower := by
      conv_lhs => rw [heq]
      exact List.suffix_append_self_iff
    constructor
    · intro h other hother
      rw [hsame hother, hiff]
      exact h portSuffix hport
    · intro h other hother
      rw [hsame hother, ← hiff]
      exact h portSuffix hport
  · rw [heq]
    refine iff_of_true hnot fun portSuffix hport hdouble => ?_
    exact hnot portSuffix hport ((List.suffix_append _ _).trans hdouble)

/-! ### Whitespace -/

theorem ReadsAs.ends (h : ReadsAs url scheme authority rest) :
    (∀ c ∈ scheme.head?, isWhitespace c = false) ∧ ∀ c ∈ rest.getLast?, isWhitespace c = false := by
  obtain ⟨hhead, hlast⟩ :=
    Text.trimMatches_eq_self.mp (Text.trimMatches_trimMatches isWhitespace url)
  rw [h.trim_eq] at hhead hlast
  refine ⟨fun c hc => hhead c ?_, fun c hc => hlast c ?_⟩
  · rw [Option.mem_def] at hc ⊢
    rw [List.head?_append, hc]
    rfl
  · rw [Option.mem_def] at hc ⊢
    rw [List.getLast?_append, List.getLast?_append, List.getLast?_append, hc]
    rfl

theorem getLast?_normalForm (schemeLower authorityLower rest : Text) :
    (normalForm schemeLower authorityLower rest).getLast? =
      if rest = [] ∨ rest = ['/'] then
        (normalizeAuthority schemeLower authorityLower).getLast?.or (some '/')
      else rest.getLast? := by
  have hseparator : (schemeLower ++ schemeSeparator).getLast? = some '/' := by
    rw [List.getLast?_append]
    rfl
  unfold normalForm
  by_cases hrest : rest = [] ∨ rest = ['/']
  · have hnil : (if rest = ['/'] then [] else rest) = ([] : Text) := by
      rcases hrest with rfl | rfl
      · rfl
      · rfl
    rw [if_pos hrest, hnil, List.append_nil, List.getLast?_append, hseparator]
  · rw [not_or] at hrest
    rw [if_neg (not_or.mpr hrest), if_neg hrest.2, List.getLast?_append]
    cases hlast : rest.getLast? with
    | none => exact absurd (List.getLast?_eq_none_iff.mp hlast) hrest.1
    | some c => rfl

/-- The normal form is trimmed exactly when no whitespace comes to its end. -/
theorem ReadsAs.trim_normalForm (h : ReadsAs url scheme authority rest) :
    Text.trimMatches isWhitespace
        (normalForm (Text.asciiLower scheme) (Text.asciiLower authority) rest) =
      normalForm (Text.asciiLower scheme) (Text.asciiLower authority) rest ↔
      (rest = [] ∨ rest = ['/'] → ∀ c ∈ (normalizeAuthority (Text.asciiLower scheme)
        (Text.asciiLower authority)).getLast?, isWhitespace c = false) := by
  obtain ⟨hhead, hlast⟩ := h.ends
  have hfront : ∀ c ∈ (normalForm (Text.asciiLower scheme) (Text.asciiLower authority) rest).head?,
      isWhitespace c = false := by
    intro c hc
    unfold normalForm at hc
    rw [List.append_assoc, List.append_assoc, List.head?_append, Text.asciiLower, List.head?_map]
      at hc
    cases hscheme : scheme.head? with
    | none =>
      rw [hscheme] at hc
      obtain rfl := Option.some.inj hc
      rfl
    | some d =>
      rw [hscheme] at hc
      obtain rfl := Option.some.inj hc
      rw [isWhitespace_toLower]
      exact hhead d hscheme
  rw [Text.trimMatches_eq_self, and_iff_right hfront, getLast?_normalForm]
  by_cases hrest : rest = [] ∨ rest = ['/']
  · rw [if_pos hrest, forall_prop_of_true hrest]
    cases normalizeAuthority (Text.asciiLower scheme) (Text.asciiLower authority) |>.getLast? with
    | none =>
      have hslash : ∀ c ∈ (none : Option Char).or (some '/'), isWhitespace c = false := by
        intro c hc
        obtain rfl := Option.some.inj hc
        rfl
      exact iff_of_true hslash (by simp)
    | some c => exact Iff.rfl
  · rw [if_neg hrest]
    exact iff_of_true hlast fun h => absurd h hrest

/-! ### Normalizing twice -/

theorem endsAuthority_toLower (c : Char) : endsAuthority c.toLower = endsAuthority c := by
  have hkept {d : Char} (hd : d.toNat < 0x41) : c.toLower = d ↔ c = d :=
    Text.toLower_eq_iff (Or.inl hd)
  have hslash : c.toLower = '/' ↔ c = '/' := hkept (by decide)
  have hquery : c.toLower = '?' ↔ c = '?' := hkept (by decide)
  have hfragment : c.toLower = '#' ↔ c = '#' := hkept (by decide)
  unfold endsAuthority
  rw [decide_eq_decide.mpr hslash, decide_eq_decide.mpr hquery, decide_eq_decide.mpr hfragment]

theorem not_endsAuthority_normalizeAuthority (h : ∀ c ∈ authority, endsAuthority c = false) :
    ∀ c ∈ normalizeAuthority schemeLower (Text.asciiLower authority), endsAuthority c = false := by
  intro c hc
  obtain ⟨d, hd, rfl⟩ := List.mem_map.mp ((prefix_normalizeAuthority _ _).subset hc)
  rw [endsAuthority_toLower]
  exact h d hd

theorem splitsAs_normalForm (h : SplitsAs (authority ++ rest) authority rest) (schemeLower : Text) :
    SplitsAs (normalizeAuthority schemeLower (Text.asciiLower authority) ++
        if rest = ['/'] then [] else rest)
      (normalizeAuthority schemeLower (Text.asciiLower authority))
      (if rest = ['/'] then [] else rest) := by
  refine ⟨rfl, not_endsAuthority_normalizeAuthority h.inside, fun c hc => ?_⟩
  split at hc
  · cases hc
  · exact h.behind c hc

theorem ReadsAs.readsAs_normalForm (h : ReadsAs url scheme authority rest)
    (htrim : Text.trimMatches isWhitespace
        (normalForm (Text.asciiLower scheme) (Text.asciiLower authority) rest) =
      normalForm (Text.asciiLower scheme) (Text.asciiLower authority) rest) :
    ReadsAs (normalForm (Text.asciiLower scheme) (Text.asciiLower authority) rest)
      (Text.asciiLower scheme)
      (normalizeAuthority (Text.asciiLower scheme) (Text.asciiLower authority))
      (if rest = ['/'] then [] else rest) := by
  have hsplit := splitsAs_normalForm h.splitsAs (Text.asciiLower scheme)
  obtain ⟨afterScheme, hcut, _, _⟩ := h
  refine ⟨_, ?_, hsplit.authorityOf_eq.symm, hsplit.restOf_eq.symm⟩
  have hform (front middle back : Text) :
      front ++ schemeSeparator ++ middle ++ back =
        front ++ (schemeSeparator ++ (middle ++ back)) := by
    simp
  rw [htrim, normalForm, hform]
  exact Text.cutAt_asciiLower (by decide) hcut _

theorem length_le_of_normalizeUrl (h : normalizeUrl url = .ok v) :
    v.length ≤ (Text.trimMatches isWhitespace url).length := by
  obtain ⟨scheme, authority, rest, hreads, rfl⟩ := normalizeUrl_eq_ok.mp h
  have hauthority := (prefix_normalizeAuthority (Text.asciiLower scheme)
    (Text.asciiLower authority)).length_le
  have hrest : (if rest = ['/'] then [] else rest).length ≤ rest.length := by
    split
    · exact Nat.zero_le _
    · exact le_rfl
  rw [hreads.trim_eq, normalForm]
  simp only [List.length_append, Text.asciiLower, List.length_map] at hauthority ⊢
  omega

theorem asciiLower_normalizeAuthority (schemeLower authority : Text) :
    Text.asciiLower (normalizeAuthority schemeLower (Text.asciiLower authority)) =
      normalizeAuthority schemeLower (Text.asciiLower authority) := by
  have htake := List.prefix_iff_eq_take.mp
    (prefix_normalizeAuthority schemeLower (Text.asciiLower authority))
  rw [htake, Text.asciiLower, Text.asciiLower, ← List.map_take]
  exact Text.asciiLower_asciiLower _

theorem ReadsAs.normalizeUrl_normalForm (h : ReadsAs url scheme authority rest)
    (htrim : Text.trimMatches isWhitespace
        (normalForm (Text.asciiLower scheme) (Text.asciiLower authority) rest) =
      normalForm (Text.asciiLower scheme) (Text.asciiLower authority) rest) :
    normalizeUrl (normalForm (Text.asciiLower scheme) (Text.asciiLower authority) rest) =
        .ok (normalForm (Text.asciiLower scheme) (Text.asciiLower authority) rest) ↔
      normalizeAuthority (Text.asciiLower scheme) (normalizeAuthority
        (Text.asciiLower scheme) (Text.asciiLower authority)) =
        normalizeAuthority (Text.asciiLower scheme) (Text.asciiLower authority) := by
  have hreads := h.readsAs_normalForm htrim
  have hrest : (if (if rest = ['/'] then [] else rest) = ['/'] then []
      else if rest = ['/'] then [] else rest) = if rest = ['/'] then [] else rest := by
    by_cases hslash : rest = ['/']
    · rw [if_pos hslash]
      rfl
    · rw [if_neg hslash, if_neg hslash]
  have hagain : normalizeUrl
      (normalForm (Text.asciiLower scheme) (Text.asciiLower authority) rest) =
      .ok (normalForm (Text.asciiLower scheme)
        (normalizeAuthority (Text.asciiLower scheme) (Text.asciiLower authority))
        (if rest = ['/'] then [] else rest)) := by
    refine normalizeUrl_eq_ok.mpr ⟨_, _, _, hreads, ?_⟩
    rw [Text.asciiLower_asciiLower, asciiLower_normalizeAuthority]
  rw [hagain, Except.ok.injEq, normalForm, normalForm, hrest,
    List.append_left_inj, List.append_right_inj]

theorem trim_eq_of_normalizeUrl (h : normalizeUrl v = .ok v) :
    Text.trimMatches isWhitespace v = v := by
  have hsublist : (Text.trimMatches isWhitespace v).Sublist v :=
    (List.rdropWhile_prefix _ _).sublist.trans (List.dropWhile_suffix _).sublist
  exact hsublist.eq_of_length_le (length_le_of_normalizeUrl h)

/-- The normal form of a URL is its own normal form unless something to take away shows up. -/
theorem normalizeUrl_twice_iff (h : normalizeUrl url = .ok v) :
    normalizeUrl v = .ok v ↔ ¬ DoublePort url ∧ ¬ InnerSpace url := by
  obtain ⟨scheme, authority, rest, hreads, rfl⟩ := normalizeUrl_eq_ok.mp h
  have hdouble : ¬ DoublePort url ↔ normalizeAuthority (Text.asciiLower scheme) (normalizeAuthority
      (Text.asciiLower scheme) (Text.asciiLower authority)) =
      normalizeAuthority (Text.asciiLower scheme) (Text.asciiLower authority) := by
    rw [normalizeAuthority_normalizeAuthority]
    constructor
    · intro hnone portSuffix hport hends
      exact hnone ⟨scheme, authority, rest, hreads, portSuffix, hport, hends⟩
    · rintro hall ⟨scheme', authority', rest', hreads', portSuffix, hport, hends⟩
      obtain ⟨rfl, rfl, rfl⟩ := hreads.unique hreads'
      exact hall portSuffix hport hends
  have hinner : ¬ InnerSpace url ↔ Text.trimMatches isWhitespace
      (normalForm (Text.asciiLower scheme) (Text.asciiLower authority) rest) =
      normalForm (Text.asciiLower scheme) (Text.asciiLower authority) rest := by
    rw [hreads.trim_normalForm]
    constructor
    · intro hnone hrest c hc
      rw [Bool.eq_false_iff]
      exact fun hspace => hnone ⟨scheme, authority, rest, hreads, hrest, c, hc, hspace⟩
    · rintro hall ⟨scheme', authority', rest', hreads', hrest, c, hc, hspace⟩
      obtain ⟨rfl, rfl, rfl⟩ := hreads.unique hreads'
      rw [hall hrest c hc] at hspace
      cases hspace
  rw [hdouble, hinner]
  constructor
  · intro htwice
    have htrim := trim_eq_of_normalizeUrl htwice
    exact ⟨(hreads.normalizeUrl_normalForm htrim).mp htwice, htrim⟩
  · intro ⟨hport, htrim⟩
    exact (hreads.normalizeUrl_normalForm htrim).mpr hport

theorem idempotentAt_iff : IdempotentAt url ↔ ¬ DoublePort url ∧ ¬ InnerSpace url := by
  cases hurl : normalizeUrl url with
  | ok v =>
    rw [← normalizeUrl_twice_iff hurl]
    constructor
    · exact fun h => h v hurl
    · rintro h _ hv
      obtain rfl := Except.ok.inj (hurl.symm.trans hv)
      exact h
  | error e =>
    have hnone {scheme authority rest : Text} : ¬ ReadsAs url scheme authority rest := by
      intro hreads
      have hok := normalizeUrl_eq_ok.mpr ⟨_, _, _, hreads, rfl⟩
      rw [hurl] at hok
      cases hok
    refine iff_of_true ?_ ⟨?_, ?_⟩
    · intro v hv
      rw [hurl] at hv
      cases hv
    · rintro ⟨_, _, _, hreads, _⟩
      exact hnone hreads
    · rintro ⟨_, _, _, hreads, _⟩
      exact hnone hreads

/-- Whitespace is refused by the validation anyway. -/
theorem not_innerSpace_of_validate (h : normalizeUrl url = .ok v)
    (hvalid : validateAnchorDomain v = .ok ()) : ¬ InnerSpace url := by
  rintro ⟨scheme, authority, rest, hreads, _, c, hc, hspace⟩
  obtain ⟨scheme', authority', rest', hreads', rfl⟩ := normalizeUrl_eq_ok.mp h
  obtain ⟨rfl, rfl, rfl⟩ := hreads.unique hreads'
  obtain ⟨_, _, hchars, _⟩ := validateAnchorDomain_eq_ok.mp hvalid
  have hmem : c ∈ normalForm (Text.asciiLower scheme') (Text.asciiLower authority') rest' :=
    List.mem_append_left _ (List.mem_append_right _ (List.mem_of_mem_getLast? hc))
  rw [not_isWhitespace_of_isUrlChar (hchars c hmem)] at hspace
  cases hspace

theorem normalizeAndValidate_eq_ok {policy : UrlFilterPolicy} :
    normalizeAndValidate url policy = .ok v ↔
      normalizeUrl url = .ok v ∧ validateAnchorDomain v = .ok () ∧ policy.check v = .ok () := by
  simp only [normalizeAndValidate, bind_eq_ok, pure_eq_ok]
  constructor
  · rintro ⟨_, hurl, _, hvalid, _, hcheck, rfl⟩
    exact ⟨hurl, hvalid, hcheck⟩
  · rintro ⟨hurl, hvalid, hcheck⟩
    exact ⟨v, hurl, (), hvalid, (), hcheck, rfl⟩

theorem stableAt_iff {policy : UrlFilterPolicy} : StableAt url policy ↔
    (Succeeds (normalizeAndValidate url policy) → ¬ DoublePort url) := by
  have hone (v : Text) (hv : normalizeAndValidate url policy = .ok v) :
      (validateAnchorDomain v = .ok () ∧ normalizeAndValidate v policy = .ok v) ↔
        ¬ DoublePort url := by
    obtain ⟨hurl, hvalid, hcheck⟩ := normalizeAndValidate_eq_ok.mp hv
    rw [normalizeAndValidate_eq_ok, normalizeUrl_twice_iff hurl]
    have hinner := not_innerSpace_of_validate hurl hvalid
    tauto
  constructor
  · rintro h ⟨v, hv⟩
    exact (hone v hv).mp (h v hv)
  · intro h v hv
    exact (hone v hv).mpr (h ⟨v, hv⟩)

end Once

/-! ### Spellings of a URL -/

theorem not_isWhitespace_of_ends {c : Char} (h : endsAuthority c = true) :
    isWhitespace c = false := by
  have hc : c = '/' ∨ c = '?' ∨ c = '#' := by simpa [endsAuthority, or_assoc] using h
  rcases hc with rfl | rfl | rfl
  · decide
  · decide
  · decide

namespace Spelling

variable {core : UrlCore}

/-- The authority without the whitespace that is around the whole URL. -/
def trimmedAuthority (p : Spelling core) : Text :=
  if core.tail = [] ∧ p.port = false ∧ p.slash = false then p.authority.rdropWhile isWhitespace
  else p.authority

theorem portText_of_port (p : Spelling core) (h : p.port = true) :
    p.portText ∈ defaultPortSuffix core.scheme := by
  obtain ⟨portSuffix, hport⟩ := Option.isSome_iff_exists.mp (p.port_default h)
  rw [portText, if_pos h, hport]
  rfl

theorem portText_of_not_port (p : Spelling core) (h : p.port = false) : p.portText = [] := by
  rw [portText, h, if_neg Bool.false_ne_true]

theorem portText_eq_nil (p : Spelling core) : p.portText = [] ↔ p.port = false := by
  refine ⟨fun hnil => ?_, p.portText_of_not_port⟩
  rw [← Bool.not_eq_true]
  exact fun hport => portSuffix_ne_nil (p.portText_of_port hport) hnil

theorem portText_char (p : Spelling core) :
    ∀ c ∈ p.portText, endsAuthority c = false ∧ isWhitespace c = false := by
  cases hport : p.port with
  | true => exact portSuffix_char (p.portText_of_port hport)
  | false =>
    rw [p.portText_of_not_port hport]
    exact fun c hc => absurd hc List.not_mem_nil

theorem slashText_eq_nil (p : Spelling core) : p.slashText = [] ↔ p.slash = false := by
  unfold slashText
  cases p.slash with
  | false => simp
  | true => simp

theorem rdropWhile_tail_eq_nil (core : UrlCore) :
    core.tail.rdropWhile isWhitespace = [] ↔ core.tail = [] := by
  cases htail : core.tail with
  | nil => simp
  | cons d tail =>
    have hd := core.behind d (by rw [htail]; rfl)
    rw [← List.nil_append (d :: tail), Text.rdropWhile_append_cons (not_isWhitespace_of_ends hd)]
    simp

theorem rdropWhile_behind (p : Spelling core) :
    (p.portText ++ (p.slashText ++ core.tail)).rdropWhile isWhitespace =
      p.portText ++ (p.slashText ++ core.tail.rdropWhile isWhitespace) := by
  cases htail : core.tail with
  | nil =>
    rw [List.append_nil, List.rdropWhile_nil, List.append_nil, Text.rdropWhile_eq_self]
    intro c hc
    rw [Option.mem_def, List.getLast?_append, slashText] at hc
    split at hc
    · obtain rfl := Option.some.inj hc
      decide
    · exact (p.portText_char c (List.mem_of_mem_getLast? hc)).2
  | cons d tail =>
    have hd := not_isWhitespace_of_ends (core.behind d (by rw [htail]; rfl))
    have hcons := Text.rdropWhile_append_cons hd
    rw [← List.append_assoc, hcons, ← List.append_assoc, ← List.nil_append (d :: tail), hcons []]
    rfl

theorem trim_text (p : Spelling core) : Text.trimMatches isWhitespace p.text =
    p.scheme ++ (schemeSeparator ++ (p.trimmedAuthority ++ (p.portText ++
      (p.slashText ++ core.tail.rdropWhile isWhitespace)))) := by
  have hfront (t : Text) : (p.scheme ++ (schemeSeparator ++ t)).dropWhile isWhitespace =
      p.scheme ++ (schemeSeparator ++ t) := by
    rw [Text.dropWhile_eq_self]
    intro c hc
    cases hscheme : p.scheme with
    | nil =>
      rw [hscheme] at hc
      obtain rfl := Option.some.inj hc
      rfl
    | cons d scheme =>
      have hhead := core.scheme_start d.toLower (by rw [← p.scheme_eq, hscheme]; rfl)
      rw [hscheme] at hc
      obtain rfl := Option.some.inj hc
      rwa [isWhitespace_toLower] at hhead
  have hback (t : Text) : (p.scheme ++ (schemeSeparator ++ t)).rdropWhile isWhitespace =
      p.scheme ++ (schemeSeparator ++ t.rdropWhile isWhitespace) := by
    have hslash : isWhitespace '/' = false := by decide
    have hcons := Text.rdropWhile_append_cons hslash (p.scheme ++ [':', '/']) t
    simpa [schemeSeparator] using hcons
  have hnil : p.portText ++ (p.slashText ++ core.tail.rdropWhile isWhitespace) = [] ↔
      core.tail = [] ∧ p.port = false ∧ p.slash = false := by
    rw [List.append_eq_nil_iff, List.append_eq_nil_iff, p.portText_eq_nil, p.slashText_eq_nil,
      rdropWhile_tail_eq_nil]
    tauto
  rw [text, Text.trimMatches_append_right p.after_blank, Text.trimMatches_append_left p.before_blank,
    Text.trimMatches, hfront, hback, Text.rdropWhile_append_eq, p.rdropWhile_behind,
    trimmedAuthority]
  by_cases hopen : core.tail = [] ∧ p.port = false ∧ p.slash = false
  · rw [if_pos (hnil.mpr hopen), if_pos hopen, hnil.mpr hopen, List.append_nil]
  · rw [if_neg (mt hnil.mp hopen), if_neg hopen]

theorem not_endsAuthority_trimmedAuthority (p : Spelling core) :
    ∀ c ∈ p.trimmedAuthority, endsAuthority c = false := by
  intro c hc
  have hmem : c ∈ p.authority := by
    unfold trimmedAuthority at hc
    split at hc
    · exact (List.rdropWhile_prefix _ _).subset hc
    · exact hc
  rw [← endsAuthority_toLower]
  exact core.inside _ (p.authority_eq ▸ List.mem_map_of_mem hmem)

theorem splitsAs_text (p : Spelling core) :
    SplitsAs ((p.trimmedAuthority ++ p.portText) ++
        (p.slashText ++ core.tail.rdropWhile isWhitespace))
      (p.trimmedAuthority ++ p.portText) (p.slashText ++ core.tail.rdropWhile isWhitespace) := by
  refine ⟨rfl, fun c hc => ?_, fun c hc => ?_⟩
  · rcases List.mem_append.mp hc with hc | hc
    · exact p.not_endsAuthority_trimmedAuthority c hc
    · exact (p.portText_char c hc).1
  · unfold slashText at hc
    split at hc
    · obtain rfl := Option.some.inj hc
      rfl
    · apply core.behind c
      obtain ⟨rest, hrest⟩ := List.rdropWhile_prefix isWhitespace core.tail
      rw [List.nil_append] at hc
      rw [Option.mem_def, ← hrest, List.head?_append, Option.mem_def.mp hc]
      rfl

theorem readsAs_text (p : Spelling core) : ReadsAs p.text p.scheme
    (p.trimmedAuthority ++ p.portText) (p.slashText ++ core.tail.rdropWhile isWhitespace) := by
  have hcolon : ':' ∉ p.scheme := by
    rw [← Text.mem_asciiLower (by decide), p.scheme_eq]
    exact core.colon_not_mem
  refine ⟨_, ?_, p.splitsAs_text.authorityOf_eq.symm, p.splitsAs_text.restOf_eq.symm⟩
  rw [trim_text, ← List.append_assoc p.trimmedAuthority]
  exact Text.cutAt_append hcolon _

def keptAuthority (p : Spelling core) : Text :=
  if p.port then core.authority
  else normalizeAuthority core.scheme (if core.tail = [] ∧ p.slash = false then
    core.authority.rdropWhile isWhitespace else core.authority)

def keptRest (p : Spelling core) : Text :=
  if p.slashText ++ core.tail.rdropWhile isWhitespace = ['/'] then []
  else p.slashText ++ core.tail.rdropWhile isWhitespace

theorem normalizeAuthority_text (p : Spelling core) : normalizeAuthority core.scheme
    (Text.asciiLower (p.trimmedAuthority ++ p.portText)) = p.keptAuthority := by
  unfold keptAuthority trimmedAuthority
  rw [Text.asciiLower_append]
  cases hport : p.port with
  | true =>
    have hmem := p.portText_of_port hport
    have hlower : Text.asciiLower p.portText = p.portText := by
      rcases mem_defaultPortSuffix hmem with h | h
      · rw [h]
        decide
      · rw [h]
        decide
    rw [if_neg (by simp), hlower, p.authority_eq, normalizeAuthority_append hmem, if_pos rfl]
  | false =>
    rw [p.portText_of_not_port hport, Text.asciiLower_nil, List.append_nil,
      if_neg Bool.false_ne_true, apply_ite Text.asciiLower,
      ← Text.rdropWhile_asciiLower isWhitespace_toLower, p.authority_eq]
    simp only [true_and]

theorem normalizeUrl_text (p : Spelling core) : normalizeUrl p.text =
    .ok (core.scheme ++ schemeSeparator ++ p.keptAuthority ++ p.keptRest) := by
  refine normalizeUrl_eq_ok.mpr ⟨_, _, _, p.readsAs_text, ?_⟩
  rw [normalForm, p.scheme_eq, p.normalizeAuthority_text]
  rfl

theorem splitsAs_kept (p : Spelling core) :
    SplitsAs (p.keptAuthority ++ p.keptRest) p.keptAuthority p.keptRest := by
  have hsplit := splitsAs_normalForm p.readsAs_text.splitsAs core.scheme
  rwa [p.normalizeAuthority_text] at hsplit

theorem sameForm_iff (p q : Spelling core) : SameForm p.text q.text ↔
    p.keptAuthority = q.keptAuthority ∧ p.keptRest = q.keptRest := by
  unfold SameForm
  rw [p.normalizeUrl_text, q.normalizeUrl_text]
  constructor
  · rintro ⟨v, hp, hq⟩
    have hsame := (Except.ok.inj hp).trans (Except.ok.inj hq).symm
    rw [List.append_assoc, List.append_assoc _ _ q.keptRest, List.append_cancel_left_eq] at hsame
    have hpsplit := p.splitsAs_kept
    rw [hsame] at hpsplit
    exact ⟨hpsplit.authorityOf_eq.symm.trans q.splitsAs_kept.authorityOf_eq,
      hpsplit.restOf_eq.symm.trans q.splitsAs_kept.restOf_eq⟩
  · rintro ⟨hauthority, hrest⟩
    exact ⟨_, rfl, by rw [hauthority, hrest]⟩

theorem keptRest_of_nil (p : Spelling core) (h : core.tail = []) : p.keptRest = [] := by
  unfold keptRest slashText
  rw [h]
  cases p.slash with
  | false => rfl
  | true => rfl

/-- A slash in front of a query or a fragment stays. -/
theorem keptRest_ne {p q : Spelling core} (htail : core.tail ≠ []) (hp : p.slash = true)
    (hq : q.slash = false) : p.keptRest ≠ q.keptRest := by
  have hne : core.tail.rdropWhile isWhitespace ≠ [] := mt (rdropWhile_tail_eq_nil core).mp htail
  have hroot : core.tail.rdropWhile isWhitespace ≠ ['/'] := by
    intro hslash
    obtain ⟨rest, hrest⟩ := List.rdropWhile_prefix isWhitespace core.tail
    rw [hslash] at hrest
    exact p.slash_root hp (by rw [← hrest]; rfl)
  have hkept : p.keptRest = '/' :: core.tail.rdropWhile isWhitespace := by
    unfold keptRest slashText
    rw [if_pos hp, if_neg]
    · rfl
    · intro heq
      exact hne (List.cons.inj heq).2
  have hkept' : q.keptRest = core.tail.rdropWhile isWhitespace := by
    unfold keptRest slashText
    rw [hq, if_neg Bool.false_ne_true, List.nil_append, if_neg hroot]
  rw [hkept, hkept']
  exact List.cons_ne_self _ _

theorem keptRest_eq_iff (p q : Spelling core) :
    p.keptRest = q.keptRest ↔ (core.tail ≠ [] → p.slash = q.slash) := by
  by_cases htail : core.tail = []
  · rw [p.keptRest_of_nil htail, q.keptRest_of_nil htail]
    exact iff_of_true rfl fun h => absurd htail h
  · rw [forall_prop_of_true htail]
    constructor
    · intro heq
      cases hp : p.slash with
      | false =>
        cases hq : q.slash with
        | false => rfl
        | true => exact absurd heq.symm (keptRest_ne htail hq hp)
      | true =>
        cases hq : q.slash with
        | false => exact absurd heq (keptRest_ne htail hp hq)
        | true => rfl
    · intro hslash
      unfold keptRest slashText
      rw [hslash]

theorem not_portEnds (h : SpaceEnds core) : ¬ PortEnds core := by
  obtain ⟨c, hc, hblank⟩ := h
  rintro ⟨portSuffix, hport, front, hfront⟩
  rw [← hfront, List.getLast?_append_of_ne_nil _ (portSuffix_ne_nil hport)] at hc
  rw [(portSuffix_char hport c (List.mem_of_mem_getLast? hc)).2] at hblank
  cases hblank

theorem normalizeAuthority_eq_iff :
    normalizeAuthority core.scheme core.authority = core.authority ↔ ¬ PortEnds core := by
  rw [normalizeAuthority_eq_self]
  constructor
  · rintro h ⟨portSuffix, hport, hends⟩
    exact h portSuffix hport hends
  · exact fun h portSuffix hport hends => h ⟨portSuffix, hport, hends⟩

theorem normalizeAuthority_trimmed_ne (h : SpaceEnds core) :
    normalizeAuthority core.scheme (core.authority.rdropWhile isWhitespace) ≠ core.authority := by
  intro heq
  obtain ⟨c, hc, hblank⟩ := h
  have hshort := (prefix_normalizeAuthority core.scheme
    (core.authority.rdropWhile isWhitespace)).length_le
  rw [heq] at hshort
  have hsame := (List.rdropWhile_prefix isWhitespace core.authority).eq_of_length_le hshort
  rw [Text.rdropWhile_eq_self.mp hsame c hc] at hblank
  cases hblank

theorem keptAuthority_of_space (h : SpaceEnds core) (p : Spelling core) : p.keptAuthority =
    if core.tail = [] ∧ ¬ (p.port = true ∨ p.slash = true) then
      normalizeAuthority core.scheme (core.authority.rdropWhile isWhitespace)
    else core.authority := by
  have hkept := normalizeAuthority_eq_iff.mpr (not_portEnds h)
  unfold keptAuthority
  cases p.port with
  | true => simp
  | false => simp [apply_ite (normalizeAuthority core.scheme), hkept]

theorem keptAuthority_of_not_space (h : ¬ SpaceEnds core) (p : Spelling core) : p.keptAuthority =
    if p.port = true then core.authority else normalizeAuthority core.scheme core.authority := by
  have hkept : core.authority.rdropWhile isWhitespace = core.authority := by
    rw [Text.rdropWhile_eq_self]
    intro c hc
    rw [Bool.eq_false_iff]
    exact fun hblank => h ⟨c, hc, hblank⟩
  rw [keptAuthority, hkept, ite_self]

theorem keptAuthority_eq_iff (p q : Spelling core) : p.keptAuthority = q.keptAuthority ↔
    (PortEnds core → p.port = q.port) ∧ (core.tail = [] → SpaceEnds core →
      (p.port = true ∨ p.slash = true ↔ q.port = true ∨ q.slash = true)) := by
  by_cases hspace : SpaceEnds core
  · have htrimmed := normalizeAuthority_trimmed_ne hspace
    rw [keptAuthority_of_space hspace, keptAuthority_of_space hspace,
      and_iff_right fun h => absurd h (not_portEnds hspace), forall_prop_of_true hspace]
    by_cases htail : core.tail = []
    · by_cases hp : p.port = true ∨ p.slash = true
      · by_cases hq : q.port = true ∨ q.slash = true
        · simp [htail, hp, hq]
        · simp [htail, hp, hq, htrimmed.symm]
      · by_cases hq : q.port = true ∨ q.slash = true
        · simp [htail, hp, hq, htrimmed]
        · simp [htail, hp, hq]
    · simp [htail]
  · rw [keptAuthority_of_not_space hspace, keptAuthority_of_not_space hspace,
      and_iff_left fun _ h => absurd h hspace]
    by_cases hport : PortEnds core
    · have hne := mt normalizeAuthority_eq_iff.mp (not_not.mpr hport)
      rw [forall_prop_of_true hport]
      cases p.port with
      | true =>
        cases q.port with
        | true => simp
        | false => simpa using Ne.symm hne
      | false =>
        cases q.port with
        | true => simpa using hne
        | false => simp
    · rw [normalizeAuthority_eq_iff.mpr hport, ite_self, ite_self]
      exact iff_of_true rfl fun h => absurd h hport

theorem sameForm_iff_agrees (p q : Spelling core) : SameForm p.text q.text ↔ p.Agrees q := by
  rw [sameForm_iff, keptRest_eq_iff, keptAuthority_eq_iff]
  constructor
  · rintro ⟨⟨hport, hspace⟩, hslash⟩
    exact ⟨hslash, hport, hspace⟩
  · intro h
    exact ⟨⟨h.port, h.space⟩, h.slash⟩

end Spelling

/-- The normal form is canonical except where a second default port or whitespace comes to the end
of the authority, or a slash stands in front of a query or a fragment. -/
theorem canonical_iff (url : Text) (policy : UrlFilterPolicy) {core : UrlCore}
    (p q : Spelling core) :
    (IdempotentAt url ↔ ¬ DoublePort url ∧ ¬ InnerSpace url) ∧
    (StableAt url policy ↔ (Succeeds (normalizeAndValidate url policy) → ¬ DoublePort url)) ∧
    (SameForm p.text q.text ↔ p.Agrees q) :=
  ⟨idempotentAt_iff, stableAt_iff, Spelling.sameForm_iff_agrees p q⟩

/-- A space comes to the end, a default port is left, and a root slash stays before a query. -/
theorem normal_form_not_canonical :
    ¬ IdempotentAt "https://example.com :443".toList ∧
    ¬ StableAt "https://example.com:443:443".toList ⟨[], []⟩ ∧
    ∃ (core : UrlCore) (p q : Spelling core), p.text = "https://example.com/?id=1".toList ∧
      q.text = "https://example.com?id=1".toList ∧ ¬ SameForm p.text q.text := by
  refine ⟨?_, ?_, ?_⟩
  · intro h
    have hagain := h "https://example.com ".toList rfl
    have htrimmed : normalizeUrl "https://example.com ".toList = .ok "https://example.com".toList :=
      rfl
    rw [htrimmed, Except.ok.injEq] at hagain
    revert hagain
    decide
  · intro h
    have hfirst : normalizeAndValidate "https://example.com:443:443".toList ⟨[], []⟩ =
        .ok "https://example.com:443".toList := rfl
    have hagain := (h _ hfirst).2
    have hsecond : normalizeAndValidate "https://example.com:443".toList ⟨[], []⟩ =
        .ok "https://example.com".toList := rfl
    rw [hsecond, Except.ok.injEq] at hagain
    revert hagain
    decide
  · have hstart : ∀ c ∈ "https".toList.head?, isWhitespace c = false := by
      intro c hc
      obtain rfl := Option.some.inj hc
      rfl
    have hbehind : ∀ c ∈ "?id=1".toList.head?, endsAuthority c = true := by
      intro c hc
      obtain rfl := Option.some.inj hc
      rfl
    let core : UrlCore :=
      ⟨"https".toList, "example.com".toList, "?id=1".toList, by decide, hstart, by decide, hbehind⟩
    have hquery : core.tail.head? ≠ some '/' := (by decide : "?id=1".toList.head? ≠ some '/')
    let p : Spelling core := ⟨[], "https".toList, "example.com".toList, false, true, [], rfl, rfl,
      nofun, fun _ => hquery, by decide, by decide⟩
    let q : Spelling core := ⟨[], "https".toList, "example.com".toList, false, false, [], rfl, rfl,
      nofun, nofun, by decide, by decide⟩
    refine ⟨core, p, q, rfl, rfl, ?_⟩
    rw [Spelling.sameForm_iff_agrees]
    intro h
    have htail : core.tail ≠ [] := (by decide : "?id=1".toList ≠ [])
    cases h.slash htail

end AnchorKit
