import AnchorKit.DomainGrammar

/-!
# Normalization of URLs and lists of hosts

A URL is brought to one form before it is compared: scheme and authority in lower case, no default
port, no bare slash. The lists of allowed and blocked hosts are asked about the host of that form.
-/

namespace AnchorKit

open Fallible

/-- `str::ends_with`, and the string without the ending. -/
def stripEnding (ending t : Text) : Option Text :=
  if ending.isSuffixOf t then some (t.take (t.length - ending.length)) else none

def schemeSeparator : Text := "://".toList

/-- The port that a scheme has when none is written, behind its colon. -/
def defaultPortSuffix (schemeLower : Text) : Option Text :=
  if schemeLower = "https".toList then some ":443".toList
  else if schemeLower = "http".toList then some ":80".toList
  else none

def normalizeAuthority (schemeLower authorityLower : Text) : Text :=
  match defaultPortSuffix schemeLower with
  | some portSuffix => (stripEnding portSuffix authorityLower).getD authorityLower
  | none => authorityLower

def normalizeUrl (url : Text) : Except AnchorKitError Text := do
  let trimmed := Text.trimMatches isWhitespace url
  require (trimmed ≠ []) .invalidEndpointFormat
  let (scheme, afterScheme) ← expect (Text.cutAt schemeSeparator trimmed) .invalidEndpointFormat
  let schemeLower := Text.asciiLower scheme
  let rest := restOf afterScheme
  let authority := normalizeAuthority schemeLower (Text.asciiLower (authorityOf afterScheme))
  let restNormalised := if rest = ['/'] then [] else rest
  return schemeLower ++ schemeSeparator ++ authority ++ restNormalised

def extractHostname (url : Text) : Option Text := do
  let (_, afterScheme) ← Text.cutAt schemeSeparator url
  let authority := authorityOf afterScheme
  if authority = [] then none
  else
    let host :=
      match Text.rcutAt ':' authority with
      | some (host, port) => if port.all Char.isDigit then host else authority
      | none => authority
    some (Text.asciiLower host)

structure UrlFilterEntry where
  pattern : Text
  exact : Bool
deriving DecidableEq, Repr

namespace UrlFilterEntry

def suffix (pattern : Text) : UrlFilterEntry :=
  ⟨Text.asciiLower (pattern.dropWhile (· = '.')), false⟩

def exactly (hostname : Text) : UrlFilterEntry := ⟨Text.asciiLower hostname, true⟩

/-- The subtraction wraps around at the width of a pointer. -/
def wrappingPred (n : ℕ) : ℕ := (n + (2 ^ 64 - 1)) % 2 ^ 64

def matchesHost (entry : UrlFilterEntry) (hostname : Text) : Bool :=
  if entry.exact then hostname = entry.pattern
  else if hostname = entry.pattern then true
  else if entry.pattern.isSuffixOf hostname then
    let frontLen := Text.byteLen hostname - Text.byteLen entry.pattern
    (Text.utf8 hostname)[wrappingPred frontLen]? = some 0x2e
  else false

end UrlFilterEntry

structure UrlFilterPolicy where
  allowlist : List UrlFilterEntry
  blocklist : List UrlFilterEntry
deriving DecidableEq, Repr

namespace UrlFilterPolicy

def check (policy : UrlFilterPolicy) (url : Text) : Except AnchorKitError Unit := do
  let normalized ← normalizeUrl url
  let hostname ← expect (extractHostname normalized) .invalidEndpointFormat
  require (policy.blocklist.any (·.matchesHost hostname) = false)
    (.withContext .invalidEndpointFormat "host is on the blocklist" (String.ofList hostname))
  require (policy.allowlist = [] ∨ policy.allowlist.any (·.matchesHost hostname) = true)
    (.withContext .invalidEndpointFormat "host is not on the allowlist" (String.ofList hostname))

end UrlFilterPolicy

def normalizeAndValidate (url : Text) (policy : UrlFilterPolicy) : Except AnchorKitError Text := do
  let normalized ← normalizeUrl url
  validateAnchorDomain normalized
  policy.check normalized
  return normalized

section LowerCase

variable {c : Char} {label host : Text}

theorem isDigit_toLower (c : Char) : c.toLower.isDigit = c.isDigit := by
  rw [Bool.eq_iff_iff, Text.isDigit_iff, Text.isDigit_iff, Text.toNat_toLower]
  split
  · omega
  · rfl

theorem isAlphanum_toLower (c : Char) : c.toLower.isAlphanum = c.isAlphanum := by
  rw [Bool.eq_iff_iff, Text.isAlphanum_iff, Text.isAlphanum_iff, Text.toNat_toLower]
  split
  · omega
  · rfl

theorem IsLabel.asciiLower (h : IsLabel label) : IsLabel (Text.asciiLower label) := by
  have hhyphen {c : Char} : c.toLower = '-' ↔ c = '-' := Text.toLower_eq_iff (by decide)
  unfold Text.asciiLower
  refine ⟨?_, ?_, ?_, ?_, ?_⟩
  · rw [List.length_map]
    exact h.length_pos
  · rw [List.length_map]
    exact h.length_le
  · intro c hc
    obtain ⟨d, hd, rfl⟩ := List.mem_map.mp hc
    rw [isAlphanum_toLower, hhyphen]
    exact h.chars d hd
  · rw [List.head?_map]
    intro heq
    obtain ⟨d, hd, hlower⟩ := Option.map_eq_some_iff.mp heq
    exact h.first (hd.trans (congrArg some (hhyphen.mp hlower)))
  · rw [List.getLast?_map]
    intro heq
    obtain ⟨d, hd, hlower⟩ := Option.map_eq_some_iff.mp heq
    exact h.last (hd.trans (congrArg some (hhyphen.mp hlower)))

theorem IsHostName.asciiLower (h : IsHostName host) : IsHostName (Text.asciiLower host) := by
  have hsplit := Text.splitOn_asciiLower (d := '.') (by decide) host
  refine ⟨?_, ?_, ?_, ?_⟩
  · rw [Text.asciiLower, List.length_map]
    exact h.length_le
  · rw [hsplit, List.length_map]
    exact h.labels
  · rw [hsplit]
    intro label hlabel
    obtain ⟨original, horiginal, rfl⟩ := List.mem_map.mp hlabel
    exact (h.label original horiginal).asciiLower
  · obtain ⟨label, hlabel, c, hc, hdigit⟩ := h.not_numeric
    rw [hsplit]
    refine ⟨_, List.mem_map_of_mem hlabel, c.toLower, List.mem_map_of_mem hc, ?_⟩
    rw [isDigit_toLower]
    exact hdigit

end LowerCase

/-! ### Addresses by their components -/

structure WebAddress where
  scheme : Text
  host : Text
  port : Option Text
  rest : Text
deriving DecidableEq

namespace WebAddress

def authority (a : WebAddress) : Text := a.host ++ portText a.port

def text (a : WebAddress) : Text := a.scheme ++ (schemeSeparator ++ (a.authority ++ a.rest))

/-- An `https` address whose host and port a validator would take, with any path. -/
structure WellFormed (a : WebAddress) : Prop where
  scheme : Text.asciiLower a.scheme = "https".toList
  host : IsHostName a.host
  port : ∀ port ∈ a.port, IsPort port
  rest : ∀ c ∈ a.rest.head?, endsAuthority c = true
  chars : ∀ c ∈ a.rest, IsUrlChar c

/-- Lower case, without the default port and a bare slash. -/
def normalized (a : WebAddress) : WebAddress where
  scheme := Text.asciiLower a.scheme
  host := Text.asciiLower a.host
  port := if a.port = some "443".toList then none else a.port
  rest := if a.rest = ['/'] then [] else a.rest

end WebAddress

section Addresses

variable {a : WebAddress}

theorem WebAddress.WellFormed.splitsAs (h : a.WellFormed) :
    SplitsAs (a.authority ++ a.rest) a.authority a.rest :=
  ⟨rfl, fun _ hc => not_endsAuthority_of_authorityChar (authorityChar h.host h.port hc), h.rest⟩

theorem colon_not_mem_scheme (h : Text.asciiLower a.scheme = "https".toList) : ':' ∉ a.scheme := by
  rw [← Text.mem_asciiLower (by decide), h]
  decide

theorem scheme_isUrlChar (h : Text.asciiLower a.scheme = "https".toList) :
    ∀ c ∈ a.scheme, IsUrlChar c := by
  intro c hc
  have hmem : c.toLower ∈ "https".toList := h ▸ List.mem_map_of_mem hc
  have hletters : ∀ d ∈ "https".toList, 0x61 ≤ d.toNat ∧ d.toNat ≤ 0x7a := by decide
  have hcode := hletters _ hmem
  rw [Text.toNat_toLower] at hcode
  apply isUrlChar_of_authorityChar
  split at hcode
  · omega
  · omega

theorem text_isUrlChar (h : a.WellFormed) : ∀ c ∈ a.text, IsUrlChar c := by
  have hseparator : ∀ c ∈ schemeSeparator, IsUrlChar c := by decide
  intro c hc
  rcases List.mem_append.mp hc with hc | hc
  · exact scheme_isUrlChar h.scheme c hc
  rcases List.mem_append.mp hc with hc | hc
  · exact hseparator c hc
  rcases List.mem_append.mp hc with hc | hc
  · exact isUrlChar_of_authorityChar (authorityChar h.host h.port hc)
  · exact h.chars c hc

theorem cutAt_text (h : Text.asciiLower a.scheme = "https".toList) :
    Text.cutAt schemeSeparator a.text = some (a.scheme, a.authority ++ a.rest) :=
  Text.cutAt_append (colon_not_mem_scheme h) _

theorem asciiLower_digits {port : Text} (h : ∀ c ∈ port, c.isDigit = true) :
    Text.asciiLower port = port := by
  apply Text.asciiLower_eq_self
  intro c hc
  have hcode := isDigit_code (h c hc)
  omega

theorem asciiLower_portText {port : Option Text} (h : ∀ p ∈ port, IsPort p) :
    Text.asciiLower (portText port) = portText port := by
  cases port with
  | none => rfl
  | some port =>
    rw [portText, Text.asciiLower_cons, asciiLower_digits (h port rfl).digits]
    rfl

theorem normalizeAuthority_https {host : Text} {port : Option Text} (hhost : ':' ∉ host)
    (hport : ∀ p ∈ port, IsPort p) :
    normalizeAuthority "https".toList (host ++ portText port) =
      host ++ portText (if port = some "443".toList then none else port) := by
  have hending : ":443".toList = ':' :: "443".toList := rfl
  have hnone {t : Text} (ht : ':' ∉ t) : ¬ ":443".toList <:+ t := fun hsuffix =>
    ht (hsuffix.subset (by decide))
  change (stripEnding ":443".toList (host ++ portText port)).getD (host ++ portText port) = _
  unfold stripEnding
  cases port with
  | none =>
    have hnot : ¬ ":443".toList <:+ host ++ portText none := by
      rw [portText, List.append_nil]
      exact hnone hhost
    rw [if_neg (mt List.isSuffixOf_iff_suffix.mp hnot)]
    rfl
  | some port =>
    have hcolon := colon_not_mem_digits (hport port rfl).digits
    by_cases hdefault : port = "443".toList
    · subst hdefault
      have hends : ":443".toList <:+ host ++ portText (some "443".toList) := ⟨host, rfl⟩
      rw [if_pos (List.isSuffixOf_iff_suffix.mpr hends), if_pos rfl]
      have hlength : (host ++ portText (some "443".toList)).length - ":443".toList.length =
          host.length := by
        rw [List.length_append]
        exact Nat.add_sub_cancel _ _
      rw [hlength, List.take_left]
      exact (List.append_nil host).symm
    · have hnot : ¬ ":443".toList <:+ host ++ portText (some port) := by
        intro hends
        obtain ⟨front, hsame⟩ := hends
        have hcut := Text.rcutAt_append (c := ':') (t := "443".toList) (by decide) front
        rw [← hending, hsame, portText, Text.rcutAt_append hcolon] at hcut
        exact hdefault (Prod.mk.inj (Option.some.inj hcut)).2
      rw [if_neg (mt List.isSuffixOf_iff_suffix.mp hnot),
        if_neg fun heq => hdefault (Option.some.inj heq)]
      rfl

theorem normalizeUrl_text (h : a.WellFormed) : normalizeUrl a.text = .ok a.normalized.text := by
  have htrim : Text.trimMatches isWhitespace a.text = a.text :=
    Text.trimMatches_of_forall fun c hc => not_isWhitespace_of_isUrlChar (text_isUrlChar h c hc)
  have hne : a.text ≠ [] := by
    intro hnil
    have hscheme := h.scheme
    rw [(List.append_eq_nil_iff.mp hnil).1] at hscheme
    revert hscheme
    decide
  have hlower : Text.asciiLower a.authority = Text.asciiLower a.host ++ portText a.port := by
    rw [WebAddress.authority, Text.asciiLower_append, asciiLower_portText h.port]
  simp only [normalizeUrl, require_bind_eq_ok, expect_bind_eq_ok, pure_eq_ok, htrim]
  refine ⟨hne, _, cutAt_text h.scheme, ?_⟩
  dsimp only
  rw [h.splitsAs.authorityOf_eq, h.splitsAs.restOf_eq, hlower, h.scheme,
    normalizeAuthority_https (colon_not_mem_host h.host.asciiLower) h.port]
  simp only [WebAddress.normalized, WebAddress.text, WebAddress.authority, h.scheme,
    List.append_assoc]

theorem WebAddress.WellFormed.normalized (h : a.WellFormed) : a.normalized.WellFormed := by
  refine ⟨?_, h.host.asciiLower, ?_, ?_, ?_⟩
  · change Text.asciiLower (Text.asciiLower a.scheme) = _
    rw [Text.asciiLower_asciiLower, h.scheme]
  · intro port hport
    simp only [WebAddress.normalized] at hport
    split at hport
    · cases hport
    · exact h.port port hport
  · intro c hc
    simp only [WebAddress.normalized] at hc
    split at hc
    · cases hc
    · exact h.rest c hc
  · intro c hc
    simp only [WebAddress.normalized] at hc
    split at hc
    · cases hc
    · exact h.chars c hc

theorem extractHostname_text (h : a.WellFormed) :
    extractHostname a.text = some (Text.asciiLower a.host) := by
  have hne : a.authority ≠ [] := fun hnil => host_ne_nil h.host (List.append_eq_nil_iff.mp hnil).1
  unfold extractHostname
  rw [cutAt_text h.scheme]
  simp only [h.splitsAs.authorityOf_eq, if_neg hne, Option.bind_eq_bind, Option.bind_some]
  cases hport : a.port with
  | none =>
    rw [WebAddress.authority, hport, portText, List.append_nil,
      Text.rcutAt_of_not_mem (colon_not_mem_host h.host)]
  | some port =>
    have hdigits := (h.port port hport).digits
    rw [WebAddress.authority, hport, portText, Text.rcutAt_append (colon_not_mem_digits hdigits)]
    simp only [List.all_eq_true.mpr hdigits, if_true]

end Addresses

end AnchorKit
