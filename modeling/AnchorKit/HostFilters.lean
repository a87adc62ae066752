import AnchorKit.UrlNormalizer

/-!
# The two filters for hosts

Hosts are taken out of a URL and compared with patterns in two places, once with strings and once
with byte positions. The two agree on everything that passes validation.
-/

namespace AnchorKit

open Fallible

/-- The host is the pattern or a subdomain of it, in any case. -/
def UnderHost (host pattern : Text) : Prop :=
  Text.asciiLower host = Text.asciiLower pattern ∨
    ('.' :: Text.asciiLower pattern) <:+ Text.asciiLower host

section Patterns

variable {host pattern hostname : Text}

theorem wrappingPred_succ {n : ℕ} (h : n < 2 ^ 64) : UrlFilterEntry.wrappingPred (n + 1) = n := by
  have hwrap : n + 1 + (2 ^ 64 - 1) = n + 2 ^ 64 := by omega
  rw [UrlFilterEntry.wrappingPred, hwrap, Nat.add_mod_right, Nat.mod_eq_of_lt h]

theorem byte_eq_dot {d : Char} (h : Text.isAscii d = true) :
    UInt8.ofNat d.toNat = 0x2e ↔ d = '.' := by
  have hcode : d.toNat < 0x80 := of_decide_eq_true h
  rw [← UInt8.toNat_inj, UInt8.toNat_ofNat', Nat.mod_eq_of_lt (by omega)]
  change d.toNat = Char.toNat '.' ↔ d = '.'
  exact Char.toNat_inj

theorem matchesHost_iff (hascii : ∀ c ∈ hostname, Text.isAscii c = true)
    (hlength : hostname.length < 2 ^ 64) :
    UrlFilterEntry.matchesHost ⟨pattern, false⟩ hostname = true ↔
      hostname = pattern ∨ ('.' :: pattern) <:+ hostname := by
  simp only [UrlFilterEntry.matchesHost, Bool.false_eq_true, if_false]
  by_cases heq : hostname = pattern
  · simp [heq]
  · rw [if_neg heq, or_iff_right heq]
    by_cases hend : pattern <:+ hostname
    · rw [if_pos (List.isSuffixOf_iff_suffix.mpr hend)]
      obtain ⟨front, rfl⟩ := hend
      rcases List.eq_nil_or_concat front with rfl | ⟨init, last, rfl⟩
      · exact absurd rfl heq
      · rw [List.concat_eq_append] at hascii hlength ⊢
        have hlast : Text.isAscii last = true := hascii last (by simp)
        have hfront : Text.byteLen (init ++ [last] ++ pattern) - Text.byteLen pattern =
            init.length + 1 := by
          rw [Text.byteLen_append, Nat.add_sub_cancel,
            Text.byteLen_of_isAscii fun c hc => hascii c (List.mem_append_left _ hc)]
          simp
        have hshort : init.length < 2 ^ 64 := by
          simp only [List.length_append, List.length_singleton] at hlength
          omega
        rw [hfront, wrappingPred_succ hshort, Text.utf8_eq_map hascii, decide_eq_true_iff]
        simp only [List.map_append, List.map_cons, List.append_assoc, List.cons_append,
          List.nil_append]
        rw [List.getElem?_append_right (by simp), List.length_map, Nat.sub_self,
          List.getElem?_cons_zero, Option.some.injEq, byte_eq_dot hlast]
        constructor
        · rintro rfl
          exact List.suffix_append init _
        · intro ⟨front, hsame⟩
          have htail := (List.append_inj' hsame (by simp)).2
          exact (List.cons.inj htail).1.symm
    · rw [if_neg (mt List.isSuffixOf_iff_suffix.mp hend)]
      refine iff_of_false Bool.false_ne_true fun h => hend ?_
      exact (List.suffix_cons '.' pattern).trans h

/-- One deny rule denies what is under its pattern. -/
theorem denies_iff (host : Text) (hne : pattern ≠ [])
    (htrim : Text.trimMatches isWhitespace pattern = pattern) :
    (DomainPolicy.allowAll.withDeny pattern).permits host = false ↔ UnderHost host pattern := by
  have hrules : DomainPolicy.allowAll.withDeny pattern = ⟨[⟨.deny, pattern⟩], false⟩ := by
    simp only [DomainPolicy.withDeny, DomainPolicy.withRule, htrim, if_neg hne]
    rfl
  have hlower : Text.asciiLower pattern ≠ [] := by
    intro hnil
    exact hne (List.map_eq_nil_iff.mp hnil)
  have happlies : DomainPolicy.ruleApplies (Text.asciiLower host) ⟨.deny, pattern⟩ = true ↔
      UnderHost host pattern := by
    simp only [DomainPolicy.ruleApplies, UnderHost, hlower, Bool.and_eq_true, Bool.or_eq_true,
      decide_eq_true_eq, ne_eq, not_false_eq_true, true_and, List.isSuffixOf_iff_suffix]
  rw [hrules, DomainPolicy.permits, ← happlies]
  simp only [List.find?_cons, List.find?_nil]
  cases DomainPolicy.ruleApplies (Text.asciiLower host) ⟨.deny, pattern⟩ with
  | true => simp
  | false => simp

end Patterns

/-- The two addresses differ in letter case, a default port or a bare slash at most. -/
def SameAddress (url other : Text) : Prop :=
  ∃ a b : WebAddress, a.WellFormed ∧ b.WellFormed ∧ url = a.text ∧ other = b.text ∧
    a.normalized = b.normalized

/-- Both filters see the same host, and on it they agree about the pattern. -/
structure FiltersAgree (url pattern : Text) : Prop where
  hostname : extractHostname url = some (Text.asciiLower (extractHost url))
  suffix_iff_denied : ∀ hostname ∈ extractHostname url,
    (UrlFilterEntry.suffix pattern).matchesHost hostname = true ↔
      (DomainPolicy.allowAll.withDeny pattern).permits hostname = false
  denied_iff : ∀ host, host = extractHost url ∨ some host = extractHostname url →
    ((DomainPolicy.allowAll.withDeny pattern).permits host = false ↔ UnderHost host pattern)
  rejected : UnderHost (extractHost url) pattern →
    ∀ policy : UrlFilterPolicy, UrlFilterEntry.suffix pattern ∈ policy.blocklist →
      ∀ other, SameAddress url other → policy.check other = .error (.withContext
        .invalidEndpointFormat "host is on the blocklist"
        (String.ofList (Text.asciiLower (extractHost url))))

section Agreement

variable {url pattern : Text} {a : WebAddress}

/-- What passes validation is an address in the narrow sense. -/
theorem exists_address_of_validate (h : validateAnchorDomain url = .ok ()) :
    ∃ a : WebAddress, url = a.text ∧ a.WellFormed ∧ a.scheme = "https".toList := by
  obtain ⟨_, _, hchars, parts, rfl, hparts⟩ := validateAnchorDomain_eq_ok.mp h
  have hlower : Text.asciiLower "https".toList = "https".toList := by decide
  refine ⟨⟨"https".toList, parts.host, parts.port, parts.path ++ parts.suffix⟩, rfl, ⟨hlower,
    hparts.host, hparts.port, hparts.splitsAs.behind, fun c hc => hchars c ?_⟩, rfl⟩
  exact List.mem_append_right _ (List.mem_append_right _ hc)

theorem extractHost_text (h : a.WellFormed) (hscheme : a.scheme = "https".toList) :
    extractHost a.text = a.host := by
  have htext : a.text = httpsPrefix ++ (a.authority ++ a.rest) := by
    rw [WebAddress.text, hscheme]
    rfl
  unfold extractHost
  rw [if_pos (by rw [htext, List.isPrefixOf_iff_prefix]; exact List.prefix_append _ _), htext,
    List.drop_left]
  dsimp only
  rw [h.splitsAs.authorityOf_eq]
  cases hport : a.port with
  | none =>
    rw [WebAddress.authority, hport, portText, List.append_nil,
      Text.rcutAt_of_not_mem (colon_not_mem_host h.host)]
  | some port =>
    obtain ⟨hne, hdigits, _, _⟩ := h.port port hport
    rw [WebAddress.authority, hport, portText, Text.rcutAt_append (colon_not_mem_digits hdigits)]
    simp only [hne, List.all_eq_true.mpr hdigits, ne_eq, not_false_eq_true, decide_true,
      Bool.and_self, if_true]

theorem suffix_eq (hdots : pattern.head? ≠ some '.') :
    UrlFilterEntry.suffix pattern = ⟨Text.asciiLower pattern, false⟩ := by
  have hdrop : pattern.dropWhile (· = '.') = pattern := by
    cases pattern with
    | nil => rfl
    | cons c pattern =>
      exact List.dropWhile_cons_of_neg (by simpa using fun heq => hdots (congrArg some heq))
  rw [UrlFilterEntry.suffix, hdrop]

theorem suffix_matches_iff (h : IsHostName a.host) (hdots : pattern.head? ≠ some '.') :
    (UrlFilterEntry.suffix pattern).matchesHost (Text.asciiLower a.host) = true ↔
      UnderHost a.host pattern := by
  have hascii : ∀ c ∈ Text.asciiLower a.host, Text.isAscii c = true :=
    isAscii_of_labels h.asciiLower.label
  have hshort : (Text.asciiLower a.host).length < 2 ^ 64 :=
    Nat.lt_of_le_of_lt h.asciiLower.length_le (by decide)
  rw [suffix_eq hdots, matchesHost_iff hascii hshort]
  rfl

theorem underHost_asciiLower {host : Text} :
    UnderHost (Text.asciiLower host) pattern ↔ UnderHost host pattern := by
  unfold UnderHost
  rw [Text.asciiLower_asciiLower]

theorem check_of_blocked (h : a.WellFormed) (hdots : pattern.head? ≠ some '.')
    (hunder : UnderHost a.host pattern) {policy : UrlFilterPolicy}
    (hblocked : UrlFilterEntry.suffix pattern ∈ policy.blocklist) :
    policy.check a.text = .error (.withContext .invalidEndpointFormat "host is on the blocklist"
      (String.ofList (Text.asciiLower a.host))) := by
  have hhost : extractHostname a.normalized.text = some (Text.asciiLower a.host) := by
    rw [extractHostname_text h.normalized]
    exact congrArg some (Text.asciiLower_asciiLower a.host)
  have hany : (policy.blocklist.any (·.matchesHost (Text.asciiLower a.host))) = true := by
    rw [List.any_eq_true]
    exact ⟨_, hblocked, (suffix_matches_iff h.host hdots).mpr hunder⟩
  unfold UrlFilterPolicy.check
  rw [normalizeUrl_text h]
  change (expect (extractHostname a.normalized.text) _ >>= _) = _
  rw [hhost]
  simp only [expect_some_bind, require, hany, Bool.true_eq_false, if_false]
  rfl

end Agreement

/-- On every address that passes validation the two filters agree about every pattern without
surrounding spaces and leading dots. -/
theorem filters_agree (url pattern : Text) (haccepted : validateAnchorDomain url = .ok ())
    (hne : pattern ≠ []) (htrim : Text.trimMatches isWhitespace pattern = pattern)
    (hdots : pattern.head? ≠ some '.') : FiltersAgree url pattern := by
  obtain ⟨a, rfl, hwell, hscheme⟩ := exists_address_of_validate haccepted
  have hhost := extractHost_text hwell hscheme
  have hname := extractHostname_text hwell
  have hdenied (host : Text) := denies_iff host hne htrim
  refine ⟨?_, ?_, ?_, ?_⟩
  · rw [hname, hhost]
  · intro hostname hhostname
    rw [hname] at hhostname
    obtain rfl := Option.some.inj hhostname
    rw [suffix_matches_iff hwell.host hdots, hdenied, underHost_asciiLower]
  · exact fun host _ => hdenied host
  · rw [hhost]
    rintro hunder policy hblocked _ ⟨b, c, hb, hc, heq, rfl, hsame⟩
    have hlower : Text.asciiLower b.host = Text.asciiLower a.host := by
      have hboth := extractHostname_text hb
      rw [← heq, hname] at hboth
      exact (Option.some.inj hboth).symm
    have hother : Text.asciiLower c.host = Text.asciiLower a.host := by
      rw [← hlower]
      exact (congrArg WebAddress.host hsame).symm
    have hunderOther : UnderHost c.host pattern := by
      unfold UnderHost at hunder ⊢
      rwa [hother]
    rw [check_of_blocked hc hdots hunderOther hblocked, hother]

theorem filters_agree_on_subdomain :
    FiltersAgree "https://Api.Evil.com:443/".toList "evil.COM".toList :=
  filters_agree _ _ (by decide) (by decide) (by decide) (by decide)

end AnchorKit
