import AnchorKit.AuthorityUrls
import AnchorKit.StellarTomlReading

/-!
# Where a stellar.toml comes from and where it may point

The well-known address of a domain is its text with a path behind it, which is right unless the
domain has a query or a fragment. The origin of an endpoint is compared as text, so that a document
may point to its own origin only in the spelling in which that origin was asked for.
-/

namespace AnchorKit

open Fallible

namespace StellarToml

def wellKnownPath : Text := "/.well-known/stellar.toml".toList

/-- The domain without a trailing slash, and the path. -/
def wellKnownUrl (domain : Text) : Text :=
  (if domain.getLast? = some '/' then domain.dropLast else domain) ++ wellKnownPath

def fetchStellarTomlUrl (domain : Text) : Except AnchorKitError Text := do
  validateAnchorDomain domain
  return wellKnownUrl domain

def endpointOrigin (url : Text) : Text :=
  match Text.cutAt schemeSeparator url with
  | none => Text.asciiLower url
  | some (scheme, afterScheme) =>
    Text.asciiLower scheme ++ (schemeSeparator ++ Text.asciiLower (authorityOf afterScheme))

def parseStellarTomlWithOrigin (raw sourceDomain : Text) :
    Except AnchorKitError ParsedStellarToml := do
  let parsed ← parseStellarToml raw
  match parsed.transferServer with
  | some endpoint =>
    require (endpointOrigin endpoint = endpointOrigin sourceDomain)
      (.withContext .invalidEndpointFormat
        "discovered TRANSFER_SERVER origin does not match source domain" (String.ofList endpoint))
    return parsed
  | none => return parsed

/-! ### Origins -/

def defaultPort (scheme : Text) : Option ℕ :=
  if scheme = "https".toList then some 443
  else if scheme = "http".toList then some 80
  else none

/-- An empty port is not written. -/
def writtenPort : Option Text → Option ℕ
  | some port => if port = [] then none else some (Text.decimalValue port)
  | none => none

/-- Scheme and host in any case, and the port that is written or the default one. -/
structure Origin where
  scheme : Text
  host : Text
  port : Option ℕ
deriving DecidableEq

def originOf (u : AuthorityUrl) : Origin where
  scheme := Text.asciiLower u.scheme
  host := Text.asciiLower u.host.text
  port := (writtenPort u.port).or (defaultPort (Text.asciiLower u.scheme))

def SameOrigin (text text' : Text) : Prop :=
  ∃ u u', IsUrl text u ∧ IsUrl text' u' ∧ originOf u = originOf u'

/-- Scheme, authority and thus host and port of the domain, and the well-known path. -/
def IsWellKnownUrl (domain url : Text) : Prop :=
  ∃ u u', IsUrl domain u ∧ IsUrl url u' ∧ u'.scheme = u.scheme ∧ u'.userinfo = u.userinfo ∧
    u'.host = u.host ∧ u'.port = u.port ∧ pathOf u'.rest = wellKnownPath

/-- An accepted domain leads to its well-known address. -/
def LocatesRightly (domain : Text) : Prop :=
  validateAnchorDomain domain = .ok () →
    ∃ url, fetchStellarTomlUrl domain = .ok url ∧ IsWellKnownUrl domain url

/-- Parsing with an origin is parsing, for documents that point to the origin or nowhere. -/
def PinsRightly (raw source : Text) : Prop :=
  ∀ parsed, parseStellarTomlWithOrigin raw source = .ok parsed ↔
    parseStellarToml raw = .ok parsed ∧
      ∀ endpoint ∈ parsed.transferServer, SameOrigin endpoint source

/-- Where two URLs have one origin, neither names a user and they write the port alike. -/
def SpelledAlike (text text' : Text) : Prop :=
  ∀ u u', IsUrl text u → IsUrl text' u' → originOf u = originOf u' →
    u.userinfo = none ∧ u'.userinfo = none ∧ u.port = u'.port

/-! ### Anchor domains as URLs -/

section Domains

variable {domain url : Text} {parts : DomainParts} {c : Char}

def domainUrl (parts : DomainParts) (rest : Text) : AuthorityUrl :=
  ⟨"https".toList, none, .name parts.host, parts.port, rest⟩

theorem isNameChar_of_code (hcode : (0x41 ≤ c.toNat ∧ c.toNat ≤ 0x5a) ∨
    (0x61 ≤ c.toNat ∧ c.toNat ≤ 0x7a) ∨ (0x30 ≤ c.toNat ∧ c.toNat ≤ 0x39) ∨ c.toNat = 0x2d ∨
      c.toNat = 0x2e) : UrlHost.IsNameChar c := by
  refine ⟨not_endsAuthority_of_authorityChar (by omega), ?_⟩
  have hmarks : ∀ d ∈ ['@', ':', '[', ']'], d.toNat = 0x40 ∨ d.toNat = 0x3a ∨ d.toNat = 0x5b ∨
      d.toNat = 0x5d := by decide
  intro hmem
  have := hmarks c hmem
  omega

theorem wellFormed_https {host rest : Text} {port : Option Text} (hhost : IsHostName host)
    (hport : ∀ p ∈ port, IsPort p) (hrest : ∀ c ∈ rest.head?, endsAuthority c = true) :
    AuthorityUrl.WellFormed ⟨"https".toList, none, .name host, port, rest⟩ := by
  have hscheme : ∀ c ∈ "https".toList, c.isAlphanum = true := by decide
  refine ⟨⟨'h', rfl, rfl⟩, fun c hc => Or.inl (hscheme c hc), nofun, ?_, ?_, hrest⟩
  · exact .name (host_ne_nil hhost) fun c hc => isNameChar_of_code (hostChar_code hhost hc)
  · exact fun p hp => (hport p hp).digits

theorem isUrl_domainUrl (h : parts.WellFormed) {rest : Text}
    (hrest : ∀ c ∈ rest.head?, endsAuthority c = true) :
    IsUrl (httpsPrefix ++ (parts.authority ++ rest)) (domainUrl parts rest) :=
  ⟨wellFormed_https h.host h.port hrest, rfl⟩

theorem endsAuthority_suffix (h : c = '?' ∨ c = '#') : endsAuthority c = true := by
  rcases h with rfl | rfl <;> rfl

theorem isUrl_parts (h : parts.WellFormed) :
    IsUrl parts.text (domainUrl parts (parts.path ++ parts.suffix)) :=
  isUrl_domainUrl h h.splitsAs.behind

theorem getLast?_authority (h : parts.WellFormed) :
    (httpsPrefix ++ parts.authority).getLast? ≠ some '/' := by
  have hne : parts.authority ≠ [] := fun hnil =>
    host_ne_nil h.host (List.append_eq_nil_iff.mp hnil).1
  rw [List.getLast?_append_of_ne_nil _ hne]
  intro hlast
  have hinside := h.splitsAs.inside '/' (List.mem_of_getLast? hlast)
  cases hinside

/-- Without a query or fragment the path of the address is the well-known one. -/
theorem wellKnownUrl_plain (h : parts.WellFormed) (hsuffix : parts.suffix = []) :
    wellKnownUrl parts.text = httpsPrefix ++ (parts.authority ++ wellKnownPath) := by
  have hlast := getLast?_authority h
  unfold wellKnownUrl
  rw [DomainParts.text, hsuffix, List.append_nil]
  rcases h.path with hpath | hpath
  · rw [hpath, List.append_nil, if_neg hlast, List.append_assoc]
  · rw [hpath, ← List.append_assoc, List.getLast?_concat, if_pos rfl, List.dropLast_concat,
      List.append_assoc]

theorem wellKnownUrl_suffix (h : parts.WellFormed) (hsuffix : parts.suffix ≠ []) :
    ∃ suffix, (∀ c ∈ suffix.head?, c = '?' ∨ c = '#') ∧
      wellKnownUrl parts.text = httpsPrefix ++ (parts.authority ++ (parts.path ++ suffix)) := by
  obtain ⟨c, t, hsuffix⟩ := List.exists_cons_of_ne_nil hsuffix
  have hc : c = '?' ∨ c = '#' := h.suffix c (by rw [hsuffix]; rfl)
  unfold wellKnownUrl
  split
  · rename_i hlast
    have hmore : t ≠ [] := by
      rintro rfl
      rw [DomainParts.text, hsuffix, ← List.append_assoc, ← List.append_assoc,
        List.getLast?_concat] at hlast
      obtain rfl := Option.some.inj hlast
      rcases hc with hc | hc <;> cases hc
    refine ⟨c :: t.dropLast ++ wellKnownPath, ?_, ?_⟩
    · intro d hd
      obtain rfl := Option.some.inj hd
      exact hc
    · rw [DomainParts.text, hsuffix, ← List.append_assoc, ← List.append_assoc,
        List.dropLast_append_of_ne_nil (List.cons_ne_nil c t), List.dropLast_cons_of_ne_nil hmore]
      simp only [List.append_assoc]
  · refine ⟨c :: t ++ wellKnownPath, ?_, ?_⟩
    · intro d hd
      obtain rfl := Option.some.inj hd
      exact hc
    · rw [DomainParts.text, hsuffix]
      simp only [List.append_assoc]

theorem fetchStellarTomlUrl_eq_ok :
    fetchStellarTomlUrl domain = .ok url ↔
      validateAnchorDomain domain = .ok () ∧ url = wellKnownUrl domain := by
  simp only [fetchStellarTomlUrl, bind_eq_ok, pure_eq_ok]
  constructor
  · intro h
    obtain ⟨_, hvalid, rfl⟩ := h
    exact ⟨hvalid, rfl⟩
  · intro h
    exact ⟨(), h.1, h.2.symm⟩

/-- The marks of a query or a fragment stand in front of nothing else. -/
theorem suffix_eq_nil_iff (h : parts.WellFormed) :
    parts.suffix = [] ↔ '?' ∉ parts.text ∧ '#' ∉ parts.text := by
  have hfront {c : Char} (hc : c = '?' ∨ c = '#') :
      c ∉ httpsPrefix ++ (parts.authority ++ parts.path) := by
    have hends := endsAuthority_suffix hc
    intro hmem
    rcases List.mem_append.mp hmem with hmem | hmem
    · rcases hc with rfl | rfl <;> exact absurd hmem (by decide)
    rcases List.mem_append.mp hmem with hmem | hmem
    · rw [h.splitsAs.inside c hmem] at hends
      cases hends
    · rcases h.path with hpath | hpath
      · rw [hpath] at hmem
        cases hmem
      · rw [hpath] at hmem
        rcases hc with rfl | rfl <;> exact absurd hmem (by decide)
  have htext : parts.text = httpsPrefix ++ (parts.authority ++ parts.path) ++ parts.suffix := by
    simp only [DomainParts.text, List.append_assoc]
  constructor
  · intro hnil
    rw [htext, hnil, List.append_nil]
    exact ⟨hfront (Or.inl rfl), hfront (Or.inr rfl)⟩
  · intro hnone
    cases hsuffix : parts.suffix with
    | nil => rfl
    | cons c t =>
      have hmem : c ∈ parts.text := by
        rw [htext, hsuffix]
        exact List.mem_append_right _ List.mem_cons_self
      rcases h.suffix c (by rw [hsuffix]; rfl) with rfl | rfl
      · exact absurd hmem hnone.1
      · exact absurd hmem hnone.2

theorem locatesRightly_iff : LocatesRightly domain ↔
    (validateAnchorDomain domain = .ok () → '?' ∉ domain ∧ '#' ∉ domain) := by
  refine forall_congr' fun hvalid => ?_
  obtain ⟨parts, rfl, hparts⟩ := (validateAnchorDomain_eq_ok.mp hvalid).parts
  rw [← suffix_eq_nil_iff hparts]
  constructor
  · intro h
    obtain ⟨url, hurl, u, u', _, hu', _, _, _, _, hpath⟩ := h
    obtain ⟨_, rfl⟩ := fetchStellarTomlUrl_eq_ok.mp hurl
    by_contra hsuffix
    obtain ⟨suffix, hmark, htext⟩ := wellKnownUrl_suffix hparts hsuffix
    have hbehind : ∀ c ∈ (parts.path ++ suffix).head?, endsAuthority c = true := by
      intro c hc
      rcases hparts.path with hempty | hslash
      · rw [hempty] at hc
        exact endsAuthority_suffix (hmark c hc)
      · rw [hslash] at hc
        obtain rfl : '/' = c := Option.some.inj hc
        rfl
    have hknown := isUrl_domainUrl hparts hbehind
    rw [← htext] at hknown
    rw [hu'.unique hknown] at hpath
    change pathOf (parts.path ++ suffix) = wellKnownPath at hpath
    rw [pathOf_append hparts.path hmark] at hpath
    rcases hparts.path with hempty | hslash
    · rw [hempty] at hpath
      cases hpath
    · rw [hslash] at hpath
      cases hpath
  · intro hsuffix
    refine ⟨_, fetchStellarTomlUrl_eq_ok.mpr ⟨hvalid, rfl⟩, _, domainUrl parts wellKnownPath,
      isUrl_parts hparts, ?_, rfl, rfl, rfl, rfl, rfl⟩
    rw [wellKnownUrl_plain hparts hsuffix]
    refine isUrl_domainUrl hparts fun c hc => ?_
    obtain rfl := Option.some.inj hc
    rfl

end Domains

/-! ### What the parser accepted -/

section Accepted

variable {p q : Parser} {parsed : ParsedStellarToml} {raw endpoint : Text}

/-- The endpoints that were found so far are anchor domains. -/
def Parser.Checked (p : Parser) : Prop :=
  ∀ endpoint ∈ p.endpoints.transferServer, validateAnchorDomain endpoint = .ok ()

theorem Parser.Checked.of_endpoints (h : p.Checked) (heq : q.endpoints = p.endpoints) :
    q.Checked := by
  unfold Parser.Checked
  rw [heq]
  exact h

theorem checked_assign {key value : Text} (h : p.Checked) (hassign : p.assign key value = .ok q) :
    q.Checked := by
  unfold Parser.assign at hassign
  split at hassign
  · simp only [bind_eq_ok, pure_eq_ok] at hassign
    obtain ⟨_, _, rfl⟩ := hassign
    exact h.of_endpoints rfl
  · split at hassign
    · rename_i field _
      cases field with
      | transferServer =>
        simp only [Field.isUrl, if_true, bind_eq_ok, pure_eq_ok] at hassign
        obtain ⟨_, hvalid, rfl⟩ := hassign
        intro endpoint hendpoint
        obtain rfl := Option.some.inj hendpoint
        exact hvalid
      | _ =>
        simp only [Field.isUrl, if_true, Bool.false_eq_true, if_false, bind_eq_ok, pure_eq_ok]
          at hassign
        obtain ⟨_, _, rfl⟩ := hassign
        exact h
    · obtain rfl := Except.ok.inj hassign
      exact h

theorem checked_parseLine {line : Text} (h : p.Checked) (hparse : p.parseLine line = .ok q) :
    q.Checked := by
  unfold Parser.parseLine at hparse
  dsimp only at hparse
  split at hparse
  · obtain rfl := Except.ok.inj hparse
    exact h
  split at hparse
  · simp only [Parser.openTable, bind_eq_ok] at hparse
    obtain ⟨_, _, hopen⟩ := hparse
    split at hopen
    · obtain rfl := Except.ok.inj hopen
      exact h.of_endpoints rfl
    · obtain rfl := Except.ok.inj hopen
      exact h.of_endpoints rfl
  split at hparse
  · exact checked_assign h hparse
  · obtain rfl := Except.ok.inj hparse
    exact h

theorem checked_foldlM {lines : List Text} (h : p.Checked)
    (hparse : lines.foldlM Parser.parseLine p = .ok q) : q.Checked := by
  induction lines generalizing p with
  | nil =>
    obtain rfl := Except.ok.inj hparse
    exact h
  | cons line lines ih =>
    rw [List.foldlM_cons, bind_eq_ok] at hparse
    obtain ⟨r, hline, hrest⟩ := hparse
    exact ih (checked_parseLine h hline) hrest

/-- The transfer server of a parsed document is an anchor domain. -/
theorem transferServer_valid (hparse : parseStellarToml raw = .ok parsed)
    (hendpoint : parsed.transferServer = some endpoint) :
    validateAnchorDomain endpoint = .ok () := by
  simp only [parseStellarToml, Parser.finish, bind_eq_ok, pure_eq_ok] at hparse
  obtain ⟨p, hlines, _, _, rfl⟩ := hparse
  have hstart : Parser.start.Checked := by
    intro s hs
    cases hs
  exact checked_foldlM hstart hlines endpoint hendpoint

end Accepted

/-! ### Comparing origins -/

section Compare

variable {u u' : AuthorityUrl} {text source : Text} {port : Option Text}

theorem endpointOrigin_text (h : IsUrl text u) : endpointOrigin text =
    Text.asciiLower u.scheme ++ (schemeSeparator ++ Text.asciiLower u.authority) := by
  unfold endpointOrigin
  rw [← h.2, h.1.cutAt_text]
  dsimp only
  rw [h.1.splitsAs.authorityOf_eq]

/-- Without a user, URLs of one origin that write the port alike compare equal. -/
theorem endpointOrigin_of_alike (h : IsUrl text u) (h' : IsUrl source u')
    (horigin : originOf u = originOf u') (huser : u.userinfo = none) (huser' : u'.userinfo = none)
    (hport : u.port = u'.port) : endpointOrigin text = endpointOrigin source := by
  obtain ⟨hscheme, hhost, _⟩ := Origin.mk.inj horigin
  rw [endpointOrigin_text h, endpointOrigin_text h', hscheme, AuthorityUrl.authority,
    AuthorityUrl.authority, huser, huser', AuthorityUrl.hostPort, AuthorityUrl.hostPort, ← hport,
    Text.asciiLower_append, Text.asciiLower_append, Text.asciiLower_append, Text.asciiLower_append,
    hhost]

theorem infix_asciiLower {t : Text} (h : schemeSeparator <:+: Text.asciiLower t) :
    schemeSeparator <:+: t := by
  obtain ⟨front, back, heq⟩ := h
  have hprefix : schemeSeparator <+: Text.asciiLower (t.drop front.length) := by
    have hdrop : Text.asciiLower (t.drop front.length) =
        (Text.asciiLower t).drop front.length := List.map_drop
    rw [hdrop, ← heq, List.append_assoc, List.drop_left]
    exact List.prefix_append _ _
  have hfound := (Text.prefix_asciiLower_iff (by decide)).mp hprefix
  exact hfound.isInfix.trans (List.drop_suffix _ _).isInfix

theorem eq_of_asciiLower_eq {s t : Text} (ht : ∀ c ∈ t, c.toNat < 0x41 ∨ 0x7a < c.toNat)
    (h : Text.asciiLower s = t) : s = t := by
  have hfront : t <+: s := (Text.prefix_asciiLower_iff ht).mp (h ▸ List.prefix_rfl)
  refine (hfront.eq_of_length ?_).symm
  rw [← h]
  exact List.length_map _

theorem port_no_letter (h : ∀ p ∈ port, IsPort p) :
    ∀ c ∈ portText port, c.toNat < 0x41 ∨ 0x7a < c.toNat := by
  intro c hc
  rcases digit_of_port (fun p hp => (h p hp).digits) hc with rfl | hdigit
  · decide
  · have hcode := Text.isDigit_iff.mp hdigit
    omega

/-- A scheme that is `https` in some case. -/
theorem httpsScheme {scheme : Text} (h : Text.asciiLower scheme = "https".toList) :
    (∃ c ∈ scheme.head?, c.isAlpha = true) ∧ ∀ c ∈ scheme, AuthorityUrl.IsSchemeChar c := by
  have hletters : ∀ c ∈ scheme, c.isAlphanum = true ∧ c.isDigit = false := by
    intro c hc
    have hall : ∀ d ∈ "https".toList, d.isAlphanum = true ∧ d.isDigit = false := by decide
    rw [← isAlphanum_toLower, ← isDigit_toLower]
    exact hall _ (h ▸ List.mem_map_of_mem hc)
  refine ⟨?_, fun c hc => Or.inl (hletters c hc).1⟩
  cases scheme with
  | nil => cases h
  | cons c rest =>
    obtain ⟨halphanum, hdigit⟩ := hletters c List.mem_cons_self
    rw [Char.isAlphanum, hdigit, Bool.or_false] at halphanum
    exact ⟨c, rfl, halphanum⟩

theorem wellFormed_of_asciiLower {host name : Text} (hname : IsHostName name)
    (h : Text.asciiLower host = Text.asciiLower name) : (UrlHost.name host).WellFormed := by
  refine .name ?_ fun c hc => ?_
  · rintro rfl
    exact host_ne_nil hname.asciiLower h.symm
  · have hcode := hostChar_code hname.asciiLower
      (h ▸ List.mem_map_of_mem hc : c.toLower ∈ Text.asciiLower name)
    rw [Text.toNat_toLower] at hcode
    apply isNameChar_of_code
    split at hcode
    · omega
    · omega

/-- What compares equal to an `https` origin has a scheme and an authority of the same spelling but
for the case. -/
theorem cutAt_of_endpointOrigin {authority : Text}
    (heq : Text.asciiLower "https".toList ++ (schemeSeparator ++ Text.asciiLower authority) =
      endpointOrigin source) :
    ∃ scheme afterScheme, Text.cutAt schemeSeparator source = some (scheme, afterScheme) ∧
      Text.asciiLower scheme = "https".toList ∧
      Text.asciiLower (authorityOf afterScheme) = Text.asciiLower authority := by
  unfold endpointOrigin at heq
  split at heq
  · rename_i hnone
    have hinfix : schemeSeparator <:+: Text.asciiLower source := by
      rw [← heq]
      exact ⟨_, _, List.append_assoc _ _ _⟩
    have hsome := Text.isSome_cutAt.mpr (infix_asciiLower hinfix)
    rw [hnone] at hsome
    cases hsome
  · rename_i scheme afterScheme hcut
    have hfront := Text.cutAt_asciiLower (by decide) hcut
      (Text.asciiLower (authorityOf afterScheme))
    have hhttps : Text.cutAt schemeSeparator (Text.asciiLower "https".toList ++ (schemeSeparator ++
        Text.asciiLower authority)) = some ("https".toList, Text.asciiLower authority) :=
      Text.cutAt_append (by decide) _
    change Text.cutAt schemeSeparator (Text.asciiLower scheme ++ (schemeSeparator ++ _)) = _
      at hfront
    rw [← heq] at hfront
    obtain ⟨hscheme, hauthority⟩ := Prod.mk.inj (Option.some.inj (hfront.symm.trans hhttps))
    exact ⟨scheme, afterScheme, hcut, hscheme, hauthority⟩

/-- A URL that compares equal to an anchor domain has the same host and port and names no user. -/
theorem alike_of_endpointOrigin {parts : DomainParts} {rest : Text} (hparts : parts.WellFormed)
    (h : IsUrl text (domainUrl parts rest)) (heq : endpointOrigin text = endpointOrigin source) :
    ∃ u', IsUrl source u' ∧ originOf (domainUrl parts rest) = originOf u' ∧ u'.userinfo = none ∧
      u'.port = parts.port := by
  rw [endpointOrigin_text h] at heq
  obtain ⟨scheme, afterScheme, hcut, hscheme, hauthority⟩ := cutAt_of_endpointOrigin heq
  have hparts' : Text.asciiLower (domainUrl parts rest).authority =
      Text.asciiLower parts.host ++ portText parts.port := by
    rw [← asciiLower_portText hparts.port, ← Text.asciiLower_append]
    rfl
  obtain ⟨host, port, hsplit, hhost, hport⟩ :=
    List.map_eq_append_iff.mp (hauthority.trans hparts')
  obtain rfl := eq_of_asciiLower_eq (port_no_letter hparts.port) hport
  have hhost : Text.asciiLower host = Text.asciiLower parts.host := hhost
  refine ⟨⟨scheme, none, .name host, parts.port, restOf afterScheme⟩, ⟨?_, ?_⟩, ?_, rfl, rfl⟩
  · exact ⟨(httpsScheme hscheme).1, (httpsScheme hscheme).2, nofun,
      wellFormed_of_asciiLower hparts.host hhost, fun p hp => (hparts.port p hp).digits,
      (splitsAs_self afterScheme).behind⟩
  · have hsource := Text.eq_of_cutAt hcut
    rw [(splitsAs_self afterScheme).eq_append, hsplit] at hsource
    exact hsource.symm
  · rw [originOf, originOf, Origin.mk.injEq]
    refine ⟨hscheme.symm, hhost.symm, ?_⟩
    change (writtenPort parts.port).or (defaultPort "https".toList) =
      (writtenPort parts.port).or (defaultPort (Text.asciiLower scheme))
    rw [hscheme]

theorem endpointOrigin_eq_iff (hvalid : validateAnchorDomain text = .ok ()) :
    endpointOrigin text = endpointOrigin source ↔
      SameOrigin text source ∧ SpelledAlike text source := by
  obtain ⟨parts, rfl, hparts⟩ := (validateAnchorDomain_eq_ok.mp hvalid).parts
  have hurl := isUrl_parts hparts
  constructor
  · intro heq
    obtain ⟨u', hu', horigin, huser, hport⟩ := alike_of_endpointOrigin hparts hurl heq
    refine ⟨⟨_, u', hurl, hu', horigin⟩, ?_⟩
    intro v v' hv hv' _
    rw [hv.unique hurl, hv'.unique hu']
    exact ⟨rfl, huser, hport.symm⟩
  · intro h
    obtain ⟨⟨u, u', hu, hu', horigin⟩, halike⟩ := h
    obtain ⟨huser, huser', hport⟩ := halike u u' hu hu' horigin
    exact endpointOrigin_of_alike hu hu' horigin huser huser' hport

theorem parseWithOrigin_eq_ok {raw : Text} {parsed : ParsedStellarToml} :
    parseStellarTomlWithOrigin raw source = .ok parsed ↔ parseStellarToml raw = .ok parsed ∧
      ∀ endpoint ∈ parsed.transferServer, endpointOrigin endpoint = endpointOrigin source := by
  simp only [parseStellarTomlWithOrigin, bind_eq_ok]
  constructor
  · intro h
    obtain ⟨parsed', hparse, h⟩ := h
    split at h
    · rename_i endpoint hendpoint
      simp only [require_bind_eq_ok, pure_eq_ok] at h
      obtain ⟨hsame, rfl⟩ := h
      refine ⟨hparse, fun endpoint' hendpoint' => ?_⟩
      rw [hendpoint] at hendpoint'
      obtain rfl := Option.some.inj hendpoint'
      exact hsame
    · rename_i hnone
      obtain rfl := Except.ok.inj h
      refine ⟨hparse, fun endpoint hendpoint => ?_⟩
      rw [hnone] at hendpoint
      cases hendpoint
  · intro h
    refine ⟨parsed, h.1, ?_⟩
    split
    · rename_i endpoint hendpoint
      simp only [require_bind_eq_ok, pure_eq_ok]
      exact ⟨h.2 endpoint hendpoint, trivial⟩
    · rfl

theorem pinsRightly_iff {raw : Text} : PinsRightly raw source ↔
    ∀ parsed, parseStellarToml raw = .ok parsed →
      ∀ endpoint ∈ parsed.transferServer, SameOrigin endpoint source →
        SpelledAlike endpoint source := by
  constructor
  · intro h parsed hparse endpoint hendpoint hsame
    have haccepted := (h parsed).mpr ⟨hparse, fun other hother => by
      rw [hendpoint] at hother
      obtain rfl := Option.some.inj hother
      exact hsame⟩
    have heq := (parseWithOrigin_eq_ok.mp haccepted).2 endpoint hendpoint
    exact ((endpointOrigin_eq_iff (transferServer_valid hparse hendpoint)).mp heq).2
  · intro h parsed
    rw [parseWithOrigin_eq_ok]
    refine and_congr_right fun hparse => forall₂_congr fun endpoint hendpoint => ?_
    rw [endpointOrigin_eq_iff (transferServer_valid hparse hendpoint)]
    exact ⟨And.left, fun hsame => ⟨hsame, h parsed hparse endpoint hendpoint hsame⟩⟩

end Compare

/-- A domain without query and fragment leads to its well-known address, and a document is pinned
to the origin of its source exactly where the two are spelled alike if they are the same. -/
theorem origins_right_iff (domain raw source : Text) :
    (LocatesRightly domain ↔
      (validateAnchorDomain domain = .ok () → '?' ∉ domain ∧ '#' ∉ domain)) ∧
    (PinsRightly raw source ↔
      ∀ parsed, parseStellarToml raw = .ok parsed →
        ∀ endpoint ∈ parsed.transferServer, SameOrigin endpoint source →
          SpelledAlike endpoint source) :=
  ⟨locatesRightly_iff, pinsRightly_iff⟩

namespace Demo

def pointedTo : Text := "https://anchor.example.com".toList

def fetchedFrom : Text := "https://anchor.example.com:443".toList

def pointer : Text := "TRANSFER_SERVER = \"https://anchor.example.com\"".toList

def pointerParsed : ParsedStellarToml :=
  { Endpoints.empty with transferServer := some pointedTo, supportedAssets := [], currencies := [] }

def anchorUrl (port : Option Text) : AuthorityUrl :=
  ⟨"https".toList, none, .name "anchor.example.com".toList, port, []⟩

theorem wellFormed_anchorUrl {port : Option Text} (h : ∀ p ∈ port, ∀ c ∈ p, c.isDigit = true) :
    (anchorUrl port).WellFormed := by
  have hscheme : ∀ c ∈ "https".toList, c.isAlphanum = true := by decide
  have hhost : ∀ c ∈ "anchor.example.com".toList,
      endsAuthority c = false ∧ c ∉ ['@', ':', '[', ']'] := by decide
  exact ⟨⟨'h', rfl, rfl⟩, fun c hc => Or.inl (hscheme c hc), nofun, .name (by decide) hhost, h,
    nofun⟩

end Demo

/-- A query swallows the path, and the default port written out is taken for another origin. -/
theorem query_and_default_port_misread : ¬ LocatesRightly "https://a.bc?x=1".toList ∧
    ¬ PinsRightly Demo.pointer Demo.fetchedFrom := by
  constructor
  · rw [locatesRightly_iff]
    decide
  · rw [pinsRightly_iff]
    intro h
    have hparse : parseStellarToml Demo.pointer = .ok Demo.pointerParsed := by decide
    have hdigits : ∀ p ∈ some "443".toList, ∀ c ∈ p, c.isDigit = true := by
      intro p hp
      obtain rfl := Option.some.inj hp
      decide
    have hfrom : IsUrl Demo.fetchedFrom (Demo.anchorUrl (some "443".toList)) :=
      ⟨Demo.wellFormed_anchorUrl hdigits, rfl⟩
    have hto : IsUrl Demo.pointedTo (Demo.anchorUrl none) :=
      ⟨Demo.wellFormed_anchorUrl nofun, rfl⟩
    have hsame : originOf (Demo.anchorUrl none) =
        originOf (Demo.anchorUrl (some "443".toList)) := by
      decide
    have halike := h _ hparse Demo.pointedTo rfl ⟨_, _, hto, hfrom, hsame⟩ _ _ hto hfrom hsame
    cases halike.2.2

end StellarToml

end AnchorKit
