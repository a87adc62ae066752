import AnchorKit.HostFilters
import AnchorKit.StellarTomlOrigins

/-!
# Proxies

Which proxy a request goes through depends on the scheme of its URL and on the host, which may be
listed as one that is reached directly.
-/

namespace AnchorKit

structure ProxyConfig where
  proxyUrl : Option Text
  httpProxyUrl : Option Text
  httpsProxyUrl : Option Text
  noProxy : Option Text

def nonEmpty (url : Option Text) : Option Text := url.filter (· ≠ [])

/-- The host between user and port; an address in brackets stands without them. -/
def HttpClient.extractHost (url : Text) : Option Text :=
  let afterScheme :=
    match Text.cutAt schemeSeparator url with
    | some (_, afterScheme) => afterScheme
    | none => url
  let authority := authorityOf afterScheme
  let hostPort :=
    match Text.rcutAt '@' authority with
    | some (_, hostPort) => hostPort
    | none => authority
  match hostPort with
  | '[' :: rest => (Text.cutAt [']'] rest).map Prod.fst
  | _ =>
    let host :=
      match Text.rcutAt ':' hostPort with
      | some (host, _) => host
      | none => hostPort
    if host = [] then none else some host

namespace ProxyConfig

def schemeIs (targetUrl scheme : Text) : Bool :=
  match Text.getTo (Text.byteLen scheme) targetUrl with
  | some s => Text.eqIgnoreAsciiCase s scheme
  | none => false

def entryMatches (host entry : Text) : Bool :=
  if entry = ['*'] then true
  else
    let entryLower := Text.asciiLower entry
    let hostLower := Text.asciiLower host
    match entryLower with
    | '.' :: suffix => entryLower.isSuffixOf hostLower || decide (hostLower = suffix)
    | _ => decide (hostLower = entryLower) || ('.' :: entryLower).isSuffixOf hostLower

def entries (list : Text) : List Text :=
  ((list.splitOn ',').map (Text.trimMatches isWhitespace)).filter (· ≠ [])

def hostBypassesProxy (config : ProxyConfig) (targetUrl : Text) : Bool :=
  match config.noProxy with
  | some list =>
    if list ≠ [] then
      match HttpClient.extractHost targetUrl with
      | some host => (entries list).any (entryMatches host)
      | none => false
    else false
  | none => false

def selectProxyUrl (config : ProxyConfig) (targetUrl : Text) : Option Text :=
  let isHttps :=
    if schemeIs targetUrl "https://".toList then some true
    else if schemeIs targetUrl "http://".toList then some false
    else none
  match isHttps with
  | none => if config.hostBypassesProxy targetUrl then none else nonEmpty config.proxyUrl
  | some isHttps =>
    if config.hostBypassesProxy targetUrl then none
    else if isHttps then (nonEmpty config.httpsProxyUrl).or (nonEmpty config.proxyUrl)
    else (nonEmpty config.httpProxyUrl).or (nonEmpty config.proxyUrl)

/-! ### Which proxy is right -/

def Given (url : Option Text) : Prop := ∃ t, url = some t ∧ t ≠ []

def withoutDot (entry : Text) : Text := if entry.head? = some '.' then entry.tail else entry

/-- The host is listed, or under a listed one, or every host is. -/
def Bypassed (config : ProxyConfig) (host : Text) : Prop :=
  ∃ list ∈ config.noProxy, ∃ entry ∈ entries list,
    entry = ['*'] ∨ UnderHost host (withoutDot entry)

/-- The proxy for the scheme alone. -/
def schemeProxyUrl (config : ProxyConfig) (scheme : Text) : Option Text :=
  if Text.asciiLower scheme = "https".toList then config.httpsProxyUrl else config.httpProxyUrl

structure SelectsRightly (config : ProxyConfig) (u : AuthorityUrl) (selected : Option Text) :
    Prop where
  none_iff : selected = none ↔
    (¬ Given (config.schemeProxyUrl u.scheme) ∧ ¬ Given config.proxyUrl) ∨
      config.Bypassed u.host.content
  scheme (hproxied : ¬ config.Bypassed u.host.content)
    (hgiven : Given (config.schemeProxyUrl u.scheme)) :
    selected = config.schemeProxyUrl u.scheme
  catchAll (hproxied : ¬ config.Bypassed u.host.content)
    (hgiven : ¬ Given (config.schemeProxyUrl u.scheme)) (hall : Given config.proxyUrl) :
    selected = config.proxyUrl

/-! ### Hosts -/

section Hosts

variable {url host entry : Text} {u : AuthorityUrl} {config : ProxyConfig}

/-- What is behind the last `@` of the authority. -/
theorem behind_user (h : u.WellFormed) : (match Text.rcutAt '@' u.authority with
    | some (_, hostPort) => hostPort
    | none => u.authority) = u.hostPort := by
  have hfree : '@' ∉ u.hostPort := fun hmem => (h.hostPort_inside hmem).2 rfl
  unfold AuthorityUrl.authority
  cases u.userinfo with
  | none =>
    rw [AuthorityUrl.userinfoText, List.nil_append, Text.rcutAt_of_not_mem hfree]
  | some w =>
    rw [AuthorityUrl.userinfoText, List.append_assoc, List.singleton_append,
      Text.rcutAt_append hfree w]

theorem before_port {name : Text} {port : Option Text} (hname : ':' ∉ name)
    (hport : ∀ p ∈ port, ∀ c ∈ p, c.isDigit = true) :
    (match Text.rcutAt ':' (name ++ portText port) with
      | some (host, _) => host
      | none => name ++ portText port) = name := by
  cases port with
  | none => rw [portText, List.append_nil, Text.rcutAt_of_not_mem hname]
  | some p => rw [portText, Text.rcutAt_append (colon_not_mem_digits (hport p rfl))]

theorem extractHost_of_isUrl (h : IsUrl url u) :
    HttpClient.extractHost url = some u.host.content := by
  obtain ⟨hwell, rfl⟩ := h
  unfold HttpClient.extractHost
  rw [hwell.cutAt_text]
  dsimp only
  rw [hwell.splitsAs.authorityOf_eq, behind_user hwell]
  unfold AuthorityUrl.hostPort
  have hhost := hwell.host
  cases hu : u.host with
  | name n =>
    rw [hu] at hhost
    have hhead := hhost.head_name (portText u.port)
    have hname := before_port hhost.colon_not_mem hwell.port
    dsimp only [UrlHost.text, UrlHost.content]
    split
    · rename_i rest hbracket
      rw [hbracket] at hhead
      exact absurd rfl hhead
    · have hne : n ≠ [] := hhost.text_ne_nil
      simp only [hname, hne, if_false]
  | literal address =>
    rw [hu] at hhost
    have hcut := Text.cutAt_singleton hhost.bracket_not_mem (portText u.port)
    simp only [UrlHost.text, UrlHost.content, List.cons_append, List.append_assoc, List.nil_append]
    rw [hcut]
    rfl

theorem isUrl_address {a : WebAddress} (h : a.WellFormed) (hscheme : a.scheme = "https".toList) :
    IsUrl a.text ⟨a.scheme, none, .name a.host, a.port, a.rest⟩ := by
  refine ⟨?_, rfl⟩
  rw [hscheme]
  exact StellarToml.wellFormed_https h.host h.port h.rest

/-- On an accepted domain both ways to find the host agree. -/
theorem extractHost_of_accepted {domain : Text} (h : validateAnchorDomain domain = .ok ()) :
    HttpClient.extractHost domain = some (extractHost domain) := by
  obtain ⟨a, rfl, hwell, hscheme⟩ := exists_address_of_validate h
  rw [extractHost_of_isUrl (isUrl_address hwell hscheme), extractHost_text hwell hscheme]
  rfl

/-! ### The list of hosts -/

theorem head_asciiLower_dot :
    (Text.asciiLower entry).head? = some '.' ↔ entry.head? = some '.' := by
  cases entry with
  | nil => rfl
  | cons c rest =>
    rw [Text.asciiLower_cons, List.head?_cons, List.head?_cons, Option.some.injEq,
      Option.some.injEq, Text.toLower_eq_iff (by decide)]

theorem entryMatches_iff :
    entryMatches host entry = true ↔ entry = ['*'] ∨ UnderHost host (withoutDot entry) := by
  unfold entryMatches UnderHost
  by_cases hstar : entry = ['*']
  · rw [if_pos hstar]
    exact iff_of_true rfl (Or.inl hstar)
  · rw [if_neg hstar, or_iff_right hstar]
    dsimp only
    split
    · rename_i suffix hlower
      have hdot : entry.head? = some '.' := by
        rw [← head_asciiLower_dot, hlower]
        rfl
      have hsuffix : Text.asciiLower entry.tail = suffix := by
        rw [Text.asciiLower, List.map_tail]
        exact congrArg List.tail hlower
      rw [withoutDot, if_pos hdot, hsuffix, hlower, Bool.or_eq_true, List.isSuffixOf_iff_suffix,
        decide_eq_true_iff, Or.comm]
    · rename_i hother
      have hdot : entry.head? ≠ some '.' := by
        intro hdot
        obtain ⟨suffix, hlower⟩ := List.head?_eq_some_iff.mp (head_asciiLower_dot.mpr hdot)
        exact hother suffix hlower
      rw [withoutDot, if_neg hdot, Bool.or_eq_true, List.isSuffixOf_iff_suffix, decide_eq_true_iff]

theorem hostBypassesProxy_iff (h : IsUrl url u) :
    config.hostBypassesProxy url = true ↔ config.Bypassed u.host.content := by
  have hempty : entries [] = [] := rfl
  unfold hostBypassesProxy Bypassed
  cases config.noProxy with
  | none => simp
  | some list =>
    rw [extractHost_of_isUrl h]
    by_cases hlist : list = []
    · simp [hlist, hempty]
    · simp [hlist, entryMatches_iff]

end Hosts

/-! ### Schemes -/

section Schemes

variable {url : Text} {u : AuthorityUrl} {config : ProxyConfig}

theorem schemeIs_iff {scheme : Text} (hscheme : ∀ c ∈ scheme, Text.isAscii c = true) :
    schemeIs url scheme = true ↔ Text.asciiLower scheme <+: Text.asciiLower url := by
  rw [← Text.exists_getTo_eqIgnoreAsciiCase hscheme, schemeIs]
  cases Text.getTo (Text.byteLen scheme) url with
  | none => simp
  | some front => simp

/-- A URL of another scheme does not start with this one. -/
theorem schemeIs_of_isUrl (scheme : Text) (hascii : ∀ c ∈ scheme, Text.isAscii c = true)
    (hcolon : ':' ∉ scheme) (h : IsUrl url u) :
    schemeIs url (scheme ++ schemeSeparator) = true ↔
      Text.asciiLower u.scheme = Text.asciiLower scheme := by
  obtain ⟨hwell, rfl⟩ := h
  have hseparator : ∀ c ∈ schemeSeparator, Text.isAscii c = true := by decide
  have hlower : Text.asciiLower schemeSeparator = schemeSeparator := by decide
  have hfree {s : Text} (hs : ':' ∉ s) : ':' ∉ Text.asciiLower s := by
    rwa [Text.mem_asciiLower (by decide)]
  rw [schemeIs_iff (List.forall_mem_append.mpr ⟨hascii, hseparator⟩), AuthorityUrl.text]
  simp only [Text.asciiLower_append, hlower]
  constructor
  · intro ⟨rest, hrest⟩
    have hcut (t : Text) : Text.cutAt schemeSeparator
        (Text.asciiLower scheme ++ (schemeSeparator ++ t)) = some (Text.asciiLower scheme, t) :=
      Text.cutAt_append (hfree hcolon) t
    have hsame : Text.cutAt schemeSeparator (Text.asciiLower u.scheme ++ (schemeSeparator ++
        (Text.asciiLower u.authority ++ Text.asciiLower u.rest))) =
          some (Text.asciiLower u.scheme, _) :=
      Text.cutAt_append (hfree hwell.colon_not_mem_scheme) _
    rw [← hrest, List.append_assoc, hcut] at hsame
    exact (Prod.mk.inj (Option.some.inj hsame)).1.symm
  · intro heq
    rw [heq, ← List.append_assoc]
    exact List.prefix_append _ _

theorem nonEmpty_of_given {url : Option Text} (h : Given url) : nonEmpty url = url := by
  obtain ⟨t, rfl, hne⟩ := h
  exact Option.filter_some_pos (decide_eq_true hne)

theorem nonEmpty_eq_none {url : Option Text} : nonEmpty url = none ↔ ¬ Given url := by
  unfold nonEmpty Given
  cases url with
  | none => simp
  | some t => simp

/-- With one of the two schemes the proxy for the scheme comes before the other. -/
theorem selectProxyUrl_eq (h : IsUrl url u)
    (hscheme : Text.asciiLower u.scheme ∈ ["https".toList, "http".toList]) :
    config.selectProxyUrl url = if config.hostBypassesProxy url = true then none
      else (nonEmpty (config.schemeProxyUrl u.scheme)).or (nonEmpty config.proxyUrl) := by
  have hhttps : schemeIs url "https://".toList = true ↔
      Text.asciiLower u.scheme = "https".toList :=
    schemeIs_of_isUrl "https".toList (by decide) (by decide) h
  have hhttp : schemeIs url "http://".toList = true ↔ Text.asciiLower u.scheme = "http".toList :=
    schemeIs_of_isUrl "http".toList (by decide) (by decide) h
  unfold selectProxyUrl schemeProxyUrl
  rcases List.mem_cons.mp hscheme with heq | hmem
  · rw [if_pos (hhttps.mpr heq), if_pos heq]
    rfl
  · have heq := List.mem_singleton.mp hmem
    have hother : Text.asciiLower u.scheme ≠ "https".toList := by
      rw [heq]
      decide
    rw [if_neg (mt hhttps.mp hother), if_pos (hhttp.mpr heq), if_neg hother]
    rfl

end Schemes

/-- The selection is right for every URL, and the host that it looks up is the one that is taken
out of an accepted domain elsewhere. -/
theorem selects_rightly (config : ProxyConfig) :
    (∀ url u, IsUrl url u → Text.asciiLower u.scheme ∈ ["https".toList, "http".toList] →
        config.SelectsRightly u (config.selectProxyUrl url)) ∧
      ∀ domain, validateAnchorDomain domain = .ok () →
        HttpClient.extractHost domain = some (extractHost domain) := by
  refine ⟨?_, fun domain => extractHost_of_accepted⟩
  intro url u h hscheme
  have hbypass : config.hostBypassesProxy url = true ↔ config.Bypassed u.host.content :=
    hostBypassesProxy_iff h
  rw [selectProxyUrl_eq h hscheme]
  by_cases hdirect : config.Bypassed u.host.content
  · rw [if_pos (hbypass.mpr hdirect)]
    exact ⟨iff_of_true rfl (Or.inr hdirect), fun hproxied => absurd hdirect hproxied,
      fun hproxied => absurd hdirect hproxied⟩
  · rw [if_neg (mt hbypass.mp hdirect)]
    refine ⟨?_, ?_, ?_⟩
    · rw [Option.or_eq_none_iff, nonEmpty_eq_none, nonEmpty_eq_none, or_iff_left hdirect]
    · intro _ hgiven
      rw [nonEmpty_of_given hgiven]
      obtain ⟨t, ht, _⟩ := hgiven
      rw [ht]
      rfl
    · intro _ hmissing hall
      rw [nonEmpty_eq_none.mpr hmissing, nonEmpty_of_given hall]
      rfl

/-- A subdomain of a listed name in another case, behind a user and a port, is reached directly. -/
theorem selects_rightly_bypass :
    let config : ProxyConfig :=
      ⟨some "http://proxy:3128".toList, none, some [], some "localhost, .Internal.Corp".toList⟩
    let u : AuthorityUrl :=
      ⟨"HTTPS".toList, some "me".toList, .name "API.internal.corp".toList, some "443".toList,
        "/health".toList⟩
    config.SelectsRightly u (config.selectProxyUrl u.text) ∧
      HttpClient.extractHost "https://anchor.example".toList =
        some (extractHost "https://anchor.example".toList) := by
  have halnum : ∀ c ∈ "HTTPS".toList, c.isAlphanum = true := by decide
  have hhost : (UrlHost.name "API.internal.corp".toList).WellFormed := by
    refine .name (by decide) ?_
    unfold UrlHost.IsNameChar
    decide
  refine ⟨(selects_rightly _).1 _ _ ⟨⟨⟨'H', rfl, rfl⟩, fun c hc => Or.inl (halnum c hc), ?_, hhost,
    ?_, ?_⟩, rfl⟩ (by decide),
    (selects_rightly ⟨none, none, none, none⟩).2 _ (by decide)⟩
  · intro userinfo huserinfo
    obtain rfl := Option.some.inj huserinfo
    decide
  · intro port hport
    obtain rfl := Option.some.inj hport
    decide
  · intro c hc
    obtain rfl := Option.some.inj hc
    rfl

end ProxyConfig

end AnchorKit
