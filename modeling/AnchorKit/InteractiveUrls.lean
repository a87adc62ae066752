import AnchorKit.UrlNormalizer
import AnchorKit.Webhook

/-!
# URLs of interactive flows

The gate of SEP-24 for the URL that a user is sent to. It asks for an anchor domain, for an allowed
origin and for a query that sends nobody elsewhere. Names and values of the query are compared
behind their percent encoding.
-/

namespace AnchorKit

open Fallible

/-- `scheme://host` with a port, of a URL that is normalized. -/
def extractNormalizedOrigin (normalizedUrl : Text) : Text :=
  match Text.cutAt schemeSeparator normalizedUrl with
  | some (scheme, afterScheme) =>
    let hostAndPort := afterScheme.takeWhile fun c => c ≠ '/'
    Text.asciiLower scheme ++ schemeSeparator ++ Text.asciiLower hostAndPort
  | none => []

def redirectNames : List Text :=
  ["redirect".toList, "redirect_url".toList, "redirect_uri".toList, "callback".toList,
    "next".toList, "return_url".toList, "return_uri".toList, "continue".toList, "dest".toList,
    "destination".toList, "goto".toList, "target".toList, "to".toList]

def byteChar (b : UInt8) : Char := Char.ofNat b.toNat

/-- The loop over the bytes of a component; a plus sign stands for a space. -/
def decodeComponent : Bytes → Text
  | b :: h :: l :: rest =>
    if b = 0x2b then ' ' :: decodeComponent (h :: l :: rest)
    else if b = 0x25 then
      match Webhook.toDigit16 (byteChar h), Webhook.toDigit16 (byteChar l) with
      | some high, some low =>
        Char.ofNat (high.toNat * 16 + low.toNat) :: decodeComponent rest
      | _, _ => '%' :: decodeComponent (h :: l :: rest)
    else byteChar b :: decodeComponent (h :: l :: rest)
  | b :: rest => (if b = 0x2b then ' ' else byteChar b) :: decodeComponent rest
  | [] => []

def percentDecodeQueryComponent (input : Text) : Text := decodeComponent input.utf8

def splitParameter (pair : Text) : Text × Text := (Text.cutAt ['='] pair).getD (pair, [])

def hasOpenRedirectPattern (url : Text) : Bool :=
  match Text.cutAt ['?'] url with
  | some (_, afterMark) =>
    let query := afterMark.takeWhile fun c => c ≠ '#'
    (query.splitOn '&').any fun pair =>
      let key := percentDecodeQueryComponent (splitParameter pair).1
      let val := percentDecodeQueryComponent (splitParameter pair).2
      redirectNames.contains (Text.asciiLower key) && (Text.cutAt schemeSeparator val).isSome
  | none => false

def validateInteractiveUrl (url : Text) (allowedOrigin : Option Text) :
    Except AnchorKitError Unit := do
  let normalized ← normalizeUrl url
  (validateAnchorDomain normalized).mapError fun _ => .invalidEndpointFormat
  require (normalized ≠ httpsPrefix) .invalidEndpointFormat
  match allowedOrigin with
  | some origin => do
    let expected ← normalizeUrl origin
    require (extractNormalizedOrigin normalized = extractNormalizedOrigin expected)
      (.withContext .invalidEndpointFormat "interactive URL origin does not match allowed origin"
        (String.ofList normalized))
  | none => pure ()
  require (hasOpenRedirectPattern normalized = false)
    (.withContext .invalidEndpointFormat "interactive URL contains unsafe redirect parameters"
      (String.ofList normalized))

/-! ### Percent encoding -/

/-- A text behind its percent encoding: a percent sign with two digits stands for the character of
that code, and every other character for itself. -/
def percentDecoded : Text → Text
  | c :: h :: l :: rest =>
    if c = '%' then
      match Webhook.toDigit16 h, Webhook.toDigit16 l with
      | some high, some low => Char.ofNat (high.toNat * 16 + low.toNat) :: percentDecoded rest
      | _, _ => c :: percentDecoded (h :: l :: rest)
    else c :: percentDecoded (h :: l :: rest)
  | c :: rest => c :: percentDecoded rest
  | [] => []

/-- Plus signs and spaces are not told apart. -/
def blur (c : Char) : Char := if c = '+' then ' ' else c

section Decoding

variable {t : Text} {c d : Char}

theorem utf8_cons_ascii (h : Text.isAscii c = true) :
    Text.utf8 (c :: t) = UInt8.ofNat c.toNat :: t.utf8 := by
  rw [Text.utf8_cons, Text.utf8_of_isAscii h]
  rfl

theorem decodeComponent_cons (rest : Bytes) (hc : Text.isAscii c = true) (hpercent : c ≠ '%') :
    decodeComponent (UInt8.ofNat c.toNat :: rest) = blur c :: decodeComponent rest := by
  have hplus : UInt8.ofNat c.toNat = 0x2b ↔ c = '+' := Text.ofNat_toNat_inj (d := '+') hc rfl
  have hsign : UInt8.ofNat c.toNat ≠ 0x25 := mt (Text.ofNat_toNat_inj (d := '%') hc rfl).mp hpercent
  have hchar : byteChar (UInt8.ofNat c.toNat) = c := Text.ofNat_byte hc
  rcases rest with _ | ⟨h, _ | ⟨l, rest⟩⟩
  all_goals simp only [decodeComponent, blur, hplus, hchar, if_neg hsign]
  split
  · rfl
  · rfl

theorem decodeComponent_digits {high low : UInt8} (rest : Bytes) (hc : Text.isAscii c = true)
    (hd : Text.isAscii d = true) (hhigh : Webhook.toDigit16 c = some high)
    (hlow : Webhook.toDigit16 d = some low) :
    decodeComponent (0x25 :: UInt8.ofNat c.toNat :: UInt8.ofNat d.toNat :: rest) =
      Char.ofNat (high.toNat * 16 + low.toNat) :: decodeComponent rest := by
  have hc : byteChar (UInt8.ofNat c.toNat) = c := Text.ofNat_byte hc
  have hd : byteChar (UInt8.ofNat d.toNat) = d := Text.ofNat_byte hd
  have hplus : ¬ (0x25 : UInt8) = 0x2b := by decide
  rw [decodeComponent, if_neg hplus, if_pos rfl, hc, hd, hhigh, hlow]

theorem decodeComponent_sign {rest : Text} (hascii : ∀ c ∈ rest, Text.isAscii c = true)
    (h : ∀ c d back high low, rest = c :: d :: back → Webhook.toDigit16 c = some high →
      Webhook.toDigit16 d = some low → False) :
    decodeComponent (0x25 :: rest.utf8) = '%' :: decodeComponent rest.utf8 := by
  have hplus : ¬ (0x25 : UInt8) = 0x2b := by decide
  cases rest with
  | nil => rfl
  | cons c rest =>
    obtain ⟨hc, hrest⟩ := List.forall_mem_cons.mp hascii
    cases rest with
    | nil =>
      rw [utf8_cons_ascii hc]
      simp only [Text.utf8_nil, decodeComponent, if_neg hplus]
      rfl
    | cons d rest =>
      obtain ⟨hd, _⟩ := List.forall_mem_cons.mp hrest
      rw [utf8_cons_ascii hc, utf8_cons_ascii hd, decodeComponent, if_neg hplus, if_pos rfl,
        byteChar, Text.ofNat_byte hc, byteChar, Text.ofNat_byte hd]
      split
      · rename_i high low hhigh hlow
        exact (h c d rest high low rfl hhigh hlow).elim
      · rfl

/-- The loop of the gate differs from percent decoding in its plus signs only. -/
theorem blur_decode (hascii : ∀ c ∈ t, Text.isAscii c = true) :
    (percentDecodeQueryComponent t).map blur = (percentDecoded t).map blur := by
  have hblur (c : Char) : blur (blur c) = blur c := by
    unfold blur
    split
    · rfl
    · rfl
  unfold percentDecodeQueryComponent
  induction t using percentDecoded.induct with
  | case1 h l rest high low hlow hhigh ih =>
    obtain ⟨hsign, hh, hl, hrest⟩ := by simpa only [List.forall_mem_cons] using hascii
    rw [utf8_cons_ascii hsign, utf8_cons_ascii hh, utf8_cons_ascii hl, percentDecoded, if_pos rfl,
      hhigh, hlow]
    dsimp only
    rw [List.map_cons, ← ih hrest, ← List.map_cons]
    exact congrArg _ (decodeComponent_digits _ hh hl hhigh hlow)
  | case2 h l rest hnot ih =>
    obtain ⟨hsign, hrest⟩ := List.forall_mem_cons.mp hascii
    have hstep :
        percentDecoded ('%' :: h :: l :: rest) = '%' :: percentDecoded (h :: l :: rest) := by
      rw [percentDecoded, if_pos rfl]
      split
      · rename_i high low hhigh hlow
        exact (hnot high low hhigh hlow).elim
      · rfl
    rw [utf8_cons_ascii hsign, hstep, List.map_cons, ← ih hrest, ← List.map_cons]
    refine congrArg _ (decodeComponent_sign hrest ?_)
    intro c d back high low heq hhigh hlow
    cases heq
    exact hnot high low hhigh hlow
  | case3 c h l rest hpercent ih =>
    obtain ⟨hc, hrest⟩ := List.forall_mem_cons.mp hascii
    rw [utf8_cons_ascii hc, percentDecoded, if_neg hpercent, decodeComponent_cons _ hc hpercent,
      List.map_cons, List.map_cons, hblur, ih hrest]
  | case4 c rest hshort ih =>
    obtain ⟨hc, hrest⟩ := List.forall_mem_cons.mp hascii
    have hstep : percentDecoded (c :: rest) = c :: percentDecoded rest := by
      rw [percentDecoded]
      exact hshort
    rw [utf8_cons_ascii hc, hstep, List.map_cons, ← ih hrest]
    by_cases hpercent : c = '%'
    · subst hpercent
      rw [← List.map_cons]
      refine congrArg _ (decodeComponent_sign hrest ?_)
      intro d e back _ _ heq
      exact absurd heq (hshort d e back)
    · rw [decodeComponent_cons _ hc hpercent, List.map_cons, hblur]
  | case5 => rfl

end Decoding

/-! ### Redirects of a query -/

/-- A parameter with the name of a redirect, in any case, has a URL for its value. -/
def Redirects (query : Text) : Prop :=
  ∃ pair ∈ query.splitOn '&',
    Text.asciiLower (percentDecoded (splitParameter pair).1) ∈ redirectNames ∧
      schemeSeparator <:+: percentDecoded (splitParameter pair).2

/-- What stands behind the first question mark, up to the fragment. -/
def readQuery (url : Text) : Option Text :=
  (Text.cutAt ['?'] url).map fun parts => parts.2.takeWhile fun c => c ≠ '#'

/-- What stands behind the first question mark in front of the fragment. -/
def queryOf (url : Text) : Option Text :=
  (Text.cutAt ['?'] (url.takeWhile fun c => c ≠ '#')).map Prod.snd

section Queries

variable {s t query url pair : Text}

/-- Without plus signs and spaces nothing is blurred. -/
theorem map_blur_eq {pattern : Text} (h : ∀ c ∈ pattern, c ≠ '+' ∧ c ≠ ' ') :
    t.map blur = pattern ↔ t = pattern := by
  induction t generalizing pattern with
  | nil => rfl
  | cons c t ih =>
    cases pattern with
    | nil => simp
    | cons d pattern =>
      obtain ⟨⟨hplus, hspace⟩, hpattern⟩ := List.forall_mem_cons.mp h
      have hchar : blur c = d ↔ c = d := by
        unfold blur
        split
        · rename_i hc
          exact iff_of_false (Ne.symm hspace) fun heq => hplus (heq.symm.trans hc)
        · rfl
      rw [List.map_cons, List.cons.injEq, List.cons.injEq, hchar, ih hpattern]

theorem asciiLower_blur (t : Text) :
    Text.asciiLower (t.map blur) = (Text.asciiLower t).map blur := by
  have hchar (c : Char) : (blur c).toLower = blur c.toLower := by
    have hplus : c.toLower = '+' ↔ c = '+' := Text.toLower_eq_iff (by decide)
    unfold blur
    rw [if_congr hplus rfl rfl]
    split
    · rfl
    · rfl
  rw [Text.asciiLower, Text.asciiLower, List.map_map, List.map_map]
  exact List.map_congr_left fun c _ => hchar c

theorem infix_blur {pattern : Text} (h : ∀ c ∈ pattern, c ≠ '+' ∧ c ≠ ' ') :
    pattern <:+: t.map blur ↔ pattern <:+: t := by
  rw [List.infix_map_iff]
  constructor
  · intro hmap
    obtain ⟨part, hpart, heq⟩ := hmap
    rwa [(map_blur_eq h).mp heq.symm] at hpart
  · intro hpart
    exact ⟨pattern, hpart, ((map_blur_eq h).mpr rfl).symm⟩

theorem mem_redirectNames_blur :
    Text.asciiLower (t.map blur) ∈ redirectNames ↔ Text.asciiLower t ∈ redirectNames := by
  have hnames : ∀ name ∈ redirectNames, ∀ c ∈ name, c ≠ '+' ∧ c ≠ ' ' := by decide
  rw [asciiLower_blur]
  constructor
  · intro hmem
    rwa [(map_blur_eq (hnames _ hmem)).mp rfl]
  · intro hmem
    rwa [(map_blur_eq (hnames _ hmem)).mpr rfl]

theorem ascii_splitParameter (h : ∀ c ∈ pair, Text.isAscii c = true) :
    (∀ c ∈ (splitParameter pair).1, Text.isAscii c = true) ∧
      ∀ c ∈ (splitParameter pair).2, Text.isAscii c = true := by
  unfold splitParameter
  cases hcut : Text.cutAt ['='] pair with
  | none => exact ⟨h, fun c hc => by cases hc⟩
  | some parts =>
    obtain ⟨name, value⟩ := parts
    have heq := Text.eq_of_cutAt hcut
    constructor
    · intro c hc
      exact h c (heq ▸ List.mem_append_left _ hc)
    · intro c hc
      exact h c (heq ▸ List.mem_append_right _ (List.mem_append_right _ hc))

/-- The gate finds what percent decoding finds. -/
theorem hasOpenRedirectPattern_iff (h : ∀ c ∈ url, Text.isAscii c = true) :
    hasOpenRedirectPattern url = true ↔ ∃ query ∈ readQuery url, Redirects query := by
  unfold hasOpenRedirectPattern readQuery
  cases hcut : Text.cutAt ['?'] url with
  | none => simp
  | some parts =>
    obtain ⟨front, back⟩ := parts
    have hquery : ∀ c ∈ back.takeWhile (fun c => c ≠ '#'), Text.isAscii c = true := by
      intro c hc
      have hback := (List.takeWhile_subset _ hc : c ∈ back)
      rw [Text.eq_of_cutAt hcut] at h
      exact h c (List.mem_append_right _ (List.mem_append_right _ hback))
    have hseparator : ∀ c ∈ schemeSeparator, c ≠ '+' ∧ c ≠ ' ' := by decide
    simp only [Option.map_some, Option.mem_some_iff, exists_eq_left', List.any_eq_true,
      Bool.and_eq_true, List.contains_iff_mem, Text.isSome_cutAt, Redirects]
    refine exists_congr fun pair => and_congr_right fun hpair => ?_
    obtain ⟨hname, hvalue⟩ := ascii_splitParameter fun c hc =>
      hquery c (Text.mem_of_mem_splitOn hpair hc)
    rw [← mem_redirectNames_blur, blur_decode hname, mem_redirectNames_blur,
      ← infix_blur hseparator, blur_decode hvalue, infix_blur hseparator]

/-- A question mark in front of the fragment is the first one. -/
theorem readQuery_of_queryOf (h : queryOf url = some query) : readQuery url = some query := by
  obtain ⟨⟨front, back⟩, hcut, rfl⟩ := Option.map_eq_some_iff.mp h
  have hheld : url.takeWhile (fun c => c ≠ '#') = (front ++ ['?']) ++ back := by
    rw [Text.eq_of_cutAt hcut, List.append_assoc]
  have hfront : ∀ c ∈ front ++ ['?'], decide (c ≠ '#') = true := by
    intro c hc
    have hc : c ∈ url.takeWhile fun c => c ≠ '#' := hheld ▸ List.mem_append_left back hc
    exact List.mem_takeWhile_imp (p := fun c => decide (c ≠ '#')) hc
  have hurl : (front ++ ['?']) ++ (back ++ url.dropWhile fun c => c ≠ '#') = url := by
    rw [← List.append_assoc, ← hheld]
    exact List.takeWhile_append_dropWhile
  have hback : (back ++ url.dropWhile fun c => c ≠ '#').takeWhile (fun c => c ≠ '#') = back := by
    rw [← hurl, List.takeWhile_append_of_pos hfront] at hheld
    exact List.append_cancel_left hheld
  have hfirst : Text.cutAt ['?'] url = some (front, back ++ url.dropWhile fun c => c ≠ '#') := by
    conv_lhs => rw [← hurl]
    rw [List.append_assoc]
    exact Text.cutAt_singleton (Text.not_mem_of_cutAt hcut) _
  rw [readQuery, hfirst, Option.map_some, hback]

end Queries

/-! ### Origins -/

namespace WebAddress

/-- The default port where none is written. -/
def effectivePort (a : WebAddress) : ℕ := a.port.elim 443 Text.decimalValue

/-- The scheme is `https` on both sides. -/
def SameOrigin (a b : WebAddress) : Prop :=
  Text.asciiLower a.host = Text.asciiLower b.host ∧ a.effectivePort = b.effectivePort

/-- What a cut at the first slash leaves behind the authority. -/
def uncut (a : WebAddress) : Text := Text.asciiLower (a.rest.takeWhile fun c => c ≠ '/')

/-- The same digits for a port that is not the default one, and the same text in front of the first
slash. -/
def SpelledAlike (a b : WebAddress) : Prop :=
  a.normalized.port = b.normalized.port ∧ a.uncut = b.uncut

/-- An address within the bounds of a validator, but for its path. -/
structure Acceptable (a : WebAddress) : Prop extends a.WellFormed where
  length_ge : 12 ≤ a.text.length
  length_le : a.text.length ≤ 2048

end WebAddress

section Origins

variable {a b : WebAddress}

/-- What takes a bare slash for nothing does not see normalization. -/
theorem apply_normalized_rest {β : Type} {f : Text → β} (h : f ['/'] = f []) (a : WebAddress) :
    f a.normalized.rest = f a.rest := by
  simp only [WebAddress.normalized]
  split
  · rename_i hrest
    rw [hrest, h]
  · rfl

theorem uncut_normalized (a : WebAddress) : a.normalized.uncut = a.uncut :=
  apply_normalized_rest (f := fun rest => Text.asciiLower (rest.takeWhile fun c => c ≠ '/')) rfl a

theorem effectivePort_normalized (a : WebAddress) :
    a.normalized.effectivePort = a.effectivePort := by
  simp only [WebAddress.effectivePort, WebAddress.normalized]
  split
  · rename_i hport
    rw [hport]
    rfl
  · rfl

theorem extractNormalizedOrigin_text (h : a.WellFormed) :
    extractNormalizedOrigin a.text =
      "https".toList ++ schemeSeparator ++
        (Text.asciiLower a.host ++ portText a.port ++ a.uncut) := by
  have hslash : ∀ c ∈ a.authority, decide (c ≠ '/') = true := by
    intro c hc
    have hinside := h.splitsAs.inside c hc
    rw [decide_eq_true_eq]
    rintro rfl
    exact Bool.false_ne_true hinside.symm
  unfold extractNormalizedOrigin
  rw [cutAt_text h.scheme]
  dsimp only
  rw [h.scheme, List.takeWhile_append_of_pos hslash, Text.asciiLower_append, WebAddress.authority,
    Text.asciiLower_append, asciiLower_portText h.port]
  rfl

theorem authority_inj {host host' : Text} {port port' : Option Text} (hhost : ':' ∉ host)
    (hhost' : ':' ∉ host') :
    host ++ portText port = host' ++ portText port' ↔ host = host' ∧ port = port' := by
  constructor
  · intro h
    cases port with
    | none =>
      cases port' with
      | none => exact ⟨by simpa [portText] using h, rfl⟩
      | some port' =>
        rw [portText, portText, List.append_nil] at h
        exact absurd (h ▸ List.mem_append_right _ List.mem_cons_self) hhost
    | some port =>
      cases port' with
      | none =>
        rw [portText, portText, List.append_nil] at h
        exact absurd (h ▸ List.mem_append_right _ List.mem_cons_self) hhost'
      | some port' =>
        have hcut := Text.cutAt_singleton hhost port
        rw [portText, portText] at h
        rw [h, Text.cutAt_singleton hhost'] at hcut
        obtain ⟨rfl, rfl⟩ := Prod.mk.inj (Option.some.inj hcut)
        exact ⟨rfl, rfl⟩
  · intro h
    rw [h.1, h.2]

theorem splitsAs_uncut (h : a.WellFormed) :
    SplitsAs (a.authority ++ a.uncut) a.authority a.uncut := by
  refine ⟨rfl, h.splitsAs.inside, ?_⟩
  intro c hc
  unfold WebAddress.uncut at hc
  cases hrest : a.rest with
  | nil =>
    rw [hrest] at hc
    cases hc
  | cons d rest =>
    have hends : endsAuthority d = true := h.rest d (by rw [hrest]; rfl)
    rw [hrest, List.takeWhile_cons] at hc
    split at hc
    · obtain rfl : d.toLower = c := Option.some.inj hc
      simp only [endsAuthority, Bool.or_eq_true, decide_eq_true_eq] at hends
      rcases hends with (rfl | rfl) | rfl <;> rfl
    · cases hc

theorem sameCut_iff (ha : a.WellFormed) (hb : b.WellFormed) :
    extractNormalizedOrigin a.normalized.text = extractNormalizedOrigin b.normalized.text ↔
      Text.asciiLower a.host = Text.asciiLower b.host ∧ a.SpelledAlike b := by
  have hlower (a : WebAddress) : Text.asciiLower a.normalized.host = a.normalized.host :=
    Text.asciiLower_asciiLower a.host
  have hauthority (a : WebAddress) :
      Text.asciiLower a.normalized.host ++ portText a.normalized.port = a.normalized.authority := by
    rw [hlower, WebAddress.authority]
  have hinj : a.normalized.authority = b.normalized.authority ↔
      Text.asciiLower a.host = Text.asciiLower b.host ∧ a.normalized.port = b.normalized.port :=
    authority_inj (colon_not_mem_host ha.host.asciiLower) (colon_not_mem_host hb.host.asciiLower)
  rw [extractNormalizedOrigin_text ha.normalized, extractNormalizedOrigin_text hb.normalized,
    List.append_cancel_left_eq, hauthority, hauthority, WebAddress.SpelledAlike,
    ← uncut_normalized a, ← uncut_normalized b, ← and_assoc, ← hinj]
  have hsplit := splitsAs_uncut ha.normalized
  have hsplit' := splitsAs_uncut hb.normalized
  constructor
  · intro h
    rw [← h] at hsplit'
    exact ⟨hsplit.authorityOf_eq.symm.trans hsplit'.authorityOf_eq,
      hsplit.restOf_eq.symm.trans hsplit'.restOf_eq⟩
  · intro h
    rw [h.1, h.2]

end Origins

/-! ### The gate -/

def RootPath (rest : Text) : Prop := pathOf rest = [] ∨ pathOf rest = ['/']

/-- The address has the allowed origin, and a query without redirects. -/
def IsSafe (a : WebAddress) (allowedOrigin : Option WebAddress) : Prop :=
  (∀ origin ∈ allowedOrigin, a.SameOrigin origin) ∧ ∀ query ∈ queryOf a.rest, ¬ Redirects query

structure Passes (a : WebAddress) (allowedOrigin : Option WebAddress) : Prop where
  path : RootPath a.rest
  length_ge : 12 ≤ a.normalized.text.length
  origin : ∀ origin ∈ allowedOrigin,
    Text.asciiLower a.host = Text.asciiLower origin.host ∧ a.SpelledAlike origin
  query : ∀ query ∈ readQuery a.rest, ¬ Redirects query

section Gate

variable {a : WebAddress} {allowedOrigin : Option WebAddress}

theorem rootPath_normalized (a : WebAddress) : RootPath a.normalized.rest ↔ RootPath a.rest := by
  simp only [WebAddress.normalized]
  split
  · rename_i hrest
    rw [hrest]
    exact iff_of_true (Or.inl rfl) (Or.inr rfl)
  · rfl

theorem length_normalized_le (a : WebAddress) : a.normalized.text.length ≤ a.text.length := by
  have hport : (portText a.normalized.port).length ≤ (portText a.port).length := by
    simp only [WebAddress.normalized]
    split
    · exact Nat.zero_le _
    · exact le_rfl
  have hrest : a.normalized.rest.length ≤ a.rest.length := by
    simp only [WebAddress.normalized]
    split
    · exact Nat.zero_le _
    · exact le_rfl
  have hscheme : a.normalized.scheme.length = a.scheme.length := List.length_map _
  have hhost : a.normalized.host.length = a.host.length := List.length_map _
  simp only [WebAddress.text, WebAddress.authority, List.length_append]
  omega

/-- The validator of anchor domains takes no path but the root. -/
theorem validateAnchorDomain_text (h : a.WellFormed) (hscheme : a.scheme = "https".toList)
    (hlength : a.text.length ≤ 2048) :
    validateAnchorDomain a.text = .ok () ↔ RootPath a.rest ∧ 12 ≤ a.text.length := by
  have htext : a.text = httpsPrefix ++ (a.authority ++ a.rest) := by
    rw [WebAddress.text, hscheme]
    rfl
  rw [validateAnchorDomain_eq_ok]
  constructor
  · intro hdomain
    obtain ⟨parts, heq, hparts⟩ := hdomain.parts
    rw [htext, DomainParts.text, List.append_cancel_left_eq] at heq
    have hsplit := h.splitsAs
    rw [heq] at hsplit
    have hrest : a.rest = parts.path ++ parts.suffix :=
      hsplit.restOf_eq.symm.trans hparts.splitsAs.restOf_eq
    refine ⟨?_, hdomain.length_ge⟩
    rw [RootPath, hrest, pathOf_append hparts.path hparts.suffix]
    exact hparts.path
  · intro hroot
    let suffix := a.rest.dropWhile fun c => c ≠ '?' && c ≠ '#'
    have hback : pathOf a.rest ++ suffix = a.rest := List.takeWhile_append_dropWhile
    refine ⟨hroot.2, hlength, text_isUrlChar h, ⟨a.host, a.port, pathOf a.rest, suffix⟩, ?_, h.host,
      h.port, hroot.1, ?_⟩
    · rw [htext, DomainParts.text, hback]
      rfl
    · exact behind_path a.rest

/-- Neither the scheme nor the authority has a question mark. -/
theorem readQuery_text (h : a.WellFormed) : readQuery a.text = readQuery a.rest := by
  have hscheme : '?' ∉ a.scheme := by
    rw [← Text.mem_asciiLower (by decide), h.scheme]
    decide
  have hauthority : '?' ∉ a.authority := by
    intro hmem
    exact Bool.false_ne_true (h.splitsAs.inside _ hmem).symm
  have hfront : '?' ∉ a.scheme ++ (schemeSeparator ++ a.authority) := by
    simp only [List.mem_append, not_or]
    exact ⟨hscheme, by decide, hauthority⟩
  have htext : a.text = (a.scheme ++ (schemeSeparator ++ a.authority)) ++ a.rest := by
    simp only [WebAddress.text, List.append_assoc]
  rw [htext, readQuery, Text.cutAt_append_left hfront, Option.map_map]
  rfl

theorem validateInteractiveUrl_eq_ok (ha : a.Acceptable)
    (horigin : ∀ origin ∈ allowedOrigin, origin.Acceptable) :
    validateInteractiveUrl a.text (allowedOrigin.map WebAddress.text) = .ok () ↔
      Passes a allowedOrigin := by
  have hform := ha.toWellFormed.normalized
  have hnormal := normalizeUrl_text ha.toWellFormed
  have hvalid : validateAnchorDomain a.normalized.text = .ok () ↔
      RootPath a.rest ∧ 12 ≤ a.normalized.text.length := by
    rw [← rootPath_normalized a]
    exact validateAnchorDomain_text hform ha.scheme ((length_normalized_le a).trans ha.length_le)
  have hascii : ∀ c ∈ a.normalized.text, Text.isAscii c = true := fun c hc =>
    isAscii_of_isUrlChar (text_isUrlChar hform c hc)
  have hquery : hasOpenRedirectPattern a.normalized.text = false ↔
      ∀ query ∈ readQuery a.rest, ¬ Redirects query := by
    rw [← Bool.not_eq_true, hasOpenRedirectPattern_iff hascii, readQuery_text hform,
      apply_normalized_rest (f := readQuery) rfl]
    push Not
    rfl
  have hprefix (hlength : 12 ≤ a.normalized.text.length) : a.normalized.text ≠ httpsPrefix := by
    intro heq
    rw [heq] at hlength
    exact absurd hlength (by decide)
  cases allowedOrigin with
  | none =>
    simp only [validateInteractiveUrl, hnormal, Option.map_none, bind_eq_ok, mapError_eq_ok,
      require_eq_ok, Except.ok.injEq, exists_eq_left', Unique.exists_iff, hvalid, hquery]
    constructor
    · intro h
      obtain ⟨⟨hpath, hlength⟩, _, hnone⟩ := h
      refine ⟨hpath, hlength, ?_, hnone⟩
      intro origin hmem
      cases hmem
    · intro h
      exact ⟨⟨h.path, h.length_ge⟩, hprefix h.length_ge, h.query⟩
  | some origin =>
    have hexpected := normalizeUrl_text (horigin origin rfl).toWellFormed
    have hcut := sameCut_iff ha.toWellFormed (horigin origin rfl).toWellFormed
    simp only [validateInteractiveUrl, hnormal, hexpected, Option.map_some, bind_eq_ok,
      mapError_eq_ok, require_eq_ok, Except.ok.injEq, exists_eq_left', Unique.exists_iff,
      hvalid, hquery, hcut]
    constructor
    · intro h
      obtain ⟨⟨hpath, hlength⟩, _, hsame, hnone⟩ := h
      refine ⟨hpath, hlength, ?_, hnone⟩
      intro origin' hmem
      obtain rfl : origin = origin' := Option.some.inj hmem
      exact hsame
    · intro h
      exact ⟨⟨h.path, h.length_ge⟩, hprefix h.length_ge, h.origin origin rfl, h.query⟩

theorem Passes.isSafe (h : Passes a allowedOrigin) : IsSafe a allowedOrigin := by
  constructor
  · intro origin hmem
    obtain ⟨hhost, hport, _⟩ := h.origin origin hmem
    refine ⟨hhost, ?_⟩
    rw [← effectivePort_normalized a, ← effectivePort_normalized origin,
      WebAddress.effectivePort, hport]
    rfl
  · intro query hquery
    exact h.query query (readQuery_of_queryOf hquery)

/-- The gate is right about the addresses that it has to refuse, and about those at the root that
are spelled like the allowed origin and have no redirect in a question of their fragment. -/
theorem opens_for_safe_iff (ha : a.Acceptable)
    (horigin : ∀ origin ∈ allowedOrigin, origin.Acceptable) :
    (validateInteractiveUrl a.text (allowedOrigin.map WebAddress.text) = .ok () ↔
        IsSafe a allowedOrigin) ↔
      (∃ origin ∈ allowedOrigin, ¬ a.SameOrigin origin) ∨
        (∃ query ∈ queryOf a.rest, Redirects query) ∨
          (RootPath a.rest ∧ 12 ≤ a.normalized.text.length ∧
            (queryOf a.rest = none → ∀ query ∈ readQuery a.rest, ¬ Redirects query) ∧
            ∀ origin ∈ allowedOrigin, a.SpelledAlike origin) := by
  rw [validateInteractiveUrl_eq_ok ha horigin]
  constructor
  · intro h
    by_cases hsafe : IsSafe a allowedOrigin
    · have hpasses := h.mpr hsafe
      right; right
      exact ⟨hpasses.path, hpasses.length_ge, fun _ => hpasses.query, fun origin hmem =>
        (hpasses.origin origin hmem).2⟩
    · rw [IsSafe, not_and_or] at hsafe
      push Not at hsafe
      rcases hsafe with horigin | hquery
      · exact Or.inl horigin
      · exact Or.inr (Or.inl hquery)
  · intro h
    rcases h with ⟨origin, hmem, hother⟩ | ⟨query, hmem, hredirects⟩ |
      ⟨hpath, hlength, hfragment, halike⟩
    · have hnot : ¬ IsSafe a allowedOrigin := fun hsafe => hother (hsafe.1 origin hmem)
      exact iff_of_false (mt Passes.isSafe hnot) hnot
    · have hnot : ¬ IsSafe a allowedOrigin := fun hsafe => hsafe.2 query hmem hredirects
      exact iff_of_false (mt Passes.isSafe hnot) hnot
    · refine ⟨Passes.isSafe, fun hsafe => ⟨hpath, hlength, ?_, ?_⟩⟩
      · intro origin hmem
        exact ⟨(hsafe.1 origin hmem).1, halike origin hmem⟩
      · cases hquery : queryOf a.rest with
        | none => exact hfragment hquery
        | some query =>
          rw [readQuery_of_queryOf hquery]
          intro query' hmem
          obtain rfl : query = query' := Option.some.inj hmem
          exact hsafe.2 query hquery

def addressAt (port : Option Text) (rest : Text) : WebAddress :=
  ⟨"https".toList, "anchor.example.com".toList, port, rest⟩

theorem acceptable_addressAt (port : Option Text) (rest : Text)
    (hport : ∀ p ∈ port, IsPort p) (hrest : rest.head?.all endsAuthority = true)
    (hchars : ∀ c ∈ rest, IsUrlChar c) (hlength : (addressAt port rest).text.length ≤ 64) :
    (addressAt port rest).Acceptable := by
  have hhost : IsHostName "anchor.example.com".toList := hostChecks_iff.mp (by decide)
  have hlower : Text.asciiLower "https".toList = "https".toList := by decide
  have hhead : ∀ c ∈ rest.head?, endsAuthority c = true := by
    intro c hc
    rwa [Option.mem_def.mp hc, Option.all_some] at hrest
  refine ⟨⟨hlower, hhost, hport, hhead, hchars⟩, ?_, hlength.trans (by omega)⟩
  have hscheme : "https".toList.length = 5 := rfl
  have hname : "anchor.example.com".toList.length = 18 := rfl
  simp only [addressAt, WebAddress.text, WebAddress.authority, List.length_append, hscheme, hname]
  omega

/-- With the default port written on one side and a slash on the other, a query passes. -/
theorem query_opens_iff_safe :
    let address := addressAt (some "443".toList) "/?asset_code=USDC".toList
    let origin := addressAt none "/".toList
    validateInteractiveUrl address.text (some origin.text) = .ok () ↔
      IsSafe address (some origin) := by
  have hport : ∀ p ∈ some "443".toList, IsPort p := by
    intro p hp
    obtain rfl : "443".toList = p := Option.some.inj hp
    exact ⟨by decide, by decide, by decide, by decide⟩
  have hnone : ∀ p ∈ (none : Option Text), IsPort p := by
    intro p hp
    cases hp
  have haddress := acceptable_addressAt _ "/?asset_code=USDC".toList hport (by decide) (by decide)
    (by decide)
  have horigin := acceptable_addressAt _ "/".toList hnone (by decide) (by decide) (by decide)
  have hallowed : ∀ origin ∈ some (addressAt none "/".toList), origin.Acceptable := by
    intro origin hmem
    obtain rfl : addressAt none "/".toList = origin := Option.some.inj hmem
    exact horigin
  refine (opens_for_safe_iff haddress hallowed).mpr (Or.inr (Or.inr ⟨?_, ?_, ?_, ?_⟩))
  · exact Or.inr (by decide)
  · decide
  · intro hquery
    exact absurd hquery (by decide)
  · intro origin hmem
    obtain rfl : addressAt none "/".toList = origin := Option.some.inj hmem
    exact ⟨by decide, by decide⟩

/-- The URL that the documentation shows beside its own origin is refused. -/
theorem documented_path_refused :
    let address := addressAt none "/dep".toList
    let origin := addressAt none []
    (address.Acceptable ∧ origin.Acceptable) ∧ IsSafe address (some origin) ∧
      validateInteractiveUrl address.text (some origin.text) ≠ .ok () := by
  have hnone : ∀ p ∈ (none : Option Text), IsPort p := by
    intro p hp
    cases hp
  have haddress := acceptable_addressAt _ "/dep".toList hnone (by decide) (by decide) (by decide)
  have horigin := acceptable_addressAt _ [] hnone (by decide) (by decide) (by decide)
  have hallowed : ∀ origin ∈ some (addressAt none []), origin.Acceptable := by
    intro origin hmem
    obtain rfl : addressAt none [] = origin := Option.some.inj hmem
    exact horigin
  refine ⟨⟨haddress, horigin⟩, ⟨?_, ?_⟩, fun h => ?_⟩
  · intro origin hmem
    obtain rfl : addressAt none [] = origin := Option.some.inj hmem
    exact ⟨rfl, rfl⟩
  · intro query hquery
    have hnoquery : queryOf "/dep".toList = none := by decide
    cases hnoquery.symm.trans hquery
  · rcases ((validateInteractiveUrl_eq_ok haddress hallowed).mp h).path with hpath | hpath
    · exact absurd hpath (by decide)
    · exact absurd hpath (by decide)

end Gate

end AnchorKit
