import AnchorKit.HttpClient
import AnchorKit.Webhook

/-!
# The two signature verifiers

The client and the webhook receiver each read the `sha256=<hex>` header of a signed body. The client
trims the header and ignores the case of its scheme, the receiver does neither.
-/

namespace AnchorKit

open Fallible Webhook

def signatureHexLen : ℕ := 64

/-- The bytes of pairs of hex digits; a last byte without a partner is left over. -/
def decodePairs : Bytes → Option Bytes
  | a :: b :: rest => do
    let hi ← toDigit16 (Char.ofNat a.toNat)
    let lo ← toDigit16 (Char.ofNat b.toNat)
    let bytes ← decodePairs rest
    return (hi <<< 4 ||| lo) :: bytes
  | _ => some []

/-- Zero when the bytes agree, without stopping at the first that does not. -/
def xorFold (received expected : Bytes) : UInt8 :=
  (received.zipWith (fun a b => a ^^^ b) expected).foldl (fun acc d => acc ||| d) 0

def verifyOutboundSignature (host : HttpHost) (body signatureHeader : Text) (key : Bytes) : Bool :=
  let value := Text.trimMatches isWhitespace signatureHeader
  if Text.byteLen value ≠ Text.byteLen signaturePrefix + signatureHexLen then false
  else
    match Text.getTo (Text.byteLen signaturePrefix) value with
    | none => false
    | some front =>
      let hexDigest : Text := value.drop front.length
      if Text.eqIgnoreAsciiCase front signaturePrefix = false then false
      else
        match decodePairs hexDigest.utf8 with
        | none => false
        | some received => xorFold received (host.hmacSha256 key body.utf8).val = 0

section Digits

variable {t : Text} {c : Char}

theorem isAscii_of_toDigit16 {d : UInt8} (h : toDigit16 c = some d) :
    Text.isAscii c = true ∧ isWhitespace c = false := by
  have hcode : c.toNat < 0x67 ∧ 0x30 ≤ c.toNat := by
    unfold toDigit16 at h
    split at h
    · rename_i hdigit
      have hrange := Text.isDigit_iff.mp hdigit
      omega
    · split at h
      · rename_i hlower
        have hrange : 0x61 ≤ c.toNat ∧ c.toNat ≤ 0x66 := hlower
        omega
      · split at h
        · rename_i hupper
          have hrange : 0x41 ≤ c.toNat ∧ c.toNat ≤ 0x46 := hupper
          omega
        · cases h
  constructor
  · exact decide_eq_true (by omega)
  · simp [isWhitespace]
    omega

theorem lt_of_toDigit16 {b d : UInt8} (h : toDigit16 (Char.ofNat b.toNat) = some d) : b < 0x80 := by
  have hall : ∀ n < 256, (toDigit16 (Char.ofNat n)).isSome = true → n < 0x80 := by decide +kernel
  rw [UInt8.lt_iff_toNat_lt]
  exact hall b.toNat b.toNat_lt (h ▸ rfl)

theorem decodePairs_utf8 {bytes : Bytes} (h : decodeDigest t = some bytes) :
    decodePairs t.utf8 = some bytes := by
  induction t using decodeDigest.induct generalizing bytes with
  | case1 => exact h
  | case2 c => cases h
  | case3 a b rest ih =>
    simp only [decodeDigest, Option.bind_eq_bind, Option.bind_eq_some_iff] at h
    obtain ⟨hi, hhi, lo, hlo, tail, htail, heq⟩ := h
    have ha := (isAscii_of_toDigit16 hhi).1
    have hb := (isAscii_of_toDigit16 hlo).1
    rw [Text.utf8_cons, Text.utf8_cons, Text.utf8_of_isAscii ha, Text.utf8_of_isAscii hb]
    change decodePairs (UInt8.ofNat a.toNat :: UInt8.ofNat b.toNat :: Text.utf8 rest) = _
    rw [decodePairs, Text.ofNat_byte ha, Text.ofNat_byte hb, hhi, hlo, ih htail]
    exact heq

/-- An even number of bytes that are digits are the characters of the string. -/
theorem decodeDigest_of_pairs {bytes out : Bytes} (ht : t.utf8 = bytes)
    (heven : bytes.length % 2 = 0) (h : decodePairs bytes = some out) :
    decodeDigest t = some out := by
  induction bytes using decodePairs.induct generalizing t out with
  | case1 a b rest ih =>
    simp only [decodePairs, Option.bind_eq_bind, Option.bind_eq_some_iff] at h
    obtain ⟨hi, hhi, lo, hlo, tail, htail, heq⟩ := h
    obtain ⟨c, t', rfl, hc, rfl, ht'⟩ := Text.exists_cons_of_utf8 ht (lt_of_toDigit16 hhi)
    obtain ⟨d, rest', rfl, hd, rfl, hrest'⟩ := Text.exists_cons_of_utf8 ht' (lt_of_toDigit16 hlo)
    rw [Text.ofNat_byte hc] at hhi
    rw [Text.ofNat_byte hd] at hlo
    rw [List.length_cons, List.length_cons] at heven
    rw [decodeDigest, hhi, hlo, ih hrest' (by omega) htail]
    exact heq
  | case2 bytes hshort =>
    cases bytes with
    | nil =>
      cases t with
      | nil => exact h
      | cons c t =>
        have hlen := congrArg List.length ht
        have hpos := Char.utf8Size_pos c
        rw [Text.length_utf8, Text.byteLen_cons, List.length_nil] at hlen
        omega
    | cons a bytes =>
      cases bytes with
      | nil => cases heven
      | cons b rest => exact absurd rfl (hshort a b rest)

theorem length_decodePairs {bytes out : Bytes} (h : decodePairs bytes = some out) :
    out.length = bytes.length / 2 := by
  induction bytes using decodePairs.induct generalizing out with
  | case1 a b rest ih =>
    simp only [decodePairs, Option.bind_eq_bind, Option.bind_eq_some_iff] at h
    obtain ⟨hi, _, lo, _, tail, htail, heq⟩ := h
    have hrest := ih htail
    obtain rfl := Option.some.inj heq
    rw [List.length_cons, List.length_cons, List.length_cons, hrest]
    omega
  | case2 bytes hshort =>
    match bytes with
    | [] =>
      obtain rfl := Option.some.inj h
      rfl
    | [b] =>
      obtain rfl := Option.some.inj h
      exact (Nat.div_eq_of_lt Nat.one_lt_two).symm
    | a :: b :: rest => exact absurd rfl (hshort a b rest)

theorem facts_of_decodeDigest {bytes : Bytes} (h : decodeDigest t = some bytes) :
    t.length = 2 * bytes.length ∧
      ∀ c ∈ t, Text.isAscii c = true ∧ isWhitespace c = false := by
  induction t using decodeDigest.induct generalizing bytes with
  | case1 =>
    obtain rfl := Option.some.inj h
    exact ⟨rfl, by simp⟩
  | case2 c => cases h
  | case3 a b rest ih =>
    simp only [decodeDigest, Option.bind_eq_bind, Option.bind_eq_some_iff] at h
    obtain ⟨hi, hhi, lo, hlo, tail, htail, heq⟩ := h
    obtain ⟨hlen, hrest⟩ := ih htail
    obtain rfl := Option.some.inj heq
    constructor
    · rw [List.length_cons, List.length_cons, List.length_cons, hlen]
      omega
    · rw [List.forall_mem_cons, List.forall_mem_cons]
      exact ⟨isAscii_of_toDigit16 hhi, isAscii_of_toDigit16 hlo, hrest⟩

theorem foldl_or_eq_zero {l : Bytes} {acc : UInt8} :
    l.foldl (fun acc d => acc ||| d) acc = 0 ↔ acc = 0 ∧ ∀ d ∈ l, d = 0 := by
  induction l generalizing acc with
  | nil => simp
  | cons d l ih => rw [List.foldl_cons, ih, UInt8.or_eq_zero_iff, List.forall_mem_cons, and_assoc]

theorem xorFold_eq_zero {received expected : Bytes} (h : received.length = expected.length) :
    xorFold received expected = 0 ↔ received = expected := by
  rw [xorFold, foldl_or_eq_zero, and_iff_right rfl]
  induction received generalizing expected with
  | nil =>
    rw [List.length_nil, eq_comm, List.length_eq_zero_iff] at h
    simp [h]
  | cons a received ih =>
    obtain ⟨b, expected, rfl⟩ := List.exists_cons_of_length_eq_add_one h.symm
    rw [List.zipWith_cons_cons, List.forall_mem_cons, UInt8.xor_eq_zero_iff, List.cons.injEq,
      ih (Nat.succ.inj h)]

end Digits

/-! ### What the verifiers accept -/

section Accepted

variable {host : HttpHost} {body header : Text} {key : Bytes}

theorem verifyWebhookSignature_iff (hbody : Text.byteLen body ≤ maxWebhookBodyBytes)
    (hkey : key ≠ []) :
    verifyWebhookSignature host.hmacSha256 body header key = true ↔
      ∃ digits, header = signaturePrefix ++ digits ∧
        decodeDigest digits = some (host.hmacSha256 key body.utf8).val := by
  rw [verifyWebhookSignature, if_neg (Nat.not_lt.mpr hbody), if_neg hkey]
  constructor
  · intro h
    split at h
    · rename_i hstart
      obtain ⟨digits, rfl⟩ := List.isPrefixOf_iff_prefix.mp hstart
      rw [List.drop_left] at h
      dsimp only at h
      split at h
      · cases h
      · split at h
        · rename_i received hdecode
          exact ⟨digits, rfl, hdecode.trans (congrArg some (of_decide_eq_true h))⟩
        · cases h
    · cases h
  · intro h
    obtain ⟨digits, rfl, hdecode⟩ := h
    obtain ⟨hlen, hascii⟩ := facts_of_decodeDigest hdecode
    have heven : ¬ Text.byteLen digits % 2 ≠ 0 := by
      rw [Text.byteLen_of_isAscii fun c hc => (hascii c hc).1, hlen]
      omega
    rw [if_pos (List.isPrefixOf_iff_prefix.mpr (List.prefix_append _ _))]
    dsimp only
    rw [List.drop_left, if_neg heven, hdecode]
    exact decide_eq_true rfl

/-- The client accepts any spelling of the scheme before the digits of the digest, with space
around. -/
theorem verifyOutboundSignature_iff :
    verifyOutboundSignature host body header key = true ↔
      ∃ front digits, Text.trimMatches isWhitespace header = front ++ digits ∧
        front.asciiLower = signaturePrefix ∧
        decodeDigest digits = some (host.hmacSha256 key body.utf8).val := by
  have hlower : Text.asciiLower signaturePrefix = signaturePrefix := by decide
  have hmac := (host.hmacSha256 key body.utf8).property
  rw [verifyOutboundSignature]
  generalize Text.trimMatches isWhitespace header = value
  constructor
  · intro h
    dsimp only at h
    split at h
    · cases h
    · rename_i hlen
      rw [not_not] at hlen
      split at h
      · cases h
      · rename_i front hfront
        obtain ⟨⟨digits, rfl⟩, hfrontLen⟩ := Text.getTo_eq_some.mp hfront
        rw [List.drop_left] at h
        split at h
        · cases h
        · rename_i hcase
          rw [Bool.not_eq_false, Text.eqIgnoreAsciiCase_iff, hlower] at hcase
          split at h
          · cases h
          · rename_i received hdecode
            have hdigits : (Text.utf8 digits).length = signatureHexLen := by
              rw [Text.byteLen_append, hfrontLen] at hlen
              rw [Text.length_utf8]
              exact Nat.add_left_cancel hlen
            have hreceived : received.length = (host.hmacSha256 key body.utf8).val.length := by
              rw [length_decodePairs hdecode, hdigits, hmac]
              rfl
            have hsame := (xorFold_eq_zero hreceived).mp (of_decide_eq_true h)
            refine ⟨front, digits, rfl, hcase, ?_⟩
            rw [← hsame]
            exact decodeDigest_of_pairs rfl (by rw [hdigits]; rfl) hdecode
  · intro h
    obtain ⟨front, digits, rfl, hcase, hdecode⟩ := h
    obtain ⟨hlen, hascii⟩ := facts_of_decodeDigest hdecode
    have hsame : Text.eqIgnoreAsciiCase front signaturePrefix = true := by
      rw [Text.eqIgnoreAsciiCase_iff, hlower, hcase]
    have hfront : Text.byteLen front = Text.byteLen signaturePrefix := by
      have hprefix : ∀ c ∈ signaturePrefix, Text.isAscii c = true := by decide
      have hfrontAscii := Text.isAscii_of_asciiLower hprefix (hcase.trans hlower.symm)
      have hlength := congrArg List.length hcase
      rw [Text.asciiLower, List.length_map] at hlength
      rw [Text.byteLen_of_isAscii hfrontAscii, Text.byteLen_of_isAscii hprefix, hlength]
    have hdigits : Text.byteLen digits = signatureHexLen := by
      rw [Text.byteLen_of_isAscii fun c hc => (hascii c hc).1, hlen, hmac]
      rfl
    have hget : Text.getTo (Text.byteLen signaturePrefix) (front ++ digits) = some front :=
      Text.getTo_eq_some.mpr ⟨List.prefix_append _ _, hfront⟩
    rw [if_neg (by rw [Text.byteLen_append, hfront, hdigits]; exact not_not_intro rfl), hget]
    dsimp only
    rw [List.drop_left, if_neg (by simp [hsame]), decodePairs_utf8 hdecode]
    exact decide_eq_true ((xorFold_eq_zero rfl).mpr rfl)

end Accepted

/-! ### Where they agree -/

def signatureOf (headers : List Header) : Option Text :=
  (headers.find? fun h => h.1 = "X-Anchor-Signature".toList).map Prod.snd

/-- The verifiers give one answer on a header, accept what the client sends with this key and refuse
the digits of any other digest. -/
structure SharedMechanism (host : HttpHost) (key : Bytes) (body header : Text) : Prop where
  agree : verifyOutboundSignature host body header key =
    verifyWebhookSignature host.hmacSha256 body header key
  built : ∀ (opts : OutboundRequestOptions) (headers : List Header),
    opts.signingKey = some key → opts.buildHeaders host body = .ok headers →
    ∃ value, signatureOf headers = some value ∧
      verifyOutboundSignature host body value key = true ∧
      verifyWebhookSignature host.hmacSha256 body value key = true
  refused : ∀ digits bytes, digits.length = signatureHexLen → decodeDigest digits = some bytes →
    bytes ≠ (host.hmacSha256 key body.utf8).val →
    verifyOutboundSignature host body (signaturePrefix ++ digits) key = false ∧
      verifyWebhookSignature host.hmacSha256 body (signaturePrefix ++ digits) key = false

/-- A header that spells a scheme and the digits of the digest has no space around and its scheme in
lower case. -/
def SpelledExactly (host : HttpHost) (key : Bytes) (body header : Text) : Prop :=
  ∀ front digits, Text.trimMatches isWhitespace header = front ++ digits →
    front.asciiLower = signaturePrefix →
    decodeDigest digits = some (host.hmacSha256 key body.utf8).val →
    header = signaturePrefix ++ digits

section Agreement

variable {host : HttpHost} {key : Bytes} {body header : Text}

theorem ne_nil_of_trimAscii (hkey : trimAscii key ≠ []) : key ≠ [] := by
  intro hnil
  rw [hnil] at hkey
  exact hkey (by simp [trimAscii])

/-- Digits behind the scheme are not trimmed. -/
theorem trim_signature {digits : Text} {bytes : Bytes} (hne : bytes ≠ [])
    (h : decodeDigest digits = some bytes) :
    Text.trimMatches isWhitespace (signaturePrefix ++ digits) = signaturePrefix ++ digits := by
  obtain ⟨hlen, hchars⟩ := facts_of_decodeDigest h
  have hpos := List.length_pos_iff.mpr hne
  have hdigits : digits ≠ [] := List.length_pos_iff.mp (by omega)
  have hlast := (hchars _ (List.getLast_mem hdigits)).2
  have hsplit : signaturePrefix ++ digits =
      's' :: (signaturePrefix.tail ++ digits.dropLast ++ [digits.getLast hdigits]) := by
    rw [List.append_assoc, List.dropLast_append_getLast]
    rfl
  rw [hsplit]
  exact Text.trimMatches_cons_concat (by decide) hlast _

/-- Behind any spelling of the scheme the same digits are read. -/
theorem digits_of_trim {digits front digits' : Text} {bytes : Bytes} (hne : bytes ≠ [])
    (h : decodeDigest digits = some bytes)
    (htrim : Text.trimMatches isWhitespace (signaturePrefix ++ digits) = front ++ digits')
    (hcase : front.asciiLower = signaturePrefix) : digits' = digits := by
  rw [trim_signature hne h] at htrim
  have hlength := congrArg List.length hcase
  rw [Text.asciiLower, List.length_map] at hlength
  exact (List.append_inj htrim hlength.symm).2.symm

theorem mac_ne_nil (host : HttpHost) (key : Bytes) (body : Text) :
    (host.hmacSha256 key body.utf8).val ≠ [] := by
  rw [← List.length_pos_iff, (host.hmacSha256 key body.utf8).property]
  omega

/-- What the receiver accepts the client accepts. -/
theorem outbound_of_webhook (hbody : Text.byteLen body ≤ maxWebhookBodyBytes) (hkey : key ≠ [])
    (h : verifyWebhookSignature host.hmacSha256 body header key = true) :
    verifyOutboundSignature host body header key = true := by
  obtain ⟨digits, rfl, hdecode⟩ := (verifyWebhookSignature_iff hbody hkey).mp h
  exact verifyOutboundSignature_iff.mpr ⟨signaturePrefix, digits,
    trim_signature (mac_ne_nil host key body) hdecode, by decide, hdecode⟩

theorem agree_iff_spelledExactly (hbody : Text.byteLen body ≤ maxWebhookBodyBytes)
    (hkey : key ≠ []) :
    verifyOutboundSignature host body header key =
        verifyWebhookSignature host.hmacSha256 body header key ↔
      SpelledExactly host key body header := by
  constructor
  · intro hsame front digits htrim hcase hdecode
    have hout : verifyOutboundSignature host body header key = true :=
      verifyOutboundSignature_iff.mpr ⟨front, digits, htrim, hcase, hdecode⟩
    rw [hsame] at hout
    obtain ⟨digits', rfl, hdecode'⟩ := (verifyWebhookSignature_iff hbody hkey).mp hout
    rw [digits_of_trim (mac_ne_nil host key body) hdecode' htrim hcase]
  · intro hspelled
    rw [Bool.eq_iff_iff]
    constructor
    · intro hout
      obtain ⟨front, digits, htrim, hcase, hdecode⟩ := verifyOutboundSignature_iff.mp hout
      exact (verifyWebhookSignature_iff hbody hkey).mpr
        ⟨digits, hspelled front digits htrim hcase hdecode, hdecode⟩
    · exact outbound_of_webhook hbody hkey

theorem signatureOf_buildHeaders {opts : OutboundRequestOptions} {headers : List Header}
    (hsigning : opts.signingKey = some key) (h : opts.buildHeaders host body = .ok headers) :
    signatureOf headers = some (signaturePrefix ++ signPayload host.hmacSha256 key body) := by
  have hother : "Idempotency-Key".toList ≠ "X-Anchor-Signature".toList ∧
      "X-Request-Id".toList ≠ "X-Anchor-Signature".toList := ⟨by decide, by decide⟩
  have hidempotency : opts.idempotencyHeaders.find?
      (fun h => h.1 = "X-Anchor-Signature".toList) = none := by
    unfold OutboundRequestOptions.idempotencyHeaders
    split
    · split
      · rfl
      · simp only [List.find?_eq_none, List.mem_cons, List.not_mem_nil, or_false, forall_eq_or_imp,
          forall_eq, decide_eq_true_eq]
        exact hother
    · rfl
  unfold OutboundRequestOptions.buildHeaders at h
  obtain ⟨_, _, h⟩ := bind_eq_ok.mp h
  rw [pure_eq_ok] at h
  subst h
  rw [signatureOf, List.append_assoc, List.append_assoc, List.find?_append, hidempotency,
    Option.none_or, OutboundRequestOptions.signatureHeaders, hsigning, List.singleton_append,
    List.find?_cons_of_pos]
  · rfl
  · exact decide_eq_true rfl

/-- For a key that is not blank and a body within the limit, the verifiers share one mechanism on a
header exactly when it is spelled as the receiver expects. -/
theorem sharedMechanism_iff (host : HttpHost) (key : Bytes) (body header : Text)
    (hkey : trimAscii key ≠ []) (hbody : Text.byteLen body ≤ maxWebhookBodyBytes) :
    SharedMechanism host key body header ↔ SpelledExactly host key body header := by
  have hne := ne_nil_of_trimAscii hkey
  constructor
  · intro h
    exact (agree_iff_spelledExactly hbody hne).mp h.agree
  · intro h
    refine ⟨(agree_iff_spelledExactly hbody hne).mpr h, ?_, ?_⟩
    · intro opts headers hsigning hheaders
      have haccepted : verifyWebhookSignature host.hmacSha256 body _ key = true :=
        verifyWebhookSignature_signPayload hbody hne
      exact ⟨_, signatureOf_buildHeaders hsigning hheaders, outbound_of_webhook hbody hne haccepted,
        haccepted⟩
    · intro digits bytes hlen hdecode hother
      have hwebhook : verifyWebhookSignature host.hmacSha256 body (signaturePrefix ++ digits) key =
          false := by
        rw [Bool.eq_false_iff]
        intro haccepted
        obtain ⟨digits', hsame, hdecode'⟩ := (verifyWebhookSignature_iff hbody hne).mp haccepted
        rw [List.append_cancel_left hsame, hdecode'] at hdecode
        exact hother (Option.some.inj hdecode).symm
      refine ⟨?_, hwebhook⟩
      rw [Bool.eq_false_iff]
      intro haccepted
      obtain ⟨front, digits', htrim, hcase, hdecode'⟩ := verifyOutboundSignature_iff.mp haccepted
      have hbytes : bytes ≠ [] := by
        rintro rfl
        have hzero := (facts_of_decodeDigest hdecode).1
        rw [hlen] at hzero
        cases hzero
      rw [digits_of_trim hbytes hdecode htrim hcase, hdecode] at hdecode'
      exact hother (Option.some.inj hdecode')

namespace Demo

def zeroMac : HttpHost := ⟨fun _ _ => BytesN.fill 32 0, fun _ => [], []⟩

def zeroDigits : Text := List.replicate 64 '0'

theorem decodeDigest_zeroDigits : decodeDigest zeroDigits = some (List.replicate 32 0) := by decide

end Demo

theorem sharedMechanism_lowercase :
    SharedMechanism Demo.zeroMac [0x6b] "{}".toList (signaturePrefix ++ Demo.zeroDigits) := by
  apply (sharedMechanism_iff Demo.zeroMac [0x6b] "{}".toList _ (by decide) (by decide)).mpr
  intro front digits htrim hcase _
  rw [digits_of_trim (by decide) Demo.decodeDigest_zeroDigits htrim hcase]

/-- A scheme in upper case is accepted by the client and refused by the receiver. -/
theorem uppercase_scheme_disagrees :
    ¬ SharedMechanism Demo.zeroMac [0x6b] "{}".toList ("SHA256=".toList ++ Demo.zeroDigits) := by
  intro h
  have hagree := h.agree
  have hout : verifyOutboundSignature Demo.zeroMac "{}".toList
      ("SHA256=".toList ++ Demo.zeroDigits) [0x6b] = true := by
    apply verifyOutboundSignature_iff.mpr
    refine ⟨"SHA256=".toList, Demo.zeroDigits, ?_, ?_, ?_⟩ <;> decide
  rw [hout] at hagree
  exact absurd hagree (by decide)

end Agreement

end AnchorKit
