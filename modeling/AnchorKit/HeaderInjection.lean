import AnchorKit.HttpClient

/-!
# Header injection

A control character in a header lets a value end the header and begin another one. Each source of
headers is looked at on its own; all but the idempotency key keep such characters out.
-/

namespace AnchorKit

open Fallible

section Sources

variable {host : HttpHost} {opts : OutboundRequestOptions} {creds : RequestCredentials}
  {url body s t : Text}

/-- A text without control characters. -/
def Plain (t : Text) : Prop := ∀ c ∈ t, Text.isAsciiControl c = false

instance : Decidable (Plain t) := inferInstanceAs (Decidable (∀ c ∈ t, _))

theorem Plain.append (hs : Plain s) (ht : Plain t) : Plain (s ++ t) := by
  intro c hc
  rcases List.mem_append.mp hc with h | h
  · exact hs c h
  · exact ht c h

theorem header_plain_iff : Header.Plain (s, t) ↔ s ≠ [] ∧ Plain s ∧ Plain t := by
  unfold Header.Plain Plain
  rw [List.forall_mem_append]

theorem rejectCtl_eq_ok {what value : Text} : rejectCtl what value = .ok () ↔ Plain value := by
  rw [rejectCtl, require_eq_ok, List.any_eq_false]
  refine forall₂_congr fun c _ => ?_
  rw [Bool.not_eq_true]

theorem plain_of_isHexDigit (h : ∀ c ∈ t, TraceContext.IsHexDigit c) : Plain t := by
  intro c hc
  have hhex := h c hc
  unfold TraceContext.IsHexDigit at hhex
  rw [Text.isAsciiControl_eq_false]
  omega

theorem plain_base64 (hbase64 : host.EncodesBase64) (bytes : Bytes) :
    Plain (host.base64 bytes) := by
  intro c hc
  have hchar := hbase64 bytes c hc
  simp only [isBase64Char, Bool.or_eq_true, decide_eq_true_eq] at hchar
  rcases hchar with ((halnum | rfl) | rfl) | rfl
  · exact Text.isAsciiControl_of_isAlphanum halnum
  all_goals decide

theorem plain_of_isTokenChar (h : t.all isTokenChar = true) : Plain t := by
  intro c hc
  have htoken := List.all_eq_true.mp h c hc
  simp only [isTokenChar, Bool.or_eq_true, List.contains_iff_mem] at htoken
  rcases htoken with halnum | hmem
  · exact Text.isAsciiControl_of_isAlphanum halnum
  · have hall : ∀ c ∈ ['-', '_', '.', '!', '#', '$', '%', '&', '\'', '*', '+', '^', '\x60', '|', '~'],
        Text.isAsciiControl c = false := by decide
    exact hall c hmem

theorem toHeader_plain (hbase64 : host.EncodesBase64) (h : creds.validate host = .ok ()) :
    Header.Plain (creds.toHeader host) := by
  cases creds with
  | bearer token =>
    simp only [RequestCredentials.validate, require_bind_eq_ok, rejectCtl_eq_ok] at h
    exact header_plain_iff.mpr ⟨by decide, by decide, Plain.append (by decide) h.2⟩
  | basic username password =>
    exact header_plain_iff.mpr
      ⟨by decide, by decide, Plain.append (by decide) (plain_base64 hbase64 _)⟩
  | header name value =>
    simp only [RequestCredentials.validate, require_bind_eq_ok, rejectCtl_eq_ok] at h
    obtain ⟨hname, htoken, _, hvalue⟩ := h
    exact header_plain_iff.mpr ⟨hname, plain_of_isTokenChar htoken, hvalue⟩

theorem headerPairs_plain (ctx : TraceContext) : ∀ h ∈ ctx.headerPairs, Header.Plain h := by
  have htrace := plain_of_isHexDigit (TraceContext.isHexDigit_id ctx.traceId)
  have hspan := plain_of_isHexDigit (TraceContext.isHexDigit_id ctx.spanId)
  have hparent : Plain ctx.toTraceparent := by
    have hdash : Plain ['-'] := by decide
    rw [TraceContext.toTraceparent_eq]
    refine Plain.append (by decide) (hdash.append (htrace.append (hdash.append (hspan.append
      (hdash.append ?_)))))
    cases ctx.sampled <;> decide
  intro h hmem
  simp only [TraceContext.headerPairs, List.mem_cons, List.not_mem_nil, or_false] at hmem
  rcases hmem with rfl | rfl | rfl
  · exact header_plain_iff.mpr ⟨by decide, by decide, hparent⟩
  · exact header_plain_iff.mpr ⟨by decide, by decide, htrace⟩
  · exact header_plain_iff.mpr ⟨by decide, by decide, hspan⟩

theorem signatureHeaders_plain (host : HttpHost) (opts : OutboundRequestOptions) (body : Text) :
    ∀ h ∈ opts.signatureHeaders host body, Header.Plain h := by
  unfold OutboundRequestOptions.signatureHeaders
  cases opts.signingKey with
  | none => exact List.forall_mem_nil _
  | some key =>
    rw [List.forall_mem_singleton, header_plain_iff]
    have hhex := TraceContext.isHexDigit_sha256Hex (fun _ => host.hmacSha256 key body.utf8) []
    exact ⟨by decide, by decide, Plain.append (by decide) (plain_of_isHexDigit hhex)⟩

theorem traceHeaders_plain (opts : OutboundRequestOptions) :
    ∀ h ∈ opts.traceHeaders, Header.Plain h := by
  unfold OutboundRequestOptions.traceHeaders
  cases opts.trace with
  | none => exact List.forall_mem_nil _
  | some trace => exact headerPairs_plain trace

theorem validate_eq_ok : opts.validate host = .ok () ↔
    (∀ key ∈ opts.signingKey, validateSigningKey key = .ok ()) ∧
      ∀ creds ∈ opts.credentials, creds.validate host = .ok () := by
  obtain ⟨idempotencyKey, signingKey, trace, credentials⟩ := opts
  unfold OutboundRequestOptions.validate
  cases signingKey with
  | none =>
    cases credentials with
    | none => simp
    | some creds => simp
  | some key =>
    cases credentials with
    | none => simp
    | some creds =>
      simp only [Option.mem_def, Option.some.injEq, forall_eq', bind_eq_ok]
      exact ⟨fun ⟨_, hkey, hcreds⟩ => ⟨hkey, hcreds⟩, fun ⟨hkey, hcreds⟩ => ⟨(), hkey, hcreds⟩⟩

theorem credentialHeaders_plain (hbase64 : host.EncodesBase64) (h : opts.validate host = .ok ()) :
    ∀ h ∈ opts.credentialHeaders host, Header.Plain h := by
  have hcreds := (validate_eq_ok.mp h).2
  unfold OutboundRequestOptions.credentialHeaders
  cases hsome : opts.credentials with
  | none => exact List.forall_mem_nil _
  | some creds =>
    rw [List.forall_mem_singleton]
    exact toHeader_plain hbase64 (hcreds creds hsome)

/-- The one source that is not looked at. -/
theorem idempotencyHeaders_plain_iff : (∀ h ∈ opts.idempotencyHeaders, Header.Plain h) ↔
    ∀ key ∈ opts.idempotencyKey, Plain key := by
  unfold OutboundRequestOptions.idempotencyHeaders
  cases opts.idempotencyKey with
  | none => exact iff_of_true (List.forall_mem_nil _) fun key hkey => absurd hkey (by simp)
  | some key =>
    simp only [Option.mem_def, Option.some.injEq, forall_eq']
    by_cases hempty : key = []
    · subst hempty
      exact iff_of_true (List.forall_mem_nil _) (List.forall_mem_nil _)
    · rw [if_neg hempty, List.forall_mem_cons, List.forall_mem_singleton, header_plain_iff,
        header_plain_iff]
      constructor
      · exact fun h => h.1.2.2
      · exact fun h => ⟨⟨by decide, by decide, h⟩, by decide, by decide, h⟩

theorem buildHeaders_of_validate (h : opts.validate host = .ok ()) (body : Text) :
    opts.buildHeaders host body = .ok (opts.idempotencyHeaders ++ opts.signatureHeaders host body ++
      opts.traceHeaders ++ opts.credentialHeaders host) := by
  unfold OutboundRequestOptions.buildHeaders
  rw [h]
  rfl

theorem validate_of_buildHeaders {headers : List Header}
    (h : opts.buildHeaders host body = .ok headers) : opts.validate host = .ok () := by
  simp only [OutboundRequestOptions.buildHeaders, bind_eq_ok] at h
  obtain ⟨_, hvalid, _⟩ := h
  exact hvalid

/-- Options that validate make plain headers exactly when their idempotency key is plain. -/
theorem headersPlain_iff (hbase64 : host.EncodesBase64) (opts : Option OutboundRequestOptions)
    (body : Text) : HeadersPlain host body opts ↔ KeyPlain host opts := by
  cases opts with
  | none =>
    refine iff_of_true ?_ fun o ho => absurd ho (by simp)
    intro headers h
    obtain rfl := Except.ok.inj h
    exact List.forall_mem_nil _
  | some opts =>
    have hkey : (∀ h ∈ opts.idempotencyHeaders, Header.Plain h) ↔
        ∀ key ∈ opts.idempotencyKey, Plain key := idempotencyHeaders_plain_iff
    simp only [KeyPlain, Option.mem_def, Option.some.injEq, forall_eq']
    constructor
    · intro h hvalid
      have hall := h _ (buildHeaders_of_validate hvalid body)
      simp only [List.forall_mem_append] at hall
      exact hkey.mp hall.1.1.1
    · intro h headers hheaders
      have hvalid := validate_of_buildHeaders hheaders
      obtain rfl := Except.ok.inj ((buildHeaders_of_validate hvalid body).symm.trans hheaders)
      simp only [List.forall_mem_append]
      exact ⟨⟨⟨hkey.mpr (h hvalid), signatureHeaders_plain host opts body⟩,
        traceHeaders_plain opts⟩, credentialHeaders_plain hbase64 hvalid⟩

theorem isHttpsEndpoint_iff : isHttpsEndpoint url = true ↔ HasHttpsScheme url := by
  have hascii : ∀ c ∈ httpsPrefix, Text.isAscii c = true := by decide
  have hlower : httpsPrefix.asciiLower = httpsPrefix := by decide
  unfold HasHttpsScheme
  rw [← hlower, ← Text.exists_getTo_eqIgnoreAsciiCase hascii]
  unfold isHttpsEndpoint
  cases Text.getTo httpsPrefix.byteLen url with
  | none => simp
  | some scheme => simp

theorem requestHeaders_cases (host : HttpHost) (body : Text)
    (opts : Option OutboundRequestOptions) :
    (Validates host opts ∧ ∃ headers, requestHeaders host body opts = .ok headers) ∨
      (¬ Validates host opts ∧ ∃ e, requestHeaders host body opts = .error e) := by
  cases opts with
  | none => exact Or.inl ⟨fun o ho => absurd ho (by simp), [], rfl⟩
  | some opts =>
    have hvalidates : Validates host (some opts) ↔ opts.validate host = .ok () := by
      simp [Validates]
    rw [hvalidates]
    cases hvalid : opts.validate host with
    | ok u => exact Or.inl ⟨rfl, _, buildHeaders_of_validate hvalid body⟩
    | error e =>
      refine Or.inr ⟨by simp, e, ?_⟩
      rw [requestHeaders, OutboundRequestOptions.buildHeaders, hvalid]
      rfl

theorem postsOnce (host : HttpHost) (url body : Text) (opts : Option OutboundRequestOptions) :
    PostsOnce host url body opts := by
  intro σ httpPost s
  unfold postWithOptions
  by_cases hscheme : isHttpsEndpoint url = true
  · rw [if_pos hscheme]
    rw [isHttpsEndpoint_iff] at hscheme
    rcases requestHeaders_cases host body opts with ⟨hvalid, headers, hok⟩ | ⟨hnot, e, herr⟩
    · rw [hok]
      exact ⟨fun _ => ⟨headers, rfl, rfl⟩, fun h => absurd ⟨hscheme, hvalid⟩ h⟩
    · rw [herr]
      exact ⟨fun h => absurd h.2 hnot, fun _ => ⟨e, rfl⟩⟩
  · rw [if_neg hscheme]
    rw [isHttpsEndpoint_iff] at hscheme
    exact ⟨fun h => absurd h.1 hscheme, fun _ => ⟨_, rfl⟩⟩

end Sources

/-- A request carries plain headers only, and is posted once when it is in order, exactly when the
idempotency key of options that validate is plain. -/
theorem header_injection_free_iff (host : HttpHost) (hbase64 : host.EncodesBase64)
    (opts : Option OutboundRequestOptions) (body : Text) :
    (HeadersPlain host body opts ∧ ∀ url, PostsOnce host url body opts) ↔ KeyPlain host opts := by
  rw [headersPlain_iff hbase64 opts body]
  exact and_iff_left fun url => postsOnce host url body opts

namespace Demo

def base64Digit (n : ℕ) : Char :=
  "ABCDEFGHIJKLMNOPQRSTUVWXYZabcdefghijklmnopqrstuvwxyz0123456789+/".toList.getD n '='

/-- Three bytes are four digits; the last group is padded. -/
def base64Encode : Bytes → Text
  | [] => []
  | [a] => [base64Digit (a.toNat / 4), base64Digit (a.toNat % 4 * 16), '=', '=']
  | [a, b] => [base64Digit (a.toNat / 4), base64Digit (a.toNat % 4 * 16 + b.toNat / 16),
      base64Digit (b.toNat % 16 * 4), '=']
  | a :: b :: c :: rest =>
    base64Digit (a.toNat / 4) :: base64Digit (a.toNat % 4 * 16 + b.toNat / 16) ::
      base64Digit (b.toNat % 16 * 4 + c.toNat / 64) :: base64Digit (c.toNat % 64) ::
      base64Encode rest

def httpHost : HttpHost := ⟨fun _ _ => BytesN.fill 32 0, base64Encode, ["authorization".toList]⟩

theorem base64Digit_isBase64Char (n : ℕ) : isBase64Char (base64Digit n) = true := by
  have hall : ∀ c ∈ "ABCDEFGHIJKLMNOPQRSTUVWXYZabcdefghijklmnopqrstuvwxyz0123456789+/".toList,
      isBase64Char c = true := by decide
  unfold base64Digit
  rw [List.getD_eq_getElem?_getD]
  cases hget : "ABCDEFGHIJKLMNOPQRSTUVWXYZabcdefghijklmnopqrstuvwxyz0123456789+/".toList[n]? with
  | none => decide
  | some c => exact hall c (List.mem_of_getElem? hget)

theorem httpHost_encodesBase64 : httpHost.EncodesBase64 := by
  have hdigit := base64Digit_isBase64Char
  have hpadding : isBase64Char '=' = true := by decide
  intro bytes
  change ∀ c ∈ base64Encode bytes, isBase64Char c = true
  induction bytes using base64Encode.induct with
  | case1 => exact List.forall_mem_nil _
  | case2 a => simp [base64Encode, hdigit, hpadding]
  | case3 a b => simp [base64Encode, hdigit, hpadding]
  | case4 a b c rest ih =>
    simp only [base64Encode, List.forall_mem_cons, hdigit, true_and]
    exact ih

/-- The credentials of a request without an idempotency key. -/
def basicOptions : OutboundRequestOptions :=
  ⟨none, none, none, some (.basic "svc".toList "hunter2".toList)⟩

/-- A key that ends its own header and begins another. -/
def smuggledOptions : OutboundRequestOptions :=
  ⟨some "k\r\nX-Admin: 1".toList, none, none, none⟩

end Demo

theorem basic_header_plain : HeadersPlain Demo.httpHost "{}".toList (some Demo.basicOptions) := by
  refine ((header_injection_free_iff Demo.httpHost Demo.httpHost_encodesBase64
    (some Demo.basicOptions) "{}".toList).mpr ?_).1
  intro opts hopts _ key hkey
  obtain rfl := Option.some.inj hopts
  cases hkey

/-- The line break of the idempotency key goes out in two headers. -/
theorem idempotency_key_smuggles_header :
    Demo.httpHost.EncodesBase64 ∧
      ¬ HeadersPlain Demo.httpHost "{}".toList (some Demo.smuggledOptions) := by
  refine ⟨Demo.httpHost_encodesBase64, fun h => ?_⟩
  have hvalid : Demo.smuggledOptions.validate Demo.httpHost = .ok () := rfl
  have hplain := h _ (buildHeaders_of_validate hvalid _) _ List.mem_cons_self
  have hbreak := hplain.2 '\r' (by decide)
  revert hbreak
  decide

end AnchorKit
