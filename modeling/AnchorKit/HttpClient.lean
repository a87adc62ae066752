import AnchorKit.TraceContext
import AnchorKit.DomainValidator

/-!
# The outbound HTTP client

The options of a request become headers after the credentials and the signing key were validated;
a request is handed to the transport when its address has the `https` scheme. The keyed hash, the
base64 encoder and the list of protected header names come from elsewhere.
-/

namespace AnchorKit

open Fallible

/-- What the client uses and does not define. -/
structure HttpHost where
  hmacSha256 : Bytes → Bytes → BytesN 32
  base64 : Bytes → Text
  protectedHeaderNames : List Text

def isBase64Char (c : Char) : Bool := c.isAlphanum || c = '+' || c = '/' || c = '='

def HttpHost.EncodesBase64 (host : HttpHost) : Prop :=
  ∀ bytes, ∀ c ∈ host.base64 bytes, isBase64Char c = true

abbrev Header := Text × Text

inductive RequestCredentials
  | bearer (token : Text)
  | basic (username password : Text)
  | header (name value : Text)
deriving DecidableEq, Repr

structure OutboundRequestOptions where
  idempotencyKey : Option Text
  signingKey : Option Bytes
  trace : Option TraceContext
  credentials : Option RequestCredentials
deriving DecidableEq

/-- `u8::is_ascii_whitespace`. -/
def isAsciiWhitespace (b : UInt8) : Bool :=
  b = 0x20 || b = 0x09 || b = 0x0a || b = 0x0c || b = 0x0d

def trimAscii (bytes : Bytes) : Bytes :=
  (bytes.dropWhile isAsciiWhitespace).rdropWhile isAsciiWhitespace

def validateSigningKey (key : Bytes) : Except Text Unit :=
  require (trimAscii key ≠ []) "signing key cannot be empty or whitespace-only".toList

def rejectCtl (what value : Text) : Except Text Unit :=
  require (value.any Text.isAsciiControl = false)
    ("credentials: ".toList ++ what ++ " contains control characters".toList)

def isTokenChar (c : Char) : Bool :=
  c.isAlphanum || ['-', '_', '.', '!', '#', '$', '%', '&', '\'', '*', '+', '^', '\x60', '|',
    '~'].contains c

namespace RequestCredentials

def toHeader (host : HttpHost) : RequestCredentials → Header
  | bearer token => ("Authorization".toList, "Bearer ".toList ++ token)
  | basic username password =>
    let raw : Text := username ++ ':' :: password
    ("Authorization".toList, "Basic ".toList ++ host.base64 raw.utf8)
  | header name value => (name, value)

def validate (host : HttpHost) : RequestCredentials → Except Text Unit
  | bearer token => do
    require (Text.trimMatches isWhitespace token ≠ [])
      "credentials: bearer token cannot be blank".toList
    rejectCtl "bearer token".toList token
  | basic username password => do
    require (username ≠ []) "credentials: username cannot be empty".toList
    require (username.contains ':' = false) "credentials: username cannot contain ':'".toList
    rejectCtl "username".toList username
    rejectCtl "password".toList password
  | header name value => do
    require (name ≠ []) "credentials: header name cannot be empty".toList
    require (name.all isTokenChar = true)
      ("credentials: header name '".toList ++ name ++ "' contains invalid characters".toList)
    require (host.protectedHeaderNames.any (Text.eqIgnoreAsciiCase name) = false)
      ("credentials: header name '".toList ++ name ++
        "' is protected; use Bearer or Basic credentials instead".toList)
    rejectCtl "header value".toList value

end RequestCredentials

def computeHmacHex (host : HttpHost) (key : Bytes) (payload : Text) : Text :=
  (host.hmacSha256 key payload.utf8).val.flatMap fun b : UInt8 =>
    [TraceContext.hexNibble (b >>> 4), TraceContext.hexNibble (b &&& 0x0f)]

namespace OutboundRequestOptions

def validate (host : HttpHost) (opts : OutboundRequestOptions) : Except Text Unit := do
  if let some key := opts.signingKey then
    validateSigningKey key
  if let some creds := opts.credentials then
    creds.validate host

/-- An empty key counts as none. -/
def idempotencyHeaders (opts : OutboundRequestOptions) : List Header :=
  match opts.idempotencyKey with
  | some key =>
    if key = [] then []
    else [("Idempotency-Key".toList, key), ("X-Request-Id".toList, key)]
  | none => []

def signatureHeaders (host : HttpHost) (opts : OutboundRequestOptions) (body : Text) :
    List Header :=
  match opts.signingKey with
  | some key => [("X-Anchor-Signature".toList, "sha256=".toList ++ computeHmacHex host key body)]
  | none => []

def traceHeaders (opts : OutboundRequestOptions) : List Header :=
  match opts.trace with
  | some trace => trace.headerPairs
  | none => []

def credentialHeaders (host : HttpHost) (opts : OutboundRequestOptions) : List Header :=
  match opts.credentials with
  | some creds => [creds.toHeader host]
  | none => []

def buildHeaders (host : HttpHost) (opts : OutboundRequestOptions) (body : Text) :
    Except Text (List Header) := do
  opts.validate host
  return opts.idempotencyHeaders ++ opts.signatureHeaders host body ++ opts.traceHeaders ++
    opts.credentialHeaders host

end OutboundRequestOptions

def isHttpsEndpoint (url : Text) : Bool :=
  match Text.getTo httpsPrefix.byteLen url with
  | some scheme => Text.eqIgnoreAsciiCase scheme httpsPrefix
  | none => false

/-- Posts a body with headers; it may keep a state from one request to the next. -/
abbrev Transport (σ : Type) := σ → Text → Text → List Header → σ × Except Text UInt16

/-- The headers of a request with or without options. -/
def requestHeaders (host : HttpHost) (body : Text) :
    Option OutboundRequestOptions → Except Text (List Header)
  | some opts => opts.buildHeaders host body
  | none => return []

def postWithOptions {σ : Type} (host : HttpHost) (url body : Text)
    (opts : Option OutboundRequestOptions) (httpPost : Transport σ) (s : σ) :
    σ × Except Text UInt16 :=
  if isHttpsEndpoint url then
    match requestHeaders host body opts with
    | .ok headers => httpPost s url body headers
    | .error e => (s, .error e)
  else
    (s, .error "outbound request rejected: endpoint URL must use the https:// scheme".toList)

def Header.Plain (h : Header) : Prop :=
  h.1 ≠ [] ∧ ∀ c ∈ h.1 ++ h.2, Text.isAsciiControl c = false

def HeadersPlain (host : HttpHost) (body : Text) (opts : Option OutboundRequestOptions) : Prop :=
  ∀ headers, requestHeaders host body opts = .ok headers → ∀ h ∈ headers, h.Plain

def HasHttpsScheme (url : Text) : Prop := httpsPrefix <+: url.asciiLower

def Validates (host : HttpHost) (opts : Option OutboundRequestOptions) : Prop :=
  ∀ o ∈ opts, o.validate host = .ok ()

/-- Whatever the transport is, it is handed the request once when scheme and options are in order,
and never otherwise. -/
def PostsOnce (host : HttpHost) (url body : Text) (opts : Option OutboundRequestOptions) : Prop :=
  ∀ (σ : Type) (httpPost : Transport σ) (s : σ),
    (HasHttpsScheme url ∧ Validates host opts → ∃ headers,
      requestHeaders host body opts = .ok headers ∧
        postWithOptions host url body opts httpPost s = httpPost s url body headers) ∧
    (¬ (HasHttpsScheme url ∧ Validates host opts) →
      ∃ e, postWithOptions host url body opts httpPost s = (s, .error e))

/-- The idempotency key of options that validate has no control character. -/
def KeyPlain (host : HttpHost) (opts : Option OutboundRequestOptions) : Prop :=
  ∀ o ∈ opts, o.validate host = .ok () → ∀ key ∈ o.idempotencyKey,
    ∀ c ∈ key, Text.isAsciiControl c = false

end AnchorKit
