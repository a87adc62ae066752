import AnchorKit.Access

/-!
# SEP-10 token verification

The compact JWS verifier: splitting, base64url, the field scanners for the claims, the time
checks and the replay protection on `jti`. The verifier works on its own part of the storage,
and a result that rejects the token still says what that part looks like afterwards.
-/

namespace AnchorKit
namespace Sep10Jwt

open Fallible

def maxJwtLen : UInt32 := 2048

def maxJwtLifetime : UInt64 := 86400

def defaultClockSkew : UInt64 := 60

def jtiMaxBytes : Nat := 256

def jtiTtlBufferLedgers : UInt32 := 120

def decodeBase64urlChar (c : UInt8) : Option UInt8 :=
  if 0x41 ≤ c ∧ c ≤ 0x5A then some (c - 0x41)
  else if 0x61 ≤ c ∧ c ≤ 0x7A then some (c - 0x61 + 26)
  else if 0x30 ≤ c ∧ c ≤ 0x39 then some (c - 0x30 + 52)
  else if c = 0x2D then some 62
  else if c = 0x5F then some 63
  else none

/-- The loop of `base64url_decode`: `bits` of `buffer` are not yet emitted. -/
def base64urlLoop (buffer bits : UInt32) (out : Bytes) : Bytes → Option Bytes
  | [] => some out
  | ch :: rest =>
    if ch = 0x3D then some out
    else do
      let val ← decodeBase64urlChar ch
      let buffer := (buffer <<< 6) ||| val.toUInt32
      let bits := bits + 6
      if 8 ≤ bits then
        let bits := bits - 8
        base64urlLoop buffer bits (out ++ [((buffer >>> bits) &&& 0xFF).toUInt8]) rest
      else base64urlLoop buffer bits out rest

def base64urlDecode (input : Bytes) : Option Bytes := base64urlLoop 0 0 [] input

def findFrom (needle : Bytes) : Bytes → Option Nat
  | [] => none
  | b :: rest =>
    if needle.isPrefixOf (b :: rest) then some 0 else (findFrom needle rest).map (· + 1)

def findBytes (haystack needle : Bytes) : Option Nat :=
  if needle = [] then some 0 else findFrom needle haystack

def isAsciiWhitespace (b : UInt8) : Bool :=
  b = 0x20 || b = 0x09 || b = 0x0A || b = 0x0C || b = 0x0D

def isAsciiDigit (b : UInt8) : Bool := 0x30 ≤ b && b ≤ 0x39

/-- The bytes `"name":`. -/
def claimKey (name : List Char) : Bytes :=
  0x22 :: name.map (fun c => c.toNat.toUInt8) ++ [0x22, 0x3A]

/-- What follows the first occurrence of a claim's key and the whitespace after it. -/
def claimValue (payload : Bytes) (name : List Char) : Option Bytes := do
  let pos ← findBytes payload (claimKey name)
  return (payload.drop (pos + (claimKey name).length)).dropWhile isAsciiWhitespace

def digitsLoop (n : UInt64) (any : Bool) : Bytes → Option (UInt64 × Bool)
  | [] => some (n, any)
  | b :: rest =>
    if isAsciiDigit b then do
      let x ← Word.checkedMul64 n 10
      let x ← Word.checkedAdd64 x (b - 0x30).toUInt64
      digitsLoop x true rest
    else some (n, any)

/-- The shared body of the numeric claim scanners. -/
def parseJsonNumber (name : List Char) (payload : Bytes) : Option UInt64 := do
  let value ← claimValue payload name
  let (n, any) ← digitsLoop 0 false value
  if any then some n else none

def parseJsonExp : Bytes → Option UInt64 := parseJsonNumber ['e', 'x', 'p']

def parseJsonNbf : Bytes → Option UInt64 := parseJsonNumber ['n', 'b', 'f']

def parseJsonIat : Bytes → Option UInt64 := parseJsonNumber ['i', 'a', 't']

/-- The shared body of the string claim scanners: no escape sequences, up to the next quote. -/
def parseJsonText (name : List Char) (payload : Bytes) : Option Bytes := do
  match ← claimValue payload name with
  | [] => none
  | q :: rest =>
    if q = 0x22 ∧ 0x22 ∈ rest then some (rest.takeWhile (· ≠ 0x22)) else none

def parseJsonJti : Bytes → Option Bytes := parseJsonText ['j', 't', 'i']

def parseJsonIss : Bytes → Option Bytes := parseJsonText ['i', 's', 's']

def parseJsonAlg : Bytes → Option Bytes := parseJsonText ['a', 'l', 'g']

def parseJsonSub : Bytes → Option Bytes := parseJsonText ['s', 'u', 'b']

/-- The bytes `EdDSA`. -/
def edDsa : Bytes := [0x45, 0x64, 0x44, 0x53, 0x41]

/-- The positions of the `.` separators. -/
def dots (token : Bytes) : List Nat :=
  (token.zipIdx.filter fun p => p.1 = 0x2E).map Prod.snd

/-- An issuer with something besides whitespace in it and no control characters. -/
def issAccepted (iss : Bytes) : Bool :=
  !(iss.all isAsciiWhitespace) && iss.all fun b => 0x20 ≤ b && b ≠ 0x7F

/-- Verification returns a result and may be stopped by the host, which traps on a signature that
does not verify. -/
abbrev VerifyM := ExceptT Unit (StateT Sep10Store (Except Panic))

def orErr {α : Type} (o : Option α) : VerifyM α :=
  match o with
  | some a => pure a
  | none => throw ()

def checkEd25519Verify (host : Host) (pk : BytesN 32) (message : Bytes) (sig : BytesN 64) :
    VerifyM Unit :=
  if host.ed25519Verify pk message sig then pure () else throwThe Panic .invalidSignature

def verifySep10Jwt (host : Host) (env : Env) (token anchorPublicKey : Bytes)
    (expectedSub : Option String) : VerifyM Unit := do
  if anchorPublicKey.length ≠ 32 then throw ()
  let maxLen := (← getThe Sep10Store).jwtMaxLen.getD maxJwtLen
  let n := token.length
  if n = 0 ∨ maxLen.toNat < n then throw ()
  let (d0, d1) ← orErr (match dots token with
    | [d0, d1] => some (d0, d1)
    | _ => none)
  if d0 = 0 ∨ d1 ≤ d0 + 1 ∨ n ≤ d1 + 1 then throw ()
  let headerDec ← orErr (base64urlDecode (token.take d0))
  if parseJsonAlg headerDec ≠ some edDsa then throw ()
  let sigDec ← orErr (base64urlDecode (token.drop (d1 + 1)))
  let sig ← orErr (BytesN.ofBytes? 64 sigDec)
  let pk ← orErr (BytesN.ofBytes? 32 anchorPublicKey)
  checkEd25519Verify host pk (token.take d1) sig
  let payloadDec ← orErr (base64urlDecode ((token.take d1).drop (d0 + 1)))
  if payloadDec = [] then throw ()
  let exp ← orErr (parseJsonExp payloadDec)
  let now := env.timestamp
  let skew := (← getThe Sep10Store).jwtSkew.getD defaultClockSkew
  if Word.saturatingAdd64 exp skew ≤ now then throw ()
  let iat ← orErr (parseJsonIat payloadDec)
  if iat = 0 then throw ()
  if Word.saturatingAdd64 now skew < iat then throw ()
  let lifetime ← orErr (Word.checkedSub64 exp iat)
  if maxJwtLifetime < lifetime then throw ()
  if let some nbf := parseJsonNbf payloadDec then
    if Word.saturatingAdd64 now skew < nbf then throw ()
  let jti := parseJsonJti payloadDec
  if let some jtiBytes := jti then
    if jtiMaxBytes < jtiBytes.length then throw ()
    if (← getThe Sep10Store).jtis.has jtiBytes then throw ()
  let iss ← orErr (parseJsonIss payloadDec)
  if !issAccepted iss then throw ()
  let sub ← orErr (parseJsonSub payloadDec)
  if sub = [] then throw ()
  if let some expected := expectedSub then
    if sub ≠ expected.toUTF8.toList then throw ()
  -- the `jti` is committed only after every claim has been checked
  if let some jtiBytes := jti then
    let remaining := Word.saturatingSub64 exp now
    let ttl := max (Word.saturatingAdd32 (remaining / 5).toUInt32 jtiTtlBufferLedgers) 1
    modifyThe Sep10Store fun st => { st with jtis := st.jtis.set jtiBytes ttl }

/-- The base verification, and then the issuer's name is compared. -/
def verifySep10JwtWithIssuer (host : Host) (env : Env) (token anchorPublicKey : Bytes)
    (expectedSub : Option String) (expectedIssuer : String) : VerifyM Unit := do
  if anchorPublicKey.length ≠ 32 then throw ()
  let expectedIssuerTrimmed := trim expectedIssuer
  if expectedIssuerTrimmed = [] then throw ()
  verifySep10Jwt host env token anchorPublicKey expectedSub
  let (d0, d1) ← orErr (match dots token with
    | d0 :: d1 :: _ => some (d0, d1)
    | _ => none)
  let payloadDec ← orErr (base64urlDecode ((token.take d1).drop (d0 + 1)))
  let iss ← orErr (parseJsonIss payloadDec)
  if iss = [] then throw ()
  let issStr ← orErr (fromUtf8 iss)
  if trim issStr ≠ expectedIssuerTrimmed then throw ()

/-- Run the verifier on the contract's storage, turning a rejection into the contract's error. -/
def verifyOrPanic (host : Host) (env : Env) (s : Storage) (token anchorPublicKey : Bytes)
    (expectedSub : Option String) : Except Panic Storage := do
  let (result, sep10) ← (verifySep10Jwt host env token anchorPublicKey expectedSub).run s.sep10
  match result with
  | .ok () => return { s with sep10 := sep10 }
  | .error () => throw (.withError .invalidSep10Token)

end Sep10Jwt

open Fallible

def verifySep10Token (host : Host) (env : Env) (s : Storage) (token : Bytes) (issuer : Address) :
    Except Panic Storage := do
  let pk ← expect (s.sep10.keys.get issuer) (.withError .invalidSep10Token)
  Sep10Jwt.verifyOrPanic host env s token pk none

def verifySep10TokenForSubject (host : Host) (env : Env) (s : Storage) (token : Bytes)
    (issuer subject : Address) : Except Panic Storage := do
  let pk ← expect (s.sep10.keys.get issuer) (.withError .invalidSep10Token)
  Sep10Jwt.verifyOrPanic host env s token pk (some subject.toText)

def verifySep10TokenMatchesAttestor (host : Host) (env : Env) (s : Storage) (token : Bytes)
    (issuer attestor : Address) : Except Panic Storage :=
  verifySep10TokenForSubject host env s token issuer attestor

def setSep10JwtVerifyingKey (env : Env) (s : Storage) (issuer : Address) (publicKey : Bytes) :
    Except Panic Storage := do
  requireAdmin env s
  require (publicKey.length = 32) (.withError .validationError)
  return { s with sep10 := { s.sep10 with keys := s.sep10.keys.set issuer publicKey } }

def rotateSep10Key (env : Env) (s : Storage) (issuer : Address) (newPublicKey : Bytes) :
    Except Panic Storage := do
  requireAdmin env s
  require (newPublicKey.length = 32) (.withError .validationError)
  let oldKeys := match s.sep10.keys.get issuer with
    | some oldKey => s.sep10.oldKeys.set issuer oldKey
    | none => s.sep10.oldKeys
  let s := { s with sep10 := { s.sep10 with
    keys := s.sep10.keys.set issuer newPublicKey, oldKeys := oldKeys } }
  return s.publish (.sep10KeyRotated issuer)

def minJwtMaxLen : UInt32 := 2048

def maxJwtMaxLen : UInt32 := 16384

def setJwtMaxLen (env : Env) (s : Storage) (maxLen : UInt32) : Except Panic Storage := do
  requireAdmin env s
  require (minJwtMaxLen ≤ maxLen ∧ maxLen ≤ maxJwtMaxLen) (.withError .validationError)
  return { s with sep10 := { s.sep10 with jwtMaxLen := some maxLen } }

def setJwtSkew (env : Env) (s : Storage) (skewSeconds : UInt64) : Except Panic Storage := do
  requireAdmin env s
  require (skewSeconds ≤ 300) (.withError .validationError)
  return { s with sep10 := { s.sep10 with jwtSkew := some skewSeconds } }

section Frames

variable {host : Host} {env : Env} {s s' : Storage}

theorem verifyOrPanic_frame {token pk : Bytes} {expectedSub : Option String}
    (h : Sep10Jwt.verifyOrPanic host env s token pk expectedSub = .ok s') :
    ∃ sep10, s' = { s with sep10 := sep10 } := by
  simp only [Sep10Jwt.verifyOrPanic, bind_eq_ok] at h
  obtain ⟨⟨result, sep10⟩, _, h⟩ := h
  cases result with
  | ok _ => exact ⟨sep10, (pure_eq_ok.mp h).symm⟩
  | error _ => cases h

theorem verifySep10Token_frame {token : Bytes} {issuer : Address}
    (h : verifySep10Token host env s token issuer = .ok s') :
    ∃ sep10, s' = { s with sep10 := sep10 } := by
  simp only [verifySep10Token, expect_bind_eq_ok] at h
  obtain ⟨_, _, h⟩ := h
  exact verifyOrPanic_frame h

theorem verifySep10TokenForSubject_frame {token : Bytes} {issuer subject : Address}
    (h : verifySep10TokenForSubject host env s token issuer subject = .ok s') :
    ∃ sep10, s' = { s with sep10 := sep10 } := by
  simp only [verifySep10TokenForSubject, expect_bind_eq_ok] at h
  obtain ⟨_, _, h⟩ := h
  exact verifyOrPanic_frame h

theorem setSep10JwtVerifyingKey_frame {issuer : Address} {publicKey : Bytes}
    (h : setSep10JwtVerifyingKey env s issuer publicKey = .ok s') :
    ∃ sep10, s' = { s with sep10 := sep10 } := by
  simp only [setSep10JwtVerifyingKey, bind_eq_ok, pure_eq_ok] at h
  obtain ⟨_, _, _, _, rfl⟩ := h
  exact ⟨_, rfl⟩

theorem rotateSep10Key_frame {issuer : Address} {newPublicKey : Bytes}
    (h : rotateSep10Key env s issuer newPublicKey = .ok s') :
    ∃ sep10 events, s' = { s with sep10 := sep10, events := events } := by
  simp only [rotateSep10Key, bind_eq_ok, pure_eq_ok] at h
  obtain ⟨_, _, _, _, rfl⟩ := h
  exact ⟨_, _, rfl⟩

theorem setJwtMaxLen_frame {maxLen : UInt32} (h : setJwtMaxLen env s maxLen = .ok s') :
    ∃ sep10, s' = { s with sep10 := sep10 } := by
  simp only [setJwtMaxLen, bind_eq_ok, pure_eq_ok] at h
  obtain ⟨_, _, _, _, rfl⟩ := h
  exact ⟨_, rfl⟩

theorem setJwtSkew_frame {skewSeconds : UInt64} (h : setJwtSkew env s skewSeconds = .ok s') :
    ∃ sep10, s' = { s with sep10 := sep10 } := by
  simp only [setJwtSkew, bind_eq_ok, pure_eq_ok] at h
  obtain ⟨_, _, _, _, rfl⟩ := h
  exact ⟨_, rfl⟩

end Frames

end AnchorKit
