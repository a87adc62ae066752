import AnchorKit.Library.Procedure
import AnchorKit.Sep10Jwt

/-!
# What token verification accepts

The verifier cut into its stages, and for each of them what it takes to pass. Put together they
say which tokens are accepted, what their claims are read as, and what acceptance writes.
-/

namespace AnchorKit
namespace Sep10Jwt

open Fallible Procedure

variable {host : Host} {env : Env} {st st' : Sep10Store}

/-! ### Stages -/

/-- Up to the decoded payload, whose signature is then good. -/
def decodePayloadThen (host : Host) (token anchorPublicKey : Bytes) (rest : Bytes → VerifyM Unit) :
    VerifyM Unit := do
  if anchorPublicKey.length ≠ 32 then throw ()
  let maxLen := (← getThe Sep10Store).jwtMaxLen.getD maxJwtLen
  let n := token.length
  if n = 0 ∨ maxLen.toNat < n then throw ()
  let (d0, d1) ← orErr (match dots token with
    | [d0, d1] => some (d0, d1)
    | _ => none)
  if d0 = 0 ∨ d1 ≤ d0 + 1 ∨ n ≤ d1 + 1 then throw ()
  let headerDec ← orErr (base64urlDecode (token.take d0))
  if parseJsonAlg headerDec ≠ some edDsa then throw ()
  let sigDec ← orErr (base64urlDecode (token.drop (d1 + 1)))
  let sig ← orErr (BytesN.ofBytes? 64 sigDec)
  let pk ← orErr (BytesN.ofBytes? 32 anchorPublicKey)
  checkEd25519Verify host pk (token.take d1) sig
  let payloadDec ← orErr (base64urlDecode ((token.take d1).drop (d0 + 1)))
  rest payloadDec

/-- The marker of the `jti`, with its lifetime in ledgers. -/
def commitJti (env : Env) (exp : UInt64) (jti : Option Bytes) : VerifyM Unit := do
  if let some jtiBytes := jti then
    let remaining := Word.saturatingSub64 exp env.timestamp
    let ttl := max (Word.saturatingAdd32 (remaining / 5).toUInt32 jtiTtlBufferLedgers) 1
    modifyThe Sep10Store fun st => { st with jtis := st.jtis.set jtiBytes ttl }

def checkExpectedThen (sub : Bytes) (expectedSub : Option String) (rest : VerifyM Unit) :
    VerifyM Unit := do
  if let some expected := expectedSub then
    if sub ≠ expected.toUTF8.toList then throw ()
  rest

/-- The issuer and the subject. -/
def checkPartiesThen (payloadDec : Bytes) (expectedSub : Option String) (rest : VerifyM Unit) :
    VerifyM Unit := do
  let iss ← orErr (parseJsonIss payloadDec)
  if !issAccepted iss then throw ()
  let sub ← orErr (parseJsonSub payloadDec)
  if sub = [] then throw ()
  checkExpectedThen sub expectedSub rest

def checkJtiThen (jti : Option Bytes) (rest : VerifyM Unit) : VerifyM Unit := do
  if let some jtiBytes := jti then
    if jtiMaxBytes < jtiBytes.length then throw ()
    if (← getThe Sep10Store).jtis.has jtiBytes then throw ()
  rest

def checkNbfThen (latest : UInt64) (nbf : Option UInt64) (rest : VerifyM Unit) : VerifyM Unit := do
  if let some nbf := nbf then
    if latest < nbf then throw ()
  rest

/-- From the decoded payload on. -/
def checkClaims (env : Env) (payloadDec : Bytes) (expectedSub : Option String) : VerifyM Unit := do
  if payloadDec = [] then throw ()
  let exp ← orErr (parseJsonExp payloadDec)
  let now := env.timestamp
  let skew := (← getThe Sep10Store).jwtSkew.getD defaultClockSkew
  if Word.saturatingAdd64 exp skew ≤ now then throw ()
  let iat ← orErr (parseJsonIat payloadDec)
  if iat = 0 then throw ()
  if Word.saturatingAdd64 now skew < iat then throw ()
  let lifetime ← orErr (Word.checkedSub64 exp iat)
  if maxJwtLifetime < lifetime then throw ()
  checkNbfThen (Word.saturatingAdd64 now skew) (parseJsonNbf payloadDec) (do
    let jti := parseJsonJti payloadDec
    checkJtiThen jti (checkPartiesThen payloadDec expectedSub (commitJti env exp jti)))

theorem verifySep10Jwt_eq (token anchorPublicKey : Bytes) (expectedSub : Option String) :
    verifySep10Jwt host env token anchorPublicKey expectedSub =
      decodePayloadThen host token anchorPublicKey
        fun payloadDec => checkClaims env payloadDec expectedSub := rfl

/-! ### What it takes to pass -/

structure Claims where
  exp : UInt64
  iat : UInt64
  nbf : Option UInt64
  jti : Option Bytes
  iss : Bytes
  sub : Bytes
deriving DecidableEq, Repr

def readClaims (payload : Bytes) : Option Claims := do
  let exp ← parseJsonExp payload
  let iat ← parseJsonIat payload
  let iss ← parseJsonIss payload
  let sub ← parseJsonSub payload
  return { exp, iat, nbf := parseJsonNbf payload, jti := parseJsonJti payload, iss, sub }

theorem readClaims_eq_some {payload : Bytes} {c : Claims} : readClaims payload = some c ↔
    parseJsonExp payload = some c.exp ∧ parseJsonIat payload = some c.iat ∧
      parseJsonIss payload = some c.iss ∧ parseJsonSub payload = some c.sub ∧
      parseJsonNbf payload = c.nbf ∧ parseJsonJti payload = c.jti := by
  obtain ⟨exp, iat, nbf, jti, iss, sub⟩ := c
  simp [readClaims, Option.bind_eq_some_iff]

def clockSkew (st : Sep10Store) : UInt64 := st.jwtSkew.getD defaultClockSkew

/-- The token has three parts, of which the second is the payload, and its signature is good. -/
def SignedPayload (host : Host) (st : Sep10Store) (token anchorPublicKey payload : Bytes) : Prop :=
  anchorPublicKey.length = 32 ∧ token ≠ [] ∧
    token.length ≤ (st.jwtMaxLen.getD maxJwtLen).toNat ∧
    ∃ d0 d1, dots token = [d0, d1] ∧ d0 ≠ 0 ∧ d0 + 1 < d1 ∧ d1 + 1 < token.length ∧
      (∃ header, base64urlDecode (token.take d0) = some header ∧ parseJsonAlg header = some edDsa) ∧
      (∃ sigDec sig pk, base64urlDecode (token.drop (d1 + 1)) = some sigDec ∧
        BytesN.ofBytes? 64 sigDec = some sig ∧ BytesN.ofBytes? 32 anchorPublicKey = some pk ∧
        host.ed25519Verify pk (token.take d1) sig = true) ∧
      base64urlDecode ((token.take d1).drop (d0 + 1)) = some payload

theorem SignedPayload.unique {host : Host} {st : Sep10Store} {token anchorPublicKey p q : Bytes}
    (hp : SignedPayload host st token anchorPublicKey p)
    (hq : SignedPayload host st token anchorPublicKey q) : p = q := by
  obtain ⟨_, _, _, d0, d1, hdots, _, _, _, _, _, hpayload⟩ := hp
  obtain ⟨_, _, _, e0, e1, hdots', _, _, _, _, _, hpayload'⟩ := hq
  rw [hdots, List.cons.injEq, List.cons.injEq] at hdots'
  obtain ⟨rfl, rfl, _⟩ := hdots'
  exact Option.some.inj (hpayload.symm.trans hpayload')

namespace Claims

structure Accepted (c : Claims) (env : Env) (st : Sep10Store) (expectedSub : Option String) :
    Prop where
  unexpired : env.timestamp < Word.saturatingAdd64 c.exp (clockSkew st)
  dated : c.iat ≠ 0
  issued : c.iat ≤ Word.saturatingAdd64 env.timestamp (clockSkew st)
  lifetime : ∃ lifetime, Word.checkedSub64 c.exp c.iat = some lifetime ∧ lifetime ≤ maxJwtLifetime
  begun : ∀ nbf, c.nbf = some nbf → nbf ≤ Word.saturatingAdd64 env.timestamp (clockSkew st)
  unused : ∀ jti, c.jti = some jti → jti.length ≤ jtiMaxBytes ∧ st.jtis.has jti = false
  issuer : issAccepted c.iss = true
  subject : c.sub ≠ []
  expected : ∀ expected, expectedSub = some expected → c.sub = expected.toUTF8.toList

/-- For how many ledgers the marker of a `jti` lives. -/
def markerTtl (c : Claims) (env : Env) : UInt32 :=
  max (Word.saturatingAdd32 (Word.saturatingSub64 c.exp env.timestamp / 5).toUInt32
    jtiTtlBufferLedgers) 1

/-- The storage with the `jti` used up. -/
def commit (c : Claims) (env : Env) (st : Sep10Store) : Sep10Store :=
  match c.jti with
  | some jti => { st with jtis := st.jtis.set jti (c.markerTtl env) }
  | none => st

end Claims

theorem returns_orErr {α : Type} {o : Option α} {a : α} :
    Returns (orErr o) st a st' ↔ o = some a ∧ st = st' := by
  cases o <;> simp [orErr]

theorem returns_checkEd25519Verify {pk : BytesN 32} {message : Bytes} {sig : BytesN 64} {u : Unit} :
    Returns (checkEd25519Verify host pk message sig) st u st' ↔
      host.ed25519Verify pk message sig = true ∧ st = st' := by
  unfold checkEd25519Verify
  cases host.ed25519Verify pk message sig <;> simp

theorem returns_decodePayloadThen {token anchorPublicKey : Bytes} {rest : Bytes → VerifyM Unit} :
    Returns (decodePayloadThen host token anchorPublicKey rest) st () st' ↔
      ∃ payload, SignedPayload host st token anchorPublicKey payload ∧
        Returns (rest payload) st () st' := by
  have hparts {d : ℕ × ℕ} : (match dots token with
      | [d0, d1] => some (d0, d1)
      | _ => none) = some d ↔ dots token = [d.1, d.2] := by
    constructor
    · intro h
      split at h
      · rename_i heq
        obtain rfl := Option.some.inj h
        exact heq
      · cases h
    · intro h
      rw [h]
  unfold decodePayloadThen SignedPayload
  simp only [↓returns_check, returns_bind, returns_orErr, returns_get, returns_checkEd25519Verify,
    hparts, not_not, not_or, not_lt, not_le, List.length_eq_zero_iff]
  constructor
  · rintro ⟨hkey, _, _, ⟨rfl, rfl⟩, ⟨hnonempty, hlength⟩, ⟨d0, d1⟩, _, ⟨hdots, rfl⟩,
      ⟨h0, h01, h1⟩, header, _, ⟨hheader, rfl⟩, halg, sigDec, _, ⟨hsigDec, rfl⟩, sig, _,
      ⟨hsig, rfl⟩, pk, _, ⟨hpk, rfl⟩, _, _, ⟨hverify, rfl⟩, payload, _, ⟨hpayload, rfl⟩, hrest⟩
    exact ⟨payload, ⟨hkey, hnonempty, hlength, d0, d1, hdots, h0, h01, h1, ⟨header, hheader, halg⟩,
      ⟨sigDec, sig, pk, hsigDec, hsig, hpk, hverify⟩, hpayload⟩, hrest⟩
  · rintro ⟨payload, ⟨hkey, hnonempty, hlength, d0, d1, hdots, h0, h01, h1, ⟨header, hheader, halg⟩,
      ⟨sigDec, sig, pk, hsigDec, hsig, hpk, hverify⟩, hpayload⟩, hrest⟩
    exact ⟨hkey, _, _, ⟨rfl, rfl⟩, ⟨hnonempty, hlength⟩, ⟨d0, d1⟩, _, ⟨hdots, rfl⟩,
      ⟨h0, h01, h1⟩, header, _, ⟨hheader, rfl⟩, halg, sigDec, _, ⟨hsigDec, rfl⟩, sig, _,
      ⟨hsig, rfl⟩, pk, _, ⟨hpk, rfl⟩, (), _, ⟨hverify, rfl⟩, payload, _, ⟨hpayload, rfl⟩, hrest⟩

theorem returns_checkNbfThen {latest : UInt64} {nbf : Option UInt64} {rest : VerifyM Unit} :
    Returns (checkNbfThen latest nbf rest) st () st' ↔
      (∀ v, nbf = some v → v ≤ latest) ∧ Returns rest st () st' := by
  cases nbf with
  | none => exact (and_iff_right nofun).symm
  | some v =>
    simp only [checkNbfThen, ↓returns_check, Option.some.injEq, forall_eq', UInt64.not_lt]

theorem returns_checkJtiThen {jti : Option Bytes} {rest : VerifyM Unit} :
    Returns (checkJtiThen jti rest) st () st' ↔
      (∀ v, jti = some v → v.length ≤ jtiMaxBytes ∧ st.jtis.has v = false) ∧
        Returns rest st () st' := by
  cases jti with
  | none => exact (and_iff_right nofun).symm
  | some v =>
    simp only [checkJtiThen, ↓returns_check, returns_bind, returns_get, Option.some.injEq,
      forall_eq', Bool.not_eq_true, not_lt]
    constructor
    · rintro ⟨hlength, _, _, ⟨rfl, rfl⟩, hfree, hrest⟩
      exact ⟨⟨hlength, hfree⟩, hrest⟩
    · rintro ⟨⟨hlength, hfree⟩, hrest⟩
      exact ⟨hlength, _, _, ⟨rfl, rfl⟩, hfree, hrest⟩

theorem returns_commitJti {c : Claims} :
    Returns (commitJti env c.exp c.jti) st () st' ↔ c.commit env st = st' := by
  unfold commitJti Claims.commit
  cases c.jti with
  | none => simp
  | some jti => exact returns_modify

theorem returns_checkExpectedThen {sub : Bytes} {expectedSub : Option String}
    {rest : VerifyM Unit} :
    Returns (checkExpectedThen sub expectedSub rest) st () st' ↔
      (∀ expected, expectedSub = some expected → sub = expected.toUTF8.toList) ∧
        Returns rest st () st' := by
  cases expectedSub with
  | none => exact (and_iff_right nofun).symm
  | some expected =>
    simp only [checkExpectedThen, ↓returns_check, not_not, Option.some.injEq, forall_eq']

theorem returns_checkPartiesThen {payload : Bytes} {expectedSub : Option String}
    {rest : VerifyM Unit} :
    Returns (checkPartiesThen payload expectedSub rest) st () st' ↔
      ∃ iss sub, parseJsonIss payload = some iss ∧ parseJsonSub payload = some sub ∧
        issAccepted iss = true ∧ sub ≠ [] ∧
        (∀ expected, expectedSub = some expected → sub = expected.toUTF8.toList) ∧
        Returns rest st () st' := by
  unfold checkPartiesThen
  simp only [returns_bind, returns_orErr, ↓returns_check, returns_checkExpectedThen,
    Bool.not_eq_true', Bool.not_eq_false]
  constructor
  · rintro ⟨iss, _, ⟨hiss, rfl⟩, haccepted, sub, _, ⟨hsub, rfl⟩, hne, hexpected, hrest⟩
    exact ⟨iss, sub, hiss, hsub, haccepted, hne, hexpected, hrest⟩
  · rintro ⟨iss, sub, hiss, hsub, haccepted, hne, hexpected, hrest⟩
    exact ⟨iss, _, ⟨hiss, rfl⟩, haccepted, sub, _, ⟨hsub, rfl⟩, hne, hexpected, hrest⟩

theorem returns_checkClaims {payload : Bytes} {expectedSub : Option String} :
    Returns (checkClaims env payload expectedSub) st () st' ↔
      ∃ c, readClaims payload = some c ∧ c.Accepted env st expectedSub ∧ c.commit env st = st' := by
  unfold checkClaims
  simp only [returns_bind, returns_orErr, ↓returns_check, returns_get, returns_checkNbfThen,
    returns_checkJtiThen, returns_checkPartiesThen]
  constructor
  · rintro ⟨hpayload, exp, _, ⟨hexp, rfl⟩, _, _, ⟨rfl, rfl⟩, hunexpired, iat, _, ⟨hiat, rfl⟩, hdated,
      hissued, lifetime, _, ⟨hlifetime, rfl⟩, hshort, hbegun, hunused, iss, sub, hiss, hsub,
      hissuer, hsubject, hexpected, hcommit⟩
    refine ⟨⟨exp, iat, parseJsonNbf payload, parseJsonJti payload, iss, sub⟩,
      readClaims_eq_some.mpr ⟨hexp, hiat, hiss, hsub, rfl, rfl⟩, ?_, ?_⟩
    · exact ⟨UInt64.not_le.mp hunexpired, hdated, UInt64.not_lt.mp hissued,
        ⟨lifetime, hlifetime, UInt64.not_lt.mp hshort⟩, hbegun, hunused, hissuer, hsubject,
        hexpected⟩
    · rw [← returns_commitJti]
      exact hcommit
  · rintro ⟨c, hclaims, hc, hcommit⟩
    obtain ⟨hexp, hiat, hiss, hsub, hnbf, hjti⟩ := readClaims_eq_some.mp hclaims
    obtain ⟨lifetime, hlifetime, hshort⟩ := hc.lifetime
    have hpayload : payload ≠ [] := by
      rintro rfl
      cases hexp
    refine ⟨hpayload, c.exp, st, ⟨hexp, rfl⟩, st, st, ⟨rfl, rfl⟩, UInt64.not_le.mpr hc.unexpired,
      c.iat, st, ⟨hiat, rfl⟩, hc.dated, UInt64.not_lt.mpr hc.issued, lifetime, st, ⟨hlifetime, rfl⟩,
      UInt64.not_lt.mpr hshort, ?_, ?_, c.iss, c.sub, hiss, hsub, hc.issuer, hc.subject,
      hc.expected, ?_⟩
    · rw [hnbf]
      exact hc.begun
    · rw [hjti]
      exact hc.unused
    · rw [hjti, returns_commitJti]
      exact hcommit

/-- A token is accepted exactly when it is signed and its claims, as they are read, pass; what is
written is the marker of its `jti`. -/
theorem returns_verifySep10Jwt {token anchorPublicKey : Bytes} {expectedSub : Option String} :
    Returns (verifySep10Jwt host env token anchorPublicKey expectedSub) st () st' ↔
      ∃ payload c, SignedPayload host st token anchorPublicKey payload ∧
        readClaims payload = some c ∧ c.Accepted env st expectedSub ∧ c.commit env st = st' := by
  rw [verifySep10Jwt_eq, returns_decodePayloadThen]
  simp only [returns_checkClaims]
  constructor
  · rintro ⟨payload, hsigned, c, hclaims⟩
    exact ⟨payload, c, hsigned, hclaims⟩
  · rintro ⟨payload, c, hsigned, hclaims⟩
    exact ⟨payload, hsigned, c, hclaims⟩

/-! ### Rejections -/

theorem readOnly_orErr {α : Type} (o : Option α) : ReadOnly (orErr o) := by
  cases o with
  | none => exact readOnly_throw ()
  | some a => exact readOnly_pure a

theorem readOnly_checkEd25519Verify (pk : BytesN 32) (message : Bytes) (sig : BytesN 64) :
    ReadOnly (checkEd25519Verify host pk message sig) := by
  unfold checkEd25519Verify
  split
  · exact readOnly_pure ()
  · exact readOnly_stop _

theorem restores_decodePayloadThen (token anchorPublicKey : Bytes) {rest : Bytes → VerifyM Unit}
    (hrest : ∀ payload, Restores (rest payload)) :
    Restores (decodePayloadThen host token anchorPublicKey rest) := by
  refine .check (readOnly_get.bind_restores fun _ => .check ?_)
  refine (readOnly_orErr _).bind_restores fun _ => .check ?_
  refine (readOnly_orErr _).bind_restores fun _ => .check ?_
  refine (readOnly_orErr _).bind_restores fun _ => ?_
  refine (readOnly_orErr _).bind_restores fun _ => ?_
  refine (readOnly_orErr _).bind_restores fun _ => ?_
  refine (readOnly_checkEd25519Verify _ _ _).bind_restores fun _ => ?_
  exact (readOnly_orErr _).bind_restores hrest

theorem restores_checkNbfThen (latest : UInt64) (nbf : Option UInt64) {rest : VerifyM Unit}
    (hrest : Restores rest) : Restores (checkNbfThen latest nbf rest) := by
  cases nbf with
  | none => exact hrest
  | some _ => exact .check hrest

theorem restores_checkJtiThen (jti : Option Bytes) {rest : VerifyM Unit} (hrest : Restores rest) :
    Restores (checkJtiThen jti rest) := by
  cases jti with
  | none => exact hrest
  | some _ => exact .check (readOnly_get.bind_restores fun _ => .check hrest)

theorem restores_checkExpectedThen (sub : Bytes) (expectedSub : Option String) {rest : VerifyM Unit}
    (hrest : Restores rest) : Restores (checkExpectedThen sub expectedSub rest) := by
  cases expectedSub with
  | none => exact hrest
  | some _ => exact .check hrest

theorem restores_checkPartiesThen (payload : Bytes) (expectedSub : Option String)
    {rest : VerifyM Unit} (hrest : Restores rest) :
    Restores (checkPartiesThen payload expectedSub rest) := by
  refine (readOnly_orErr _).bind_restores fun _ => .check ?_
  refine (readOnly_orErr _).bind_restores fun _ => .check ?_
  exact restores_checkExpectedThen _ _ hrest

/-- The marker is written last, after which nothing is rejected. -/
theorem restores_commitJti (exp : UInt64) (jti : Option Bytes) :
    Restores (commitJti env exp jti) := by
  cases jti with
  | none => exact (readOnly_pure ()).restores
  | some _ => exact restores_modify _

theorem restores_checkClaims (payload : Bytes) (expectedSub : Option String) :
    Restores (checkClaims env payload expectedSub) := by
  refine .check ((readOnly_orErr _).bind_restores fun _ => readOnly_get.bind_restores fun _ =>
    .check ?_)
  refine (readOnly_orErr _).bind_restores fun _ => .check (.check ?_)
  refine (readOnly_orErr _).bind_restores fun _ => .check (restores_checkNbfThen _ _ ?_)
  exact restores_checkJtiThen _ (restores_checkPartiesThen _ _ (restores_commitJti _ _))

theorem restores_verifySep10Jwt (token anchorPublicKey : Bytes) (expectedSub : Option String) :
    Restores (verifySep10Jwt host env token anchorPublicKey expectedSub) := by
  rw [verifySep10Jwt_eq]
  exact restores_decodePayloadThen _ _ fun payload => restores_checkClaims payload expectedSub

end Sep10Jwt
end AnchorKit
