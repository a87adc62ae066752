import AnchorKit.Sep10Acceptance

/-!
# Rejected tokens

What a rejected call leaves of the storage, for the base verification and for the one that
compares the issuer afterwards.
-/

namespace AnchorKit
namespace Sep10Jwt

open Fallible Procedure

def IssuerMatches (iss : Bytes) (expectedIssuer : String) : Prop :=
  ∃ issStr, fromUtf8 iss = some issStr ∧ trim issStr = trim expectedIssuer

/-- The token passes every check but the comparison of its issuer, and it carries a `jti`. -/
def FailsByIssuerAlone (host : Host) (env : Env) (st : Sep10Store) (token anchorPublicKey : Bytes)
    (expectedSub : Option String) (expectedIssuer : String) : Prop :=
  trim expectedIssuer ≠ [] ∧ ∃ payload c, SignedPayload host st token anchorPublicKey payload ∧
    readClaims payload = some c ∧ c.Accepted env st expectedSub ∧ c.jti ≠ none ∧
    ¬ IssuerMatches c.iss expectedIssuer

/-- A rejection by either entry point leaves the storage as it was. -/
structure RejectsCleanly (host : Host) (env : Env) (st : Sep10Store) (token anchorPublicKey : Bytes)
    (expectedSub : Option String) (expectedIssuer : String) : Prop where
  base : ∀ st', Rejects (verifySep10Jwt host env token anchorPublicKey expectedSub) st () st' →
    st' = st
  issuer : ∀ st', Rejects (verifySep10JwtWithIssuer host env token anchorPublicKey expectedSub
    expectedIssuer) st () st' → st' = st

def compareIssuer (token : Bytes) (expectedIssuer : String) : VerifyM Unit := do
  let (d0, d1) ← orErr (match dots token with
    | d0 :: d1 :: _ => some (d0, d1)
    | _ => none)
  let payloadDec ← orErr (base64urlDecode ((token.take d1).drop (d0 + 1)))
  let iss ← orErr (parseJsonIss payloadDec)
  if iss = [] then throw ()
  let issStr ← orErr (fromUtf8 iss)
  if trim issStr ≠ trim expectedIssuer then throw ()

theorem verifySep10JwtWithIssuer_eq (host : Host) (env : Env) (token anchorPublicKey : Bytes)
    (expectedSub : Option String) (expectedIssuer : String) :
    verifySep10JwtWithIssuer host env token anchorPublicKey expectedSub expectedIssuer = (do
      if anchorPublicKey.length ≠ 32 then throw ()
      if trim expectedIssuer = [] then throw ()
      verifySep10Jwt host env token anchorPublicKey expectedSub
      compareIssuer token expectedIssuer) := rfl

variable {host : Host} {env : Env} {st st' : Sep10Store} {token anchorPublicKey : Bytes}
  {expectedSub : Option String} {expectedIssuer : String}

theorem iss_of_readClaims {payload : Bytes} {c : Claims} (h : readClaims payload = some c) :
    parseJsonIss payload = some c.iss := (readClaims_eq_some.mp h).2.2.1

theorem rejects_compareIssuer {payload : Bytes} {c : Claims}
    (hsigned : SignedPayload host st token anchorPublicKey payload)
    (hclaims : readClaims payload = some c) (hissuer : issAccepted c.iss = true)
    (t t' : Sep10Store) :
    Rejects (compareIssuer token expectedIssuer) t () t' ↔
      ¬ IssuerMatches c.iss expectedIssuer ∧ t = t' := by
  obtain ⟨_, _, _, d0, d1, hdots, _, _, _, _, _, hpayload⟩ := hsigned
  have hne : c.iss ≠ [] := by
    intro hnil
    rw [hnil] at hissuer
    cases hissuer
  have heq : compareIssuer token expectedIssuer = (do
      let issStr ← orErr (fromUtf8 c.iss)
      if trim issStr ≠ trim expectedIssuer then throw ()) := by
    simp only [compareIssuer, hdots, orErr, pure_bind, hpayload, iss_of_readClaims hclaims,
      if_neg hne]
  rw [heq, rejects_bind]
  unfold IssuerMatches
  cases fromUtf8 c.iss with
  | none => simp [orErr]
  | some issStr =>
    by_cases hmatch : trim issStr = trim expectedIssuer
    · simp [orErr, hmatch]
    · simp [orErr, hmatch]

/-- The stricter entry point rejects at once, with the base verification, or after it. -/
theorem rejects_withIssuer : Rejects (verifySep10JwtWithIssuer host env token anchorPublicKey
      expectedSub expectedIssuer) st () st' ↔
    ((anchorPublicKey.length ≠ 32 ∨ trim expectedIssuer = []) ∧ st = st') ∨
      (anchorPublicKey.length = 32 ∧ trim expectedIssuer ≠ [] ∧
        (Rejects (verifySep10Jwt host env token anchorPublicKey expectedSub) st () st' ∨
          ∃ t, Returns (verifySep10Jwt host env token anchorPublicKey expectedSub) st () t ∧
            Rejects (compareIssuer token expectedIssuer) t () st')) := by
  rw [verifySep10JwtWithIssuer_eq]
  simp only [↓rejects_check, rejects_bind]
  by_cases hkey : anchorPublicKey.length = 32
  · by_cases hnone : trim expectedIssuer = []
    · simp [hkey, hnone]
    · simp [hkey, hnone, Unique.exists_iff]
  · simp [hkey]

theorem readOnly_compareIssuer : ReadOnly (compareIssuer token expectedIssuer) := by
  refine (readOnly_orErr _).bind fun _ => (readOnly_orErr _).bind fun _ => ?_
  refine (readOnly_orErr _).bind fun _ => .check ((readOnly_orErr _).bind fun _ => ?_)
  split
  · exact readOnly_throw ()
  · exact readOnly_pure ()

theorem returns_of_withIssuer (h : Returns (verifySep10JwtWithIssuer host env token anchorPublicKey
    expectedSub expectedIssuer) st () st') :
    Returns (verifySep10Jwt host env token anchorPublicKey expectedSub) st () st' := by
  rw [verifySep10JwtWithIssuer_eq] at h
  simp only [↓returns_check, returns_bind] at h
  obtain ⟨_, _, _, t, hbase, hafter⟩ := h
  obtain rfl := readOnly_compareIssuer t _ st' hafter
  exact hbase

theorem commit_ne {c : Claims} (hc : c.Accepted env st expectedSub) (hjti : c.jti ≠ none) :
    c.commit env st ≠ st := by
  obtain ⟨jti, hsome⟩ := Option.ne_none_iff_exists'.mp hjti
  obtain ⟨_, hfree⟩ := hc.unused jti hsome
  intro heq
  have hhas : (c.commit env st).jtis.has jti = true := by
    simp [Claims.commit, hsome, KeyedStore.has_set]
  rw [heq, hfree] at hhas
  cases hhas

/-- Rejections leave the storage as it was exactly when the token does not fail by its issuer
alone. -/
theorem rejectsCleanly_iff (host : Host) (env : Env) (st : Sep10Store)
    (token anchorPublicKey : Bytes) (expectedSub : Option String) (expectedIssuer : String) :
    RejectsCleanly host env st token anchorPublicKey expectedSub expectedIssuer ↔
      ¬ FailsByIssuerAlone host env st token anchorPublicKey expectedSub expectedIssuer := by
  constructor
  · rintro ⟨_, hclean⟩ ⟨hexpected, payload, c, hsigned, hclaims, hc, hjti, hmatch⟩
    have hbase := returns_verifySep10Jwt.mpr ⟨payload, c, hsigned, hclaims, hc, rfl⟩
    have hafter := (rejects_compareIssuer hsigned hclaims hc.issuer (c.commit env st) _).mpr
      ⟨hmatch, rfl⟩
    have hrejects := rejects_withIssuer.mpr
      (Or.inr ⟨hsigned.1, hexpected, Or.inr ⟨_, hbase, hafter⟩⟩)
    exact commit_ne hc hjti (hclean _ hrejects)
  · intro hnot
    refine ⟨restores_verifySep10Jwt _ _ _ _ (), fun st' h => ?_⟩
    rcases rejects_withIssuer.mp h with ⟨_, rfl⟩ | ⟨_, hexpected, hrejects | ⟨t, hbase, hafter⟩⟩
    · rfl
    · exact restores_verifySep10Jwt _ _ _ _ () _ hrejects
    · obtain ⟨payload, c, hsigned, hclaims, hc, rfl⟩ := returns_verifySep10Jwt.mp hbase
      obtain ⟨hmatch, rfl⟩ := (rejects_compareIssuer hsigned hclaims hc.issuer _ _).mp hafter
      have hjti : c.jti = none := by
        by_contra hjti
        exact hnot ⟨hexpected, payload, c, hsigned, hclaims, hc, hjti, hmatch⟩
      rw [Claims.commit, hjti]

end Sep10Jwt

namespace Demo

/-- A stand-in for Ed25519 under which every signature verifies. -/
def trustingHost : Host := ⟨fun _ _ _ => true, fun _ => true, .insertion⟩

def sep10Store : Sep10Store := ⟨.empty, .empty, none, none, .empty⟩

/-- The claims are `exp` 1060, `iat` 1000, `jti` n1, `iss` a and `sub` b. -/
def sep10Token : Bytes :=
  ("eyJhbGciOiJFZERTQSJ9." ++
    "eyJleHAiOjEwNjAsImlhdCI6MTAwMCwianRpIjoibjEiLCJpc3MiOiJhIiwic3ViIjoiYiJ9." ++
    "AAAAAAAAAAAAAAAAAAAAAAAAAAAAAAAAAAAAAAAAAAAAAAAAAAAAAAAAAAAAAAAAAAAAAAAAAAAAAAAAAAAAAA"
    ).toUTF8.toList

def wrongIssuer : Sep10Jwt.VerifyM Unit :=
  Sep10Jwt.verifySep10JwtWithIssuer trustingHost ⟨1000, 0, []⟩ sep10Token (List.replicate 32 0) none
    "z"

def wrongIssuerMarked : Bool :=
  match wrongIssuer.run.run sep10Store with
  | .ok (.error (), st) => st.jtis.has [0x6E, 0x31]
  | _ => false

end Demo

/-- A token of another issuer is rejected and its `jti` is used up. -/
theorem issuer_mismatch_consumes_jti : ¬ Sep10Jwt.RejectsCleanly Demo.trustingHost ⟨1000, 0, []⟩
    Demo.sep10Store Demo.sep10Token (List.replicate 32 0) none "z" := by
  intro h
  have hmarked : Demo.wrongIssuerMarked = true := by decide +kernel
  unfold Demo.wrongIssuerMarked at hmarked
  split at hmarked
  · rename_i st hrun
    rw [h.issuer st hrun] at hmarked
    cases hmarked
  · cases hmarked

end AnchorKit
