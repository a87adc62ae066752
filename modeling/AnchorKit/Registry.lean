import AnchorKit.Library.Roster
import AnchorKit.Sep10Jwt

/-!
# The attestor registry

Registration, revocation and reactivation of attestors on the plain path. A registered attestor
has a flag, a public key and a place in the list; the counter is checked against the configured
cap when an attestor registers.
-/

namespace AnchorKit

open Fallible
open Roster (pushIfAbsent)

def getCapacityConfigInternal (s : Storage) : CapacityConfig :=
  s.registry.capacity.getD CapacityConfig.defaultConfig

def setCapacityConfig (env : Env) (s : Storage) (config : CapacityConfig) :
    Except Panic Storage := do
  requireAdmin env s
  return { s with registry := { s.registry with capacity := some config } }

/-- `require_admin` unless the attestor itself may manage attestors, in which case it signs. -/
def requireRegistrar (env : Env) (s : Storage) (attestor : Address) : Except Panic Unit :=
  if hasRoleInternal s attestor .attestorAdmin || hasCapabilityInternal s attestor .manageAttestors
  then attestor.requireAuth env
  else requireAdmin env s

def registerAttestor (host : Host) (env : Env) (s : Storage) (attestor : Address)
    (sep10Token : Bytes) (sep10Issuer : Address) (publicKey : BytesN 32) :
    Except Panic Storage := do
  require (sep10Token ≠ []) (.withError .validationError)
  requireRegistrar env s attestor
  let s ← verifySep10TokenMatchesAttestor host env s sep10Token sep10Issuer attestor
  let config := getCapacityConfigInternal s
  let currentCount := s.registry.count
  require (currentCount < config.maxAttestors) (.withError .attestorCapacityExceeded)
  require (s.registry.attestor.has attestor = false) (.withError .attestorAlreadyRegistered)
  let count ← add64 currentCount 1
  let s := { s with registry := { s.registry with
    attestor := s.registry.attestor.set attestor true
    publicKey := s.registry.publicKey.set attestor publicKey
    count := count
    list := pushIfAbsent s.registry.list attestor } }
  let admin ← getAdminInternal s
  let s ← AdminAuditLog.logAction env s admin "register_attestor" attestor.toText "" "registered"
  return s.publish (.attestorAdded attestor env.timestamp)

/-- The counter and the list after a plain revocation. A counter that is already zero leaves the
list alone. -/
def dropFromList (st : RegistryStore) (attestor : Address) : RegistryStore :=
  if 0 < st.count then { st with count := st.count - 1, list := st.list.erase attestor } else st

/-- Whether the last revocation on record was never undone by a reactivation. -/
def alreadyRevoked (st : RegistryStore) (attestor : Address) : Bool :=
  match st.revocation.get attestor with
  | some r => !r.reactivated
  | none => false

def revokeAttestor (env : Env) (s : Storage) (attestor : Address) : Except Panic Storage := do
  requireAdmin env s
  let admin ← getAdminInternal s
  let s ← AdminAuditLog.logAction env s admin "revoke_attestor" attestor.toText
    "registered" "revoked"
  require (s.registry.attestor.has attestor = true) (.withError .attestorNotRegistered)
  let publicKey ← expect (s.registry.publicKey.get attestor) (.withError .attestorNotRegistered)
  let revokedBefore := alreadyRevoked s.registry attestor
  let record : AttestorRevocationRecord :=
    { attestor, revokedAt := env.timestamp, revokedBy := admin, reason := "", publicKey,
      reactivated := false, reactivatedAt := 0 }
  let st := { s.registry with
    attestor := s.registry.attestor.remove attestor
    publicKey := s.registry.publicKey.remove attestor
    revocation := s.registry.revocation.set attestor record }
  let s := { s with registry := dropFromList st attestor }
  let s ← AdminAuditLog.logAction env s admin "revoke_attestor" attestor.toText
    "registered" "revoked"
  if revokedBefore then
    return s
  return s.publish (.attestorRemoved attestor admin env.timestamp)

def reactivateAttestor (env : Env) (s : Storage) (attestor : Address) : Except Panic Storage := do
  requireAdmin env s
  require (s.registry.attestor.has attestor = false) (.withError .attestorAlreadyRegistered)
  let record ← expect (s.registry.revocation.get attestor) (.withError .attestorNotRegistered)
  -- the cap of the registration path is not consulted here
  let count ← add64 s.registry.count 1
  let s := { s with registry := { s.registry with
    attestor := s.registry.attestor.set attestor true
    publicKey := s.registry.publicKey.set attestor record.publicKey
    revocation := s.registry.revocation.set attestor
      { record with reactivated := true, reactivatedAt := env.timestamp }
    count := count
    list := pushIfAbsent s.registry.list attestor } }
  let admin ← getAdminInternal s
  let s ← AdminAuditLog.logAction env s admin "reactivate_attestor" attestor.toText
    "revoked" "registered"
  return s.publish (.attestorRestored attestor admin env.timestamp)

def checkAttestor (s : Storage) (attestor : Address) : Except Panic Unit :=
  if s.registry.attestor.has attestor then .ok ()
  else if s.registry.revocation.has attestor then .error (.withError .attestorRevoked)
  else .error (.withError .attestorNotRegistered)

def verifyAttestationSignature (host : Host) (s : Storage) (issuer : Address)
    (payloadHash signature : Bytes) : Except Panic Unit := do
  let pk ← expect (s.registry.publicKey.get issuer) (.withError .unauthorizedAttestor)
  let sig ← expect (BytesN.ofBytes? 64 signature) (.withError .signatureVerificationFailed)
  require (host.ed25519Verify pk payloadHash sig = true) .invalidSignature

@[simp] theorem checkAttestor_eq_ok {s : Storage} {a : Address} {u : Unit} :
    checkAttestor s a = .ok u ↔ s.registry.attestor.has a = true := by
  unfold checkAttestor
  by_cases h : s.registry.attestor.has a
  · simp [h]
  · by_cases hr : s.registry.revocation.has a <;> simp [h, hr]

/-- What a verified signature stands for: a stored key of the issuer and 64 bytes that verify
under it. -/
def SignedBy (host : Host) (keys : KeyedStore Address (BytesN 32)) (issuer : Address)
    (payloadHash signature : Bytes) : Prop :=
  ∃ pk sig, keys.get issuer = some pk ∧ signature = Subtype.val sig ∧
    host.ed25519Verify pk payloadHash sig = true

theorem ofBytes?_eq_some {n : Nat} {b : Bytes} {x : BytesN n} :
    BytesN.ofBytes? n b = some x ↔ b = x.val := by
  unfold BytesN.ofBytes?
  by_cases h : b.length = n
  · simp only [h, dif_pos, Option.some.injEq]
    exact ⟨fun hx => by rw [← hx], fun hx => Subtype.ext hx⟩
  · simp only [h, dif_neg, not_false_eq_true, reduceCtorEq, false_iff]
    intro hx
    exact h (hx ▸ x.property)

theorem verifyAttestationSignature_eq_ok {host : Host} {s : Storage} {issuer : Address}
    {payloadHash signature : Bytes} {u : Unit} :
    verifyAttestationSignature host s issuer payloadHash signature = .ok u ↔
      SignedBy host s.registry.publicKey issuer payloadHash signature := by
  simp only [verifyAttestationSignature, expect_bind_eq_ok, require_eq_ok, ofBytes?_eq_some,
    SignedBy]
  constructor
  · rintro ⟨pk, hpk, sig, hsig, hv⟩
    exact ⟨pk, sig, hpk, hsig, hv⟩
  · rintro ⟨pk, sig, hpk, hsig, hv⟩
    exact ⟨pk, hpk, sig, hsig, hv⟩

section Effects

variable {host : Host} {env : Env} {s s' : Storage} {attestor : Address}

theorem setCapacityConfig_effects {config : CapacityConfig}
    (h : setCapacityConfig env s config = .ok s') :
    s' = { s with registry := { s.registry with capacity := some config } } := by
  simp only [setCapacityConfig, bind_eq_ok, pure_eq_ok] at h
  obtain ⟨_, _, rfl⟩ := h
  rfl

/-- Registration on the plain path: a free address, a count below the cap, and all of flag, key,
counter and list written. -/
theorem registerAttestor_effects {token : Bytes} {issuer : Address} {pk : BytesN 32}
    (h : registerAttestor host env s attestor token issuer pk = .ok s') :
    s.registry.attestor.has attestor = false ∧
      s.registry.count < (getCapacityConfigInternal s).maxAttestors ∧
      ∃ count sep10 ring events, s.registry.count.toNat + 1 = count.toNat ∧
        s' = { s with
          registry := { s.registry with
            attestor := s.registry.attestor.set attestor true
            publicKey := s.registry.publicKey.set attestor pk
            count := count
            list := pushIfAbsent s.registry.list attestor }
          sep10 := sep10, adminAudit := ring, events := events } := by
  simp only [registerAttestor, bind_eq_ok, require_eq_ok, add64_eq_ok, pure_eq_ok] at h
  obtain ⟨_, _, _, _, t, ht, _, hcap, _, hfree, count, hcount, _, _, _, hlog, rfl⟩ := h
  obtain ⟨sep10, rfl⟩ := verifySep10TokenForSubject_frame ht
  obtain ⟨ring, events, rfl⟩ := AdminAuditLog.logAction_frame hlog
  exact ⟨hfree, hcap, count, sep10, ring, _, hcount, rfl⟩

theorem revokeAttestor_effects (h : revokeAttestor env s attestor = .ok s') :
    s.registry.attestor.has attestor = true ∧
      ∃ pk admin ring events, s.registry.publicKey.get attestor = some pk ∧
        s' = { s with
          registry := dropFromList { s.registry with
            attestor := s.registry.attestor.remove attestor
            publicKey := s.registry.publicKey.remove attestor
            revocation := s.registry.revocation.set attestor
              { attestor, revokedAt := env.timestamp, revokedBy := admin, reason := "",
                publicKey := pk, reactivated := false, reactivatedAt := 0 } } attestor
          adminAudit := ring, events := events } := by
  simp only [revokeAttestor, bind_eq_ok, require_eq_ok, expect_eq_ok] at h
  obtain ⟨_, _, admin, _, t, ht, _, hflag, pk, hpk, u, hu, h⟩ := h
  obtain ⟨_, _, rfl⟩ := AdminAuditLog.logAction_frame ht
  obtain ⟨ring, _, rfl⟩ := AdminAuditLog.logAction_frame hu
  refine ⟨hflag, pk, admin, ring, ?_⟩
  split at h
  · obtain rfl := pure_eq_ok.mp h
    exact ⟨_, hpk, rfl⟩
  · obtain rfl := pure_eq_ok.mp h
    exact ⟨_, hpk, rfl⟩

theorem reactivateAttestor_effects (h : reactivateAttestor env s attestor = .ok s') :
    s.registry.attestor.has attestor = false ∧
      ∃ record count ring events, s.registry.revocation.get attestor = some record ∧
        s.registry.count.toNat + 1 = count.toNat ∧
        s' = { s with
          registry := { s.registry with
            attestor := s.registry.attestor.set attestor true
            publicKey := s.registry.publicKey.set attestor record.publicKey
            revocation := s.registry.revocation.set attestor
              { record with reactivated := true, reactivatedAt := env.timestamp }
            count := count
            list := pushIfAbsent s.registry.list attestor }
          adminAudit := ring, events := events } := by
  simp only [reactivateAttestor, bind_eq_ok, require_eq_ok, expect_eq_ok, add64_eq_ok,
    pure_eq_ok] at h
  obtain ⟨_, _, _, hfree, record, hrecord, count, hcount, _, _, _, hlog, rfl⟩ := h
  obtain ⟨ring, _, rfl⟩ := AdminAuditLog.logAction_frame hlog
  exact ⟨hfree, record, count, ring, _, hrecord, hcount, rfl⟩

end Effects

end AnchorKit
