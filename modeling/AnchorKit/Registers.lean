import AnchorKit.Access
import AnchorKit.DeterministicHash
import AnchorKit.DomainValidator
import AnchorKit.Library.Roster
import AnchorKit.ReplayDetection
import AnchorKit.ServiceConfiguration

/-!
# Clusters, endpoints and request contexts

What the contract keeps beside the storage of its main entry points: groups of anchors, the
addresses of attestors with the proofs of their possession, and the contexts of requests.
-/

namespace AnchorKit

open Fallible
open Roster (pushIfAbsent)

/-!
## Clusters of anchors

Named groups of anchors, with the list of their ids in the order in which they were created.
-/

structure AnchorCluster where
  clusterId : String
  name : String
  anchors : List Address
  createdAt : UInt64
deriving DecidableEq, Repr

structure ClusterStore where
  cluster : KeyedStore String AnchorCluster
  list : List String

def createAnchorCluster (env : Env) (s : Storage) (st : ClusterStore) (clusterId name : String)
    (anchors : List Address) : Except Panic ClusterStore := do
  requireAdmin env s
  let cluster : AnchorCluster := { clusterId, name, anchors, createdAt := env.timestamp }
  require (st.cluster.has clusterId = false) (.withError .alreadyInitialized)
  return { cluster := st.cluster.set clusterId cluster, list := pushIfAbsent st.list clusterId }

def getAnchorCluster (st : ClusterStore) (clusterId : String) : Except Panic AnchorCluster :=
  expect (st.cluster.get clusterId) (.withError .validationError)

def listAnchorClusters (st : ClusterStore) : List String := st.list

def deleteAnchorCluster (env : Env) (s : Storage) (st : ClusterStore) (clusterId : String) :
    Except Panic ClusterStore := do
  requireAdmin env s
  require (st.cluster.has clusterId = true) (.withError .validationError)
  return { cluster := st.cluster.remove clusterId, list := st.list.filter (· ≠ clusterId) }

def updateAnchorClusterAnchors (env : Env) (s : Storage) (st : ClusterStore) (clusterId : String)
    (anchors : List Address) : Except Panic ClusterStore := do
  requireAdmin env s
  let cluster ← expect (st.cluster.get clusterId) (.withError .validationError)
  return { st with cluster := st.cluster.set clusterId { cluster with anchors } }

/-!
## Endpoints of attestors and proofs of their possession

An attestor sets its own addresses, which pass the validation of domains. A proof is registered for
the endpoint of the profile, if there is one, and counts as verified once somebody came up with its
hash.
-/

structure AnchorProofRecord where
  anchor : Address
  endpoint : String
  proofHash : BytesN 32
  registeredAt : UInt64
  verified : Bool
deriving DecidableEq

/-- The addresses of attestors are checked like those of anchors. -/
def checkAddress (url : String) : Except Panic Unit :=
  match validateAnchorDomain url.toList with
  | .ok _ => .ok ()
  | .error _ => .error (.withError .invalidEndpointFormat)

def getAttestorProfile (s : Storage) (attestor : Address) : Except Panic AttestorProfile := do
  checkAttestor s attestor
  return loadOrInitProfile s attestor

def setEndpoint (env : Env) (s : Storage) (attestor : Address) (endpoint : String) :
    Except Panic Storage := do
  attestor.requireAuth env
  checkAttestor s attestor
  checkAddress endpoint
  let profile := loadOrInitProfile s attestor
  let s := saveProfile s { profile with endpoint, updatedAt := env.timestamp }
  AdminAuditLog.logAction env s attestor "set_endpoint" attestor.toText "" "updated"

def registerWebhook (env : Env) (s : Storage) (attestor : Address) (webhookUrl : String) :
    Except Panic Storage := do
  attestor.requireAuth env
  checkAttestor s attestor
  checkAddress webhookUrl
  let profile := loadOrInitProfile s attestor
  return saveProfile s { profile with webhookUrl, updatedAt := env.timestamp }

abbrev ProofStore := KeyedStore Address AnchorProofRecord

def registerEndpointProof (env : Env) (s : Storage) (proofs : ProofStore) (anchor : Address)
    (endpoint : String) (proofHash : BytesN 32) : Except Panic ProofStore := do
  anchor.requireAuth env
  checkAttestor s anchor
  checkAddress endpoint
  let profile := loadOrInitProfile s anchor
  require (profile.endpoint.utf8ByteSize = 0 ∨ profile.endpoint = endpoint)
    (.withError .validationError)
  return proofs.set anchor
    { anchor, endpoint, proofHash, registeredAt := env.timestamp, verified := false }

/-- The flag says whether the hash is that of the proof. -/
def verifyEndpointProof (proofs : ProofStore) (anchor : Address) (proofHash : BytesN 32) :
    ProofStore × Bool :=
  match proofs.get anchor with
  | none => (proofs, false)
  | some record =>
    if record.proofHash ≠ proofHash then (proofs, false)
    else (proofs.set anchor { record with verified := true }, true)

def getEndpointProof (proofs : ProofStore) (anchor : Address) : Option AnchorProofRecord :=
  proofs.get anchor

/-! ### What the calls leave behind -/

section Effects

variable {env : Env} {s s' : Storage} {attestor anchor : Address} {url endpoint : String}

@[simp] theorem checkAddress_eq_ok {u : Unit} :
    checkAddress url = .ok u ↔ validateAnchorDomain url.toList = .ok () := by
  unfold checkAddress
  split
  · rename_i h
    exact iff_of_true rfl h
  · rename_i e h
    simp [h]

theorem setEndpoint_effects (h : setEndpoint env s attestor endpoint = .ok s') :
    attestor ∈ env.authorized ∧ s.registry.attestor.has attestor = true ∧
      validateAnchorDomain endpoint.toList = .ok () ∧ ∃ ring events,
        s' = { saveProfile s
          { loadOrInitProfile s attestor with endpoint, updatedAt := env.timestamp } with
          adminAudit := ring, events := events } := by
  simp only [setEndpoint, bind_eq_ok, requireAuth_eq_ok, checkAttestor_eq_ok,
    checkAddress_eq_ok] at h
  obtain ⟨_, hauth, _, hreg, _, hvalid, h⟩ := h
  obtain ⟨ring, events, rfl⟩ := AdminAuditLog.logAction_frame h
  exact ⟨hauth, hreg, hvalid, ring, events, rfl⟩

theorem registerWebhook_effects (h : registerWebhook env s attestor url = .ok s') :
    attestor ∈ env.authorized ∧ s.registry.attestor.has attestor = true ∧
      validateAnchorDomain url.toList = .ok () ∧
      s' = saveProfile s
        { loadOrInitProfile s attestor with webhookUrl := url, updatedAt := env.timestamp } := by
  simp only [registerWebhook, bind_eq_ok, requireAuth_eq_ok, checkAttestor_eq_ok,
    checkAddress_eq_ok, pure_eq_ok] at h
  obtain ⟨_, hauth, _, hreg, _, hvalid, rfl⟩ := h
  exact ⟨hauth, hreg, hvalid, rfl⟩

theorem registerEndpointProof_effects {proofs proofs' : ProofStore} {proofHash : BytesN 32}
    (h : registerEndpointProof env s proofs anchor endpoint proofHash = .ok proofs') :
    anchor ∈ env.authorized ∧ s.registry.attestor.has anchor = true ∧
      validateAnchorDomain endpoint.toList = .ok () ∧
      ((loadOrInitProfile s anchor).endpoint.utf8ByteSize = 0 ∨
        (loadOrInitProfile s anchor).endpoint = endpoint) ∧
      proofs' = proofs.set anchor
        { anchor, endpoint, proofHash, registeredAt := env.timestamp, verified := false } := by
  simp only [registerEndpointProof, bind_eq_ok, requireAuth_eq_ok, checkAttestor_eq_ok,
    checkAddress_eq_ok, require_eq_ok, pure_eq_ok] at h
  obtain ⟨_, hauth, _, hreg, _, hvalid, _, hprofile, rfl⟩ := h
  exact ⟨hauth, hreg, hvalid, hprofile, rfl⟩

end Effects

/-!
## Request contexts and request ids

A context collects the operations made under a root request. The ids of requests are truncated
hashes of the ledger's time and a counter; those of children hash the root's id, a nonce and the
time.
-/

def requireNonEmptyString (s : String) : Except Panic Unit :=
  require (s.utf8ByteSize ≠ 0) (.withError .validationError)

def requireValidTimestamp (ts : UInt64) : Except Panic Unit :=
  require (ts ≠ 0) (.withError .invalidTimestamp)

/-- A context that is there already is replaced, with all its operations. -/
def createRequestContext (env : Env) (s : Storage) (rootRequestId : RequestId) :
    Except Panic (Storage × RequestContext) := do
  require (rootRequestId.id ≠ []) (.withError .validationError)
  requireValidTimestamp rootRequestId.createdAt
  let ctx : RequestContext :=
    { rootRequestId, operationChain := [], createdAt := env.timestamp }
  return ({ s with tracing := { s.tracing with
    context := s.tracing.context.set rootRequestId.id ctx } }, ctx)

def appendOperation (env : Env) (s : Storage) (rootRequestIdBytes : Bytes)
    (operationName : String) : Except Panic Storage := do
  requireNonEmptyString operationName
  let ctx := (s.tracing.context.get rootRequestIdBytes).getD
    { rootRequestId := ⟨rootRequestIdBytes, env.timestamp⟩, operationChain := [],
      createdAt := env.timestamp }
  let ctx := { ctx with operationChain := ctx.operationChain ++ [operationName] }
  return { s with tracing := { s.tracing with
    context := s.tracing.context.set rootRequestIdBytes ctx } }

def getRequestContext (s : Storage) (rootRequestIdBytes : Bytes) : Option RequestContext :=
  s.tracing.context.get rootRequestIdBytes

def requestIdInput (env : Env) (counter : UInt64) : Bytes :=
  beBytes64 env.timestamp ++ beBytes32 env.sequence ++ beBytes64 counter

def truncatedHash (sha256 : Bytes → BytesN 32) (input : Bytes) : Bytes := (sha256 input).val.take 16

/-- The first component is the counter of the next id. -/
def generateRequestId (sha256 : Bytes → BytesN 32) (env : Env) (counter : UInt64) :
    Except Panic (UInt64 × RequestId) := do
  let next ← add64 counter 1
  return (next, ⟨truncatedHash sha256 (requestIdInput env counter), env.timestamp⟩)

def childIdInput (env : Env) (rootBytes : Bytes) (nonce : UInt64) : Bytes :=
  rootBytes ++ beBytes64 nonce ++ beBytes64 env.timestamp

def generateChildRequestId (sha256 : Bytes → BytesN 32) (env : Env) (rootBytes : Bytes)
    (nonce : UInt64) : RequestId :=
  ⟨truncatedHash sha256 (childIdInput env rootBytes nonce), env.timestamp⟩

end AnchorKit
