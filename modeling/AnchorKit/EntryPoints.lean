import AnchorKit.AnchorInfo
import AnchorKit.AnchorReputation
import AnchorKit.CompliancePolicy
import AnchorKit.Contract
import AnchorKit.Registers

/-!
# The contract with its registers

Reputation, clusters, endpoint proofs, discovery and request ids keep records of their own next to
the storage of the core. Their calls run interleaved with those of the core, and what they write of
the core is bounded, so that invariants of the core carry over to all runs.
-/

namespace AnchorKit

open Fallible

structure ContractState where
  core : Storage
  reputation : ReputationStore
  clusters : ClusterStore
  proofs : ProofStore
  tomls : AnchorInfo.TomlStore
  requestIds : UInt64
  compliancePolicy : Option CompliancePolicy

def ContractState.empty : ContractState where
  core := .empty
  reputation := ⟨.empty, none⟩
  clusters := ⟨.empty, []⟩
  proofs := .empty
  tomls := .empty
  requestIds := 0
  compliancePolicy := none

def setCompliancePolicy (env : Env) (s : Storage) (policy : CompliancePolicy) :
    Except Panic CompliancePolicy := do
  requireAdmin env s
  return policy

inductive EntryPoint
  | core (c : Call)
  | setAnchorReputation (anchor : Address) (totalRouted successfulRouted : UInt64)
      (operatorQualityScore : UInt32) (uptimeTicks totalTicks : UInt64)
  | setReputationWeights (successRateWeight uptimeWeight operatorQualityWeight : UInt32)
  | createAnchorCluster (clusterId name : String) (anchors : List Address)
  | deleteAnchorCluster (clusterId : String)
  | updateAnchorClusterAnchors (clusterId : String) (anchors : List Address)
  | setEndpoint (attestor : Address) (endpoint : String)
  | registerWebhook (attestor : Address) (webhookUrl : String)
  | registerEndpointProof (anchor : Address) (endpoint : String) (proofHash : BytesN 32)
  | verifyEndpointProof (anchor : Address) (proofHash : BytesN 32)
  | fetchAnchorInfo (anchor : Address) (tomlData : AnchorInfo.StellarToml) (ttlSeconds : UInt64)
      (sourceUri : String)
  | refreshAnchorInfo (anchor : Address) (tomlData : AnchorInfo.StellarToml) (ttlSeconds : UInt64)
      (sourceUri : String)
  | createRequestContext (rootRequestId : RequestId)
  | appendOperation (rootRequestIdBytes : Bytes) (operationName : String)
  | generateRequestId
  | setCompliancePolicy (policy : CompliancePolicy)
deriving DecidableEq

namespace ContractState

def enter (host : Host) (sha256 : Bytes → BytesN 32) (env : Env) (s : ContractState) :
    EntryPoint → Except Panic ContractState
  | .core c => do return { s with core := ← invoke host env s.core c }
  | .setAnchorReputation anchor total successful quality uptime ticks => do
    return { s with reputation :=
      ← setAnchorReputation env s.core s.reputation anchor total successful quality uptime ticks }
  | .setReputationWeights success uptime quality => do
    return { s with reputation :=
      ← setReputationWeights env s.core s.reputation success uptime quality }
  | .createAnchorCluster clusterId name anchors => do
    return { s with clusters := ← createAnchorCluster env s.core s.clusters clusterId name anchors }
  | .deleteAnchorCluster clusterId => do
    return { s with clusters := ← deleteAnchorCluster env s.core s.clusters clusterId }
  | .updateAnchorClusterAnchors clusterId anchors => do
    return { s with clusters :=
      ← updateAnchorClusterAnchors env s.core s.clusters clusterId anchors }
  | .setEndpoint attestor endpoint => do
    return { s with core := ← setEndpoint env s.core attestor endpoint }
  | .registerWebhook attestor webhookUrl => do
    return { s with core := ← registerWebhook env s.core attestor webhookUrl }
  | .registerEndpointProof anchor endpoint proofHash => do
    return { s with proofs :=
      ← registerEndpointProof env s.core s.proofs anchor endpoint proofHash }
  | .verifyEndpointProof anchor proofHash =>
    .ok { s with proofs := (verifyEndpointProof s.proofs anchor proofHash).1 }
  | .fetchAnchorInfo anchor tomlData ttlSeconds sourceUri => do
    return { s with tomls :=
      ← AnchorInfo.fetchAnchorInfo env s.core s.tomls anchor tomlData ttlSeconds sourceUri }
  | .refreshAnchorInfo anchor tomlData ttlSeconds sourceUri => do
    let (core, tomls) ←
      AnchorInfo.refreshAnchorInfo env s.core s.tomls anchor tomlData ttlSeconds sourceUri
    return { s with core, tomls }
  | .createRequestContext rootRequestId => do
    let (core, _) ← createRequestContext env s.core rootRequestId
    return { s with core }
  | .appendOperation rootRequestIdBytes operationName => do
    return { s with core := ← appendOperation env s.core rootRequestIdBytes operationName }
  | .generateRequestId => do
    let (requestIds, _) ← generateRequestId sha256 env s.requestIds
    return { s with requestIds }
  | .setCompliancePolicy policy => do
    return { s with compliancePolicy := some (← setCompliancePolicy env s.core policy) }

/-! ### What an entry point writes -/

inductive Part
  | core
  | reputation
  | clusters
  | proofs
  | tomls
  | requestIds
  | compliancePolicy
deriving DecidableEq

def Part.Carrier : Part → Type
  | .core => Storage
  | .reputation => ReputationStore
  | .clusters => ClusterStore
  | .proofs => ProofStore
  | .tomls => AnchorInfo.TomlStore
  | .requestIds => UInt64
  | .compliancePolicy => Option CompliancePolicy

def part : (p : Part) → ContractState → p.Carrier
  | .core, s => s.core
  | .reputation, s => s.reputation
  | .clusters, s => s.clusters
  | .proofs, s => s.proofs
  | .tomls, s => s.tomls
  | .requestIds, s => s.requestIds
  | .compliancePolicy, s => s.compliancePolicy

def writes : EntryPoint → List Part
  | .core _ | .setEndpoint _ _ | .registerWebhook _ _ | .createRequestContext _
  | .appendOperation _ _ => [.core]
  | .setAnchorReputation _ _ _ _ _ _ | .setReputationWeights _ _ _ => [.reputation]
  | .createAnchorCluster _ _ _ | .deleteAnchorCluster _ | .updateAnchorClusterAnchors _ _ =>
    [.clusters]
  | .registerEndpointProof _ _ _ | .verifyEndpointProof _ _ => [.proofs]
  | .fetchAnchorInfo _ _ _ _ => [.tomls]
  | .refreshAnchorInfo _ _ _ _ => [.core, .tomls]
  | .generateRequestId => [.requestIds]
  | .setCompliancePolicy _ => [.compliancePolicy]

def registersWrite : List Component := [.anchorServices, .adminAudit, .tracing, .cache, .events]

variable {host : Host} {sha256 : Bytes → BytesN 32} {env : Env} {s s' : ContractState}
  {e : EntryPoint}

theorem enter_sameOutside (h : enter host sha256 env s e = .ok s') :
    Footprint.SameOutside part (writes e) s s' := by
  intro p hp
  cases e with
  | verifyEndpointProof anchor proofHash =>
    obtain rfl := Except.ok.inj h
    cases p with
    | proofs => exact absurd List.mem_cons_self hp
    | _ => rfl
  | _ =>
    simp only [enter, bind_eq_ok, pure_eq_ok] at h
    obtain ⟨_, _, rfl⟩ := h
    cases p with
    | _ => first | rfl | exact absurd hp (by simp [writes])

theorem enter_core (h : enter host sha256 env s e = .ok s') :
    (∃ c, e = .core c ∧ invoke host env s.core c = .ok s'.core) ∨
      Storage.SameOutside registersWrite s.core s'.core := by
  by_cases hwrites : Part.core ∈ writes e
  · cases e with
    | core c =>
      simp only [enter, bind_eq_ok, pure_eq_ok] at h
      obtain ⟨_, hinvoke, rfl⟩ := h
      exact Or.inl ⟨c, rfl, hinvoke⟩
    | setEndpoint attestor endpoint =>
      simp only [enter, bind_eq_ok, pure_eq_ok] at h
      obtain ⟨_, hset, rfl⟩ := h
      obtain ⟨_, _, _, _, _, rfl⟩ := setEndpoint_effects hset
      exact Or.inr (Storage.sameOutside_iff.mpr (by simp [registersWrite, saveProfile]))
    | registerWebhook attestor webhookUrl =>
      simp only [enter, bind_eq_ok, pure_eq_ok] at h
      obtain ⟨_, hset, rfl⟩ := h
      obtain ⟨_, _, _, rfl⟩ := registerWebhook_effects hset
      exact Or.inr (Storage.sameOutside_iff.mpr (by simp [registersWrite, saveProfile]))
    | refreshAnchorInfo anchor tomlData ttlSeconds sourceUri =>
      simp only [enter, AnchorInfo.refreshAnchorInfo, bind_eq_ok, pure_eq_ok] at h
      obtain ⟨_, ⟨_, _, _, _, rfl⟩, rfl⟩ := h
      exact Or.inr (Storage.sameOutside_iff.mpr
        (by simp [registersWrite, recordRefreshDiagnostic]))
    | createRequestContext rootRequestId =>
      simp only [enter, createRequestContext, bind_eq_ok, pure_eq_ok] at h
      obtain ⟨_, ⟨_, _, _, _, rfl⟩, rfl⟩ := h
      exact Or.inr (Storage.sameOutside_iff.mpr (by simp [registersWrite]))
    | appendOperation rootRequestIdBytes operationName =>
      simp only [enter, appendOperation, bind_eq_ok, pure_eq_ok] at h
      obtain ⟨_, ⟨_, _, rfl⟩, rfl⟩ := h
      exact Or.inr (Storage.sameOutside_iff.mpr (by simp [registersWrite]))
    | _ => exact absurd hwrites (by simp [writes])
  · have hcore : s'.core = s.core := (enter_sameOutside h).view_eq hwrites
    rw [hcore]
    exact Or.inr fun _ _ => rfl

theorem enter_registers (h : enter host sha256 env s e = .ok s') (hcore : ∀ c, e ≠ .core c) :
    Storage.SameOutside registersWrite s.core s'.core := by
  rcases enter_core h with ⟨c, heq, _⟩ | hsame
  · exact absurd heq (hcore c)
  · exact hsame

/-! ### Runs -/

section Runs

variable (host) (sha256)

abbrev Input := Env × EntryPoint

abbrev Transition := Machine.Transition ContractState Input

def step (s : ContractState) (i : Input) : Except Panic ContractState :=
  enter host sha256 i.1 s i.2

def run (is : List Input) : ContractState := Machine.run (step host sha256) .empty is

def history (is : List Input) : List Transition :=
  Machine.transitions (step host sha256) .empty is

/-- What the calls of the core preserve holds in every run of the whole contract, as long as it
does not depend on what the registers write. -/
theorem core_invariant {P : Storage → Prop} (hempty : P .empty)
    (hcore : ∀ s i s', AnchorKit.step host s i = .ok s' → P s → P s')
    (hframe : ∀ s s', Storage.SameOutside registersWrite s s' → P s → P s') (is : List Input) :
    P (run host sha256 is).core := by
  refine Machine.invariant (step host sha256) (fun s => P s.core) hempty ?_ is
  intro s i s' h hpre
  rcases enter_core h with ⟨c, _, hinvoke⟩ | hsame
  · exact hcore s.core (i.1, c) s'.core hinvoke hpre
  · exact hframe s.core s'.core hsame hpre

end Runs

end ContractState

end AnchorKit
