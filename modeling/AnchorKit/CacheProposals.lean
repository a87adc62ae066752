import AnchorKit.Cache

/-!
# Proposals to invalidate cache entries

Attestors vote on dropping the cache entries of an anchor. A proposal counts its proposer as the
first endorser, takes endorsements up to the quorum, and is executed once before it expires.
-/

namespace AnchorKit

open Fallible

namespace CacheGovernance

def getConfig (s : Storage) : CacheGovernanceConfig :=
  s.governance.config.getD CacheGovernanceConfig.defaultConfig

def setConfig (s : Storage) (config : CacheGovernanceConfig) : Except AnchorKitError Storage := do
  require (config.quorumThreshold ≠ 0)
    (.validationError "quorum_threshold must be greater than zero")
  require (config.proposalExpiryLedgers ≠ 0)
    (.validationError "proposal_expiry_ledgers must be greater than zero")
  return { s with governance := { s.governance with config := some config } }

def isExpired (env : Env) (proposal : CacheInvalidationProposal) : Bool :=
  decide (Word.saturatingAdd32 proposal.createdAtLedger proposal.expiryLedgers ≤ env.sequence)

def storeProposal (s : Storage) (proposalId : UInt64) (proposal : CacheInvalidationProposal) :
    Storage :=
  { s with governance := { s.governance with
    proposal := s.governance.proposal.set proposalId proposal } }

def propose (env : Env) (s : Storage) (proposer anchor : Address) :
    Except AnchorKitError (Storage × UInt64) := do
  let cfg := getConfig s
  let proposalId := s.governance.proposalCount
  let nextId ← expect (Word.checkedAdd64 proposalId 1) (.fromCode .cacheCapacityExceeded)
  let proposal : CacheInvalidationProposal :=
    { proposalId, anchor, proposer, endorsements := [proposer],
      createdAtLedger := env.sequence, expiryLedgers := cfg.proposalExpiryLedgers,
      executed := false }
  let s := storeProposal s proposalId proposal
  return ({ s with governance := { s.governance with proposalCount := nextId } }, proposalId)

/-- The checks that an endorsement and an execution begin with. -/
def loadOpenProposal (env : Env) (s : Storage) (proposalId : UInt64) :
    Except AnchorKitError CacheInvalidationProposal := do
  let proposal ← expect (s.governance.proposal.get proposalId) (.fromCode .cacheNotFound)
  require (isExpired env proposal = false) ⟨.staleQuote, "proposal expired", none⟩
  require (proposal.executed = false) (.validationError "proposal already executed")
  return proposal

/-- A second endorsement by the same address is ignored. -/
def endorse (env : Env) (s : Storage) (endorser : Address) (proposalId : UInt64) :
    Except AnchorKitError Storage := do
  let proposal ← loadOpenProposal env s proposalId
  if endorser ∈ proposal.endorsements then
    return s
  require (proposal.endorsements.length < (getConfig s).quorumThreshold.toNat)
    (.validationError "maximum endorsement count reached")
  return storeProposal s proposalId
    { proposal with endorsements := proposal.endorsements ++ [endorser] }

/-- The anchor whose entries are to be dropped. -/
def execute (env : Env) (s : Storage) (proposalId : UInt64) :
    Except AnchorKitError (Storage × Address) := do
  let proposal ← loadOpenProposal env s proposalId
  require ((getConfig s).quorumThreshold.toNat ≤ proposal.endorsements.length)
    (.validationError "quorum not reached")
  return (storeProposal s proposalId { proposal with executed := true }, proposal.anchor)

def getProposal (s : Storage) (proposalId : UInt64) : Option CacheInvalidationProposal :=
  s.governance.proposal.get proposalId

end CacheGovernance

/-- `unwrap_or_else`: an error of the library aborts the call with a fixed code. -/
def orPanic {α : Type} (code : ErrorCode) (result : Except AnchorKitError α) : Except Panic α :=
  match result with
  | .ok a => .ok a
  | .error _ => .error (.withError code)

@[simp] theorem orPanic_eq_ok {α : Type} {code : ErrorCode} {result : Except AnchorKitError α}
    {a : α} : orPanic code result = .ok a ↔ result = .ok a := by
  cases result with
  | ok b => simp [orPanic]
  | error e => simp [orPanic]

def proposeCacheInvalidation (env : Env) (s : Storage) (caller anchor : Address) :
    Except Panic (Storage × UInt64) := do
  caller.requireAuth env
  checkAttestor s caller
  orPanic .cacheCapacityExceeded (CacheGovernance.propose env s caller anchor)

def endorseCacheInvalidation (env : Env) (s : Storage) (caller : Address) (proposalId : UInt64) :
    Except Panic Storage := do
  caller.requireAuth env
  checkAttestor s caller
  orPanic .validationError (CacheGovernance.endorse env s caller proposalId)

def executeCacheInvalidation (env : Env) (s : Storage) (proposalId : UInt64) :
    Except Panic Storage := do
  let (s, anchor) ← orPanic .validationError (CacheGovernance.execute env s proposalId)
  return (invalidateCacheInternal env s anchor).1

def getCacheInvalidationProposal (s : Storage) (proposalId : UInt64) :
    Except Panic CacheInvalidationProposal :=
  expect (CacheGovernance.getProposal s proposalId) (.withError .cacheNotFound)

def setCacheQuorumThreshold (env : Env) (s : Storage) (n : UInt32) : Except Panic Storage := do
  requireAdmin env s
  let cfg := { CacheGovernance.getConfig s with quorumThreshold := n }
  orPanic .validationError (CacheGovernance.setConfig s cfg)

def setCacheProposalExpiry (env : Env) (s : Storage) (ledgers : UInt32) :
    Except Panic Storage := do
  requireAdmin env s
  let cfg := { CacheGovernance.getConfig s with proposalExpiryLedgers := ledgers }
  orPanic .validationError (CacheGovernance.setConfig s cfg)

section Effects

variable {env : Env} {s s' : Storage} {caller : Address} {proposalId : UInt64}

/-- A proposal that can still be endorsed and executed. -/
structure OpenProposal (env : Env) (s : Storage) (proposalId : UInt64)
    (proposal : CacheInvalidationProposal) : Prop where
  filed : s.governance.proposal.get proposalId = some proposal
  live : CacheGovernance.isExpired env proposal = false
  pending : proposal.executed = false

theorem loadOpenProposal_eq_ok {proposal : CacheInvalidationProposal} :
    CacheGovernance.loadOpenProposal env s proposalId = .ok proposal ↔
      OpenProposal env s proposalId proposal := by
  simp only [CacheGovernance.loadOpenProposal, expect_bind_eq_ok, require_bind_eq_ok, pure_eq_ok]
  constructor
  · rintro ⟨p, hfiled, hlive, hpending, rfl⟩
    exact ⟨hfiled, hlive, hpending⟩
  · rintro ⟨hfiled, hlive, hpending⟩
    exact ⟨proposal, hfiled, hlive, hpending, rfl⟩

theorem proposeCacheInvalidation_effects {anchor : Address} {id : UInt64}
    (h : proposeCacheInvalidation env s caller anchor = .ok (s', id)) :
    caller ∈ env.authorized ∧ s.registry.attestor.has caller = true ∧
      ∃ next, s.governance.proposalCount.toNat + 1 = next.toNat ∧ s' = { s with governance :=
        { s.governance with
          proposalCount := next
          proposal := s.governance.proposal.set s.governance.proposalCount
            { proposalId := s.governance.proposalCount, anchor, proposer := caller,
              endorsements := [caller], createdAtLedger := env.sequence,
              expiryLedgers := (CacheGovernance.getConfig s).proposalExpiryLedgers,
              executed := false } } } := by
  simp only [proposeCacheInvalidation, CacheGovernance.propose, bind_eq_ok, requireAuth_eq_ok,
    checkAttestor_eq_ok, orPanic_eq_ok, expect_eq_ok, Word.checkedAdd64_eq_some, pure_eq_ok,
    Prod.mk.injEq] at h
  obtain ⟨_, hsigned, _, hregistered, next, hnext, rfl, _⟩ := h
  exact ⟨hsigned, hregistered, next, hnext, rfl⟩

/-- An endorsement is new and below the quorum, or it changes nothing. -/
theorem endorseCacheInvalidation_effects
    (h : endorseCacheInvalidation env s caller proposalId = .ok s') :
    caller ∈ env.authorized ∧ s.registry.attestor.has caller = true ∧
      ∃ proposal, OpenProposal env s proposalId proposal ∧
        (s' = s ∨ (caller ∉ proposal.endorsements ∧
          s' = CacheGovernance.storeProposal s proposalId
            { proposal with endorsements := proposal.endorsements ++ [caller] })) := by
  simp only [endorseCacheInvalidation, CacheGovernance.endorse, bind_eq_ok, requireAuth_eq_ok,
    checkAttestor_eq_ok, orPanic_eq_ok, loadOpenProposal_eq_ok] at h
  obtain ⟨_, hsigned, _, hregistered, proposal, hopen, h⟩ := h
  refine ⟨hsigned, hregistered, proposal, hopen, ?_⟩
  split at h
  · exact Or.inl (pure_eq_ok.mp h).symm
  · rename_i hnew
    rw [require_bind_eq_ok] at h
    exact Or.inr ⟨hnew, (pure_eq_ok.mp h.2).symm⟩

theorem executeCacheInvalidation_effects
    (h : executeCacheInvalidation env s proposalId = .ok s') :
    ∃ proposal, OpenProposal env s proposalId proposal ∧
      (CacheGovernance.getConfig s).quorumThreshold.toNat ≤ proposal.endorsements.length ∧
      ∃ events, s' = { s with
        governance := { s.governance with
          proposal := s.governance.proposal.set proposalId { proposal with executed := true } }
        cache := s.cache.dropAnchor proposal.anchor, events := events } := by
  simp only [executeCacheInvalidation, CacheGovernance.execute, bind_eq_ok, orPanic_eq_ok,
    loadOpenProposal_eq_ok, require_eq_ok, pure_eq_ok] at h
  obtain ⟨_, ⟨proposal, hopen, _, hquorum, rfl⟩, rfl⟩ := h
  obtain ⟨_, hdropped⟩ := invalidateCacheInternal_effects env
    (CacheGovernance.storeProposal s proposalId { proposal with executed := true }) proposal.anchor
  exact ⟨proposal, hopen, hquorum, _, hdropped⟩

theorem setConfig_effects {config : CacheGovernanceConfig}
    (h : CacheGovernance.setConfig s config = .ok s') :
    config.quorumThreshold ≠ 0 ∧ config.proposalExpiryLedgers ≠ 0 ∧
      s' = { s with governance := { s.governance with config := some config } } := by
  simp only [CacheGovernance.setConfig, require_bind_eq_ok, pure_eq_ok] at h
  exact ⟨h.1, h.2.1, h.2.2.symm⟩

theorem setCacheQuorumThreshold_effects {n : UInt32}
    (h : setCacheQuorumThreshold env s n = .ok s') :
    n ≠ 0 ∧ ∃ config, s' = { s with governance := { s.governance with config := config } } := by
  simp only [setCacheQuorumThreshold, bind_eq_ok, orPanic_eq_ok] at h
  obtain ⟨_, _, h⟩ := h
  obtain ⟨hn, _, rfl⟩ := setConfig_effects h
  exact ⟨hn, _, rfl⟩

theorem setCacheProposalExpiry_effects {ledgers : UInt32}
    (h : setCacheProposalExpiry env s ledgers = .ok s') :
    ∃ config, s' = { s with governance := { s.governance with config := config } } := by
  simp only [setCacheProposalExpiry, bind_eq_ok, orPanic_eq_ok] at h
  obtain ⟨_, _, h⟩ := h
  obtain ⟨_, _, rfl⟩ := setConfig_effects h
  exact ⟨_, rfl⟩

end Effects

end AnchorKit
