import AnchorKit.Access

/-!
# Cache policies

For each category of cache entries a policy bounds the time to live, says when an entry is due
for a refresh, and whether it may be replaced by force.
-/

namespace AnchorKit

open Fallible

inductive CacheEntryType
  | metadata
  | capabilities
  | other
deriving DecidableEq, Repr

namespace CachePolicy

def defaultMetadata : CachePolicy where
  minTtlSeconds := 60
  maxTtlSeconds := 86400
  refreshThresholdPct := 80
  allowForcedInvalidation := true

def defaultCapabilities : CachePolicy where
  minTtlSeconds := 300
  maxTtlSeconds := 604800
  refreshThresholdPct := 75
  allowForcedInvalidation := true

def defaultOther : CachePolicy where
  minTtlSeconds := 30
  maxTtlSeconds := 43200
  refreshThresholdPct := 70
  allowForcedInvalidation := false

def validate (p : CachePolicy) : Except AnchorKitError Unit := do
  require (p.minTtlSeconds ≠ 0) (.validationError "min_ttl_seconds must be greater than zero")
  require (p.minTtlSeconds < p.maxTtlSeconds)
    (.validationError "min_ttl_seconds must be less than max_ttl_seconds")
  require (p.refreshThresholdPct ≠ 0 ∧ p.refreshThresholdPct < 100)
    (.validationError "refresh_threshold_pct must be in range [1, 99]")

/-- A time to live inside the band of the policy; no preference means its midpoint. -/
def clampTtl (p : CachePolicy) (requestedTtl : UInt64) : UInt64 :=
  if requestedTtl = 0 then
    Word.saturatingAdd64 p.minTtlSeconds (Word.saturatingSub64 p.maxTtlSeconds p.minTtlSeconds / 2)
  else min (max requestedTtl p.minTtlSeconds) p.maxTtlSeconds

def needsRefresh (p : CachePolicy) (ageSeconds ttlSeconds : UInt64) : Bool :=
  Word.saturatingMul64 ttlSeconds p.refreshThresholdPct.toUInt64 / 100 ≤ ageSeconds

end CachePolicy

namespace CachePolicySet

def defaultSet : CachePolicySet where
  metadata := .defaultMetadata
  capabilities := .defaultCapabilities
  other := .defaultOther

def forType (set : CachePolicySet) : CacheEntryType → CachePolicy
  | .metadata => set.metadata
  | .capabilities => set.capabilities
  | .other => set.other

def validate (set : CachePolicySet) : Except AnchorKitError Unit := do
  set.metadata.validate
  set.capabilities.validate
  set.other.validate

end CachePolicySet

namespace CacheGovernance

def getPolicySet (s : Storage) : CachePolicySet := s.cache.policies.getD CachePolicySet.defaultSet

def setPolicySet (s : Storage) (policies : CachePolicySet) : Except AnchorKitError Storage := do
  policies.validate
  return { s with cache := { s.cache with policies := some policies } }

def getPolicy (s : Storage) (entryType : CacheEntryType) : CachePolicy :=
  (getPolicySet s).forType entryType

/-- The time to live to store, and whether an entry of this age is due for a refresh. -/
def enforceWritePolicy (s : Storage) (entryType : CacheEntryType)
    (requestedTtl currentAgeSeconds : UInt64) : UInt64 × Bool :=
  let policy := getPolicy s entryType
  let effectiveTtl := policy.clampTtl requestedTtl
  (effectiveTtl, policy.needsRefresh currentAgeSeconds effectiveTtl)

def enforceInvalidationPolicy (s : Storage) (entryType : CacheEntryType) :
    Except AnchorKitError Unit :=
  require ((getPolicy s entryType).allowForcedInvalidation = true)
    (.validationError "forced invalidation not permitted by policy")

end CacheGovernance

def setCachePolicySet (env : Env) (s : Storage) (policies : CachePolicySet) :
    Except Panic Storage := do
  requireAdmin env s
  match CacheGovernance.setPolicySet s policies with
  | .error _ => throw (.withError .validationError)
  | .ok s => return s

/-- Every default passes its own validation. -/
theorem validate_defaultSet : CachePolicySet.defaultSet.validate = .ok () := rfl

theorem setCachePolicySet_effects {env : Env} {s s' : Storage} {policies : CachePolicySet}
    (h : setCachePolicySet env s policies = .ok s') :
    policies.validate = .ok () ∧
      s' = { s with cache := { s.cache with policies := some policies } } := by
  simp only [setCachePolicySet, CacheGovernance.setPolicySet, bind_eq_ok] at h
  obtain ⟨_, _, h⟩ := h
  cases hvalid : policies.validate with
  | error e =>
    rw [hvalid] at h
    cases h
  | ok _ =>
    rw [hvalid] at h
    exact ⟨rfl, (pure_eq_ok.mp h).symm⟩

end AnchorKit
