import AnchorKit.CacheGovernance
import AnchorKit.Registry

/-!
# The anchor data caches

Metadata and capabilities of anchors are cached under a time to live that the cache policies
bound. New entries count against the capacity; hooks drop the entries of an anchor whose data or
services change.
-/

namespace AnchorKit

open Fallible

def effectiveTtl (overrideTtl configured : UInt64) : UInt64 :=
  if overrideTtl ≠ 0 then overrideTtl else configured

def getCacheConfigInternal (s : Storage) : CacheConfig :=
  s.cache.config.getD CacheConfig.defaultConfig

def setCacheConfig (env : Env) (s : Storage) (config : CacheConfig) : Except Panic Storage := do
  requireAdmin env s
  require (config.metadataTtlSeconds ≠ 0 ∧ config.capabilitiesTtlSeconds ≠ 0 ∧
    config.swrTtlSeconds ≠ 0) (.withError .validationError)
  let s := { s with cache := { s.cache with config := some config } }
  let admin ← getAdminInternal s
  AdminAuditLog.logAction env s admin "set_cache_config" "cache" "" "updated"

def checkCacheCapacity (s : Storage) (entryExists : Bool) : Except Panic Unit :=
  if entryExists then .ok ()
  else require (s.cache.count < (getCapacityConfigInternal s).maxCacheEntries)
    (.withError .cacheCapacityExceeded)

def countCacheEntry (s : Storage) (entryExists : Bool) : Except Panic Storage :=
  if entryExists then .ok s
  else do
    let count ← add64 s.cache.count 1
    return { s with cache := { s.cache with count := count } }

/-- An entry written at `now`, not due for a refresh. -/
def MetadataCache.fresh (metadata : AnchorMetadata) (now ttlSeconds staleTtlSeconds : UInt64) :
    MetadataCache :=
  { metadata, cachedAt := now, ttlSeconds, staleTtlSeconds, needsRefresh := false }

def storeMetadata (s : Storage) (anchor : Address) (entry : MetadataCache) : Storage :=
  { s with cache := { s.cache with metadata := s.cache.metadata.set anchor entry } }

/-- The shared body of the two capacity-checked metadata writes. -/
def cacheMetadataEntry (env : Env) (s : Storage) (anchor : Address) (metadata : AnchorMetadata)
    (ttlSeconds stale : UInt64) : Except Panic Storage := do
  requireAdmin env s
  let entryExists := s.cache.metadata.has anchor
  checkCacheCapacity s entryExists
  let baseTtl := effectiveTtl ttlSeconds (getCacheConfigInternal s).metadataTtlSeconds
  let (ttl, _) := CacheGovernance.enforceWritePolicy s .metadata baseTtl 0
  countCacheEntry (storeMetadata s anchor (.fresh metadata env.timestamp ttl stale)) entryExists

def cacheMetadata (env : Env) (s : Storage) (anchor : Address) (metadata : AnchorMetadata)
    (ttlSeconds : UInt64) : Except Panic Storage :=
  cacheMetadataEntry env s anchor metadata ttlSeconds (getCacheConfigInternal s).swrTtlSeconds

def cacheMetadataSwr (env : Env) (s : Storage) (anchor : Address) (metadata : AnchorMetadata)
    (ttlSeconds staleTtlSeconds : UInt64) : Except Panic Storage :=
  cacheMetadataEntry env s anchor metadata ttlSeconds
    (effectiveTtl staleTtlSeconds (getCacheConfigInternal s).swrTtlSeconds)

def recordRefreshDiagnostic (env : Env) (s : Storage) (anchor : Address) (operation : String)
    (status : RefreshStatus) (hadCachedEntry : Bool) (detail : String) : Storage :=
  let diagnostic : RefreshDiagnostic :=
    { operation, status, attemptedAt := env.timestamp, hadCachedEntry, detail }
  { s with cache := { s.cache with
    diagnostics := s.cache.diagnostics.set (anchor, operation) diagnostic } }

/-- The inner write asks for the admin's authorization once more. -/
def refreshMetadataCache (env : Env) (s : Storage) (anchor : Address)
    (newMetadata : AnchorMetadata) (ttlSeconds : UInt64) : Except Panic Storage := do
  requireAdmin env s
  let s ← cacheMetadata (env.spendAdmin s) s anchor newMetadata ttlSeconds
  return recordRefreshDiagnostic env s anchor "metadata" .success true
    "metadata cache refreshed successfully"

/-- Replace the entry without looking at the capacity or the number of entries. -/
def forceRefreshMetadata (env : Env) (s : Storage) (anchor : Address) (metadata : AnchorMetadata)
    (ttlSeconds staleTtlSeconds : UInt64) : Except Panic Storage := do
  requireAdmin env s
  match CacheGovernance.enforceInvalidationPolicy s .metadata with
  | .error _ => throw (.withError .validationError)
  | .ok () =>
    let cfg := getCacheConfigInternal s
    let baseTtl := effectiveTtl ttlSeconds cfg.metadataTtlSeconds
    let stale := effectiveTtl staleTtlSeconds cfg.swrTtlSeconds
    let (ttl, _) := CacheGovernance.enforceWritePolicy s .metadata baseTtl 0
    return storeMetadata s anchor (.fresh metadata env.timestamp ttl stale)

def validateMetadata (anchor : Address) (metadata : AnchorMetadata) : Except Panic Unit := do
  require (metadata.anchor = anchor) (.withError .validationError)
  require (metadata.uptimePercentage ≤ 10000) (.withError .validationError)

/-- A fresh entry with the same data stays as it is; otherwise the caller's times to live are
stored as given. -/
def refreshMetadataCacheSwr (env : Env) (s : Storage) (anchor : Address)
    (metadata : AnchorMetadata) (ttlSeconds staleTtlSeconds : UInt64) : Except Panic Storage := do
  requireAdmin env s
  validateMetadata anchor metadata
  let entry := MetadataCache.fresh metadata env.timestamp ttlSeconds staleTtlSeconds
  match s.cache.metadata.get anchor with
  | some existing =>
    let age := Word.saturatingSub64 env.timestamp existing.cachedAt
    if age ≤ existing.ttlSeconds ∧ existing.metadata = metadata then
      return s
    return storeMetadata s anchor entry
  | none => return storeMetadata s anchor entry

def cacheCapabilities (env : Env) (s : Storage) (anchor : Address) (tomlUrl capabilities : String)
    (ttlSeconds : UInt64) : Except Panic Storage := do
  requireAdmin env s
  let entryExists := s.cache.capabilities.has anchor
  checkCacheCapacity s entryExists
  let baseTtl := effectiveTtl ttlSeconds (getCacheConfigInternal s).capabilitiesTtlSeconds
  let (ttl, _) := CacheGovernance.enforceWritePolicy s .capabilities baseTtl 0
  let entry : CapabilitiesCache :=
    { tomlUrl, capabilities, cachedAt := env.timestamp, ttlSeconds := ttl }
  let s := { s with cache := { s.cache with
    capabilities := s.cache.capabilities.set anchor entry } }
  countCacheEntry s entryExists

/-- The inner write asks for the admin's authorization once more. -/
def refreshCapabilitiesCache (env : Env) (s : Storage) (anchor : Address)
    (tomlUrl capabilities : String) (ttlSeconds : UInt64) : Except Panic Storage := do
  requireAdmin env s
  let s ← cacheCapabilities (env.spendAdmin s) s anchor tomlUrl capabilities ttlSeconds
  return recordRefreshDiagnostic env s anchor "capabilities" .success true
    "capabilities cache refreshed successfully"

/-- Drop `freed` entries from the count, which never falls below zero. -/
def uncountCacheEntries (st : CacheStore) (freed : UInt64) : CacheStore :=
  { st with count := if freed ≤ st.count then st.count - freed else 0 }

/-- How many of the two entries of the anchor are there. -/
def occupiedSlots (st : CacheStore) (anchor : Address) : UInt64 :=
  (if st.metadata.has anchor then 1 else 0) + (if st.capabilities.has anchor then 1 else 0)

/-- Drop both entries of the anchor; the flag says whether there was one. -/
def invalidateCacheInternal (env : Env) (s : Storage) (anchor : Address) : Storage × Bool :=
  let slotsFreed := occupiedSlots s.cache anchor
  if 0 < slotsFreed then
    let cache := { s.cache with
      metadata := s.cache.metadata.remove anchor
      capabilities := s.cache.capabilities.remove anchor }
    let s := { s with cache := uncountCacheEntries cache slotsFreed }
    (s.publish (.cacheInvalidated anchor env.timestamp), true)
  else (s, false)

def invalidateCacheForAnchor (env : Env) (s : Storage) (anchor : Address) :
    Except Panic (Storage × Bool) := do
  requireAdmin env s
  let (s, cleared) := invalidateCacheInternal env s anchor
  if cleared then
    let admin ← getAdminInternal s
    let s ← AdminAuditLog.logAction env s admin "invalidate_cache" anchor.toText "cached"
      "invalidated"
    return (s, cleared)
  return (s, cleared)

/-- Sweep one anchor's expired entries, counting them in `freed`. -/
def compactAnchor (now : UInt64) (acc : CacheStore × UInt64) (anchor : Address) :
    Except Panic (CacheStore × UInt64) := do
  let (st, freed) := acc
  let (st, freed) ← match st.metadata.get anchor with
    | some entry =>
      let totalTtl := Word.saturatingAdd64 entry.ttlSeconds entry.staleTtlSeconds
      if Word.saturatingAdd64 entry.cachedAt totalTtl ≤ now then do
        let freed ← add64 freed 1
        pure ({ st with metadata := st.metadata.remove anchor }, freed)
      else pure (st, freed)
    | none => pure (st, freed)
  match st.capabilities.get anchor with
  | some entry =>
    if Word.saturatingAdd64 entry.cachedAt entry.ttlSeconds ≤ now then
      let freed ← add64 freed 1
      return ({ st with capabilities := st.capabilities.remove anchor }, freed)
    return (st, freed)
  | none => return (st, freed)

def compactCache (env : Env) (s : Storage) (anchors : List Address) :
    Except Panic (Storage × UInt64) := do
  requireAdmin env s
  let (cache, freed) ← anchors.foldlM (compactAnchor env.timestamp) (s.cache, 0)
  if 0 < freed then
    let s := { s with cache := uncountCacheEntries cache freed }
    let admin ← getAdminInternal s
    let s ← AdminAuditLog.logAction env s admin "compact_cache" "cache" "" "compacted"
    return (s.publish (.cacheCompacted freed), freed)
  return ({ s with cache := cache }, freed)

/-- The cache without the entries of the anchor. -/
def CacheStore.dropAnchor (st : CacheStore) (anchor : Address) : CacheStore :=
  uncountCacheEntries
    { st with metadata := st.metadata.remove anchor, capabilities := st.capabilities.remove anchor }
    (occupiedSlots st anchor)

/-- What a hook does to the cache: nothing, or the entries of one anchor go. -/
inductive CacheStore.Hook (st : CacheStore) : CacheStore → Prop
  | skipped : Hook st st
  | fired (anchor : Address) : Hook st (st.dropAnchor anchor)

/-- The count after a write: a new entry fits under the cap and adds one. -/
def CountsWrite (s : Storage) (entryExists : Bool) (count : UInt64) : Prop :=
  if entryExists then count = s.cache.count
  else s.cache.count < (getCapacityConfigInternal s).maxCacheEntries ∧
    s.cache.count.toNat + 1 = count.toNat

section Effects

variable {env : Env} {s s' : Storage} {anchor : Address}

theorem setCacheConfig_effects {config : CacheConfig} (h : setCacheConfig env s config = .ok s') :
    ∃ ring events, s' = { s with
      cache := { s.cache with config := some config }, adminAudit := ring, events := events } := by
  simp only [setCacheConfig, bind_eq_ok] at h
  obtain ⟨_, _, _, _, _, _, hlog⟩ := h
  obtain ⟨_, _, rfl⟩ := AdminAuditLog.logAction_frame hlog
  exact ⟨_, _, rfl⟩

/-- Checking the capacity, storing `entry` and counting it. -/
theorem countCacheEntry_effects {t : Storage} {entryExists : Bool}
    (hcheck : checkCacheCapacity s entryExists = .ok ())
    (h : countCacheEntry t entryExists = .ok s') (ht : t.cache.count = s.cache.count) :
    ∃ count, CountsWrite s entryExists count ∧
      s' = { t with cache := { t.cache with count := count } } := by
  unfold checkCacheCapacity at hcheck
  unfold countCacheEntry at h
  unfold CountsWrite
  cases entryExists with
  | true =>
    obtain rfl := Except.ok.inj h
    exact ⟨t.cache.count, ht, rfl⟩
  | false =>
    simp only [Bool.false_eq_true, if_false, require_eq_ok] at hcheck
    simp only [Bool.false_eq_true, if_false, bind_eq_ok, add64_eq_ok, pure_eq_ok] at h
    obtain ⟨count, hcount, rfl⟩ := h
    rw [ht] at hcount
    exact ⟨count, ⟨hcheck, hcount⟩, rfl⟩

theorem cacheMetadataEntry_effects {metadata : AnchorMetadata} {ttlSeconds stale : UInt64}
    (h : cacheMetadataEntry env s anchor metadata ttlSeconds stale = .ok s') :
    ∃ requested count, CountsWrite s (s.cache.metadata.has anchor) count ∧
      s' = { s with cache := { s.cache with
        metadata := s.cache.metadata.set anchor (.fresh metadata env.timestamp
          ((CacheGovernance.getPolicy s .metadata).clampTtl requested) stale)
        count := count } } := by
  simp only [cacheMetadataEntry, bind_eq_ok] at h
  obtain ⟨_, _, _, hcheck, hcount⟩ := h
  obtain ⟨count, hcounts, rfl⟩ := countCacheEntry_effects hcheck hcount rfl
  exact ⟨_, count, hcounts, rfl⟩

theorem refreshMetadataCache_effects {metadata : AnchorMetadata} {ttlSeconds : UInt64}
    (h : refreshMetadataCache env s anchor metadata ttlSeconds = .ok s') :
    ∃ requested stale count diagnostics, CountsWrite s (s.cache.metadata.has anchor) count ∧
      s' = { s with cache := { s.cache with
        metadata := s.cache.metadata.set anchor (.fresh metadata env.timestamp
          ((CacheGovernance.getPolicy s .metadata).clampTtl requested) stale)
        count := count
        diagnostics := diagnostics } } := by
  simp only [refreshMetadataCache, cacheMetadata, bind_eq_ok, pure_eq_ok] at h
  obtain ⟨_, _, _, hentry, rfl⟩ := h
  obtain ⟨requested, count, hcounts, rfl⟩ := cacheMetadataEntry_effects hentry
  exact ⟨requested, _, count, _, hcounts, rfl⟩

theorem forceRefreshMetadata_effects {metadata : AnchorMetadata} {ttlSeconds stale : UInt64}
    (h : forceRefreshMetadata env s anchor metadata ttlSeconds stale = .ok s') :
    ∃ requested stale', s' = storeMetadata s anchor (.fresh metadata env.timestamp
      ((CacheGovernance.getPolicy s .metadata).clampTtl requested) stale') := by
  simp only [forceRefreshMetadata, bind_eq_ok] at h
  obtain ⟨_, _, h⟩ := h
  split at h
  · cases h
  · exact ⟨_, _, (pure_eq_ok.mp h).symm⟩

/-- The refresh that changes nothing: the entry is fresh and holds the same data. -/
def refreshesNothing (env : Env) (s : Storage) (anchor : Address) (metadata : AnchorMetadata) :
    Bool :=
  match s.cache.metadata.get anchor with
  | some existing =>
    Word.saturatingSub64 env.timestamp existing.cachedAt ≤ existing.ttlSeconds ∧
      existing.metadata = metadata
  | none => false

theorem has_of_refreshesNothing {metadata : AnchorMetadata}
    (h : refreshesNothing env s anchor metadata = true) : s.cache.metadata.has anchor = true := by
  unfold refreshesNothing at h
  split at h
  · rename_i existing hget
    exact KeyedStore.has_iff.mpr ⟨existing, hget⟩
  · cases h

theorem refreshMetadataCacheSwr_effects {metadata : AnchorMetadata} {ttlSeconds stale : UInt64}
    (h : refreshMetadataCacheSwr env s anchor metadata ttlSeconds stale = .ok s') :
    s' = if refreshesNothing env s anchor metadata then s
      else storeMetadata s anchor (.fresh metadata env.timestamp ttlSeconds stale) := by
  simp only [refreshMetadataCacheSwr, bind_eq_ok] at h
  obtain ⟨_, _, _, _, h⟩ := h
  unfold refreshesNothing
  cases hget : s.cache.metadata.get anchor with
  | some existing =>
    rw [hget] at h
    dsimp only at h ⊢
    split at h
    · rename_i hsame
      rw [if_pos (decide_eq_true hsame)]
      exact (pure_eq_ok.mp h).symm
    · rename_i hdue
      rw [if_neg (by simpa using hdue)]
      exact (pure_eq_ok.mp h).symm
  | none =>
    rw [hget] at h
    exact (pure_eq_ok.mp h).symm

theorem cacheCapabilities_effects {tomlUrl capabilities : String} {ttlSeconds : UInt64}
    (h : cacheCapabilities env s anchor tomlUrl capabilities ttlSeconds = .ok s') :
    ∃ requested count, CountsWrite s (s.cache.capabilities.has anchor) count ∧
      s' = { s with cache := { s.cache with
        capabilities := s.cache.capabilities.set anchor ⟨tomlUrl, capabilities, env.timestamp,
          (CacheGovernance.getPolicy s .capabilities).clampTtl requested⟩
        count := count } } := by
  simp only [cacheCapabilities, bind_eq_ok] at h
  obtain ⟨_, _, _, hcheck, hcount⟩ := h
  obtain ⟨count, hcounts, rfl⟩ := countCacheEntry_effects hcheck hcount rfl
  exact ⟨_, count, hcounts, rfl⟩

theorem refreshCapabilitiesCache_effects {tomlUrl capabilities : String} {ttlSeconds : UInt64}
    (h : refreshCapabilitiesCache env s anchor tomlUrl capabilities ttlSeconds = .ok s') :
    ∃ requested count diagnostics, CountsWrite s (s.cache.capabilities.has anchor) count ∧
      s' = { s with cache := { s.cache with
        capabilities := s.cache.capabilities.set anchor ⟨tomlUrl, capabilities, env.timestamp,
          (CacheGovernance.getPolicy s .capabilities).clampTtl requested⟩
        count := count
        diagnostics := diagnostics } } := by
  simp only [refreshCapabilitiesCache, bind_eq_ok, pure_eq_ok] at h
  obtain ⟨_, _, _, hentry, rfl⟩ := h
  obtain ⟨requested, count, hcounts, rfl⟩ := cacheCapabilities_effects hentry
  exact ⟨requested, count, _, hcounts, rfl⟩

/-- Dropping the entries of an anchor that has none changes nothing. -/
theorem dropAnchor_of_free {st : CacheStore} (h : occupiedSlots st anchor = 0) :
    st.dropAnchor anchor = st := by
  have hfree : st.metadata.has anchor = false ∧ st.capabilities.has anchor = false := by
    unfold occupiedSlots at h
    cases hm : st.metadata.has anchor <;> cases hc : st.capabilities.has anchor <;>
      simp [hm, hc] at h ⊢
  have hcount : (if (0 : UInt64) ≤ st.count then st.count - 0 else 0) = st.count := by
    simp [UInt64.le_iff_toNat_le]
  rw [CacheStore.dropAnchor, h, KeyedStore.remove_of_has_eq_false hfree.1,
    KeyedStore.remove_of_has_eq_false hfree.2, uncountCacheEntries]
  simp only [hcount]

theorem invalidateCacheInternal_effects (env : Env) (s : Storage) (anchor : Address) :
    ∃ events, (invalidateCacheInternal env s anchor).1 =
      { s with cache := s.cache.dropAnchor anchor, events := events } := by
  dsimp only [invalidateCacheInternal]
  split
  · exact ⟨_, rfl⟩
  · rename_i hfree
    have hnone : occupiedSlots s.cache anchor = 0 := by
      rw [UInt64.lt_iff_toNat_lt] at hfree
      exact UInt64.toNat_inj.mp (by simpa using hfree)
    exact ⟨s.events, by rw [dropAnchor_of_free hnone]⟩

theorem invalidateCacheForAnchor_effects {cleared : Bool}
    (h : invalidateCacheForAnchor env s anchor = .ok (s', cleared)) :
    ∃ ring events, s' = { s with
      cache := s.cache.dropAnchor anchor, adminAudit := ring, events := events } := by
  simp only [invalidateCacheForAnchor, bind_eq_ok] at h
  obtain ⟨_, _, h⟩ := h
  obtain ⟨_, hdropped⟩ := invalidateCacheInternal_effects env s anchor
  split at h
  · simp only [bind_eq_ok, pure_eq_ok, Prod.mk.injEq] at h
    obtain ⟨_, _, _, hlog, rfl, rfl⟩ := h
    obtain ⟨_, _, rfl⟩ := AdminAuditLog.logAction_frame hlog
    rw [hdropped]
    exact ⟨_, _, rfl⟩
  · simp only [pure_eq_ok, Prod.mk.injEq] at h
    obtain ⟨rfl, rfl⟩ := h
    exact ⟨_, _, hdropped⟩

theorem compactCache_effects {anchors : List Address} {freed : UInt64}
    (h : compactCache env s anchors = .ok (s', freed)) :
    ∃ cache, anchors.foldlM (compactAnchor env.timestamp) (s.cache, 0) = .ok (cache, freed) ∧
      ∃ ring events, s' = { s with
        cache := uncountCacheEntries cache freed, adminAudit := ring, events := events } := by
  simp only [compactCache, bind_eq_ok] at h
  obtain ⟨_, _, ⟨cache, n⟩, hswept, h⟩ := h
  split at h
  · simp only [bind_eq_ok, pure_eq_ok, Prod.mk.injEq] at h
    obtain ⟨_, _, _, hlog, rfl, rfl⟩ := h
    obtain ⟨_, _, rfl⟩ := AdminAuditLog.logAction_frame hlog
    exact ⟨cache, hswept, _, _, rfl⟩
  · rename_i hnone
    simp only [pure_eq_ok, Prod.mk.injEq] at h
    obtain ⟨rfl, rfl⟩ := h
    have hzero : n = 0 := by
      rw [UInt64.lt_iff_toNat_lt] at hnone
      exact UInt64.toNat_inj.mp (by simpa using hnone)
    have hcount : (if (0 : UInt64) ≤ cache.count then cache.count - 0 else 0) = cache.count := by
      simp [UInt64.le_iff_toNat_le]
    refine ⟨cache, hswept, s.adminAudit, s.events, ?_⟩
    rw [hzero, uncountCacheEntries]
    simp only [hcount]

end Effects

/-!
## Reading the caches

The readers of the metadata cache each compare the age of an entry with its times to live in
their own way. The stale-while-revalidate reader also marks a stale entry for refresh.
-/

inductive MetadataCacheState
  | fresh
  | stale
  | expired
  | missing
deriving DecidableEq, Repr

/-- The sum of the write time and the time to live may overflow, which aborts. -/
def getCachedMetadata (env : Env) (s : Storage) (anchor : Address) :
    Except Panic AnchorMetadata := do
  let entry ← expect (s.cache.metadata.get anchor) (.withError .cacheNotFound)
  let expiry ← add64 entry.cachedAt entry.ttlSeconds
  require (¬ expiry ≤ env.timestamp) (.withError .cacheExpired)
  return entry.metadata

/-- The metadata, and whether the caller should refresh it. -/
def getCachedMetadataSwr (env : Env) (s : Storage) (anchor : Address) :
    Except Panic (Storage × AnchorMetadata × Bool) := do
  let entry ← expect (s.cache.metadata.get anchor) (.withError .cacheNotFound)
  let age := Word.saturatingSub64 env.timestamp entry.cachedAt
  if age ≤ entry.ttlSeconds then
    return (s, entry.metadata, false)
  else if age ≤ Word.saturatingAdd64 entry.ttlSeconds entry.staleTtlSeconds then
    let entry := { entry with needsRefresh := true }
    return (storeMetadata s anchor entry, entry.metadata, true)
  else throw (.withError .cacheExpired)

def getMetadataCacheState (env : Env) (s : Storage) (anchor : Address) : MetadataCacheState :=
  match s.cache.metadata.get anchor with
  | some entry =>
    let age := Word.saturatingSub64 env.timestamp entry.cachedAt
    if age ≤ entry.ttlSeconds then .fresh
    else if age ≤ Word.saturatingAdd64 entry.ttlSeconds entry.staleTtlSeconds then .stale
    else .expired
  | none => .missing

/-- A read leaves everything as it was, or marks the entry it served for refresh. -/
theorem getCachedMetadataSwr_effects {env : Env} {s s' : Storage} {anchor : Address}
    {served : AnchorMetadata × Bool} (h : getCachedMetadataSwr env s anchor = .ok (s', served)) :
    s' = s ∨ ∃ entry, s.cache.metadata.get anchor = some entry ∧
      s' = storeMetadata s anchor { entry with needsRefresh := true } := by
  simp only [getCachedMetadataSwr, expect_bind_eq_ok] at h
  obtain ⟨entry, hget, h⟩ := h
  split at h
  · obtain ⟨rfl, _⟩ := Prod.mk.inj (pure_eq_ok.mp h)
    exact Or.inl rfl
  · split at h
    · obtain ⟨rfl, _⟩ := Prod.mk.inj (pure_eq_ok.mp h)
      exact Or.inr ⟨entry, hget, rfl⟩
    · cases h

end AnchorKit
