import AnchorKit.CacheSweeps
import AnchorKit.RegistryInvariants

/-!
# The count of cache entries

The contract counts the entries of both caches by hand. One inversion lemma says what a committed
call can do to the caches; from it follows exactly when the count is right along a whole run.
-/

namespace AnchorKit

open Fallible

/-- The anchor whose metadata entry a call replaces without looking at the capacity. -/
def Call.overwrites : Call → Option Address
  | .forceRefreshMetadata anchor _ _ _ | .refreshMetadataCacheSwr anchor _ _ _ => some anchor
  | _ => none

def Call.writtenMetadata (env : Env) (s : Storage) : Call → Option Address
  | .cacheMetadata anchor _ _ | .refreshMetadataCache anchor _ _ | .cacheMetadataSwr anchor _ _ _
  | .forceRefreshMetadata anchor _ _ _ => some anchor
  | .refreshMetadataCacheSwr anchor metadata _ _ =>
    if refreshesNothing env s anchor metadata then none else some anchor
  | _ => none

def Call.writtenCapabilities : Call → Option Address
  | .cacheCapabilities anchor _ _ _ | .refreshCapabilitiesCache anchor _ _ _ => some anchor
  | _ => none

structure Call.Idle (c : Call) (env : Env) (s : Storage) : Prop where
  metadata : c.writtenMetadata env s = none
  capabilities : c.writtenCapabilities = none
  covered : ∀ anchor, c.overwrites = some anchor → s.cache.metadata.has anchor = true

def GrantedTtl (s : Storage) (entryType : CacheEntryType) (ttl : UInt64) : Prop :=
  ∃ requested, ttl = (CacheGovernance.getPolicy s entryType).clampTtl requested

inductive CacheStep (env : Env) (s : Storage) : Call → CacheStore → Prop
  | settled {c : Call} {config : Option CacheConfig} {policies : Option CachePolicySet}
      (hidle : c.Idle env s)
      (hpolicies : policies = s.cache.policies ∨
        ∃ set, policies = some set ∧ set.validate = .ok ()) :
      CacheStep env s c { s.cache with config := config, policies := policies }
  | metadata {c : Call} {anchor : Address} {entry : MetadataCache} {count : UInt64}
      {diagnostics : KeyedStore (Address × String) RefreshDiagnostic}
      (hwritten : c.writtenMetadata env s = some anchor) (hcaps : c.writtenCapabilities = none)
      (hcovered : c.overwrites = none)
      (hcounts : CountsWrite s (s.cache.metadata.has anchor) count)
      (hgranted : GrantedTtl s .metadata entry.ttlSeconds) :
      CacheStep env s c { s.cache with
        metadata := s.cache.metadata.set anchor entry, count := count, diagnostics := diagnostics }
  | forced {c : Call} {anchor : Address} {entry : MetadataCache}
      (hwritten : c.writtenMetadata env s = some anchor) (hcaps : c.writtenCapabilities = none)
      (hover : c.overwrites = some anchor)
      (hgranted : GrantedTtl s .metadata entry.ttlSeconds) :
      CacheStep env s c { s.cache with metadata := s.cache.metadata.set anchor entry }
  | revalidated {anchor : Address} {metadata : AnchorMetadata} {ttl stale : UInt64}
      (hdue : refreshesNothing env s anchor metadata = false) :
      CacheStep env s (.refreshMetadataCacheSwr anchor metadata ttl stale) { s.cache with
        metadata := s.cache.metadata.set anchor (.fresh metadata env.timestamp ttl stale) }
  | capabilities {c : Call} {anchor : Address} {entry : CapabilitiesCache} {count : UInt64}
      {diagnostics : KeyedStore (Address × String) RefreshDiagnostic}
      (hmeta : c.writtenMetadata env s = none) (hwritten : c.writtenCapabilities = some anchor)
      (hcovered : c.overwrites = none)
      (hcounts : CountsWrite s (s.cache.capabilities.has anchor) count)
      (hgranted : GrantedTtl s .capabilities entry.ttlSeconds) :
      CacheStep env s c { s.cache with
        capabilities := s.cache.capabilities.set anchor entry, count := count,
        diagnostics := diagnostics }
  | marked {c : Call} {anchor : Address} {entry : MetadataCache} (hidle : c.Idle env s)
      (hfile : s.cache.metadata.get anchor = some entry) :
      CacheStep env s c { s.cache with
        metadata := s.cache.metadata.set anchor { entry with needsRefresh := true } }
  | shed {c : Call} {P : MetadataCache → Prop} {Q : CapabilitiesCache → Prop} {mid : CacheStore}
      {freed : UInt64} (hidle : c.Idle env s) (hsheds : s.cache.Sheds P Q mid freed.toNat) :
      CacheStep env s c (uncountCacheEntries mid freed)

theorem Call.idle_of_none {c : Call} {env : Env} {s : Storage}
    (hmeta : c.writtenMetadata env s = none) (hcaps : c.writtenCapabilities = none)
    (hover : c.overwrites = none) : c.Idle env s where
  metadata := hmeta
  capabilities := hcaps
  covered := by
    intro anchor h
    rw [hover] at h
    cases h

theorem Call.idle_of_frame {c : Call} {env : Env} {s : Storage} (hc : .cache ∉ c.touches) :
    c.Idle env s := by
  cases c <;> first
    | exact idle_of_none rfl rfl rfl
    | exact absurd (by simp [Call.touches]) hc

section Steps

variable {env : Env} {s : Storage} {c : Call}

theorem CacheStep.unchanged (hidle : c.Idle env s) : CacheStep env s c s.cache :=
  .settled hidle (.inl rfl)

theorem CacheStep.dropped (hidle : c.Idle env s) (anchor : Address) :
    CacheStep env s c (s.cache.dropAnchor anchor) := by
  obtain ⟨mid, hsheds, hdrop⟩ := dropAnchor_sheds s.cache anchor
  rw [hdrop]
  exact .shed hidle hsheds

theorem CacheStep.hooked (hidle : c.Idle env s) {cache : CacheStore} (h : s.cache.Hook cache) :
    CacheStep env s c cache := by
  cases h with
  | skipped => exact .unchanged hidle
  | fired anchor => exact .dropped hidle anchor

end Steps

theorem cache_step {host : Host} {s s' : Storage} {i : Input} (h : step host s i = .ok s') :
    CacheStep i.1 s i.2 s'.cache := by
  obtain ⟨env, c⟩ := i
  change invoke host env s c = .ok s' at h
  by_cases hc : .cache ∈ c.touches
  · cases c with
    | setCacheConfig config =>
      obtain ⟨_, _, rfl⟩ := setCacheConfig_effects h
      exact .settled (Call.idle_of_none rfl rfl rfl) (.inl rfl)
    | setCachePolicySet policies =>
      obtain ⟨hvalid, rfl⟩ := setCachePolicySet_effects h
      exact .settled (Call.idle_of_none rfl rfl rfl) (.inr ⟨policies, rfl, hvalid⟩)
    | cacheMetadata anchor metadata ttl =>
      obtain ⟨requested, count, hcounts, rfl⟩ := cacheMetadataEntry_effects h
      exact .metadata rfl rfl rfl hcounts ⟨requested, rfl⟩
    | refreshMetadataCache anchor metadata ttl =>
      obtain ⟨requested, stale, count, _, hcounts, rfl⟩ := refreshMetadataCache_effects h
      exact .metadata rfl rfl rfl hcounts ⟨requested, rfl⟩
    | cacheMetadataSwr anchor metadata ttl stale =>
      obtain ⟨requested, count, hcounts, rfl⟩ := cacheMetadataEntry_effects h
      exact .metadata rfl rfl rfl hcounts ⟨requested, rfl⟩
    | forceRefreshMetadata anchor metadata ttl stale =>
      obtain ⟨requested, stale', rfl⟩ := forceRefreshMetadata_effects h
      exact .forced rfl rfl rfl ⟨requested, rfl⟩
    | refreshMetadataCacheSwr anchor metadata ttl stale =>
      obtain rfl := refreshMetadataCacheSwr_effects h
      by_cases hsame : refreshesNothing env s anchor metadata = true
      · rw [if_pos hsame]
        have hhas := has_of_refreshesNothing hsame
        have hidle : (Call.refreshMetadataCacheSwr anchor metadata ttl stale).Idle env s := by
          refine ⟨if_pos hsame, rfl, fun a ha => ?_⟩
          rw [← Option.some.inj ha]
          exact hhas
        exact .unchanged hidle
      · rw [if_neg hsame]
        exact .revalidated (by simpa using hsame)
    | cacheCapabilities anchor tomlUrl capabilities ttl =>
      obtain ⟨requested, count, hcounts, rfl⟩ := cacheCapabilities_effects h
      exact .capabilities rfl rfl rfl hcounts ⟨requested, rfl⟩
    | refreshCapabilitiesCache anchor tomlUrl capabilities ttl =>
      obtain ⟨requested, count, _, hcounts, rfl⟩ := refreshCapabilitiesCache_effects h
      exact .capabilities rfl rfl rfl hcounts ⟨requested, rfl⟩
    | invalidateCacheForAnchor anchor =>
      obtain ⟨_, h⟩ := fst_map_eq_ok.mp h
      obtain ⟨_, _, rfl⟩ := invalidateCacheForAnchor_effects h
      exact .dropped (Call.idle_of_none rfl rfl rfl) anchor
    | compactCache anchors =>
      obtain ⟨_, h⟩ := fst_map_eq_ok.mp h
      obtain ⟨_, hswept, _, _, rfl⟩ := compactCache_effects h
      exact .shed (Call.idle_of_none rfl rfl rfl) (compact_sheds compactedTo_start hswept)
    | enableService caller anchor serviceCode =>
      obtain ⟨_, h⟩ := fst_map_eq_ok.mp h
      obtain ⟨_, _, _, _, hhook, rfl⟩ := enableService_effects h
      exact .hooked (Call.idle_of_none rfl rfl rfl) hhook
    | disableService caller anchor serviceCode =>
      obtain ⟨_, h⟩ := fst_map_eq_ok.mp h
      obtain ⟨_, _, _, _, hhook, rfl⟩ := disableService_effects h
      exact .hooked (Call.idle_of_none rfl rfl rfl) hhook
    | snapshotServices caller anchor services description =>
      obtain ⟨_, h⟩ := fst_map_eq_ok.mp h
      obtain ⟨_, _, _, rfl⟩ := snapshotServices_frame h
      exact .unchanged (Call.idle_of_none rfl rfl rfl)
    | rollbackServices caller snapshotId =>
      obtain ⟨_, h⟩ := fst_map_eq_ok.mp h
      obtain ⟨_, _, _, _, hhook, rfl⟩ := rollbackServices_effects h
      exact .hooked (Call.idle_of_none rfl rfl rfl) hhook
    | setAnchorMetadata anchor =>
      obtain ⟨_, _, _, _, _, rfl⟩ := setAnchorMetadata_effects h
      exact .dropped (Call.idle_of_none rfl rfl rfl) anchor
    | getCachedMetadataSwr anchor =>
      obtain ⟨_, h⟩ := fst_map_eq_ok.mp h
      rcases getCachedMetadataSwr_effects h with rfl | ⟨entry, hfile, rfl⟩
      · exact .unchanged (Call.idle_of_none rfl rfl rfl)
      · exact .marked (Call.idle_of_none rfl rfl rfl) hfile
    | executeCacheInvalidation proposalId =>
      obtain ⟨proposal, _, _, _, rfl⟩ := executeCacheInvalidation_effects h
      exact .dropped (Call.idle_of_none rfl rfl rfl) proposal.anchor
    | _ => exact absurd hc (by simp [Call.touches])
  · rw [(invoke_sameOutside h).cache_eq hc]
    exact .unchanged (Call.idle_of_frame hc)

/-- No removal frees more entries than are counted. -/
structure NeverUnderflows (st : CacheStore) : Prop where
  invalidation : ∀ anchor, occupiedSlots st anchor ≤ st.count
  compaction : ∀ now (anchors : List Address) out freed,
    anchors.foldlM (compactAnchor now) (st, 0) = .ok (out, freed) → freed ≤ st.count

/-- The counter is the number of entries, stays within the cap and covers every removal. -/
structure CacheCounted (s : Storage) : Prop where
  finite : s.cache.Finite
  count_eq : s.cache.count.toNat = s.cache.size
  capped : s.cache.count ≤ (getCapacityConfigInternal s).maxCacheEntries
  covered : NeverUnderflows s.cache

/-- What keeps the count right: an entry is replaced by force only where there is one, and the cap
is not set below the count. -/
structure KeepsCacheCount (t : Transition) : Prop where
  replaces : ∀ anchor, t.input.2.overwrites = some anchor → t.pre.cache.metadata.has anchor = true
  roomy : ∀ config, t.input.2 = .setCapacityConfig config →
    t.pre.cache.count ≤ config.maxCacheEntries

section Counting

variable {env : Env} {s : Storage} {c : Call} {st st' : CacheStore}

theorem CacheStore.Sheds.le_count {P : MetadataCache → Prop} {Q : CapabilitiesCache → Prop}
    {freed : UInt64} (h : st.Sheds P Q st' freed.toNat) (hfin : st.Finite)
    (hcount : st.count.toNat = st.size) : freed ≤ st.count := by
  have hsize := (h.size_add hfin).2
  rw [UInt64.le_iff_toNat_le]
  omega

/-- A counter that is right covers every removal. -/
theorem neverUnderflows_of_count (hfin : st.Finite) (hcount : st.count.toNat = st.size) :
    NeverUnderflows st where
  invalidation := by
    intro anchor
    obtain ⟨mid, hsheds, _⟩ := dropAnchor_sheds st anchor
    exact hsheds.le_count hfin hcount
  compaction := by
    intro now anchors out freed h
    exact (compact_sheds compactedTo_start h).le_count hfin hcount

theorem toNat_count_uncount {freed : UInt64} (h : freed ≤ st.count) :
    (uncountCacheEntries st freed).count.toNat = st.count.toNat - freed.toNat := by
  simp only [uncountCacheEntries, if_pos h]
  exact UInt64.toNat_sub_of_le _ _ h

theorem CountsWrite.toNat {entryExists : Bool} {count : UInt64}
    (h : CountsWrite s entryExists count) :
    count.toNat = s.cache.count.toNat + (if entryExists then 0 else 1) := by
  cases entryExists with
  | true =>
    obtain rfl : count = s.cache.count := h
    rfl
  | false =>
    have hnext : s.cache.count.toNat + 1 = count.toNat := h.2
    rw [← hnext]
    rfl

theorem CountsWrite.le_cap {entryExists : Bool} {count : UInt64}
    (h : CountsWrite s entryExists count)
    (hcapped : s.cache.count ≤ (getCapacityConfigInternal s).maxCacheEntries) :
    count ≤ (getCapacityConfigInternal s).maxCacheEntries := by
  cases entryExists with
  | true =>
    obtain rfl : count = s.cache.count := h
    exact hcapped
  | false =>
    obtain ⟨hroom, hnext⟩ : _ < _ ∧ _ = _ := h
    rw [UInt64.lt_iff_toNat_lt] at hroom
    rw [UInt64.le_iff_toNat_le]
    omega

theorem size_set_metadata (hfin : st.Finite) (anchor : Address) (entry : MetadataCache) :
    (st.metadata.set anchor entry).size =
      st.metadata.size + (if st.metadata.has anchor then 0 else 1) := by
  cases h : st.metadata.has anchor with
  | true => exact KeyedStore.size_set_of_has h entry
  | false => exact KeyedStore.size_set_of_free hfin.metadata h entry

theorem size_set_capabilities (hfin : st.Finite) (anchor : Address) (entry : CapabilitiesCache) :
    (st.capabilities.set anchor entry).size =
      st.capabilities.size + (if st.capabilities.has anchor then 0 else 1) := by
  cases h : st.capabilities.has anchor with
  | true => exact KeyedStore.size_set_of_has h entry
  | false => exact KeyedStore.size_set_of_free hfin.capabilities h entry

/-- From a right count, a call leads to a right one exactly when it forces no entry in where there
is none. -/
theorem CacheStep.counts (h : CacheStep env s c st') (hfin : s.cache.Finite)
    (hcount : s.cache.count.toNat = s.cache.size) :
    st'.Finite ∧ (st'.count.toNat = st'.size ↔
      ∀ anchor, c.overwrites = some anchor → s.cache.metadata.has anchor = true) := by
  unfold CacheStore.size at hcount
  cases h with
  | settled hidle hpolicies => exact ⟨⟨hfin.1, hfin.2⟩, iff_of_true hcount hidle.covered⟩
  | metadata hwritten hcaps hcovered hcounts hgranted =>
    refine ⟨⟨KeyedStore.finite_keys_set hfin.metadata _, hfin.capabilities⟩,
      iff_of_true ?_ (by simp [hcovered])⟩
    simp only [CacheStore.size, size_set_metadata hfin, hcounts.toNat]
    omega
  | @forced c anchor entry hwritten hcaps hover hgranted =>
    refine ⟨⟨KeyedStore.finite_keys_set hfin.metadata _, hfin.capabilities⟩, ?_⟩
    simp only [CacheStore.size, size_set_metadata hfin, hover, Option.some.injEq]
    cases hhas : s.cache.metadata.has anchor <;> simp [hhas, hcount]
  | @revalidated anchor metadata ttl stale hdue =>
    refine ⟨⟨KeyedStore.finite_keys_set hfin.metadata _, hfin.capabilities⟩, ?_⟩
    simp only [CacheStore.size, size_set_metadata hfin, Call.overwrites, Option.some.injEq]
    cases hhas : s.cache.metadata.has anchor <;> simp [hhas, hcount]
  | capabilities hmeta hwritten hcovered hcounts hgranted =>
    refine ⟨⟨hfin.metadata, KeyedStore.finite_keys_set hfin.capabilities _⟩,
      iff_of_true ?_ (by simp [hcovered])⟩
    simp only [CacheStore.size, size_set_capabilities hfin, hcounts.toNat]
    omega
  | marked hidle hfile =>
    have hhas := KeyedStore.has_iff.mpr ⟨_, hfile⟩
    refine ⟨⟨KeyedStore.finite_keys_set hfin.metadata _, hfin.capabilities⟩,
      iff_of_true ?_ hidle.covered⟩
    simp only [CacheStore.size, KeyedStore.size_set_of_has hhas]
    exact hcount
  | shed hidle hsheds =>
    obtain ⟨hfin', hsize⟩ := hsheds.size_add hfin
    have hle := hsheds.le_count hfin hcount
    refine ⟨⟨hfin'.metadata, hfin'.capabilities⟩, iff_of_true ?_ hidle.covered⟩
    rw [toNat_count_uncount (by rwa [hsheds.count_eq]), hsheds.count_eq]
    unfold CacheStore.size at hsize
    unfold CacheStore.size uncountCacheEntries
    dsimp only
    omega

theorem CacheStep.le_cap (h : CacheStep env s c st') (hfin : s.cache.Finite)
    (hcount : s.cache.count.toNat = s.cache.size)
    (hcapped : s.cache.count ≤ (getCapacityConfigInternal s).maxCacheEntries) :
    st'.count ≤ (getCapacityConfigInternal s).maxCacheEntries := by
  cases h with
  | settled | forced | revalidated | marked => exact hcapped
  | metadata hwritten hcaps hcovered hcounts hgranted => exact hcounts.le_cap hcapped
  | capabilities hmeta hwritten hcovered hcounts hgranted => exact hcounts.le_cap hcapped
  | shed hidle hsheds =>
    have hle := hsheds.le_count hfin hcount
    rw [UInt64.le_iff_toNat_le, toNat_count_uncount (by rwa [hsheds.count_eq]), hsheds.count_eq]
    rw [UInt64.le_iff_toNat_le] at hcapped
    omega

end Counting

theorem capacity_of_step {st st' : RegistryStore} {c : Call} (h : RegistryStep st c st') :
    (∃ config, c = .setCapacityConfig config ∧ st'.capacity = some config) ∨
      ((∀ config, c ≠ .setCapacityConfig config) ∧ st'.capacity = st.capacity) := by
  cases h with
  | frame hc =>
    refine Or.inr ⟨fun config heq => hc ?_, rfl⟩
    rw [heq]
    simp [Call.touches]
  | capacity => exact Or.inl ⟨_, rfl, rfl⟩
  | register | registerInSession | reactivate | revoke | revokeAtZero | revokeInSession =>
    refine Or.inr ⟨fun config heq => ?_, rfl⟩
    cases heq

theorem cacheCounted_iff_of_step {host : Host} {t : Transition}
    (ht : step host t.pre t.input = .ok t.post) (hpre : CacheCounted t.pre) :
    CacheCounted t.post ↔ KeepsCacheCount t := by
  have hstep := cache_step ht
  obtain ⟨hfin, hcount⟩ := hstep.counts hpre.finite hpre.count_eq
  have hle := hstep.le_cap hpre.finite hpre.count_eq hpre.capped
  have hcapped : t.post.cache.count ≤ (getCapacityConfigInternal t.post).maxCacheEntries ↔
      ∀ config, t.input.2 = .setCapacityConfig config →
        t.pre.cache.count ≤ config.maxCacheEntries := by
    rcases capacity_of_step (registry_step ht) with ⟨config, hcall, hcap⟩ | ⟨hother, hcap⟩
    · have hcache : t.post.cache = t.pre.cache :=
        (invoke_sameOutside ht).cache_eq (by simp [hcall, Call.touches])
      have hnew : getCapacityConfigInternal t.post = config := by
        rw [getCapacityConfigInternal, hcap]
        rfl
      rw [hnew, hcache, hcall]
      simp
    · have hsame : getCapacityConfigInternal t.post = getCapacityConfigInternal t.pre := by
        rw [getCapacityConfigInternal, hcap]
        rfl
      rw [hsame]
      exact iff_of_true hle fun config hcall => absurd hcall (hother config)
  constructor
  · intro hpost
    exact ⟨hcount.mp hpost.count_eq, hcapped.mp hpost.capped⟩
  · intro hgood
    have hright := hcount.mpr hgood.replaces
    exact ⟨hfin, hright, hcapped.mpr hgood.roomy, neverUnderflows_of_count hfin hright⟩

theorem cacheCounted_empty : CacheCounted .empty := by
  have hfin : Storage.empty.cache.Finite := by
    constructor
    · rw [show Storage.empty.cache.metadata = .empty from rfl, KeyedStore.keys_empty]
      exact Set.finite_empty
    · rw [show Storage.empty.cache.capabilities = .empty from rfl, KeyedStore.keys_empty]
      exact Set.finite_empty
  have hcount : Storage.empty.cache.count.toNat = Storage.empty.cache.size := by
    have hmeta : Storage.empty.cache.metadata.size = 0 := KeyedStore.size_empty
    have hcaps : Storage.empty.cache.capabilities.size = 0 := KeyedStore.size_empty
    rw [CacheStore.size, hmeta, hcaps]
    rfl
  exact ⟨hfin, hcount, by decide, neverUnderflows_of_count hfin hcount⟩

/-- In every state of a run the counter is the number of cache entries, below the cap and enough
for every removal, exactly when the run forces no entry in where there is none and never sets the
cap below the count. -/
theorem cacheCounted_iff (host : Host) (is : List Input) :
    (∀ js, js <+: is → CacheCounted (run host js)) ↔ ∀ t ∈ history host is, KeepsCacheCount t :=
  Machine.forall_prefix_invariant_iff (step host) (fun _ s => CacheCounted s) (fun _ _ => True)
    KeepsCacheCount cacheCounted_empty trivial
    (fun _ _ ht _ hpre => cacheCounted_iff_of_step ht hpre) (fun _ _ _ _ _ _ => trivial) is

namespace Demo

def forcedAlice : List Input :=
  [deploy, onLedger 1 (.forceRefreshMetadata alice aliceMetadata 60 300)]

end Demo

/-- A forced refresh of an anchor without an entry stores one that is never counted. -/
theorem uncounted_after_forced_refresh :
    ¬ ∀ js, js <+: Demo.forcedAlice → CacheCounted (run Demo.host js) := by
  intro h
  have hcovered := (h _ List.prefix_rfl).covered.invalidation Demo.alice
  have hshort : ¬ occupiedSlots (run Demo.host Demo.forcedAlice).cache Demo.alice ≤
      (run Demo.host Demo.forcedAlice).cache.count := by decide
  exact hshort hcovered

end AnchorKit
