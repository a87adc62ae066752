import AnchorKit.Cache
import AnchorKit.Library.KeyCount

/-!
# Sweeping the caches

Compaction and invalidation drop entries one at a time and count what they drop. A compaction
drops the entries that have outlived their time to live, an invalidation those of one anchor.
-/

namespace AnchorKit

open Fallible
open KeyedStore (Dropped)

/-- `freed` entries were dropped, each for its reason, and nothing else has changed. -/
structure CacheStore.Sheds (P : MetadataCache → Prop) (Q : CapabilitiesCache → Prop)
    (st st' : CacheStore) (freed : ℕ) : Prop where
  rest : st' = { st with metadata := st'.metadata, capabilities := st'.capabilities }
  dropped : ∃ m n, m + n = freed ∧ Dropped P st.metadata st'.metadata m ∧
    Dropped Q st.capabilities st'.capabilities n

/-- The stale window of the entry is over. -/
def MetadataCache.OutlivedAt (now : UInt64) (entry : MetadataCache) : Prop :=
  Word.saturatingAdd64 entry.cachedAt
    (Word.saturatingAdd64 entry.ttlSeconds entry.staleTtlSeconds) ≤ now

def CapabilitiesCache.OutlivedAt (now : UInt64) (entry : CapabilitiesCache) : Prop :=
  Word.saturatingAdd64 entry.cachedAt entry.ttlSeconds ≤ now

noncomputable def CacheStore.size (st : CacheStore) : ℕ := st.metadata.size + st.capabilities.size

structure CacheStore.Finite (st : CacheStore) : Prop where
  metadata : st.metadata.keys.Finite
  capabilities : st.capabilities.keys.Finite

namespace CacheStore.Sheds

variable {P : MetadataCache → Prop} {Q : CapabilitiesCache → Prop} {st mid : CacheStore} {n : ℕ}
  {anchor : Address}

theorem nothing : Sheds P Q st st 0 := ⟨rfl, 0, 0, rfl, .nothing, .nothing⟩

theorem next_metadata (h : Sheds P Q st mid n) {entry : MetadataCache}
    (hget : mid.metadata.get anchor = some entry) (hp : P entry) :
    Sheds P Q st { mid with metadata := mid.metadata.remove anchor } (n + 1) := by
  obtain ⟨hrest, i, j, hn, hm, hc⟩ := h
  refine ⟨?_, i + 1, j, by omega, hm.next hget hp, hc⟩
  rw [hrest]

theorem next_capabilities (h : Sheds P Q st mid n) {entry : CapabilitiesCache}
    (hget : mid.capabilities.get anchor = some entry) (hq : Q entry) :
    Sheds P Q st { mid with capabilities := mid.capabilities.remove anchor } (n + 1) := by
  obtain ⟨hrest, i, j, hn, hm, hc⟩ := h
  refine ⟨?_, i, j + 1, by omega, hm, hc.next hget hq⟩
  rw [hrest]

theorem count_eq (h : Sheds P Q st mid n) : mid.count = st.count := by rw [h.rest]

theorem policies_eq (h : Sheds P Q st mid n) : mid.policies = st.policies := by rw [h.rest]

theorem size_add (h : Sheds P Q st mid n) (hfin : st.Finite) :
    mid.Finite ∧ mid.size + n = st.size := by
  obtain ⟨_, i, j, hn, hm, hc⟩ := h
  obtain ⟨hmfin, hmsize⟩ := hm.size_add hfin.metadata
  obtain ⟨hcfin, hcsize⟩ := hc.size_add hfin.capabilities
  refine ⟨⟨hmfin, hcfin⟩, ?_⟩
  unfold CacheStore.size
  omega

end CacheStore.Sheds

/-- The two halves of a visit. -/
def sweepMetadata (now : UInt64) (anchor : Address) (st : CacheStore) (freed : UInt64) :
    Except Panic (CacheStore × UInt64) :=
  match st.metadata.get anchor with
  | some entry =>
    if Word.saturatingAdd64 entry.cachedAt
        (Word.saturatingAdd64 entry.ttlSeconds entry.staleTtlSeconds) ≤ now then do
      let freed ← add64 freed 1
      return ({ st with metadata := st.metadata.remove anchor }, freed)
    else .ok (st, freed)
  | none => .ok (st, freed)

def sweepCapabilities (now : UInt64) (anchor : Address) (st : CacheStore) (freed : UInt64) :
    Except Panic (CacheStore × UInt64) :=
  match st.capabilities.get anchor with
  | some entry =>
    if Word.saturatingAdd64 entry.cachedAt entry.ttlSeconds ≤ now then do
      let freed ← add64 freed 1
      return ({ st with capabilities := st.capabilities.remove anchor }, freed)
    else .ok (st, freed)
  | none => .ok (st, freed)

theorem compactAnchor_eq (now freed : UInt64) (anchor : Address) (st : CacheStore) :
    compactAnchor now (st, freed) anchor = (do
      let (st, freed) ← sweepMetadata now anchor st freed
      sweepCapabilities now anchor st freed) := by
  unfold compactAnchor sweepMetadata
  dsimp only
  cases st.metadata.get anchor with
  | none => rfl
  | some entry =>
    dsimp only
    split
    · cases add64 freed 1 with
      | error e => rfl
      | ok f => rfl
    · rfl

section Sweep

variable {st mid out : CacheStore} {now freed freed' : UInt64} {anchor : Address}

/-- What a compaction at `now` has dropped so far. -/
def CacheStore.CompactedTo (st : CacheStore) (now : UInt64) (mid : CacheStore) (freed : UInt64) :
    Prop :=
  st.Sheds (MetadataCache.OutlivedAt now) (CapabilitiesCache.OutlivedAt now) mid freed.toNat

theorem compactedTo_start : st.CompactedTo now st 0 := CacheStore.Sheds.nothing

theorem sweepMetadata_sheds (hsheds : st.CompactedTo now mid freed)
    (h : sweepMetadata now anchor mid freed = .ok (out, freed')) :
    st.CompactedTo now out freed' := by
  unfold sweepMetadata at h
  split at h
  · rename_i entry hget
    split at h
    · rename_i hover
      simp only [bind_eq_ok, add64_eq_ok, pure_eq_ok, Prod.mk.injEq] at h
      obtain ⟨f, hnext, rfl, rfl⟩ := h
      rw [CacheStore.CompactedTo, ← hnext]
      exact hsheds.next_metadata hget hover
    · obtain ⟨rfl, rfl⟩ := Prod.mk.inj (Except.ok.inj h)
      exact hsheds
  · obtain ⟨rfl, rfl⟩ := Prod.mk.inj (Except.ok.inj h)
    exact hsheds

theorem sweepCapabilities_sheds (hsheds : st.CompactedTo now mid freed)
    (h : sweepCapabilities now anchor mid freed = .ok (out, freed')) :
    st.CompactedTo now out freed' := by
  unfold sweepCapabilities at h
  split at h
  · rename_i entry hget
    split at h
    · rename_i hover
      simp only [bind_eq_ok, add64_eq_ok, pure_eq_ok, Prod.mk.injEq] at h
      obtain ⟨f, hnext, rfl, rfl⟩ := h
      rw [CacheStore.CompactedTo, ← hnext]
      exact hsheds.next_capabilities hget hover
    · obtain ⟨rfl, rfl⟩ := Prod.mk.inj (Except.ok.inj h)
      exact hsheds
  · obtain ⟨rfl, rfl⟩ := Prod.mk.inj (Except.ok.inj h)
    exact hsheds

/-- A compaction drops nothing but outlived entries, and counts them all. -/
theorem compact_sheds {anchors : List Address} (hsheds : st.CompactedTo now mid freed)
    (h : anchors.foldlM (compactAnchor now) (mid, freed) = .ok (out, freed')) :
    st.CompactedTo now out freed' := by
  induction anchors generalizing mid freed with
  | nil =>
    rw [List.foldlM_nil, pure_eq_ok] at h
    obtain ⟨rfl, rfl⟩ := Prod.mk.inj h
    exact hsheds
  | cons anchor anchors ih =>
    simp only [List.foldlM_cons, compactAnchor_eq, bind_eq_ok] at h
    obtain ⟨⟨next, f⟩, ⟨⟨between, g⟩, hmeta, hcaps⟩, h⟩ := h
    exact ih (sweepCapabilities_sheds (sweepMetadata_sheds hsheds hmeta) hcaps) h

theorem succeeds_compactCache {env : Env} {s : Storage} {anchors : List Address}
    (hadmin : requireAdmin env s = .ok ())
    (hsweep : anchors.foldlM (compactAnchor env.timestamp) (s.cache, 0) = .ok (out, freed))
    (hwritable : AdminAuditLog.Writable s) : Succeeds (compactCache env s anchors) := by
  unfold compactCache
  rw [succeeds_bind]
  refine ⟨(), hadmin, ?_⟩
  rw [succeeds_bind]
  refine ⟨(out, freed), hsweep, ?_⟩
  dsimp only
  split
  · obtain ⟨admin, hsome, _⟩ := requireAdmin_eq_ok.mp hadmin
    rw [succeeds_bind]
    refine ⟨admin, expect_eq_ok.mpr hsome, ?_⟩
    rw [succeeds_bind]
    have hafter : AdminAuditLog.Writable { s with cache := uncountCacheEntries out freed } :=
      hwritable
    obtain ⟨t, hlog⟩ := AdminAuditLog.succeeds_logAction.mpr hafter
    exact ⟨t, hlog, succeeds_pure _⟩
  · exact succeeds_pure _

end Sweep

/-- Dropping an anchor's entries counts both of them. -/
theorem dropAnchor_sheds (st : CacheStore) (anchor : Address) :
    ∃ mid, st.Sheds (fun _ => True) (fun _ => True) mid (occupiedSlots st anchor).toNat ∧
      st.dropAnchor anchor = uncountCacheEntries mid (occupiedSlots st anchor) := by
  have hone : ((1 : UInt64) + 0).toNat = 1 := rfl
  have htwo : ((1 : UInt64) + 1).toNat = 2 := rfl
  refine ⟨{ st with
    metadata := st.metadata.remove anchor, capabilities := st.capabilities.remove anchor }, ?_, rfl⟩
  unfold occupiedSlots
  cases hm : st.metadata.has anchor with
  | false =>
    rw [KeyedStore.remove_of_has_eq_false hm]
    cases hc : st.capabilities.has anchor with
    | false =>
      rw [KeyedStore.remove_of_has_eq_false hc]
      exact .nothing
    | true =>
      obtain ⟨entry, hget⟩ := KeyedStore.has_iff.mp hc
      exact CacheStore.Sheds.nothing.next_capabilities hget trivial
  | true =>
    obtain ⟨entry, hget⟩ := KeyedStore.has_iff.mp hm
    have hfirst : st.Sheds (fun _ => True) (fun _ => True)
        { st with metadata := st.metadata.remove anchor } 1 :=
      CacheStore.Sheds.nothing.next_metadata hget trivial
    cases hc : st.capabilities.has anchor with
    | false =>
      rw [KeyedStore.remove_of_has_eq_false hc]
      exact hfirst
    | true =>
      obtain ⟨other, hother⟩ := KeyedStore.has_iff.mp hc
      exact hfirst.next_capabilities hother trivial

end AnchorKit
