import AnchorKit.CacheSweeps
import AnchorKit.Contract

/-!
# When the readers of the metadata cache agree

Each reader is characterized by the ages at which it serves an entry. They differ at the very
ages where the two windows of an entry end, and beyond the range of the clock.
-/

namespace AnchorKit

open Fallible

namespace MetadataCache

def FreshAt (entry : MetadataCache) (now : UInt64) : Prop :=
  Word.saturatingSub64 now entry.cachedAt ≤ entry.ttlSeconds

/-- The age of the entry is within its stale window. -/
def UsableAt (entry : MetadataCache) (now : UInt64) : Prop :=
  Word.saturatingSub64 now entry.cachedAt ≤
    Word.saturatingAdd64 entry.ttlSeconds entry.staleTtlSeconds

variable {entry : MetadataCache} {now : UInt64}

theorem freshAt_iff :
    entry.FreshAt now ↔ now.toNat ≤ entry.cachedAt.toNat + entry.ttlSeconds.toNat := by
  rw [FreshAt, UInt64.le_iff_toNat_le, Word.toNat_saturatingSub64]
  omega

theorem FreshAt.usable (h : entry.FreshAt now) : entry.UsableAt now := by
  unfold FreshAt at h
  unfold UsableAt
  rw [UInt64.le_iff_toNat_le] at h ⊢
  rw [Word.toNat_saturatingAdd64]
  have hage := (Word.saturatingSub64 now entry.cachedAt).toNat_lt
  omega

theorem outlived_usable_iff : (entry.OutlivedAt now ∧ entry.UsableAt now) ↔
    now = Word.saturatingAdd64 entry.cachedAt
      (Word.saturatingAdd64 entry.ttlSeconds entry.staleTtlSeconds) := by
  unfold OutlivedAt UsableAt
  rw [← UInt64.toNat_inj, UInt64.le_iff_toNat_le, UInt64.le_iff_toNat_le,
    Word.toNat_saturatingAdd64 entry.cachedAt, Word.toNat_saturatingSub64]
  have hnow := now.toNat_lt
  omega

end MetadataCache

section Readers

variable {env : Env} {s : Storage} {anchor : Address} {entry : MetadataCache}

theorem getCachedMetadata_serves_iff (hfile : s.cache.metadata.get anchor = some entry) :
    getCachedMetadata env s anchor = .ok entry.metadata ↔
      entry.cachedAt.toNat + entry.ttlSeconds.toNat < 2 ^ 64 ∧
        env.timestamp.toNat < entry.cachedAt.toNat + entry.ttlSeconds.toNat := by
  simp only [getCachedMetadata, hfile, expect_some_bind, bind_eq_ok, add64_eq_ok, require_eq_ok,
    pure_eq_ok, UInt64.le_iff_toNat_le]
  constructor
  · rintro ⟨expiry, hexpiry, _, hlive, _⟩
    have hlt := expiry.toNat_lt
    omega
  · rintro ⟨hfits, hlive⟩
    have hexpiry : (UInt64.ofNat (entry.cachedAt.toNat + entry.ttlSeconds.toNat)).toNat =
        entry.cachedAt.toNat + entry.ttlSeconds.toNat := UInt64.toNat_ofNat_of_lt' hfits
    exact ⟨_, hexpiry.symm, (), by omega, trivial⟩

theorem succeeds_getCachedMetadata (hfile : s.cache.metadata.get anchor = some entry) :
    Succeeds (getCachedMetadata env s anchor) ↔
      getCachedMetadata env s anchor = .ok entry.metadata := by
  constructor
  · rintro ⟨metadata, h⟩
    have hsame : entry.metadata = metadata := by
      simp only [getCachedMetadata, hfile, expect_some_bind, bind_eq_ok, pure_eq_ok] at h
      obtain ⟨_, _, _, _, hsame⟩ := h
      exact hsame
    rw [h, hsame]
  · intro h
    exact ⟨_, h⟩

theorem cacheState_fresh_iff (hfile : s.cache.metadata.get anchor = some entry) :
    getMetadataCacheState env s anchor = .fresh ↔ entry.FreshAt env.timestamp := by
  simp only [getMetadataCacheState, hfile, MetadataCache.FreshAt]
  split
  · simp [*]
  · split <;> simp [*]

theorem cacheState_stale_iff (hfile : s.cache.metadata.get anchor = some entry) :
    getMetadataCacheState env s anchor = .stale ↔
      ¬ entry.FreshAt env.timestamp ∧ entry.UsableAt env.timestamp := by
  simp only [getMetadataCacheState, hfile, MetadataCache.FreshAt, MetadataCache.UsableAt]
  split
  · simp [*]
  · split <;> simp [*]

/-- The stale-while-revalidate reader serves an entry while it is usable, and asks for a refresh
once it is no longer fresh. -/
theorem getCachedMetadataSwr_serves_iff (hfile : s.cache.metadata.get anchor = some entry)
    {due : Bool} : (∃ s', getCachedMetadataSwr env s anchor = .ok (s', entry.metadata, due)) ↔
      entry.UsableAt env.timestamp ∧ (due = true ↔ ¬ entry.FreshAt env.timestamp) := by
  by_cases hfresh : entry.FreshAt env.timestamp
  · have husable := hfresh.usable
    have hcheck := hfresh
    unfold MetadataCache.FreshAt at hcheck
    simp only [getCachedMetadataSwr, hfile, expect_some_bind, if_pos hcheck]
    cases due <;> simp [hfresh, husable]
  · have hcheck := hfresh
    unfold MetadataCache.FreshAt at hcheck
    simp only [getCachedMetadataSwr, hfile, expect_some_bind, if_neg hcheck]
    by_cases husable : entry.UsableAt env.timestamp
    · have hwindow := husable
      unfold MetadataCache.UsableAt at hwindow
      cases due <;> simp [hfresh, husable, hwindow]
    · have hwindow := husable
      unfold MetadataCache.UsableAt at hwindow
      simp [husable, hwindow]

theorem succeeds_getCachedMetadataSwr (hfile : s.cache.metadata.get anchor = some entry) :
    Succeeds (getCachedMetadataSwr env s anchor) ↔ entry.UsableAt env.timestamp := by
  constructor
  · rintro ⟨⟨s', metadata, due⟩, h⟩
    have hsame : metadata = entry.metadata := by
      simp only [getCachedMetadataSwr, hfile, expect_some_bind] at h
      split at h
      · cases h
        rfl
      · split at h
        · cases h
          rfl
        · cases h
    rw [hsame] at h
    exact ((getCachedMetadataSwr_serves_iff hfile).mp ⟨s', h⟩).1
  · intro husable
    by_cases hfresh : entry.FreshAt env.timestamp
    · have hserved : ∃ s', getCachedMetadataSwr env s anchor = .ok (s', entry.metadata, false) :=
        (getCachedMetadataSwr_serves_iff hfile).mpr ⟨husable, by simp [hfresh]⟩
      obtain ⟨s', h⟩ := hserved
      exact ⟨_, h⟩
    · have hserved : ∃ s', getCachedMetadataSwr env s anchor = .ok (s', entry.metadata, true) :=
        (getCachedMetadataSwr_serves_iff hfile).mpr ⟨husable, by simp [hfresh]⟩
      obtain ⟨s', h⟩ := hserved
      exact ⟨_, h⟩

/-- A compaction drops an entry only when its stale window is over. -/
theorem compactCache_outlived (hfile : s.cache.metadata.get anchor = some entry)
    {anchors : List Address} {s' : Storage} {freed : UInt64}
    (h : compactCache env s anchors = .ok (s', freed))
    (hgone : s'.cache.metadata.get anchor = none) : entry.OutlivedAt env.timestamp := by
  obtain ⟨out, hswept, ring, events, rfl⟩ := compactCache_effects h
  obtain ⟨_, m, n, _, hdropped, _⟩ := compact_sheds compactedTo_start hswept
  exact hdropped.of_get_eq_none hfile hgone

end Readers

/-- All readers agree on an entry under an anchor, and no compaction drops what they serve. -/
structure AgreeOn (env : Env) (s : Storage) (anchor : Address) (entry : MetadataCache) : Prop where
  served : getCachedMetadata env s anchor = .ok entry.metadata ↔
    getMetadataCacheState env s anchor = .fresh
  fresh : getMetadataCacheState env s anchor = .fresh ↔
    ∃ s', getCachedMetadataSwr env s anchor = .ok (s', entry.metadata, false)
  stale : getMetadataCacheState env s anchor = .stale ↔
    ∃ s', getCachedMetadataSwr env s anchor = .ok (s', entry.metadata, true)
  kept : ∀ anchors s' freed, compactCache env s anchors = .ok (s', freed) →
    s'.cache.metadata.get anchor = none →
    ¬ Succeeds (getCachedMetadata env s anchor) ∧ ¬ Succeeds (getCachedMetadataSwr env s anchor)

/-- Wherever the entry is stored, the readers at `now` agree on it and a compaction keeps what
they serve. -/
def FreshnessAgreed (entry : MetadataCache) (now : UInt64) : Prop :=
  ∀ env s anchor, env.timestamp = now → s.cache.metadata.get anchor = some entry →
    AgreeOn env s anchor entry

/-- A storage that holds the entry and nothing else but an admin. -/
def Storage.holding (entry : MetadataCache) : Storage :=
  { Storage.empty with
    access := { Storage.empty.access with admin := some Demo.admin }
    cache := { Storage.empty.cache with
      metadata := KeyedStore.empty.set Demo.alice entry } }

theorem get_holding (entry : MetadataCache) :
    (Storage.holding entry).cache.metadata.get Demo.alice = some entry :=
  KeyedStore.get_set_self _ _ _

theorem compactCache_holding {entry : MetadataCache} {now : UInt64}
    (hover : entry.OutlivedAt now) :
    ∃ s' freed, compactCache ⟨now, 0, [Demo.admin]⟩ (Storage.holding entry) [Demo.alice] =
      .ok (s', freed) ∧ s'.cache.metadata.get Demo.alice = none := by
  have hadd : add64 0 1 = .ok 1 := rfl
  have hsweep : sweepMetadata now Demo.alice (Storage.holding entry).cache 0 =
      .ok ({ (Storage.holding entry).cache with
        metadata := (Storage.holding entry).cache.metadata.remove Demo.alice }, 1) := by
    unfold MetadataCache.OutlivedAt at hover
    simp only [sweepMetadata, get_holding, if_pos hover, hadd]
    rfl
  have hcompact : [Demo.alice].foldlM (compactAnchor now) ((Storage.holding entry).cache, 0) =
      .ok ({ (Storage.holding entry).cache with
        metadata := (Storage.holding entry).cache.metadata.remove Demo.alice }, 1) := by
    simp only [List.foldlM_cons, List.foldlM_nil, compactAnchor_eq, hsweep]
    rfl
  have hadmin : requireAdmin ⟨now, 0, [Demo.admin]⟩ (Storage.holding entry) = .ok () :=
    requireAdmin_eq_ok.mpr ⟨Demo.admin, rfl, List.mem_singleton_self _⟩
  have hwritable : AdminAuditLog.Writable (Storage.holding entry) :=
    Or.inr ⟨(by decide : (31536000 : UInt64).toNat < 2 ^ 32), (by decide : 0 + 1 < 2 ^ 64)⟩
  obtain ⟨⟨s', freed⟩, h⟩ := succeeds_compactCache hadmin hcompact hwritable
  obtain ⟨out, hswept, ring, events, rfl⟩ := compactCache_effects h
  rw [hcompact] at hswept
  obtain ⟨rfl, rfl⟩ := Prod.mk.inj (Except.ok.inj hswept)
  exact ⟨_, _, h, KeyedStore.get_remove_self _ _⟩

/-- The readers of an entry agree at a time exactly when its expiry is on the clock, the time is
not the expiry, and the time is not the end of the stale window. -/
theorem freshnessAgreed_iff (entry : MetadataCache) (now : UInt64) :
    FreshnessAgreed entry now ↔
      entry.cachedAt.toNat + entry.ttlSeconds.toNat < 2 ^ 64 ∧
        now.toNat ≠ entry.cachedAt.toNat + entry.ttlSeconds.toNat ∧
        now ≠ Word.saturatingAdd64 entry.cachedAt
          (Word.saturatingAdd64 entry.ttlSeconds entry.staleTtlSeconds) := by
  constructor
  · intro h
    have hfile := get_holding entry
    have hagree := h ⟨now, 0, [Demo.admin]⟩ (Storage.holding entry) Demo.alice rfl hfile
    have hserved := hagree.served
    rw [getCachedMetadata_serves_iff hfile, cacheState_fresh_iff hfile,
      MetadataCache.freshAt_iff] at hserved
    dsimp only at hserved
    have hnow := now.toNat_lt
    refine ⟨by omega, by omega, fun hend => ?_⟩
    obtain ⟨hover, husable⟩ := MetadataCache.outlived_usable_iff.mpr hend
    obtain ⟨s', freed, hcompact, hgone⟩ := compactCache_holding hover
    exact (hagree.kept _ _ _ hcompact hgone).2 ((succeeds_getCachedMetadataSwr hfile).mpr husable)
  · rintro ⟨hfits, hexpiry, hend⟩ env s anchor rfl hfile
    have hserved : getCachedMetadata env s anchor = .ok entry.metadata ↔
        entry.FreshAt env.timestamp := by
      rw [getCachedMetadata_serves_iff hfile, MetadataCache.freshAt_iff]
      omega
    refine ⟨?_, ?_, ?_, ?_⟩
    · rw [hserved, cacheState_fresh_iff hfile]
    · rw [cacheState_fresh_iff hfile, getCachedMetadataSwr_serves_iff hfile]
      constructor
      · intro hfresh
        exact ⟨hfresh.usable, by simp [hfresh]⟩
      · rintro ⟨_, hdue⟩
        simpa using hdue
    · rw [cacheState_stale_iff hfile, getCachedMetadataSwr_serves_iff hfile]
      simp [and_comm]
    · intro anchors s' freed hcompact hgone
      have hover := compactCache_outlived hfile hcompact hgone
      have hunusable : ¬ entry.UsableAt env.timestamp := fun husable =>
        hend (MetadataCache.outlived_usable_iff.mp ⟨hover, husable⟩)
      rw [succeeds_getCachedMetadata hfile, hserved, succeeds_getCachedMetadataSwr hfile]
      exact ⟨fun hfresh => hunusable hfresh.usable, hunusable⟩

namespace Demo

def cachedAlice : List Input := [deploy, onLedger 1 (.cacheMetadata alice aliceMetadata 60)]

end Demo

/-- In the second its time to live ends, an entry counts as fresh and is refused all the same. -/
theorem freshness_disagreed_at_expiry : ¬ ∀ entry now, FreshnessAgreed entry now := by
  intro h
  have hfile : (run Demo.host Demo.cachedAlice).cache.metadata.get Demo.alice =
      some ⟨Demo.aliceMetadata, 1000, 60, 300, false⟩ := by decide
  have hagree := h _ 1060 ⟨1060, 2, []⟩ (run Demo.host Demo.cachedAlice) Demo.alice rfl hfile
  have hrefused : ¬ (1060 : UInt64).toNat < (1000 : UInt64).toNat + (60 : UInt64).toNat := by decide
  exact hrefused ((getCachedMetadata_serves_iff hfile).mp (hagree.served.mpr (by decide))).2

end AnchorKit
