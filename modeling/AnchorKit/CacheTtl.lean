import AnchorKit.CacheInvariants

/-!
# Times to live within the policy

Every path that writes a cache entry has to clamp its time to live into the band of the policy in
force. The last write of an entry tells under which policy it was made.
-/

namespace AnchorKit

open Fallible

namespace CachePolicy

def Admits (p : CachePolicy) (ttl : UInt64) : Prop := p.minTtlSeconds ≤ ttl ∧ ttl ≤ p.maxTtlSeconds

instance (p : CachePolicy) (ttl : UInt64) : Decidable (p.Admits ttl) :=
  inferInstanceAs (Decidable (_ ∧ _))

def Banded (p : CachePolicy) : Prop := p.minTtlSeconds < p.maxTtlSeconds

theorem banded_of_validate {p : CachePolicy} (h : p.validate = .ok ()) : p.Banded := by
  simp only [validate, require_bind_eq_ok] at h
  exact h.2.1

theorem admits_clampTtl {p : CachePolicy} (h : p.Banded) (requested : UInt64) :
    p.Admits (p.clampTtl requested) := by
  have hlt : p.minTtlSeconds.toNat < p.maxTtlSeconds.toNat := UInt64.lt_iff_toNat_lt.mp h
  unfold Admits clampTtl
  split
  · have hmax := p.maxTtlSeconds.toNat_lt
    have hhalf : (Word.saturatingSub64 p.maxTtlSeconds p.minTtlSeconds / 2).toNat =
        (p.maxTtlSeconds.toNat - p.minTtlSeconds.toNat) / 2 := by
      rw [UInt64.toNat_div, Word.toNat_saturatingSub64]
      rfl
    rw [UInt64.le_iff_toNat_le, UInt64.le_iff_toNat_le, Word.toNat_saturatingAdd64, hhalf]
    omega
  · rw [UInt64.le_iff_toNat_le, UInt64.le_iff_toNat_le, Word.toNat_min64, Word.toNat_max64]
    omega

end CachePolicy

def PoliciesBanded (s : Storage) : Prop :=
  ∀ entryType, (CacheGovernance.getPolicy s entryType).Banded

theorem banded_of_validated {set : CachePolicySet} (h : set.validate = .ok ())
    (entryType : CacheEntryType) : (set.forType entryType).Banded := by
  simp only [CachePolicySet.validate, bind_eq_ok] at h
  obtain ⟨_, hmeta, _, hcaps, hother⟩ := h
  cases entryType with
  | metadata => exact CachePolicy.banded_of_validate hmeta
  | capabilities => exact CachePolicy.banded_of_validate hcaps
  | other => exact CachePolicy.banded_of_validate hother

theorem policiesBanded_of_policies {s s' : Storage} (h : PoliciesBanded s)
    (hpolicies : s'.cache.policies = s.cache.policies) : PoliciesBanded s' := by
  intro entryType
  have hset : CacheGovernance.getPolicySet s' = CacheGovernance.getPolicySet s := by
    rw [CacheGovernance.getPolicySet, hpolicies]
    rfl
  rw [CacheGovernance.getPolicy, hset]
  exact h entryType

theorem policiesBanded_empty : PoliciesBanded .empty := by
  have hdefault : (CachePolicySet.defaultSet).validate = .ok () := by decide
  exact fun entryType => banded_of_validated hdefault entryType

theorem policiesBanded_of_step {env : Env} {s s' : Storage} {c : Call}
    (h : CacheStep env s c s'.cache) (hpre : PoliciesBanded s) : PoliciesBanded s' := by
  generalize hcache : s'.cache = st' at h
  cases h with
  | @settled _ _ policies hidle hpolicies =>
    rcases hpolicies with rfl | ⟨set, rfl, hvalid⟩
    · exact policiesBanded_of_policies hpre (congrArg (·.policies) hcache)
    · have hset : CacheGovernance.getPolicySet s' = set := by
        rw [CacheGovernance.getPolicySet, hcache]
        rfl
      intro entryType
      rw [CacheGovernance.getPolicy, hset]
      exact banded_of_validated hvalid entryType
  | metadata | forced | revalidated | capabilities | marked =>
    exact policiesBanded_of_policies hpre (congrArg (·.policies) hcache)
  | shed hidle hsheds =>
    refine policiesBanded_of_policies hpre ?_
    rw [hcache]
    exact hsheds.policies_eq

def CacheStore.ttlOf (st : CacheStore) (anchor : Address) : CacheEntryType → Option UInt64
  | .metadata => (st.metadata.get anchor).map (·.ttlSeconds)
  | .capabilities => (st.capabilities.get anchor).map (·.ttlSeconds)
  | .other => none

def Call.written (env : Env) (s : Storage) (c : Call) : CacheEntryType → Option Address
  | .metadata => c.writtenMetadata env s
  | .capabilities => c.writtenCapabilities
  | .other => none

theorem Call.Idle.written {env : Env} {s : Storage} {c : Call} (h : c.Idle env s)
    (entryType : CacheEntryType) : c.written env s entryType = none := by
  cases entryType with
  | metadata => exact h.metadata
  | capabilities => exact h.capabilities
  | other => rfl

/-- The call writes an entry with the very time to live it was given. -/
inductive StoresRaw (env : Env) (s : Storage) : Call → UInt64 → Prop
  | revalidated {anchor : Address} {metadata : AnchorMetadata} {ttl stale : UInt64}
      (hdue : refreshesNothing env s anchor metadata = false) :
      StoresRaw env s (.refreshMetadataCacheSwr anchor metadata ttl stale) ttl

/-- The time to live a write stores is granted by the policy or the one it was given. -/
def TtlStored (env : Env) (s : Storage) (c : Call) (entryType : CacheEntryType) (ttl : UInt64) :
    Prop :=
  GrantedTtl s entryType ttl ∨ (entryType = .metadata ∧ StoresRaw env s c ttl)

section Steps

variable {env : Env} {s : Storage} {c : Call} {st' : CacheStore} {anchor : Address}
  {entryType : CacheEntryType}

/-- A call that writes an entry leaves it there, with a time to live of one of the two kinds. -/
theorem CacheStep.ttlOf_written (h : CacheStep env s c st')
    (hw : c.written env s entryType = some anchor) :
    ∃ ttl, st'.ttlOf anchor entryType = some ttl ∧ TtlStored env s c entryType ttl := by
  have hbusy : ¬ c.Idle env s := by
    intro hidle
    rw [hidle.written entryType] at hw
    cases hw
  cases h with
  | settled hidle | marked hidle | shed hidle => exact absurd hidle hbusy
  | @metadata _ _ entry _ _ hwritten hcaps hcovered hcounts hgranted
  | @forced _ _ entry hwritten hcaps hover hgranted =>
    cases entryType with
    | metadata =>
      obtain rfl := Option.some.inj (hw.symm.trans hwritten)
      exact ⟨entry.ttlSeconds, by simp [CacheStore.ttlOf], .inl hgranted⟩
    | capabilities => cases hcaps.symm.trans hw
    | other => cases hw
  | revalidated hdue =>
    cases entryType with
    | metadata =>
      simp only [Call.written, Call.writtenMetadata, hdue, Bool.false_eq_true, if_false] at hw
      obtain rfl := Option.some.inj hw
      exact ⟨_, by simp [CacheStore.ttlOf, MetadataCache.fresh], .inr ⟨rfl, .revalidated hdue⟩⟩
    | capabilities => cases hw
    | other => cases hw
  | @capabilities _ _ entry _ _ hmeta hwritten hcovered hcounts hgranted =>
    cases entryType with
    | metadata => cases hmeta.symm.trans hw
    | capabilities =>
      obtain rfl := Option.some.inj (hw.symm.trans hwritten)
      exact ⟨entry.ttlSeconds, by simp [CacheStore.ttlOf], .inl hgranted⟩
    | other => cases hw

/-- A metadata entry that is stored says nothing about the times to live of the others. -/
theorem CacheStore.ttlOf_set_metadata {st : CacheStore} {target : Address} {entry : MetadataCache}
    (hmeta : st'.metadata = st.metadata.set target entry)
    (hcaps : st'.capabilities = st.capabilities)
    (hne : entryType = .metadata → anchor ≠ target) :
    st'.ttlOf anchor entryType = st.ttlOf anchor entryType := by
  cases entryType with
  | metadata =>
    rw [ttlOf, hmeta, KeyedStore.get_set_of_ne _ _ (hne rfl)]
    rfl
  | capabilities =>
    rw [ttlOf, hcaps]
    rfl
  | other => rfl

/-- An entry that a call does not write keeps its time to live or goes. -/
theorem CacheStep.ttlOf_unwritten (h : CacheStep env s c st')
    (hw : c.written env s entryType ≠ some anchor) {ttl : UInt64}
    (hget : st'.ttlOf anchor entryType = some ttl) :
    s.cache.ttlOf anchor entryType = some ttl := by
  cases h with
  | settled => exact hget
  | @metadata _ target entry _ _ hwritten | @forced _ target entry hwritten =>
    have hne : entryType = .metadata → anchor ≠ target := by
      rintro rfl rfl
      exact hw hwritten
    rw [← hget]
    exact Eq.symm (CacheStore.ttlOf_set_metadata rfl rfl hne)
  | @revalidated target metadata _ stale hdue =>
    have hne : entryType = .metadata → anchor ≠ target := by
      rintro rfl rfl
      exact hw (by simp [Call.written, Call.writtenMetadata, hdue])
    rw [← hget]
    exact Eq.symm (CacheStore.ttlOf_set_metadata rfl rfl hne)
  | @capabilities _ target entry _ _ hmeta hwritten =>
    cases entryType with
    | capabilities =>
      have hne : anchor ≠ target := by
        rintro rfl
        exact hw hwritten
      simpa only [CacheStore.ttlOf, KeyedStore.get_set_of_ne _ _ hne] using hget
    | metadata | other => exact hget
  | @marked _ target entry hidle hfile =>
    cases entryType with
    | metadata =>
      by_cases heq : anchor = target
      · subst heq
        simpa [CacheStore.ttlOf, hfile] using hget
      · simpa only [CacheStore.ttlOf, KeyedStore.get_set_of_ne _ _ heq] using hget
    | capabilities | other => exact hget
  | shed hidle hsheds =>
    obtain ⟨_, m, n, _, hm, hc⟩ := hsheds
    cases entryType with
    | metadata =>
      obtain ⟨entry, hentry, rfl⟩ := Option.map_eq_some_iff.mp hget
      simp [CacheStore.ttlOf, hm.get_of_get hentry]
    | capabilities =>
      obtain ⟨entry, hentry, rfl⟩ := Option.map_eq_some_iff.mp hget
      simp [CacheStore.ttlOf, hc.get_of_get hentry]
    | other => exact hget

end Steps

def Transition.Admits (t : Transition) (entryType : CacheEntryType) (ttl : UInt64) : Prop :=
  (CacheGovernance.getPolicy t.pre entryType).Admits ttl

instance (t : Transition) (entryType : CacheEntryType) (ttl : UInt64) :
    Decidable (t.Admits entryType ttl) :=
  inferInstanceAs (Decidable (CachePolicy.Admits _ _))

def Transition.Writes (t : Transition) (entryType : CacheEntryType) (anchor : Address) : Prop :=
  t.input.2.written t.input.1 t.pre entryType = some anchor

/-- The last write of the entry stored this time to live, under a policy that admits it. -/
def WrittenWithin (past : List Transition) (entryType : CacheEntryType) (anchor : Address)
    (ttl : UInt64) : Prop :=
  ∃ before t after, past = before ++ t :: after ∧ t.Writes entryType anchor ∧
    t.post.cache.ttlOf anchor entryType = some ttl ∧
    (∀ u ∈ after, ¬ u.Writes entryType anchor) ∧ t.Admits entryType ttl

/-- Every time to live was inside the band when it was written. -/
def EntriesWithinPolicy (past : List Transition) (s : Storage) : Prop :=
  ∀ entryType anchor ttl, s.cache.ttlOf anchor entryType = some ttl →
    WrittenWithin past entryType anchor ttl

/-- A time to live that is stored as it was given lies inside the band. -/
def KeepsTtlBand (t : Transition) : Prop :=
  ∀ ttl, StoresRaw t.input.1 t.pre t.input.2 ttl → t.Admits .metadata ttl

section Writes

variable {past : List Transition} {t : Transition} {entryType : CacheEntryType} {anchor : Address}
  {ttl : UInt64}

theorem writtenWithin_last (hw : t.Writes entryType anchor)
    (hget : t.post.cache.ttlOf anchor entryType = some ttl) (hin : t.Admits entryType ttl) :
    WrittenWithin (past ++ [t]) entryType anchor ttl :=
  ⟨past, t, [], rfl, hw, hget, by simp, hin⟩

theorem WrittenWithin.snoc (h : WrittenWithin past entryType anchor ttl)
    (hw : ¬ t.Writes entryType anchor) :
    WrittenWithin (past ++ [t]) entryType anchor ttl := by
  obtain ⟨before, u, after, rfl, hwrites, hget, hlater, hin⟩ := h
  exact ⟨before, u, after ++ [t], by simp, hwrites, hget, Machine.forall_mem_snoc.mpr ⟨hlater, hw⟩,
    hin⟩

/-- The last write is the write that has just been made. -/
theorem WrittenWithin.admits_of_writes (h : WrittenWithin (past ++ [t]) entryType anchor ttl)
    (hw : t.Writes entryType anchor) : t.Admits entryType ttl := by
  obtain ⟨before, u, after, heq, hwrites, hget, hlater, hin⟩ := h
  rcases Machine.snoc_eq_split heq with ⟨_, _, rfl⟩ | ⟨rest, rfl, _⟩
  · exact hin
  · exact absurd hw (hlater t (by simp))

end Writes

theorem ttlOf_of_storesRaw {host : Host} {t : Transition} {ttl : UInt64}
    (ht : step host t.pre t.input = .ok t.post)
    (hraw : StoresRaw t.input.1 t.pre t.input.2 ttl) :
    ∃ anchor, t.Writes .metadata anchor ∧ t.post.cache.ttlOf anchor .metadata = some ttl := by
  obtain ⟨pre, ⟨env, c⟩, post⟩ := t
  cases hraw with
  | @revalidated anchor metadata _ stale hdue =>
    change refreshMetadataCacheSwr env pre anchor metadata ttl stale = .ok post at ht
    obtain rfl := refreshMetadataCacheSwr_effects ht
    have hdue' : ¬ refreshesNothing env pre anchor metadata = true := by simpa using hdue
    rw [if_neg hdue']
    refine ⟨anchor, ?_, by simp [CacheStore.ttlOf, storeMetadata, MetadataCache.fresh]⟩
    simpa [Transition.Writes, Call.written, Call.writtenMetadata] using hdue

theorem entriesWithinPolicy_iff_of_step {host : Host} {past : List Transition} {t : Transition}
    (ht : step host t.pre t.input = .ok t.post) (hbanded : PoliciesBanded t.pre)
    (hpre : EntriesWithinPolicy past t.pre) :
    EntriesWithinPolicy (past ++ [t]) t.post ↔ KeepsTtlBand t := by
  have hstep := cache_step ht
  constructor
  · intro hpost ttl hraw
    obtain ⟨anchor, hwrites, hget⟩ := ttlOf_of_storesRaw ht hraw
    exact (hpost .metadata anchor ttl hget).admits_of_writes hwrites
  · intro hgood entryType anchor ttl hget
    by_cases hw : t.Writes entryType anchor
    · obtain ⟨stored, hstored, hkind⟩ := hstep.ttlOf_written hw
      obtain rfl := Option.some.inj (hget.symm.trans hstored)
      refine writtenWithin_last hw hget ?_
      rcases hkind with ⟨requested, rfl⟩ | ⟨rfl, hraw⟩
      · exact CachePolicy.admits_clampTtl (hbanded entryType) requested
      · exact hgood ttl hraw
    · exact (hpre entryType anchor ttl (hstep.ttlOf_unwritten hw hget)).snoc hw

/-- Along a run every cache entry was written inside the band of the policy in force exactly when
every revalidation that stores an entry is given a time to live inside that band. -/
theorem entriesWithinPolicy_iff (host : Host) (is : List Input) :
    (∀ js, js <+: is → EntriesWithinPolicy (history host js) (run host js)) ↔
      ∀ t ∈ history host is, KeepsTtlBand t :=
  Machine.forall_prefix_invariant_iff (step host) EntriesWithinPolicy (fun _ => PoliciesBanded)
    KeepsTtlBand (by intro entryType anchor ttl h; cases entryType <;> cases h)
    policiesBanded_empty
    (fun _ _ ht hbanded hpre => entriesWithinPolicy_iff_of_step ht hbanded hpre)
    (fun _ _ ht hbanded _ _ => policiesBanded_of_step (cache_step ht) hbanded) is

namespace Demo

/-- Five seconds, under the default policy that asks for at least sixty. -/
def revalidatedAlice : List Input :=
  [deploy, onLedger 1 (.refreshMetadataCacheSwr alice aliceMetadata 5 300)]

end Demo

/-- A revalidation stores a time to live of five seconds where the policy asks for sixty. -/
theorem outside_band_after_revalidation :
    ¬ ∀ js, js <+: Demo.revalidatedAlice →
      EntriesWithinPolicy (history Demo.host js) (run Demo.host js) := by
  intro h
  have hstored : (run Demo.host Demo.revalidatedAlice).cache.ttlOf Demo.alice .metadata = some 5 :=
    by decide
  have hnever : ∀ t ∈ history Demo.host Demo.revalidatedAlice, ¬ t.Admits .metadata 5 := by decide
  obtain ⟨before, t, after, hsplit, _, _, _, hin⟩ :=
    h _ List.prefix_rfl .metadata Demo.alice 5 hstored
  have hmem : t ∈ history Demo.host Demo.revalidatedAlice := by
    rw [hsplit]
    exact List.mem_append_right _ List.mem_cons_self
  exact hnever t hmem hin

end AnchorKit
