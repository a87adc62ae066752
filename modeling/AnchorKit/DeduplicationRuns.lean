import AnchorKit.RequestDeduplication

/-!
# What the deduplication store remembers

Outcomes are recorded until they expire. A full store makes room by letting expired entries go, and
drops a record when none is expired, also one of a key that it has.
-/

namespace AnchorKit

open Fallible Machine

namespace DeduplicationStore

/-- The flag in front is the number of removed entries. -/
def purgeExpired (store : DeduplicationStore) (nowSecs : UInt64) : ℕ × DeduplicationStore :=
  let purged := store.retainLive nowSecs
  (store.entries.size - purged.entries.size, purged)

inductive Call
  | recordSuccess (key : DeduplicationKey) (summary : String) (nowSecs : UInt64)
  | recordFailure (key : DeduplicationKey) (error : String) (nowSecs : UInt64)
  | purgeExpired (nowSecs : UInt64)
deriving DecidableEq, Repr

def Call.time : Call → UInt64
  | .recordSuccess _ _ nowSecs | .recordFailure _ _ nowSecs | .purgeExpired nowSecs => nowSecs

def Call.outcome : Call → Option (DeduplicationKey × DeduplicationResult)
  | .recordSuccess key summary _ => some (key, .success summary)
  | .recordFailure key error _ => some (key, .failure error)
  | .purgeExpired _ => none

def perform (store : DeduplicationStore) : Call → DeduplicationStore
  | .recordSuccess key summary nowSecs => store.recordSuccess key summary nowSecs
  | .recordFailure key error nowSecs => store.recordFailure key error nowSecs
  | .purgeExpired nowSecs => (store.purgeExpired nowSecs).2

def step (store : DeduplicationStore) (c : Call) : Except Empty DeduplicationStore :=
  .ok (store.perform c)

abbrev Transition := Machine.Transition DeduplicationStore Call

/-- A record at this time finds no room. -/
def Drops (store : DeduplicationStore) (nowSecs : UInt64) : Prop :=
  0 < store.maxEntries ∧ store.maxEntries ≤ (store.enforceCapacity nowSecs).entries.size

def Accepts (u : Transition) (key : DeduplicationKey) (result : DeduplicationResult) (t₀ : UInt64) :
    Prop :=
  u.input.outcome = some (key, result) ∧ u.input.time = t₀ ∧ ¬ u.pre.Drops t₀

def LatestAccepted (past : List Transition) (key : DeduplicationKey) (result : DeduplicationResult)
    (t₀ : UInt64) : Prop :=
  ∃ before u after, past = before ++ u :: after ∧ Accepts u key result t₀ ∧
    ∀ v ∈ after, ∀ result t, ¬ Accepts v key result t

/-- As many entries as there may be, none of them expired. -/
structure FullOfLive (store : DeduplicationStore) (nowSecs : UInt64) : Prop where
  full : store.entries.size = store.maxEntries
  live : ∀ (k : String) e, store.entries[k]? = some e → nowSecs < e.expiresAt

/-- Only expired entries are let go. -/
structure Sheds (store : DeduplicationStore) (nowSecs : UInt64) (store' : DeduplicationStore) :
    Prop where
  ttl_eq : store'.defaultTtlSecs = store.defaultTtlSecs
  maxEntries_eq : store'.maxEntries = store.maxEntries
  size_le : store'.entries.size ≤ store.entries.size
  sub : ∀ (k : String) e, store'.entries[k]? = some e → store.entries[k]? = some e
  live : ∀ (k : String) e, store.entries[k]? = some e → nowSecs < e.expiresAt →
    store'.entries[k]? = some e

section Steps

variable {store store' : DeduplicationStore} {key : DeduplicationKey} {result : DeduplicationResult}
  {nowSecs t₀ ttl : UInt64} {past : List Transition} {u : Transition} {maxEntries : ℕ}

theorem sheds_refl (store : DeduplicationStore) (nowSecs : UInt64) : Sheds store nowSecs store :=
  ⟨rfl, rfl, le_rfl, fun _ _ h => h, fun _ _ h _ => h⟩

theorem sheds_retainLive (store : DeduplicationStore) (nowSecs : UInt64) :
    Sheds store nowSecs (store.retainLive nowSecs) where
  ttl_eq := rfl
  maxEntries_eq := rfl
  size_le := Std.TreeMap.size_filter_le_size
  sub := by
    intro k e h
    rw [retainLive, Std.TreeMap.getElem?_filter', Option.filter_eq_some_iff] at h
    exact h.1
  live := by
    intro k e h hlive
    rw [retainLive, Std.TreeMap.getElem?_filter', Option.filter_eq_some_iff]
    exact ⟨h, decide_eq_true hlive⟩

theorem sheds_enforceCapacity (store : DeduplicationStore) (nowSecs : UInt64) :
    Sheds store nowSecs (store.enforceCapacity nowSecs) := by
  unfold enforceCapacity
  split
  · exact sheds_refl store nowSecs
  · split
    · exact sheds_retainLive store nowSecs
    · exact sheds_refl store nowSecs

/-- A record that finds no room lets expired entries go and leaves it at that. -/
theorem record_of_drops (h : store.Drops nowSecs) :
    store.record key result nowSecs = store.enforceCapacity nowSecs := by
  have hmax := (sheds_enforceCapacity store nowSecs).maxEntries_eq
  unfold record
  dsimp only
  rw [if_pos]
  rw [hmax]
  exact h

theorem record_of_not_drops (h : ¬ store.Drops nowSecs) :
    store.record key result nowSecs =
      { store.enforceCapacity nowSecs with
        entries := (store.enforceCapacity nowSecs).entries.insert key.asMapKey
          ⟨result, Word.saturatingAdd64 nowSecs store.defaultTtlSecs⟩ } := by
  have hshed := sheds_enforceCapacity store nowSecs
  unfold record
  dsimp only
  rw [if_neg, hshed.ttl_eq]
  rw [hshed.maxEntries_eq]
  exact h

/-- No room means that nothing could be let go. -/
theorem fullOfLive_of_drops (hsize : 0 < store.maxEntries → store.entries.size ≤ store.maxEntries)
    (h : store.Drops nowSecs) : store.FullOfLive nowSecs := by
  obtain ⟨hpos, hle⟩ := h
  have hle' := hle.trans (sheds_enforceCapacity store nowSecs).size_le
  have hfull := le_antisymm (hsize hpos) hle'
  refine ⟨hfull, fun k e hget => ?_⟩
  rw [enforceCapacity, if_neg (by omega), if_pos hle'] at hle
  have hkept : (store.entries.filter fun _ e => decide (nowSecs < e.expiresAt)).size =
      store.entries.size :=
    le_antisymm Std.TreeMap.size_filter_le_size (hfull ▸ hle)
  obtain ⟨hmem, rfl⟩ := Std.TreeMap.getElem?_eq_some_iff.mp hget
  exact of_decide_eq_true (Std.TreeMap.size_filter_eq_size_iff.mp hkept k hmem)

theorem latestAccepted_iff : LatestAccepted past key result t₀ ↔
    Machine.HoldsSince (fun v => Accepts v key result t₀)
      (fun v => ∃ result t, Accepts v key result t) past := by
  simp only [LatestAccepted, Machine.HoldsSince, not_exists]

theorem latestAccepted_snoc : LatestAccepted (past ++ [u]) key result t₀ ↔
    Accepts u key result t₀ ∨
      LatestAccepted past key result t₀ ∧ ∀ result t, ¬ Accepts u key result t := by
  rw [latestAccepted_iff, latestAccepted_iff, Machine.holdsSince_snoc]
  simp only [not_exists]

def UpTo (past : List Transition) (nowSecs : UInt64) : Prop := ∀ v ∈ past, v.input.time ≤ nowSecs

structure Recorded (ttl : UInt64) (maxEntries : ℕ) (past : List Transition)
    (store : DeduplicationStore) : Prop where
  ttl_eq : store.defaultTtlSecs = ttl
  maxEntries_eq : store.maxEntries = maxEntries
  size_le : 0 < maxEntries → store.entries.size ≤ maxEntries
  sound : ∀ (key : DeduplicationKey) e, store.entries[key.asMapKey]? = some e →
    ∃ result t₀, LatestAccepted past key result t₀ ∧ e = ⟨result, Word.saturatingAdd64 t₀ ttl⟩
  complete : ∀ (key : DeduplicationKey) result t₀ nowSecs, LatestAccepted past key result t₀ →
    UpTo past nowSecs → nowSecs < Word.saturatingAdd64 t₀ ttl →
    store.entries[key.asMapKey]? = some ⟨result, Word.saturatingAdd64 t₀ ttl⟩

theorem recorded_empty (ttl : UInt64) (maxEntries : ℕ) :
    Recorded ttl maxEntries [] ⟨ttl, maxEntries, ∅⟩ where
  ttl_eq := rfl
  maxEntries_eq := rfl
  size_le _ := Nat.zero_le _
  sound := by simp
  complete := by
    rintro _ _ _ _ ⟨before, v, after, hsplit, _⟩
    simp at hsplit

/-- A call that accepts nothing may let expired entries go. -/
theorem Recorded.of_sheds (h : Recorded ttl maxEntries past u.pre)
    (hshed : Sheds u.pre u.input.time u.post) (hnot : ∀ key result t, ¬ Accepts u key result t) :
    Recorded ttl maxEntries (past ++ [u]) u.post where
  ttl_eq := hshed.ttl_eq.trans h.ttl_eq
  maxEntries_eq := hshed.maxEntries_eq.trans h.maxEntries_eq
  size_le hpos := hshed.size_le.trans (h.size_le hpos)
  sound := by
    intro key e hget
    obtain ⟨result, t₀, hlatest, he⟩ := h.sound key e (hshed.sub _ e hget)
    exact ⟨result, t₀, latestAccepted_snoc.mpr (Or.inr ⟨hlatest, hnot key⟩), he⟩
  complete := by
    intro key result t₀ nowSecs hlatest hnow hlive
    rw [UpTo, forall_mem_snoc] at hnow
    obtain haccepts | ⟨hlatest, _⟩ := latestAccepted_snoc.mp hlatest
    · exact absurd haccepts (hnot _ _ _)
    · have hold := h.complete key result t₀ nowSecs hlatest hnow.1 hlive
      exact hshed.live _ _ hold (UInt64.lt_of_le_of_lt hnow.2 hlive)

theorem accepts_iff (haccepts : Accepts u key result t₀) {key' : DeduplicationKey}
    {result' : DeduplicationResult} {t : UInt64} :
    Accepts u key' result' t ↔ key' = key ∧ result' = result ∧ t = t₀ := by
  obtain ⟨houtcome, htime, hroom⟩ := haccepts
  constructor
  · rintro ⟨houtcome', htime', _⟩
    obtain ⟨rfl, rfl⟩ := Prod.mk.inj (Option.some.inj (houtcome.symm.trans houtcome'))
    exact ⟨rfl, rfl, htime'.symm.trans htime⟩
  · rintro ⟨rfl, rfl, rfl⟩
    exact ⟨houtcome, htime, hroom⟩

theorem Recorded.of_accepts (h : Recorded ttl maxEntries past u.pre)
    (haccepts : Accepts u key result t₀)
    (hpost : u.post = u.pre.record key result t₀) :
    Recorded ttl maxEntries (past ++ [u]) u.post := by
  have haccepts_iff {key' : DeduplicationKey} {result' : DeduplicationResult} {t : UInt64} :
      Accepts u key' result' t ↔ key' = key ∧ result' = result ∧ t = t₀ := accepts_iff haccepts
  obtain ⟨houtcome, htime, hroom⟩ := haccepts
  have hshed := sheds_enforceCapacity u.pre t₀
  rw [record_of_not_drops hroom, h.ttl_eq] at hpost
  rw [hpost]
  refine ⟨hshed.ttl_eq.trans h.ttl_eq, hshed.maxEntries_eq.trans h.maxEntries_eq, ?_, ?_, ?_⟩
  · intro hpos
    have hmax := h.maxEntries_eq
    have hfree : (u.pre.enforceCapacity t₀).entries.size < u.pre.maxEntries := by
      by_contra hfull
      exact hroom ⟨hmax ▸ hpos, not_lt.mp hfull⟩
    refine Std.TreeMap.size_insert_le.trans ?_
    omega
  · intro key' e hget
    rw [getElem?_insert_asMapKey] at hget
    by_cases hkey : key = key'
    · subst hkey
      rw [if_pos rfl] at hget
      refine ⟨result, t₀, latestAccepted_snoc.mpr (Or.inl ?_), (Option.some.inj hget).symm⟩
      exact haccepts_iff.mpr ⟨rfl, rfl, rfl⟩
    · rw [if_neg hkey] at hget
      obtain ⟨result', t, hlatest, he⟩ := h.sound key' e (hshed.sub _ e hget)
      refine ⟨result', t, latestAccepted_snoc.mpr (Or.inr ⟨hlatest, fun r t' hacc => ?_⟩), he⟩
      exact hkey (haccepts_iff.mp hacc).1.symm
  · intro key' result' t nowSecs hlatest hnow hlive
    rw [UpTo, forall_mem_snoc, htime] at hnow
    rw [getElem?_insert_asMapKey]
    rcases latestAccepted_snoc.mp hlatest with hacc | ⟨hlatest, hnot⟩
    · obtain ⟨rfl, rfl, rfl⟩ := haccepts_iff.mp hacc
      rw [if_pos rfl]
    · have hkey : key ≠ key' := by
        rintro rfl
        exact hnot result t₀ (haccepts_iff.mpr ⟨rfl, rfl, rfl⟩)
      rw [if_neg hkey]
      have hold := h.complete key' result' t nowSecs hlatest hnow.1 hlive
      exact hshed.live _ _ hold (UInt64.lt_of_le_of_lt hnow.2 hlive)

theorem recorded_of_step (ht : step u.pre u.input = .ok u.post)
    (h : Recorded ttl maxEntries past u.pre) : Recorded ttl maxEntries (past ++ [u]) u.post := by
  have hrecord {key : DeduplicationKey} {result : DeduplicationResult}
      (houtcome : u.input.outcome = some (key, result))
      (hpost : u.pre.record key result u.input.time = u.post) :
      Recorded ttl maxEntries (past ++ [u]) u.post := by
    by_cases hdrops : u.pre.Drops u.input.time
    · apply h.of_sheds
      · rw [← hpost, record_of_drops hdrops]
        exact sheds_enforceCapacity _ _
      · rintro key' result' t ⟨_, rfl, hroom⟩
        exact hroom hdrops
    · exact h.of_accepts ⟨houtcome, rfl, hdrops⟩ hpost.symm
  have hpost := Except.ok.inj ht
  cases hinput : u.input with
  | recordSuccess key summary nowSecs =>
    rw [hinput] at hpost
    exact hrecord (by rw [hinput]; rfl) (by rw [hinput]; exact hpost)
  | recordFailure key error nowSecs =>
    rw [hinput] at hpost
    exact hrecord (by rw [hinput]; rfl) (by rw [hinput]; exact hpost)
  | purgeExpired nowSecs =>
    rw [hinput] at hpost
    apply h.of_sheds
    · rw [← hpost, hinput]
      exact sheds_retainLive _ _
    · rintro key result t ⟨houtcome, _⟩
      rw [hinput] at houtcome
      cases houtcome

theorem recorded_run (ttl : UInt64) (maxEntries : ℕ) (calls : List Call) :
    Recorded ttl maxEntries (Machine.transitions step ⟨ttl, maxEntries, ∅⟩ calls)
      (Machine.run step ⟨ttl, maxEntries, ∅⟩ calls) := by
  apply Machine.history_invariant _ _ (fun _ => True)
  · exact recorded_empty ttl maxEntries
  · exact fun past t ht hpre _ => recorded_of_step ht hpre
  · exact fun _ _ => trivial

/-- What is cached at a time that is not before the calls. -/
theorem Recorded.cachedResult_iff (h : Recorded ttl maxEntries past store)
    (hnow : UpTo past nowSecs) :
    store.cachedResult key nowSecs = some result ↔
      ∃ t₀, LatestAccepted past key result t₀ ∧ nowSecs < Word.saturatingAdd64 t₀ ttl := by
  unfold cachedResult
  constructor
  · intro hcached
    cases hget : store.entries[key.asMapKey]? with
    | none =>
      rw [hget] at hcached
      cases hcached
    | some e =>
      obtain ⟨result', t₀, hlatest, rfl⟩ := h.sound key e hget
      rw [hget] at hcached
      obtain ⟨hlive, heq⟩ := Option.ite_none_right_eq_some.mp hcached
      obtain rfl := Option.some.inj heq
      exact ⟨t₀, hlatest, hlive⟩
  · rintro ⟨t₀, hlatest, hlive⟩
    rw [h.complete key result t₀ nowSecs hlatest hnow hlive]
    exact if_pos hlive

end Steps

/-- In every run from a new store: pairs have entries of their own, the cap holds, the cached
outcome is that of the latest accepted record until it expires, or until the clock ends, and a
record is dropped only where no entry could be let go for it. -/
theorem deduplicates {ttl : UInt64} {maxEntries : ℕ} {store : DeduplicationStore}
    (hnew : withCapacity ttl maxEntries = .ok store) (calls : List Call) :
    Function.Injective DeduplicationKey.asMapKey ∧
      (0 < maxEntries → (Machine.run step store calls).entries.size ≤ maxEntries) ∧
      (∀ key result (nowSecs : UInt64), (∀ c ∈ calls, c.time ≤ nowSecs) →
        ((Machine.run step store calls).cachedResult key nowSecs = some result ↔
          ∃ t₀, LatestAccepted (Machine.transitions step store calls) key result t₀ ∧
            t₀ ≤ nowSecs ∧ nowSecs.toNat < min (t₀.toNat + ttl.toNat) (2 ^ 64 - 1))) ∧
      ∀ nowSecs, (Machine.run step store calls).Drops nowSecs →
        (Machine.run step store calls).FullOfLive nowSecs := by
  simp only [withCapacity, require_bind_eq_ok, pure_eq_ok] at hnew
  obtain ⟨_, rfl⟩ := hnew
  have hrun := recorded_run ttl maxEntries calls
  refine ⟨asMapKey_injective, hrun.size_le, ?_, ?_⟩
  · intro key result nowSecs hnow
    have hupTo : UpTo (Machine.transitions step ⟨ttl, maxEntries, ∅⟩ calls) nowSecs := by
      intro v hv
      apply hnow
      exact (Machine.map_input_sublist step _ calls).subset (List.mem_map_of_mem hv)
    rw [hrun.cachedResult_iff hupTo]
    refine exists_congr fun t₀ => and_congr_right fun hlatest => ?_
    obtain ⟨before, u, after, hsplit, ⟨_, htime, _⟩, _⟩ := hlatest
    have hpast : u.input.time ≤ nowSecs :=
      hupTo u (hsplit ▸ List.mem_append_right _ List.mem_cons_self)
    rw [UInt64.lt_iff_toNat_lt, Word.toNat_saturatingAdd64, ← htime, and_iff_right hpast]
  · intro nowSecs
    apply fullOfLive_of_drops
    rw [hrun.maxEntries_eq]
    exact hrun.size_le

namespace Demo

def withdrawal : DeduplicationKey := ⟨"withdrawal", "ref-42"⟩

def deposit : DeduplicationKey := ⟨"deposit", "ref-42"⟩

def refund : DeduplicationKey := ⟨"refund", "ref-42"⟩

/-- The second record takes the place of the first one, and the last one finds no room. -/
def records : List Call :=
  [.recordFailure withdrawal "timeout" 0, .recordSuccess withdrawal "completed" 5,
    .recordSuccess deposit "completed" 6, .recordSuccess refund "completed" 7]

end Demo

theorem deduplicates_records :
    (Machine.run step ⟨60, 2, ∅⟩ Demo.records).entries.size ≤ 2 ∧
      (∃ t₀, LatestAccepted (Machine.transitions step ⟨60, 2, ∅⟩ Demo.records) Demo.withdrawal
        (.success "completed") t₀ ∧ t₀ ≤ 10 ∧
          (10 : UInt64).toNat < min (t₀.toNat + 60) (2 ^ 64 - 1)) ∧
      (¬ ∃ result t₀, LatestAccepted (Machine.transitions step ⟨60, 2, ∅⟩ Demo.records) Demo.refund
        result t₀ ∧ t₀ ≤ 10 ∧ (10 : UInt64).toNat < min (t₀.toNat + 60) (2 ^ 64 - 1)) ∧
      (Machine.run step ⟨60, 2, ∅⟩ Demo.records).FullOfLive 10 := by
  obtain ⟨_, hsize, hcached, hfull⟩ := @deduplicates 60 2 _ rfl Demo.records
  refine ⟨hsize Nat.two_pos, (hcached _ _ 10 (by decide)).mp (by decide +kernel), ?_, ?_⟩
  · rintro ⟨result, hlatest⟩
    have hnone : (Machine.run step ⟨60, 2, ∅⟩ Demo.records).cachedResult Demo.refund 10 = none := by
      decide +kernel
    cases hnone.symm.trans ((hcached _ _ 10 (by decide)).mpr hlatest)
  · exact hfull 10 ⟨by decide +kernel, by decide +kernel⟩

/-- At the last second of the clock nothing that is recorded is cached. -/
theorem last_second_not_cached :
    ¬ ∀ (ttl : UInt64) (maxEntries : ℕ) (store : DeduplicationStore),
      withCapacity ttl maxEntries = .ok store → ∀ calls : List Call,
        calls.Pairwise (fun c d => c.time ≤ d.time) →
        ∀ key result (nowSecs : UInt64), (∀ c ∈ calls, c.time ≤ nowSecs) →
          ((Machine.run step store calls).cachedResult key nowSecs = some result ↔
            ∃ t₀, LatestAccepted (Machine.transitions step store calls) key result t₀ ∧
              t₀ ≤ nowSecs ∧ nowSecs.toNat < t₀.toNat + ttl.toNat) := by
  intro h
  let last : UInt64 := 18446744073709551615
  let key : DeduplicationKey := ⟨"withdrawal", "ref-42"⟩
  let record : Call := .recordSuccess key "completed" last
  have hcached := (h 1 0 ⟨1, 0, ∅⟩ rfl [record] (List.pairwise_singleton _ _) key
    (.success "completed") last (by simp [record, Call.time])).mpr
    ⟨last, ⟨[], _, [], rfl, ⟨rfl, rfl, fun hdrops => absurd hdrops.1 (by decide)⟩, by simp⟩,
      UInt64.le_refl _, by decide⟩
  revert hcached
  decide

end DeduplicationStore

end AnchorKit
