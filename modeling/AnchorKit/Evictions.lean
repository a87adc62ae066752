import AnchorKit.Contract
import Mathlib.Data.Set.Card

/-!
# What an eviction removes

An eviction takes the oldest of the listed records that are in a terminal state, as many as one
call may take. It leaves the other records alone, and the rest of the list in its order. Records of
the same time may be taken in any order.
-/

namespace AnchorKit

def Removed (st st' : TransactionStore) (id : UInt64) : Prop :=
  st.record.has id = true ∧ st'.record.has id = false

instance (st st' : TransactionStore) : DecidablePred (Removed st st') := by
  intro id
  unfold Removed
  infer_instance

/-- The id is listed, and its record is in a terminal state. -/
def Evictable (st : TransactionStore) (id : UInt64) (record : TransactionStateRecord) : Prop :=
  id ∈ st.ids ∧ st.record.get id = some record ∧ record.state.isTerminal = true

/-- What an eviction of at most `maxPerCall` records may do. When an evictable record stays, the
list is shorter by as many entries as one call may take. -/
structure Evicts (maxPerCall : UInt32) (st st' : TransactionStore) : Prop where
  terminal : ∀ id record, st.record.get id = some record → Removed st st' id →
    record.state.isTerminal = true
  bounded : Set.ncard {id | Removed st st' id} ≤ maxPerCall.toNat
  oldest : ∀ gone goneRecord kept keptRecord, st.record.get gone = some goneRecord →
    Removed st st' gone → Evictable st kept keptRecord → ¬ Removed st st' kept →
    goneRecord.timestamp ≤ keptRecord.timestamp
  full : ∀ kept keptRecord, Evictable st kept keptRecord → ¬ Removed st st' kept →
    maxPerCall.toNat ≤ st.ids.length - st'.ids.length
  others : ∀ id, ¬ Removed st st' id → st'.record.get id = st.record.get id
  index : st'.ids = st.ids.filter fun id => ¬ Removed st st' id
  settings : st' = { st with record := st'.record, ids := st'.ids }

/-- Of two evictable records of the same time, the one that is listed first goes first. -/
def TakesInIndexOrder (st st' : TransactionStore) : Prop :=
  ∀ first firstRecord second secondRecord, [first, second].Sublist st.ids →
    Evictable st first firstRecord → Evictable st second secondRecord →
    firstRecord.timestamp = secondRecord.timestamp → Removed st st' second → Removed st st' first

section Victims

variable {host : Host} {st : TransactionStore} {maxPerCall : UInt32} {id : UInt64}

theorem mem_terminalEntries {entry : UInt64 × UInt64} : entry ∈ terminalEntries st ↔
    ∃ record, Evictable st entry.2 record ∧ record.timestamp = entry.1 := by
  obtain ⟨time, id⟩ := entry
  simp only [terminalEntries, List.mem_filterMap, Evictable]
  constructor
  · rintro ⟨listed, hlisted, hentry⟩
    cases hget : st.record.get listed with
    | none =>
      rw [hget] at hentry
      cases hentry
    | some record =>
      rw [hget] at hentry
      dsimp only at hentry
      split at hentry
      · rename_i hterminal
        cases hentry
        exact ⟨record, ⟨hlisted, hget, hterminal⟩, rfl⟩
      · cases hentry
  · rintro ⟨record, ⟨hlisted, hget, hterminal⟩, rfl⟩
    refine ⟨id, hlisted, ?_⟩
    rw [hget]
    exact if_pos hterminal

theorem terminalEntries_sublist : ((terminalEntries st).map Prod.snd).Sublist st.ids := by
  unfold terminalEntries
  induction st.ids with
  | nil => exact List.Sublist.slnil
  | cons id ids ih =>
    rw [List.filterMap_cons]
    cases st.record.get id with
    | none => exact ih.cons id
    | some record =>
      dsimp only
      cases record.state.isTerminal with
      | false => exact ih.cons id
      | true => exact ih.cons_cons id

def takenEntries (host : Host) (st : TransactionStore) (maxPerCall : UInt32) :
    List (UInt64 × UInt64) :=
  (host.unstableSort.sort (fun a b => a.1 ≤ b.1) (terminalEntries st)).take maxPerCall.toNat

theorem evictionVictims_eq :
    evictionVictims host st maxPerCall = (takenEntries host st maxPerCall).map Prod.snd := rfl

theorem terminal_of_taken {entry : UInt64 × UInt64} (h : entry ∈ takenEntries host st maxPerCall) :
    entry ∈ terminalEntries st :=
  (host.unstableSort.mem_sort _ _).mp (List.mem_of_mem_take h)

theorem evictionVictims_subperm (host : Host) (st : TransactionStore) (maxPerCall : UInt32) :
    (evictionVictims host st maxPerCall).Subperm st.ids := by
  have htaken := (List.take_sublist maxPerCall.toNat
    (host.unstableSort.sort (fun a b => a.1 ≤ b.1) (terminalEntries st))).map Prod.snd
  have hsorted := (host.unstableSort.perm (fun a b => a.1 ≤ b.1) (terminalEntries st)).map Prod.snd
  exact (htaken.subperm.trans hsorted.subperm).trans terminalEntries_sublist.subperm

theorem length_evictionVictims_le :
    (evictionVictims host st maxPerCall).length ≤ maxPerCall.toNat := by
  rw [evictionVictims_eq, List.length_map]
  exact List.length_take_le _ _

theorem mem_evictionVictims : id ∈ evictionVictims host st maxPerCall ↔
    ∃ record, Evictable st id record ∧ (record.timestamp, id) ∈ takenEntries host st maxPerCall := by
  rw [evictionVictims_eq, List.mem_map]
  constructor
  · rintro ⟨⟨time, id⟩, htaken, rfl⟩
    obtain ⟨record, hevictable, rfl⟩ := mem_terminalEntries.mp (terminal_of_taken htaken)
    exact ⟨record, hevictable, htaken⟩
  · rintro ⟨record, _, htaken⟩
    exact ⟨_, htaken, rfl⟩

theorem taken_le_spared {gone kept : UInt64} {goneRecord keptRecord : TransactionStateRecord}
    (hgone : (goneRecord.timestamp, gone) ∈ takenEntries host st maxPerCall)
    (hkept : Evictable st kept keptRecord) (hspared : kept ∉ evictionVictims host st maxPerCall) :
    goneRecord.timestamp ≤ keptRecord.timestamp := by
  have hentry : (keptRecord.timestamp, kept) ∈ terminalEntries st :=
    mem_terminalEntries.mpr ⟨keptRecord, hkept, rfl⟩
  have hleft : (keptRecord.timestamp, kept) ∉ takenEntries host st maxPerCall := fun htaken =>
    hspared (mem_evictionVictims.mpr ⟨keptRecord, hkept, htaken⟩)
  refine of_decide_eq_true (host.unstableSort.le_of_mem_take
    (fun a b : UInt64 × UInt64 => decide (a.1 ≤ b.1)) (terminalEntries st) ?_ ?_ hgone hentry hleft)
  · intro a b c hab hbc
    exact decide_eq_true (UInt64.le_trans (of_decide_eq_true hab) (of_decide_eq_true hbc))
  · intro a b
    exact (UInt64.le_total a.1 b.1).imp decide_eq_true decide_eq_true

/-- As long as an evictable record is spared, the eviction takes as many as it may. -/
theorem length_evictionVictims {record : TransactionStateRecord} (hevictable : Evictable st id record)
    (hspared : id ∉ evictionVictims host st maxPerCall) :
    (evictionVictims host st maxPerCall).length = maxPerCall.toNat := by
  rw [evictionVictims_eq, List.length_map, takenEntries, List.length_take, Nat.min_eq_left]
  by_contra hfew
  apply hspared
  have hall : takenEntries host st maxPerCall = host.unstableSort.sort (fun a b => a.1 ≤ b.1)
      (terminalEntries st) := List.take_of_length_le (Nat.le_of_not_le hfew)
  refine mem_evictionVictims.mpr ⟨record, hevictable, ?_⟩
  rw [hall, UnstableSort.mem_sort]
  exact mem_terminalEntries.mpr ⟨record, hevictable, rfl⟩

theorem removed_evict_iff : Removed st (evict st (evictionVictims host st maxPerCall)) id ↔
    id ∈ evictionVictims host st maxPerCall := by
  unfold Removed evict
  rw [KeyedStore.has_eq_false_iff, KeyedStore.get_foldl_remove]
  constructor
  · rintro ⟨hthere, hgone⟩
    by_contra hspared
    rw [if_neg hspared, ← KeyedStore.has_eq_false_iff, hthere] at hgone
    cases hgone
  · intro hvictim
    obtain ⟨record, ⟨_, hget, _⟩, _⟩ := mem_evictionVictims.mp hvictim
    exact ⟨KeyedStore.has_iff.mpr ⟨record, hget⟩, if_pos hvictim⟩

theorem evicts_evict (host : Host) (st : TransactionStore) (maxPerCall : UInt32) :
    Evicts maxPerCall st (evict st (evictionVictims host st maxPerCall)) where
  terminal := by
    intro id record hget hremoved
    obtain ⟨old, ⟨_, hold, hterminal⟩, _⟩ := mem_evictionVictims.mp (removed_evict_iff.mp hremoved)
    rw [hget] at hold
    rw [Option.some.inj hold]
    exact hterminal
  bounded := by
    have hset : {id | Removed st (evict st (evictionVictims host st maxPerCall)) id} =
        ↑(evictionVictims host st maxPerCall).toFinset := by
      ext id
      rw [Set.mem_ofPred_eq, removed_evict_iff, List.coe_toFinset, Set.mem_ofPred_eq]
    rw [hset, Set.ncard_coe_finset]
    exact (List.toFinset_card_le _).trans length_evictionVictims_le
  oldest := by
    intro gone goneRecord kept keptRecord hget hgone hkept hspared
    rw [removed_evict_iff] at hgone hspared
    obtain ⟨old, ⟨_, hold, _⟩, htaken⟩ := mem_evictionVictims.mp hgone
    rw [hget] at hold
    rw [Option.some.inj hold]
    exact taken_le_spared htaken hkept hspared
  full := by
    intro kept keptRecord hkept hspared
    rw [removed_evict_iff] at hspared
    have hcount := (evictionVictims_subperm host st maxPerCall).countP_le
      (fun id => (evictionVictims host st maxPerCall).contains id)
    have hall : (evictionVictims host st maxPerCall).countP
        (fun id => (evictionVictims host st maxPerCall).contains id) = maxPerCall.toNat := by
      rw [List.countP_eq_length.mpr fun id hid => List.contains_iff_mem.mpr hid]
      exact length_evictionVictims hkept hspared
    have hsplit := List.length_eq_countP_add_countP
      (fun id => (evictionVictims host st maxPerCall).contains id) (l := st.ids)
    have hrest : (evict st (evictionVictims host st maxPerCall)).ids.length = st.ids.countP
        (fun id => !(evictionVictims host st maxPerCall).contains id) :=
      List.countP_eq_length_filter.symm
    simp only [Bool.not_eq_true, Bool.decide_eq_false] at hsplit
    omega
  others := by
    intro id hspared
    rw [removed_evict_iff] at hspared
    change (List.foldl KeyedStore.remove st.record _).get id = _
    rw [KeyedStore.get_foldl_remove, if_neg hspared]
  index := by
    change List.filter _ st.ids = _
    apply List.filter_congr
    intro id _
    simp only [removed_evict_iff, decide_not, List.contains_eq_mem]
  settings := rfl

theorem runAutoEviction_transactions (host : Host) (s : Storage) (maxPerCall : UInt32) :
    (runAutoEviction host s maxPerCall).transactions =
      evict s.transactions (evictionVictims host s.transactions maxPerCall) := by
  dsimp only [runAutoEviction]
  split
  · rename_i hnone
    rw [hnone, evict_nil]
  · rfl

theorem runAutoEviction_sameOutside (host : Host) (s : Storage) (maxPerCall : UInt32) :
    Storage.SameOutside [.transactions, .events] s (runAutoEviction host s maxPerCall) := by
  rw [Storage.sameOutside_iff]
  dsimp only [runAutoEviction]
  split
  · simp
  · simp [Storage.publish]

end Victims

/-- An eviction takes terminal records only, the oldest first and no more than it may, and leaves
all else as it is. -/
theorem eviction_takes_oldest (host : Host) (s : Storage) (maxPerCall : UInt32) :
    Storage.SameOutside [.transactions, .events] s (runAutoEviction host s maxPerCall) ∧
      Evicts maxPerCall s.transactions (runAutoEviction host s maxPerCall).transactions := by
  refine ⟨runAutoEviction_sameOutside host s maxPerCall, ?_⟩
  rw [runAutoEviction_transactions]
  exact evicts_evict host s.transactions maxPerCall

namespace Demo

/-- A host whose sort leaves equal elements in the opposite order. -/
def reversingHost : Host := { host with unstableSort := .reversed }

def failedAt (id time : UInt64) : TransactionStateRecord :=
  { transactionId := id, state := .failed, initiator := alice, timestamp := time,
    lastUpdated := time, lastUpdatedLedger := 1, errorMessage := some "refused",
    stateHistory := [(.pending, time), (.failed, time)], recoveryMetadata := none,
    routingReason := none }

def failedTogether : Storage :=
  { Storage.empty with transactions := { Storage.empty.transactions with
    record := (KeyedStore.empty.set 1 (failedAt 1 1000)).set 2 (failedAt 2 1000), ids := [1, 2] } }

end Demo

/-- Of two records of one second the later listed one may be taken. -/
theorem eviction_out_of_index_order :
    ¬ ∀ host s maxPerCall,
      Evicts maxPerCall s.transactions (runAutoEviction host s maxPerCall).transactions ∧
        TakesInIndexOrder s.transactions (runAutoEviction host s maxPerCall).transactions := by
  intro h
  obtain ⟨_, hfirst⟩ := h Demo.reversingHost Demo.failedTogether 1
  have hgone := hfirst 1 (Demo.failedAt 1 1000) 2 (Demo.failedAt 2 1000) (List.Sublist.refl _)
    ⟨by decide, by decide, by decide⟩ ⟨by decide, by decide, by decide⟩ rfl (by decide)
  revert hgone
  decide

end AnchorKit
