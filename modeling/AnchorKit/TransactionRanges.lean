import AnchorKit.TrackerModes

/-!
# Reading a range of transactions

The contract walks over the ids of a range, not over the records, and steps past the last id it
reads. The walk is the one that the tracker takes over its stored records.
-/

namespace AnchorKit

open Fallible TransactionStateTracker

def visitId (st : TransactionStore) (id : UInt64) (count : UInt32)
    (results : List TransactionStateRecord) : Except Panic (UInt32 × List TransactionStateRecord) :=
  match st.record.get id with
  | some record => do
    let count ← add32 count 1
    return (count, results ++ [record])
  | none => .ok (count, results)

/-- The loop of `get_transactions_in_range`. -/
def rangeLoop (st : TransactionStore) (toId : UInt64) (effectiveLimit : UInt32) (id : UInt64)
    (count : UInt32) (results : List TransactionStateRecord) :
    Except Panic (List TransactionStateRecord) :=
  if id ≤ toId ∧ count < effectiveLimit then
    match visitId st id count results, _hnext : add64 id 1 with
    | .ok (count, results), .ok next => rangeLoop st toId effectiveLimit next count results
    | .error e, _ => .error e
    | .ok _, .error e => .error e
  else .ok results
termination_by 2 ^ 64 - id.toNat
decreasing_by
  have hstep := add64_eq_ok.mp _hnext
  have hone : (1 : UInt64).toNat = 1 := by decide
  have hid := id.toNat_lt
  omega

def getTransactionsInRange (st : TransactionStore) (fromId toId : UInt64) (limit : UInt32) :
    Except Panic (List TransactionStateRecord) :=
  let effectiveLimit := min limit 100
  if toId < fromId then .ok []
  else rangeLoop st toId effectiveLimit fromId 0 []

def recordsBetween (st : TransactionStore) (lo hi : ℕ) : List TransactionStateRecord :=
  (idsBetween lo hi).filterMap st.record.get

section Walk

variable {st : TransactionStore} {fromId toId id : UInt64} {limit effectiveLimit count : UInt32}
  {results : List TransactionStateRecord}

theorem visitId_eq (st : TransactionStore) (id : UInt64) (results : List TransactionStateRecord)
    (hcount : count.toNat + 1 < 2 ^ 32) :
    ∃ count', visitId st id count results = .ok (count', results ++ (st.record.get id).toList) ∧
      count'.toNat = count.toNat + (st.record.get id).toList.length := by
  unfold visitId
  cases st.record.get id with
  | none => exact ⟨count, by simp, by simp⟩
  | some record =>
    have hadd : add32 count 1 = .ok (UInt32.ofNat (count.toNat + 1)) := by
      rw [add32_eq_ok, Word.toNat_ofNat32 hcount, UInt32.toNat_one]
    refine ⟨UInt32.ofNat (count.toNat + 1), ?_, Word.toNat_ofNat32 hcount⟩
    simp only [hadd]
    rfl

theorem walkRange_next {record : KeyedStore UInt64 TransactionStateRecord} {limit : ℕ}
    {next : UInt64} (hmore : id ≤ toId ∧ results.length < limit)
    (hnext : Word.checkedAdd64 id 1 = some next) :
    walkRange record toId limit id results =
      walkRange record toId limit next (results ++ (record.get id).toList) := by
  rw [walkRange, if_pos hmore]
  split
  · rename_i hnone
    rw [hnext] at hnone
    cases hnone
  · rename_i found hfound
    rw [Option.some.inj (hnext.symm.trans hfound)]

theorem walkRange_last {record : KeyedStore UInt64 TransactionStateRecord} {limit : ℕ}
    (hmore : id ≤ toId ∧ results.length < limit) (hnext : Word.checkedAdd64 id 1 = none) :
    walkRange record toId limit id results = .error .arithmeticOverflow := by
  rw [walkRange, if_pos hmore]
  split
  · rfl
  · rename_i found hfound
    rw [hnext] at hfound
    cases hfound

/-- The contract's loop, which counts what it has found, walks as the tracker does. -/
theorem rangeLoop_eq (hlimit : effectiveLimit.toNat < 2 ^ 32 - 1)
    (hcount : count.toNat = results.length) :
    rangeLoop st toId effectiveLimit id count results =
      walkRange st.record toId effectiveLimit.toNat id results := by
  fun_induction rangeLoop st toId effectiveLimit id count results with
  | case1 id count results hmore count' results' next hnext hvisit ih =>
    rw [UInt32.lt_iff_toNat_lt] at hmore
    have hroom : count.toNat + 1 < 2 ^ 32 := by omega
    obtain ⟨counted, hcounted, hval⟩ := visitId_eq st id results hroom
    obtain ⟨rfl, rfl⟩ := Prod.mk.inj (Except.ok.inj (hcounted.symm.trans hvisit))
    rw [ih (by rw [List.length_append]; omega)]
    rw [hcount] at hmore
    exact (walkRange_next hmore
      (Word.checkedAdd64_eq_some.mpr (add64_eq_ok.mp hnext))).symm
  | case2 id count results hmore e hvisit =>
    rw [UInt32.lt_iff_toNat_lt] at hmore
    have hroom : count.toNat + 1 < 2 ^ 32 := by omega
    obtain ⟨counted, hcounted, -⟩ := visitId_eq st id results hroom
    rw [hcounted] at hvisit
    cases hvisit
  | case3 id count results hmore visited e hnext hvisit =>
    obtain ⟨rfl, hover⟩ := add64_eq_error.mp hnext
    rw [UInt32.lt_iff_toNat_lt, hcount] at hmore
    exact (walkRange_last hmore (Word.checkedAdd64_eq_none.mpr hover)).symm
  | case4 id count results hdone =>
    rw [UInt32.lt_iff_toNat_lt, hcount] at hdone
    rw [walkRange, if_neg hdone]

theorem toNat_effectiveLimit (limit : UInt32) : (min limit 100).toNat = min limit.toNat 100 :=
  Word.toNat_min32 limit 100

theorem getTransactionsInRange_eq : getTransactionsInRange st fromId toId limit =
    if fromId ≤ toId ∧ toId.toNat + 1 = 2 ^ 64 ∧
        (recordsBetween st fromId.toNat toId.toNat).length < min limit.toNat 100
    then .error .arithmeticOverflow
    else .ok ((recordsBetween st fromId.toNat (toId.toNat + 1)).take (min limit.toNat 100)) := by
  have hlimit := toNat_effectiveLimit limit
  dsimp only [getTransactionsInRange]
  by_cases hempty : toId < fromId
  · rw [if_pos hempty, if_neg fun h => UInt64.not_le.mpr hempty h.1]
    rw [UInt64.lt_iff_toNat_lt] at hempty
    rw [recordsBetween, idsBetween_of_le (by omega), List.filterMap_nil, List.take_nil]
  · rw [if_neg hempty, rangeLoop_eq (by omega) rfl, walkRange_eq, hlimit]
    simp only [UInt64.not_lt.mp hempty, true_and, List.length_nil, Nat.zero_add, Nat.sub_zero,
      List.nil_append]
    rfl

end Walk

/-- The range is read as documented: the records under its ids, in ascending order of the ids, as
many as the limit allows. -/
def ReadsRange (st : TransactionStore) (fromId toId : UInt64) (limit : UInt32) : Prop :=
  getTransactionsInRange st fromId toId limit =
    .ok ((recordsBetween st fromId.toNat (toId.toNat + 1)).take (min limit.toNat 100))

/-- A range is read as documented exactly when it does not end with the last id there is, or enough
records lie before that id. -/
theorem readsRange_iff (st : TransactionStore) (fromId toId : UInt64) (limit : UInt32) :
    ReadsRange st fromId toId limit ↔
      toId.toNat ≠ 2 ^ 64 - 1 ∨
        min limit.toNat 100 ≤ (recordsBetween st fromId.toNat (2 ^ 64 - 1)).length := by
  have hfrom := fromId.toNat_lt
  rw [ReadsRange, getTransactionsInRange_eq]
  split
  · rename_i hover
    obtain ⟨_, hlast, hfew⟩ := hover
    have hto : toId.toNat = 2 ^ 64 - 1 := by omega
    rw [hto] at hfew
    exact iff_of_false nofun (by omega)
  · rename_i hfits
    refine iff_of_true rfl ?_
    by_cases hlast : toId.toNat = 2 ^ 64 - 1
    · have hle : fromId ≤ toId := UInt64.le_iff_toNat_le.mpr (by omega)
      rw [hlast] at hfits
      exact Or.inr (Nat.le_of_not_lt fun hfew => hfits ⟨hle, rfl, hfew⟩)
    · exact Or.inl hlast

/-- A record under the last id there is cannot be read in a range. -/
theorem last_transaction_not_read : ¬ ∀ st fromId toId limit, ReadsRange st fromId toId limit := by
  intro h
  have hread := h Storage.empty.transactions (UInt64.ofNat (2 ^ 64 - 1))
    (UInt64.ofNat (2 ^ 64 - 1)) 1
  rw [ReadsRange, getTransactionsInRange_eq, if_pos ⟨by decide, by decide, by decide⟩] at hread
  cases hread

end AnchorKit
