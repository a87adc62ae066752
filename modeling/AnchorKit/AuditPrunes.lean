import AnchorKit.AuditRetention
import AnchorKit.Contract
import Mathlib.Data.Set.Card

/-!
# Pruning the audit log again and again

A prune looks at the first hundred log ids, and only there. What it finds to be old goes in the
first call; the calls after it find nothing more, and an old entry under a later id stays.
-/

namespace AnchorKit

open Fallible

/-- Prune to the same cut-off once in each environment, collecting the reported counts. -/
def pruneRepeatedly (before : UInt64) : List Env → Storage → Except Panic (Storage × List UInt64)
  | [], s => .ok (s, [])
  | env :: envs, s => do
    let (s, pruned) ← pruneAuditLogs env s before
    let (s, counts) ← pruneRepeatedly before envs s
    return (s, pruned :: counts)

def isOld (before : UInt64) (audit : KeyedStore UInt64 AuditLog) (id : UInt64) : Bool :=
  (audit.get id).any fun entry => entry.operation.timestamp < before

/-- The log without the old entries under the ids. -/
def withoutOld (before : UInt64) (ids : List UInt64) (audit : KeyedStore UInt64 AuditLog) :
    KeyedStore UInt64 AuditLog :=
  fun id => if id ∈ ids ∧ isOld before audit id = true then none else audit.get id

section Sweep

variable {env : Env} {s : Storage} {before pruned : UInt64} {audit : KeyedStore UInt64 AuditLog}
  {id : UInt64} {ids : List UInt64}

theorem get_withoutOld : (withoutOld before ids audit).get id =
    if id ∈ ids ∧ isOld before audit id = true then none else audit.get id := rfl

theorem pruneAuditLog_of_old (hold : isOld before audit id = true)
    (hroom : pruned.toNat + 1 < 2 ^ 64) : pruneAuditLog before (audit, pruned) id =
      .ok (audit.remove id, UInt64.ofNat (pruned.toNat + 1)) := by
  have hadd : add64 pruned 1 = .ok (UInt64.ofNat (pruned.toNat + 1)) := by
    rw [add64_eq_ok, Word.toNat_ofNat64 hroom, UInt64.toNat_one]
  cases hget : audit.get id with
  | none =>
    rw [isOld, hget] at hold
    cases hold
  | some entry =>
    rw [isOld, hget] at hold
    simp only [pruneAuditLog, hget, if_pos (of_decide_eq_true hold), hadd]
    rfl

theorem pruneAuditLog_of_recent (hrecent : isOld before audit id = false) :
    pruneAuditLog before (audit, pruned) id = .ok (audit, pruned) := by
  cases hget : audit.get id with
  | none =>
    simp only [pruneAuditLog, hget]
    rfl
  | some entry =>
    rw [isOld, hget] at hrecent
    simp only [pruneAuditLog, hget, if_neg (of_decide_eq_false hrecent)]
    rfl

theorem isOld_remove {other : UInt64} (hne : other ≠ id) :
    isOld before (audit.remove id) other = isOld before audit other := by
  rw [isOld, KeyedStore.get_remove, if_neg hne, isOld]

theorem withoutOld_remove (hold : isOld before audit id = true) :
    withoutOld before ids (audit.remove id) = withoutOld before (id :: ids) audit := by
  apply KeyedStore.ext
  intro other
  rw [get_withoutOld, get_withoutOld, KeyedStore.get_remove]
  by_cases hother : other = id
  · rw [if_pos hother, hother, ite_self, if_pos ⟨List.mem_cons_self, hold⟩]
  · rw [if_neg hother, isOld_remove hother]
    simp only [List.mem_cons, hother, false_or]

theorem withoutOld_of_recent (hrecent : isOld before audit id = false) :
    withoutOld before ids audit = withoutOld before (id :: ids) audit := by
  apply KeyedStore.ext
  intro other
  rw [get_withoutOld, get_withoutOld]
  by_cases hother : other = id
  · rw [hother]
    simp only [hrecent, Bool.false_eq_true, and_false]
  · simp only [List.mem_cons, hother, false_or]

/-- A sweep never overflows its counter, and counts what it drops. -/
theorem sweep_eq (hids : ids.Nodup) (hroom : pruned.toNat + ids.length < 2 ^ 64) :
    ids.foldlM (pruneAuditLog before) (audit, pruned) =
      .ok (withoutOld before ids audit,
        UInt64.ofNat (pruned.toNat + ids.countP (isOld before audit))) := by
  induction ids generalizing audit pruned with
  | nil =>
    have hnone : withoutOld before [] audit = audit := KeyedStore.ext fun id => by
      rw [get_withoutOld, if_neg (by simp)]
    rw [hnone, List.countP_nil, Nat.add_zero, UInt64.ofNat_toNat]
    rfl
  | cons id ids ih =>
    obtain ⟨hnew, hids⟩ := List.nodup_cons.mp hids
    rw [List.length_cons] at hroom
    rw [List.foldlM_cons, List.countP_cons]
    cases hold : isOld before audit id with
    | true =>
      have hnext : (UInt64.ofNat (pruned.toNat + 1)).toNat = pruned.toNat + 1 :=
        Word.toNat_ofNat64 (by omega)
      have hrest : ids.countP (isOld before (audit.remove id)) =
          ids.countP (isOld before audit) := by
        apply List.countP_congr
        intro other hother
        rw [isOld_remove (ne_of_mem_of_not_mem hother hnew)]
      rw [pruneAuditLog_of_old hold (by omega)]
      change ids.foldlM (pruneAuditLog before) _ = _
      rw [ih hids (by omega), withoutOld_remove hold, hrest, hnext, if_pos rfl, Nat.add_right_comm,
        Nat.add_assoc]
    | false =>
      rw [pruneAuditLog_of_recent hold]
      change ids.foldlM (pruneAuditLog before) _ = _
      rw [ih hids (by omega), withoutOld_of_recent hold, if_neg Bool.false_ne_true, Nat.add_zero]

theorem nodup_scannedLogIds : (scannedLogIds s).Nodup := by
  have hcount := s.sessions.auditCount.toNat_lt
  have hmin : (min s.sessions.auditCount 100).toNat = min s.sessions.auditCount.toNat 100 :=
    Word.toNat_min64 _ _
  apply List.Nodup.map_on _ List.nodup_range
  intro i hi j hj hij
  rw [List.mem_range, hmin] at hi hj
  rw [← Word.toNat_ofNat64 (n := i) (by omega), hij, Word.toNat_ofNat64 (by omega)]

theorem length_scannedLogIds_le : (scannedLogIds s).length ≤ 100 := by
  have hmin : (min s.sessions.auditCount 100).toNat = min s.sessions.auditCount.toNat 100 :=
    Word.toNat_min64 _ _
  rw [scannedLogIds, List.length_map, List.length_range, hmin]
  omega

def afterPrune (before : UInt64) (s : Storage) : Storage :=
  { s with sessions := { s.sessions with
    audit := withoutOld before (scannedLogIds s) s.sessions.audit } }

def prunable (before : UInt64) (s : Storage) : ℕ :=
  (scannedLogIds s).countP (isOld before s.sessions.audit)

theorem prunable_le (before : UInt64) (s : Storage) : prunable before s ≤ 100 :=
  List.countP_le_length.trans length_scannedLogIds_le

theorem pruneAuditLogs_eq (hadmin : requireAdmin env s = .ok ()) :
    pruneAuditLogs env s before =
      .ok (afterPrune before s, UInt64.ofNat (prunable before s)) := by
  have hlength := length_scannedLogIds_le (s := s)
  have hzero : (0 : UInt64).toNat = 0 := by decide
  rw [pruneAuditLogs, hadmin]
  change pruneAuditLogsInternal s before = _
  rw [pruneAuditLogsInternal, sweep_eq nodup_scannedLogIds (by omega), hzero, Nat.zero_add]
  rfl

/-- A prune leaves nothing to the next one. -/
theorem isOld_afterPrune (hid : id ∈ scannedLogIds s) :
    isOld before (afterPrune before s).sessions.audit id = false := by
  change isOld before (withoutOld before (scannedLogIds s) s.sessions.audit) id = false
  rw [isOld, get_withoutOld]
  cases hold : isOld before s.sessions.audit id with
  | true => rw [if_pos ⟨hid, rfl⟩, Option.any_none]
  | false => rwa [if_neg (by simp)]

theorem prunable_afterPrune : prunable before (afterPrune before s) = 0 := by
  rw [prunable, List.countP_eq_zero]
  intro id hid
  rw [Bool.not_eq_true]
  exact isOld_afterPrune hid

theorem afterPrune_afterPrune : afterPrune before (afterPrune before s) = afterPrune before s := by
  have hsame : withoutOld before (scannedLogIds s) (afterPrune before s).sessions.audit =
      (afterPrune before s).sessions.audit := by
    apply KeyedStore.ext
    intro id
    rw [get_withoutOld, if_neg]
    rintro ⟨hid, hold⟩
    rw [isOld_afterPrune hid] at hold
    cases hold
  change { afterPrune before s with sessions := { s.sessions with
    audit := withoutOld before (scannedLogIds s) (afterPrune before s).sessions.audit } } = _
  rw [hsame]
  rfl

theorem pruneRepeatedly_afterPrune {envs : List Env}
    (hadmin : ∀ env ∈ envs, requireAdmin env s = .ok ()) :
    pruneRepeatedly before envs (afterPrune before s) =
      .ok (afterPrune before s, List.replicate envs.length 0) := by
  induction envs with
  | nil => rfl
  | cons env envs ih =>
    obtain ⟨hfirst, hrest⟩ := List.forall_mem_cons.mp hadmin
    have hzero : UInt64.ofNat 0 = 0 := rfl
    rw [pruneRepeatedly, pruneAuditLogs_eq (s := afterPrune before s) hfirst, prunable_afterPrune,
      afterPrune_afterPrune, hzero]
    change (pruneRepeatedly before envs (afterPrune before s) >>= _) = _
    rw [ih hrest]
    rfl

theorem pruneRepeatedly_cons {envs : List Env}
    (hadmin : ∀ other ∈ env :: envs, requireAdmin other s = .ok ()) :
    pruneRepeatedly before (env :: envs) s = .ok (afterPrune before s,
      UInt64.ofNat (prunable before s) :: List.replicate envs.length 0) := by
  obtain ⟨hfirst, hrest⟩ := List.forall_mem_cons.mp hadmin
  rw [pruneRepeatedly, pruneAuditLogs_eq hfirst]
  change (pruneRepeatedly before envs (afterPrune before s) >>= _) = _
  rw [pruneRepeatedly_afterPrune hrest]
  rfl

theorem get_afterPrune {entry : AuditLog} :
    (afterPrune before s).sessions.audit.get id = some entry ↔
      s.sessions.audit.get id = some entry ∧
        (id ∈ scannedLogIds s → before ≤ entry.operation.timestamp) := by
  change (withoutOld before (scannedLogIds s) s.sessions.audit).get id = some entry ↔ _
  rw [get_withoutOld]
  cases hget : s.sessions.audit.get id with
  | none => simp
  | some found =>
    have hold : isOld before s.sessions.audit id = true ↔ found.operation.timestamp < before := by
      rw [isOld, hget, Option.any_some, decide_eq_true_iff]
    simp only [hold]
    split
    · rename_i hgone
      refine iff_of_false nofun ?_
      rintro ⟨heq, hkeep⟩
      rw [Option.some.inj heq] at hgone
      exact UInt64.not_lt.mpr (hkeep hgone.1) hgone.2
    · rename_i hkept
      rw [Option.some.injEq]
      refine ⟨?_, And.left⟩
      rintro rfl
      exact ⟨rfl, fun hid => UInt64.not_lt.mp fun hlt => hkept ⟨hid, hlt⟩⟩

/-- The entries that a prune drops are as many as it reports. -/
theorem ncard_dropped : Set.ncard {id | s.sessions.audit.has id = true ∧
    (afterPrune before s).sessions.audit.has id = false} = prunable before s := by
  have hset : {id | s.sessions.audit.has id = true ∧
      (afterPrune before s).sessions.audit.has id = false} =
        ↑((scannedLogIds s).filter (isOld before s.sessions.audit)).toFinset := by
    ext id
    rw [Set.mem_ofPred_eq, List.coe_toFinset, Set.mem_ofPred_eq, List.mem_filter,
      KeyedStore.has_eq_false_iff]
    change _ ∧ (withoutOld before (scannedLogIds s) s.sessions.audit).get id = none ↔ _
    rw [get_withoutOld]
    constructor
    · rintro ⟨hthere, hgone⟩
      by_contra hkept
      rw [if_neg hkept, ← KeyedStore.has_eq_false_iff, hthere] at hgone
      cases hgone
    · intro hgone
      refine ⟨?_, if_pos hgone⟩
      cases hget : s.sessions.audit.get id with
      | none =>
        rw [isOld, hget] at hgone
        cases hgone.2
      | some entry => exact KeyedStore.has_iff.mpr ⟨entry, hget⟩
  rw [hset, Set.ncard_coe_finset, List.toFinset_card_of_nodup (nodup_scannedLogIds.filter _),
    prunable, List.countP_eq_length_filter]

end Sweep

/-- What is left of the log when prunes to one cut-off have reported the given counts: all entries
but the old ones among the first hundred ids, and as many are gone as were reported. -/
structure PrunesScanned (before : UInt64) (s s' : Storage) (counts : List UInt64) : Prop where
  remaining : ∀ id entry, s'.sessions.audit.get id = some entry ↔
    s.sessions.audit.get id = some entry ∧
      (id < s.sessions.auditCount ∧ id < 100 → before ≤ entry.operation.timestamp)
  counted : (counts.map UInt64.toNat).sum = Set.ncard {id | s.sessions.audit.has id = true ∧
    s'.sessions.audit.has id = false}
  rest : s' = { s with sessions := { s.sessions with audit := s'.sessions.audit } }

/-- However often the log is pruned to one cut-off, the old entries among the first hundred ids go,
all others stay, and the reported counts add up to the number of entries that are gone. -/
theorem repeated_prunes {s : Storage} {envs : List Env} (before : UInt64) (hcalled : envs ≠ [])
    (hadmin : ∀ env ∈ envs, requireAdmin env s = .ok ()) :
    ∃ s' counts, pruneRepeatedly before envs s = .ok (s', counts) ∧
      counts.length = envs.length ∧ PrunesScanned before s s' counts := by
  obtain ⟨env, envs, rfl⟩ := List.exists_cons_of_ne_nil hcalled
  refine ⟨_, _, pruneRepeatedly_cons hadmin, by simp, ?_, ?_, rfl⟩
  · intro id entry
    rw [get_afterPrune, mem_scannedLogIds]
  · have hfew := prunable_le before s
    rw [ncard_dropped, List.map_cons, List.sum_cons, Word.toNat_ofNat64 (by omega),
      List.map_replicate, List.sum_replicate]
    rfl

namespace Demo

def loggedAt (time id : UInt64) : AuditLog :=
  { logId := id, sessionId := 0, actor := admin,
    operation := { sessionId := 0, operationIndex := id, operationType := "attest",
                   timestamp := time, status := "success", resultData := 0 } }

/-- A contract with an admin and a log of `count` operations at time 5. -/
def logged (count : UInt64) : Storage :=
  { Storage.empty with
    access := { Storage.empty.access with admin := some admin }
    sessions := { Storage.empty.sessions with
      auditCount := count, audit := fun id => if id < count then some (loggedAt 5 id) else none } }

def loggedTwice : Storage :=
  { logged 2 with
    sessions := { (logged 2).sessions with
      audit := fun id =>
        if id = 0 then some (loggedAt 5 0) else if id = 1 then some (loggedAt 20 1) else none } }

end Demo

/-- Two prunes drop the old entry and leave the newer one. -/
theorem old_entry_pruned : ∃ s' counts,
    pruneRepeatedly 10 [⟨1000, 1, [Demo.admin]⟩, ⟨1000, 2, [Demo.admin]⟩] Demo.loggedTwice =
      .ok (s', counts) ∧ counts.length = 2 ∧ PrunesScanned 10 Demo.loggedTwice s' counts ∧
      (∀ entry, s'.sessions.audit.get 0 ≠ some entry) ∧
      s'.sessions.audit.get 1 = some (Demo.loggedAt 20 1) := by
  have hadmin : ∀ env ∈ [(⟨1000, 1, [Demo.admin]⟩ : Env), ⟨1000, 2, [Demo.admin]⟩],
      requireAdmin env Demo.loggedTwice = .ok () := by decide
  obtain ⟨s', counts, hpruned, hlength, hscanned⟩ :=
    repeated_prunes 10 (List.cons_ne_nil _ _) hadmin
  refine ⟨s', counts, hpruned, hlength, hscanned, ?_, ?_⟩
  · intro entry hget
    obtain ⟨hold, htime⟩ := (hscanned.remaining 0 entry).mp hget
    cases hold
    exact absurd (htime (by decide)) (by decide)
  · exact (hscanned.remaining 1 _).mpr ⟨rfl, fun _ => by decide⟩

/-- The old entry under the id 100 stays, however often the log is pruned. -/
theorem hundred_and_first_entry_stays :
    ¬ ∀ s env before, requireAdmin env s = .ok () →
      ∃ n s' counts, pruneRepeatedly before (List.replicate n env) s = .ok (s', counts) ∧
        ∀ id entry, s'.sessions.audit.get id = some entry → before ≤ entry.operation.timestamp := by
  intro h
  have hadmin : requireAdmin ⟨1000, 1, [Demo.admin]⟩ (Demo.logged 101) = .ok () := by decide
  have hlast : (Demo.logged 101).sessions.audit.get 100 = some (Demo.loggedAt 5 100) := by decide
  obtain ⟨n, s', counts, hpruned, hclean⟩ := h _ _ 10 hadmin
  have hstays : s'.sessions.audit.get 100 = some (Demo.loggedAt 5 100) := by
    cases n with
    | zero =>
      cases hpruned
      exact hlast
    | succ n =>
      rw [List.replicate_succ, pruneRepeatedly_cons] at hpruned
      · obtain ⟨rfl, _⟩ := Prod.mk.inj (Except.ok.inj hpruned)
        exact get_afterPrune.mpr ⟨hlast, fun hid => absurd (mem_scannedLogIds.mp hid).2 (by decide)⟩
      · rw [← List.replicate_succ]
        exact fun env henv => List.eq_of_mem_replicate henv ▸ hadmin
  have hrecent := hclean 100 _ hstays
  revert hrecent
  decide

end AnchorKit
