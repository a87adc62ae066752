import AnchorKit.TrackerMaintenance

/-!
# The accounts of the development mode

The cache, the list of known ids and the budget monitor describe one population of records. A new
record enters all three, and an eviction takes its records from all three; but emptying the cache
leaves the other two as they were, and the cleanup of expired records leaves the monitor.
-/

namespace AnchorKit

open Fallible Machine

namespace StorageBudgetMonitor

variable {monitor : StorageBudgetMonitor} {n k : ℕ}

/-- The monitor has counted `n` records of 256 bytes. -/
structure Counts (monitor : StorageBudgetMonitor) (n : ℕ) : Prop where
  entries : monitor.entryCount.toNat = n
  bytes : monitor.approxBytes.toNat = 256 * n

theorem counts_new : new.Counts 0 := ⟨rfl, rfl⟩

theorem Counts.recordEntry_iff (h : monitor.Counts n) :
    (monitor.recordEntry 256).Counts k ↔ n + 1 = k ∧ 256 * (n + 1) < 2 ^ 64 := by
  have hentries := Word.toNat_saturatingAdd64 monitor.entryCount 1
  have hbytes := Word.toNat_saturatingAdd64 monitor.approxBytes 256
  rw [h.entries] at hentries
  rw [h.bytes] at hbytes
  have hone : (1 : UInt64).toNat = 1 := rfl
  have hsize : (256 : UInt64).toNat = 256 := rfl
  constructor
  · rintro ⟨_, hpost⟩
    change (Word.saturatingAdd64 monitor.approxBytes 256).toNat = _ at hpost
    omega
  · rintro ⟨rfl, hroom⟩
    refine ⟨?_, ?_⟩
    · change (Word.saturatingAdd64 monitor.entryCount 1).toNat = _
      omega
    · change (Word.saturatingAdd64 monitor.approxBytes 256).toNat = _
      omega

theorem Counts.removeEntry (h : monitor.Counts n) : (monitor.removeEntry 256).Counts (n - 1) := by
  have hentries := Word.toNat_saturatingSub64 monitor.entryCount 1
  have hbytes := Word.toNat_saturatingSub64 monitor.approxBytes 256
  rw [h.entries] at hentries
  rw [h.bytes] at hbytes
  have hone : (1 : UInt64).toNat = 1 := rfl
  have hsize : (256 : UInt64).toNat = 256 := rfl
  refine ⟨hentries, ?_⟩
  change (Word.saturatingSub64 monitor.approxBytes 256).toNat = _
  omega

theorem Counts.removeEntries (h : monitor.Counts n) (k : ℕ) :
    (Nat.repeat (·.removeEntry 256) k monitor).Counts (n - k) := by
  induction k with
  | zero => exact h
  | succ k ih => exact ih.removeEntry

/-- The warning threshold is that of 20 records. -/
theorem Counts.getStatus_ne_ok (h : monitor.Counts n) :
    monitor.getStatus 5120 12800 ≠ .ok ↔ 20 ≤ n := by
  have hbytes := h.bytes
  have hwarning : (5120 : UInt64).toNat = 5120 := rfl
  have hcritical : (12800 : UInt64).toNat = 12800 := rfl
  unfold getStatus
  simp only [UInt64.le_iff_toNat_le, hwarning, hcritical, hbytes]
  split_ifs with hc hw
  · simp only [ne_eq, reduceCtorEq, not_false_eq_true, true_iff]
    omega
  · simp only [ne_eq, reduceCtorEq, not_false_eq_true, true_iff]
    omega
  · simp only [ne_eq, not_true_eq_false, false_iff]
    omega

end StorageBudgetMonitor

namespace TransactionStateTracker

/-- The three descriptions agree, so that evictions are due from 20 cached records on. -/
structure Accounted (t : TransactionStateTracker) : Prop where
  entries : t.budgetMonitor.entryCount.toNat = t.cache.length
  bytes : t.budgetMonitor.approxBytes.toNat = 256 * t.cache.length
  known : t.knownIds = t.cache.map TransactionStateRecord.transactionId
  evictable : t.budgetStatus ≠ .ok ↔ 20 ≤ t.cache.length

section Accounts

variable {host : Host} {t : TransactionStateTracker} {id : UInt64}
  {record old : TransactionStateRecord} {n : ℕ}

theorem accounted_iff : t.Accounted ↔
    t.budgetMonitor.Counts t.cache.length ∧
      t.knownIds = t.cache.map TransactionStateRecord.transactionId := by
  constructor
  · exact fun h => ⟨⟨h.entries, h.bytes⟩, h.known⟩
  · rintro ⟨hcounts, hknown⟩
    exact ⟨hcounts.entries, hcounts.bytes, hknown, hcounts.getStatus_ne_ok⟩

theorem Accounted.counts (h : t.Accounted) : t.budgetMonitor.Counts t.cache.length :=
  ⟨h.entries, h.bytes⟩

theorem accounted_congr {t u : TransactionStateTracker} (hcache : t.cache = u.cache)
    (hids : t.knownIds = u.knownIds) (hmonitor : t.budgetMonitor = u.budgetMonitor) :
    t.Accounted ↔ u.Accounted := by
  rw [accounted_iff, accounted_iff, hcache, hids, hmonitor]

theorem accounted_of_unlogged {t u : TransactionStateTracker} (h : t.unlogged = u.unlogged) :
    t.Accounted ↔ u.Accounted := by
  have hcache : t.unlogged.cache = u.unlogged.cache := by rw [h]
  have hids : t.unlogged.knownIds = u.unlogged.knownIds := by rw [h]
  have hmonitor : t.unlogged.budgetMonitor = u.unlogged.budgetMonitor := by rw [h]
  exact accounted_congr hcache hids hmonitor

theorem accounted_register (hdev : t.isDevMode = true) (hid : record.transactionId = id)
    (hcounts : t.budgetMonitor.Counts n)
    (hknown : t.knownIds = t.cache.map TransactionStateRecord.transactionId) :
    (t.register id record).Accounted ↔ n = t.cache.length ∧ 256 * (n + 1) < 2 ^ 64 := by
  have hmonitor : (t.register id record).budgetMonitor = t.budgetMonitor.recordEntry 256 := by
    simp [register, hdev, approxRecordBytes]
  have hcache : (t.register id record).cache = t.cache ++ [record] := by simp [register, hdev]
  have hids : (t.register id record).knownIds = t.knownIds ++ [id] := by simp [register, hdev]
  rw [accounted_iff, hmonitor, hcache, hids, hcounts.recordEntry_iff, List.length_append,
    List.length_singleton, List.map_append, List.map_singleton, hknown, hid, Nat.succ_inj]
  exact and_iff_left rfl

theorem accounted_write (hdev : t.isDevMode = true) (hold : t.getTransactionState id = some old)
    (hid : record.transactionId = old.transactionId) :
    (t.write id record).Accounted ↔ t.Accounted := by
  simp only [getTransactionState, hdev, if_true] at hold
  have hkeys : (t.write id record).cache.map TransactionStateRecord.transactionId =
      t.cache.map TransactionStateRecord.transactionId := by
    simp only [write, recache, hdev, if_true]
    exact KeyedList.map_key_rewrite (hid.trans (KeyedList.key_of_lookup hold))
  have hlength : (t.write id record).cache.length = t.cache.length := by
    simpa using congrArg List.length hkeys
  have hmonitor : (t.write id record).budgetMonitor = t.budgetMonitor := by
    simp [write, recache, hdev]
  have hids : (t.write id record).knownIds = t.knownIds := by simp [write, recache, hdev]
  rw [accounted_iff, accounted_iff, hmonitor, hids, hkeys, hlength]

theorem accounted_fileEntry (entry : ArchivedRecoveryMetadata) :
    (t.fileEntry id entry).Accounted ↔ t.Accounted := by
  unfold fileEntry
  split <;> exact accounted_congr rfl rfl rfl

theorem accounted_expireEntry :
    Accounted { t with txstate := t.txstate.remove id } ↔ t.Accounted :=
  accounted_congr rfl rfl rfl

/-! ### Evictions -/

/-- An eviction counts down once for every id it selects. -/
theorem autoEvictIfNeeded_cache (host : Host) (hdev : t.isDevMode = true) :
    (t.autoEvictIfNeeded host).cache =
        t.cache.filter (fun record => !(t.evictees host).contains record.transactionId) ∧
      (t.autoEvictIfNeeded host).knownIds =
        t.knownIds.filter (fun id => !(t.evictees host).contains id) ∧
      (t.autoEvictIfNeeded host).budgetMonitor =
        Nat.repeat (·.removeEntry 256) (t.evictees host).length t.budgetMonitor := by
  by_cases hnone : t.evictees host = []
  · rw [autoEvictIfNeeded_of_evictees_eq_nil hdev hnone, hnone]
    refine ⟨?_, ?_, rfl⟩
    · simp
    · simp
  · unfold evictees at hnone ⊢
    split_ifs at hnone ⊢ with hdue
    · have hpos := List.length_pos_iff.mpr hnone
      simp [autoEvictIfNeeded, hdue.1, hdue.2, hdev, hpos, approxRecordBytes]
    · exact absurd rfl hnone

theorem length_evictees_le (host : Host) (t : TransactionStateTracker) :
    (t.evictees host).length ≤ t.cache.length := by
  unfold evictees
  split
  · have hsort := (host.unstableSort.perm (fun a b => a.1 ≤ b.1) t.cachedTerminal).length_eq
    have hterminal : t.cachedTerminal.length ≤ t.cache.length := by
      rw [cachedTerminal, List.length_map]
      exact List.length_filter_le _ _
    simp only [oldestIds, List.length_map, List.length_take]
    omega
  · exact Nat.zero_le _

def evictedRecords (host : Host) (t : TransactionStateTracker) : ℕ :=
  t.cache.countP fun record => (t.evictees host).contains record.transactionId

theorem length_cache_autoEvictIfNeeded (host : Host) (hdev : t.isDevMode = true) :
    (t.autoEvictIfNeeded host).cache.length + t.evictedRecords host = t.cache.length := by
  have hsplit := List.length_eq_countP_add_countP
    (fun record => (t.evictees host).contains record.transactionId) (l := t.cache)
  rw [(autoEvictIfNeeded_cache host hdev).1, ← List.countP_eq_length_filter, evictedRecords]
  simp only [decide_not, Bool.decide_eq_true] at hsplit
  omega

theorem known_autoEvictIfNeeded (hdev : t.isDevMode = true) (h : t.Accounted) :
    (t.autoEvictIfNeeded host).knownIds =
      (t.autoEvictIfNeeded host).cache.map TransactionStateRecord.transactionId := by
  obtain ⟨hcache, hids, _⟩ := autoEvictIfNeeded_cache host hdev
  rw [hcache, hids, h.known, List.filter_map]
  rfl

theorem counts_autoEvictIfNeeded (host : Host) (hdev : t.isDevMode = true) (h : t.Accounted) :
    (t.autoEvictIfNeeded host).budgetMonitor.Counts
      (t.cache.length - (t.evictees host).length) := by
  rw [(autoEvictIfNeeded_cache host hdev).2.2]
  exact h.counts.removeEntries _

/-- An eviction keeps the accounts when it takes one record for every id it selects. -/
theorem accounted_autoEvictIfNeeded (hdev : t.isDevMode = true) (h : t.Accounted) :
    (t.autoEvictIfNeeded host).Accounted ↔
      t.evictedRecords host = (t.evictees host).length := by
  have hcounts := counts_autoEvictIfNeeded host hdev h
  have hlength := length_cache_autoEvictIfNeeded host hdev
  have hle := length_evictees_le host t
  rw [accounted_iff, and_iff_left (known_autoEvictIfNeeded hdev h)]
  constructor
  · intro hpost
    have hsame := hcounts.entries.symm.trans hpost.entries
    omega
  · intro hexact
    obtain hsame : t.cache.length - (t.evictees host).length =
        (t.autoEvictIfNeeded host).cache.length := by omega
    rwa [hsame] at hcounts

theorem isDevMode_autoEvictIfNeeded (host : Host) (t : TransactionStateTracker) :
    (t.autoEvictIfNeeded host).isDevMode = t.isDevMode := by
  unfold autoEvictIfNeeded
  dsimp only
  split_ifs <;> rfl

theorem isDevMode_apply (t : TransactionStateTracker) (e : Effect) :
    (t.apply e).isDevMode = t.isDevMode := by
  have hwrite (id : UInt64) (record : TransactionStateRecord) :
      (t.write id record).isDevMode = t.isDevMode := by
    unfold write
    split <;> rfl
  cases e with
  | reject => rfl
  | keep => rfl
  | insert id record =>
    change (t.register id record).isDevMode = _
    unfold register
    split <;> rfl
  | rewrite id record => exact hwrite id record
  | file id record entry =>
    rw [← hwrite id record, apply, fileEntry]
    split <;> rfl

theorem isDevMode_prepared (host : Host) (t : TransactionStateTracker) (operation : Operation) :
    (t.prepared host operation).isDevMode = t.isDevMode := by
  cases operation with
  | autoEvictIfNeeded => exact isDevMode_autoEvictIfNeeded host t
  | createTransactionWithReason _ _ _ => exact isDevMode_autoEvictIfNeeded host t
  | _ => rfl

theorem accounted_create (hdev : t.isDevMode = true) (h : t.Accounted)
    (hid : record.transactionId = id) :
    ((t.autoEvictIfNeeded host).register id record).Accounted ↔
      t.evictedRecords host = (t.evictees host).length ∧
        256 * (t.cache.length - (t.evictees host).length + 1) < 2 ^ 64 := by
  have hlength := length_cache_autoEvictIfNeeded host hdev
  have hle := length_evictees_le host t
  rw [accounted_register ((isDevMode_autoEvictIfNeeded host t).trans hdev) hid
    (counts_autoEvictIfNeeded host hdev h) (known_autoEvictIfNeeded hdev h)]
  omega

/-- An operation that neither adds a record nor evicts any leaves the accounts alone. -/
theorem accounted_apply {operation : Operation} {e : Effect} (hdev : t.isDevMode = true)
    (hfits : e.Fits t.getTransactionState operation) (hquiet : operation.evicts = false)
    (hadds : ∀ id record, e ≠ .insert id record) :
    ((t.prepared host operation).apply e).Accounted ↔ t.Accounted := by
  have hprepared : (t.prepared host operation).Accounted ↔ t.Accounted := by
    cases operation with
    | autoEvictIfNeeded => cases hquiet
    | createTransactionWithReason _ _ _ => cases hquiet
    | setEviction _ _ => exact accounted_congr rfl rfl rfl
    | _ => rfl
  have hmode : (t.prepared host operation).isDevMode = true :=
    (isDevMode_prepared host t operation).trans hdev
  rw [← hprepared]
  cases e with
  | reject => rfl
  | keep => rfl
  | insert id record => exact absurd rfl (hadds id record)
  | rewrite id record =>
    obtain ⟨_, old, hold, hid⟩ := hfits
    rw [← find_prepared_of_not_evicts host t hquiet] at hold
    exact accounted_write hmode hold hid
  | file id record entry =>
    obtain ⟨_, old, hold, hid⟩ := hfits
    rw [← find_prepared_of_not_evicts host t hquiet] at hold
    exact (accounted_fileEntry entry).trans (accounted_write hmode hold hid)

end Accounts

end TransactionStateTracker

namespace MaintainedTracker

/-- The operation leaves the three descriptions in agreement. Emptying an empty cache and a cleanup
that finds no expired record change nothing; an eviction has to take one record for every id it
selects, which it does not where ids occur twice; and the monitor must not saturate. -/
def KeepsAccounts (host : Host) (decode : String → Except String ImportedRecovery)
    (m : MaintainedTracker) : Operation → Prop
  | .tracked .autoEvictIfNeeded =>
    m.tracker.evictedRecords host = (m.tracker.evictees host).length
  | .tracked (.createTransactionWithReason _ _ _) =>
    m.tracker.evictedRecords host = (m.tracker.evictees host).length ∧
      256 * (m.tracker.cache.length - (m.tracker.evictees host).length + 1) < 2 ^ 64
  | .tracked (.importRecoveryState json _) =>
    ∀ id recovery, TransactionStateTracker.readImport decode json = some (id, recovery) →
      m.tracker.getTransactionState id = none → 256 * (m.tracker.cache.length + 1) < 2 ^ 64
  | .clearCache => m.tracker.cache = []
  | .cleanupExpired => ∀ record ∈ m.tracker.cache, record.transactionId ∉ m.expiredIds
  | _ => True

section Steps

variable {host : Host} {decode : String → Except String ImportedRecovery} {env : Env}
  {m m' : MaintainedTracker} {t t' : TransactionStateTracker}

theorem accounted_clearCache (hdev : t.isDevMode = true) (h : t.Accounted) :
    t.clearCache.2.Accounted ↔ t.cache = [] := by
  have hcleared : t.clearCache.2 = { t with cache := [] } := by
    simp [TransactionStateTracker.clearCache, hdev]
  rw [hcleared]
  constructor
  · intro hpost
    exact List.eq_nil_of_length_eq_zero (h.entries.symm.trans hpost.entries)
  · intro hnil
    rw [← hnil]
    exact h

theorem accounted_cleanupExpired (hdev : m.tracker.isDevMode = true) (h : m.tracker.Accounted) :
    m.cleanupExpired.2.tracker.Accounted ↔
      ∀ record ∈ m.tracker.cache, record.transactionId ∉ m.expiredIds := by
  have hcleaned : m.cleanupExpired.2.tracker =
      { m.tracker with
        cache := m.tracker.cache.filter fun record => !m.expiredIds.contains record.transactionId
        knownIds := m.tracker.knownIds.filter fun id => !m.expiredIds.contains id } := by
    simp [cleanupExpired, hdev]
  rw [hcleaned]
  constructor
  · intro hpost
    have hlength := List.length_filter_eq_length_iff.mp (hpost.entries.symm.trans h.entries)
    simpa using hlength
  · intro hkept
    have hcache : m.tracker.cache.filter
        (fun record => !m.expiredIds.contains record.transactionId) = m.tracker.cache := by
      rw [List.filter_eq_self]
      simpa using hkept
    have hids : m.tracker.knownIds.filter (fun id => !m.expiredIds.contains id) =
        m.tracker.knownIds := by
      rw [List.filter_eq_self, h.known]
      simpa using hkept
    rw [hcache, hids]
    exact h

theorem accounted_import {json : String} {initiator : Address}
    (hdev : m.tracker.isDevMode = true) (h : m.tracker.Accounted) :
    (m.tracker.apply (TransactionStateTracker.importEffect decode env
      m.tracker.getTransactionState json initiator)).Accounted ↔
      KeepsAccounts host decode m (.tracked (.importRecoveryState json initiator)) := by
  have hacts := @TransactionStateTracker.effect_acts decode env m.tracker.getTransactionState
    (.importRecoveryState json initiator) _ rfl
  change _ ↔ ∀ id recovery, TransactionStateTracker.readImport decode json = some (id, recovery) →
    m.tracker.getTransactionState id = none → 256 * (m.tracker.cache.length + 1) < 2 ^ 64
  unfold TransactionStateTracker.importEffect at hacts ⊢
  cases hread : TransactionStateTracker.readImport decode json with
  | none =>
    refine iff_of_true h ?_
    intro _ _ hsome
    cases hsome
  | some read =>
    obtain ⟨id, recovery⟩ := read
    rw [hread] at hacts
    cases hfound : m.tracker.getTransactionState id with
    | none =>
      simp only [hfound, TransactionStateTracker.apply]
      have hid : (TransactionStateRecord.imported env recovery id initiator).transactionId = id := rfl
      rw [TransactionStateTracker.accounted_register hdev hid h.counts h.known]
      constructor
      · rintro ⟨_, hroom⟩ _ _ _ _
        exact hroom
      · exact fun hroom => ⟨rfl, hroom _ _ rfl hfound⟩
    | some record =>
      simp only [hfound] at hacts ⊢
      refine iff_of_true ?_ ?_
      · have hadds (x : UInt64) (new : TransactionStateRecord) :
            (if record.state ≠ .failed then TransactionStateTracker.Effect.reject
              else .rewrite id (record.withImported env recovery)) ≠ .insert x new := by
          split <;> simp
        have hquiet := @TransactionStateTracker.accounted_apply host
        exact (hquiet hdev hacts.fits rfl hadds).mpr h
      · intro _ _ hsame hnew
        obtain ⟨rfl, _⟩ := Prod.mk.inj (Option.some.inj hsame)
        rw [hfound] at hnew
        cases hnew

theorem accounted_tracked {operation : TransactionStateTracker.Operation}
    (hdev : m.tracker.isDevMode = true) (h : m.tracker.Accounted)
    (hstep : m.tracker.step host decode ⟨env, operation⟩ = .ok t') :
    t'.Accounted ↔ KeepsAccounts host decode m (.tracked operation) := by
  obtain ⟨e, heffect, hstate⟩ := TransactionStateTracker.step_eq_ok hstep
  have hacts := TransactionStateTracker.effect_acts heffect
  rw [TransactionStateTracker.accounted_of_unlogged hstate]
  have hquiet (hevicts : operation.evicts = false)
      (hadds : ∀ id record, e ≠ .insert id record) :
      ((m.tracker.prepared host operation).apply e).Accounted :=
    (TransactionStateTracker.accounted_apply hdev hacts.fits hevicts hadds).mpr h
  cases operation with
  | autoEvictIfNeeded =>
    obtain rfl := Except.ok.inj heffect
    exact TransactionStateTracker.accounted_autoEvictIfNeeded hdev h
  | createTransactionWithReason id initiator routingReason =>
    obtain rfl := Except.ok.inj heffect
    exact TransactionStateTracker.accounted_create hdev h rfl
  | importRecoveryState json initiator =>
    obtain rfl := Except.ok.inj heffect
    exact accounted_import hdev h
  | _ =>
    refine iff_of_true (hquiet rfl ?_) trivial
    rintro id record rfl
    cases hacts

theorem isDevMode_tracked {operation : TransactionStateTracker.Operation}
    (hstep : t.step host decode ⟨env, operation⟩ = .ok t') : t'.isDevMode = t.isDevMode := by
  obtain ⟨e, _, hstate⟩ := TransactionStateTracker.step_eq_ok hstep
  have hmode : t'.unlogged.isDevMode = ((t.prepared host operation).apply e).unlogged.isDevMode := by
    rw [hstate]
  rw [← TransactionStateTracker.isDevMode_prepared host t operation,
    ← TransactionStateTracker.isDevMode_apply (t.prepared host operation) e]
  exact hmode

theorem accounted_sweep {policy : RecoveryRetentionPolicy} {archive : Bool} {processed : UInt32}
    (host : Host) (decode : String → Except String ImportedRecovery)
    (hsweep : t.sweepRecoveryMetadata env policy archive = .ok (processed, t'))
    (hdev : t.isDevMode = true) (h : t.Accounted) : t'.isDevMode = true ∧ t'.Accounted := by
  refine @TransactionStateTracker.sweep_invariant host decode env policy archive processed t t'
    (fun u => u.isDevMode = true ∧ u.Accounted) ?_ hsweep ⟨hdev, h⟩
  rintro u v id hstep ⟨hmode, hpre⟩
  refine ⟨(isDevMode_tracked hstep).trans hmode, ?_⟩
  refine (@accounted_tracked host decode env ⟨u, []⟩ v _ hmode hpre hstep).mpr ?_
  cases archive <;> trivial

/-- One step leaves the development mode on, and the accounts right when it keeps them. -/
theorem accounted_step {c : Call} (hdev : m.tracker.isDevMode = true) (h : m.tracker.Accounted)
    (hstep : m.step host decode c = .ok m') :
    m'.tracker.isDevMode = true ∧ (m'.tracker.Accounted ↔ KeepsAccounts host decode m c.operation) := by
  obtain ⟨env, operation⟩ := c
  cases operation with
  | tracked operation =>
    obtain ⟨t', htracked, rfl⟩ := map_eq_ok.mp hstep
    exact ⟨(isDevMode_tracked htracked).trans hdev, accounted_tracked hdev h htracked⟩
  | setExpiredIds ids =>
    obtain rfl := Except.ok.inj hstep
    exact ⟨hdev, iff_of_true h trivial⟩
  | expireEntry id =>
    obtain rfl := Except.ok.inj hstep
    exact ⟨hdev, iff_of_true (TransactionStateTracker.accounted_expireEntry.mpr h) trivial⟩
  | clearCache =>
    obtain rfl := Except.ok.inj hstep
    refine ⟨?_, accounted_clearCache hdev h⟩
    simp [withTracker, TransactionStateTracker.clearCache, hdev]
  | cleanupExpired =>
    obtain rfl := Except.ok.inj hstep
    refine ⟨?_, accounted_cleanupExpired hdev h⟩
    simp [cleanupExpired, hdev]
  | sweepRecoveryMetadata policy archive =>
    obtain ⟨⟨processed, t'⟩, hsweep, rfl⟩ := map_eq_ok.mp hstep
    obtain ⟨hmode, hpost⟩ := accounted_sweep host decode hsweep hdev h
    exact ⟨hmode, iff_of_true hpost trivial⟩

end Steps

/-- In development mode the monitor, the known ids and the cache agree at every point of a run
exactly when every step of it keeps them in agreement. -/
theorem accounts_kept_iff (host : Host) (decode : String → Except String ImportedRecovery)
    (calls : List Call) :
    (∀ js, js <+: calls → (Machine.run (step host decode) (new true) js).tracker.Accounted) ↔
      ∀ u ∈ transitions (step host decode) (new true) calls,
        KeepsAccounts host decode u.pre u.input.operation := by
  apply forall_prefix_invariant_iff (step host decode) (fun _ m => m.tracker.Accounted)
    (fun _ m => m.tracker.isDevMode = true)
    (fun u => KeepsAccounts host decode u.pre u.input.operation)
  · exact TransactionStateTracker.accounted_iff.mpr ⟨StorageBudgetMonitor.counts_new, rfl⟩
  · rfl
  · intro _ u hu hdev hpre
    exact (accounted_step hdev hpre hu).2
  · intro _ u hu hdev hpre _
    exact (accounted_step hdev hpre hu).1

end MaintainedTracker

def Demo.createdAndCleared : List MaintainedTracker.Call :=
  [⟨⟨100, 1, []⟩, .tracked (.createTransactionWithReason 1 initiator none)⟩,
    ⟨⟨101, 1, []⟩, .clearCache⟩]

/-- The monitor still counts the record, and its id is still known. -/
theorem cleared_cache_still_counted :
    ¬ ∀ calls : List MaintainedTracker.Call,
      (Machine.run (MaintainedTracker.step Demo.trackerHost Demo.decodeExported)
        (MaintainedTracker.new true) calls).tracker.Accounted := by
  intro h
  have hentries := (h Demo.createdAndCleared).entries
  revert hentries
  decide

end AnchorKit
