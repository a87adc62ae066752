import AnchorKit.CompactionWindows
import Mathlib.Algebra.Order.BigOperators.Group.List
import Mathlib.Algebra.Order.Group.Nat

/-!
# When compaction is a group-by

The windows are those of the records and carry their statistics, as long as the counters of a window
and the sum of the window volumes do not exceed their types.
-/

namespace AnchorKit

namespace TransactionCompaction

open Fallible GroupFold Progress

def holds (w : TransactionSummaryRecord) (r : RawTransactionRecord) : Bool :=
  w.windowStart ≤ r.timestamp && r.timestamp < w.windowEnd

/-- The statistics are exactly those of the records, but for a volume that stops at `u64::MAX`. -/
structure StatisticsOf (retain : Bool) (l : List RawTransactionRecord)
    (w : TransactionSummaryRecord) : Prop where
  totalCount : w.totalCount.toNat = l.length
  completedCount : w.completedCount.toNat = l.countP fun r => isCompleted r.status
  pendingCount : w.pendingCount.toNat = l.countP fun r => isPending r.status
  errorCount : w.errorCount.toNat = l.countP fun r => isError r.status
  totalVolume : w.totalVolume.toNat = min (volume l) maxU64
  minAmount : (∃ r ∈ l, r.amount = w.minAmount) ∧ ∀ r ∈ l, w.minAmount ≤ r.amount
  maxAmount : (∃ r ∈ l, r.amount = w.maxAmount) ∧ ∀ r ∈ l, r.amount ≤ w.maxAmount
  avgAmount : w.avgAmount.toNat = volume l / l.length
  firstId : w.firstId = if retain then l.head?.map RawTransactionRecord.id else none
  lastId : w.lastId = if retain then l.getLast?.map RawTransactionRecord.id else none

structure IsGroupBy (records : List RawTransactionRecord) (config : CompactionConfig)
    (result : CompactionResult) : Prop where
  nonempty : ∀ w ∈ result.windows, ∃ r ∈ records, holds w r = true
  aligned : ∀ w ∈ result.windows, config.windowSeconds.toNat ∣ w.windowStart.toNat
  width : ∀ w ∈ result.windows,
    w.windowEnd.toNat = w.windowStart.toNat + config.windowSeconds.toNat
  increasing : result.windows.Pairwise fun w w' => w.windowEnd ≤ w'.windowStart
  counted : ∀ r ∈ records, ∃! w, w ∈ result.windows ∧ holds w r = true
  statistics : ∀ w ∈ result.windows,
    StatisticsOf config.retainBoundaryIds (records.filter (holds w)) w
  totalCount : result.aggregate.totalCount.toNat = records.length
  totalVolume : result.aggregate.totalVolume.toNat = min (volume records) maxU64

def GroupsBy (records : List RawTransactionRecord) (config : CompactionConfig) : Prop :=
  ∃ result, compactHistory records config = .ok (.ok result) ∧ IsGroupBy records config result

/-! ### The windows of the groups -/

section Window

variable {ws : WindowSize} {retain : Bool} {records : List RawTransactionRecord}
  {done : List (ℕ × Scratch)} {g : ℕ × Scratch} {r : RawTransactionRecord}

/-- The bounds of the window of a group are `u64`s. -/
theorem fits_group (h : Groups (index ws) (Scratch.add retain) .empty records done)
    (hfits : ∀ r ∈ records, Fits ws r) (hg : g ∈ done) :
    g.1 * ws.val.toNat + ws.val.toNat < 2 ^ 64 := by
  obtain ⟨r, hr⟩ := List.exists_mem_of_ne_nil _ (h.nonempty g hg)
  obtain ⟨hmem, hkey⟩ := List.mem_filter.mp hr
  have hfit := hfits r hmem
  unfold Fits at hfit
  rwa [of_decide_eq_true hkey] at hfit

theorem toNat_windowStart (hfit : g.1 * ws.val.toNat + ws.val.toNat < 2 ^ 64) :
    (windowOf ws retain g).windowStart.toNat = g.1 * ws.val.toNat :=
  Word.toNat_ofNat64 (by omega)

theorem toNat_windowEnd (hfit : g.1 * ws.val.toNat + ws.val.toNat < 2 ^ 64) :
    (windowOf ws retain g).windowEnd.toNat = g.1 * ws.val.toNat + ws.val.toNat :=
  Word.toNat_ofNat64 hfit

theorem holds_windowOf (hfit : g.1 * ws.val.toNat + ws.val.toNat < 2 ^ 64) :
    holds (windowOf ws retain g) r = true ↔ index ws r = g.1 := by
  have hpos := WindowSize.toNat_pos ws
  rw [holds, Bool.and_eq_true, decide_eq_true_iff, decide_eq_true_iff, UInt64.le_iff_toNat_le,
    UInt64.lt_iff_toNat_lt, toNat_windowStart hfit, toNat_windowEnd hfit, ← Nat.succ_mul, index]
  constructor
  · intro ⟨hle, hlt⟩
    exact Nat.div_eq_of_lt_le hle hlt
  · intro heq
    rw [← heq]
    exact ⟨Nat.div_mul_le_self _ _, Nat.lt_mul_of_div_lt (Nat.lt_succ_self _) hpos⟩

theorem filter_holds (hfit : g.1 * ws.val.toNat + ws.val.toNat < 2 ^ 64) :
    records.filter (holds (windowOf ws retain g)) = group (index ws) g.1 records := by
  apply List.filter_congr
  intro r _
  rw [Bool.eq_iff_iff, holds_windowOf hfit, decide_eq_true_iff]

theorem tallies_group (h : Groups (index ws) (Scratch.add retain) .empty records done)
    (hg : g ∈ done) : Tallies retain (group (index ws) g.1 records) g.2 := by
  rw [h.summarized g hg]
  exact tallies_summary retain g.1 records

variable {l : List RawTransactionRecord}

theorem toNat_avgAmount (h : Tallies retain l g.2) (hne : l ≠ []) :
    (windowOf ws retain g).avgAmount.toNat =
      min (volume l) maxU64 / min l.length (2 ^ 32 - 1) := by
  change (if 0 < g.2.totalCount then g.2.totalVolume / g.2.totalCount.toUInt64 else 0).toNat = _
  rw [if_pos (h.totalCount_pos.mpr hne), UInt64.toNat_div, UInt32.toNat_toUInt64, h.totalVolume,
    h.totalCount]

theorem min_count_eq {n m : ℕ} (hle : n ≤ m) (hlt : m < 2 ^ 32) : min n (2 ^ 32 - 1) = n := by
  omega

/-- A window whose counters fit has the statistics of its records. -/
theorem statistics_windowOf (h : Tallies retain l g.2) (hne : l ≠ []) (hcount : l.length < 2 ^ 32)
    (haverage : min (volume l) maxU64 / l.length = volume l / l.length) :
    StatisticsOf retain l (windowOf ws retain g) where
  totalCount := h.totalCount.trans (min_count_eq (Nat.le_refl _) hcount)
  completedCount := h.completedCount.trans (min_count_eq List.countP_le_length hcount)
  pendingCount := h.pendingCount.trans (min_count_eq List.countP_le_length hcount)
  errorCount := h.errorCount.trans (min_count_eq List.countP_le_length hcount)
  totalVolume := h.totalVolume
  minAmount := by
    have hmin : (windowOf ws retain g).minAmount = g.2.minAmount :=
      if_pos (h.totalCount_pos.mpr hne)
    rw [hmin]
    refine ⟨?_, fun r hr => UInt64.le_iff_toNat_le.mpr (h.min_le r hr)⟩
    rcases h.min_attained with hmax | hex
    · obtain ⟨r, hr⟩ := List.exists_mem_of_ne_nil l hne
      have hle := h.min_le r hr
      have hlt := r.amount.toNat_lt
      refine ⟨r, hr, UInt64.toNat_inj.mp ?_⟩
      unfold maxU64 at hmax
      omega
    · exact hex
  maxAmount := by
    refine ⟨?_, fun r hr => UInt64.le_iff_toNat_le.mpr (h.le_max r hr)⟩
    rcases h.max_attained with hzero | hex
    · obtain ⟨r, hr⟩ := List.exists_mem_of_ne_nil l hne
      have hle := h.le_max r hr
      refine ⟨r, hr, UInt64.toNat_inj.mp ?_⟩
      change r.amount.toNat = g.2.maxAmount.toNat
      omega
    · exact hex
  avgAmount := by
    rw [toNat_avgAmount h hne, min_count_eq (Nat.le_refl _) hcount]
    exact haverage
  firstId := by
    change (if retain then g.2.firstId else none) = _
    rw [h.firstId]
    cases retain <;> rfl
  lastId := by
    change (if retain then g.2.lastId else none) = _
    rw [h.lastId]
    cases retain <;> rfl

theorem counters_of_statistics (h : Tallies retain l g.2) (hne : l ≠ [])
    (hstat : StatisticsOf retain l (windowOf ws retain g)) :
    l.length < 2 ^ 32 ∧ min (volume l) maxU64 / l.length = volume l / l.length := by
  have hcount : l.length < 2 ^ 32 := by
    rw [← hstat.totalCount]
    exact UInt32.toNat_lt _
  refine ⟨hcount, ?_⟩
  rw [← hstat.avgAmount, toNat_avgAmount h hne, min_count_eq (Nat.le_refl _) hcount]

end Window

/-! ### The sums of the aggregate -/

theorem foldlM_add64_eq_ok {l : List UInt64} {a s : UInt64} :
    l.foldlM add64 a = .ok s ↔ a.toNat + (l.map UInt64.toNat).sum = s.toNat := by
  induction l generalizing a with
  | nil =>
    rw [List.foldlM_nil, pure_eq_ok, ← UInt64.toNat_inj]
    simp
  | cons b l ih =>
    rw [List.foldlM_cons, bind_eq_ok, List.map_cons, List.sum_cons]
    constructor
    · rintro ⟨c, hadd, hrest⟩
      rw [add64_eq_ok] at hadd
      rw [ih] at hrest
      omega
    · intro hsum
      have hlt := s.toNat_lt
      have hc : (UInt64.ofNat (a.toNat + b.toNat)).toNat = a.toNat + b.toNat :=
        Word.toNat_ofNat64 (by omega)
      refine ⟨UInt64.ofNat (a.toNat + b.toNat), add64_eq_ok.mpr hc.symm, ih.mpr ?_⟩
      omega

theorem sum64_eq_ok {l : List UInt64} {s : UInt64} :
    sum64 l = .ok s ↔ (l.map UInt64.toNat).sum = s.toNat := by
  rw [sum64, foldlM_add64_eq_ok]
  simp

theorem exists_sum64 {l : List UInt64} (h : (l.map UInt64.toNat).sum < 2 ^ 64) :
    ∃ s, sum64 l = .ok s :=
  ⟨UInt64.ofNat _, sum64_eq_ok.mpr (Word.toNat_ofNat64 h).symm⟩

section Aggregate

variable {records : List RawTransactionRecord} {windows : List TransactionSummaryRecord}

theorem toNat_sums {aggregate : CompactionAggregate}
    (h : aggregateOf records windows = .ok aggregate) :
    (windows.map fun w => w.totalCount.toNat).sum = aggregate.totalCount.toNat ∧
      (windows.map fun w => w.totalVolume.toNat).sum = aggregate.totalVolume.toNat := by
  unfold aggregateOf at h
  obtain ⟨total, htotal, h⟩ := bind_eq_ok.mp h
  obtain ⟨completed, hcompleted, h⟩ := bind_eq_ok.mp h
  obtain ⟨errors, herrors, h⟩ := bind_eq_ok.mp h
  obtain ⟨totalVolume, hvolume, h⟩ := bind_eq_ok.mp h
  rw [pure_eq_ok] at h
  subst h
  rw [sum64_eq_ok, List.map_map] at htotal hvolume
  exact ⟨htotal, hvolume⟩

theorem exists_aggregate (hcount : (windows.map fun w => w.totalCount.toNat).sum < 2 ^ 64)
    (hcompleted : (windows.map fun w => w.completedCount.toNat).sum < 2 ^ 64)
    (herrors : (windows.map fun w => w.errorCount.toNat).sum < 2 ^ 64)
    (hvolume : (windows.map fun w => w.totalVolume.toNat).sum < 2 ^ 64) :
    ∃ aggregate, aggregateOf records windows = .ok aggregate := by
  obtain ⟨total, htotal⟩ := exists_sum64 (l := windows.map fun w => w.totalCount.toUInt64)
    (by rw [List.map_map]; exact hcount)
  obtain ⟨completed, hcompleted⟩ :=
    exists_sum64 (l := windows.map fun w => w.completedCount.toUInt64)
      (by rw [List.map_map]; exact hcompleted)
  obtain ⟨errors, herrors⟩ := exists_sum64 (l := windows.map fun w => w.errorCount.toUInt64)
    (by rw [List.map_map]; exact herrors)
  obtain ⟨totalVolume, hvolume⟩ :=
    exists_sum64 (l := windows.map TransactionSummaryRecord.totalVolume)
      (by rw [List.map_map]; exact hvolume)
  simp only [aggregateOf, htotal, hcompleted, herrors, hvolume]
  exact ⟨_, rfl⟩

end Aggregate

/-- A sum of capped values that is itself below the cap is the capped sum. -/
theorem sum_min_eq (m : ℕ) (l : List ℕ) (h : (l.map fun n => min n m).sum ≤ m) :
    (l.map fun n => min n m).sum = min l.sum m := by
  induction l with
  | nil => simp
  | cons n l ih =>
    rw [List.map_cons, List.sum_cons] at h ⊢
    rw [List.sum_cons, ih (by omega)]
    have hrest := ih (by omega)
    omega

/-! ### The condition -/

section Condition

variable {ws : WindowSize} {retain : Bool} {records : List RawTransactionRecord}
  {done : List (ℕ × Scratch)}

/-- The volumes of the windows, each capped at `u64::MAX`, do not sum to more than that. -/
def SumFits (ws : WindowSize) (records : List RawTransactionRecord) : Prop :=
  ((records.map (index ws)).dedup.map fun k =>
    min (volume (group (index ws) k records)) maxU64).sum ≤ maxU64

/-- No window has more records than a `u32` counts, none has a volume beyond `u64::MAX` that changes
the average, and the volumes of the windows can be summed. -/
structure FitsCounters (ws : WindowSize) (records : List RawTransactionRecord) : Prop where
  counts : ∀ k, (group (index ws) k records).length < 2 ^ 32
  averages : ∀ k, min (volume (group (index ws) k records)) maxU64 /
      (group (index ws) k records).length =
    volume (group (index ws) k records) / (group (index ws) k records).length
  volumes : SumFits ws records

theorem sum_over_groups (h : Groups (index ws) (Scratch.add retain) .empty records done)
    (f : RawTransactionRecord → ℕ) :
    (done.map fun g => ((group (index ws) g.1 records).map f).sum).sum = (records.map f).sum := by
  have hmem : ∀ r ∈ records, index ws r ∈ done.map Prod.fst := fun r hr =>
    List.mem_map.mpr (h.covered r hr)
  have hsum := sum_groups h.nodup_keys f hmem
  rwa [List.map_map] at hsum

theorem sum_lengths (h : Groups (index ws) (Scratch.add retain) .empty records done) :
    (done.map fun g => (group (index ws) g.1 records).length).sum = records.length := by
  have hsum := sum_over_groups h fun _ => 1
  simpa using hsum

theorem sum_windowVolumes (h : Groups (index ws) (Scratch.add retain) .empty records done) :
    ((done.map (windowOf ws retain)).map fun w => w.totalVolume.toNat).sum =
      (((done.map fun g => volume (group (index ws) g.1 records)).map fun n => min n maxU64)).sum := by
  rw [List.map_map, List.map_map]
  congr 1
  apply List.map_congr_left
  intro g hg
  exact (tallies_group h hg).totalVolume

theorem sumFits_iff (h : Groups (index ws) (Scratch.add retain) .empty records done) :
    SumFits ws records ↔
      ((done.map (windowOf ws retain)).map fun w => w.totalVolume.toNat).sum ≤ maxU64 := by
  have hperm := (h.perm_keys.map fun k =>
    min (volume (group (index ws) k records)) maxU64).sum_eq
  rw [sum_windowVolumes h, SumFits, ← hperm, List.map_map, List.map_map]
  rfl

/-- A counter that is at most the number of records of its window sums to at most all of them. -/
theorem sum_counters_le (h : Groups (index ws) (Scratch.add retain) .empty records done)
    {f : TransactionSummaryRecord → ℕ}
    (hle : ∀ g ∈ done, f (windowOf ws retain g) ≤ (group (index ws) g.1 records).length) :
    ((done.map (windowOf ws retain)).map f).sum ≤ records.length := by
  rw [← sum_lengths h, List.map_map]
  exact List.sum_le_sum hle

end Condition

/-! ### The group-by -/

section GroupBy

variable {ws : WindowSize} {retain : Bool} {records : List RawTransactionRecord}
  {done : List (ℕ × Scratch)}

theorem windows_increasing (h : Groups (index ws) (Scratch.add retain) .empty records done)
    (hfits : ∀ r ∈ records, Fits ws r) :
    (done.map (windowOf ws retain)).Pairwise fun w w' => w.windowEnd ≤ w'.windowStart := by
  have hkeys := List.pairwise_map.mp h.increasing
  rw [List.pairwise_map]
  apply hkeys.imp_of_mem
  intro g g' hg hg' hlt
  rw [UInt64.le_iff_toNat_le, toNat_windowEnd (fits_group h hfits hg),
    toNat_windowStart (fits_group h hfits hg'), ← Nat.succ_mul]
  exact Nat.mul_le_mul_right _ hlt

theorem counted_once (h : Groups (index ws) (Scratch.add retain) .empty records done)
    (hfits : ∀ r ∈ records, Fits ws r) {r : RawTransactionRecord} (hr : r ∈ records) :
    ∃! w, w ∈ done.map (windowOf ws retain) ∧ holds w r = true := by
  obtain ⟨g, hg, heq⟩ := h.covered r hr
  refine ⟨windowOf ws retain g, ⟨List.mem_map_of_mem hg, ?_⟩, ?_⟩
  · exact (holds_windowOf (fits_group h hfits hg)).mpr heq.symm
  · rintro w ⟨hw, hholds⟩
    obtain ⟨g', hg', rfl⟩ := List.mem_map.mp hw
    have hindex := (holds_windowOf (fits_group h hfits hg')).mp hholds
    have hkey : g'.1 = g.1 := by rw [← hindex, heq]
    have hsummary : g'.2 = g.2 := by rw [h.summarized g' hg', h.summarized g hg, hkey]
    rw [Prod.ext hkey hsummary]

/-- A history that is compacted has volumes that can be summed. -/
theorem sumFits_of_groupsBy (hsorted : records.Pairwise fun a b => a.timestamp ≤ b.timestamp)
    (hfits : ∀ r ∈ records, Fits ws r) (h : GroupsBy records ⟨ws, retain⟩) :
    SumFits ws records := by
  obtain ⟨result, hok, _⟩ := h
  obtain ⟨done, hgroups, heq⟩ :
    ∃ done, Groups (index ws) (Scratch.add retain) .empty records done ∧ _ :=
      compactHistory_eq hsorted hfits
  rw [heq] at hok
  obtain ⟨aggregate, haggregate, _⟩ := bind_eq_ok.mp hok
  rw [sumFits_iff hgroups, (toNat_sums haggregate).2]
  exact Nat.le_of_lt_succ (UInt64.toNat_lt _)

theorem counters_of_isGroupBy (h : Groups (index ws) (Scratch.add retain) .empty records done)
    (hfits : ∀ r ∈ records, Fits ws r) {aggregate : CompactionAggregate}
    (hgroupBy : IsGroupBy records ⟨ws, retain⟩ ⟨done.map (windowOf ws retain), aggregate⟩) (k : ℕ) :
    (group (index ws) k records).length < 2 ^ 32 ∧
      min (volume (group (index ws) k records)) maxU64 / (group (index ws) k records).length =
        volume (group (index ws) k records) / (group (index ws) k records).length := by
  by_cases hk : group (index ws) k records = []
  · rw [hk]
    simp
  · obtain ⟨g, hg, rfl, _⟩ := h.exists_of_ne_nil hk
    have hstat := hgroupBy.statistics (windowOf ws retain g) (List.mem_map_of_mem hg)
    rw [filter_holds (fits_group h hfits hg)] at hstat
    exact counters_of_statistics (tallies_group h hg) hk hstat

theorem aggregate_of_fitsCounters (h : Groups (index ws) (Scratch.add retain) .empty records done)
    (hcond : FitsCounters ws records) (hlen : records.length < 2 ^ 64) :
    ∃ aggregate, aggregateOf records (done.map (windowOf ws retain)) = .ok aggregate := by
  have hstat : ∀ g ∈ done, StatisticsOf retain (group (index ws) g.1 records)
      (windowOf ws retain g) := fun g hg =>
    statistics_windowOf (tallies_group h hg) (h.nonempty g hg) (hcond.counts g.1)
      (hcond.averages g.1)
  have hcount := sum_counters_le h (f := fun w => w.totalCount.toNat) fun g hg =>
    Nat.le_of_eq (hstat g hg).totalCount
  have hcompleted := sum_counters_le h (f := fun w => w.completedCount.toNat) fun g hg =>
    (hstat g hg).completedCount ▸ List.countP_le_length
  have herrors := sum_counters_le h (f := fun w => w.errorCount.toNat) fun g hg =>
    (hstat g hg).errorCount ▸ List.countP_le_length
  have hvolumes := (sumFits_iff h).mp hcond.volumes
  exact exists_aggregate (Nat.lt_of_le_of_lt hcount hlen) (Nat.lt_of_le_of_lt hcompleted hlen)
    (Nat.lt_of_le_of_lt herrors hlen) (Nat.lt_succ_of_le hvolumes)

theorem isGroupBy_of_fitsCounters (h : Groups (index ws) (Scratch.add retain) .empty records done)
    (hfits : ∀ r ∈ records, Fits ws r) (hcond : FitsCounters ws records)
    {aggregate : CompactionAggregate}
    (haggregate : aggregateOf records (done.map (windowOf ws retain)) = .ok aggregate) :
    IsGroupBy records ⟨ws, retain⟩ ⟨done.map (windowOf ws retain), aggregate⟩ where
  nonempty w hw := by
    obtain ⟨g, hg, rfl⟩ := List.mem_map.mp hw
    obtain ⟨r, hr⟩ := List.exists_mem_of_ne_nil _ (h.nonempty g hg)
    have hfilter : records.filter (holds (windowOf ws retain g)) = _ :=
      filter_holds (fits_group h hfits hg)
    rw [← hfilter, List.mem_filter] at hr
    exact ⟨r, hr⟩
  aligned w hw := by
    obtain ⟨g, hg, rfl⟩ := List.mem_map.mp hw
    rw [toNat_windowStart (fits_group h hfits hg)]
    exact Nat.dvd_mul_left _ _
  width w hw := by
    obtain ⟨g, hg, rfl⟩ := List.mem_map.mp hw
    rw [toNat_windowStart (fits_group h hfits hg), toNat_windowEnd (fits_group h hfits hg)]
  increasing := windows_increasing h hfits
  counted r hr := counted_once h hfits hr
  statistics w hw := by
    obtain ⟨g, hg, rfl⟩ := List.mem_map.mp hw
    rw [filter_holds (fits_group h hfits hg)]
    exact statistics_windowOf (tallies_group h hg) (h.nonempty g hg) (hcond.counts g.1)
      (hcond.averages g.1)
  totalCount := by
    rw [← (toNat_sums haggregate).1, ← sum_lengths h, List.map_map]
    congr 1
    apply List.map_congr_left
    intro g hg
    exact (tallies_group h hg).totalCount.trans
      (min_count_eq (Nat.le_refl _) (hcond.counts g.1))
  totalVolume := by
    have hle := (sumFits_iff h).mp hcond.volumes
    rw [sum_windowVolumes h] at hle
    rw [← (toNat_sums haggregate).2, sum_windowVolumes h, sum_min_eq _ _ hle]
    congr 1
    exact sum_over_groups h _

/-- A sorted history whose windows fit is compacted to its group-by exactly when its counters
fit. -/
theorem groupsBy_iff (ws : WindowSize) (retain : Bool) (records : List RawTransactionRecord)
    (hsorted : records.Pairwise fun a b => a.timestamp ≤ b.timestamp)
    (hfits : ∀ r ∈ records, Fits ws r) (hlen : records.length < 2 ^ 64) :
    GroupsBy records ⟨ws, retain⟩ ↔ FitsCounters ws records := by
  obtain ⟨done, hgroups, heq⟩ :
    ∃ done, Groups (index ws) (Scratch.add retain) .empty records done ∧ _ :=
      compactHistory_eq hsorted hfits
  constructor
  · intro h
    have hsum := sumFits_of_groupsBy hsorted hfits h
    obtain ⟨result, hok, hgroupBy⟩ := h
    rw [heq] at hok
    obtain ⟨aggregate, _, hpure⟩ := bind_eq_ok.mp hok
    rw [pure_eq_ok, Except.ok.injEq] at hpure
    rw [← hpure] at hgroupBy
    have hcounters := counters_of_isGroupBy hgroups hfits hgroupBy
    exact ⟨fun k => (hcounters k).1, fun k => (hcounters k).2, hsum⟩
  · intro hcond
    obtain ⟨aggregate, haggregate⟩ := aggregate_of_fitsCounters hgroups hcond hlen
    refine ⟨⟨done.map (windowOf ws retain), aggregate⟩, ?_, ?_⟩
    · simp only [heq, haggregate]
      rfl
    · exact isGroupBy_of_fitsCounters hgroups hfits hcond haggregate

/-- A history whose whole volume is a `u64` has counters that fit. -/
theorem fitsCounters_of_volume (hlen : records.length < 2 ^ 32) (hvolume : volume records ≤ maxU64) :
    FitsCounters ws records := by
  have hle : ∀ k, volume (group (index ws) k records) ≤ volume records := fun k =>
    ((List.filter_sublist).map _).sum_le_sum fun _ _ => Nat.zero_le _
  refine ⟨fun k => ?_, fun k => ?_, ?_⟩
  · exact Nat.lt_of_le_of_lt (List.length_filter_le _ _) hlen
  · rw [Nat.min_eq_left (Nat.le_trans (hle k) hvolume)]
  · have hmem : ∀ r ∈ records, index ws r ∈ (records.map (index ws)).dedup := fun r hr =>
      List.mem_dedup.mpr (List.mem_map_of_mem hr)
    refine Nat.le_trans (List.sum_le_sum fun k _ => Nat.min_le_left _ _) ?_
    exact Nat.le_trans (Nat.le_of_eq (sum_groups (List.nodup_dedup _) _ hmem)) hvolume

theorem groupsBy_two_windows :
    GroupsBy [⟨['a'], 100, "completed".toList, 500⟩, ⟨['b'], 7300, "pending_external".toList, 300⟩]
      ⟨3600, true⟩ :=
  (groupsBy_iff ⟨3600, by decide⟩ true
    [⟨['a'], 100, "completed".toList, 500⟩, ⟨['b'], 7300, "pending_external".toList, 300⟩]
    (by simp) (by simp [Fits, index]) (by simp)).mpr
    (fitsCounters_of_volume (by simp) (by simp [volume, maxU64]))

/-- Two windows whose volumes do not sum to a `u64`: the sum aborts where it should stop at the
maximum. -/
theorem full_windows_abort :
    ¬ GroupsBy [⟨['a'], 0, "completed".toList, 18446744073709551615⟩,
      ⟨['b'], 3600, "completed".toList, 1⟩] ⟨3600, true⟩ := by
  intro h
  have hsum : SumFits ⟨3600, by decide⟩ _ :=
    sumFits_of_groupsBy (by simp) (by simp [Fits, index]) h
  unfold SumFits at hsum
  revert hsum
  decide

end GroupBy

end TransactionCompaction

end AnchorKit
