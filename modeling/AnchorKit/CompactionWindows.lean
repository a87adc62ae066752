import AnchorKit.Library.GroupFold
import AnchorKit.TransactionCompaction

/-!
# What compaction computes

The windows group the records by the quotient of their timestamp and the window size. The scratch
state of a window tallies its records, and the loop passes over the windows that have none.
-/

namespace AnchorKit

namespace TransactionCompaction

open Fallible GroupFold

/-! ### Tallies -/

def volume (l : List RawTransactionRecord) : ℕ := (l.map fun r => r.amount.toNat).sum

def maxU64 : ℕ := 2 ^ 64 - 1

/-- The scratch state is that of these records, with counters that stop at their maximum. -/
structure Tallies (retain : Bool) (l : List RawTransactionRecord) (s : Scratch) : Prop where
  totalCount : s.totalCount.toNat = min l.length (2 ^ 32 - 1)
  completedCount :
    s.completedCount.toNat = min (l.countP fun r => isCompleted r.status) (2 ^ 32 - 1)
  pendingCount : s.pendingCount.toNat = min (l.countP fun r => isPending r.status) (2 ^ 32 - 1)
  errorCount : s.errorCount.toNat = min (l.countP fun r => isError r.status) (2 ^ 32 - 1)
  totalVolume : s.totalVolume.toNat = min (volume l) maxU64
  le_max : ∀ r ∈ l, r.amount.toNat ≤ s.maxAmount.toNat
  max_attained : s.maxAmount.toNat = 0 ∨ ∃ r ∈ l, r.amount = s.maxAmount
  min_le : ∀ r ∈ l, s.minAmount.toNat ≤ r.amount.toNat
  min_attained : s.minAmount.toNat = maxU64 ∨ ∃ r ∈ l, r.amount = s.minAmount
  firstId : s.firstId = if retain then l.head?.map RawTransactionRecord.id else none
  lastId : s.lastId = if retain then l.getLast?.map RawTransactionRecord.id else none

variable {retain : Bool} {l : List RawTransactionRecord} {s : Scratch}

theorem volume_snoc (l : List RawTransactionRecord) (r : RawTransactionRecord) :
    volume (l ++ [r]) = volume l + r.amount.toNat := by
  simp [volume]

theorem tallies_empty (retain : Bool) : Tallies retain [] .empty where
  totalCount := by simp [Scratch.empty]
  completedCount := by simp [Scratch.empty]
  pendingCount := by simp [Scratch.empty]
  errorCount := by simp [Scratch.empty]
  totalVolume := by simp [Scratch.empty, volume]
  le_max := by simp
  max_attained := Or.inl (by simp [Scratch.empty])
  min_le := by simp
  min_attained := Or.inl (by simp [Scratch.empty, maxU64])
  firstId := by simp [Scratch.empty]
  lastId := by simp [Scratch.empty]

theorem toNat_count_snoc {p : RawTransactionRecord → Bool} {count : UInt32}
    (h : count.toNat = min (l.countP p) (2 ^ 32 - 1)) (r : RawTransactionRecord) :
    (if p r then Word.saturatingAdd32 count 1 else count).toNat =
      min ((l ++ [r]).countP p) (2 ^ 32 - 1) := by
  rw [List.countP_append, List.countP_singleton]
  cases hp : p r with
  | true =>
    rw [if_pos rfl, if_pos rfl, Word.toNat_saturatingAdd32, h, UInt32.toNat_one]
    omega
  | false => simpa using h

theorem toNat_larger (a b : UInt64) :
    (if a < b then b else a).toNat = max a.toNat b.toNat := by
  split
  · rename_i hlt
    rw [UInt64.lt_iff_toNat_lt] at hlt
    omega
  · rename_i hge
    rw [UInt64.lt_iff_toNat_lt] at hge
    omega

theorem toNat_smaller (a b : UInt64) :
    (if b < a then b else a).toNat = min a.toNat b.toNat := by
  split
  · rename_i hlt
    rw [UInt64.lt_iff_toNat_lt] at hlt
    omega
  · rename_i hge
    rw [UInt64.lt_iff_toNat_lt] at hge
    omega

theorem Tallies.add (h : Tallies retain l s) (r : RawTransactionRecord) :
    Tallies retain (l ++ [r]) (s.add retain r) where
  totalCount := by
    have hcount := toNat_count_snoc (p := fun _ => true) (by simpa using h.totalCount) r
    simpa [Scratch.add] using hcount
  completedCount := toNat_count_snoc h.completedCount r
  pendingCount := toNat_count_snoc h.pendingCount r
  errorCount := toNat_count_snoc h.errorCount r
  totalVolume := by
    change (Word.saturatingAdd64 s.totalVolume r.amount).toNat = _
    rw [Word.toNat_saturatingAdd64, h.totalVolume, volume_snoc]
    unfold maxU64
    omega
  le_max x hx := by
    change x.amount.toNat ≤ UInt64.toNat (if s.maxAmount < r.amount then r.amount else s.maxAmount)
    rw [toNat_larger]
    rcases List.mem_append.mp hx with hx | hx
    · exact (h.le_max x hx).trans (le_max_left _ _)
    · obtain rfl := List.mem_singleton.mp hx
      exact le_max_right _ _
  max_attained := by
    change (if s.maxAmount < r.amount then r.amount else s.maxAmount).toNat = 0 ∨
      ∃ x ∈ l ++ [r], x.amount = if s.maxAmount < r.amount then r.amount else s.maxAmount
    split
    · exact Or.inr ⟨r, by simp, rfl⟩
    · rcases h.max_attained with hzero | ⟨x, hx, heq⟩
      · exact Or.inl hzero
      · exact Or.inr ⟨x, List.mem_append_left _ hx, heq⟩
  min_le x hx := by
    change (if r.amount < s.minAmount then r.amount else s.minAmount).toNat ≤ x.amount.toNat
    rw [toNat_smaller]
    rcases List.mem_append.mp hx with hx | hx
    · exact (min_le_left _ _).trans (h.min_le x hx)
    · obtain rfl := List.mem_singleton.mp hx
      exact min_le_right _ _
  min_attained := by
    change (if r.amount < s.minAmount then r.amount else s.minAmount).toNat = maxU64 ∨
      ∃ x ∈ l ++ [r], x.amount = if r.amount < s.minAmount then r.amount else s.minAmount
    split
    · exact Or.inr ⟨r, by simp, rfl⟩
    · rcases h.min_attained with hmax | ⟨x, hx, heq⟩
      · exact Or.inl hmax
      · exact Or.inr ⟨x, List.mem_append_left _ hx, heq⟩
  firstId := by
    have hfirst := h.firstId
    cases retain with
    | false => simpa [Scratch.add] using hfirst
    | true => cases l <;> simp_all [Scratch.add]
  lastId := by
    have hlast := h.lastId
    cases retain with
    | false => simpa [Scratch.add] using hlast
    | true => simp [Scratch.add]

theorem tallies_foldl (retain : Bool) (l : List RawTransactionRecord) :
    Tallies retain l (l.foldl (Scratch.add retain) .empty) := by
  induction l using List.reverseRecOn with
  | nil => exact tallies_empty retain
  | append_singleton l r ih =>
    rw [List.foldl_append]
    exact ih.add r

theorem Tallies.totalCount_pos (h : Tallies retain l s) : 0 < s.totalCount ↔ l ≠ [] := by
  rw [UInt32.lt_iff_toNat_lt, h.totalCount, ← List.length_pos_iff]
  change 0 < min l.length (2 ^ 32 - 1) ↔ _
  omega

/-! ### Windows -/

open Progress

variable (ws : WindowSize) (retain : Bool)

def index (r : RawTransactionRecord) : ℕ := r.timestamp.toNat / ws.val.toNat

def windowOf (g : ℕ × Scratch) : TransactionSummaryRecord :=
  g.2.flush retain (UInt64.ofNat (g.1 * ws.val.toNat))
    (UInt64.ofNat (g.1 * ws.val.toNat + ws.val.toNat))

/-- The end of the window of a record is a `u64`. -/
def Fits (r : RawTransactionRecord) : Prop :=
  index ws r * ws.val.toNat + ws.val.toNat < 2 ^ 64

structure Walked (past : List RawTransactionRecord) (done : List (ℕ × Scratch)) (current : ℕ)
    (p : Progress) : Prop where
  grouped : Grouped (index ws) (Scratch.add retain) .empty past done current p.scratch
  windows : p.windows = done.map (windowOf ws retain)
  windowStart : p.currentWindowStart.toNat = current * ws.val.toNat
  windowEnd : p.currentWindowEnd.toNat = current * ws.val.toNat + ws.val.toNat

variable {ws retain} {past : List RawTransactionRecord} {done : List (ℕ × Scratch)} {current : ℕ}
  {p : Progress} {r : RawTransactionRecord}

theorem WindowSize.toNat_pos (ws : WindowSize) : 0 < ws.val.toNat :=
  Nat.pos_of_ne_zero fun h => ws.property (UInt64.toNat_inj.mp h)

theorem tallies_summary (retain : Bool) (k : ℕ) (past : List RawTransactionRecord) :
    Tallies retain (group (index ws) k past)
      (summary (index ws) (Scratch.add retain) .empty k past) :=
  tallies_foldl retain _

theorem Walked.flushed_eq (h : Walked ws retain past done current p) :
    p.flushed retain =
      (done ++ if group (index ws) current past = [] then [] else [(current, p.scratch)]).map
        (windowOf ws retain) := by
  have htallies : Tallies retain (group (index ws) current past) _ :=
    tallies_summary retain current past
  rw [← h.grouped.folded] at htallies
  unfold Progress.flushed
  by_cases hnil : group (index ws) current past = []
  · rw [if_neg (mt htallies.totalCount_pos.mp (not_not_intro hnil)), if_pos hnil, List.append_nil,
      h.windows]
  · rw [if_pos (htallies.totalCount_pos.mpr hnil), if_neg hnil, List.map_append, h.windows]
    rw [List.map_singleton, windowOf, ← h.windowEnd, ← h.windowStart]
    simp

/-- The loop passes on to the window of a record, whatever windows lie between. -/
theorem Walked.advance (h : Walked ws retain past done current p) (hle : current ≤ index ws r)
    (hfits : Fits ws r) :
    ∃ done' p', p.advance ws retain r.timestamp = .ok p' ∧
      Walked ws retain past done' (index ws r) p' := by
  have hpos := WindowSize.toNat_pos ws
  have hdiv : index ws r * ws.val.toNat ≤ r.timestamp.toNat := Nat.div_mul_le_self _ _
  have hlt : r.timestamp.toNat < index ws r * ws.val.toNat + ws.val.toNat := by
    exact Nat.lt_div_mul_add hpos
  generalize hgap : index ws r - current = gap
  induction gap generalizing done current p with
  | zero =>
    have heq : current = index ws r := by omega
    refine ⟨done, p, ?_, heq ▸ h⟩
    rw [Progress.advance, if_pos]
    rw [UInt64.lt_iff_toNat_lt, h.windowEnd, heq]
    exact hlt
  | succ gap ih =>
    have hsucc : current + 1 ≤ index ws r := by omega
    have hmul : (current + 1) * ws.val.toNat ≤ index ws r * ws.val.toNat :=
      Nat.mul_le_mul_right _ hsucc
    rw [Nat.succ_mul] at hmul
    have hadd : p.currentWindowEnd.toNat + ws.val.toNat < 2 ^ 64 := by
      rw [h.windowEnd]
      unfold Fits at hfits
      omega
    have hchecked : Word.checkedAdd64 p.currentWindowEnd ws = some (p.currentWindowEnd + ws) :=
      if_pos hadd
    have hnot : ¬ r.timestamp < p.currentWindowEnd := by
      rw [UInt64.lt_iff_toNat_lt, h.windowEnd]
      omega
    have hnext : Walked ws retain past
        (done ++ if group (index ws) current past = [] then [] else [(current, p.scratch)])
        (current + 1)
        ⟨p.flushed retain, p.currentWindowEnd, p.currentWindowEnd + ws, .empty⟩ := by
      refine ⟨h.grouped.close (Nat.lt_succ_self current), h.flushed_eq, ?_, ?_⟩
      · change p.currentWindowEnd.toNat = _
        rw [h.windowEnd, Nat.succ_mul]
      · change (p.currentWindowEnd + ws.val).toNat = _
        rw [UInt64.toNat_add, Nat.mod_eq_of_lt hadd, h.windowEnd, Nat.succ_mul]
    obtain ⟨done', p', heq, hwalked⟩ := ih hnext hsucc (by omega)
    refine ⟨done', p', ?_, hwalked⟩
    rw [Progress.advance, if_neg hnot]
    split
    · rename_i hnone
      rw [hchecked] at hnone
      cases hnone
    · rename_i windowEnd hsome
      rw [hchecked, Option.some.injEq] at hsome
      rw [← hsome]
      exact heq

theorem Walked.addRecord (h : Walked ws retain past done current p) (hle : current ≤ index ws r)
    (hfits : Fits ws r) :
    ∃ done' p', p.addRecord ws retain r = .ok p' ∧
      Walked ws retain (past ++ [r]) done' (index ws r) p' := by
  obtain ⟨done', p', heq, hwalked⟩ := h.advance hle hfits
  refine ⟨done', { p' with scratch := p'.scratch.add retain r }, ?_, ?_⟩
  · rw [Progress.addRecord, heq]
    rfl
  · exact ⟨hwalked.grouped.push rfl, hwalked.windows, hwalked.windowStart, hwalked.windowEnd⟩

theorem index_le_index {a b : RawTransactionRecord} (h : a.timestamp ≤ b.timestamp) :
    index ws a ≤ index ws b :=
  Nat.div_le_div_right (UInt64.le_iff_toNat_le.mp h)

theorem Walked.walk (h : Walked ws retain past done current p)
    (hsorted : l.Pairwise fun a b => a.timestamp ≤ b.timestamp)
    (hle : ∀ r ∈ l, current ≤ index ws r) (hfits : ∀ r ∈ l, Fits ws r) :
    ∃ done' current' p', l.foldlM (Progress.addRecord ws retain) p = .ok p' ∧
      Walked ws retain (past ++ l) done' current' p' := by
  induction l generalizing past done current p with
  | nil => exact ⟨done, current, p, rfl, by simpa using h⟩
  | cons r l ih =>
    obtain ⟨hfirst, hrest⟩ := List.pairwise_cons.mp hsorted
    obtain ⟨done₁, p₁, heq, hwalked⟩ :=
      h.addRecord (hle r List.mem_cons_self) (hfits r List.mem_cons_self)
    obtain ⟨done', current', p', heq', hwalked'⟩ :=
      ih hwalked hrest (fun x hx => index_le_index (hfirst x hx))
        fun x hx => hfits x (List.mem_cons_of_mem _ hx)
    refine ⟨done', current', p', ?_, ?_⟩
    · rw [List.foldlM_cons, heq]
      exact heq'
    · simpa using hwalked'

theorem walked_start (hfits : Fits ws r) :
    ∃ p, Progress.start ws r.timestamp = .ok p ∧ Walked ws retain [] [] (index ws r) p := by
  have hmul : (r.timestamp / ws.val * ws.val).toNat = index ws r * ws.val.toNat := by
    rw [UInt64.toNat_mul, UInt64.toNat_div]
    exact Nat.mod_eq_of_lt (Nat.lt_of_le_of_lt (Nat.le_add_right _ _) hfits)
  have hadd : (r.timestamp / ws.val * ws.val).toNat + ws.val.toNat < 2 ^ 64 := by
    rw [hmul]
    exact hfits
  have hchecked : Word.checkedAdd64 (r.timestamp / ws.val * ws.val) ws.val =
      some (r.timestamp / ws.val * ws.val + ws.val) := if_pos hadd
  refine ⟨⟨[], r.timestamp / ws.val * ws.val, r.timestamp / ws.val * ws.val + ws.val, .empty⟩, ?_,
    .start _, rfl, hmul, ?_⟩
  · rw [Progress.start, hchecked]
    rfl
  · change (r.timestamp / ws.val * ws.val + ws.val).toNat = _
    rw [UInt64.toNat_add, Nat.mod_eq_of_lt hadd, hmul]

theorem groups_nil : Groups (index ws) (Scratch.add retain) .empty [] [] :=
  (Grouped.start 0).finish

/-- On sorted records whose windows fit, only the sums of the aggregate can go wrong. -/
theorem compactHistory_eq {records : List RawTransactionRecord}
    (hsorted : records.Pairwise fun a b => a.timestamp ≤ b.timestamp)
    (hfits : ∀ r ∈ records, Fits ws r) :
    ∃ done, Groups (index ws) (Scratch.add retain) .empty records done ∧
      compactHistory records ⟨ws, retain⟩ = (do
        let windows := done.map (windowOf ws retain)
        let aggregate ← aggregateOf records windows
        return .ok ⟨windows, aggregate⟩) := by
  have hchain : records.IsChain fun prev rec => prev.timestamp ≤ rec.timestamp := hsorted.isChain
  cases records with
  | nil =>
    refine ⟨[], groups_nil, ?_⟩
    rw [compactHistory, dif_neg ws.property, if_neg (not_not_intro hchain)]
    rfl
  | cons first rest =>
    obtain ⟨p, hstart, hwalked⟩ : ∃ p, Progress.start ws first.timestamp = .ok p ∧
        Walked ws retain [] [] (index ws first) p := walked_start (hfits first List.mem_cons_self)
    have hle : ∀ r ∈ first :: rest, index ws first ≤ index ws r := by
      intro r hr
      rcases List.mem_cons.mp hr with rfl | hr
      · exact Nat.le_refl _
      · exact index_le_index ((List.pairwise_cons.mp hsorted).1 r hr)
    obtain ⟨done, current, p', hfold, hwalked'⟩ := hwalked.walk hsorted hle hfits
    refine ⟨_, hwalked'.grouped.finish, ?_⟩
    have hwalk : Progress.walk ws retain first.timestamp (first :: rest) = .ok p' := by
      rw [Progress.walk, hstart]
      exact hfold
    rw [compactHistory, dif_neg ws.property, if_neg (not_not_intro hchain)]
    simp only [hwalk, hwalked'.flushed_eq]

end TransactionCompaction

end AnchorKit
