import AnchorKit.Library.Machine
import AnchorKit.Library.Paging
import AnchorKit.Library.Word
import Mathlib.Data.List.Perm.Basic

/-!
# Request records

Records are pushed into an active buffer. The retention policy drops some of them, and archiving
moves others into an archive, which is cleared once it was exported. Every record that was pushed is
in one of these places, once.
-/

namespace AnchorKit

/-- Zero stands for no limit. -/
structure RequestRetentionPolicy where
  maxRecords : ℕ
  maxAgeSeconds : UInt64
  pruneOnWrite : Bool

structure RequestRecord where
  id : UInt64
  timestamp : UInt64
  operation : String
  actor : String
  outcome : String
  detail : Option String

structure ExportBatch where
  records : List RequestRecord
  nextCursor : ℕ
  hasMore : Bool

structure RequestRecordStore where
  records : List RequestRecord
  archive : List RequestRecord
  policy : RequestRetentionPolicy

namespace RequestRetentionPolicy

def hasAgeLimit (policy : RequestRetentionPolicy) : Bool := decide (0 < policy.maxAgeSeconds)

def hasRecordLimit (policy : RequestRetentionPolicy) : Bool := decide (0 < policy.maxRecords)

end RequestRetentionPolicy

namespace RequestRecordStore

def new (policy : RequestRetentionPolicy) : RequestRecordStore := ⟨[], [], policy⟩

/-- The loop that removes the first record as long as there are too many. -/
def removeOldest (limit : ℕ) : List RequestRecord → List RequestRecord
  | [] => []
  | r :: rs => if limit < (r :: rs).length then removeOldest limit rs else r :: rs

def enforcePolicy (store : RequestRecordStore) (nowSecs : UInt64) : ℕ × RequestRecordStore :=
  let before := store.records.length
  let aged :=
    if store.policy.hasAgeLimit && decide (0 < nowSecs) then
      let cutoff := Word.saturatingSub64 nowSecs store.policy.maxAgeSeconds
      store.records.filter fun r => decide (cutoff ≤ r.timestamp)
    else store.records
  let capped :=
    if store.policy.hasRecordLimit then removeOldest store.policy.maxRecords aged else aged
  (before - capped.length, { store with records := capped })

def push (store : RequestRecordStore) (record : RequestRecord) (nowSecs : UInt64) :
    RequestRecordStore :=
  let store := { store with records := store.records ++ [record] }
  if store.policy.pruneOnWrite then (store.enforcePolicy nowSecs).2 else store

def setPolicy (store : RequestRecordStore) (policy : RequestRetentionPolicy) (nowSecs : UInt64) :
    RequestRecordStore :=
  ({ store with policy }.enforcePolicy nowSecs).2

def maxExportPageSize : ℕ := 100

/-- The page that both exports cut out of their buffer. -/
def page (buffer : List RequestRecord) (startCursor batchSize : ℕ) : ExportBatch :=
  let effectiveSize := min batchSize maxExportPageSize
  if buffer.length ≤ startCursor then ⟨[], startCursor, false⟩
  else
    let stop := min (startCursor + effectiveSize) buffer.length
    ⟨(buffer.drop startCursor).take (stop - startCursor), stop, decide (stop < buffer.length)⟩

def exportBatch (store : RequestRecordStore) (startCursor batchSize : ℕ) : ExportBatch :=
  page store.records startCursor batchSize

def exportAll (store : RequestRecordStore) : List RequestRecord := store.records

def archiveBefore (store : RequestRecordStore) (cutoffSecs : UInt64) : ℕ × RequestRecordStore :=
  let (toArchive, remaining) := store.records.partition fun r => decide (r.timestamp < cutoffSecs)
  (toArchive.length, { store with archive := store.archive ++ toArchive, records := remaining })

def archiveExport (store : RequestRecordStore) (startCursor batchSize : ℕ) : ExportBatch :=
  page store.archive startCursor batchSize

def clearArchive (store : RequestRecordStore) : ℕ × RequestRecordStore :=
  (store.archive.length, { store with archive := [] })

inductive Call
  | push (record : RequestRecord) (nowSecs : UInt64)
  | enforcePolicy (nowSecs : UInt64)
  | setPolicy (policy : RequestRetentionPolicy) (nowSecs : UInt64)
  | archiveBefore (cutoffSecs : UInt64)
  | clearArchive

def perform (store : RequestRecordStore) : Call → RequestRecordStore
  | .push record nowSecs => store.push record nowSecs
  | .enforcePolicy nowSecs => (store.enforcePolicy nowSecs).2
  | .setPolicy policy nowSecs => store.setPolicy policy nowSecs
  | .archiveBefore cutoffSecs => (store.archiveBefore cutoffSecs).2
  | .clearArchive => store.clearArchive.2

def step (store : RequestRecordStore) (c : Call) : Except Empty RequestRecordStore :=
  .ok (store.perform c)

def after (store : RequestRecordStore) (calls : List Call) : RequestRecordStore :=
  Machine.run step store calls

/-! ### What becomes of a record -/

def Call.pushed : Call → Option RequestRecord
  | .push record _ => some record
  | .enforcePolicy _ | .setPolicy _ _ | .archiveBefore _ | .clearArchive => none

/-- The record is too old for the policy. A clock of zero stands for no clock. -/
def Stale (policy : RequestRetentionPolicy) (nowSecs : UInt64) (r : RequestRecord) : Prop :=
  0 < policy.maxAgeSeconds ∧ 0 < nowSecs ∧
    r.timestamp.toNat + policy.maxAgeSeconds.toNat < nowSecs.toNat

instance (policy : RequestRetentionPolicy) (nowSecs : UInt64) (r : RequestRecord) :
    Decidable (Stale policy nowSecs r) := inferInstanceAs (Decidable (_ ∧ _ ∧ _))

def stale (policy : RequestRetentionPolicy) (nowSecs : UInt64) (rs : List RequestRecord) :
    List RequestRecord := rs.filter fun r => Stale policy nowSecs r

def fresh (policy : RequestRetentionPolicy) (nowSecs : UInt64) (rs : List RequestRecord) :
    List RequestRecord := rs.filter fun r => ¬ Stale policy nowSecs r

/-- How many of the oldest records a limit leaves no room for. -/
def surplus (policy : RequestRetentionPolicy) (rs : List RequestRecord) : ℕ :=
  if 0 < policy.maxRecords then rs.length - policy.maxRecords else 0

def kept (policy : RequestRetentionPolicy) (nowSecs : UInt64) (rs : List RequestRecord) :
    List RequestRecord :=
  (fresh policy nowSecs rs).drop (surplus policy (fresh policy nowSecs rs))

/-- What it drops: the stale records, and the oldest of the others where they are too many. -/
def pruned (policy : RequestRetentionPolicy) (nowSecs : UInt64) (rs : List RequestRecord) :
    List RequestRecord :=
  stale policy nowSecs rs ++
    (fresh policy nowSecs rs).take (surplus policy (fresh policy nowSecs rs))

/-- The policy and the clock with which the call enforces it, and what it is enforced on. -/
def enforced (store : RequestRecordStore) :
    Call → Option (RequestRetentionPolicy × UInt64 × List RequestRecord)
  | .push record nowSecs =>
    if store.policy.pruneOnWrite then some (store.policy, nowSecs, store.records ++ [record])
    else none
  | .enforcePolicy nowSecs => some (store.policy, nowSecs, store.records)
  | .setPolicy policy nowSecs => some (policy, nowSecs, store.records)
  | .archiveBefore _ | .clearArchive => none

def moved (store : RequestRecordStore) : Call → List RequestRecord
  | .archiveBefore cutoffSecs => store.records.filter fun r => r.timestamp < cutoffSecs
  | .push _ _ | .enforcePolicy _ | .setPolicy _ _ | .clearArchive => []

def discards (store : RequestRecordStore) (c : Call) : List RequestRecord :=
  match c with
  | .clearArchive => store.archive
  | c =>
    match store.enforced c with
    | some (policy, nowSecs, rs) => pruned policy nowSecs rs
    | none => []

def discarded (store : RequestRecordStore) : List Call → List RequestRecord
  | [] => []
  | c :: calls => store.discards c ++ discarded (store.perform c) calls

/-- Where the records of a run end up. -/
structure Accounted (store : RequestRecordStore) (calls : List Call) : Prop where
  once : (calls.filterMap Call.pushed).Perm
    ((store.after calls).records ++ (store.after calls).archive ++ store.discarded calls)
  ordered : (store.after calls).records.Sublist (calls.filterMap Call.pushed)
  bounded (js : List Call) (c : Call) (hjs : js ++ [c] <+: calls)
    (policy : RequestRetentionPolicy) (nowSecs : UInt64) (rs : List RequestRecord)
    (henforced : (store.after js).enforced c = some (policy, nowSecs, rs)) :
    (0 < policy.maxRecords → (store.after (js ++ [c])).records.length ≤ policy.maxRecords) ∧
      ∀ r ∈ (store.after (js ++ [c])).records, ¬ Stale policy nowSecs r

/-! ### One call -/

theorem removeOldest_eq (limit : ℕ) (rs : List RequestRecord) :
    removeOldest limit rs = rs.drop (rs.length - limit) := by
  induction rs with
  | nil => simp [removeOldest]
  | cons r rs ih =>
    rw [removeOldest, List.length_cons]
    by_cases h : limit < rs.length + 1
    · rw [if_pos h, ih, Nat.succ_sub (Nat.le_of_lt_succ h), List.drop_succ_cons]
    · rw [if_neg h, Nat.sub_eq_zero_of_le (Nat.le_of_not_lt h), List.drop_zero]

/-- A cutoff that would be before the epoch is at the epoch, where no record is older. -/
theorem not_stale_iff {policy : RequestRetentionPolicy} {nowSecs : UInt64} {r : RequestRecord}
    (hage : 0 < policy.maxAgeSeconds) (hnow : 0 < nowSecs) :
    Word.saturatingSub64 nowSecs policy.maxAgeSeconds ≤ r.timestamp ↔
      ¬ Stale policy nowSecs r := by
  rw [UInt64.le_iff_toNat_le, Word.toNat_saturatingSub64, Stale]
  simp only [hage, hnow, true_and]
  omega

theorem records_enforcePolicy (store : RequestRecordStore) (nowSecs : UInt64) :
    (store.enforcePolicy nowSecs).2 =
      { store with records := kept store.policy nowSecs store.records } := by
  have haged : (if store.policy.hasAgeLimit && decide (0 < nowSecs) then
        store.records.filter fun r =>
          decide (Word.saturatingSub64 nowSecs store.policy.maxAgeSeconds ≤ r.timestamp)
      else store.records) = fresh store.policy nowSecs store.records := by
    by_cases h : 0 < store.policy.maxAgeSeconds ∧ 0 < nowSecs
    · rw [if_pos (by simpa [RequestRetentionPolicy.hasAgeLimit] using h)]
      exact List.filter_congr fun r _ => decide_eq_decide.mpr (not_stale_iff h.1 h.2)
    · rw [if_neg (by simpa [RequestRetentionPolicy.hasAgeLimit] using h)]
      refine (List.filter_eq_self.mpr fun r _ => decide_eq_true ?_).symm
      exact fun hstale => h ⟨hstale.1, hstale.2.1⟩
  unfold enforcePolicy
  dsimp only
  rw [haged, kept]
  by_cases hlimit : 0 < store.policy.maxRecords
  · rw [if_pos (by simpa [RequestRetentionPolicy.hasRecordLimit] using hlimit), removeOldest_eq,
      surplus, if_pos hlimit]
  · rw [if_neg (by simpa [RequestRetentionPolicy.hasRecordLimit] using hlimit), surplus,
      if_neg hlimit, List.drop_zero]

inductive Effect (store : RequestRecordStore) : Call → RequestRecordStore → Prop
  | enforced {c : Call} (policy : RequestRetentionPolicy) (nowSecs : UInt64)
    (rs : List RequestRecord) (h : store.enforced c = some (policy, nowSecs, rs)) :
    Effect store c ⟨kept policy nowSecs rs, store.archive, policy⟩
  | pushed (record : RequestRecord) (nowSecs : UInt64) (h : store.policy.pruneOnWrite = false) :
    Effect store (.push record nowSecs) { store with records := store.records ++ [record] }
  | archived (cutoffSecs : UInt64) :
    Effect store (.archiveBefore cutoffSecs) { store with
      records := store.records.filter fun r => ¬ r.timestamp < cutoffSecs
      archive := store.archive ++ store.records.filter fun r => r.timestamp < cutoffSecs }
  | cleared : Effect store .clearArchive { store with archive := [] }

theorem effect_perform (store : RequestRecordStore) (c : Call) :
    Effect store c (store.perform c) := by
  cases c with
  | push record nowSecs =>
    rw [perform, RequestRecordStore.push]
    dsimp only
    cases hprune : store.policy.pruneOnWrite with
    | false => exact .pushed record nowSecs hprune
    | true =>
      rw [if_pos rfl, records_enforcePolicy]
      exact .enforced _ nowSecs _ (if_pos hprune)
  | enforcePolicy nowSecs =>
    rw [perform, records_enforcePolicy]
    exact .enforced _ nowSecs _ rfl
  | setPolicy policy nowSecs =>
    rw [perform, RequestRecordStore.setPolicy, records_enforcePolicy]
    exact .enforced policy nowSecs _ rfl
  | archiveBefore cutoffSecs =>
    have hnot : store.records.filter (not ∘ fun r => decide (r.timestamp < cutoffSecs)) =
        store.records.filter fun r => ¬ r.timestamp < cutoffSecs :=
      List.filter_congr fun r _ => (decide_not).symm
    rw [perform, RequestRecordStore.archiveBefore, List.partition_eq_filter_filter, hnot]
    exact .archived cutoffSecs
  | clearArchive => exact .cleared

theorem eq_of_enforced {store : RequestRecordStore} {c : Call} {policy : RequestRetentionPolicy}
    {nowSecs : UInt64} {rs : List RequestRecord}
    (h : store.enforced c = some (policy, nowSecs, rs)) :
    rs = store.records ++ c.pushed.toList := by
  cases c with
  | push record nowSecs =>
    rw [RequestRecordStore.enforced] at h
    split at h
    · cases h
      rfl
    · cases h
  | enforcePolicy nowSecs =>
    cases h
    exact (List.append_nil _).symm
  | setPolicy policy nowSecs =>
    cases h
    exact (List.append_nil _).symm
  | archiveBefore cutoffSecs => cases h
  | clearArchive => cases h

theorem discards_of_enforced {store : RequestRecordStore} {c : Call}
    {policy : RequestRetentionPolicy} {nowSecs : UInt64} {rs : List RequestRecord}
    (h : store.enforced c = some (policy, nowSecs, rs)) :
    store.discards c = pruned policy nowSecs rs := by
  unfold discards
  split
  · cases h
  · rw [h]

theorem kept_append_pruned (policy : RequestRetentionPolicy) (nowSecs : UInt64)
    (rs : List RequestRecord) :
    (kept policy nowSecs rs ++ pruned policy nowSecs rs).Perm rs := by
  have hfresh : (kept policy nowSecs rs ++ (fresh policy nowSecs rs).take
      (surplus policy (fresh policy nowSecs rs))).Perm (fresh policy nowSecs rs) := by
    rw [kept]
    exact List.perm_append_comm.trans (List.Perm.of_eq (List.take_append_drop _ _))
  have hall : (stale policy nowSecs rs ++ fresh policy nowSecs rs).Perm rs := by
    simpa [stale, fresh] using List.filter_append_perm (fun r => decide (Stale policy nowSecs r)) rs
  rw [pruned, ← List.append_assoc]
  refine (List.perm_append_comm.append_right _).trans ?_
  rw [List.append_assoc]
  exact (hfresh.append_left _).trans hall

theorem kept_sublist (policy : RequestRetentionPolicy) (nowSecs : UInt64)
    (rs : List RequestRecord) : (kept policy nowSecs rs).Sublist rs :=
  (List.drop_sublist _ _).trans List.filter_sublist

theorem length_kept_le {policy : RequestRetentionPolicy} (hlimit : 0 < policy.maxRecords)
    (nowSecs : UInt64) (rs : List RequestRecord) :
    (kept policy nowSecs rs).length ≤ policy.maxRecords := by
  rw [kept, List.length_drop, surplus, if_pos hlimit]
  omega

theorem not_stale_of_mem_kept {policy : RequestRetentionPolicy} {nowSecs : UInt64}
    {rs : List RequestRecord} {r : RequestRecord} (h : r ∈ kept policy nowSecs rs) :
    ¬ Stale policy nowSecs r := by
  simpa using (List.mem_filter.mp (List.mem_of_mem_drop h)).2

/-- A call neither loses a record nor makes one up. -/
theorem perm_perform (store : RequestRecordStore) (c : Call) :
    (store.records ++ store.archive ++ c.pushed.toList).Perm
      ((store.perform c).records ++ (store.perform c).archive ++ store.discards c) := by
  generalize hpost : store.perform c = post
  have heffect := effect_perform store c
  rw [hpost] at heffect
  cases heffect with
  | enforced policy nowSecs rs h =>
    obtain rfl := eq_of_enforced h
    rw [discards_of_enforced h]
    dsimp only
    have hbuffer := (kept_append_pruned policy nowSecs (store.records ++ c.pushed.toList)).symm
    -- the archive is in the middle on both sides
    have hswap (a b d : List RequestRecord) : (a ++ b ++ d).Perm (a ++ d ++ b) := by
      rw [List.append_assoc, List.append_assoc]
      exact List.perm_append_comm.append_left _
    exact (hswap _ _ _).trans ((hbuffer.append_right _).trans (hswap _ _ _))
  | pushed record nowSecs h =>
    have hdrops : store.discards (.push record nowSecs) = [] := by
      simp [discards, RequestRecordStore.enforced, h]
    rw [hdrops, List.append_nil]
    change (store.records ++ store.archive ++ [record]).Perm _
    rw [List.append_assoc, List.append_assoc]
    exact List.perm_append_comm.append_left _
  | archived cutoffSecs =>
    change (store.records ++ store.archive ++ []).Perm (_ ++ _ ++ [])
    rw [List.append_nil, List.append_nil]
    dsimp only
    have hsplit := (List.filter_append_perm (fun r => decide (r.timestamp < cutoffSecs))
      store.records).symm
    refine (hsplit.append_right _).trans ?_
    have hnot : store.records.filter (fun r => !decide (r.timestamp < cutoffSecs)) =
        store.records.filter fun r => ¬ r.timestamp < cutoffSecs :=
      List.filter_congr fun r _ => (decide_not).symm
    rw [hnot]
    refine (List.perm_append_comm.append_right _).trans ?_
    rw [List.append_assoc]
    exact List.perm_append_comm.append_left _
  | cleared =>
    change (store.records ++ store.archive ++ []).Perm (store.records ++ [] ++ store.archive)
    rw [List.append_nil, List.append_nil]

theorem records_perform_sublist (store : RequestRecordStore) (c : Call) :
    (store.perform c).records.Sublist (store.records ++ c.pushed.toList) := by
  generalize hpost : store.perform c = post
  have heffect := effect_perform store c
  rw [hpost] at heffect
  cases heffect with
  | enforced policy nowSecs rs h =>
    obtain rfl := eq_of_enforced h
    exact kept_sublist policy nowSecs _
  | pushed record nowSecs h => exact List.Sublist.refl _
  | archived cutoffSecs => exact List.filter_sublist.trans (List.sublist_append_left _ _)
  | cleared => exact List.sublist_append_left _ _

theorem records_of_enforced {store : RequestRecordStore} {c : Call}
    {policy : RequestRetentionPolicy} {nowSecs : UInt64} {rs : List RequestRecord}
    (h : store.enforced c = some (policy, nowSecs, rs)) :
    (store.perform c).records = kept policy nowSecs rs := by
  generalize hpost : store.perform c = post
  have heffect := effect_perform store c
  rw [hpost] at heffect
  cases heffect with
  | enforced policy' nowSecs' rs' h' =>
    obtain ⟨rfl, rfl, rfl⟩ := by simpa using h.symm.trans h'
    rfl
  | pushed record nowSecs hprune => simp [RequestRecordStore.enforced, hprune] at h
  | archived cutoffSecs => cases h
  | cleared => cases h

/-! ### All calls -/

theorem after_cons (store : RequestRecordStore) (c : Call) (calls : List Call) :
    store.after (c :: calls) = (store.perform c).after calls := rfl

theorem after_snoc (store : RequestRecordStore) (calls : List Call) (c : Call) :
    store.after (calls ++ [c]) = (store.after calls).perform c := Machine.run_snoc _ _ _ _

theorem filterMap_pushed_cons (c : Call) (calls : List Call) :
    (c :: calls).filterMap Call.pushed = c.pushed.toList ++ calls.filterMap Call.pushed := by
  rw [List.filterMap_cons]
  cases c.pushed with
  | none => rfl
  | some r => rfl

theorem perm_after (store : RequestRecordStore) (calls : List Call) :
    (store.records ++ store.archive ++ calls.filterMap Call.pushed).Perm
      ((store.after calls).records ++ (store.after calls).archive ++ store.discarded calls) := by
  induction calls generalizing store with
  | nil => exact List.Perm.refl _
  | cons c calls ih =>
    rw [filterMap_pushed_cons, after_cons, discarded, ← List.append_assoc]
    refine ((perm_perform store c).append_right _).trans ?_
    -- what this call drops is listed before what the later ones drop
    have hmiddle (a d e : List RequestRecord) : (a ++ d ++ e).Perm (a ++ e ++ d) := by
      rw [List.append_assoc, List.append_assoc]
      exact List.perm_append_comm.append_left _
    refine (hmiddle _ _ _).trans (((ih (store.perform c)).append_right _).trans ?_)
    rw [List.append_assoc]
    exact List.perm_append_comm.append_left _

theorem records_after_sublist (store : RequestRecordStore) (calls : List Call) :
    (store.after calls).records.Sublist (store.records ++ calls.filterMap Call.pushed) := by
  induction calls generalizing store with
  | nil => exact List.sublist_append_left _ _
  | cons c calls ih =>
    rw [filterMap_pushed_cons, after_cons, ← List.append_assoc]
    exact (ih (store.perform c)).trans ((records_perform_sublist store c).append_right _)

/-- Every record that was pushed is active, archived or dropped, and only one of them; what is
active is in the order of the pushes and within the policy whenever it is enforced. -/
theorem records_accounted (policy : RequestRetentionPolicy) (calls : List Call) :
    Accounted (new policy) calls where
  once := perm_after (new policy) calls
  ordered := records_after_sublist (new policy) calls
  bounded := by
    intro js c _ policy nowSecs rs henforced
    rw [after_snoc, records_of_enforced henforced]
    exact ⟨fun hlimit => length_kept_le hlimit nowSecs rs, fun r => not_stale_of_mem_kept⟩

/-! ### Exporting the archive while the store is in use -/

/-- An exporter with its cursor and what it wrote so far. It starts over when the archive is
cleared. -/
structure Exporter where
  store : RequestRecordStore
  cursor : ℕ
  written : List RequestRecord

inductive ExportAction
  | call (c : Call)
  | readPage (batchSize : ℕ)

namespace Exporter

def start (store : RequestRecordStore) : Exporter := ⟨store, 0, []⟩

def act (e : Exporter) : ExportAction → Exporter
  | .call .clearArchive => { e with store := e.store.perform .clearArchive, cursor := 0 }
  | .call c => { e with store := e.store.perform c }
  | .readPage batchSize =>
    let batch := e.store.archiveExport e.cursor batchSize
    { e with cursor := batch.nextCursor, written := e.written ++ batch.records }

def step (e : Exporter) (a : ExportAction) : Except Empty Exporter := .ok (e.act a)

def after (e : Exporter) (actions : List ExportAction) : Exporter := Machine.run step e actions

/-- What is in the archive and was not read yet. -/
def unread (e : Exporter) : List RequestRecord := e.store.archive.drop e.cursor

def moves (e : Exporter) : ExportAction → List RequestRecord
  | .call c => e.store.moved c
  | .readPage _ => []

/-- All records that a run moved into the archive, oldest move first. -/
def archived (e : Exporter) : List ExportAction → List RequestRecord
  | [] => []
  | a :: actions => e.moves a ++ archived (e.act a) actions

/-- The archive is cleared only when it was read to its end. -/
def ClearsRead (e : Exporter) (actions : List ExportAction) : Prop :=
  ∀ js, js ++ [.call .clearArchive] <+: actions → (e.after js).unread = []

/-- What an export that goes on during a run has written. A page of a positive size gets on as long
as anything is unread. -/
structure Exports (e : Exporter) (actions : List ExportAction) : Prop where
  complete : (e.after actions).written ++ (e.after actions).unread =
    e.store.archive ++ e.archived actions ↔ e.ClearsRead actions
  last (batchSize : ℕ) :
    ((e.after actions).store.archiveExport (e.after actions).cursor batchSize).hasMore = false ↔
      (e.after (actions ++ [.readPage batchSize])).unread = []
  writes (batchSize : ℕ) : (e.after (actions ++ [.readPage batchSize])).written =
    (e.after actions).written ++ (e.after actions).unread.take (min batchSize maxExportPageSize)
  advances (batchSize : ℕ) (hsize : 0 < batchSize) (hmore : (e.after actions).unread ≠ []) :
    (e.after (actions ++ [.readPage batchSize])).unread.length < (e.after actions).unread.length

variable {e : Exporter} {actions : List ExportAction}

theorem records_page (buffer : List RequestRecord) (cursor batchSize : ℕ) :
    (page buffer cursor batchSize).records =
      (buffer.drop cursor).take (min batchSize maxExportPageSize) := by
  unfold page
  dsimp only
  by_cases h : buffer.length ≤ cursor
  · rw [if_pos h, List.drop_eq_nil_of_le h, List.take_nil]
  · have hcap : min (cursor + min batchSize maxExportPageSize) buffer.length - cursor =
        min (min batchSize maxExportPageSize) (buffer.drop cursor).length := by
      rw [List.length_drop]
      omega
    rw [if_neg h]
    dsimp only
    rw [hcap, ← List.take_eq_take_min]

theorem drop_nextCursor (buffer : List RequestRecord) (cursor batchSize : ℕ) :
    buffer.drop (page buffer cursor batchSize).nextCursor =
      (buffer.drop cursor).drop (min batchSize maxExportPageSize) := by
  unfold page
  dsimp only
  rw [List.drop_drop]
  by_cases h : buffer.length ≤ cursor
  · rw [if_pos h, List.drop_eq_nil_of_le h, List.drop_eq_nil_of_le (by omega)]
  · rw [if_neg h]
    dsimp only
    rcases Nat.le_total (cursor + min batchSize maxExportPageSize) buffer.length with hle | hle
    · rw [min_eq_left hle]
    · rw [min_eq_right hle, List.drop_length, List.drop_eq_nil_of_le hle]

theorem nextCursor_le {buffer : List RequestRecord} {cursor : ℕ} (h : cursor ≤ buffer.length)
    (batchSize : ℕ) : (page buffer cursor batchSize).nextCursor ≤ buffer.length := by
  unfold page
  dsimp only
  split
  · exact h
  · exact Nat.min_le_right _ _

theorem hasMore_iff (buffer : List RequestRecord) (cursor batchSize : ℕ) :
    (page buffer cursor batchSize).hasMore = false ↔
      buffer.drop (page buffer cursor batchSize).nextCursor = [] := by
  unfold page
  dsimp only
  rw [List.drop_eq_nil_iff]
  by_cases h : buffer.length ≤ cursor
  · rw [if_pos h]
    simpa using h
  · rw [if_neg h]
    simp

theorem after_snoc (e : Exporter) (actions : List ExportAction) (a : ExportAction) :
    e.after (actions ++ [a]) = (e.after actions).act a := Machine.run_snoc _ _ _ _

theorem archived_snoc (e : Exporter) (actions : List ExportAction) (a : ExportAction) :
    e.archived (actions ++ [a]) = e.archived actions ++ (e.after actions).moves a := by
  induction actions generalizing e with
  | nil => exact List.append_nil _
  | cons b actions ih =>
    rw [List.cons_append, archived, ih, archived, List.append_assoc]
    rfl

theorem clearsRead_snoc {a : ExportAction} :
    e.ClearsRead (actions ++ [a]) ↔
      e.ClearsRead actions ∧ (a = .call .clearArchive → (e.after actions).unread = []) := by
  constructor
  · intro h
    refine ⟨fun js hjs => h js (hjs.trans (List.prefix_append _ _)), ?_⟩
    rintro rfl
    exact h actions (List.prefix_refl _)
  · rintro ⟨hpast, hlast⟩ js hjs
    rcases List.prefix_concat_iff.mp hjs with heq | hpre
    · obtain ⟨rfl, ha⟩ := List.append_inj' heq rfl
      exact hlast (List.singleton_inj.mp ha).symm
    · exact hpast js hpre

theorem archive_perform (store : RequestRecordStore) {c : Call} (hc : c ≠ .clearArchive) :
    (store.perform c).archive = store.archive ++ store.moved c := by
  generalize hpost : store.perform c = post
  have heffect := effect_perform store c
  rw [hpost] at heffect
  cases heffect with
  | enforced policy nowSecs rs h =>
    cases c with
    | archiveBefore cutoffSecs => cases h
    | push record nowSecs => exact (List.append_nil _).symm
    | enforcePolicy nowSecs => exact (List.append_nil _).symm
    | setPolicy policy nowSecs => exact (List.append_nil _).symm
    | clearArchive => cases h
  | pushed record nowSecs h => exact (List.append_nil _).symm
  | archived cutoffSecs => rfl
  | cleared => exact absurd rfl hc

/-- What one action does to the archive behind the cursor and to what was written. -/
inductive Progress (e : Exporter) : ExportAction → Exporter → Prop
  | call {c : Call} {e' : Exporter} (hc : c ≠ .clearArchive)
    (hcursor : e'.cursor ≤ e'.store.archive.length) (hwritten : e'.written = e.written)
    (hunread : e'.unread = e.unread ++ e.store.moved c) : Progress e (.call c) e'
  | cleared {e' : Exporter} (hcursor : e'.cursor ≤ e'.store.archive.length)
    (hwritten : e'.written = e.written) (hunread : e'.unread = []) :
    Progress e (.call .clearArchive) e'
  | read (batchSize : ℕ) {e' : Exporter} (hcursor : e'.cursor ≤ e'.store.archive.length)
    (h : e'.written ++ e'.unread = e.written ++ e.unread) : Progress e (.readPage batchSize) e'

theorem progress_act (h : e.cursor ≤ e.store.archive.length) (a : ExportAction) :
    Progress e a (e.act a) := by
  cases a with
  | readPage batchSize =>
    refine .read batchSize (nextCursor_le h batchSize) ?_
    change e.written ++ _ ++ _ = _
    rw [List.append_assoc]
    refine congrArg _ ?_
    change (page e.store.archive e.cursor batchSize).records ++
      e.store.archive.drop (page e.store.archive e.cursor batchSize).nextCursor = _
    rw [records_page, drop_nextCursor, List.take_append_drop]
    rfl
  | call c =>
    by_cases hc : c = .clearArchive
    · subst hc
      exact .cleared (Nat.le_refl 0) rfl rfl
    · have hact : e.act (.call c) = { e with store := e.store.perform c } := by
        cases c with
        | clearArchive => exact absurd rfl hc
        | push record nowSecs => rfl
        | enforcePolicy nowSecs => rfl
        | setPolicy policy nowSecs => rfl
        | archiveBefore cutoffSecs => rfl
      rw [hact]
      refine .call hc ?_ rfl ?_
      · change e.cursor ≤ (e.store.perform c).archive.length
        rw [archive_perform _ hc, List.length_append]
        omega
      · change (e.store.perform c).archive.drop e.cursor = _
        rw [archive_perform _ hc, List.drop_append_of_le_length h]
        rfl

/-- What an exporter started at the first record has after a run. -/
structure Reached (store : RequestRecordStore) (actions : List ExportAction) (e : Exporter) :
    Prop where
  cursor_le : e.cursor ≤ e.store.archive.length
  sublist : (e.written ++ e.unread).Sublist (store.archive ++ (start store).archived actions)
  complete : e.written ++ e.unread = store.archive ++ (start store).archived actions ↔
    (start store).ClearsRead actions

theorem reached_after (store : RequestRecordStore) (actions : List ExportAction) :
    Reached store actions ((start store).after actions) := by
  induction actions using List.reverseRecOn with
  | nil =>
    refine ⟨Nat.zero_le _, by simp [after, start, archived, unread], ?_⟩
    refine iff_of_true (by simp [after, start, archived, unread]) fun js hjs => ?_
    simp at hjs
  | append_singleton actions a ih =>
    rw [after_snoc]
    generalize hpost : ((start store).after actions).act a = e'
    have hprogress := progress_act ih.cursor_le a
    rw [hpost] at hprogress
    cases hprogress with
    | @call c _ hc hcursor hwritten hunread =>
      have hmoves : ((start store).after actions).moves (.call c) =
        ((start store).after actions).store.moved c := rfl
      refine ⟨hcursor, ?_, ?_⟩
      · rw [hwritten, hunread, archived_snoc, hmoves, ← List.append_assoc, ← List.append_assoc]
        exact ih.sublist.append_right _
      · rw [hwritten, hunread, archived_snoc, hmoves, ← List.append_assoc, ← List.append_assoc,
          List.append_left_inj, clearsRead_snoc, ih.complete]
        simp [hc]
    | cleared hcursor hwritten hunread =>
      have hmoves : ((start store).after actions).moves (.call .clearArchive) = [] := rfl
      refine ⟨hcursor, ?_, ?_⟩
      · rw [hwritten, hunread, archived_snoc, hmoves, List.append_nil, List.append_nil]
        exact (List.sublist_append_left _ _).trans ih.sublist
      · rw [hwritten, hunread, archived_snoc, hmoves, List.append_nil, List.append_nil,
          clearsRead_snoc, ← ih.complete]
        constructor
        · intro h
          -- what was written is everything, so there is nothing that was not read
          have hlength := ih.sublist.length_le
          rw [← h, List.length_append] at hlength
          have hnil : ((start store).after actions).unread = [] :=
            List.eq_nil_of_length_eq_zero (by omega)
          exact ⟨by rw [hnil, List.append_nil, h], fun _ => hnil⟩
        · rintro ⟨h, hnil⟩
          rwa [hnil rfl, List.append_nil] at h
    | read batchSize hcursor h =>
      have hmoves : ((start store).after actions).moves (.readPage batchSize) = [] := rfl
      refine ⟨hcursor, ?_, ?_⟩
      · rw [h, archived_snoc, hmoves, List.append_nil]
        exact ih.sublist
      · rw [h, archived_snoc, hmoves, List.append_nil, clearsRead_snoc, ih.complete]
        simp

/-- Whatever is called between two pages, what the export has written and what it has yet to read is
each archived record once, in order, if and only if the archive was never cleared before it was read
to its end. -/
theorem exports_archive (store : RequestRecordStore) (actions : List ExportAction) :
    Exports (start store) actions where
  complete := (reached_after store actions).complete
  last := by
    intro batchSize
    rw [after_snoc]
    exact hasMore_iff _ _ batchSize
  writes := by
    intro batchSize
    rw [after_snoc]
    exact congrArg _ (records_page _ _ batchSize)
  advances := by
    intro batchSize hsize hmore
    have hunread : (((start store).after actions).act (.readPage batchSize)).unread =
        ((start store).after actions).unread.drop (min batchSize maxExportPageSize) :=
      drop_nextCursor _ _ batchSize
    have hlength := List.length_pos_iff.mpr hmore
    rw [after_snoc, hunread, List.length_drop]
    unfold maxExportPageSize
    omega

end Exporter

/-! ### Exporting a buffer at rest -/

def nextPage (batch : ExportBatch) : Option ℕ :=
  if batch.hasMore then some batch.nextCursor else none

def pageAt (store : RequestRecordStore) (batchSize : ℕ) (cursor : ℕ) : Option ExportBatch :=
  some (store.exportBatch cursor batchSize)

theorem cuts_pageAt (store : RequestRecordStore) {batchSize : ℕ} (h : batchSize ≠ 0) :
    Paging.Cuts (store.pageAt batchSize) nextPage ExportBatch.records id store.exportAll
      (min batchSize maxExportPageSize) where
  limit_pos := by
    unfold maxExportPageSize
    omega
  page := by
    intro cursor hcursor
    refine ⟨_, rfl, ?_⟩
    change cursor ≤ store.records.length at hcursor
    unfold exportBatch page nextPage exportAll
    dsimp only [id]
    rcases Nat.lt_or_eq_of_le hcursor with hlt | rfl
    · rw [if_neg (by omega)]
      dsimp only
      refine ⟨?_, fun hlast => ?_, fun later hlater => ?_⟩
      · have hrecords := Exporter.records_page store.records cursor batchSize
        rw [page, if_neg (by omega)] at hrecords
        exact hrecords
      · simp at hlast
        omega
      · simp at hlater
        omega
    · rw [if_pos (Nat.le_refl _)]
      simp

/-- A page of no records in front of records leads back to itself. -/
theorem follow_empty_pages {store : RequestRecordStore} (h : store.exportAll ≠ []) (fuel : ℕ) :
    Paging.follow (store.pageAt 0) nextPage fuel 0 = none := by
  have hpos : 0 < store.records.length := List.length_pos_iff.mpr h
  induction fuel with
  | zero => rfl
  | succ fuel ih =>
    have hnext : nextPage (store.exportBatch 0 0) = some 0 := by
      simp [nextPage, exportBatch, page, Nat.ne_of_gt hpos, hpos]
    rw [Paging.follow, pageAt]
    dsimp only
    rw [hnext]
    dsimp only
    rw [ih, Option.map_none]

/-- Following the cursors reads all active records once, in order, in pages of at most a hundred;
with pages of no records it never ends, unless there are none. -/
theorem exports_active_iff (store : RequestRecordStore) (batchSize : ℕ) :
    (∃ pages, Paging.Reads (store.pageAt batchSize) nextPage ExportBatch.records 0 store.exportAll
      (min batchSize maxExportPageSize) pages) ↔ batchSize ≠ 0 ∨ store.exportAll = [] := by
  constructor
  · rintro ⟨pages, hpages⟩
    by_contra hno
    obtain ⟨hzero, hne⟩ := not_or.mp hno
    rw [not_not] at hzero
    subst hzero
    have hfollow := hpages.follow_eq pages.length (Nat.le_refl _)
    rw [follow_empty_pages hne] at hfollow
    cases hfollow
  · intro h
    by_cases hsize : batchSize = 0
    · have hnil : store.records = [] := h.resolve_left (not_not.mpr hsize)
      have hpage : store.exportBatch 0 batchSize = ⟨[], 0, false⟩ := by
        simp [exportBatch, page, hnil]
      refine ⟨[⟨[], 0, false⟩], ?_⟩
      rw [exportAll, hnil]
      have hread : store.pageAt batchSize 0 = some ⟨[], 0, false⟩ := congrArg some hpage
      exact Paging.Reads.last hread rfl (Nat.zero_le _)
    · have hstart : id 0 ≤ store.exportAll.length := Nat.zero_le _
      simpa using (cuts_pageAt store hsize).reads hstart

end RequestRecordStore
end AnchorKit
