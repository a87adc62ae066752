import AnchorKit.Library.Machine
import AnchorKit.WebhookDelivery

/-!
# Queues of dead letters

A queue drops its oldest entry when it is full and its old entries when it is cleaned up. A single
entry is removed by building the queue again from the others. A storage keeps one queue a key, and
is read from and written to plain lists of entries.
-/

namespace AnchorKit

namespace Webhook

structure WebhookQueue (α : Type) where
  entries : List α
  maxCapacity : Option ℕ
  retentionSeconds : Option UInt64

namespace WebhookQueue

variable {α : Type}

def new : WebhookQueue α := ⟨[], none, none⟩

def withCapacity (maxCapacity : ℕ) : WebhookQueue α := ⟨[], some maxCapacity, none⟩

def withCapacityAndRetention (maxCapacity : ℕ) (retentionSeconds : UInt64) : WebhookQueue α :=
  ⟨[], some maxCapacity, some retentionSeconds⟩

def enqueue (queue : WebhookQueue α) (entry : α) : WebhookQueue α :=
  let entries := match queue.maxCapacity with
    | some capacity => if capacity ≤ queue.entries.length then queue.entries.tail else queue.entries
    | none => queue.entries
  { queue with entries := entries ++ [entry] }

def len (queue : WebhookQueue α) : ℕ := queue.entries.length

def retain (queue : WebhookQueue α) (predicate : α → Bool) : WebhookQueue α :=
  { queue with entries := queue.entries.filter predicate }

def clear (queue : WebhookQueue α) : WebhookQueue α := { queue with entries := [] }

end WebhookQueue

structure DeadLetterQueue where
  queue : WebhookQueue DlqEntry
  retentionSeconds : UInt64
  maxCapacity : Option ℕ

namespace DeadLetterQueue

def new : DeadLetterQueue := ⟨.new, 604800, none⟩

def withRetention (retentionSeconds : UInt64) : DeadLetterQueue := ⟨.new, retentionSeconds, none⟩

def withCapacity (maxCapacity : ℕ) : DeadLetterQueue :=
  ⟨.withCapacity maxCapacity, 604800, some maxCapacity⟩

def withRetentionAndCapacity (retentionSeconds : UInt64) (maxCapacity : ℕ) : DeadLetterQueue :=
  ⟨.withCapacityAndRetention maxCapacity retentionSeconds, retentionSeconds, some maxCapacity⟩

def addFailedDelivery (queue : DeadLetterQueue) (entry : DlqEntry) : DeadLetterQueue :=
  { queue with queue := queue.queue.enqueue entry }

def entries (queue : DeadLetterQueue) : List DlqEntry := queue.queue.entries

def len (queue : DeadLetterQueue) : ℕ := queue.queue.len

def cleanupExpired (queue : DeadLetterQueue) (currentTime : UInt64) : ℕ × DeadLetterQueue :=
  let before := queue.queue.len
  let cutoff := Word.saturatingSub64 currentTime queue.retentionSeconds
  let kept := queue.queue.retain fun e => cutoff ≤ e.failedAtTimestamp
  (before - kept.len, { queue with queue := kept })

/-- The other entries are enqueued again. -/
def removeEntry (queue : DeadLetterQueue) (index : ℕ) : Option DlqEntry × DeadLetterQueue :=
  if h : index < queue.queue.entries.length then
    let removed := queue.queue.entries[index]
    let entries := queue.queue.entries.eraseIdx index
    (some removed,
      { queue with queue := entries.foldl WebhookQueue.enqueue queue.queue.clear })
  else (none, queue)

def clear (queue : DeadLetterQueue) : DeadLetterQueue := { queue with queue := queue.queue.clear }

end DeadLetterQueue

structure DlqStorage where
  queues : Std.TreeMap Text DeadLetterQueue
  defaultRetentionSeconds : UInt64
  defaultMaxCapacity : Option ℕ

namespace DlqStorage

def new : DlqStorage := ⟨∅, 604800, none⟩

def withDefaults (retentionSeconds : UInt64) (maxCapacity : Option ℕ) : DlqStorage :=
  ⟨∅, retentionSeconds, maxCapacity⟩

def freshQueue (storage : DlqStorage) : DeadLetterQueue :=
  match storage.defaultMaxCapacity with
  | some capacity => .withRetentionAndCapacity storage.defaultRetentionSeconds capacity
  | none => .withRetention storage.defaultRetentionSeconds

def addFailedDelivery (storage : DlqStorage) (queueKey : Text) (entry : DlqEntry) : DlqStorage :=
  let queue := storage.queues.getD queueKey storage.freshQueue
  { storage with queues := storage.queues.insert queueKey (queue.addFailedDelivery entry) }

def getEntries (storage : DlqStorage) (queueKey : Text) : List DlqEntry :=
  (storage.queues[queueKey]?.map DeadLetterQueue.entries).getD []

def cleanupAllExpired (storage : DlqStorage) (currentTime : UInt64) : ℕ × DlqStorage :=
  ((storage.queues.toList.map fun e => (e.2.cleanupExpired currentTime).1).sum,
    { storage with
      queues := storage.queues.map fun _key queue => (queue.cleanupExpired currentTime).2 })

def cleanupExpired (storage : DlqStorage) (queueKey : Text) (currentTime : UInt64) :
    ℕ × DlqStorage :=
  match storage.queues[queueKey]? with
  | some queue =>
    let (removed, queue) := queue.cleanupExpired currentTime
    (removed, { storage with queues := storage.queues.insert queueKey queue })
  | none => (0, storage)

def removeEntry (storage : DlqStorage) (queueKey : Text) (index : ℕ) :
    Option DlqEntry × DlqStorage :=
  match storage.queues[queueKey]? with
  | some queue =>
    let (removed, queue) := queue.removeEntry index
    (removed, { storage with queues := storage.queues.insert queueKey queue })
  | none => (none, storage)

def toLegacyFormat (storage : DlqStorage) : DeadLetters :=
  storage.queues.map fun _key queue => queue.entries

/-- Every entry is added again, to a storage with the default settings. -/
def fromLegacyFormat (map : DeadLetters) : DlqStorage :=
  map.toList.foldl (fun storage (key, entries) =>
    entries.foldl (fun storage entry => storage.addFailedDelivery key entry) storage) new

end DlqStorage

/-! ### Runs of a queue -/

namespace DeadLetterQueue

inductive Constructor
  | new
  | withRetention (retentionSeconds : UInt64)
  | withCapacity (maxCapacity : ℕ)
  | withRetentionAndCapacity (retentionSeconds : UInt64) (maxCapacity : ℕ)
deriving DecidableEq, Repr

def Constructor.build : Constructor → DeadLetterQueue
  | .new => .new
  | .withRetention retentionSeconds => .withRetention retentionSeconds
  | .withCapacity maxCapacity => .withCapacity maxCapacity
  | .withRetentionAndCapacity retentionSeconds maxCapacity =>
    .withRetentionAndCapacity retentionSeconds maxCapacity

inductive Call
  | addFailedDelivery (entry : DlqEntry)
  | cleanupExpired (currentTime : UInt64)
  | removeEntry (index : ℕ)
  | clear
deriving DecidableEq, Repr

def Call.added : Call → Option DlqEntry
  | .addFailedDelivery entry => some entry
  | .cleanupExpired _ | .removeEntry _ | .clear => none

def perform (queue : DeadLetterQueue) : Call → DeadLetterQueue
  | .addFailedDelivery entry => queue.addFailedDelivery entry
  | .cleanupExpired currentTime => (queue.cleanupExpired currentTime).2
  | .removeEntry index => (queue.removeEntry index).2
  | .clear => queue.clear

def step (queue : DeadLetterQueue) (c : Call) : Except Empty DeadLetterQueue :=
  .ok (queue.perform c)

def after (queue : DeadLetterQueue) (calls : List Call) : DeadLetterQueue :=
  Machine.run step queue calls

def Expired (retentionSeconds currentTime : UInt64) (e : DlqEntry) : Prop :=
  e.failedAtTimestamp.toNat + retentionSeconds.toNat < currentTime.toNat

instance (retentionSeconds currentTime : UInt64) (e : DlqEntry) :
    Decidable (Expired retentionSeconds currentTime e) :=
  inferInstanceAs (Decidable (_ < _))

/-- What a call may do to the entries of a queue: the ways in which an entry can disappear. -/
inductive Changes (maxCapacity : Option ℕ) (retentionSeconds : UInt64) :
    List DlqEntry → Call → List DlqEntry → Prop
  | added (es : List DlqEntry) (e : DlqEntry) :
    Changes maxCapacity retentionSeconds es (.addFailedDelivery e) (es ++ [e])
  | evicted (oldest : DlqEntry) (es : List DlqEntry) (e : DlqEntry) (capacity : ℕ)
    (hcapacity : maxCapacity = some capacity) (hfull : capacity ≤ es.length + 1) :
    Changes maxCapacity retentionSeconds (oldest :: es) (.addFailedDelivery e) (es ++ [e])
  | expired (es : List DlqEntry) (currentTime : UInt64) :
    Changes maxCapacity retentionSeconds es (.cleanupExpired currentTime)
      (es.filter fun e => ¬ Expired retentionSeconds currentTime e)
  | removed (es : List DlqEntry) (index : ℕ) :
    Changes maxCapacity retentionSeconds es (.removeEntry index) (es.eraseIdx index)
  | cleared (es : List DlqEntry) : Changes maxCapacity retentionSeconds es .clear []

/-- What a queue does with its entries in a run, at each of its points. -/
structure KeepsEntries (queue : DeadLetterQueue) (calls : List Call) : Prop where
  bounded (js : List Call) (hjs : js <+: calls) (capacity : ℕ)
    (hcapacity : queue.maxCapacity = some capacity) : (queue.after js).len ≤ capacity
  ordered (js : List Call) (hjs : js <+: calls) :
    (queue.after js).entries.Sublist (js.filterMap Call.added)
  changes (js : List Call) (c : Call) (hjs : js ++ [c] <+: calls) :
    Changes queue.maxCapacity queue.retentionSeconds (queue.after js).entries c
      (queue.after (js ++ [c])).entries
  removes (js : List Call) (index : ℕ) (hjs : js ++ [.removeEntry index] <+: calls) :
    ((queue.after js).removeEntry index).1 = (queue.after js).entries[index]?

end DeadLetterQueue

/-! ### One call -/

namespace WebhookQueue

variable {α : Type} {queue : WebhookQueue α}

/-- A full queue without entries is the one that grows nevertheless. -/
theorem entries_enqueue (queue : WebhookQueue α) (entry : α) :
    (queue.enqueue entry).entries = queue.entries ++ [entry] ∨
      ∃ oldest rest capacity, queue.entries = oldest :: rest ∧ queue.maxCapacity = some capacity ∧
        capacity ≤ queue.entries.length ∧ (queue.enqueue entry).entries = rest ++ [entry] := by
  unfold enqueue
  cases hcapacity : queue.maxCapacity with
  | none => exact Or.inl rfl
  | some capacity =>
    dsimp only
    by_cases hfull : capacity ≤ queue.entries.length
    · rw [if_pos hfull]
      cases hentries : queue.entries with
      | nil => exact Or.inl rfl
      | cons oldest rest =>
        rw [hentries] at hfull
        exact Or.inr ⟨oldest, rest, capacity, rfl, rfl, hfull, rfl⟩
    · rw [if_neg hfull]
      exact Or.inl rfl

theorem length_enqueue_le {capacity : ℕ} (hcapacity : queue.maxCapacity = some capacity)
    (h : queue.entries.length ≤ max 1 capacity) (entry : α) :
    (queue.enqueue entry).entries.length ≤ max 1 capacity := by
  unfold enqueue
  rw [hcapacity]
  dsimp only
  split
  · rw [List.length_append, List.length_tail, List.length_singleton]
    omega
  · rw [List.length_append, List.length_singleton]
    omega

theorem foldl_enqueue {es : List α}
    (h : ∀ capacity ∈ queue.maxCapacity, queue.entries.length + es.length ≤ capacity) :
    es.foldl enqueue queue = { queue with entries := queue.entries ++ es } := by
  induction es generalizing queue with
  | nil => rw [List.append_nil, List.foldl_nil]
  | cons e es ih =>
    have hfirst : queue.enqueue e = { queue with entries := queue.entries ++ [e] } := by
      unfold enqueue
      cases hcapacity : queue.maxCapacity with
      | none => rfl
      | some capacity =>
        have hroom := h capacity hcapacity
        rw [List.length_cons] at hroom
        dsimp only
        rw [if_neg (by omega)]
    rw [List.foldl_cons, hfirst, ih]
    · simp
    · intro capacity hcapacity
      have hroom := h capacity hcapacity
      rw [List.length_cons] at hroom
      rw [List.length_append, List.length_singleton]
      omega

end WebhookQueue

namespace DeadLetterQueue

variable {queue : DeadLetterQueue} {maxCapacity : Option ℕ} {retentionSeconds : UInt64}

/-- The queue has these limits and at most as many entries, but one where none is allowed. -/
structure Sized (maxCapacity : Option ℕ) (retentionSeconds : UInt64) (queue : DeadLetterQueue) :
    Prop where
  capacity_eq : queue.queue.maxCapacity = maxCapacity
  retention_eq : queue.retentionSeconds = retentionSeconds
  length_le (capacity : ℕ) (h : maxCapacity = some capacity) :
    queue.entries.length ≤ max 1 capacity

theorem sized_build (c : Constructor) :
    Sized c.build.maxCapacity c.build.retentionSeconds c.build := by
  cases c with
  | new => exact ⟨rfl, rfl, fun _ _ => Nat.zero_le _⟩
  | withRetention retentionSeconds => exact ⟨rfl, rfl, fun _ _ => Nat.zero_le _⟩
  | withCapacity maxCapacity => exact ⟨rfl, rfl, fun _ _ => Nat.zero_le _⟩
  | withRetentionAndCapacity retentionSeconds maxCapacity =>
    exact ⟨rfl, rfl, fun _ _ => Nat.zero_le _⟩

theorem entries_cleanupExpired (queue : DeadLetterQueue) (currentTime : UInt64) :
    (queue.cleanupExpired currentTime).2.entries =
      queue.entries.filter fun e => ¬ Expired queue.retentionSeconds currentTime e := by
  refine List.filter_congr fun e _ => decide_eq_decide.mpr ?_
  rw [UInt64.le_iff_toNat_le, Word.toNat_saturatingSub64, Expired]
  omega

theorem Sized.removeEntry (h : Sized maxCapacity retentionSeconds queue) (index : ℕ) :
    queue.removeEntry index = (queue.entries[index]?,
      { queue with queue := { queue.queue with entries := queue.entries.eraseIdx index } }) := by
  unfold DeadLetterQueue.removeEntry entries
  by_cases hindex : index < queue.queue.entries.length
  · have hroom : ∀ capacity ∈ queue.queue.clear.maxCapacity, queue.queue.clear.entries.length +
        (queue.queue.entries.eraseIdx index).length ≤ capacity := by
      intro capacity hcapacity
      have hle := h.length_le capacity (h.capacity_eq.symm.trans hcapacity)
      change queue.queue.entries.length ≤ _ at hle
      rw [List.length_eraseIdx_of_lt hindex]
      change 0 + _ ≤ _
      omega
    rw [dif_pos hindex, List.getElem?_eq_getElem hindex]
    dsimp only
    rw [WebhookQueue.foldl_enqueue hroom]
    rfl
  · rw [dif_neg hindex, List.getElem?_eq_none (Nat.le_of_not_lt hindex),
      List.eraseIdx_of_length_le (Nat.le_of_not_lt hindex)]

theorem Sized.changes (h : Sized maxCapacity retentionSeconds queue) (c : Call) :
    Changes maxCapacity retentionSeconds queue.entries c (queue.perform c).entries := by
  cases c with
  | addFailedDelivery e =>
    rcases queue.queue.entries_enqueue e with
      hadded | ⟨oldest, rest, capacity, hes, hcap, hfull, hrest⟩
    · change Changes _ _ _ _ (queue.queue.enqueue e).entries
      rw [hadded]
      exact .added _ _
    · change Changes _ _ queue.queue.entries _ (queue.queue.enqueue e).entries
      rw [hes] at hfull ⊢
      rw [hrest]
      exact .evicted _ _ _ capacity (h.capacity_eq.symm.trans hcap) hfull
  | cleanupExpired currentTime =>
    rw [perform, entries_cleanupExpired, h.retention_eq]
    exact .expired _ _
  | removeEntry index =>
    rw [perform, h.removeEntry]
    exact .removed _ _
  | clear => exact .cleared _

theorem Sized.perform (h : Sized maxCapacity retentionSeconds queue) (c : Call) :
    Sized maxCapacity retentionSeconds (queue.perform c) := by
  cases c with
  | addFailedDelivery e =>
    refine ⟨h.capacity_eq, h.retention_eq, fun capacity hcapacity => ?_⟩
    exact WebhookQueue.length_enqueue_le (h.capacity_eq.trans hcapacity)
      (h.length_le capacity hcapacity) e
  | cleanupExpired currentTime =>
    refine ⟨h.capacity_eq, h.retention_eq, fun capacity hcapacity => ?_⟩
    exact (List.length_filter_le _ _).trans (h.length_le capacity hcapacity)
  | removeEntry index =>
    rw [DeadLetterQueue.perform, h.removeEntry]
    refine ⟨h.capacity_eq, h.retention_eq, fun capacity hcapacity => ?_⟩
    exact (List.length_eraseIdx_le _ _).trans (h.length_le capacity hcapacity)
  | clear => exact ⟨h.capacity_eq, h.retention_eq, fun _ _ => Nat.zero_le _⟩

theorem Changes.sublist {es es' : List DlqEntry} {c : Call}
    (h : Changes maxCapacity retentionSeconds es c es') : es'.Sublist (es ++ c.added.toList) := by
  cases h with
  | added e => exact List.Sublist.refl _
  | evicted oldest es e capacity hcapacity hfull => exact List.sublist_cons_self _ _
  | expired currentTime => simp [Call.added]
  | removed index => simpa [Call.added] using List.eraseIdx_sublist _ _
  | cleared => exact List.nil_sublist _

/-! ### All calls -/

theorem after_snoc (js : List Call) (c : Call) :
    queue.after (js ++ [c]) = (queue.after js).perform c := Machine.run_snoc _ _ _ _

theorem Sized.after (h : Sized maxCapacity retentionSeconds queue) (js : List Call) :
    Sized maxCapacity retentionSeconds (queue.after js) := by
  induction js using List.reverseRecOn with
  | nil => exact h
  | append_singleton js c ih =>
    rw [after_snoc]
    exact ih.perform c

theorem Sized.sublist_after (h : Sized maxCapacity retentionSeconds queue)
    (hnew : queue.entries = []) (js : List Call) :
    (queue.after js).entries.Sublist (js.filterMap Call.added) := by
  induction js using List.reverseRecOn with
  | nil =>
    change queue.entries.Sublist []
    rw [hnew]
  | append_singleton js c ih =>
    have hadded : [c].filterMap Call.added = c.added.toList := by
      cases hc : c.added with
      | none => simp [hc]
      | some e => simp [hc]
    rw [after_snoc, List.filterMap_append, hadded]
    exact ((h.after js).changes c).sublist.trans (ih.append_right _)

theorem entries_build (c : Constructor) : c.build.entries = [] := by
  cases c with
  | new => rfl
  | withRetention retentionSeconds => rfl
  | withCapacity maxCapacity => rfl
  | withRetentionAndCapacity retentionSeconds maxCapacity => rfl

theorem entries_addFailedDelivery_ne_nil (queue : DeadLetterQueue) (e : DlqEntry) :
    (queue.addFailedDelivery e).entries ≠ [] := by
  change (queue.queue.enqueue e).entries ≠ []
  unfold WebhookQueue.enqueue
  simp

/-- Only a queue that may hold nothing holds too much, once an entry is added. -/
theorem keepsEntries_iff (c : Constructor) (calls : List Call) :
    KeepsEntries c.build calls ↔
      c.build.maxCapacity ≠ some 0 ∨ ∀ e, .addFailedDelivery e ∉ calls := by
  have hsized := (sized_build c).after
  have hsublist := (sized_build c).sublist_after (entries_build c)
  constructor
  · intro h
    rw [or_iff_not_imp_left, not_ne_iff]
    intro hzero e he
    obtain ⟨js, ks, rfl⟩ := List.append_of_mem he
    have hempty := h.bounded (js ++ [.addFailedDelivery e]) ⟨ks, by simp⟩ 0 hzero
    rw [after_snoc] at hempty
    exact entries_addFailedDelivery_ne_nil _ e (List.eq_nil_of_length_eq_zero (Nat.le_zero.mp hempty))
  · intro h
    refine ⟨?_, fun js _ => hsublist js, ?_, ?_⟩
    · intro js hjs capacity hcapacity
      rcases h with hpositive | hnone
      · have hle := (hsized js).length_le capacity hcapacity
        have hne : capacity ≠ 0 := by
          rintro rfl
          exact hpositive hcapacity
        rw [max_eq_right (Nat.one_le_iff_ne_zero.mpr hne)] at hle
        exact hle
      · have hadded : js.filterMap Call.added = [] := by
          rw [List.filterMap_eq_nil_iff]
          intro c hc
          cases c with
          | addFailedDelivery e => exact absurd (hjs.subset hc) (hnone e)
          | cleanupExpired currentTime => rfl
          | removeEntry index => rfl
          | clear => rfl
        have hentries := List.sublist_nil.mp (hadded ▸ hsublist js)
        change (c.build.after js).entries.length ≤ capacity
        rw [hentries]
        exact Nat.zero_le _
    · intro js c' _
      rw [after_snoc]
      exact (hsized js).changes c'
    · intro js index _
      rw [(hsized js).removeEntry]

end DeadLetterQueue

/-! ### Runs of a storage -/

namespace DlqStorage

inductive Call
  | addFailedDelivery (queueKey : Text) (entry : DlqEntry)
  | cleanupAllExpired (currentTime : UInt64)
  | cleanupExpired (queueKey : Text) (currentTime : UInt64)
  | removeEntry (queueKey : Text) (index : ℕ)
deriving DecidableEq, Repr

def perform (storage : DlqStorage) : Call → DlqStorage
  | .addFailedDelivery queueKey entry => storage.addFailedDelivery queueKey entry
  | .cleanupAllExpired currentTime => (storage.cleanupAllExpired currentTime).2
  | .cleanupExpired queueKey currentTime => (storage.cleanupExpired queueKey currentTime).2
  | .removeEntry queueKey index => (storage.removeEntry queueKey index).2

def step (storage : DlqStorage) (c : Call) : Except Empty DlqStorage := .ok (storage.perform c)

def after (storage : DlqStorage) (calls : List Call) : DlqStorage := Machine.run step storage calls

def Call.toQueue (key : Text) : Call → Option DeadLetterQueue.Call
  | .addFailedDelivery queueKey entry =>
    if queueKey = key then some (.addFailedDelivery entry) else none
  | .cleanupAllExpired currentTime => some (.cleanupExpired currentTime)
  | .cleanupExpired queueKey currentTime =>
    if queueKey = key then some (.cleanupExpired currentTime) else none
  | .removeEntry queueKey index => if queueKey = key then some (.removeEntry index) else none

/-- The queue of a key, a new one if there is none yet. -/
def queueAt (storage : DlqStorage) (key : Text) : DeadLetterQueue :=
  storage.queues.getD key storage.freshQueue

section Runs

variable {storage : DlqStorage} {key queueKey : Text}

theorem freshQueue_eq_build (storage : DlqStorage) :
    ∃ c : DeadLetterQueue.Constructor, storage.freshQueue = c.build ∧
      c.build.maxCapacity = storage.defaultMaxCapacity := by
  unfold freshQueue
  cases storage.defaultMaxCapacity with
  | none => exact ⟨.withRetention _, rfl, rfl⟩
  | some capacity => exact ⟨.withRetentionAndCapacity _ capacity, rfl, rfl⟩

theorem getEntries_eq (storage : DlqStorage) (key : Text) :
    storage.getEntries key = (storage.queueAt key).entries := by
  obtain ⟨c, hfresh, _⟩ := storage.freshQueue_eq_build
  rw [getEntries, queueAt, Std.TreeMap.getD_eq_getD_getElem?]
  cases storage.queues[key]? with
  | none => exact ((congrArg _ hfresh).trans (DeadLetterQueue.entries_build c)).symm
  | some queue => rfl

theorem queueAt_insert (queue : DeadLetterQueue) :
    queueAt { storage with queues := storage.queues.insert queueKey queue } key =
      if queueKey = key then queue else storage.queueAt key := by
  unfold queueAt
  rw [OrderedMap.getD_insert]
  rfl

/-- Only adding an entry does something to a new queue. -/
theorem perform_freshQueue {c : DeadLetterQueue.Call} (h : c.added = none) :
    storage.freshQueue.perform c = storage.freshQueue := by
  unfold freshQueue
  cases c with
  | addFailedDelivery e => cases h
  | cleanupExpired currentTime => cases storage.defaultMaxCapacity <;> rfl
  | removeEntry index => cases storage.defaultMaxCapacity <;> rfl
  | clear => cases storage.defaultMaxCapacity <;> rfl

/-- A queue that is there may be replaced by what such a call makes of it. -/
theorem queueAt_replace (storage : DlqStorage) {c : DeadLetterQueue.Call} (h : c.added = none)
    (queueKey key : Text) :
    queueAt (match storage.queues[queueKey]? with
      | some queue => { storage with queues := storage.queues.insert queueKey (queue.perform c) }
      | none => storage) key =
      if queueKey = key then (storage.queueAt key).perform c else storage.queueAt key := by
  cases hget : storage.queues[queueKey]? with
  | none =>
    dsimp only
    split
    · rename_i hkey
      rw [queueAt, Std.TreeMap.getD_eq_getD_getElem?, ← hkey, hget, Option.getD_none,
        perform_freshQueue h]
    · rfl
  | some queue =>
    dsimp only
    rw [queueAt_insert]
    split
    · rename_i hkey
      rw [queueAt, Std.TreeMap.getD_eq_getD_getElem?, ← hkey, hget, Option.getD_some]
    · rfl

theorem queueAt_perform (c : Call) (key : Text) :
    (storage.perform c).queueAt key =
      (c.toQueue key).elim (storage.queueAt key) (storage.queueAt key).perform := by
  cases c with
  | addFailedDelivery queueKey e =>
    rw [perform, DlqStorage.addFailedDelivery, queueAt_insert, Call.toQueue]
    split
    · rename_i hkey
      rw [hkey]
      rfl
    · rfl
  | cleanupAllExpired currentTime =>
    have hfresh : storage.freshQueue.perform (.cleanupExpired currentTime) = storage.freshQueue :=
      perform_freshQueue rfl
    rw [perform, DlqStorage.cleanupAllExpired, Call.toQueue, Option.elim_some, queueAt, queueAt,
      Std.TreeMap.getD_eq_getD_getElem?, Std.TreeMap.getD_eq_getD_getElem?,
      Std.TreeMap.getElem?_map]
    cases storage.queues[key]? with
    | none => exact hfresh.symm
    | some queue => rfl
  | cleanupExpired queueKey currentTime =>
    have hreplace := storage.queueAt_replace (c := .cleanupExpired currentTime) rfl queueKey key
    rw [Call.toQueue, apply_ite (Option.elim · _ _)]
    refine Eq.trans ?_ hreplace
    rw [perform, DlqStorage.cleanupExpired]
    cases storage.queues[queueKey]? with
    | none => rfl
    | some queue => rfl
  | removeEntry queueKey index =>
    have hreplace := storage.queueAt_replace (c := .removeEntry index) rfl queueKey key
    rw [Call.toQueue, apply_ite (Option.elim · _ _)]
    refine Eq.trans ?_ hreplace
    rw [perform, DlqStorage.removeEntry]
    cases storage.queues[queueKey]? with
    | none => rfl
    | some queue => rfl

theorem after_snoc (js : List Call) (c : Call) :
    storage.after (js ++ [c]) = (storage.after js).perform c := Machine.run_snoc _ _ _ _

theorem queueAt_after (storage : DlqStorage) (calls : List Call) (key : Text) :
    (storage.after calls).queueAt key =
      (storage.queueAt key).after (calls.filterMap (Call.toQueue key)) := by
  induction calls using List.reverseRecOn with
  | nil => rfl
  | append_singleton calls c ih =>
    rw [after_snoc, queueAt_perform, ih, List.filterMap_append]
    cases hc : c.toQueue key with
    | none => simp [hc]
    | some c' =>
      rw [List.filterMap_cons_some hc, List.filterMap_nil, DeadLetterQueue.after_snoc]
      rfl

/-- The entries that a storage has under a key are at most as many as its queues may hold, and they
were added under the key in this order. -/
theorem entries_after (retentionSeconds : UInt64) (maxCapacity : Option ℕ) (calls : List Call)
    (key : Text) (hpositive : maxCapacity ≠ some 0) :
    (∀ capacity ∈ maxCapacity,
      (((withDefaults retentionSeconds maxCapacity).after calls).getEntries key).length ≤ capacity) ∧
      (((withDefaults retentionSeconds maxCapacity).after calls).getEntries key).Sublist
        ((calls.filterMap (Call.toQueue key)).filterMap DeadLetterQueue.Call.added) := by
  obtain ⟨c, hfresh, hcapacity⟩ := (withDefaults retentionSeconds maxCapacity).freshQueue_eq_build
  have hqueue : (withDefaults retentionSeconds maxCapacity).queueAt key = c.build := by
    rw [← hfresh]
    rfl
  have hkeeps := (DeadLetterQueue.keepsEntries_iff c (calls.filterMap (Call.toQueue key))).mpr
    (Or.inl (hcapacity ▸ hpositive))
  rw [getEntries_eq, queueAt_after, hqueue]
  refine ⟨fun capacity hmem => ?_, hkeeps.ordered _ List.prefix_rfl⟩
  exact hkeeps.bounded _ List.prefix_rfl capacity (hcapacity.trans hmem)

end Runs

end DlqStorage

/-! ### The legacy format -/

namespace DlqStorage

/-- The same entries in the same order are under each key. -/
def RoundTrips (storage : DlqStorage) : Prop :=
  ∀ key, (fromLegacyFormat storage.toLegacyFormat).getEntries key = storage.getEntries key

variable {storage : DlqStorage} {key key' : Text}

/-- The settings of a storage without limits on the entries of its queues. -/
structure Unlimited (storage : DlqStorage) : Prop where
  default : storage.defaultMaxCapacity = none
  queues (key : Text) (queue : DeadLetterQueue) (h : storage.queues[key]? = some queue) :
    queue.queue.maxCapacity = none

theorem unlimited_new : Unlimited new where
  default := rfl
  queues := by simp [new]

theorem Unlimited.maxCapacity_getD (h : Unlimited storage) (key : Text) :
    (storage.queues.getD key storage.freshQueue).queue.maxCapacity = none := by
  rw [Std.TreeMap.getD_eq_getD_getElem?]
  cases hget : storage.queues[key]? with
  | none =>
    rw [freshQueue, h.default]
    rfl
  | some queue => exact h.queues key queue hget

theorem Unlimited.addFailedDelivery (h : Unlimited storage) (key : Text) (e : DlqEntry) :
    Unlimited (storage.addFailedDelivery key e) where
  default := h.default
  queues := by
    intro key' queue hget
    dsimp only [DlqStorage.addFailedDelivery] at hget
    rw [Std.TreeMap.getElem?_insert] at hget
    split at hget
    · obtain rfl := Option.some.inj hget
      exact h.maxCapacity_getD key
    · exact h.queues key' queue hget

theorem Unlimited.getEntries_addFailedDelivery (h : Unlimited storage) (key key' : Text)
    (e : DlqEntry) : (storage.addFailedDelivery key e).getEntries key' =
      storage.getEntries key' ++ if key = key' then [e] else [] := by
  have hadded : ((storage.queues.getD key storage.freshQueue).addFailedDelivery e).entries =
      (storage.queues.getD key storage.freshQueue).entries ++ [e] := by
    change (WebhookQueue.enqueue _ e).entries = _
    unfold WebhookQueue.enqueue
    rw [h.maxCapacity_getD]
    rfl
  have hbefore : (storage.queues.getD key storage.freshQueue).entries = storage.getEntries key := by
    rw [Std.TreeMap.getD_eq_getD_getElem?, getEntries]
    cases storage.queues[key]? with
    | none =>
      rw [freshQueue, h.default]
      rfl
    | some queue => rfl
  unfold getEntries DlqStorage.addFailedDelivery
  dsimp only
  rw [OrderedMap.getElem?_insert]
  by_cases hkey : key = key'
  · subst hkey
    rw [if_pos rfl, if_pos rfl, Option.map_some, Option.getD_some, hadded, hbefore]
    rfl
  · rw [if_neg hkey, if_neg hkey, List.append_nil]

theorem Unlimited.foldl_addFailedDelivery (h : Unlimited storage) (key : Text) (es : List DlqEntry) :
    Unlimited (es.foldl (fun storage e => storage.addFailedDelivery key e) storage) ∧
      ∀ key', (es.foldl (fun storage e => storage.addFailedDelivery key e) storage).getEntries key' =
        storage.getEntries key' ++ if key = key' then es else [] := by
  induction es generalizing storage with
  | nil =>
    refine ⟨h, fun key' => ?_⟩
    rw [List.foldl_nil, ite_self, List.append_nil]
  | cons e es ih =>
    obtain ⟨hunlimited, hentries⟩ := ih (h.addFailedDelivery key e)
    refine ⟨hunlimited, fun key' => ?_⟩
    rw [List.foldl_cons, hentries, h.getEntries_addFailedDelivery]
    split
    · rw [List.append_assoc, List.singleton_append]
    · rw [List.append_nil, List.append_nil]

theorem Unlimited.foldl_load (h : Unlimited storage) {kept : List (Text × List DlqEntry)}
    (hkeys : kept.Pairwise fun a b => a.1 ≠ b.1) (key : Text) :
    let loaded := kept.foldl (fun storage (key, entries) =>
      entries.foldl (fun storage entry => storage.addFailedDelivery key entry) storage) storage
    (∀ es, (key, es) ∈ kept → loaded.getEntries key = storage.getEntries key ++ es) ∧
      ((∀ p ∈ kept, p.1 ≠ key) → loaded.getEntries key = storage.getEntries key) := by
  induction kept generalizing storage with
  | nil => exact ⟨fun es hes => absurd hes List.not_mem_nil, fun _ => rfl⟩
  | cons p kept ih =>
    obtain ⟨key', es'⟩ := p
    obtain ⟨hfirst, hrest⟩ := List.pairwise_cons.mp hkeys
    obtain ⟨hunlimited, hentries⟩ := h.foldl_addFailedDelivery key' es'
    obtain ⟨hmem, habsent⟩ := ih hunlimited hrest
    refine ⟨fun es hes => ?_, fun hne => ?_⟩
    · rw [List.foldl_cons]
      rcases List.mem_cons.mp hes with heq | hes
      · obtain ⟨rfl, rfl⟩ := Prod.mk.inj heq
        rw [habsent fun p hp => (hfirst p hp).symm, hentries, if_pos rfl]
      · rw [hmem es hes, hentries, if_neg (hfirst _ hes), List.append_nil]
    · obtain ⟨hkey, hne⟩ := List.forall_mem_cons.mp hne
      rw [List.foldl_cons, habsent hne, hentries, if_neg hkey, List.append_nil]

/-- Written down and read again, no entry is lost or moved. -/
theorem roundTrips (storage : DlqStorage) : storage.RoundTrips := by
  intro key
  have hkeys : storage.toLegacyFormat.toList.Pairwise fun a b => a.1 ≠ b.1 :=
    Std.TreeMap.distinct_keys_toList.imp fun h heq => h (Std.compare_eq_iff_eq.mpr heq)
  obtain ⟨hmem, habsent⟩ := unlimited_new.foldl_load hkeys key
  have hlegacy : storage.toLegacyFormat[key]? = storage.queues[key]?.map DeadLetterQueue.entries :=
    Std.TreeMap.getElem?_map
  have hnew : new.getEntries key = [] := by simp [getEntries, new]
  unfold getEntries at hnew ⊢
  cases hget : storage.queues[key]? with
  | none =>
    rw [hget, Option.map_none] at hlegacy
    refine (habsent fun p hp hkey => ?_).trans hnew
    have hsome := Std.TreeMap.mem_toList_iff_getElem?_eq_some.mp hp
    rw [hkey, hlegacy] at hsome
    cases hsome
  | some queue =>
    rw [hget, Option.map_some] at hlegacy
    have hloaded := hmem _ (Std.TreeMap.mem_toList_iff_getElem?_eq_some.mpr hlegacy)
    unfold getEntries at hloaded
    rw [hnew] at hloaded
    exact hloaded

end DlqStorage

namespace DeadLetterQueue

/-- Dead letters are kept within the limits and through the legacy format exactly when no entry is
added to a queue that may hold nothing. -/
theorem dead_letters_kept_iff (c : Constructor) (calls : List Call) :
    (KeepsEntries c.build calls ∧ ∀ storage : DlqStorage, storage.RoundTrips) ↔
      c.build.maxCapacity ≠ some 0 ∨ ∀ e, .addFailedDelivery e ∉ calls :=
  (and_iff_left DlqStorage.roundTrips).trans (keepsEntries_iff c calls)

/-- A queue with capacity 0 has an entry. -/
theorem entry_without_room :
    ¬ KeepsEntries (.withCapacity 0)
      [.addFailedDelivery ⟨"body".toList, 100, 503, 3, "HTTP 503".toList, [], [], []⟩] := by
  intro h
  have hlen := h.bounded _ List.prefix_rfl 0 rfl
  cases hlen

end DeadLetterQueue

end Webhook

end AnchorKit
