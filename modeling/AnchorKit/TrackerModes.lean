import AnchorKit.TrackerEffects
import AnchorKit.Library.Machine

/-!
# The two modes of the tracker

A tracker in development mode and one in production mode, given the same calls. As long as no
call tells a list with a first match from a store with keys, the lists of the one hold what the
store of the other holds, and every query is answered alike, but for the walk of the production
mode over a range that it cannot leave.
-/

namespace AnchorKit

open Fallible Machine

namespace TransactionStateTracker

/-! ### Walking over a range of ids -/

/-- The ids from `lo` on that lie below `hi`. -/
def idsBetween (lo hi : ℕ) : List UInt64 := (List.range' lo (hi - lo)).map UInt64.ofNat

theorem idsBetween_cons {id next : UInt64} {hi : ℕ} (hlt : id.toNat < hi)
    (hnext : id.toNat + 1 = next.toNat) :
    idsBetween id.toNat hi = id :: idsBetween next.toNat hi := by
  obtain ⟨n, hn⟩ : ∃ n, hi - id.toNat = n + 1 := ⟨hi - id.toNat - 1, by omega⟩
  have hrest : hi - next.toNat = n := by omega
  rw [idsBetween, idsBetween, hn, hrest, List.range'_succ, List.map_cons, UInt64.ofNat_toNat, hnext]

theorem idsBetween_of_le {lo hi : ℕ} (h : hi ≤ lo) : idsBetween lo hi = [] := by
  rw [idsBetween, Nat.sub_eq_zero_of_le h]
  rfl

theorem mem_idsBetween {lo hi : ℕ} (hhi : hi ≤ 2 ^ 64) {id : UInt64} :
    id ∈ idsBetween lo hi ↔ lo ≤ id.toNat ∧ id.toNat < hi := by
  simp only [idsBetween, List.mem_map, List.mem_range'_1]
  constructor
  · rintro ⟨n, hn, rfl⟩
    rw [Word.toNat_ofNat64 (by omega)]
    omega
  · intro h
    exact ⟨id.toNat, by omega, UInt64.ofNat_toNat⟩

theorem pairwise_idsBetween {lo hi : ℕ} (hhi : hi ≤ 2 ^ 64) :
    (idsBetween lo hi).Pairwise (· < ·) := by
  rw [idsBetween, List.pairwise_map]
  apply List.Pairwise.imp_of_mem _ (List.pairwise_lt_range' ..)
  intro a b ha hb hab
  rw [List.mem_range'_1] at ha hb
  rw [UInt64.lt_iff_toNat_lt, Word.toNat_ofNat64 (by omega),
    Word.toNat_ofNat64 (by omega)]
  exact hab

/-- The walk collects the records of the range until it has enough, and overflows when the range
ends with the last id and there are not enough before it. -/
theorem walkRange_eq (txstate : KeyedStore UInt64 TransactionStateRecord) (toId : UInt64)
    (limit : ℕ) (id : UInt64) (results : List TransactionStateRecord) :
    walkRange txstate toId limit id results =
      if toId.toNat + 1 = 2 ^ 64 ∧
          results.length + ((idsBetween id.toNat toId.toNat).filterMap txstate.get).length < limit
      then .error .arithmeticOverflow
      else .ok (results ++ ((idsBetween id.toNat (toId.toNat + 1)).filterMap txstate.get).take
        (limit - results.length)) := by
  have hto := toId.toNat_lt
  fun_induction walkRange txstate toId limit id results with
  | case1 id results hmore hnext =>
    rw [Word.checkedAdd64_one_eq_none] at hnext
    have hle := UInt64.le_iff_toNat_le.mp hmore.1
    rw [if_pos]
    rw [idsBetween_of_le (by omega)]
    exact ⟨by omega, hmore.2⟩
  | case2 id results hmore next hnext ih =>
    rw [Word.checkedAdd64_one_eq_some] at hnext
    have hle := UInt64.le_iff_toNat_le.mp hmore.1
    have hnextlt := next.toNat_lt
    have hreads (hi : ℕ) (hlt : id.toNat < hi) :
        (idsBetween id.toNat hi).filterMap txstate.get =
          (txstate.get id).toList ++ (idsBetween next.toNat hi).filterMap txstate.get := by
      rw [idsBetween_cons hlt hnext, List.filterMap_cons]
      cases txstate.get id <;> rfl
    have hcollect (rest : List TransactionStateRecord) :
        results ++ ((txstate.get id).toList ++ rest).take (limit - results.length) =
          (results ++ (txstate.get id).toList) ++
            rest.take (limit - (results ++ (txstate.get id).toList).length) := by
      have hone : (txstate.get id).toList.length ≤ 1 := by cases txstate.get id <;> simp
      rw [List.take_append, List.take_of_length_le (by omega), List.length_append,
        List.append_assoc, Nat.sub_sub]
    rw [ih, hreads (toId.toNat + 1) (by omega), hcollect]
    by_cases hlast : toId.toNat + 1 = 2 ^ 64
    · rw [hreads toId.toNat (by omega)]
      simp only [List.length_append, Nat.add_assoc]
    · rw [if_neg fun h => hlast h.1, if_neg fun h => hlast h.1]
  | case3 id results hdone =>
    rw [if_neg]
    · by_cases hfull : results.length < limit
      · have hpast : ¬ id ≤ toId := fun hle => hdone ⟨hle, hfull⟩
        rw [UInt64.le_iff_toNat_le] at hpast
        rw [idsBetween_of_le (by omega)]
        simp
      · rw [Nat.sub_eq_zero_of_le (by omega), List.take_zero, List.append_nil]
    · rintro ⟨hlast, hshort⟩
      have hid := id.toNat_lt
      have hpast : ¬ id ≤ toId := fun hle => hdone ⟨hle, by omega⟩
      rw [UInt64.le_iff_toNat_le] at hpast
      omega

/-! ### Queries -/

inductive Query
  | transactionState (transactionId : UInt64)
  | transactionsInRange (fromId toId : UInt64) (limit : UInt32)
  | transactionsByStatus
  | archivedRecoveryMetadata (transactionId : UInt64)

inductive Answer
  | transactionState (record : Option TransactionStateRecord)
  | transactionsInRange (records : List TransactionStateRecord)
  | transactionsByStatus (summary : TransactionStatusSummary)
  | archivedRecoveryMetadata (entry : Option ArchivedRecoveryMetadata)

def ask (t : TransactionStateTracker) : Query → Except Panic Answer
  | .transactionState id => .ok (.transactionState (t.getTransactionState id))
  | .transactionsInRange fromId toId limit =>
    Answer.transactionsInRange <$> t.getTransactionsInRange fromId toId limit
  | .transactionsByStatus => .ok (.transactionsByStatus t.summarizeTransactionsByStatus)
  | .archivedRecoveryMetadata id =>
    .ok (.archivedRecoveryMetadata (t.getArchivedRecoveryMetadata id))

/-- The query reads a range that ends with the last id there is, and fewer cached records than it
may return lie before that id. -/
def Overruns (t : TransactionStateTracker) : Query → Prop
  | .transactionsInRange fromId toId limit =>
    fromId ≤ toId ∧ toId.toNat + 1 = 2 ^ 64 ∧
      (t.cache.filter fun r => fromId ≤ r.transactionId ∧ r.transactionId < toId).length <
        (min limit 100).toNat
  | _ => False

instance (t : TransactionStateTracker) : (q : Query) → Decidable (t.Overruns q)
  | .transactionsInRange _ _ _ => inferInstanceAs (Decidable (_ ∧ _ ∧ _))
  | .transactionState _ | .transactionsByStatus | .archivedRecoveryMetadata _ => isFalse not_false

/-! ### Agreement -/

/-- The lists of the development mode hold what the store of the production mode holds, and
nothing is accounted for that could evict a stored record. -/
structure Agree (d p : TransactionStateTracker) : Prop where
  dev : d.isDevMode = true
  prod : p.isDevMode = false
  budget : p.budgetMonitor = .new
  records : KeyedList.Represents TransactionStateRecord.transactionId p.txstate p.txids d.cache
  archives (id : UInt64) : p.rcvarch.get id =
    KeyedList.lookup ArchivedRecoveryMetadata.transactionId id d.archive

variable {d p d' p' : TransactionStateTracker} {host : Host}
  {decode : String → Except String ImportedRecovery}

theorem agree_new : Agree (new true) (new false) where
  dev := rfl
  prod := rfl
  budget := rfl
  records := .empty
  archives _ := rfl

theorem Agree.congr (hd : d'.unlogged = d.unlogged) (hp : p'.unlogged = p.unlogged)
    (h : Agree d p) : Agree d' p' := by
  have hunlogged : Agree d.unlogged p.unlogged := ⟨h.dev, h.prod, h.budget, h.records, h.archives⟩
  rw [← hd, ← hp] at hunlogged
  exact ⟨hunlogged.dev, hunlogged.prod, hunlogged.budget, hunlogged.records, hunlogged.archives⟩

theorem Agree.find (h : Agree d p) : p.getTransactionState = d.getTransactionState := by
  funext id
  simp only [getTransactionState, h.dev, h.prod, if_true, Bool.false_eq_true, if_false]
  exact h.records.get id

/-! ### Queries of trackers that agree -/

theorem Agree.archived (h : Agree d p) (id : UInt64) :
    d.getArchivedRecoveryMetadata id = p.getArchivedRecoveryMetadata id := by
  simp only [getArchivedRecoveryMetadata, h.dev, h.prod, if_true, Bool.false_eq_true, if_false]
  exact (h.archives id).symm

theorem Agree.summary (h : Agree d p) :
    d.summarizeTransactionsByStatus = p.summarizeTransactionsByStatus := by
  simp only [summarizeTransactionsByStatus, h.dev, h.prod, if_true, Bool.false_eq_true, if_false]
  rw [← h.records.filterMap_get, List.foldl_filterMap]
  congr 1
  funext summary id
  cases p.txstate.get id <;> rfl

/-- What the walk reads is what the cache holds of the range, in order. -/
theorem Agree.reads (h : Agree d p) (lo hi : ℕ) (hhi : hi ≤ 2 ^ 64)
    (keep : TransactionStateRecord → Bool)
    (hkeep : ∀ r, keep r = true ↔ lo ≤ r.transactionId.toNat ∧ r.transactionId.toNat < hi) :
    (idsBetween lo hi).filterMap p.txstate.get =
      (d.cache.filter keep).mergeSort fun a b => a.transactionId ≤ b.transactionId := by
  rw [h.records.filterMap_get_eq_mergeSort (pairwise_idsBetween hhi)]
  congr 2
  funext r
  rw [Bool.eq_iff_iff, decide_eq_true_iff, mem_idsBetween hhi, hkeep]

theorem Agree.range (h : Agree d p) (fromId toId : UInt64) (limit : UInt32) :
    d.getTransactionsInRange fromId toId limit = p.getTransactionsInRange fromId toId limit ↔
      ¬ d.Overruns (.transactionsInRange fromId toId limit) := by
  have hto := toId.toNat_lt
  have hbefore := h.reads fromId.toNat toId.toNat (by omega)
    (fun r => fromId ≤ r.transactionId ∧ r.transactionId < toId)
    (by simp [UInt64.le_iff_toNat_le, UInt64.lt_iff_toNat_lt])
  have hall := h.reads fromId.toNat (toId.toNat + 1) (by omega)
    (fun r => fromId ≤ r.transactionId ∧ r.transactionId ≤ toId)
    (by
      intro r
      rw [decide_eq_true_iff, UInt64.le_iff_toNat_le, UInt64.le_iff_toNat_le, Nat.lt_succ_iff])
  simp only [getTransactionsInRange, Overruns, h.dev, h.prod, if_true, Bool.false_eq_true, if_false]
  by_cases hempty : toId < fromId
  · rw [if_pos hempty, if_pos hempty]
    exact iff_of_true rfl fun hover => absurd hempty (UInt64.not_lt.mpr hover.1)
  · rw [if_neg hempty, if_neg hempty, walkRange_eq, hbefore, hall, List.length_mergeSort,
      List.length_nil, Nat.zero_add, List.nil_append, Nat.sub_zero,
      and_iff_right (UInt64.not_lt.mp hempty)]
    split
    · rename_i hover
      exact iff_of_false nofun (not_not.mpr hover)
    · rename_i hwithin
      exact iff_of_true rfl hwithin

theorem answer_range_injective {x y : Except Panic (List TransactionStateRecord)} :
    Answer.transactionsInRange <$> x = Answer.transactionsInRange <$> y ↔ x = y := by
  cases x <;> cases y <;> simp [Functor.map, Except.map]

/-- Every query is answered alike, except for one that the production mode cannot finish. -/
theorem Agree.answers_iff (h : Agree d p) (q : Query) : d.ask q = p.ask q ↔ ¬ d.Overruns q := by
  cases q with
  | transactionState id =>
    refine iff_of_true ?_ not_false
    rw [ask, ask, h.find]
  | transactionsInRange fromId toId limit => rw [← h.range, ask, ask, answer_range_injective]
  | transactionsByStatus =>
    refine iff_of_true ?_ not_false
    rw [ask, ask, h.summary]
  | archivedRecoveryMetadata id =>
    refine iff_of_true ?_ not_false
    rw [ask, ask, h.archived]

/-! ### Calls that keep trackers in agreement -/

/-- The call evicts nothing, creates no transaction under an id in use, and files no second archive
entry that differs from the first. -/
def Uneventful (host : Host) (d : TransactionStateTracker) (c : Call) : Prop :=
  match c.operation with
  | .autoEvictIfNeeded => d.evictees host = []
  | .createTransactionWithReason id _ _ =>
    d.evictees host = [] ∧ d.getTransactionState id = none
  | .archiveRecoveryMetadata id policy =>
    ∀ record recovery first, d.getTransactionState id = some record →
      record.eligibleRecovery policy c.env.timestamp = some recovery →
      d.getArchivedRecoveryMetadata id = some first → first = .ofRecovery c.env id recovery
  | _ => True

theorem archivesAlike_iff {id : UInt64} {policy : RecoveryRetentionPolicy} {env : Env} :
    ((d.getTransactionState id).all fun record =>
      (record.eligibleRecovery policy env.timestamp).all fun recovery =>
        (d.getArchivedRecoveryMetadata id).all fun first => first = .ofRecovery env id recovery) ↔
      Uneventful host d ⟨env, .archiveRecoveryMetadata id policy⟩ := by
  simp only [Option.all_eq_true, decide_eq_true_eq]
  constructor
  · intro h record recovery first hrecord hrecovery hfirst
    exact h record hrecord recovery hrecovery first hfirst
  · intro h record hrecord recovery hrecovery first hfirst
    exact h record recovery first hrecord hrecovery hfirst

instance (host : Host) (d : TransactionStateTracker) (c : Call) :
    Decidable (Uneventful host d c) :=
  match c with
  | ⟨_, .autoEvictIfNeeded⟩ => inferInstanceAs (Decidable (d.evictees host = []))
  | ⟨_, .createTransactionWithReason id _ _⟩ =>
    inferInstanceAs (Decidable (d.evictees host = [] ∧ d.getTransactionState id = none))
  | ⟨_, .archiveRecoveryMetadata _ _⟩ => decidable_of_iff _ archivesAlike_iff
  | ⟨_, .setEviction _ _⟩ | ⟨_, .startTransaction _⟩ | ⟨_, .completeTransaction _⟩
  | ⟨_, .failTransaction _ _⟩ | ⟨_, .advanceTransactionState _ _⟩
  | ⟨_, .recordRecoveryAttempt _⟩ | ⟨_, .resumePartialRecovery _⟩
  | ⟨_, .importRecoveryState _ _⟩ | ⟨_, .pruneRecoveryMetadata _ _⟩ => isTrue trivial

theorem Agree.register (h : Agree d p) {record : TransactionStateRecord}
    (hnew : d.getTransactionState record.transactionId = none) :
    Agree (d.register record.transactionId record) (p.register record.transactionId record) := by
  simp only [getTransactionState, h.dev, if_true, cached] at hnew
  constructor
  · simp [TransactionStateTracker.register, h.dev]
  · simp [TransactionStateTracker.register, store, h.prod]
  · simp [TransactionStateTracker.register, store, h.prod, h.budget]
  · simp only [TransactionStateTracker.register, store, h.dev, h.prod, if_true, Bool.false_eq_true,
      if_false]
    exact h.records.push hnew
  · intro id
    simp only [TransactionStateTracker.register, store, h.dev, h.prod, if_true, Bool.false_eq_true,
      if_false]
    exact h.archives id

theorem Agree.write (h : Agree d p) {id : UInt64} {old record : TransactionStateRecord}
    (hold : d.getTransactionState id = some old)
    (hid : record.transactionId = old.transactionId) :
    Agree (d.write id record) (p.write id record) := by
  simp only [getTransactionState, h.dev, if_true, cached] at hold
  have hkey := hid.trans (KeyedList.key_of_lookup hold)
  constructor
  · simp [TransactionStateTracker.write, recache, h.dev]
  · simp [TransactionStateTracker.write, store, h.prod]
  · simp [TransactionStateTracker.write, store, h.prod, h.budget]
  · simp only [TransactionStateTracker.write, recache, store, h.dev, h.prod, if_true,
      Bool.false_eq_true, if_false]
    exact h.records.rewrite hold hkey
  · intro x
    simp only [TransactionStateTracker.write, recache, store, h.dev, h.prod, if_true,
      Bool.false_eq_true, if_false]
    exact h.archives x

theorem Agree.fileEntry (h : Agree d p) {id : UInt64} {entry : ArchivedRecoveryMetadata}
    (hid : entry.transactionId = id)
    (hfirst : ∀ first, d.getArchivedRecoveryMetadata id = some first → first = entry) :
    Agree (d.fileEntry id entry) (p.fileEntry id entry) := by
  simp only [getArchivedRecoveryMetadata, h.dev, if_true] at hfirst
  constructor
  · simp [TransactionStateTracker.fileEntry, h.dev]
  · simp [TransactionStateTracker.fileEntry, h.prod]
  · simp [TransactionStateTracker.fileEntry, h.prod, h.budget]
  · simp only [TransactionStateTracker.fileEntry, h.dev, h.prod, if_true, Bool.false_eq_true,
      if_false]
    exact h.records
  · intro x
    simp only [TransactionStateTracker.fileEntry, h.dev, h.prod, if_true, Bool.false_eq_true,
      if_false]
    rw [KeyedStore.get_set, KeyedList.lookup_append, KeyedList.lookup_singleton, hid, h.archives]
    by_cases hx : x = id
    · rw [if_pos hx, if_pos hx.symm, hx]
      cases hlookup : KeyedList.lookup ArchivedRecoveryMetadata.transactionId id d.archive with
      | none => rfl
      | some first => rw [Option.some_or, hfirst first hlookup]
    · rw [if_neg hx, if_neg (Ne.symm hx), Option.or_none]

theorem Agree.prepared (h : Agree d p) {c : Call} (hquiet : Uneventful host d c) :
    Agree (d.prepared host c.operation) (p.prepared host c.operation) := by
  have hprod : p.autoEvictIfNeeded host = p := by
    apply autoEvictIfNeeded_of_budgetStatus
    rw [budgetStatus, h.budget]
    decide
  obtain ⟨env, operation⟩ := c
  cases operation with
  | setEviction enabled maxPerCall => exact ⟨h.dev, h.prod, h.budget, h.records, h.archives⟩
  | autoEvictIfNeeded =>
    rw [TransactionStateTracker.prepared, TransactionStateTracker.prepared, hprod,
      autoEvictIfNeeded_of_evictees_eq_nil h.dev hquiet]
    exact h
  | createTransactionWithReason id initiator routingReason =>
    rw [TransactionStateTracker.prepared, TransactionStateTracker.prepared, hprod,
      autoEvictIfNeeded_of_evictees_eq_nil h.dev hquiet.1]
    exact h
  | _ => exact h

theorem getArchivedRecoveryMetadata_write (t : TransactionStateTracker) (id x : UInt64)
    (record : TransactionStateRecord) :
    (t.write id record).getArchivedRecoveryMetadata x = t.getArchivedRecoveryMetadata x := by
  unfold write
  split <;> rfl

theorem Agree.insert (h : Agree d p) {c : Call} (hquiet : Uneventful host d c) {id : UInt64}
    {record : TransactionStateRecord} (hid : record.transactionId = id)
    (hnew : d.getTransactionState id = none) :
    Agree ((d.prepared host c.operation).apply (.insert id record))
      ((p.prepared host c.operation).apply (.insert id record)) := by
  subst hid
  apply (h.prepared hquiet).register
  rcases find_prepared host d c.operation with hsame | hgone
  · exact hsame.trans hnew
  · exact hgone

theorem Agree.applied (h : Agree d p) {c : Call} (hquiet : Uneventful host d c) {e : Effect}
    (hacts : Acts decode c.env d.getTransactionState c.operation e) :
    Agree ((d.prepared host c.operation).apply e) ((p.prepared host c.operation).apply e) := by
  have hprepared := h.prepared hquiet
  have hfits := hacts.fits
  cases e with
  | reject => exact hprepared
  | keep => exact hprepared
  | insert id record =>
    apply h.insert hquiet hfits
    obtain ⟨env, operation⟩ := c
    cases hacts with
    | opened => exact hquiet.2
    | imported _ _ hnew => exact hnew
  | rewrite id record =>
    obtain ⟨hcalm, old, hold, hid⟩ := hfits
    rw [← find_prepared_of_not_evicts host d hcalm] at hold
    exact hprepared.write hold hid
  | file id record entry =>
    obtain ⟨hcalm, old, hold, hid⟩ := hfits
    rw [← find_prepared_of_not_evicts host d hcalm] at hold
    obtain ⟨env, operation⟩ := c
    cases hacts with
    | archived hfound heligible =>
      apply (hprepared.write hold hid).fileEntry rfl
      intro first hfirst
      rw [getArchivedRecoveryMetadata_write] at hfirst
      exact hquiet _ _ first hfound heligible hfirst

theorem Agree.commit (h : Agree d p) {c : Call} (hquiet : Uneventful host d c) :
    Agree (Machine.commit (step host decode) d c) (Machine.commit (step host decode) p c) := by
  have hsucceeds : Succeeds (d.step host decode c) ↔ Succeeds (p.step host decode c) := by
    rw [succeeds_step, succeeds_step, h.find]
  cases hd : d.step host decode c with
  | error panic =>
    cases hp : p.step host decode c with
    | error panic' => rwa [commit_error _ hd, commit_error _ hp]
    | ok p' =>
      rw [hd, hp] at hsucceeds
      exact absurd (hsucceeds.mpr (succeeds_ok p')) (not_succeeds_error panic)
  | ok d' =>
    cases hp : p.step host decode c with
    | error panic =>
      rw [hd, hp] at hsucceeds
      exact absurd (hsucceeds.mp (succeeds_ok d')) (not_succeeds_error panic)
    | ok p' =>
      rw [commit_ok _ hd, commit_ok _ hp]
      obtain ⟨e, heffect, hdstate⟩ := step_eq_ok hd
      obtain ⟨e', heffect', hpstate⟩ := step_eq_ok hp
      rw [h.find, heffect] at heffect'
      obtain rfl := Except.ok.inj heffect'
      exact (h.applied hquiet (effect_acts heffect)).congr hdstate hpstate

theorem agree_run (calls : List Call)
    (hquiet : AtEachStep (fun before c =>
      Uneventful host (Machine.run (step host decode) (new true) before) c) calls) :
    Agree (Machine.run (step host decode) (new true) calls)
      (Machine.run (step host decode) (new false) calls) := by
  induction calls using List.reverseRecOn with
  | nil => exact agree_new
  | append_singleton calls c ih =>
    rw [run_snoc, run_snoc]
    exact (ih hquiet.of_append).commit (hquiet calls c [] rfl)

/-- In a run of uneventful calls the two modes answer every query alike at every point, unless the
walk over the range it asks for runs past the last id. -/
theorem modes_equivalent (host : Host) (decode : String → Except String ImportedRecovery)
    (calls : List Call)
    (hquiet : AtEachStep (fun before c =>
      Uneventful host (Machine.run (step host decode) (new true) before) c) calls)
    (js : List Call) (hjs : js <+: calls) (q : Query) :
    (Machine.run (step host decode) (new true) js).ask q =
        (Machine.run (step host decode) (new false) js).ask q ↔
      ¬ (Machine.run (step host decode) (new true) js).Overruns q := by
  obtain ⟨rest, rfl⟩ := hjs
  exact (agree_run js hquiet.of_append).answers_iff q

end TransactionStateTracker

namespace Demo

open TransactionStateTracker

/-- One transaction is created twice, with progress in between. -/
def createdTwice : List TransactionStateTracker.Call :=
  [trackerCall 100 (.createTransactionWithReason 1 initiator none),
    trackerCall 101 (.startTransaction 1),
    trackerCall 102 (.createTransactionWithReason 1 initiator none)]

/-- Two transactions; one fails, and its recovery metadata is archived. -/
def failsAndArchives : List TransactionStateTracker.Call :=
  [trackerCall 100 (.createTransactionWithReason 1 initiator none),
    trackerCall 100 (.createTransactionWithReason 2 initiator none),
    trackerCall 101 (.failTransaction 2 "timeout"),
    trackerCall 200 (.archiveRecoveryMetadata 2 ⟨60, 5⟩)]

end Demo

namespace TransactionStateTracker

/-- Two transactions and an archived failure are reported alike in both modes. -/
theorem modes_equivalent_on_failsAndArchives :
    (Machine.run (step Demo.trackerHost Demo.decodeExported) (new true) Demo.failsAndArchives).ask
        (.transactionsInRange 1 2 10) =
      (Machine.run (step Demo.trackerHost Demo.decodeExported) (new false) Demo.failsAndArchives).ask
        (.transactionsInRange 1 2 10) :=
  (modes_equivalent Demo.trackerHost Demo.decodeExported Demo.failsAndArchives
    (by decide +kernel) Demo.failsAndArchives List.prefix_rfl (.transactionsInRange 1 2 10)).mpr
    (by decide)

/-- The development mode goes on with the first record, the production mode has replaced it. -/
theorem modes_differ_after_creating_twice :
    ¬ ∀ q,
      (Machine.run (step Demo.trackerHost Demo.decodeExported) (new true) Demo.createdTwice).ask q =
        (Machine.run (step Demo.trackerHost Demo.decodeExported) (new false)
          Demo.createdTwice).ask q := by
  intro h
  have hdev : ((Machine.run (step Demo.trackerHost Demo.decodeExported) (new true)
      Demo.createdTwice).getTransactionState 1).map (·.state) = some .inProgress := by
    decide +kernel
  have hprod : ((Machine.run (step Demo.trackerHost Demo.decodeExported) (new false)
      Demo.createdTwice).getTransactionState 1).map (·.state) = some .pending := by
    decide +kernel
  have hsame := Answer.transactionState.inj (Except.ok.inj (h (.transactionState 1)))
  rw [hsame, hprod] at hdev
  cases hdev

end TransactionStateTracker

end AnchorKit
