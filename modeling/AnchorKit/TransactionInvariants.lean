import AnchorKit.Contract
import AnchorKit.Library.KeyIndex

/-!
# Invariants of transaction records

Records advance towards a terminal state and are evicted from it. The list of ids indexes the
records as long as no record is created over one that is still there.
-/

namespace AnchorKit

def Call.createsTransaction : Call → Option UInt64
  | .createTransactionRecord transactionId _ | .createTxnRecordWithReason transactionId _ _ =>
    some transactionId
  | _ => none

def afterEviction (host : Host) (s : Storage) : TransactionStore :=
  evict s.transactions (victimsOf host s)

inductive TransactionStep (host : Host) (s : Storage) : Call → TransactionStore → Prop
  | keep {c : Call} {st : TransactionStore} (hc : c.createsTransaction = none)
      (hrecord : st.record = s.transactions.record) (hids : st.ids = s.transactions.ids) :
      TransactionStep host s c st
  | create {c : Call} {id : UInt64} {record : TransactionStateRecord} {st : TransactionStore}
      (hc : c.createsTransaction = some id) (hid : record.transactionId = id)
      (hrecord : st.record = (afterEviction host s).record.set id record)
      (hids : st.ids = (afterEviction host s).ids ++ [id]) : TransactionStep host s c st
  | advance {c : Call} {id : UInt64} {old new : TransactionStateRecord} {st : TransactionStore}
      (hc : c.createsTransaction = none) (hold : s.transactions.record.get id = some old)
      (hvalid : old.state.isValidTransition new.state = true)
      (hid : new.transactionId = old.transactionId)
      (hrecord : st.record = s.transactions.record.set id new)
      (hids : st.ids = s.transactions.ids) : TransactionStep host s c st

theorem Call.createsTransaction_of_frame {c : Call} (hc : .transactions ∉ c.touches) :
    c.createsTransaction = none := by
  cases c with
  | createTransactionRecord _ _ => exact absurd hc (by simp [Call.touches])
  | createTxnRecordWithReason _ _ _ => exact absurd hc (by simp [Call.touches])
  | _ => rfl

theorem transactionStep_advance {host : Host} {env : Env} {s s' : Storage} {c : Call}
    {id : UInt64} {newState : TransactionState} {message : Option String}
    {record : TransactionStateRecord} (hc : c.createsTransaction = none)
    (h : advanceTransactionStateInternal env s id newState message = .ok (s', record)) :
    TransactionStep host s c s'.transactions := by
  obtain ⟨old, hold, hvalid, rfl, hid, rfl⟩ := advanceTransactionStateInternal_effects h
  exact .advance hc hold hvalid hid rfl rfl

theorem transactionStep_create (host : Host) (env : Env) (s : Storage) {c : Call} {id : UInt64}
    (initiator : Address) (reason : Option String) (hc : c.createsTransaction = some id) :
    TransactionStep host s c
      (createTransactionRecordInternal host env s id initiator reason).1.transactions := by
  obtain ⟨record, _, hid, _, hcreated⟩ :=
    createTransactionRecordInternal_effects host env s id initiator reason
  rw [hcreated]
  exact .create hc hid rfl rfl

theorem transaction_step {host : Host} {s s' : Storage} {i : Input}
    (h : step host s i = .ok s') : TransactionStep host s i.2 s'.transactions := by
  obtain ⟨env, c⟩ := i
  change invoke host env s c = .ok s' at h
  by_cases hc : .transactions ∈ c.touches
  · cases c with
    | setEvictionPolicy enabled maxPerCall =>
      obtain rfl := setEvictionPolicy_effects h
      exact .keep rfl rfl rfl
    | setStorageBudgetThresholds warningBytes criticalBytes =>
      obtain rfl := setStorageBudgetThresholds_effects h
      exact .keep rfl rfl rfl
    | createTransactionRecord id initiator =>
      obtain rfl := Except.ok.inj h
      exact transactionStep_create host env s initiator none rfl
    | createTxnRecordWithReason id initiator reason =>
      obtain rfl := Except.ok.inj h
      exact transactionStep_create host env s initiator reason rfl
    | startTransactionRecord id =>
      obtain ⟨_, h⟩ := fst_map_eq_ok.mp h
      exact transactionStep_advance rfl h
    | completeTransactionRecord id =>
      obtain ⟨_, h⟩ := fst_map_eq_ok.mp h
      exact transactionStep_advance rfl h
    | failTransactionRecord id message =>
      obtain ⟨_, h⟩ := fst_map_eq_ok.mp h
      exact transactionStep_advance rfl h
    | _ => exact absurd hc (by simp [Call.touches])
  · rw [(invoke_sameOutside h).transactions_eq hc]
    exact .keep (Call.createsTransaction_of_frame hc) rfl rfl

/-- Each record carries the id it is stored under, the list of ids holds the id of each record
exactly once, and the summary counts the records. -/
structure TransactionStore.Sound (st : TransactionStore) : Prop where
  own_id : ∀ id record, st.record.get id = some record → record.transactionId = id
  listed_once : ∀ id, st.record.has id = true → st.ids.count id = 1
  total : (summarizeTransactionsByStatus st).totalCount = Set.ncard {id | st.record.has id = true}

/-- The stronger form that calls preserve. -/
structure TransactionStore.Indexed (st : TransactionStore) : Prop where
  own_id : ∀ id record, st.record.get id = some record → record.transactionId = id
  index : KeyIndex st.record st.ids

namespace TransactionStore

variable {st st' : TransactionStore}

theorem indexed_empty : Storage.empty.transactions.Indexed := ⟨nofun, KeyIndex.empty⟩

theorem totalCount_foldl {step : TransactionStatusSummary → UInt64 → TransactionStatusSummary}
    (counted : UInt64 → Bool)
    (hstep : ∀ summary id, (step summary id).totalCount =
      summary.totalCount + if counted id = true then 1 else 0)
    (ids : List UInt64) (summary : TransactionStatusSummary) :
    (ids.foldl step summary).totalCount = summary.totalCount + ids.countP counted := by
  induction ids generalizing summary with
  | nil => rfl
  | cons id ids ih =>
    rw [List.foldl_cons, ih, hstep, List.countP_cons]
    omega

theorem totalCount_eq (st : TransactionStore) :
    (summarizeTransactionsByStatus st).totalCount =
      st.ids.countP fun id => st.record.has id := by
  rw [summarizeTransactionsByStatus, totalCount_foldl fun id => st.record.has id]
  · exact Nat.zero_add _
  · intro summary id
    cases hget : st.record.get id with
    | none => simp [KeyedStore.has, hget]
    | some record =>
      have hcount : (summary.count record.state).totalCount = summary.totalCount + 1 := by
        cases record.state <;> rfl
      simpa [KeyedStore.has, hget] using hcount

theorem Indexed.sound (h : st.Indexed) : st.Sound where
  own_id := h.own_id
  listed_once := fun _ => h.index.count_eq_one
  total := by
    have hall : ∀ id ∈ st.ids, st.record.has id = true := fun id hid => (h.index.mem_iff id).mp hid
    rw [totalCount_eq, h.index.ncard_eq_length, List.countP_eq_length.mpr hall]

theorem Indexed.evict (h : st.Indexed) (victims : List UInt64) :
    (AnchorKit.evict st victims).Indexed where
  own_id := by
    intro id record hget
    rw [AnchorKit.evict, KeyedStore.get_foldl_remove] at hget
    split at hget
    · cases hget
    · exact h.own_id id record hget
  index := h.index.remove victims

theorem own_id_set {id : UInt64} {new : TransactionStateRecord}
    (h : ∀ id record, st.record.get id = some record → record.transactionId = id)
    (hset : st'.record = st.record.set id new) (hnew : new.transactionId = id) :
    ∀ id record, st'.record.get id = some record → record.transactionId = id := by
  intro x record hget
  rw [hset] at hget
  rcases KeyedStore.get_set_cases hget with ⟨rfl, rfl⟩ | hold
  · exact hnew
  · exact h x record hold

end TransactionStore

/-- A record in a terminal state stays as it is unless the call evicts it. -/
def KeepsTerminal (host : Host) (t : Transition) : Prop :=
  ∀ id record, t.pre.transactions.record.get id = some record → record.state.isTerminal = true →
    t.post.transactions.record.get id = some record ∨
      (t.input.2.createsTransaction.isSome = true ∧ id ∈ victimsOf host t.pre)

/-- The call does not create a record under an id whose record is still there. -/
def CreatesFresh (host : Host) (t : Transition) : Prop :=
  ∀ id, t.input.2.createsTransaction = some id →
    (afterEviction host t.pre).record.has id = false

section Step

variable {host : Host} {t : Transition}

/-- A record created over another one is listed twice. -/
theorem createsFresh_of_sound (ht : step host t.pre t.input = .ok t.post)
    (hindexed : t.pre.transactions.Indexed) (hsound : t.post.transactions.Sound) :
    CreatesFresh host t := by
  intro id hcreates
  have hstep := transaction_step ht
  generalize hst : t.post.transactions = st at hstep
  cases hstep with
  | keep hc =>
    rw [hc] at hcreates
    cases hcreates
  | advance hc =>
    rw [hc] at hcreates
    cases hcreates
  | create hc hid hrecord hids =>
    obtain rfl := Option.some.inj (hcreates.symm.trans hc)
    by_contra hlive
    have hevicted : (afterEviction host t.pre).Indexed := hindexed.evict _
    have hbefore := hevicted.index.count_eq_one (Bool.eq_true_of_not_eq_false hlive)
    have hafter : st.record.has id = true := by
      rw [hrecord, KeyedStore.has_set, if_pos rfl]
    rw [hst] at hsound
    have honce := hsound.listed_once id hafter
    rw [hids, List.count_append, hbefore, List.count_singleton_self] at honce
    cases honce

theorem indexed_of_step (ht : step host t.pre t.input = .ok t.post)
    (hindexed : t.pre.transactions.Indexed) (hfresh : CreatesFresh host t) :
    t.post.transactions.Indexed := by
  have hstep := transaction_step ht
  generalize t.post.transactions = st at hstep
  cases hstep with
  | keep hc hrecord hids =>
    constructor
    · rw [hrecord]
      exact hindexed.own_id
    · rw [hrecord, hids]
      exact hindexed.index
  | create hc hid hrecord hids =>
    have hevicted : (afterEviction host t.pre).Indexed := hindexed.evict _
    constructor
    · exact TransactionStore.own_id_set hevicted.own_id hrecord hid
    · rw [hrecord, hids]
      exact hevicted.index.append (hfresh _ hc) _
  | advance hc hold hvalid hid hrecord hids =>
    constructor
    · exact TransactionStore.own_id_set hindexed.own_id hrecord
        (hid.trans (hindexed.own_id _ _ hold))
    · rw [hrecord, hids]
      exact hindexed.index.overwrite (KeyedStore.has_iff.mpr ⟨_, hold⟩) _

theorem not_isTerminal_of_isValidTransition {source target : TransactionState}
    (h : source.isValidTransition target = true) : source.isTerminal = false := by
  cases source with
  | pending => rfl
  | inProgress => rfl
  | completed => cases h
  | failed => cases h

theorem keepsTerminal_of_step (ht : step host t.pre t.input = .ok t.post)
    (hfresh : CreatesFresh host t) : KeepsTerminal host t := by
  intro id record hget hterminal
  have hstep := transaction_step ht
  generalize t.post.transactions = st at hstep
  cases hstep with
  | keep hc hrecord hids =>
    rw [hrecord]
    exact Or.inl hget
  | create hc hid hrecord hids =>
    by_cases hvictim : id ∈ victimsOf host t.pre
    · exact Or.inr ⟨by rw [hc]; rfl, hvictim⟩
    · have hkept : (afterEviction host t.pre).record.get id = some record := by
        rw [afterEviction, evict, KeyedStore.get_foldl_remove, if_neg hvictim, hget]
      refine Or.inl ?_
      rw [hrecord, KeyedStore.get_set_of_ne _ _ ?_, hkept]
      rintro rfl
      have hnone := KeyedStore.has_eq_false_iff.mp (hfresh _ hc)
      rw [hkept] at hnone
      cases hnone
  | advance hc hold hvalid hid hrecord hids =>
    refine Or.inl ?_
    rw [hrecord, KeyedStore.get_set_of_ne _ _ ?_, hget]
    rintro rfl
    obtain rfl := Option.some.inj (hold.symm.trans hget)
    rw [not_isTerminal_of_isValidTransition hvalid] at hterminal
    cases hterminal

end Step

/-- The records are sound, and no call so far has touched a terminal record but to evict it. -/
def TransactionsLawful (host : Host) (past : List Transition) (s : Storage) : Prop :=
  s.transactions.Sound ∧ ∀ t ∈ past, KeepsTerminal host t

/-- The records are lawful at every point of a run exactly when the run never creates a record
under an id whose record is still there. -/
theorem transactionsLawful_iff (host : Host) (is : List Input) :
    (∀ js, js <+: is → TransactionsLawful host (history host js) (run host js)) ↔
      ∀ t ∈ history host is, CreatesFresh host t := by
  refine Machine.forall_prefix_invariant_iff (step host) (TransactionsLawful host)
    (fun _ s => s.transactions.Indexed) (CreatesFresh host) (s := .empty)
    ⟨TransactionStore.indexed_empty.sound, by simp⟩ TransactionStore.indexed_empty ?_ ?_ is
  · intro past t ht hindexed hlawful
    constructor
    · intro hpost
      exact createsFresh_of_sound ht hindexed hpost.1
    · intro hfresh
      exact ⟨(indexed_of_step ht hindexed hfresh).sound,
        Machine.forall_mem_snoc.mpr ⟨hlawful.2, keepsTerminal_of_step ht hfresh⟩⟩
  · intro past t ht hindexed _ hfresh
    exact indexed_of_step ht hindexed hfresh

/-- Creating one id twice starts a failed transaction anew and lists its id twice. -/
theorem recreated_transaction_lawless :
    ¬ ∀ js, js <+: [Demo.onLedger 1 (.createTransactionRecord 7 Demo.alice),
        Demo.onLedger 1 (.failTransactionRecord 7 "refused"),
        Demo.onLedger 1 (.createTransactionRecord 7 Demo.alice)] →
      TransactionsLawful Demo.host (history Demo.host js) (run Demo.host js) := by
  intro h
  have honce := (h _ List.prefix_rfl).1.listed_once 7 (by decide)
  revert honce
  decide

end AnchorKit
