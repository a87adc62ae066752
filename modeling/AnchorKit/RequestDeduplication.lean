import AnchorKit.Library.Machine
import AnchorKit.Library.OrderedMap
import AnchorKit.Library.SelfDelimiting
import AnchorKit.Types
import Std.Data.String.ToNat

/-!
# Request deduplication

The in-process store that maps the key of a request to the outcome of its first execution, and
the helper that runs an operation through it. The operation is a computation in an arbitrary
monad, so that running it can be observed.
-/

namespace AnchorKit

open Fallible

structure DeduplicationKey where
  operation : String
  requestId : String
deriving DecidableEq, Repr

/-- Each component with its length in bytes in front. -/
def DeduplicationKey.asMapKey (key : DeduplicationKey) : String :=
  Nat.repr key.operation.utf8ByteSize ++ ":" ++ key.operation ++ "|" ++
    Nat.repr key.requestId.utf8ByteSize ++ ":" ++ key.requestId

inductive DeduplicationResult
  | success (summary : String)
  | failure (error : String)
deriving DecidableEq, Repr

structure DeduplicationEntry where
  result : DeduplicationResult
  expiresAt : UInt64
deriving DecidableEq, Repr

/-- A cap of zero entries means that there is no cap. -/
structure DeduplicationStore where
  defaultTtlSecs : UInt64
  maxEntries : ℕ
  entries : Std.TreeMap String DeduplicationEntry

namespace DeduplicationStore

def withCapacity (defaultTtlSecs : UInt64) (maxEntries : ℕ) : Except Panic DeduplicationStore := do
  require (0 < defaultTtlSecs) (.expectFailed
    "default_ttl_secs must be greater than zero; a zero TTL causes every entry to expire immediately")
  return { defaultTtlSecs, maxEntries, entries := ∅ }

def new (defaultTtlSecs : UInt64) : Except Panic DeduplicationStore := withCapacity defaultTtlSecs 0

def isDuplicate (store : DeduplicationStore) (key : DeduplicationKey) (nowSecs : UInt64) : Bool :=
  match store.entries[key.asMapKey]? with
  | some entry => nowSecs < entry.expiresAt
  | none => false

def retainLive (store : DeduplicationStore) (nowSecs : UInt64) : DeduplicationStore :=
  { store with entries := store.entries.filter fun _ entry => nowSecs < entry.expiresAt }

def enforceCapacity (store : DeduplicationStore) (nowSecs : UInt64) : DeduplicationStore :=
  if store.maxEntries = 0 then store
  else if store.maxEntries ≤ store.entries.size then store.retainLive nowSecs
  else store

/-- The shared body of `record_success` and `record_failure`. -/
def record (store : DeduplicationStore) (key : DeduplicationKey) (result : DeduplicationResult)
    (nowSecs : UInt64) : DeduplicationStore :=
  let store := store.enforceCapacity nowSecs
  if 0 < store.maxEntries ∧ store.maxEntries ≤ store.entries.size then store
  else
    let expiresAt := Word.saturatingAdd64 nowSecs store.defaultTtlSecs
    { store with entries := store.entries.insert key.asMapKey { result, expiresAt } }

def recordSuccess (store : DeduplicationStore) (key : DeduplicationKey) (summary : String)
    (nowSecs : UInt64) : DeduplicationStore := store.record key (.success summary) nowSecs

def recordFailure (store : DeduplicationStore) (key : DeduplicationKey) (error : String)
    (nowSecs : UInt64) : DeduplicationStore := store.record key (.failure error) nowSecs

def cachedResult (store : DeduplicationStore) (key : DeduplicationKey) (nowSecs : UInt64) :
    Option DeduplicationResult :=
  match store.entries[key.asMapKey]? with
  | some entry => if nowSecs < entry.expiresAt then some entry.result else none
  | none => none

end DeduplicationStore

section Execute

variable {τ ε : Type} (okText : τ → String) (errText : ε → String)

/-- The flag says whether the key was recognised as a duplicate. -/
def executeDeduplicated {m : Type → Type} [Monad m] (store : DeduplicationStore)
    (key : DeduplicationKey) (nowSecs : UInt64) (f : m (Except ε τ)) :
    m ((Except ε τ × Bool) × DeduplicationStore) := do
  if store.isDuplicate key nowSecs then
    -- a value of the right type is made by running the operation again
    let result ← f
    return ((result, true), store)
  else
    let result ← f
    match result with
    | .ok val => return ((result, false), store.recordSuccess key (okText val) nowSecs)
    | .error err => return ((result, false), store.recordFailure key (errText err) nowSecs)

/-- What is recorded of an outcome. -/
def outcomeResult : Except ε τ → DeduplicationResult
  | .ok val => .success (okText val)
  | .error err => .failure (errText err)

end Execute

/-! ### Map keys -/

theorem repr_colon_inj {n m : ℕ} {s t : String}
    (h : Nat.repr n ++ (":" ++ s) = Nat.repr m ++ (":" ++ t)) : n = m ∧ s = t := by
  have hcode : SelfDelimiting Set.univ fun n : ℕ => (Nat.repr n).toList ++ [':'] := by
    apply SelfDelimiting.terminated
    · intro n _ hmem
      have hdigit : (':').isDigit = true :=
        Nat.isDigit_of_mem_toDigits (b := 10) (n := n) (by decide) (by decide) (by simpa using hmem)
      cases hdigit
    · intro n _ m _ heq
      exact Nat.repr_injective (String.toList_inj.mp heq)
  obtain ⟨rfl, hst⟩ := hcode n trivial m trivial s.toList t.toList
    (by simpa using congrArg String.toList h)
  exact ⟨rfl, String.toList_inj.mp hst⟩

/-- Strings of one length in bytes in front of others. -/
theorem sized_append_inj {a b s t : String} (hsize : a.utf8ByteSize = b.utf8ByteSize)
    (h : a ++ s = b ++ t) : a = b ∧ s = t := by
  have hbytes := congrArg (fun u => u.toByteArray.data.toList) h
  simp only [String.toByteArray_append, ByteArray.toList_data_append] at hbytes
  obtain ⟨ha, hs⟩ := List.append_inj hbytes (by simpa using hsize)
  have hext {u v : String} (huv : u.toByteArray.data.toList = v.toByteArray.data.toList) : u = v :=
    String.toByteArray_inj.mp (ByteArray.ext (Array.toList_inj.mp huv))
  exact ⟨hext ha, hext hs⟩

theorem asMapKey_injective : Function.Injective DeduplicationKey.asMapKey := by
  rintro ⟨operation, requestId⟩ ⟨operation', requestId'⟩ h
  simp only [DeduplicationKey.asMapKey, String.append_assoc] at h
  obtain ⟨hoperation, hrest⟩ := repr_colon_inj h
  obtain ⟨rfl, hbar⟩ := sized_append_inj hoperation hrest
  obtain ⟨_, hid⟩ := sized_append_inj (a := "|") (b := "|") rfl hbar
  obtain ⟨_, rfl⟩ := repr_colon_inj hid
  rfl

theorem getElem?_insert_asMapKey {entries : Std.TreeMap String DeduplicationEntry}
    {key key' : DeduplicationKey} {e : DeduplicationEntry} :
    (entries.insert key.asMapKey e)[key'.asMapKey]? =
      if key = key' then some e else entries[key'.asMapKey]? := by
  have hmap : key.asMapKey = key'.asMapKey ↔ key = key' := asMapKey_injective.eq_iff
  simp only [OrderedMap.getElem?_insert, hmap]

/-! ### Sequences of calls -/

/-- A call of `execute_deduplicated`, with the outcome of its operation in case it is run. -/
structure DedupCall (τ ε : Type) where
  key : DeduplicationKey
  nowSecs : UInt64
  outcome : Except ε τ

/-- The operation counts how often it is run. -/
def DedupCall.operation {τ ε : Type} (c : DedupCall τ ε) : StateM ℕ (Except ε τ) := do
  modify (· + 1)
  return c.outcome

section Runs

variable {τ ε : Type} (okText : τ → String) (errText : ε → String)

def serve (store : DeduplicationStore) (c : DedupCall τ ε) :
    ((Except ε τ × Bool) × DeduplicationStore) × ℕ :=
  (executeDeduplicated okText errText store c.key c.nowSecs c.operation).run 0

def dedupStep (store : DeduplicationStore) (c : DedupCall τ ε) : Except Empty DeduplicationStore :=
  .ok (serve okText errText store c).1.2

abbrev DedupTransition (τ ε : Type) := Machine.Transition DeduplicationStore (DedupCall τ ε)

def dedupHistory (store : DeduplicationStore) (calls : List (DedupCall τ ε)) :
    List (DedupTransition τ ε) :=
  Machine.transitions (dedupStep okText errText) store calls

def DedupTransition.response (t : DedupTransition τ ε) : Except ε τ × Bool :=
  (serve okText errText t.pre t.input).1.1

def DedupTransition.Invoked (t : DedupTransition τ ε) : Prop :=
  0 < (serve okText errText t.pre t.input).2

/-- The call repeats the key of `b` before the time to live of `b` is over. -/
def DedupCall.RepeatsWithin (ttl : UInt64) (b c : DedupCall τ ε) : Prop :=
  b.key = c.key ∧ c.nowSecs.toNat - b.nowSecs.toNat < ttl.toNat

instance {τ ε : Type} (ttl : UInt64) (b c : DedupCall τ ε) : Decidable (b.RepeatsWithin ttl c) :=
  inferInstanceAs (Decidable (_ ∧ _))

/-- The operation is run exactly when no earlier run for the key is recent, and otherwise the call
answers with the cached outcome. -/
structure RunsOnce (ttl : UInt64) (before : List (DedupTransition τ ε)) (t : DedupTransition τ ε) :
    Prop where
  invoked_iff : t.Invoked okText errText ↔
    ∀ b ∈ before, b.Invoked okText errText → ¬ b.input.RepeatsWithin ttl t.input
  cached : ¬ t.Invoked okText errText → t.pre.cachedResult t.input.key t.input.nowSecs =
    some (outcomeResult okText errText (t.response okText errText).1)

theorem serve_eq (store : DeduplicationStore) (c : DedupCall τ ε) :
    serve okText errText store c =
      (((c.outcome, store.isDuplicate c.key c.nowSecs),
        if store.isDuplicate c.key c.nowSecs then store
        else store.record c.key (outcomeResult okText errText c.outcome) c.nowSecs), 1) := by
  unfold serve executeDeduplicated
  cases hdup : store.isDuplicate c.key c.nowSecs with
  | true => rfl
  | false =>
    rcases c with ⟨key, now, _ | _⟩
    · rfl
    · rfl

/-- Whatever the store says, the operation is run. -/
theorem invoked (t : DedupTransition τ ε) : t.Invoked okText errText := by
  unfold DedupTransition.Invoked
  rw [serve_eq]
  exact Nat.one_pos

theorem response_eq (t : DedupTransition τ ε) :
    t.response okText errText = (t.input.outcome, t.pre.isDuplicate t.input.key t.input.nowSecs) := by
  rw [DedupTransition.response, serve_eq]

theorem map_input_dedupHistory (store : DeduplicationStore) (calls : List (DedupCall τ ε)) :
    (dedupHistory okText errText store calls).map Machine.Transition.input = calls := by
  induction calls generalizing store with
  | nil => rfl
  | cons c calls ih =>
    simp only [dedupHistory, Machine.transitions] at ih ⊢
    rw [Machine.committed_ok _ rfl, Machine.commit_ok _ rfl]
    simp [ih]

/-- In every sequence of calls, on any store, each operation runs at most once in its time to live
exactly when no key is repeated within it. -/
theorem runs_once_iff (store : DeduplicationStore) (calls : List (DedupCall τ ε)) :
    Machine.AtEachStep (RunsOnce okText errText store.defaultTtlSecs)
        (dedupHistory okText errText store calls) ↔
      calls.Pairwise fun b c => ¬ b.RepeatsWithin store.defaultTtlSecs c := by
  rw [← map_input_dedupHistory okText errText store calls, List.pairwise_map,
    ← Machine.atEachStep_forall_mem, map_input_dedupHistory]
  constructor
  · intro h before t after hsplit b hb
    exact (h before t after hsplit).invoked_iff.mp (invoked okText errText t) b hb
      (invoked okText errText b)
  · intro h before t after hsplit
    exact ⟨⟨fun _ b hb _ => h before t after hsplit b hb, fun _ => invoked okText errText t⟩,
      fun hnot => absurd (invoked okText errText t) hnot⟩

/-- The last call for the key that was not recognised as a duplicate. -/
def lastRecorded (past : List (DedupTransition τ ε)) (key : DeduplicationKey) :
    Option (DedupTransition τ ε) :=
  (past.filter fun t => !(t.response okText errText).2 && decide (t.input.key = key)).getLast?

def DedupTransition.entry (ttl : UInt64) (t : DedupTransition τ ε) : DeduplicationEntry where
  result := outcomeResult okText errText t.input.outcome
  expiresAt := Word.saturatingAdd64 t.input.nowSecs ttl

/-- The store holds what the last recorded call for each key left. -/
structure DeduplicationStore.Traced (ttl : UInt64) (past : List (DedupTransition τ ε))
    (store : DeduplicationStore) : Prop where
  uncapped : store.maxEntries = 0
  ttl_eq : store.defaultTtlSecs = ttl
  entry_eq : ∀ key : DeduplicationKey, store.entries[key.asMapKey]? =
    (lastRecorded okText errText past key).map (DedupTransition.entry okText errText ttl)

theorem lastRecorded_snoc (past : List (DedupTransition τ ε)) (t : DedupTransition τ ε)
    (key : DeduplicationKey) :
    lastRecorded okText errText (past ++ [t]) key =
      if (t.response okText errText).2 = false ∧ t.input.key = key then some t
      else lastRecorded okText errText past key := by
  simp only [lastRecorded, List.filter_append, List.filter_singleton]
  by_cases h : (t.response okText errText).2 = false ∧ t.input.key = key
  · simp [h]
  · rw [if_neg h]
    have hdrop : (!(t.response okText errText).2 && decide (t.input.key = key)) = false := by
      simpa using h
    simp [hdrop]

theorem record_uncapped {store : DeduplicationStore} (h : store.maxEntries = 0)
    (key : DeduplicationKey) (result : DeduplicationResult) (nowSecs : UInt64) :
    store.record key result nowSecs =
      ⟨store.defaultTtlSecs, store.maxEntries, store.entries.insert key.asMapKey
        ⟨result, Word.saturatingAdd64 nowSecs store.defaultTtlSecs⟩⟩ := by
  simp [DeduplicationStore.record, DeduplicationStore.enforceCapacity, h]

theorem traced_of_step {ttl : UInt64} {past : List (DedupTransition τ ε)} {t : DedupTransition τ ε}
    (ht : dedupStep okText errText t.pre t.input = .ok t.post)
    (h : t.pre.Traced okText errText ttl past) : t.post.Traced okText errText ttl (past ++ [t]) := by
  have hflag := congrArg Prod.snd (response_eq okText errText t)
  have hpost := Except.ok.inj ht
  rw [serve_eq] at hpost
  cases hdup : t.pre.isDuplicate t.input.key t.input.nowSecs with
  | true =>
    rw [hdup] at hflag
    simp only [hdup, if_true] at hpost
    rw [← hpost]
    refine ⟨h.uncapped, h.ttl_eq, fun key => ?_⟩
    rw [lastRecorded_snoc, if_neg (by simp [hflag])]
    exact h.entry_eq key
  | false =>
    rw [hdup] at hflag
    simp only [hdup, Bool.false_eq_true, if_false, record_uncapped h.uncapped, h.ttl_eq] at hpost
    rw [← hpost]
    refine ⟨h.uncapped, rfl, fun key => ?_⟩
    rw [lastRecorded_snoc, getElem?_insert_asMapKey]
    by_cases hkey : t.input.key = key
    · simp [hkey, hflag, DedupTransition.entry]
    · simp [hkey, h.entry_eq key]

theorem traced_run {ttl : UInt64} {store : DeduplicationStore}
    (hnew : DeduplicationStore.new ttl = .ok store) (calls : List (DedupCall τ ε)) :
    (Machine.run (dedupStep okText errText) store calls).Traced okText errText ttl
      (dedupHistory okText errText store calls) := by
  apply Machine.history_invariant _ _ (fun _ => True)
  · simp only [DeduplicationStore.new, DeduplicationStore.withCapacity, require_bind_eq_ok,
      pure_eq_ok] at hnew
    obtain ⟨_, rfl⟩ := hnew
    exact ⟨rfl, rfl, fun key => by simp [lastRecorded]⟩
  · exact fun past t ht hpre _ => traced_of_step okText errText ht hpre
  · exact fun _ _ => trivial

/-- From a new store a call is recognised as a duplicate exactly when the outcome of its key was
last recorded less than the time to live before. -/
theorem recognised_iff {ttl : UInt64} {store : DeduplicationStore}
    (hnew : DeduplicationStore.new ttl = .ok store) (calls : List (DedupCall τ ε)) :
    Machine.AtEachStep
      (fun before t => (t.response okText errText).2 = true ↔
        ∃ b, lastRecorded okText errText before t.input.key = some b ∧
          t.input.nowSecs < Word.saturatingAdd64 b.input.nowSecs ttl)
      (dedupHistory okText errText store calls) := by
  intro before t after hsplit
  obtain ⟨js, ks, _, hpre, hbefore⟩ := Machine.exists_prefix_of_transitions_eq _ hsplit
  have htraced := traced_run okText errText hnew js
  rw [hpre, dedupHistory, hbefore] at htraced
  rw [response_eq, DeduplicationStore.isDuplicate, htraced.entry_eq]
  cases lastRecorded okText errText before t.input.key with
  | none => simp
  | some b => simp [DedupTransition.entry]

end Runs

namespace Demo

def withdrawal (nowSecs : UInt64) : DedupCall String String :=
  ⟨⟨"withdrawal", "ref-42"⟩, nowSecs, .ok "completed"⟩

def dedupStore : DeduplicationStore := ⟨60, 0, ∅⟩

end Demo

/-- A request repeated after one second is run again. -/
theorem withdrawal_executed_twice :
    ¬ Machine.AtEachStep (RunsOnce id id 60)
      (dedupHistory id id Demo.dedupStore [Demo.withdrawal 0, Demo.withdrawal 1]) := by
  intro h
  have hnone := (h [_] _ [] rfl).invoked_iff.mp (invoked id id _) _ List.mem_cons_self (invoked id id _)
  exact hnone (by decide)

end AnchorKit
