import AnchorKit.Access
import AnchorKit.Library.FirstBest
import AnchorKit.Library.KeyedList
import AnchorKit.Library.Machine
import Mathlib.Data.Prod.Lex

/-!
# Routing policies by the time of day

A policy is in force within its window, which may run past midnight. The policy in force with the
lowest priority number is the one that counts, and among equals the one registered first. No other
entry point writes these records, so the rest of the storage is an input here.
-/

namespace AnchorKit

open Fallible

structure RoutingTimeWindow where
  windowStartSecs : UInt32
  windowEndSecs : UInt32
deriving DecidableEq, Repr

/-- A window that starts where it ends is always active. -/
def RoutingTimeWindow.isActive (window : RoutingTimeWindow) (timeOfDaySecs : UInt32) : Bool :=
  if window.windowStartSecs = window.windowEndSecs then true
  else if window.windowStartSecs < window.windowEndSecs then
    window.windowStartSecs ≤ timeOfDaySecs && timeOfDaySecs < window.windowEndSecs
  else
    window.windowStartSecs ≤ timeOfDaySecs || timeOfDaySecs < window.windowEndSecs

structure TimedRoutingPolicy where
  policyId : UInt64
  name : String
  strategyName : String
  window : RoutingTimeWindow
  priority : UInt32
  enabled : Bool
deriving DecidableEq, Repr

structure TimedPolicyStore where
  count : UInt64
  policies : KeyedStore UInt64 TimedRoutingPolicy

namespace TimedPolicyStore

def secsPerDay : UInt32 := 86400

def empty : TimedPolicyStore := ⟨0, .empty⟩

def registerTimedRoutingPolicy (env : Env) (s : Storage) (store : TimedPolicyStore)
    (name strategyName : String) (windowStartSecs windowEndSecs priority : UInt32) :
    Except Panic TimedPolicyStore := do
  requireAdmin env s
  require (strategyName ≠ "") (.withError .validationError)
  require (¬ (secsPerDay ≤ windowStartSecs ∨ secsPerDay ≤ windowEndSecs))
    (.withError .validationError)
  let nextId ← add64 store.count 1
  let policy : TimedRoutingPolicy := {
    policyId := nextId, name, strategyName, window := { windowStartSecs, windowEndSecs }, priority
    enabled := true }
  return { count := nextId, policies := store.policies.set nextId policy }

def setTimedPolicyEnabled (env : Env) (s : Storage) (store : TimedPolicyStore) (policyId : UInt64)
    (enabled : Bool) : Except Panic TimedPolicyStore := do
  requireAdmin env s
  let policy ← expect (store.policies.get policyId) (.withError .validationError)
  return { store with policies := store.policies.set policyId { policy with enabled } }

def timeOfDay (unixTimestamp : UInt64) : UInt32 := (unixTimestamp % 86400).toUInt32

def considerPolicy (store : TimedPolicyStore) (timeOfDay : UInt32)
    (best : Option (UInt32 × UInt64 × String)) (id : UInt64) : Option (UInt32 × UInt64 × String) :=
  match store.policies.get id with
  | none => best
  | some policy =>
    if !policy.enabled then best
    else if !policy.window.isActive timeOfDay then best
    else
      let better := match best with
        | none => true
        | some (bestPrio, bestId, _) =>
          policy.priority < bestPrio || (policy.priority = bestPrio && id < bestId)
      if better then some (policy.priority, id, policy.strategyName) else best

def policyIds (store : TimedPolicyStore) : List UInt64 :=
  (List.range store.count.toNat).map fun k => UInt64.ofNat (k + 1)

def getActiveRoutingPolicy (store : TimedPolicyStore) (unixTimestamp : UInt64) : Option String :=
  (store.policyIds.foldl (store.considerPolicy (timeOfDay unixTimestamp)) none).map fun best =>
    best.2.2

inductive Call
  | registerTimedRoutingPolicy (name strategyName : String)
      (windowStartSecs windowEndSecs priority : UInt32)
  | setTimedPolicyEnabled (policyId : UInt64) (enabled : Bool)

/-- A call, with the environment and the rest of the storage that it finds. -/
structure Input where
  env : Env
  storage : Storage
  call : Call

def step (store : TimedPolicyStore) (i : Input) : Except Panic TimedPolicyStore :=
  match i.call with
  | .registerTimedRoutingPolicy name strategyName windowStartSecs windowEndSecs priority =>
    registerTimedRoutingPolicy i.env i.storage store name strategyName windowStartSecs
      windowEndSecs priority
  | .setTimedPolicyEnabled policyId enabled =>
    setTimedPolicyEnabled i.env i.storage store policyId enabled

def run (is : List Input) : TimedPolicyStore := Machine.run step empty is

/-! ### The register of policies -/

/-- The policies after one more call: registered ones are numbered from 1 on. -/
def recordCall (ps : List TimedRoutingPolicy) : Call → List TimedRoutingPolicy
  | .registerTimedRoutingPolicy name strategyName windowStartSecs windowEndSecs priority =>
    ps ++ [{
      policyId := UInt64.ofNat (ps.length + 1), name, strategyName
      window := { windowStartSecs, windowEndSecs }, priority, enabled := true }]
  | .setTimedPolicyEnabled policyId enabled =>
    ps.map fun p => if p.policyId = policyId then { p with enabled } else p

def recordCalls (past : List (Machine.Transition TimedPolicyStore Input)) :
    List TimedRoutingPolicy :=
  past.foldl (fun ps t => recordCall ps t.input.call) []

/-- The policies that the calls of a run have registered, in that order, as they were switched
last. -/
def registered (is : List Input) : List TimedRoutingPolicy :=
  recordCalls (Machine.transitions step empty is)

/-- The store holds the policies of a register under their numbers. -/
def Holds (store : TimedPolicyStore) (ps : List TimedRoutingPolicy) : Prop :=
  KeyedList.Represents TimedRoutingPolicy.policyId store.policies store.policyIds ps

section Register

variable {store store' : TimedPolicyStore} {ps : List TimedRoutingPolicy} {i : Input}
  {id : UInt64} {policy : TimedRoutingPolicy}

theorem length_policyIds : store.policyIds.length = store.count.toNat := by
  rw [policyIds, List.length_map, List.length_range]

theorem Holds.length_eq (h : store.Holds ps) : ps.length = store.count.toNat := by
  rw [← length_policyIds, h.keys, List.length_map]

theorem mem_policyIds : id ∈ store.policyIds ↔ 1 ≤ id.toNat ∧ id.toNat ≤ store.count.toNat := by
  have hcount := store.count.toNat_lt
  rw [policyIds, List.mem_map]
  constructor
  · rintro ⟨k, hk, rfl⟩
    rw [List.mem_range] at hk
    rw [Word.toNat_ofNat64 (by omega)]
    omega
  · rintro ⟨hlow, hhigh⟩
    refine ⟨id.toNat - 1, List.mem_range.mpr (by omega), ?_⟩
    rw [Nat.sub_add_cancel hlow]
    exact UInt64.ofNat_toNat

theorem Holds.policyId_of_get (h : store.Holds ps) (hget : store.policies.get id = some policy) :
    policy.policyId = id := by
  rw [h.get] at hget
  exact KeyedList.key_of_lookup hget

theorem Holds.push (h : store.Holds ps) {next : UInt64}
    (hnext : store.count.toNat + 1 = next.toNat) (hpolicy : policy.policyId = next) :
    Holds { count := next, policies := store.policies.set next policy } (ps ++ [policy]) := by
  have hids : policyIds { count := next, policies := store.policies.set next policy } =
      store.policyIds ++ [policy.policyId] := by
    rw [policyIds, ← hnext, List.range_succ, List.map_append, hpolicy, policyIds,
      List.map_singleton, hnext, UInt64.ofNat_toNat]
  have hfree : KeyedList.lookup TimedRoutingPolicy.policyId policy.policyId ps = none := by
    rw [KeyedList.lookup_eq_none, ← h.keys, mem_policyIds, hpolicy]
    omega
  have hpush := KeyedList.Represents.push h hfree
  rw [← hids, hpolicy] at hpush
  exact hpush

theorem Holds.switch (h : store.Holds ps) (hget : store.policies.get id = some policy)
    (enabled : Bool) :
    Holds { store with policies := store.policies.set id { policy with enabled } }
      (ps.map fun p => if p.policyId = id then { p with enabled } else p) := by
  have hlookup : KeyedList.lookup TimedRoutingPolicy.policyId id ps = some policy := by
    rw [← h.get, hget]
  have hid : policy.policyId = id := h.policyId_of_get hget
  have hwritten := KeyedList.Represents.rewrite (v := { policy with enabled }) h hlookup hid
  rw [KeyedList.rewrite_eq_map (f := fun p => { p with enabled }) h.nodup hlookup] at hwritten
  exact hwritten

theorem Holds.step (h : store.Holds ps) (hstep : step store i = .ok store') :
    store'.Holds (recordCall ps i.call) := by
  obtain ⟨env, s, call⟩ := i
  cases call with
  | registerTimedRoutingPolicy name strategyName windowStartSecs windowEndSecs priority =>
    obtain ⟨_, -, hstep⟩ := bind_eq_ok.mp hstep
    rw [require_bind_eq_ok, require_bind_eq_ok] at hstep
    obtain ⟨-, -, hstep⟩ := hstep
    obtain ⟨next, hnext, hstep⟩ := bind_eq_ok.mp hstep
    rw [add64_eq_ok] at hnext
    have hnumber : UInt64.ofNat (ps.length + 1) = next := by
      change store.count.toNat + 1 = next.toNat at hnext
      rw [h.length_eq, hnext, UInt64.ofNat_toNat]
    rw [← pure_eq_ok.mp hstep, recordCall, hnumber]
    exact h.push hnext rfl
  | setTimedPolicyEnabled policyId enabled =>
    obtain ⟨_, -, hstep⟩ := bind_eq_ok.mp hstep
    obtain ⟨policy, hget, hstep⟩ := expect_bind_eq_ok.mp hstep
    rw [← pure_eq_ok.mp hstep]
    exact h.switch hget enabled

theorem holds_empty : empty.Holds [] := KeyedList.Represents.empty

theorem holds_run (is : List Input) : (run is).Holds (registered is) := by
  refine Machine.history_invariant TimedPolicyStore.step
    (fun past store => store.Holds (recordCalls past)) (fun _ => True) holds_empty
    (fun past t ht hpre _ => ?_) is fun _ _ => trivial
  rw [recordCalls, List.foldl_append]
  exact hpre.step ht

end Register

end TimedPolicyStore

def TimedRoutingPolicy.InForceAt (policy : TimedRoutingPolicy) (unixTimestamp : UInt64) : Prop :=
  policy.enabled = true ∧
    policy.window.isActive (TimedPolicyStore.timeOfDay unixTimestamp) = true

instance (policy : TimedRoutingPolicy) (unixTimestamp : UInt64) :
    Decidable (policy.InForceAt unixTimestamp) :=
  inferInstanceAs (Decidable (_ ∧ _))

/-- A lower priority number comes first, and among equals a lower id. -/
def TimedRoutingPolicy.precedes (policy other : TimedRoutingPolicy) : Bool :=
  policy.priority < other.priority ||
    (policy.priority = other.priority && policy.policyId < other.policyId)

namespace TimedPolicyStore

section Choice

variable {store : TimedPolicyStore} {ps : List TimedRoutingPolicy} {unixTimestamp : UInt64}

theorem precedes_iff {p q : TimedRoutingPolicy} : p.precedes q = true ↔
    p.priority.toNat < q.priority.toNat ∨
      p.priority.toNat = q.priority.toNat ∧ p.policyId.toNat < q.policyId.toNat := by
  simp [TimedRoutingPolicy.precedes, UInt32.lt_iff_toNat_lt, UInt64.lt_iff_toNat_lt,
    UInt32.toNat_inj]

theorem ranks_precedes : FirstBest.Ranks TimedRoutingPolicy.precedes := by
  apply FirstBest.Ranks.of_key fun p => toLex (p.priority.toNat, p.policyId.toNat)
  intro p q
  rw [Prod.Lex.toLex_lt_toLex]
  exact precedes_iff

def candidate (policy : TimedRoutingPolicy) : UInt32 × UInt64 × String :=
  (policy.priority, policy.policyId, policy.strategyName)

theorem considerPolicy_eq (h : store.Holds ps) (best : Option TimedRoutingPolicy) {id : UInt64}
    {policy : TimedRoutingPolicy} (hget : store.policies.get id = some policy) :
    store.considerPolicy (timeOfDay unixTimestamp) (best.map candidate) id =
      if policy.InForceAt unixTimestamp then
        (FirstBest.keep TimedRoutingPolicy.precedes best policy).map candidate
      else best.map candidate := by
  have hid := h.policyId_of_get hget
  rw [considerPolicy, hget]
  dsimp only
  by_cases henabled : policy.enabled = true
  · by_cases hactive : policy.window.isActive (timeOfDay unixTimestamp) = true
    · rw [if_pos (show policy.InForceAt unixTimestamp from ⟨henabled, hactive⟩), henabled, hactive]
      cases best with
      | none => simp [FirstBest.keep, candidate, hid]
      | some b =>
        have hbetter : (policy.priority < b.priority ||
            (policy.priority = b.priority && id < b.policyId) : Bool) = policy.precedes b := by
          rw [TimedRoutingPolicy.precedes, hid]
        simp only [Option.map_some, candidate, hbetter, FirstBest.keep]
        cases policy.precedes b <;> simp [hid]
    · rw [if_neg (show ¬ policy.InForceAt unixTimestamp from fun hforce => hactive hforce.2)]
      simp [henabled, hactive]
  · rw [if_neg (show ¬ policy.InForceAt unixTimestamp from fun hforce => henabled hforce.1)]
    simp [henabled]

theorem Holds.loop_eq (h : store.Holds ps) (unixTimestamp : UInt64) (ids : List UInt64)
    (best : Option TimedRoutingPolicy) :
    ids.foldl (store.considerPolicy (timeOfDay unixTimestamp)) (best.map candidate) =
      (((ids.filterMap store.policies.get).filter (·.InForceAt unixTimestamp)).foldl
        (FirstBest.keep TimedRoutingPolicy.precedes) best).map candidate := by
  induction ids generalizing best with
  | nil => rfl
  | cons id ids ih =>
    rw [List.foldl_cons]
    cases hget : store.policies.get id with
    | none =>
      have hskip : store.considerPolicy (timeOfDay unixTimestamp) (best.map candidate) id =
          best.map candidate := by
        rw [considerPolicy, hget]
      rw [hskip, List.filterMap_cons_none hget]
      exact ih best
    | some policy =>
      rw [considerPolicy_eq h best hget, List.filterMap_cons_some hget]
      by_cases hforce : policy.InForceAt unixTimestamp
      · rw [if_pos hforce, List.filter_cons, if_pos (decide_eq_true hforce), List.foldl_cons]
        exact ih _
      · rw [if_neg hforce, List.filter_cons, if_neg (by simpa using hforce)]
        exact ih best

theorem Holds.getActiveRoutingPolicy_eq (h : store.Holds ps) :
    store.getActiveRoutingPolicy unixTimestamp =
      (FirstBest.keepBest? TimedRoutingPolicy.precedes
        (ps.filter (·.InForceAt unixTimestamp))).map (·.strategyName) := by
  have hloop := h.loop_eq unixTimestamp store.policyIds none
  rw [KeyedList.Represents.filterMap_get h] at hloop
  rw [getActiveRoutingPolicy]
  change Option.map _ (store.policyIds.foldl _ (Option.map candidate none)) = _
  rw [hloop, Option.map_map]
  rfl

end Choice

end TimedPolicyStore

namespace RoutingTimeWindow

/-- Two different times of the day bound two windows, and each moment is in one of them. -/
theorem isActive_swap {start stop : UInt32} (h : start ≠ stop) (time : UInt32) :
    isActive ⟨start, stop⟩ time = true ↔ isActive ⟨stop, start⟩ time = false := by
  have hne : start.toNat ≠ stop.toNat := fun heq => h (UInt32.toNat_inj.mp heq)
  rw [isActive, isActive, if_neg h, if_neg (Ne.symm h)]
  simp only [UInt32.lt_iff_toNat_lt]
  by_cases hlt : start.toNat < stop.toNat
  · rw [if_pos hlt, if_neg (by omega)]
    simp only [Bool.and_eq_true, Bool.or_eq_false_iff, decide_eq_true_eq, decide_eq_false_iff_not,
      UInt32.le_iff_toNat_le]
    omega
  · rw [if_neg hlt, if_pos (by omega)]
    simp only [Bool.and_eq_false_iff, Bool.or_eq_true, decide_eq_true_eq, decide_eq_false_iff_not,
      UInt32.le_iff_toNat_le]
    omega

theorem isActive_self (start time : UInt32) : isActive ⟨start, start⟩ time = true := if_pos rfl

/-- A window is open from its start until its end, and past midnight if it ends before it starts. -/
theorem isActive_iff {start stop : UInt32} (h : start ≠ stop) (time : UInt32) :
    isActive ⟨start, stop⟩ time = true ↔
      (start < stop ∧ start ≤ time ∧ time < stop) ∨
        (stop < start ∧ (start ≤ time ∨ time < stop)) := by
  have hne : start.toNat ≠ stop.toNat := fun heq => h (UInt32.toNat_inj.mp heq)
  rw [isActive, if_neg h]
  simp only [UInt32.lt_iff_toNat_lt]
  by_cases hlt : start.toNat < stop.toNat
  · rw [if_pos hlt]
    simp only [Bool.and_eq_true, decide_eq_true_eq, UInt32.le_iff_toNat_le]
    omega
  · rw [if_neg hlt]
    simp only [Bool.or_eq_true, decide_eq_true_eq, UInt32.le_iff_toNat_le]
    omega

/-- The seconds from one time of the day until the next occurrence of another. -/
def secondsUntil (start time : UInt32) : ℕ := (time.toNat + 86400 - start.toNat) % 86400

/-- In seconds since its start, each moment of a window is before its end. -/
theorem isActive_iff_secondsUntil {start stop time : UInt32} (hstart : start < 86400)
    (hstop : stop < 86400) (htime : time < 86400) (h : start ≠ stop) :
    isActive ⟨start, stop⟩ time = true ↔ secondsUntil start time < secondsUntil start stop := by
  have hne : start.toNat ≠ stop.toNat := fun heq => h (UInt32.toNat_inj.mp heq)
  rw [UInt32.lt_iff_toNat_lt] at hstart hstop htime
  change start.toNat < 86400 at hstart
  change stop.toNat < 86400 at hstop
  change time.toNat < 86400 at htime
  have hafter {t : UInt32} (ht : t.toNat < 86400) : secondsUntil start t =
      if start.toNat ≤ t.toNat then t.toNat - start.toNat else t.toNat + 86400 - start.toNat := by
    unfold secondsUntil
    split
    · rw [Nat.mod_eq_sub_mod (by omega), Nat.mod_eq_of_lt (by omega)]
      omega
    · rw [Nat.mod_eq_of_lt (by omega)]
  rw [isActive_iff h, hafter htime, hafter hstop]
  simp only [UInt32.lt_iff_toNat_lt, UInt32.le_iff_toNat_le]
  split <;> split <;> omega

end RoutingTimeWindow

namespace TimedPolicyStore

theorem Holds.policyId_lt {store : TimedPolicyStore} {ps : List TimedRoutingPolicy}
    (h : store.Holds ps) : ps.Pairwise fun p q => p.policyId < q.policyId := by
  have hcount := store.count.toNat_lt
  rw [← List.pairwise_map (f := TimedRoutingPolicy.policyId), ← h.keys, policyIds,
    List.pairwise_map]
  refine List.pairwise_lt_range.imp_of_mem fun {i j} hi hj hlt => ?_
  rw [List.mem_range] at hi hj
  rw [UInt64.lt_iff_toNat_lt, Word.toNat_ofNat64 (by omega), Word.toNat_ofNat64 (by omega)]
  omega

theorem timeOfDay_lt (unixTimestamp : UInt64) : timeOfDay unixTimestamp < 86400 := by
  rw [UInt32.lt_iff_toNat_lt, timeOfDay, UInt64.toNat_toUInt32, UInt64.toNat_mod]
  change unixTimestamp.toNat % 86400 % 2 ^ 32 < 86400
  omega

def WithinDay (policy : TimedRoutingPolicy) : Prop :=
  policy.window.windowStartSecs < 86400 ∧ policy.window.windowEndSecs < 86400

theorem withinDay_step {store store' : TimedPolicyStore} {ps : List TimedRoutingPolicy} {i : Input}
    (hstep : step store i = .ok store') (h : ∀ p ∈ ps, WithinDay p) :
    ∀ p ∈ recordCall ps i.call, WithinDay p := by
  obtain ⟨env, s, call⟩ := i
  cases call with
  | registerTimedRoutingPolicy name strategyName windowStartSecs windowEndSecs priority =>
    obtain ⟨_, -, hstep⟩ := bind_eq_ok.mp hstep
    rw [require_bind_eq_ok, require_bind_eq_ok] at hstep
    obtain ⟨-, hwindow, -⟩ := hstep
    obtain ⟨hstart, hstop⟩ := not_or.mp hwindow
    refine List.forall_mem_append.mpr ⟨h, List.forall_mem_singleton.mpr ?_⟩
    exact ⟨UInt32.not_le.mp hstart, UInt32.not_le.mp hstop⟩
  | setTimedPolicyEnabled policyId enabled =>
    intro p hp
    obtain ⟨q, hq, rfl⟩ := List.mem_map.mp hp
    split
    · exact h q hq
    · exact h q hq

theorem withinDay_run (is : List Input) : ∀ p ∈ registered is, WithinDay p := by
  refine Machine.history_invariant TimedPolicyStore.step
    (fun past _ => ∀ p ∈ recordCalls past, WithinDay p) (fun _ => True) (fun _ hp => by cases hp)
    (fun past t ht hpre _ => ?_) is fun _ _ => trivial
  rw [recordCalls, List.foldl_append]
  exact withinDay_step ht hpre

theorem inForceAt_iff {p : TimedRoutingPolicy} (h : WithinDay p) (unixTimestamp : UInt64) :
    p.InForceAt unixTimestamp ↔ p.enabled = true ∧
      (p.window.windowStartSecs = p.window.windowEndSecs ∨
        RoutingTimeWindow.secondsUntil p.window.windowStartSecs (timeOfDay unixTimestamp) <
          RoutingTimeWindow.secondsUntil p.window.windowStartSecs p.window.windowEndSecs) := by
  refine and_congr_right fun _ => ?_
  by_cases heq : p.window.windowStartSecs = p.window.windowEndSecs
  · exact iff_of_true (if_pos heq) (Or.inl heq)
  · rw [or_iff_right heq]
    exact RoutingTimeWindow.isActive_iff_secondsUntil h.1 h.2 (timeOfDay_lt unixTimestamp) heq

/-- The policy that is found comes before every other one in force. -/
theorem getActiveRoutingPolicy_least (is : List Input) (unixTimestamp : UInt64) :
    (getActiveRoutingPolicy (run is) unixTimestamp = none ∧
      ∀ p ∈ registered is, ¬ p.InForceAt unixTimestamp) ∨
    ∃ p ∈ registered is, p.InForceAt unixTimestamp ∧
      getActiveRoutingPolicy (run is) unixTimestamp = some p.strategyName ∧
      ∀ q ∈ registered is, q.InForceAt unixTimestamp →
        p.priority < q.priority ∨ p.priority = q.priority ∧ p.policyId ≤ q.policyId := by
  have hheld := holds_run is
  rw [hheld.getActiveRoutingPolicy_eq]
  cases hbest : FirstBest.keepBest? TimedRoutingPolicy.precedes
      ((registered is).filter (·.InForceAt unixTimestamp)) with
  | none =>
    rw [FirstBest.keepBest?_eq_none, List.filter_eq_nil_iff] at hbest
    exact Or.inl ⟨rfl, fun p hp hforce => hbest p hp (decide_eq_true hforce)⟩
  | some p =>
    have hfirst := FirstBest.isFirstBest_keepBest? ranks_precedes hbest
    obtain ⟨hp, hforce⟩ := List.mem_filter.mp hfirst.mem
    refine Or.inr ⟨p, hp, of_decide_eq_true hforce, rfl, fun q hq hqforce => ?_⟩
    have hnot := hfirst.not_better ranks_precedes
      (List.mem_filter.mpr ⟨hq, decide_eq_true hqforce⟩)
    rw [← Bool.not_eq_true, precedes_iff] at hnot
    rw [UInt32.lt_iff_toNat_lt, ← UInt32.toNat_inj, UInt64.le_iff_toNat_le]
    omega

/-- After any calls and at any time, the strategy in force is that of the policy in force with the
least priority and id, if any policy is in force, and no two policies have one id. A policy is in
force from the start of its window until its end, around the clock, and a window that ends where it
starts is always active; two different times of the day bound two windows that complement each
other. -/
theorem active_policy_least :
    (∀ is, (registered is).Pairwise fun p q => p.policyId < q.policyId) ∧
    (∀ (is : List Input) (unixTimestamp : UInt64),
      (getActiveRoutingPolicy (run is) unixTimestamp = none ∧
        ∀ p ∈ registered is, ¬ p.InForceAt unixTimestamp) ∨
      ∃ p ∈ registered is, p.InForceAt unixTimestamp ∧
        getActiveRoutingPolicy (run is) unixTimestamp = some p.strategyName ∧
        ∀ q ∈ registered is, q.InForceAt unixTimestamp →
          p.priority < q.priority ∨ p.priority = q.priority ∧ p.policyId ≤ q.policyId) ∧
    (∀ is, ∀ p ∈ registered is, ∀ unixTimestamp, p.InForceAt unixTimestamp ↔ p.enabled = true ∧
      (p.window.windowStartSecs = p.window.windowEndSecs ∨
        RoutingTimeWindow.secondsUntil p.window.windowStartSecs (timeOfDay unixTimestamp) <
          RoutingTimeWindow.secondsUntil p.window.windowStartSecs p.window.windowEndSecs)) ∧
    (∀ start stop time : UInt32, start ≠ stop →
      (RoutingTimeWindow.isActive ⟨start, stop⟩ time = true ↔
        (start < stop ∧ start ≤ time ∧ time < stop) ∨
          (stop < start ∧ (start ≤ time ∨ time < stop)))) ∧
    (∀ start stop time : UInt32, start ≠ stop →
      (RoutingTimeWindow.isActive ⟨start, stop⟩ time = true ↔
        RoutingTimeWindow.isActive ⟨stop, start⟩ time = false)) ∧
    ∀ start time : UInt32, RoutingTimeWindow.isActive ⟨start, start⟩ time = true := by
  refine ⟨fun is => (holds_run is).policyId_lt, getActiveRoutingPolicy_least, ?_, ?_, ?_, ?_⟩
  · exact fun is p hp unixTimestamp => inForceAt_iff (withinDay_run is p hp) unixTimestamp
  · exact fun start stop time h => RoutingTimeWindow.isActive_iff h time
  · exact fun start stop time h => RoutingTimeWindow.isActive_swap h time
  · exact RoutingTimeWindow.isActive_self

/-- A window that starts where it ends overlaps the one with its ends swapped. -/
theorem whole_day_overlaps :
    ¬ ∀ start stop time : UInt32, RoutingTimeWindow.isActive ⟨start, stop⟩ time = true ↔
      RoutingTimeWindow.isActive ⟨stop, start⟩ time = false := by
  intro h
  have hboth := (h 3600 3600 0).mp (by decide)
  revert hboth
  decide

end TimedPolicyStore

end AnchorKit
