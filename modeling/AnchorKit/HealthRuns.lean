import AnchorKit.AnchorHealth

/-!
# Health records over whole runs

The counters of an anchor are the sums of what was reported since its last reset, and its ring
holds the latest windows. The uptime is an exact quotient as long as the saturating product loses
nothing that matters for it.
-/

namespace AnchorKit.HealthStore

open Fallible

inductive Call
  | recordHealthEvent (anchor : Address) (success : Bool)
  | recordHealthWindow (anchor : Address) (window : AnchorHealthWindow)
  | resetAnchorHealth (anchor : Address)
deriving DecidableEq

/-- A call, with the environment and the rest of the storage that it finds. -/
structure Input where
  env : Env
  storage : Storage
  call : Call

def step (store : HealthStore) (i : Input) : Except Panic HealthStore :=
  match i.call with
  | .recordHealthEvent anchor success => recordHealthEvent i.env i.storage store anchor success
  | .recordHealthWindow anchor window => recordHealthWindow i.env i.storage store anchor window
  | .resetAnchorHealth anchor => resetAnchorHealth i.env i.storage store anchor

abbrev Transition := Machine.Transition HealthStore Input

def run (is : List Input) : HealthStore := Machine.run step empty is

/-- The calls of a run that were not reverted. -/
def calls (past : List Transition) : List Call := past.map (·.input.call)

namespace Call

def anchor : Call → Address
  | .recordHealthEvent anchor _ | .recordHealthWindow anchor _ | .resetAnchorHealth anchor => anchor

def successes : Call → UInt64
  | .recordHealthEvent _ success => if success then 1 else 0
  | .recordHealthWindow _ window => window.successCount
  | .resetAnchorHealth _ => 0

def failures : Call → UInt64
  | .recordHealthEvent _ success => if success then 0 else 1
  | .recordHealthWindow _ window => window.failureCount
  | .resetAnchorHealth _ => 0

def windowOf (anchor : Address) : Call → Option AnchorHealthWindow
  | .recordHealthWindow other window => if other = anchor then some window else none
  | _ => none

end Call

def tally (count : Call → UInt64) (anchor : Address) (cs : List Call) : ℕ :=
  ((Machine.since (fun c => c = .resetAnchorHealth anchor) cs).map fun c =>
    if c.anchor = anchor then (count c).toNat else 0).sum

def recorded (anchor : Address) (cs : List Call) : List AnchorHealthWindow :=
  cs.filterMap (Call.windowOf anchor)

section Tally

variable {count : Call → UInt64} {anchor : Address} {cs : List Call} {c : Call}

theorem tally_reset (hcount : count (.resetAnchorHealth anchor) = 0) :
    tally count anchor (cs ++ [.resetAnchorHealth anchor]) = 0 := by
  rw [tally, Machine.since_snoc, if_pos (by simp), List.map_singleton, List.sum_singleton, hcount]
  exact ite_self 0

theorem tally_snoc (hc : c ≠ .resetAnchorHealth anchor) : tally count anchor (cs ++ [c]) =
    tally count anchor cs + if c.anchor = anchor then (count c).toNat else 0 := by
  rw [tally, Machine.since_snoc, if_neg (by simpa using hc), List.map_append, List.sum_append,
    List.map_singleton, List.sum_singleton, tally]

theorem tally_other (hc : c.anchor ≠ anchor) :
    tally count anchor (cs ++ [c]) = tally count anchor cs := by
  have hreset : c ≠ .resetAnchorHealth anchor := by
    rintro rfl
    exact hc rfl
  rw [tally_snoc hreset, if_neg hc, Nat.add_zero]

theorem recorded_snoc :
    recorded anchor (cs ++ [c]) = recorded anchor cs ++ (c.windowOf anchor).toList := by
  rw [recorded, List.filterMap_append, ← recorded]
  cases hwindow : c.windowOf anchor <;> simp [hwindow]

theorem windowOf_other (hc : c.anchor ≠ anchor) : c.windowOf anchor = none := by
  cases c with
  | recordHealthWindow other window => exact if_neg hc
  | recordHealthEvent other success => rfl
  | resetAnchorHealth other => rfl

end Tally

structure Recorded (cs : List Call) (store : HealthStore) : Prop where
  successCount : ∀ anchor,
    (store.getAnchorHealth anchor).successCount.toNat = tally Call.successes anchor cs
  failureCount : ∀ anchor,
    (store.getAnchorHealth anchor).failureCount.toNat = tally Call.failures anchor cs
  totalCalls : ∀ anchor, (store.getAnchorHealth anchor).totalCalls.toNat =
    tally Call.successes anchor cs + tally Call.failures anchor cs
  uptimeBps : ∀ anchor, (store.getAnchorHealth anchor).uptimeBps =
    shareBps (store.getAnchorHealth anchor).successCount (store.getAnchorHealth anchor).totalCalls
  windows : ∀ anchor,
    store.getAnchorHealthWindows anchor = (recorded anchor cs).rtake maxHealthWindows
  fits : ∀ anchor, ∀ w ∈ recorded anchor cs, w.Fits

def Input.check (i : Input) : Except Panic Unit :=
  match i.call with
  | .recordHealthEvent anchor _ => do
    requireAdmin i.env i.storage
    anchor.requireAuth (i.env.spendAdmin i.storage)
    checkAttestor i.storage anchor
  | .recordHealthWindow _ _ | .resetAnchorHealth _ => requireAdmin i.env i.storage

def Input.Permitted (i : Input) : Prop := i.check = .ok ()

def pushed (store : HealthStore) (c : Call) : HealthStore :=
  match c with
  | .recordHealthWindow anchor window => { store with
      windows := store.windows.set anchor
        (pushWindow (store.getAnchorHealthWindows anchor) window) }
  | _ => store

def write (env : Env) (store : HealthStore) (c : Call) : Except Panic HealthStore :=
  match c with
  | .resetAnchorHealth anchor => .ok { store with
      metrics := store.metrics.set anchor
        { anchor, successCount := 0, failureCount := 0, totalCalls := 0, uptimeBps := 0
          lastEventAt := env.timestamp } }
  | c => (store.pushed c).count env c.anchor c.successes c.failures

def Countable (cs : List Call) (anchor : Address) : Prop :=
  tally Call.successes anchor cs + tally Call.failures anchor cs < 2 ^ 64

/-- The largest multiple of the total below the scaled successes is a word. -/
def Scalable (cs : List Call) (anchor : Address) : Prop :=
  let total := tally Call.successes anchor cs + tally Call.failures anchor cs
  tally Call.successes anchor cs * 10000 / total * total < 2 ^ 64

section Steps

variable {store store' : HealthStore} {i : Input} {cs : List Call} {anchor : Address}

theorem avoids_check : Avoids .arithmeticOverflow i.check := by
  have hadmin : Avoids .arithmeticOverflow (requireAdmin i.env i.storage) :=
    Avoids.bind (avoids_expect (by decide)) fun _ _ => avoids_require (by decide)
  unfold Input.check
  split
  · refine hadmin.bind fun _ _ => Avoids.bind (avoids_require (by decide)) fun _ _ => ?_
    unfold checkAttestor
    split
    · exact nofun
    · split <;> exact avoids_error (by decide)
  · exact hadmin
  · exact hadmin

theorem step_eq : step store i = i.check >>= fun _ => store.write i.env i.call := by
  obtain ⟨env, s, c⟩ := i
  cases c with
  | recordHealthEvent anchor success =>
    simp only [step, Input.check, recordHealthEvent, bind_assoc]
    cases success <;> rfl
  | recordHealthWindow anchor window => rfl
  | resetAnchorHealth anchor => rfl

theorem step_of_permitted (h : i.Permitted) : step store i = store.write i.env i.call := by
  rw [step_eq, h]
  rfl

theorem step_of_not_permitted (store : HealthStore) (h : ¬ i.Permitted) :
    ∃ e, step store i = .error e ∧ e ≠ .arithmeticOverflow := by
  cases hcheck : i.check with
  | ok u => exact absurd hcheck h
  | error e =>
    refine ⟨e, ?_, fun he => avoids_check (he ▸ hcheck)⟩
    rw [step_eq, hcheck]
    rfl

theorem write_report {env : Env} {c : Call} (hc : c ≠ .resetAnchorHealth c.anchor) :
    store.write env c = (store.pushed c).count env c.anchor c.successes c.failures := by
  cases c with
  | resetAnchorHealth anchor => exact absurd rfl hc
  | recordHealthEvent anchor success => rfl
  | recordHealthWindow anchor window => rfl

end Steps

section Records

variable {store store' : HealthStore} {cs : List Call} {c : Call} {env : Env} {anchor : Address}

theorem getAnchorHealth_pushed :
    (store.pushed c).getAnchorHealth anchor = store.getAnchorHealth anchor := by
  cases c <;> rfl

theorem getAnchorHealth_set {metrics : AnchorHealthMetrics} {other : Address} :
    ({ store with metrics := store.metrics.set anchor metrics } : HealthStore).getAnchorHealth
      other = if other = anchor then metrics else store.getAnchorHealth other := by
  rw [getAnchorHealth, KeyedStore.get_set]
  split <;> rfl

theorem windows_pushed (h : Recorded cs store) :
    (store.pushed c).getAnchorHealthWindows anchor =
      (recorded anchor (cs ++ [c])).rtake maxHealthWindows := by
  rw [recorded_snoc]
  cases c with
  | recordHealthWindow other window =>
    change ((store.windows.set other _).get anchor).getD [] = _
    rw [KeyedStore.get_set]
    by_cases hanchor : anchor = other
    · subst hanchor
      rw [if_pos rfl, Call.windowOf, if_pos rfl, Option.getD_some, h.windows, pushWindow_rtake]
      rfl
    · rw [if_neg hanchor, Call.windowOf, if_neg (Ne.symm hanchor), Option.toList_none,
        List.append_nil]
      exact h.windows anchor
  | recordHealthEvent other success =>
    have hnone : (Call.recordHealthEvent other success).windowOf anchor = none := rfl
    rw [hnone, Option.toList_none, List.append_nil]
    exact h.windows anchor
  | resetAnchorHealth other =>
    have hnone : (Call.resetAnchorHealth other).windowOf anchor = none := rfl
    rw [hnone, Option.toList_none, List.append_nil]
    exact h.windows anchor

theorem value_set {β : Type} (value : AnchorHealthMetrics → β) (total : Address → List Call → β)
    {metrics : AnchorHealthMetrics}
    (hold : ∀ anchor, value (store.getAnchorHealth anchor) = total anchor cs)
    (hother : ∀ anchor, c.anchor ≠ anchor → total anchor (cs ++ [c]) = total anchor cs)
    (hown : value metrics = total c.anchor (cs ++ [c])) (anchor : Address) :
    value (({ store.pushed c with
      metrics := (store.pushed c).metrics.set c.anchor metrics } : HealthStore).getAnchorHealth
        anchor) = total anchor (cs ++ [c]) := by
  rw [getAnchorHealth_set]
  split
  · rename_i hanchor
    rw [hanchor, hown]
  · rename_i hne
    rw [getAnchorHealth_pushed, hother anchor (Ne.symm hne)]
    exact hold anchor

/-- New counters for the anchor of a call, when they are those of the calls. -/
theorem Recorded.set (h : Recorded cs store) {metrics : AnchorHealthMetrics}
    (hsuccesses : metrics.successCount.toNat = tally Call.successes c.anchor (cs ++ [c]))
    (hfailures : metrics.failureCount.toNat = tally Call.failures c.anchor (cs ++ [c]))
    (htotal : metrics.totalCalls.toNat =
      metrics.successCount.toNat + metrics.failureCount.toNat)
    (huptime : metrics.uptimeBps = shareBps metrics.successCount metrics.totalCalls)
    (hwindow : ∀ w, c.windowOf c.anchor = some w → w.Fits) :
    Recorded (cs ++ [c]) { store.pushed c with
      metrics := (store.pushed c).metrics.set c.anchor metrics } where
  successCount := value_set (fun m => m.successCount.toNat) (tally Call.successes) h.successCount
    (fun _ hne => tally_other hne) hsuccesses
  failureCount := value_set (fun m => m.failureCount.toNat) (tally Call.failures) h.failureCount
    (fun _ hne => tally_other hne) hfailures
  totalCalls := by
    apply value_set (fun m => m.totalCalls.toNat)
      fun anchor cs => tally Call.successes anchor cs + tally Call.failures anchor cs
    · exact h.totalCalls
    · intro anchor hne
      rw [tally_other hne, tally_other hne]
    · rw [htotal, hsuccesses, hfailures]
  uptimeBps := by
    intro anchor
    rw [getAnchorHealth_set]
    split
    · exact huptime
    · rw [getAnchorHealth_pushed]
      exact h.uptimeBps anchor
  windows := fun _ => windows_pushed h
  fits := by
    intro anchor w hw
    rw [recorded_snoc, List.mem_append, Option.mem_toList] at hw
    rcases hw with hold | hnew
    · exact h.fits anchor w hold
    · by_cases hanchor : c.anchor = anchor
      · rw [← hanchor] at hnew
        exact hwindow w hnew
      · rw [windowOf_other hanchor] at hnew
        cases hnew

theorem Recorded.reset (h : Recorded cs store) : Recorded (cs ++ [.resetAnchorHealth anchor])
    { store with
      metrics := store.metrics.set anchor
        { anchor, successCount := 0, failureCount := 0, totalCalls := 0, uptimeBps := 0
          lastEventAt := env.timestamp } } :=
  h.set (c := .resetAnchorHealth anchor) (tally_reset rfl).symm (tally_reset rfl).symm rfl rfl nofun

theorem window_fits {w : AnchorHealthWindow} (hw : c.windowOf c.anchor = some w)
    (hc : c.successes.toNat + c.failures.toNat < 2 ^ 64) : w.Fits := by
  cases c with
  | recordHealthWindow other window =>
    rw [Call.windowOf, Call.anchor, if_pos rfl] at hw
    obtain rfl := Option.some.inj hw
    exact hc
  | recordHealthEvent other success => cases hw
  | resetAnchorHealth other => cases hw

/-- A report is counted exactly when the sums after it can be. -/
theorem Recorded.report (h : Recorded cs store) (hc : c ≠ .resetAnchorHealth c.anchor) :
    (Countable (cs ++ [c]) c.anchor →
      ∃ store', store.write env c = .ok store' ∧ Recorded (cs ++ [c]) store') ∧
    (¬ Countable (cs ++ [c]) c.anchor → store.write env c = .error .arithmeticOverflow) := by
  have hsuccesses : tally Call.successes c.anchor (cs ++ [c]) =
      (store.getAnchorHealth c.anchor).successCount.toNat + c.successes.toNat := by
    rw [tally_snoc hc, if_pos rfl, h.successCount]
  have hfailures : tally Call.failures c.anchor (cs ++ [c]) =
      (store.getAnchorHealth c.anchor).failureCount.toNat + c.failures.toNat := by
    rw [tally_snoc hc, if_pos rfl, h.failureCount]
  rw [write_report hc, count_eq, getAnchorHealth_pushed, Countable, hsuccesses, hfailures]
  constructor
  · intro hfits
    have hs : ((store.getAnchorHealth c.anchor).successCount + c.successes).toNat =
        (store.getAnchorHealth c.anchor).successCount.toNat + c.successes.toNat := by
      rw [UInt64.toNat_add, Nat.mod_eq_of_lt (by omega)]
    have hf : ((store.getAnchorHealth c.anchor).failureCount + c.failures).toNat =
        (store.getAnchorHealth c.anchor).failureCount.toNat + c.failures.toNat := by
      rw [UInt64.toNat_add, Nat.mod_eq_of_lt (by omega)]
    rw [if_pos hfits]
    refine ⟨_, rfl, h.set ?_ ?_ ?_ rfl fun w hw => window_fits hw (by omega)⟩
    · rw [hsuccesses, ← hs, counted, getAnchorHealth_pushed]
    · rw [hfailures, ← hf, counted, getAnchorHealth_pushed]
    · rw [counted, getAnchorHealth_pushed]
      dsimp only
      rw [UInt64.toNat_add, hs, hf, Nat.mod_eq_of_lt hfits]
  · intro hover
    rw [if_neg hover]

end Records

/-- The records are those of the calls since the last reset, the uptime is an exact quotient, and
the score of any anchor can be computed and stays in its range. -/
structure Sound (cs : List Call) (store : HealthStore) : Prop where
  successCount : ∀ anchor,
    (store.getAnchorHealth anchor).successCount.toNat = tally Call.successes anchor cs
  failureCount : ∀ anchor,
    (store.getAnchorHealth anchor).failureCount.toNat = tally Call.failures anchor cs
  totalCalls : ∀ anchor, (store.getAnchorHealth anchor).totalCalls.toNat =
    tally Call.successes anchor cs + tally Call.failures anchor cs
  uptime : ∀ anchor, (store.getAnchorHealth anchor).uptimeBps.toNat =
    tally Call.successes anchor cs * 10000 /
      (tally Call.successes anchor cs + tally Call.failures anchor cs)
  windows : ∀ anchor,
    store.getAnchorHealthWindows anchor = (recorded anchor cs).rtake maxHealthWindows
  score : ∀ env anchor, ∃ score,
    getAnchorHealthScore env store anchor = .ok score ∧ score.InRange

section Runs

variable {store store' : HealthStore} {cs : List Call} {i : Input} {anchor : Address}

theorem Recorded.uptime_iff (h : Recorded cs store) (anchor : Address) :
    (store.getAnchorHealth anchor).uptimeBps.toNat = tally Call.successes anchor cs * 10000 /
      (tally Call.successes anchor cs + tally Call.failures anchor cs) ↔ Scalable cs anchor := by
  have hle : (store.getAnchorHealth anchor).successCount.toNat ≤
      (store.getAnchorHealth anchor).totalCalls.toNat := by
    rw [h.successCount, h.totalCalls]
    exact Nat.le_add_right _ _
  have hexact := shareBps_exact_iff hle
  rw [h.successCount, h.totalCalls] at hexact
  rw [h.uptimeBps, hexact]
  rfl

theorem Recorded.sound_iff (h : Recorded cs store) :
    Sound cs store ↔ ∀ anchor, Scalable cs anchor := by
  constructor
  · intro hsound anchor
    exact (h.uptime_iff anchor).mp (hsound.uptime anchor)
  · intro hscalable
    refine ⟨h.successCount, h.failureCount, h.totalCalls,
      fun anchor => (h.uptime_iff anchor).mpr (hscalable anchor), h.windows, fun env anchor => ?_⟩
    apply getAnchorHealthScore_in_range
    intro w hw
    rw [h.windows] at hw
    exact h.fits anchor w (List.mem_of_mem_drop hw)

theorem scalable_snoc {c : Call} (h : ∀ anchor, Scalable cs anchor) :
    (∀ anchor, Scalable (cs ++ [c]) anchor) ↔ Scalable (cs ++ [c]) c.anchor := by
  refine ⟨fun hall => hall c.anchor, fun hown anchor => ?_⟩
  by_cases hanchor : c.anchor = anchor
  · rw [← hanchor]
    exact hown
  · rw [Scalable, tally_other hanchor, tally_other hanchor]
    exact h anchor

theorem countable_reset : Countable (cs ++ [.resetAnchorHealth anchor]) anchor := by
  rw [Countable, tally_reset rfl, tally_reset rfl]
  decide

theorem Recorded.step (h : Recorded cs store) (hpermitted : i.Permitted) :
    (Countable (cs ++ [i.call]) i.call.anchor →
      ∃ store', step store i = .ok store' ∧ Recorded (cs ++ [i.call]) store') ∧
    (¬ Countable (cs ++ [i.call]) i.call.anchor → step store i = .error .arithmeticOverflow) := by
  rw [step_of_permitted hpermitted]
  by_cases hreset : i.call = .resetAnchorHealth i.call.anchor
  · rw [hreset]
    exact ⟨fun _ => ⟨_, rfl, h.reset⟩, fun hover => absurd countable_reset hover⟩
  · exact h.report hreset

/-- Where the invariant holds, a call is fine and keeps it exactly when it is refused or its sums
can be counted and scaled. -/
theorem call_fine_iff {past : List Transition} (h : Recorded (calls past) store)
    (hscalable : ∀ anchor, Scalable (calls past) anchor) :
    (step store i ≠ .error .arithmeticOverflow ∧
      Recorded (calls (past ++ Machine.committed step store i)) (Machine.commit step store i) ∧
      ∀ anchor, Scalable (calls (past ++ Machine.committed step store i)) anchor) ↔
    (i.Permitted → Countable (calls past ++ [i.call]) i.call.anchor ∧
      Scalable (calls past ++ [i.call]) i.call.anchor) := by
  by_cases hpermitted : i.Permitted
  · obtain ⟨hcounted, hover⟩ := h.step hpermitted
    by_cases hcountable : Countable (calls past ++ [i.call]) i.call.anchor
    · obtain ⟨store', hstep, hrecorded⟩ := hcounted hcountable
      have hcalls : calls (past ++ Machine.committed step store i) = calls past ++ [i.call] := by
        rw [Machine.committed_ok step hstep, calls, List.map_append]
        rfl
      rw [hcalls, Machine.commit_ok step hstep, scalable_snoc hscalable, hstep]
      exact ⟨fun hfine _ => ⟨hcountable, hfine.2.2⟩,
        fun hgood => ⟨nofun, hrecorded, (hgood hpermitted).2⟩⟩
    · exact iff_of_false (fun hfine => hfine.1 (hover hcountable))
        (fun hgood => hcountable (hgood hpermitted).1)
  · obtain ⟨e, hstep, he⟩ := step_of_not_permitted store hpermitted
    rw [Machine.committed_error step hstep, Machine.commit_error step hstep, List.append_nil, hstep]
    exact iff_of_true ⟨fun heq => he (Except.error.inj heq), h, hscalable⟩
      (fun hyes => absurd hyes hpermitted)

theorem recorded_empty : Recorded [] empty where
  successCount := fun _ => rfl
  failureCount := fun _ => rfl
  totalCalls := fun _ => rfl
  uptimeBps := fun _ => rfl
  windows := fun _ => rfl
  fits := nofun

theorem recorded_run (is : List Input) :
    Recorded (calls (Machine.transitions step empty is)) (run is) := by
  refine Machine.history_invariant step (fun past store => Recorded (calls past) store)
    (fun _ => True) recorded_empty (fun past t ht hpre _ => ?_) is fun _ _ => trivial
  have hpermitted : t.input.Permitted := by
    by_contra hrefused
    obtain ⟨e, herror, -⟩ := step_of_not_permitted t.pre hrefused
    rw [ht] at herror
    cases herror
  have hcalls : calls (past ++ [t]) = calls past ++ [t.input.call] := by
    rw [calls, List.map_append]
    rfl
  rw [hcalls]
  obtain ⟨hcounted, hover⟩ := hpre.step hpermitted
  by_cases hcountable : Countable (calls past ++ [t.input.call]) t.input.call.anchor
  · obtain ⟨store', hstep, hrecorded⟩ := hcounted hcountable
    rw [ht] at hstep
    rwa [Except.ok.inj hstep]
  · rw [hover hcountable] at ht
    cases ht

end Runs

/-- At every point of a run the records are sound, and no call of it overflows, exactly when after
every report that is not refused the sums of its anchor can be counted and scaled. -/
theorem health_sound_iff (is : List Input) :
    ((∀ js, js <+: is → Sound (calls (Machine.transitions step empty js)) (run js)) ∧
      ∀ js i, js ++ [i] <+: is → step (run js) i ≠ .error .arithmeticOverflow) ↔
    ∀ js i, js ++ [i] <+: is → i.Permitted →
      Countable (calls (Machine.transitions step empty js) ++ [i.call]) i.call.anchor ∧
      Scalable (calls (Machine.transitions step empty js) ++ [i.call]) i.call.anchor := by
  rw [← Machine.forall_calls_iff step
    (fun past store => Recorded (calls past) store ∧ ∀ anchor, Scalable (calls past) anchor)
    (fun store i => step store i ≠ .error .arithmeticOverflow)
    (fun past i => i.Permitted → Countable (calls past ++ [i.call]) i.call.anchor ∧
      Scalable (calls past ++ [i.call]) i.call.anchor)
    ⟨recorded_empty, fun _ => Nat.two_pow_pos 64⟩ (fun past store i h => call_fine_iff h.1 h.2) is]
  refine and_congr_left fun _ => forall₂_congr fun js _ => ?_
  exact (recorded_run js).sound_iff.trans (and_iff_right (recorded_run js)).symm

namespace Demo

def admin : Address := ⟨"admin"⟩

def anchor : Address := ⟨"anchor"⟩

def storage : Storage :=
  { Storage.empty with access := { Storage.empty.access with admin := some admin } }

def succeeded (count : UInt64) : Input where
  env := ⟨1000, 1, [admin]⟩
  storage := storage
  call := .recordHealthWindow anchor
    { startedAt := 0, endedAt := 1000, successCount := count, failureCount := 0
      p50LatencyMsX10 := 0, routingAttemptCount := 0, routingFailureCount := 0
      recoveryTimeSeconds := 0 }

end Demo

/-- A window of 2 ^ 63 successful calls leaves an uptime of one basis point. -/
theorem saturated_uptime : ¬ ∀ is : List Input,
    (∀ js, js <+: is → Sound (calls (Machine.transitions step empty js)) (run js)) ∧
      ∀ js i, js ++ [i] <+: is → step (run js) i ≠ .error .arithmeticOverflow := by
  intro h
  have huptime := ((h [Demo.succeeded (2 ^ 63)]).1 _ List.prefix_rfl).uptime Demo.anchor
  have hstored : ((run [Demo.succeeded (2 ^ 63)]).getAnchorHealth Demo.anchor).uptimeBps = 1 := by
    decide +kernel
  have hcalls : calls (Machine.transitions step empty [Demo.succeeded (2 ^ 63)]) =
      [(Demo.succeeded (2 ^ 63)).call] := by decide +kernel
  rw [hstored, hcalls] at huptime
  revert huptime
  decide +kernel

end AnchorKit.HealthStore
