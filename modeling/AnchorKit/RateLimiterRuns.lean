import AnchorKit.Library.FixedWindow
import AnchorKit.Library.Machine
import AnchorKit.RateLimiter

/-!
# Runs of the rate limiter

Any number of attestors call the limiter, each under its own fixed configuration. An attestor's
stored window is the fixed window of its accepted calls, so the bounds on fixed windows hold for
it as long as it is not the admin and the opt-in gates are off.
-/

namespace AnchorKit

open Fallible
open FixedWindow (Quota Window Charge Tracks)

def RateLimitConfig.quota (config : RateLimitConfig) : Quota :=
  ⟨config.maxSubmissions.toNat, config.windowLength.toNat⟩

def RateLimitState.window (state : RateLimitState) : Window :=
  ⟨state.windowStartLedger.toNat, state.submissionCount.toNat⟩

namespace RateLimiter

def storedWindow (s : Storage) (attestor : Address) : Option Window :=
  (s.rateLimits.state.get attestor).map RateLimitState.window

theorem isWindowExpired_iff {now start length : UInt32} :
    isWindowExpired now start length = true ↔ length.toNat ≤ now.toNat - start.toNat := by
  rw [isWindowExpired, decide_eq_true_iff, UInt32.le_iff_toNat_le, Word.toNat_saturatingSub32]

theorem window_openWindow (env : Env) (s : Storage) (attestor : Address) (config : RateLimitConfig) :
    (openWindow env s attestor config).window =
      FixedWindow.openAt config.quota (storedWindow s attestor) env.sequence.toNat := by
  unfold openWindow storedState storedWindow rollWindow FixedWindow.openAt
  cases s.rateLimits.state.get attestor with
  | none =>
    simp only [Option.getD_none, Option.map_none]
    split
    · rfl
    · rfl
  | some state =>
    simp only [Option.getD_some, Option.map_some]
    by_cases h : isWindowExpired env.sequence state.windowStartLedger config.windowLength = true
    · have hexpired : config.quota.length ≤ env.sequence.toNat - state.window.start :=
        isWindowExpired_iff.mp h
      rw [if_pos h, if_pos hexpired]
      rfl
    · have hlive : ¬ config.quota.length ≤ env.sequence.toNat - state.window.start := fun hle =>
        h (isWindowExpired_iff.mpr hle)
      rw [if_neg h, if_neg hlive]

def chargeOf (env : Env) (cost : Nat) : Charge := ⟨env.sequence.toNat, cost⟩

theorem submissionCount_lt_iff {env : Env} {s : Storage} {attestor : Address}
    {config : RateLimitConfig} :
    (openWindow env s attestor config).submissionCount < config.maxSubmissions ↔
      FixedWindow.Admits config.quota (storedWindow s attestor) (chargeOf env 1) := by
  rw [FixedWindow.Admits, chargeOf, ← window_openWindow, UInt32.lt_iff_toNat_lt]
  exact Nat.lt_iff_add_one_le

theorem window_counted {env : Env} {s : Storage} {attestor : Address} {config : RateLimitConfig}
    (hroom : (openWindow env s attestor config).submissionCount < config.maxSubmissions) :
    RateLimitState.window { openWindow env s attestor config with
        submissionCount := Word.saturatingAdd32
          (openWindow env s attestor config).submissionCount 1 } =
      FixedWindow.charged config.quota (storedWindow s attestor) (chargeOf env 1) := by
  rw [FixedWindow.charged, chargeOf, ← window_openWindow]
  have hlt := UInt32.lt_iff_toNat_lt.mp hroom
  have hmax := config.maxSubmissions.toNat_lt
  have hcount := Word.toNat_saturatingAdd32 (openWindow env s attestor config).submissionCount 1
  rw [show (1 : UInt32).toNat = 1 from rfl, Nat.min_eq_left (by omega)] at hcount
  simp only [RateLimitState.window, hcount]

/-- One attestor calls the limiter; like in the contract, a rejection reverts. -/
def submit (configOf : Address → RateLimitConfig) (s : Storage) (i : Env × Address) :
    Except Panic Storage := do
  match ← checkAndIncrement i.1 s i.2 (configOf i.2) with
  | (s, .ok ()) => return s
  | (_, .error _) => throw (.withError .rateLimitExceeded)

theorem submit_eq_ok {configOf : Address → RateLimitConfig} {s s' : Storage} {i : Env × Address} :
    submit configOf s i = .ok s' ↔
      checkAndIncrement i.1 s i.2 (configOf i.2) = .ok (s', .ok ()) := by
  simp only [submit, bind_eq_ok]
  constructor
  · rintro ⟨⟨t, r⟩, hc, h⟩
    cases r with
    | error e => cases h
    | ok u =>
      obtain rfl := pure_eq_ok.mp h
      exact hc
  · intro hc
    exact ⟨_, hc, rfl⟩

end RateLimiter

/-- The contract's limiter is one such call under the configuration in force. -/
theorem enforceRateLimit_eq_submit (env : Env) (s : Storage) (attestor : Address) :
    enforceRateLimit env s attestor = RateLimiter.submit (effectiveConfig s) s (env, attestor) := rfl

namespace RateLimiter

abbrev Attempt := Machine.Transition Storage (Env × Address)

/-- How many of the attestor's calls were accepted at ledgers that satisfy `p`. -/
def acceptedIn (past : List Attempt) (attestor : Address) (p : Nat → Bool) : Nat :=
  past.countP fun t => t.input.2 = attestor && p t.input.1.sequence.toNat

def acceptedFrom (past : List Attempt) (attestor : Address) : List Attempt :=
  past.filter fun t => t.input.2 = attestor

def opensWindow (config : RateLimitConfig) (t : Attempt) : Bool :=
  match t.pre.rateLimits.state.get t.input.2 with
  | none => true
  | some state => isWindowExpired t.input.1.sequence state.windowStartLedger config.windowLength

def charges (past : List Attempt) (attestor : Address) : List Charge :=
  (acceptedFrom past attestor).map fun t => chargeOf t.input.1 1

theorem spent_map_chargeOf (past : List Attempt) (p : Nat → Bool) :
    FixedWindow.spent (past.map fun t => chargeOf t.input.1 1) p =
      past.countP fun t => p t.input.1.sequence.toNat := by
  induction past using List.reverseRecOn with
  | nil => rfl
  | append_singleton past t ih =>
    rw [List.map_append, List.map_singleton, FixedWindow.spent_snoc, ih, List.countP_append,
      List.countP_singleton]
    rfl

theorem spent_charges (past : List Attempt) (attestor : Address) (p : Nat → Bool) :
    FixedWindow.spent (charges past attestor) p = acceptedIn past attestor p := by
  rw [charges, spent_map_chargeOf, acceptedFrom, List.countP_filter, acceptedIn]
  simp only [Bool.and_comm]

def NoGates (s : Storage) : Prop :=
  s.rateLimits.burstConfig = none ∧ s.rateLimits.fairnessConfig = none

section Submit

variable {configOf : Address → RateLimitConfig} {s s' : Storage} {i : Env × Address}
  {attestor : Address}

/-- A call concerns the window of its own attestor only. -/
theorem submit_frame (h : submit configOf s i = .ok s') :
    s'.access = s.access ∧ (NoGates s → NoGates s') ∧
      ∀ a, a ≠ i.2 → s'.rateLimits.state.get a = s.rateLimits.state.get a := by
  rw [submit_eq_ok] at h
  by_cases hadmin : s.access.admin = some i.2
  · obtain ⟨_, _, rfl⟩ := checkAndIncrement_admin hadmin h
    exact ⟨rfl, fun hgates => hgates, fun _ _ => rfl⟩
  · obtain ⟨_, _, _, _, rfl⟩ := checkAndIncrement_accepted hadmin h
    exact ⟨rfl, fun hgates => hgates, fun a ha => KeyedStore.get_set_of_ne _ _ ha⟩

/-- An accepted call of a non-admin is an admitted charge of its window. -/
theorem submit_charges (h : submit configOf s i = .ok s') (hadmin : s.access.admin ≠ some i.2) :
    FixedWindow.Admits (configOf i.2).quota (storedWindow s i.2) (chargeOf i.1 1) ∧
      storedWindow s' i.2 = some (FixedWindow.charged (configOf i.2).quota (storedWindow s i.2)
        (chargeOf i.1 1)) := by
  rw [submit_eq_ok] at h
  obtain ⟨hroom, _, _, _, rfl⟩ := checkAndIncrement_accepted hadmin h
  refine ⟨submissionCount_lt_iff.mp hroom, ?_⟩
  rw [← window_counted hroom]
  simp only [storedWindow, KeyedStore.get_set_self, Option.map_some]

end Submit

theorem acceptedFrom_snoc (past : List Attempt) (t : Attempt) (attestor : Address) :
    acceptedFrom (past ++ [t]) attestor =
      acceptedFrom past attestor ++ if t.input.2 = attestor then [t] else [] := by
  rw [acceptedFrom, List.filter_append, ← acceptedFrom, List.filter_singleton]
  simp

/-- The number of accepted calls since the attestor's window was last opened. -/
def sinceReset (config : RateLimitConfig) (past : List Attempt) (attestor : Address) : Nat :=
  (Machine.since (opensWindow config) (acceptedFrom past attestor)).length

/-- What the limiter promises an attestor at any point of a run: the stored count and the calls
accepted since the last reset stay within the limit, and no stretch of ledgers as long as a
window holds more than twice the limit. -/
structure WithinLimit (config : RateLimitConfig) (attestor : Address) (past : List Attempt)
    (s : Storage) : Prop where
  count_le : ∀ state, s.rateLimits.state.get attestor = some state →
    state.submissionCount ≤ config.maxSubmissions
  since_le : sinceReset config past attestor ≤ config.maxSubmissions.toNat
  sliding : ∀ first, acceptedIn past attestor
    (fun ledger => first ≤ ledger && ledger < first + config.windowLength.toNat) ≤
      2 * config.maxSubmissions.toNat

/-- A window open at the ledger `now` since which the whole limit was used up. -/
def ExhaustedAt (config : RateLimitConfig) (attestor : Address) (past : List Attempt) (now : Nat) :
    Prop :=
  ∃ start, start ≤ now ∧ (now < start + config.windowLength.toNat ∨ now = start) ∧
    config.maxSubmissions.toNat ≤ acceptedIn past attestor fun ledger => start ≤ ledger

/-- The invariant behind `WithinLimit`: the stored window tracks the accepted calls. -/
structure WindowTracked (config : RateLimitConfig) (attestor : Address) (past : List Attempt)
    (s : Storage) : Prop where
  notAdmin : s.access.admin ≠ some attestor
  noGates : NoGates s
  tracks : Tracks config.quota (charges past attestor) (storedWindow s attestor)
  since_eq : ∀ state, s.rateLimits.state.get attestor = some state →
    state.submissionCount.toNat = sinceReset config past attestor
  fresh : s.rateLimits.state.get attestor = none → sinceReset config past attestor = 0

theorem sinceReset_snoc_other (config : RateLimitConfig) (past : List Attempt) {t : Attempt}
    {attestor : Address} (h : t.input.2 ≠ attestor) :
    sinceReset config (past ++ [t]) attestor = sinceReset config past attestor := by
  rw [sinceReset, acceptedFrom_snoc, if_neg h, List.append_nil, sinceReset]

theorem sinceReset_snoc_self (config : RateLimitConfig) (past : List Attempt) (t : Attempt) :
    sinceReset config (past ++ [t]) t.input.2 =
      (if opensWindow config t then 0 else sinceReset config past t.input.2) + 1 := by
  rw [sinceReset, acceptedFrom_snoc, if_pos rfl, Machine.since_snoc]
  split
  · rfl
  · rw [List.length_append, List.length_singleton, sinceReset]

theorem charges_snoc_other (past : List Attempt) {t : Attempt} {attestor : Address}
    (h : t.input.2 ≠ attestor) : charges (past ++ [t]) attestor = charges past attestor := by
  rw [charges, acceptedFrom_snoc, if_neg h, List.append_nil, charges]

theorem charges_snoc_self (past : List Attempt) (t : Attempt) :
    charges (past ++ [t]) t.input.2 = charges past t.input.2 ++ [chargeOf t.input.1 1] := by
  rw [charges, acceptedFrom_snoc, if_pos rfl, List.map_append, charges]
  rfl

theorem le_of_mem_charges {past : List Attempt} {attestor : Address} {now : UInt32}
    (h : ∀ u ∈ past, u.input.1.sequence ≤ now) : ∀ d ∈ charges past attestor, d.now ≤ now.toNat := by
  intro d hd
  obtain ⟨u, hu, rfl⟩ := List.mem_map.mp hd
  exact UInt32.le_iff_toNat_le.mp (h u (List.mem_filter.mp hu).1)

theorem openWindow_count {config : RateLimitConfig} {attestor : Address} {past : List Attempt}
    {t : Attempt} (h : WindowTracked config attestor past t.pre) (hself : t.input.2 = attestor) :
    (openWindow t.input.1 t.pre attestor config).submissionCount.toNat =
      if opensWindow config t then 0 else sinceReset config past attestor := by
  subst hself
  unfold openWindow storedState rollWindow opensWindow
  cases hget : t.pre.rateLimits.state.get t.input.2 with
  | none =>
    simp only [Option.getD_none]
    split
    · rfl
    · rfl
  | some state =>
    simp only [Option.getD_some]
    split
    · rfl
    · exact h.since_eq state hget

theorem windowTracked_step {configOf : Address → RateLimitConfig} {attestor : Address}
    {past : List Attempt} {t : Attempt} (ht : submit configOf t.pre t.input = .ok t.post)
    (h : WindowTracked (configOf attestor) attestor past t.pre)
    (hmono : ∀ u ∈ past, u.input.1.sequence ≤ t.input.1.sequence) :
    WindowTracked (configOf attestor) attestor (past ++ [t]) t.post := by
  obtain ⟨haccess, hgates, hothers⟩ := submit_frame ht
  have hnotAdmin : t.post.access.admin ≠ some attestor := haccess ▸ h.notAdmin
  by_cases hself : t.input.2 = attestor
  · subst hself
    obtain ⟨hadmits, hwindow⟩ := submit_charges ht h.notAdmin
    have htracks := h.tracks.charge hadmits (le_of_mem_charges hmono)
    refine ⟨hnotAdmin, hgates h.noGates, ?_, ?_, ?_⟩
    · rw [charges_snoc_self, hwindow]
      exact htracks
    · intro state hget
      have hcount : state.submissionCount.toNat =
          (openWindow t.input.1 t.pre t.input.2 (configOf t.input.2)).submissionCount.toNat + 1 := by
        have hused : some state.window = storedWindow t.post t.input.2 := by
          rw [storedWindow, hget, Option.map_some]
        rw [hwindow, Option.some.injEq, FixedWindow.charged] at hused
        have hopen := window_openWindow t.input.1 t.pre t.input.2 (configOf t.input.2)
        have heq := congrArg Window.used hused
        rw [chargeOf, ← hopen] at heq
        exact heq
      rw [hcount, openWindow_count h rfl, sinceReset_snoc_self]
    · intro hnone
      rw [storedWindow, hnone] at hwindow
      cases hwindow
  · have hsame := hothers attestor fun heq => hself heq.symm
    refine ⟨hnotAdmin, hgates h.noGates, ?_, ?_, ?_⟩
    · rw [charges_snoc_other past hself, storedWindow, hsame]
      exact h.tracks
    · intro state hget
      rw [sinceReset_snoc_other _ past hself]
      exact h.since_eq state (hsame ▸ hget)
    · intro hnone
      rw [sinceReset_snoc_other _ past hself]
      exact h.fresh (hsame ▸ hnone)

theorem windowTracked_run {configOf : Address → RateLimitConfig} {attestor : Address}
    {s : Storage} (hadmin : s.access.admin ≠ some attestor) (hgates : NoGates s)
    (hfresh : s.rateLimits.state.get attestor = none) {is : List (Env × Address)}
    (hmono : is.Pairwise fun i j => i.1.sequence ≤ j.1.sequence) :
    WindowTracked (configOf attestor) attestor (Machine.transitions (submit configOf) s is)
      (Machine.run (submit configOf) s is) := by
  refine Machine.guarded_history_invariant (submit configOf)
    (WindowTracked (configOf attestor) attestor)
    (fun past t => ∀ u ∈ past, u.input.1.sequence ≤ t.input.1.sequence) ?_
    (fun past t ht h hle => windowTracked_step ht h hle) is
    (Machine.atEachStep_of_pairwise (submit configOf) hmono)
  refine ⟨hadmin, hgates, ?_, ?_, fun _ => rfl⟩
  · rw [storedWindow, hfresh]
    rfl
  · intro state hget
    rw [hfresh] at hget
    cases hget

theorem WindowTracked.withinLimit {config : RateLimitConfig} {attestor : Address}
    {past : List Attempt} {s : Storage} (h : WindowTracked config attestor past s) :
    WithinLimit config attestor past s := by
  have hcount (state : RateLimitState) (hget : s.rateLimits.state.get attestor = some state) :
      state.submissionCount.toNat ≤ config.maxSubmissions.toNat := by
    have htracks := h.tracks
    rw [storedWindow, hget] at htracks
    exact FixedWindow.Faithful.used_le htracks
  refine ⟨fun state hget => UInt32.le_iff_toNat_le.mpr (hcount state hget), ?_, fun first => ?_⟩
  · cases hget : s.rateLimits.state.get attestor with
    | none =>
      rw [h.fresh hget]
      exact Nat.zero_le _
    | some state =>
      rw [← h.since_eq state hget]
      exact hcount state hget
  · have hsliding := h.tracks.sliding first
    rw [FixedWindow.spentIn, spent_charges] at hsliding
    exact hsliding

theorem WindowTracked.exhausted {config : RateLimitConfig} {attestor : Address}
    {past : List Attempt} {s s' : Storage} (h : WindowTracked config attestor past s) {env : Env}
    {e : AnchorKitError} (hmono : ∀ u ∈ past, u.input.1.sequence ≤ env.sequence)
    (hrejected : checkAndIncrement env s attestor config = .ok (s', .error e)) :
    ExhaustedAt config attestor past env.sequence.toNat := by
  rw [checkAndIncrement_plain h.notAdmin h.noGates.1 h.noGates.2] at hrejected
  split at hrejected
  · rename_i hfull
    have hno : ¬ FixedWindow.Admits config.quota (storedWindow s attestor) (chargeOf env 1) := by
      rw [← submissionCount_lt_iff, UInt32.lt_iff_toNat_lt]
      rw [UInt32.le_iff_toNat_le] at hfull
      omega
    obtain ⟨start, hstart, hopen, hspent⟩ := h.tracks.of_not_admits hno (le_of_mem_charges hmono)
    refine ⟨start, hstart, hopen, ?_⟩
    rw [FixedWindow.spentFrom, spent_charges] at hspent
    exact Nat.le_of_lt_succ hspent
  · cases hrejected

/-- In every run of calls at non-decreasing ledgers, an attestor that is not the admin stays
within its limit as long as the opt-in gates are off, and a call of it is rejected only when the
window open at that ledger is exhausted. -/
theorem limiter_within_limit (configOf : Address → RateLimitConfig) (attestor : Address)
    (s : Storage) (is : List (Env × Address)) (hadmin : s.access.admin ≠ some attestor)
    (hgates : NoGates s) (hfresh : s.rateLimits.state.get attestor = none)
    (hmono : is.Pairwise fun i j => i.1.sequence ≤ j.1.sequence) :
    WithinLimit (configOf attestor) attestor (Machine.transitions (submit configOf) s is)
        (Machine.run (submit configOf) s is) ∧
      ∀ js env ks, is = js ++ (env, attestor) :: ks → ∀ s' e,
        checkAndIncrement env (Machine.run (submit configOf) s js) attestor (configOf attestor) =
          .ok (s', .error e) →
        ExhaustedAt (configOf attestor) attestor (Machine.transitions (submit configOf) s js)
          env.sequence.toNat := by
  refine ⟨(windowTracked_run hadmin hgates hfresh hmono).withinLimit, ?_⟩
  rintro js env ks rfl s' e hrejected
  obtain ⟨hjs, _, hcross⟩ := List.pairwise_append.mp hmono
  refine (windowTracked_run hadmin hgates hfresh hjs).exhausted (fun u hu => ?_) hrejected
  have hmem := (Machine.map_input_sublist (submit configOf) s js).subset (List.mem_map_of_mem hu)
  exact hcross u.input hmem (env, attestor) List.mem_cons_self

namespace Demo

def alice : Address := ⟨"GALICE"⟩

def bob : Address := ⟨"GBOB"⟩

def call (ledger : UInt32) (attestor : Address) : Env × Address := (⟨1000, ledger, []⟩, attestor)

/-- A contract whose admin is `alice`. -/
def ownedByAlice : Storage :=
  { Storage.empty with access := { Storage.empty.access with admin := some alice } }

end Demo

/-- Two of three calls fit into the window of a limit of two. -/
theorem limiter_within_limit_of_three :
    WithinLimit ⟨2, 10⟩ Demo.bob
      (Machine.transitions (submit fun _ => ⟨2, 10⟩) Demo.ownedByAlice
        [Demo.call 1 Demo.bob, Demo.call 2 Demo.bob, Demo.call 3 Demo.bob])
      (Machine.run (submit fun _ => ⟨2, 10⟩) Demo.ownedByAlice
        [Demo.call 1 Demo.bob, Demo.call 2 Demo.bob, Demo.call 3 Demo.bob]) :=
  (limiter_within_limit (fun _ => ⟨2, 10⟩) Demo.bob Demo.ownedByAlice
    [Demo.call 1 Demo.bob, Demo.call 2 Demo.bob, Demo.call 3 Demo.bob] (by decide) ⟨rfl, rfl⟩ rfl
    (by decide)).1

/-- The admin is let through whatever the limit. -/
theorem admin_exceeds_limit :
    ¬ ∀ (configOf : Address → RateLimitConfig) (attestor : Address) (s : Storage)
        (is : List (Env × Address)), NoGates s → s.rateLimits.state.get attestor = none →
        (is.Pairwise fun i j => i.1.sequence ≤ j.1.sequence) →
        WithinLimit (configOf attestor) attestor (Machine.transitions (submit configOf) s is)
          (Machine.run (submit configOf) s is) := by
  intro h
  have hall := h (fun _ => ⟨1, 10⟩) Demo.alice Demo.ownedByAlice
    [Demo.call 1 Demo.alice, Demo.call 2 Demo.alice, Demo.call 3 Demo.alice] ⟨rfl, rfl⟩ rfl
    (by decide)
  exact absurd (hall.sliding 1) (by decide)

end RateLimiter

end AnchorKit
