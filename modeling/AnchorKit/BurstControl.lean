import AnchorKit.Library.Machine
import AnchorKit.Library.TokenBucket
import AnchorKit.RateLimiter

/-!
# Burst and fairness control

The two opt-in gates of the rate limiter over runs of the limiter's own calls. A rejection leaves
what the gates have written, unless the caller reverts it as the contract does. The bucket of an
attestor is the token bucket of its accepted calls while the configuration stays in force.
-/

namespace AnchorKit

open Fallible

namespace RateLimiter

def validateBurstConfig (config : BurstControlConfig) : Except AnchorKitError Unit := do
  require (config.burstCapacity ≠ 0) (.validationError "burst_capacity must be > 0")
  require (config.refillPerLedger ≠ 0) (.validationError "refill_per_ledger must be > 0")

def updateBurstConfig (s : Storage) (admin : Address) (config : BurstControlConfig) :
    Except AnchorKitError Storage := do
  let storedAdmin ← expect s.access.admin (.fromCode .notInitialized)
  require (admin = storedAdmin) (.fromCode .unauthorizedAttestor)
  validateBurstConfig config
  return { s with rateLimits := { s.rateLimits with burstConfig := some config } }

def validateFairnessConfig (config : FairnessConfig) : Except AnchorKitError Unit :=
  require (¬ (config.maxSharePercent = 0 ∨ 100 < config.maxSharePercent))
    (.validationError "max_share_percent must be in 1..=100")

def updateFairnessConfig (s : Storage) (admin : Address) (config : FairnessConfig) :
    Except AnchorKitError Storage := do
  let storedAdmin ← expect s.access.admin (.fromCode .notInitialized)
  require (admin = storedAdmin) (.fromCode .unauthorizedAttestor)
  validateFairnessConfig config
  return { s with rateLimits := { s.rateLimits with fairnessConfig := some config } }

/-! ### What a submission does -/

def openBucket (env : Env) (s : Storage) (attestor : Address) (burst : BurstControlConfig) :
    BurstState :=
  refillBurst (getBurstState s attestor burst env.sequence) burst env.sequence

def withBucket (s : Storage) (attestor : Address) (bucket : BurstState) : Storage :=
  { s with rateLimits := { s.rateLimits with
    burstState := s.rateLimits.burstState.set attestor bucket } }

def takeToken (bucket : BurstState) : BurstState :=
  { bucket with tokens := bucket.tokens - 1 }

section Outcomes

variable {env : Env} {s s' : Storage} {attestor : Address} {config : RateLimitConfig}
  {burst : BurstControlConfig} {r : Except AnchorKitError Unit}

theorem burstGate_none (h : s.rateLimits.burstConfig = none) :
    burstGate s attestor env.sequence = (s, .ok ()) := by
  rw [burstGate, h]

theorem burstGate_some (h : s.rateLimits.burstConfig = some burst) :
    burstGate s attestor env.sequence =
      if (openBucket env s attestor burst).tokens = 0 then
        (withBucket s attestor (openBucket env s attestor burst),
          .error (.fromCode .rateLimitExceeded))
      else
        (withBucket s attestor (takeToken (openBucket env s attestor burst)), .ok ()) := by
  rw [burstGate, h]
  rfl

/-- What the burst gate does, by the bucket that it finds. -/
inductive GateEffect (env : Env) (s : Storage) (attestor : Address) :
    Storage → Except AnchorKitError Unit → Prop
  | absent (h : s.rateLimits.burstConfig = none) : GateEffect env s attestor s (.ok ())
  | empty {burst : BurstControlConfig} (hburst : s.rateLimits.burstConfig = some burst)
    (htokens : (openBucket env s attestor burst).tokens = 0) :
    GateEffect env s attestor (withBucket s attestor (openBucket env s attestor burst))
      (.error (.fromCode .rateLimitExceeded))
  | taken {burst : BurstControlConfig} (hburst : s.rateLimits.burstConfig = some burst)
    (htokens : (openBucket env s attestor burst).tokens ≠ 0) :
    GateEffect env s attestor
      (withBucket s attestor (takeToken (openBucket env s attestor burst))) (.ok ())

theorem gateEffect_of_burstGate (h : burstGate s attestor env.sequence = (s', r)) :
    GateEffect env s attestor s' r := by
  cases hburst : s.rateLimits.burstConfig with
  | none =>
    rw [burstGate_none hburst] at h
    cases h
    exact .absent hburst
  | some burst =>
    rw [burstGate_some hburst] at h
    split at h
    · rename_i hzero
      cases h
      exact .empty hburst hzero
    · rename_i htokens
      cases h
      exact .taken hburst htokens

/-- How a submission of a non-admin ends, and what it leaves. -/
inductive Outcome (env : Env) (s : Storage) (attestor : Address) (config : RateLimitConfig) :
    Storage → Except AnchorKitError Unit → Prop
  | exhausted (h : config.maxSubmissions ≤ (openWindow env s attestor config).submissionCount) :
    Outcome env s attestor config s (.error windowExhausted)
  | drained (hroom : (openWindow env s attestor config).submissionCount < config.maxSubmissions)
    {s' : Storage} {e : AnchorKitError}
    (hgate : burstGate s attestor env.sequence = (s', .error e)) :
    Outcome env s attestor config s' (.error e)
  | unfair (hroom : (openWindow env s attestor config).submissionCount < config.maxSubmissions)
    {s' : Storage} {e : AnchorKitError}
    (hgate : burstGate s attestor env.sequence = (s', .ok ()))
    (hfair : fairnessGate s' config (openWindow env s attestor config) env.sequence =
      .ok (s', .error e)) :
    Outcome env s attestor config s' (.error e)
  | accepted (hroom : (openWindow env s attestor config).submissionCount < config.maxSubmissions)
    {s' : Storage} (hgate : burstGate s attestor env.sequence = (s', .ok ()))
    (window : Option GlobalRateWindowState) (state : RateLimitState) :
    Outcome env s attestor config
      { s' with rateLimits := { s'.rateLimits with
        globalWindow := window
        state := s'.rateLimits.state.set attestor state } } (.ok ())

theorem outcome_of_checkAndIncrement (hadmin : s.access.admin ≠ some attestor)
    (h : checkAndIncrement env s attestor config = .ok (s', r)) :
    Outcome env s attestor config s' r := by
  simp only [checkAndIncrement, if_neg hadmin] at h
  change (if _ ≤ (openWindow env s attestor config).submissionCount then _ else _) = _ at h
  split at h
  · rename_i hfull
    obtain ⟨rfl, rfl⟩ := Prod.mk.inj (pure_eq_ok.mp h)
    exact .exhausted hfull
  · rename_i hroom
    have hroom := UInt32.not_le.mp hroom
    rcases hgate : burstGate s attestor env.sequence with ⟨t, g⟩
    rw [hgate] at h
    cases g with
    | error e =>
      obtain ⟨rfl, rfl⟩ := Prod.mk.inj (pure_eq_ok.mp h)
      exact .drained hroom hgate
    | ok u =>
      obtain ⟨⟨t', r'⟩, hfair, hend⟩ := bind_eq_ok.mp h
      obtain ⟨hrejected, haccepted⟩ := fairnessGate_frame hfair
      cases r' with
      | error e =>
        have hne : (Except.error e : Except AnchorKitError Unit) ≠ .ok () := by
          intro heq
          cases heq
        obtain rfl := hrejected hne
        obtain ⟨rfl, rfl⟩ := Prod.mk.inj (pure_eq_ok.mp hend)
        exact .unfair hroom hgate hfair
      | ok u' =>
        obtain ⟨window, -, rfl⟩ := haccepted rfl
        obtain ⟨rfl, rfl⟩ := Prod.mk.inj (pure_eq_ok.mp hend)
        exact .accepted hroom hgate window _

/-- A submission of the admin is never turned away. -/
theorem ne_admin_of_error {e : AnchorKitError}
    (h : checkAndIncrement env s attestor config = .ok (s', .error e)) :
    s.access.admin ≠ some attestor := by
  intro hadmin
  simp only [checkAndIncrement, if_pos hadmin] at h
  obtain ⟨t, -, hend⟩ := bind_eq_ok.mp h
  cases (Prod.mk.inj (pure_eq_ok.mp hend)).2

end Outcomes

/-! ### What a rejection leaves -/

section Rejections

variable {env : Env} {s s' : Storage} {attestor : Address} {config : RateLimitConfig}
  {burst : BurstControlConfig} {bucket : BurstState}

theorem elapsed_pos_iff {now last : UInt32} : 0 < Word.saturatingSub32 now last ↔ last < now := by
  rw [UInt32.lt_iff_toNat_lt, UInt32.lt_iff_toNat_lt, Word.toNat_saturatingSub32]
  exact Nat.sub_pos_iff_lt

theorem refillBurst_of_later (h : bucket.lastRefillLedger < env.sequence) :
    refillBurst bucket burst env.sequence =
      ⟨min (Word.saturatingAdd32 bucket.tokens (Word.saturatingMul32
        (Word.saturatingSub32 env.sequence bucket.lastRefillLedger) burst.refillPerLedger))
        burst.burstCapacity, env.sequence⟩ :=
  if_pos (elapsed_pos_iff.mpr h)

theorem refillBurst_of_not_later (h : ¬ bucket.lastRefillLedger < env.sequence) :
    refillBurst bucket burst env.sequence = bucket :=
  if_neg (mt elapsed_pos_iff.mp h)

theorem toNat_takeToken (h : bucket.tokens ≠ 0) :
    (takeToken bucket).tokens.toNat + 1 = bucket.tokens.toNat := by
  have hpos : 0 < bucket.tokens.toNat := Nat.pos_of_ne_zero fun hzero =>
    h (UInt32.toNat_inj.mp hzero)
  have hsub := UInt32.toNat_sub_of_le bucket.tokens 1 (UInt32.le_iff_toNat_le.mpr hpos)
  have hone : (1 : UInt32).toNat = 1 := rfl
  rw [takeToken, hsub]
  omega

theorem takeToken_ne_self (h : bucket.tokens ≠ 0) : takeToken bucket ≠ bucket := by
  intro heq
  have hnat := toNat_takeToken h
  rw [heq] at hnat
  omega

theorem takeToken_openBucket_ne (h : (openBucket env s attestor burst).tokens ≠ 0) :
    s.rateLimits.burstState.get attestor ≠
      some (takeToken (openBucket env s attestor burst)) := by
  intro heq
  have hstored : getBurstState s attestor burst env.sequence =
      takeToken (openBucket env s attestor burst) := by
    rw [getBurstState, heq, Option.getD_some]
  by_cases hlater :
      (getBurstState s attestor burst env.sequence).lastRefillLedger < env.sequence
  · have hlast := congrArg BurstState.lastRefillLedger hstored
    rw [openBucket, refillBurst_of_later hlater] at hlast
    change _ = env.sequence at hlast
    rw [hlast] at hlater
    exact absurd hlater (UInt32.lt_irrefl _)
  · have hsame : openBucket env s attestor burst = getBurstState s attestor burst env.sequence :=
      refillBurst_of_not_later hlater
    rw [← hsame] at hstored
    exact takeToken_ne_self h hstored.symm

/-- The counters are as before, up to the reset of a window and the refill of the bucket. -/
structure KeepsCounters (env : Env) (s : Storage) (attestor : Address) (config : RateLimitConfig)
    (s' : Storage) : Prop where
  window : s'.rateLimits.state.get attestor = s.rateLimits.state.get attestor ∨
    s'.rateLimits.state.get attestor = some (openWindow env s attestor config)
  bucket : s'.rateLimits.burstState.get attestor = s.rateLimits.burstState.get attestor ∨
    ∃ burst, s.rateLimits.burstConfig = some burst ∧
      s'.rateLimits.burstState.get attestor = some (openBucket env s attestor burst)
  shared : s'.rateLimits.globalWindow = s.rateLimits.globalWindow ∨
    s'.rateLimits.globalWindow =
      some (getGlobalWindowState s config.windowLength env.sequence)
  others : ∀ a, a ≠ attestor → s'.rateLimits.state.get a = s.rateLimits.state.get a ∧
    s'.rateLimits.burstState.get a = s.rateLimits.burstState.get a

theorem KeepsCounters.refl : KeepsCounters env s attestor config s :=
  ⟨.inl rfl, .inl rfl, .inl rfl, fun _ _ => ⟨rfl, rfl⟩⟩

theorem KeepsCounters.refill (hburst : s.rateLimits.burstConfig = some burst) :
    KeepsCounters env s attestor config
      (withBucket s attestor (openBucket env s attestor burst)) :=
  ⟨.inl rfl, .inr ⟨burst, hburst, KeyedStore.get_set_self _ _ _⟩, .inl rfl,
    fun _ ha => ⟨rfl, KeyedStore.get_set_of_ne _ _ ha⟩⟩

theorem not_keepsCounters_takeToken (hburst : s.rateLimits.burstConfig = some burst)
    (htokens : (openBucket env s attestor burst).tokens ≠ 0) :
    ¬ KeepsCounters env s attestor config
      (withBucket s attestor (takeToken (openBucket env s attestor burst))) := by
  intro h
  have hstored : (withBucket s attestor (takeToken (openBucket env s attestor burst))
      ).rateLimits.burstState.get attestor =
        some (takeToken (openBucket env s attestor burst)) := KeyedStore.get_set_self _ _ _
  rcases h.bucket with hsame | ⟨burst', hburst', hsame⟩
  · exact takeToken_openBucket_ne htokens (hsame.symm.trans hstored)
  · obtain rfl := Option.some.inj (hburst.symm.trans hburst')
    exact takeToken_ne_self htokens (Option.some.inj (hstored.symm.trans hsame))

/-- A rejected submission costs nothing exactly when the window turned it away or there was no
token to take. -/
theorem rejection_keeps_counters_iff (env : Env) (s s' : Storage) (attestor : Address)
    (config : RateLimitConfig) (e : AnchorKitError)
    (h : checkAndIncrement env s attestor config = .ok (s', .error e)) :
    KeepsCounters env s attestor config s' ↔
      config.maxSubmissions ≤ (openWindow env s attestor config).submissionCount ∨
      ∀ burst, s.rateLimits.burstConfig = some burst →
        (openBucket env s attestor burst).tokens = 0 := by
  have houtcome := outcome_of_checkAndIncrement (ne_admin_of_error h) h
  cases houtcome with
  | exhausted hfull => exact iff_of_true .refl (.inl hfull)
  | drained hroom hgate =>
    cases gateEffect_of_burstGate hgate with
    | empty hburst htokens =>
      refine iff_of_true (.refill hburst) (.inr fun burst' hburst' => ?_)
      obtain rfl := Option.some.inj (hburst.symm.trans hburst')
      exact htokens
  | unfair hroom hgate hfair =>
    cases gateEffect_of_burstGate hgate with
    | absent hburst =>
      refine iff_of_true .refl (.inr fun burst hsome => ?_)
      rw [hburst] at hsome
      cases hsome
    | taken hburst htokens =>
      refine iff_of_false (not_keepsCounters_takeToken hburst htokens) ?_
      rintro (hfull | hzero)
      · exact absurd hroom (UInt32.not_lt.mpr hfull)
      · exact htokens (hzero _ hburst)

end Rejections

namespace RejectionDemo

def bob : Address := ⟨"GBOB"⟩

def env : Env := ⟨1000, 1, []⟩

/-- A bucket of five tokens, and a fair share of one percent. -/
def storage (window : Option RateLimitState) : Storage :=
  { Storage.empty with
    rateLimits := { Storage.empty.rateLimits with
      burstConfig := some ⟨5, 1⟩, fairnessConfig := some ⟨1, 1⟩
      state := fun a => if a = bob then window else none } }

end RejectionDemo

/-- A full window turns the submission away before the gates. -/
theorem full_window_keeps_counters :
    KeepsCounters RejectionDemo.env (RejectionDemo.storage (some ⟨10, 1⟩)) RejectionDemo.bob
      ⟨10, 100⟩ (RejectionDemo.storage (some ⟨10, 1⟩)) :=
  (rejection_keeps_counters_iff RejectionDemo.env (RejectionDemo.storage (some ⟨10, 1⟩)) _
    RejectionDemo.bob ⟨10, 100⟩ windowExhausted rfl).mpr (.inl (by decide))

/-- A submission with too large a share has already taken its token. -/
theorem unfair_submission_takes_token : ¬ ∀ (env : Env) (s s' : Storage) (attestor : Address)
    (config : RateLimitConfig) (e : AnchorKitError),
    checkAndIncrement env s attestor config = .ok (s', .error e) →
      KeepsCounters env s attestor config s' := by
  intro h
  have hburst : (RejectionDemo.storage none).rateLimits.burstConfig = some ⟨5, 1⟩ := rfl
  exact not_keepsCounters_takeToken hburst (by decide)
    (h RejectionDemo.env (RejectionDemo.storage none) _ RejectionDemo.bob ⟨10, 100⟩ _ rfl)

/-! ### Runs of the limiter -/

inductive LimiterCall
  /-- A caller that `reverts` undoes a rejected submission. -/
  | submit (attestor : Address) (config : RateLimitConfig) (reverts : Bool)
  | updateConfig (admin : Address) (config : RateLimitConfig)
  | updateBurstConfig (admin : Address) (config : BurstControlConfig)
  | updateFairnessConfig (admin : Address) (config : FairnessConfig)

abbrev LimiterTransition := Machine.Transition Storage (Env × LimiterCall)

/-- A refused update leaves the storage as it is. -/
def updated : Except AnchorKitError Storage → Except Panic Storage
  | .ok s => .ok s
  | .error _ => .error (.withError .validationError)

def limiterStep (s : Storage) (i : Env × LimiterCall) : Except Panic Storage :=
  match i.2 with
  | .submit attestor config reverts => do
    match ← checkAndIncrement i.1 s attestor config with
    | (s, .ok ()) => return s
    | (s, .error _) => if reverts then throw (.withError .rateLimitExceeded) else return s
  | .updateConfig admin config => updated (updateConfig s admin config)
  | .updateBurstConfig admin config => updated (updateBurstConfig s admin config)
  | .updateFairnessConfig admin config => updated (updateFairnessConfig s admin config)

def accepts (attestor : Address) (t : LimiterTransition) : Bool :=
  match t.input.2 with
  | .submit a config _ => a = attestor &&
    match checkAndIncrement t.input.1 t.pre a config with
    | .ok (_, .ok ()) => true
    | _ => false
  | _ => false

def acceptedLedgers (past : List LimiterTransition) (attestor : Address) : List ℕ :=
  (past.filter (accepts attestor)).map fun t => t.input.1.sequence.toNat

def refills (attestor : Address) (t : LimiterTransition) : Bool :=
  match t.pre.rateLimits.burstState.get attestor, t.post.rateLimits.burstState.get attestor with
  | none, some _ => true
  | some before, some after => before.lastRefillLedger ≠ after.lastRefillLedger
  | _, _ => false

def LowersCapacity (t : LimiterTransition) : Prop :=
  ∃ before after, t.pre.rateLimits.burstConfig = some before ∧
    t.post.rateLimits.burstConfig = some after ∧ after.burstCapacity < before.burstCapacity

section Runs

variable {env : Env} {s s' : Storage} {attestor : Address} {config : RateLimitConfig}
  {burst : BurstControlConfig} {t : LimiterTransition}

/-- What a call does to the bucket of an attestor. -/
inductive BucketEffect (attestor : Address) (t : LimiterTransition) : Prop
  /-- Nothing was taken: the call is not the attestor's, or it did not reach the bucket. -/
  | untouched (hbucket : t.post.rateLimits.burstState.get attestor =
      t.pre.rateLimits.burstState.get attestor)
    (hkept : t.post.rateLimits.burstConfig = none → t.pre.rateLimits.burstConfig = none)
    (haccepts : accepts attestor t = true → t.pre.rateLimits.burstConfig = none)
  | refilled {burst : BurstControlConfig} (hburst : t.pre.rateLimits.burstConfig = some burst)
    (hsame : t.post.rateLimits.burstConfig = t.pre.rateLimits.burstConfig)
    (hbucket : t.post.rateLimits.burstState.get attestor =
      some (openBucket t.input.1 t.pre attestor burst))
    (haccepts : accepts attestor t = false)
  | taken {burst : BurstControlConfig} (hburst : t.pre.rateLimits.burstConfig = some burst)
    (hsame : t.post.rateLimits.burstConfig = t.pre.rateLimits.burstConfig)
    (htokens : (openBucket t.input.1 t.pre attestor burst).tokens ≠ 0)
    (hbucket : t.post.rateLimits.burstState.get attestor =
      some (takeToken (openBucket t.input.1 t.pre attestor burst)))

/-- A submission writes no bucket but the caller's, and no configuration. -/
theorem checkAndIncrement_frame {r : Except AnchorKitError Unit}
    (h : checkAndIncrement env s attestor config = .ok (s', r)) :
    s'.access = s.access ∧ s'.rateLimits.burstConfig = s.rateLimits.burstConfig ∧
      ∀ a, a ≠ attestor →
        s'.rateLimits.burstState.get a = s.rateLimits.burstState.get a := by
  have hgateFrame : ∀ {t : Storage} {g : Except AnchorKitError Unit},
      burstGate s attestor env.sequence = (t, g) → t.access = s.access ∧
        t.rateLimits.burstConfig = s.rateLimits.burstConfig ∧ ∀ a, a ≠ attestor →
          t.rateLimits.burstState.get a = s.rateLimits.burstState.get a := by
    intro t g hgate
    cases gateEffect_of_burstGate hgate with
    | absent => exact ⟨rfl, rfl, fun _ _ => rfl⟩
    | empty | taken => exact ⟨rfl, rfl, fun _ ha => KeyedStore.get_set_of_ne _ _ ha⟩
  by_cases hadmin : s.access.admin = some attestor
  · obtain ⟨_, _, rfl⟩ := checkAndIncrement_admin hadmin h
    exact ⟨rfl, rfl, fun _ _ => rfl⟩
  · cases outcome_of_checkAndIncrement hadmin h with
    | exhausted => exact ⟨rfl, rfl, fun _ _ => rfl⟩
    | drained _ hgate => exact hgateFrame hgate
    | unfair _ hgate => exact hgateFrame hgate
    | accepted _ hgate =>
      obtain ⟨haccess, hconfig, hothers⟩ := hgateFrame hgate
      exact ⟨haccess, hconfig, hothers⟩

/-- A committed submission is a call of the limiter whose result was kept. -/
theorem checkAndIncrement_of_step {reverts : Bool}
    (h : limiterStep s (env, .submit attestor config reverts) = .ok s') :
    ∃ r, checkAndIncrement env s attestor config = .ok (s', r) := by
  obtain ⟨⟨t, r⟩, hcheck, h⟩ := bind_eq_ok.mp h
  cases r with
  | ok u =>
    obtain rfl := pure_eq_ok.mp h
    exact ⟨_, hcheck⟩
  | error e =>
    cases reverts with
    | true => cases h
    | false =>
      obtain rfl := pure_eq_ok.mp h
      exact ⟨_, hcheck⟩

theorem updated_eq_ok {x : Except AnchorKitError Storage} :
    updated x = .ok s' ↔ x = .ok s' := by
  cases x with
  | ok s => rw [updated, Except.ok.injEq, Except.ok.injEq]
  | error e => exact iff_of_false nofun nofun

theorem frame_of_update {x : Except AnchorKitError Storage}
    (hx : (∃ config, x = updateConfig s attestor config) ∨
      (∃ burst, x = updateBurstConfig s attestor burst) ∨
      ∃ fairness, x = updateFairnessConfig s attestor fairness) (h : x = .ok s') :
    s'.access = s.access ∧ s'.rateLimits.burstState = s.rateLimits.burstState ∧
      (s'.rateLimits.burstConfig = none → s.rateLimits.burstConfig = none) := by
  subst h
  rcases hx with ⟨config, hx⟩ | ⟨burst, hx⟩ | ⟨fairness, hx⟩
  · obtain ⟨-, -, rfl⟩ := updateConfig_eq_ok.mp hx.symm
    exact ⟨rfl, rfl, id⟩
  · simp only [updateBurstConfig, eq_comm (a := Except.ok s'), expect_bind_eq_ok,
      require_bind_eq_ok] at hx
    obtain ⟨_, -, -, hx⟩ := hx
    obtain ⟨_, -, hx⟩ := bind_eq_ok.mp hx
    obtain rfl := pure_eq_ok.mp hx
    refine ⟨rfl, rfl, ?_⟩
    intro hnone
    cases hnone
  · simp only [updateFairnessConfig, eq_comm (a := Except.ok s'), expect_bind_eq_ok,
      require_bind_eq_ok] at hx
    obtain ⟨_, -, -, hx⟩ := hx
    obtain ⟨_, -, hx⟩ := bind_eq_ok.mp hx
    obtain rfl := pure_eq_ok.mp hx
    exact ⟨rfl, rfl, id⟩

theorem accepts_iff : accepts attestor t = true ↔ ∃ config reverts s',
    t.input.2 = .submit attestor config reverts ∧
      checkAndIncrement t.input.1 t.pre attestor config = .ok (s', .ok ()) := by
  unfold accepts
  constructor
  · intro h
    split at h
    · rename_i a config reverts hinput
      rw [Bool.and_eq_true, decide_eq_true_eq] at h
      obtain ⟨rfl, h⟩ := h
      split at h
      · rename_i s' hcheck
        exact ⟨config, reverts, s', hinput, hcheck⟩
      · cases h
    · cases h
  · rintro ⟨config, reverts, s', hinput, hcheck⟩
    rw [hinput]
    dsimp only
    rw [hcheck, decide_eq_true rfl]
    rfl

/-- The bucket of the caller of a submission that is not the admin. -/
theorem bucketEffect_of_submit {r : Except AnchorKitError Unit} {reverts : Bool}
    (hinput : t.input.2 = .submit attestor config reverts)
    (hadmin : t.pre.access.admin ≠ some attestor)
    (h : checkAndIncrement t.input.1 t.pre attestor config = .ok (t.post, r)) :
    BucketEffect attestor t := by
  obtain ⟨pre, ⟨env, call⟩, post⟩ := t
  dsimp only at hinput hadmin h
  have hrejected : r ≠ .ok () → accepts attestor ⟨pre, (env, call), post⟩ = false := by
    intro hr
    rw [← Bool.not_eq_true, accepts_iff]
    rintro ⟨config', reverts', s', hinput', hcheck⟩
    obtain ⟨-, rfl, -⟩ := LimiterCall.submit.inj (hinput.symm.trans hinput')
    exact hr (Prod.mk.inj (Except.ok.inj (h.symm.trans hcheck))).2
  cases outcome_of_checkAndIncrement hadmin h with
  | exhausted =>
    refine .untouched rfl id fun haccepts => ?_
    rw [hrejected nofun] at haccepts
    cases haccepts
  | drained _ hgate =>
    cases gateEffect_of_burstGate hgate with
    | empty hburst =>
      exact .refilled hburst rfl (KeyedStore.get_set_self _ _ _) (hrejected nofun)
  | unfair _ hgate =>
    cases gateEffect_of_burstGate hgate with
    | absent hnone => exact .untouched rfl id fun _ => hnone
    | taken hburst htokens => exact .taken hburst rfl htokens (KeyedStore.get_set_self _ _ _)
  | accepted _ hgate =>
    cases gateEffect_of_burstGate hgate with
    | absent hnone => exact .untouched rfl id fun _ => hnone
    | taken hburst htokens => exact .taken hburst rfl htokens (KeyedStore.get_set_self _ _ _)

theorem bucketEffect_of_step (hstep : limiterStep t.pre t.input = .ok t.post)
    (hadmin : t.pre.access.admin ≠ some attestor) :
    t.post.access = t.pre.access ∧ BucketEffect attestor t := by
  obtain ⟨pre, ⟨env, call⟩, post⟩ := t
  have hupdate : (∀ a config reverts, call ≠ .submit a config reverts) →
      (post.access = pre.access ∧ post.rateLimits.burstState = pre.rateLimits.burstState ∧
        (post.rateLimits.burstConfig = none → pre.rateLimits.burstConfig = none)) →
        post.access = pre.access ∧ BucketEffect attestor ⟨pre, (env, call), post⟩ := by
    intro hcall hframe
    obtain ⟨haccess, hbuckets, hkept⟩ := hframe
    refine ⟨haccess, .untouched (congrArg (·.get attestor) hbuckets) hkept fun haccepts => ?_⟩
    obtain ⟨config, reverts, _, hinput, -⟩ := accepts_iff.mp haccepts
    exact absurd hinput (hcall _ _ _)
  cases call with
  | submit a config reverts =>
    obtain ⟨r, hcheck⟩ := checkAndIncrement_of_step hstep
    obtain ⟨haccess, hconfig, hothers⟩ := checkAndIncrement_frame hcheck
    refine ⟨haccess, ?_⟩
    rcases eq_or_ne attestor a with rfl | hne
    · exact bucketEffect_of_submit rfl hadmin hcheck
    · refine .untouched (hothers attestor hne) (fun hnone => hconfig ▸ hnone) fun haccepts => ?_
      obtain ⟨_, _, _, hinput, -⟩ := accepts_iff.mp haccepts
      exact absurd (LimiterCall.submit.inj hinput).1 (Ne.symm hne)
  | updateConfig admin config =>
    exact hupdate nofun (frame_of_update (.inl ⟨config, rfl⟩) (updated_eq_ok.mp hstep))
  | updateBurstConfig admin burst =>
    exact hupdate nofun (frame_of_update (.inr (.inl ⟨burst, rfl⟩)) (updated_eq_ok.mp hstep))
  | updateFairnessConfig admin fairness =>
    exact hupdate nofun
      (frame_of_update (.inr (.inr ⟨fairness, rfl⟩)) (updated_eq_ok.mp hstep))

def bucketRate (burst : BurstControlConfig) : TokenBucket.Rate :=
  ⟨burst.burstCapacity.toNat, burst.refillPerLedger.toNat⟩

def toBucket (state : BurstState) : TokenBucket.Bucket :=
  ⟨state.tokens.toNat, state.lastRefillLedger.toNat⟩

/-- The limiter refills as the token bucket does; nothing saturates below the capacity. -/
theorem toBucket_refillBurst (state : BurstState) (burst : BurstControlConfig) (now : UInt32) :
    toBucket (refillBurst state burst now) =
      TokenBucket.refilled (bucketRate burst) (toBucket state) now.toNat := by
  have hcapacity := burst.burstCapacity.toNat_lt
  unfold TokenBucket.refilled
  by_cases hlater : state.lastRefillLedger < now
  · have hlast : (toBucket state).last < now.toNat := UInt32.lt_iff_toNat_lt.mp hlater
    rw [if_pos hlast, refillBurst, if_pos (elapsed_pos_iff.mpr hlater)]
    simp only [toBucket, bucketRate, Word.toNat_min32, Word.toNat_saturatingAdd32,
      Word.toNat_saturatingMul32, Word.toNat_saturatingSub32, TokenBucket.Bucket.mk.injEq, and_true]
    omega
  · have hlast : ¬ (toBucket state).last < now.toNat := mt UInt32.lt_iff_toNat_lt.mpr hlater
    rw [if_neg hlast, refillBurst, if_neg (mt elapsed_pos_iff.mp hlater)]

theorem toBucket_takeToken {state : BurstState} (h : state.tokens ≠ 0) :
    toBucket (takeToken state) = TokenBucket.spend (toBucket state) := by
  have hnat := toNat_takeToken h
  rw [toBucket, TokenBucket.spend, TokenBucket.Bucket.mk.injEq]
  refine ⟨?_, rfl⟩
  dsimp only [toBucket]
  omega

def storedBucket (s : Storage) (attestor : Address) : Option TokenBucket.Bucket :=
  (s.rateLimits.burstState.get attestor).map toBucket

/-- The invariant behind the bound: the stored bucket tracks the accepted submissions, and it was
last refilled by one of the calls. -/
structure BucketTracked (burst : BurstControlConfig) (attestor : Address)
    (past : List LimiterTransition) (s : Storage) : Prop where
  notAdmin : s.access.admin ≠ some attestor
  tracks : TokenBucket.Tracks (bucketRate burst) (acceptedLedgers past attestor)
    (storedBucket s attestor)
  opened : ∀ b, s.rateLimits.burstState.get attestor = some b →
    ∃ u ∈ past, u.input.1.sequence = b.lastRefillLedger

theorem acceptedLedgers_snoc (past : List LimiterTransition) (t : LimiterTransition)
    (attestor : Address) : acceptedLedgers (past ++ [t]) attestor = acceptedLedgers past attestor ++
      if accepts attestor t then [t.input.1.sequence.toNat] else [] := by
  rw [acceptedLedgers, List.filter_append, List.map_append, ← acceptedLedgers,
    List.filter_singleton]
  cases accepts attestor t <;> rfl

theorem BucketTracked.openBucket {past : List LimiterTransition}
    (h : BucketTracked burst attestor past t.pre)
    (hmono : ∀ u ∈ past, u.input.1.sequence ≤ t.input.1.sequence) :
    TokenBucket.Faithful (bucketRate burst) (acceptedLedgers past attestor)
        (toBucket (openBucket t.input.1 t.pre attestor burst)) ∧
      (openBucket t.input.1 t.pre attestor burst).lastRefillLedger = t.input.1.sequence := by
  have htracks := h.tracks
  unfold storedBucket at htracks
  rw [RateLimiter.openBucket, getBurstState]
  cases hstored : t.pre.rateLimits.burstState.get attestor with
  | none =>
    rw [hstored] at htracks
    rw [Option.getD_none, refillBurst_of_not_later (UInt32.lt_irrefl _)]
    refine ⟨?_, rfl⟩
    rw [show acceptedLedgers past attestor = [] from htracks]
    exact .full _ _
  | some b =>
    rw [hstored] at htracks
    rw [Option.getD_some, toBucket_refillBurst]
    refine ⟨TokenBucket.Faithful.refilled htracks _, ?_⟩
    obtain ⟨u, hu, hlast⟩ := h.opened b hstored
    have hle : b.lastRefillLedger ≤ t.input.1.sequence := hlast ▸ hmono u hu
    by_cases hlater : b.lastRefillLedger < t.input.1.sequence
    · rw [refillBurst_of_later hlater]
    · rw [refillBurst_of_not_later hlater]
      exact UInt32.le_antisymm hle (UInt32.not_lt.mp hlater)

theorem BucketTracked.step {past : List LimiterTransition}
    (h : BucketTracked burst attestor past t.pre)
    (hstep : limiterStep t.pre t.input = .ok t.post)
    (hburst : t.pre.rateLimits.burstConfig = some burst)
    (hmono : ∀ u ∈ past, u.input.1.sequence ≤ t.input.1.sequence) :
    BucketTracked burst attestor (past ++ [t]) t.post := by
  obtain ⟨haccess, heffect⟩ := bucketEffect_of_step hstep h.notAdmin
  have hadmin : t.post.access.admin ≠ some attestor := haccess ▸ h.notAdmin
  obtain ⟨hfaithful, hnow⟩ := h.openBucket hmono
  have hlast : t ∈ past ++ [t] := List.mem_append_right _ List.mem_cons_self
  cases heffect with
  | untouched hbucket _ haccepts =>
    have hnot : accepts attestor t = false := by
      rw [← Bool.not_eq_true]
      intro htrue
      rw [haccepts htrue] at hburst
      cases hburst
    refine ⟨hadmin, ?_, fun b hb => ?_⟩
    · rw [acceptedLedgers_snoc, hnot, if_neg Bool.false_ne_true, List.append_nil, storedBucket,
        hbucket]
      exact h.tracks
    · obtain ⟨u, hu, hb⟩ := h.opened b (hbucket ▸ hb)
      exact ⟨u, List.mem_append_left _ hu, hb⟩
  | refilled hburst' _ hbucket hnot =>
    obtain rfl := Option.some.inj (hburst.symm.trans hburst')
    refine ⟨hadmin, ?_, fun b hb => ⟨t, hlast, ?_⟩⟩
    · rw [acceptedLedgers_snoc, hnot, if_neg Bool.false_ne_true, List.append_nil, storedBucket,
        hbucket]
      exact hfaithful
    · obtain rfl := Option.some.inj (hbucket.symm.trans hb)
      exact hnow.symm
  | taken hburst' _ htokens hbucket =>
    obtain rfl := Option.some.inj (hburst.symm.trans hburst')
    refine ⟨hadmin, ?_, fun b hb => ⟨t, hlast, ?_⟩⟩
    · rw [acceptedLedgers_snoc, storedBucket, hbucket, Option.map_some,
        toBucket_takeToken htokens]
      cases accepts attestor t with
      | true =>
        have hpos : 0 < (toBucket (RateLimiter.openBucket t.input.1 t.pre attestor burst)).tokens :=
          Nat.pos_of_ne_zero fun hzero => htokens (UInt32.toNat_inj.mp hzero)
        have hspent := hfaithful.spend hpos
        rw [show (toBucket (RateLimiter.openBucket t.input.1 t.pre attestor burst)).last =
          t.input.1.sequence.toNat from congrArg UInt32.toNat hnow] at hspent
        exact hspent
      | false =>
        rw [if_neg Bool.false_ne_true, List.append_nil]
        exact hfaithful.lose
    · obtain rfl := Option.some.inj (hbucket.symm.trans hb)
      exact hnow.symm

theorem bucketTracked_run (hadmin : s.access.admin ≠ some attestor)
    (hfresh : s.rateLimits.burstState.get attestor = none) {is : List (Env × LimiterCall)}
    (hmono : is.Pairwise fun i j => i.1.sequence ≤ j.1.sequence)
    (hburst : ∀ t ∈ Machine.transitions limiterStep s is,
      t.pre.rateLimits.burstConfig = some burst) :
    BucketTracked burst attestor (Machine.transitions limiterStep s is)
      (Machine.run limiterStep s is) := by
  refine Machine.guarded_history_invariant limiterStep (BucketTracked burst attestor)
    (fun past t => t.pre.rateLimits.burstConfig = some burst ∧
      ∀ u ∈ past, u.input.1.sequence ≤ t.input.1.sequence) ?_
    (fun past t hstep h hgood => h.step hstep hgood.1 hgood.2) is ?_
  · refine ⟨hadmin, ?_, fun b hb => ?_⟩
    · rw [storedBucket, hfresh]
      exact rfl
    · rw [hfresh] at hb
      cases hb
  · intro before t after hsplit
    refine ⟨hburst t ?_, Machine.atEachStep_of_pairwise limiterStep hmono before t after hsplit⟩
    rw [hsplit]
    exact List.mem_append_right _ List.mem_cons_self

/-! ### The stored tokens -/

/-- The tokens of an open bucket fit, or they are still the stored ones. -/
theorem openBucket_cases (env : Env) (s : Storage) (attestor : Address)
    (burst : BurstControlConfig) :
    (openBucket env s attestor burst).tokens ≤ burst.burstCapacity ∨
      s.rateLimits.burstState.get attestor = some (openBucket env s attestor burst) := by
  rw [openBucket, getBurstState]
  cases s.rateLimits.burstState.get attestor with
  | none =>
    rw [Option.getD_none, refillBurst_of_not_later (UInt32.lt_irrefl _)]
    exact .inl (UInt32.le_refl _)
  | some b =>
    rw [Option.getD_some]
    by_cases hlater : b.lastRefillLedger < env.sequence
    · rw [refillBurst_of_later hlater, UInt32.le_iff_toNat_le, Word.toNat_min32]
      exact .inl (Nat.min_le_right _ _)
    · rw [refillBurst_of_not_later hlater]
      exact .inr rfl

/-- The stored tokens fit, unless the capacity was lowered since the last refill. -/
structure CapacityKept (attestor : Address) (past : List LimiterTransition) (s : Storage) :
    Prop where
  notAdmin : s.access.admin ≠ some attestor
  absent : s.rateLimits.burstConfig = none → s.rateLimits.burstState.get attestor = none
  tokens_le : (∀ u ∈ Machine.since (refills attestor) past, ¬ LowersCapacity u) →
    ∀ b burst, s.rateLimits.burstState.get attestor = some b →
      s.rateLimits.burstConfig = some burst → b.tokens ≤ burst.burstCapacity

theorem since_refills_snoc {past : List LimiterTransition} (h : refills attestor t = false) :
    Machine.since (refills attestor) (past ++ [t]) =
      Machine.since (refills attestor) past ++ [t] := by
  rw [Machine.since_snoc, h, if_neg Bool.false_ne_true]

theorem CapacityKept.step {past : List LimiterTransition} (h : CapacityKept attestor past t.pre)
    (hstep : limiterStep t.pre t.input = .ok t.post) :
    CapacityKept attestor (past ++ [t]) t.post := by
  obtain ⟨haccess, heffect⟩ := bucketEffect_of_step hstep h.notAdmin
  have hadmin : t.post.access.admin ≠ some attestor := haccess ▸ h.notAdmin
  -- a call that reached the bucket: it was filled up to the capacity or is the stored one
  have hreached : ∀ {burst : BurstControlConfig} {b : BurstState},
      t.pre.rateLimits.burstConfig = some burst →
      t.post.rateLimits.burstConfig = t.pre.rateLimits.burstConfig →
      t.post.rateLimits.burstState.get attestor = some b →
      b.tokens ≤ (openBucket t.input.1 t.pre attestor burst).tokens →
      b.lastRefillLedger = (openBucket t.input.1 t.pre attestor burst).lastRefillLedger →
      CapacityKept attestor (past ++ [t]) t.post := by
    intro burst b hburst hsame hb htokens hlast
    refine ⟨hadmin, fun hnone => ?_, fun hsince b' burst' hb' hburst' => ?_⟩
    · rw [hsame, hburst] at hnone
      cases hnone
    · obtain rfl := Option.some.inj (hb.symm.trans hb')
      obtain rfl := Option.some.inj ((hsame.trans hburst).symm.trans hburst')
      refine UInt32.le_trans htokens ?_
      rcases openBucket_cases t.input.1 t.pre attestor burst with hle | hstored
      · exact hle
      · have hnot : refills attestor t = false := by
          rw [refills, hstored, hb]
          exact decide_eq_false (not_not_intro hlast.symm)
        refine h.tokens_le (fun u hu => hsince u ?_) _ burst hstored hburst
        rw [since_refills_snoc hnot]
        exact List.mem_append_left _ hu
  cases heffect with
  | untouched hbucket hkept _ =>
    refine ⟨hadmin, fun hnone => ?_, fun hsince b burst hb hburst => ?_⟩
    · rw [hbucket]
      exact h.absent (hkept hnone)
    · have hnot : refills attestor t = false := by
        rw [refills, hbucket]
        cases t.pre.rateLimits.burstState.get attestor with
        | none => rfl
        | some b => exact decide_eq_false (not_not_intro rfl)
      rw [since_refills_snoc hnot] at hsince
      rw [hbucket] at hb
      cases hbefore : t.pre.rateLimits.burstConfig with
      | none =>
        rw [h.absent hbefore] at hb
        cases hb
      | some before =>
        have hle := h.tokens_le (fun u hu => hsince u (List.mem_append_left _ hu)) b before hb
          hbefore
        have hraised : ¬ burst.burstCapacity < before.burstCapacity := fun hlower =>
          hsince t (List.mem_append_right _ List.mem_cons_self)
            ⟨before, burst, hbefore, hburst, hlower⟩
        exact UInt32.le_trans hle (UInt32.not_lt.mp hraised)
  | refilled hburst hsame hbucket _ =>
    exact hreached hburst hsame hbucket (UInt32.le_refl _) rfl
  | taken hburst hsame htokens hbucket =>
    refine hreached hburst hsame hbucket ?_ rfl
    have hnat := toNat_takeToken htokens
    rw [UInt32.le_iff_toNat_le]
    omega

end Runs

/-- The submissions of the attestor that are accepted at `n` ledgers from `first` on. -/
def acceptedWithin (past : List LimiterTransition) (attestor : Address) (first n : ℕ) : ℕ :=
  (acceptedLedgers past attestor).countP fun ledger => first ≤ ledger && ledger < first + n

/-- Over runs of any calls of the limiter: while a burst configuration stays in force an attestor
that is not the admin is held to the token bucket, and its stored tokens fit into the capacity in
force as long as that was not lowered since they were last refilled. -/
theorem bucket_bounds (attestor : Address) (s : Storage) (is : List (Env × LimiterCall))
    (hadmin : s.access.admin ≠ some attestor)
    (hfresh : s.rateLimits.burstState.get attestor = none)
    (hmono : is.Pairwise fun i j => i.1.sequence ≤ j.1.sequence) :
    (∀ burst, (∀ t ∈ Machine.transitions limiterStep s is,
        t.pre.rateLimits.burstConfig = some burst) → ∀ first n,
      acceptedWithin (Machine.transitions limiterStep s is) attestor first n ≤
        burst.burstCapacity.toNat + n * burst.refillPerLedger.toNat) ∧
    ((∀ u ∈ Machine.since (refills attestor) (Machine.transitions limiterStep s is),
        ¬ LowersCapacity u) →
      ∀ b burst, (Machine.run limiterStep s is).rateLimits.burstState.get attestor = some b →
        (Machine.run limiterStep s is).rateLimits.burstConfig = some burst →
        b.tokens ≤ burst.burstCapacity) := by
  constructor
  · intro burst hburst first n
    have htracks := (bucketTracked_run hadmin hfresh hmono hburst).tracks
    cases hstored : storedBucket (Machine.run limiterStep s is) attestor with
    | none =>
      rw [hstored] at htracks
      rw [acceptedWithin, show acceptedLedgers _ attestor = [] from htracks, List.countP_nil]
      exact Nat.zero_le _
    | some b =>
      rw [hstored] at htracks
      exact TokenBucket.Faithful.sliding htracks first n
  · refine (Machine.history_invariant limiterStep (CapacityKept attestor) (fun _ => True) ?_
      (fun past t hstep h _ => h.step hstep) is fun _ _ => trivial).tokens_le
    refine ⟨hadmin, fun _ => hfresh, fun _ b burst hb => ?_⟩
    rw [hfresh] at hb
    cases hb

namespace BurstDemo

def alice : Address := ⟨"GALICE"⟩

def bob : Address := ⟨"GBOB"⟩

/-- A limiter of the admin `alice`, with a bucket for each attestor. -/
def storage (burst : BurstControlConfig) (fairness : Option FairnessConfig) : Storage :=
  { Storage.empty with
    access := { Storage.empty.access with admin := some alice }
    rateLimits := { Storage.empty.rateLimits with
      burstConfig := some burst, fairnessConfig := fairness } }

def env (ledger : UInt32) : Env := ⟨1000, ledger, []⟩

def submit (ledger : UInt32) (attestor : Address) : Env × LimiterCall :=
  (env ledger, .submit attestor ⟨10, 100⟩ false)

end BurstDemo

/-- A bucket of two lets two of three submissions through. -/
theorem bucket_bounds_of_three :
    acceptedWithin (Machine.transitions limiterStep (BurstDemo.storage ⟨2, 1⟩ none)
      [BurstDemo.submit 1 BurstDemo.bob, BurstDemo.submit 1 BurstDemo.bob,
        BurstDemo.submit 1 BurstDemo.bob]) BurstDemo.bob 1 1 ≤ 2 + 1 * 1 :=
  (bucket_bounds BurstDemo.bob (BurstDemo.storage ⟨2, 1⟩ none)
    [BurstDemo.submit 1 BurstDemo.bob, BurstDemo.submit 1 BurstDemo.bob,
      BurstDemo.submit 1 BurstDemo.bob] (by decide) rfl (by decide)).1 ⟨2, 1⟩ (by decide) 1 1

/-- The admin takes no tokens. -/
theorem admin_exceeds_bucket : ¬ ∀ (attestor : Address) (s : Storage)
    (is : List (Env × LimiterCall)) (burst : BurstControlConfig),
    s.rateLimits.burstState.get attestor = none →
    (is.Pairwise fun i j => i.1.sequence ≤ j.1.sequence) →
    (∀ t ∈ Machine.transitions limiterStep s is, t.pre.rateLimits.burstConfig = some burst) →
    ∀ first n, acceptedWithin (Machine.transitions limiterStep s is) attestor first n ≤
      burst.burstCapacity.toNat + n * burst.refillPerLedger.toNat := by
  intro h
  have hbound := h BurstDemo.alice (BurstDemo.storage ⟨1, 1⟩ none)
    [BurstDemo.submit 1 BurstDemo.alice, BurstDemo.submit 1 BurstDemo.alice,
      BurstDemo.submit 1 BurstDemo.alice] ⟨1, 1⟩ rfl (by decide) (by decide) 1 1
  exact absurd hbound (by decide)

end RateLimiter

end AnchorKit
