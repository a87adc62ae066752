import AnchorKit.Access

/-!
# The rate limiter

A fixed window for each attestor, with address and role overrides of the global configuration,
an admin bypass, and two opt-in gates: a token bucket for bursts and a share of the window that
all attestors have in common. A rejection keeps what the gates have already written, and the
contract turns it into a panic.
-/

namespace AnchorKit

open Fallible

namespace RateLimiter

def isWindowExpired (currentLedger windowStartLedger windowLength : UInt32) : Bool :=
  windowLength ≤ Word.saturatingSub32 currentLedger windowStartLedger

def getConfig (s : Storage) : RateLimitConfig :=
  s.rateLimits.config.getD ⟨10, 100⟩

/-- Address override, else role override, else the global configuration. -/
def resolveConfig (s : Storage) (attestor : Address) (role : Option String) : RateLimitConfig :=
  match s.rateLimits.addressOverride.get attestor with
  | some cfg => cfg
  | none =>
    match role.bind fun r => s.rateLimits.roleOverride.get r with
    | some cfg => cfg
    | none => getConfig s

def validateConfig (config : RateLimitConfig) : Except AnchorKitError Unit := do
  require (config.maxSubmissions ≠ 0) (.validationError "max_submissions must be > 0")
  require (config.windowLength ≠ 0) (.validationError "window_length must be > 0")

def updateConfig (s : Storage) (admin : Address) (config : RateLimitConfig) :
    Except AnchorKitError Storage := do
  let storedAdmin ← expect s.access.admin (.fromCode .notInitialized)
  require (admin = storedAdmin) (.fromCode .unauthorizedAttestor)
  validateConfig config
  return { s with rateLimits := { s.rateLimits with config := some config } }

def storedState (s : Storage) (attestor : Address) (currentLedger : UInt32) : RateLimitState :=
  (s.rateLimits.state.get attestor).getD ⟨0, currentLedger⟩

/-- An expired window is replaced by an empty one that starts now. -/
def rollWindow (state : RateLimitState) (currentLedger windowLength : UInt32) : RateLimitState :=
  if isWindowExpired currentLedger state.windowStartLedger windowLength then ⟨0, currentLedger⟩
  else state

def getBurstState (s : Storage) (attestor : Address) (config : BurstControlConfig)
    (currentLedger : UInt32) : BurstState :=
  (s.rateLimits.burstState.get attestor).getD ⟨config.burstCapacity, currentLedger⟩

def refillBurst (state : BurstState) (config : BurstControlConfig) (currentLedger : UInt32) :
    BurstState :=
  let elapsed := Word.saturatingSub32 currentLedger state.lastRefillLedger
  if 0 < elapsed then
    let refill := Word.saturatingMul32 elapsed config.refillPerLedger
    ⟨min (Word.saturatingAdd32 state.tokens refill) config.burstCapacity, currentLedger⟩
  else state

/-- A rejected request still keeps the refill it computed. -/
def checkAndConsumeBurst (s : Storage) (attestor : Address) (config : BurstControlConfig)
    (currentLedger : UInt32) : Storage × Except AnchorKitError Unit :=
  let state := refillBurst (getBurstState s attestor config currentLedger) config currentLedger
  let save (st : BurstState) : Storage :=
    { s with rateLimits := { s.rateLimits with burstState := s.rateLimits.burstState.set attestor st } }
  if state.tokens = 0 then (save state, .error (.fromCode .rateLimitExceeded))
  else (save { state with tokens := state.tokens - 1 }, .ok ())

def getGlobalWindowState (s : Storage) (windowLength currentLedger : UInt32) :
    GlobalRateWindowState :=
  let state := s.rateLimits.globalWindow.getD ⟨0, currentLedger⟩
  if isWindowExpired currentLedger state.windowStartLedger windowLength then ⟨0, currentLedger⟩
  else state

/-- Whether an attestor with `count` of the window's `total` submissions takes too large a share,
once the window is large enough to tell. -/
def exceedsShare (config : FairnessConfig) (count total : UInt32) : Bool :=
  config.minTotalForEnforcement ≤ total &&
    config.maxSharePercent.toUInt64 * total.toUInt64 < count.toUInt64 * 100

def checkFairness (s : Storage) (config : RateLimitConfig) (attestorState : RateLimitState)
    (fairness : FairnessConfig) (currentLedger : UInt32) :
    Except Panic (Storage × Except AnchorKitError Unit) := do
  let global := getGlobalWindowState s config.windowLength currentLedger
  let prospectiveTotal ← add32 global.totalCount 1
  let prospectiveAttestorCount ← add32 attestorState.submissionCount 1
  if exceedsShare fairness prospectiveAttestorCount prospectiveTotal then
    return (s, .error (.fromCode .rateLimitExceeded))
  let s := { s with rateLimits := { s.rateLimits with
    globalWindow := some { global with totalCount := prospectiveTotal } } }
  return (s, .ok ())

def windowExhausted : AnchorKitError :=
  ⟨.rateLimitExceeded, "Request throttled: rate-limit window capacity exhausted; " ++
    "retry after the window expires", none⟩

def burstGate (s : Storage) (attestor : Address) (currentLedger : UInt32) :
    Storage × Except AnchorKitError Unit :=
  match s.rateLimits.burstConfig with
  | some burst => checkAndConsumeBurst s attestor burst currentLedger
  | none => (s, .ok ())

def fairnessGate (s : Storage) (config : RateLimitConfig) (state : RateLimitState)
    (currentLedger : UInt32) : Except Panic (Storage × Except AnchorKitError Unit) :=
  match s.rateLimits.fairnessConfig with
  | some fairness => checkFairness s config state fairness currentLedger
  | none => .ok (s, .ok ())

def checkAndIncrement (env : Env) (s : Storage) (attestor : Address) (config : RateLimitConfig) :
    Except Panic (Storage × Except AnchorKitError Unit) := do
  if s.access.admin = some attestor then
    let s ← AdminAuditLog.logChange env s attestor "rate_limit_bypass" "bypassed" "" "bypassed"
    return (s, .ok ())
  let currentLedger := env.sequence
  let state := rollWindow (storedState s attestor currentLedger) currentLedger config.windowLength
  if config.maxSubmissions ≤ state.submissionCount then
    return (s, .error windowExhausted)
  match burstGate s attestor currentLedger with
  | (s, .error e) => return (s, .error e)
  | (s, .ok ()) =>
    match ← fairnessGate s config state currentLedger with
    | (s, .error e) => return (s, .error e)
    | (s, .ok ()) =>
      let state :=
        { state with submissionCount := Word.saturatingAdd32 state.submissionCount 1 }
      return ({ s with rateLimits := { s.rateLimits with
        state := s.rateLimits.state.set attestor state } }, .ok ())

end RateLimiter

/-- The first role the attestor holds, in the order the contract tries them. -/
def rateLimitRole (s : Storage) (attestor : Address) : Option String :=
  ([.kycAdmin, .attestorAdmin, .cacheAdmin].find? fun r => hasRoleInternal s attestor r).map roleName

def enforceRateLimit (env : Env) (s : Storage) (attestor : Address) : Except Panic Storage := do
  let config := RateLimiter.resolveConfig s attestor (rateLimitRole s attestor)
  match ← RateLimiter.checkAndIncrement env s attestor config with
  | (s, .ok ()) => return s
  | (_, .error _) => throw (.withError .rateLimitExceeded)

def setRateLimitConfig (env : Env) (s : Storage) (caller : Address)
    (maxSubmissions windowLength : UInt32) : Except Panic Storage := do
  requireAdminOrCapability env s caller .setRateLimits
  match RateLimiter.updateConfig s caller ⟨maxSubmissions, windowLength⟩ with
  | .error _ => throw (.withError .validationError)
  | .ok s => AdminAuditLog.logAction env s caller "set_rate_limit_config" "rate_limiter" "" "updated"

def setRoleRateLimit (env : Env) (s : Storage) (caller : Address) (role : String)
    (config : RateLimitConfig) : Except Panic Storage := do
  requireAdminOrCapability env s caller .setRateLimits
  match RateLimiter.validateConfig config with
  | .error _ => throw (.withError .validationError)
  | .ok () =>
    let s := { s with rateLimits := { s.rateLimits with
      roleOverride := s.rateLimits.roleOverride.set role config } }
    AdminAuditLog.logAction env s caller "set_role_rate_limit" "role" "" "updated"

def setAddressRateLimit (env : Env) (s : Storage) (caller address : Address)
    (config : RateLimitConfig) : Except Panic Storage := do
  requireAdminOrCapability env s caller .setRateLimits
  match RateLimiter.validateConfig config with
  | .error _ => throw (.withError .validationError)
  | .ok () =>
    let s := { s with rateLimits := { s.rateLimits with
      addressOverride := s.rateLimits.addressOverride.set address config } }
    AdminAuditLog.logAction env s caller "set_address_rate_limit" "address" "" "updated"

/-- The batch path's own limiter: five slots an entry, from the global configuration. -/
def batchRateMultiplier : UInt32 := 5

def chargeBatch (env : Env) (s : Storage) (caller : Address) (batchSize : UInt32) :
    Except Panic Storage := do
  let config := RateLimiter.getConfig s
  let slots := Word.saturatingMul32 batchSize batchRateMultiplier
  let currentLedger := env.sequence
  let state := RateLimiter.rollWindow (RateLimiter.storedState s caller currentLedger) currentLedger
    config.windowLength
  let count := Word.saturatingAdd32 state.submissionCount slots
  require (count ≤ config.maxSubmissions) (.withError .rateLimitExceeded)
  return { s with rateLimits := { s.rateLimits with
    state := s.rateLimits.state.set caller { state with submissionCount := count } } }

namespace RateLimiter

section Effects

variable {env : Env} {s s' : Storage} {attestor : Address} {config : RateLimitConfig}

def Valid (config : RateLimitConfig) : Prop := config.maxSubmissions ≠ 0 ∧ config.windowLength ≠ 0

theorem validateConfig_eq_ok {u : Unit} : validateConfig config = .ok u ↔ Valid config := by
  simp [validateConfig, Valid]

/-- The window in which a call at the current ledger would be counted. -/
def openWindow (env : Env) (s : Storage) (attestor : Address) (config : RateLimitConfig) :
    RateLimitState :=
  rollWindow (storedState s attestor env.sequence) env.sequence config.windowLength

theorem burstGate_frame (s : Storage) (attestor : Address) (currentLedger : UInt32) :
    ∃ burst, (burstGate s attestor currentLedger).1 =
      { s with rateLimits := { s.rateLimits with burstState := burst } } := by
  unfold burstGate
  cases s.rateLimits.burstConfig with
  | none => exact ⟨s.rateLimits.burstState, rfl⟩
  | some bc =>
    simp only [checkAndConsumeBurst]
    split
    · exact ⟨_, rfl⟩
    · exact ⟨_, rfl⟩

/-- What the fairness gate does to the shared window when it lets a request through. -/
def CountedInShared (env : Env) (s : Storage) (config : RateLimitConfig) (state : RateLimitState)
    (window : Option GlobalRateWindowState) : Prop :=
  match s.rateLimits.fairnessConfig with
  | none => window = s.rateLimits.globalWindow
  | some fairness =>
    let shared := getGlobalWindowState s config.windowLength env.sequence
    ∃ total count, shared.totalCount.toNat + 1 = total.toNat ∧
      state.submissionCount.toNat + 1 = count.toNat ∧
      exceedsShare fairness count total = false ∧
      window = some { shared with totalCount := total }

theorem fairnessGate_frame {state : RateLimitState} {r : Except AnchorKitError Unit}
    (h : fairnessGate s config state env.sequence = .ok (s', r)) :
    (r ≠ .ok () → s' = s) ∧ (r = .ok () → ∃ window, CountedInShared env s config state window ∧
      s' = { s with rateLimits := { s.rateLimits with globalWindow := window } }) := by
  unfold fairnessGate at h
  unfold CountedInShared
  cases hf : s.rateLimits.fairnessConfig with
  | none =>
    rw [hf] at h
    obtain ⟨rfl, rfl⟩ := Prod.mk.inj (Except.ok.inj h)
    exact ⟨fun hr => absurd rfl hr, fun _ => ⟨_, rfl, rfl⟩⟩
  | some fairness =>
    rw [hf] at h
    simp only [checkFairness, bind_eq_ok, add32_eq_ok] at h
    obtain ⟨total, htotal, count, hcount, h⟩ := h
    split at h
    · obtain ⟨rfl, rfl⟩ := Prod.mk.inj (pure_eq_ok.mp h)
      exact ⟨fun _ => rfl, fun hr => by cases hr⟩
    · rename_i hshare
      obtain ⟨rfl, rfl⟩ := Prod.mk.inj (pure_eq_ok.mp h)
      refine ⟨fun hr => absurd rfl hr, fun _ => ⟨_, ⟨total, count, htotal, hcount, ?_, rfl⟩, rfl⟩⟩
      exact Bool.eq_false_iff.mpr hshare

/-- An accepted call of a non-admin found room in its window, was counted there and, under
fairness control, in the shared window as well. -/
theorem checkAndIncrement_accepted (hadmin : s.access.admin ≠ some attestor)
    (h : checkAndIncrement env s attestor config = .ok (s', .ok ())) :
    (openWindow env s attestor config).submissionCount < config.maxSubmissions ∧
      ∃ burst window,
        CountedInShared env s config (openWindow env s attestor config) window ∧
        s' = { s with rateLimits := { s.rateLimits with
          burstState := burst
          globalWindow := window
          state := s.rateLimits.state.set attestor { openWindow env s attestor config with
            submissionCount := Word.saturatingAdd32
              (openWindow env s attestor config).submissionCount 1 } } } := by
  simp only [checkAndIncrement, if_neg hadmin] at h
  change (if _ ≤ (openWindow env s attestor config).submissionCount then _ else _) = _ at h
  split at h
  · cases h
  · rename_i hroom
    refine ⟨UInt32.not_le.mp hroom, ?_⟩
    obtain ⟨burst, hburst⟩ := burstGate_frame s attestor env.sequence
    rcases hg : burstGate s attestor env.sequence with ⟨t, r⟩
    rw [hg] at h hburst
    obtain rfl : t = _ := hburst
    cases r with
    | error e => cases h
    | ok u =>
      simp only [bind_eq_ok] at h
      obtain ⟨⟨t', r'⟩, hfair, h⟩ := h
      cases r' with
      | error e => cases h
      | ok u' =>
        obtain ⟨window, hwindow, rfl⟩ := (fairnessGate_frame hfair).2 rfl
        obtain ⟨rfl, -⟩ := Prod.mk.inj (pure_eq_ok.mp h)
        exact ⟨burst, window, hwindow, rfl⟩

/-- The admin bypass leaves a trace in the audit ring and nowhere else. -/
theorem checkAndIncrement_admin {r : Except AnchorKitError Unit}
    (hadmin : s.access.admin = some attestor)
    (h : checkAndIncrement env s attestor config = .ok (s', r)) :
    ∃ ring events, s' = { s with adminAudit := ring, events := events } := by
  simp only [checkAndIncrement, if_pos hadmin, bind_eq_ok] at h
  obtain ⟨t, hlog, h⟩ := h
  obtain ⟨rfl, -⟩ := Prod.mk.inj (pure_eq_ok.mp h)
  exact AdminAuditLog.logChange_frame hlog

/-- Without the two opt-in gates a non-admin is counted or turned away by its window alone. -/
theorem checkAndIncrement_plain (hadmin : s.access.admin ≠ some attestor)
    (hburst : s.rateLimits.burstConfig = none) (hfair : s.rateLimits.fairnessConfig = none) :
    checkAndIncrement env s attestor config =
      .ok (if config.maxSubmissions ≤ (openWindow env s attestor config).submissionCount then
        (s, .error windowExhausted)
      else
        ({ s with rateLimits := { s.rateLimits with
          state := s.rateLimits.state.set attestor { openWindow env s attestor config with
            submissionCount := Word.saturatingAdd32
              (openWindow env s attestor config).submissionCount 1 } } }, .ok ())) := by
  have hopen : burstGate s attestor env.sequence = (s, .ok ()) := by simp [burstGate, hburst]
  have hfairOpen (state : RateLimitState) :
      fairnessGate s config state env.sequence = .ok (s, .ok ()) := by simp [fairnessGate, hfair]
  simp only [checkAndIncrement, if_neg hadmin, hopen, hfairOpen]
  change (if _ ≤ (openWindow env s attestor config).submissionCount then _ else _) = _
  split
  · rfl
  · rfl

end Effects

end RateLimiter

section Effects

variable {env : Env} {s s' : Storage} {attestor : Address}

def effectiveConfig (s : Storage) (attestor : Address) : RateLimitConfig :=
  RateLimiter.resolveConfig s attestor (rateLimitRole s attestor)

theorem enforceRateLimit_eq_ok : enforceRateLimit env s attestor = .ok s' ↔
    RateLimiter.checkAndIncrement env s attestor (effectiveConfig s attestor) =
      .ok (s', .ok ()) := by
  simp only [enforceRateLimit, bind_eq_ok]
  constructor
  · rintro ⟨⟨t, r⟩, hc, h⟩
    cases r with
    | error e => cases h
    | ok u =>
      obtain rfl := pure_eq_ok.mp h
      exact hc
  · intro hc
    exact ⟨_, hc, rfl⟩

theorem enforceRateLimit_frame (h : enforceRateLimit env s attestor = .ok s') :
    ∃ limits ring events,
      s' = { s with rateLimits := limits, adminAudit := ring, events := events } := by
  rw [enforceRateLimit_eq_ok] at h
  by_cases hadmin : s.access.admin = some attestor
  · obtain ⟨ring, events, rfl⟩ := RateLimiter.checkAndIncrement_admin hadmin h
    exact ⟨_, _, _, rfl⟩
  · obtain ⟨_, _, _, _, rfl⟩ := RateLimiter.checkAndIncrement_accepted hadmin h
    exact ⟨_, _, _, rfl⟩

theorem chargeBatch_effects {batchSize : UInt32} (h : chargeBatch env s attestor batchSize = .ok s') :
    let state := RateLimiter.openWindow env s attestor (RateLimiter.getConfig s)
    let count := Word.saturatingAdd32 state.submissionCount
      (Word.saturatingMul32 batchSize batchRateMultiplier)
    count ≤ (RateLimiter.getConfig s).maxSubmissions ∧
      s' = { s with rateLimits := { s.rateLimits with
        state := s.rateLimits.state.set attestor { state with submissionCount := count } } } := by
  simp only [chargeBatch, bind_eq_ok, require_eq_ok, pure_eq_ok] at h
  obtain ⟨_, hroom, rfl⟩ := h
  exact ⟨hroom, rfl⟩

theorem RateLimiter.updateConfig_eq_ok {config : RateLimitConfig} :
    RateLimiter.updateConfig s attestor config = .ok s' ↔
      s.access.admin = some attestor ∧ RateLimiter.Valid config ∧
        s' = { s with rateLimits := { s.rateLimits with config := some config } } := by
  simp only [RateLimiter.updateConfig, bind_eq_ok, expect_eq_ok, require_eq_ok,
    RateLimiter.validateConfig_eq_ok, pure_eq_ok]
  constructor
  · rintro ⟨_, hadmin, _, rfl, _, hvalid, rfl⟩
    exact ⟨hadmin, hvalid, rfl⟩
  · rintro ⟨hadmin, hvalid, rfl⟩
    exact ⟨attestor, hadmin, (), rfl, (), hvalid, rfl⟩

theorem setRateLimitConfig_effects {maxSubmissions windowLength : UInt32}
    (h : setRateLimitConfig env s attestor maxSubmissions windowLength = .ok s') :
    RateLimiter.Valid ⟨maxSubmissions, windowLength⟩ ∧ s.access.admin = some attestor ∧
      ∃ ring events, s' = { s with
        rateLimits := { s.rateLimits with config := some ⟨maxSubmissions, windowLength⟩ }
        adminAudit := ring, events := events } := by
  simp only [setRateLimitConfig, bind_eq_ok] at h
  obtain ⟨_, _, h⟩ := h
  split at h
  · cases h
  · rename_i t ht
    obtain ⟨hadmin, hvalid, rfl⟩ := RateLimiter.updateConfig_eq_ok.mp ht
    obtain ⟨_, _, rfl⟩ := AdminAuditLog.logAction_frame h
    exact ⟨hvalid, hadmin, _, _, rfl⟩

theorem setRoleRateLimit_effects {role : String} {config : RateLimitConfig}
    (h : setRoleRateLimit env s attestor role config = .ok s') :
    RateLimiter.Valid config ∧ ∃ ring events, s' = { s with
      rateLimits := { s.rateLimits with
        roleOverride := s.rateLimits.roleOverride.set role config }
      adminAudit := ring, events := events } := by
  simp only [setRoleRateLimit, bind_eq_ok] at h
  obtain ⟨_, _, h⟩ := h
  split at h
  · cases h
  · rename_i hvalid
    obtain ⟨_, _, rfl⟩ := AdminAuditLog.logAction_frame h
    exact ⟨RateLimiter.validateConfig_eq_ok.mp hvalid, _, _, rfl⟩

theorem setAddressRateLimit_effects {address : Address} {config : RateLimitConfig}
    (h : setAddressRateLimit env s attestor address config = .ok s') :
    RateLimiter.Valid config ∧ ∃ ring events, s' = { s with
      rateLimits := { s.rateLimits with
        addressOverride := s.rateLimits.addressOverride.set address config }
      adminAudit := ring, events := events } := by
  simp only [setAddressRateLimit, bind_eq_ok] at h
  obtain ⟨_, _, h⟩ := h
  split at h
  · cases h
  · rename_i hvalid
    obtain ⟨_, _, rfl⟩ := AdminAuditLog.logAction_frame h
    exact ⟨RateLimiter.validateConfig_eq_ok.mp hvalid, _, _, rfl⟩

end Effects

end AnchorKit
