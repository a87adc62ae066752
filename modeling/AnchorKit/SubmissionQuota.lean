import AnchorKit.Contract
import AnchorKit.RateLimiterRuns

/-!
# The quota over all submission paths

Four paths take one slot of an attestor's window, decided by the configuration that overrides
resolve to; a batch takes five slots an entry, decided by the global configuration. All five
write the same window, so the slots taken in it stay within the limit when the two
configurations agree.
-/

namespace AnchorKit

open Fallible
open FixedWindow (Charge Tracks)
open RateLimiter (openWindow storedWindow chargeOf getConfig NoGates Valid)

/-- The gates are off and every stored configuration is one the setters accept. -/
structure RateLimitStore.Sound (st : RateLimitStore) : Prop where
  noBurst : st.burstConfig = none
  noFairness : st.fairnessConfig = none
  config_valid : ∀ config, st.config = some config → Valid config
  role_valid : ∀ role config, st.roleOverride.get role = some config → Valid config
  address_valid : ∀ a config, st.addressOverride.get a = some config → Valid config

theorem valid_getConfig {s : Storage} (h : s.rateLimits.Sound) : Valid (getConfig s) := by
  unfold getConfig
  cases hget : s.rateLimits.config with
  | none => exact ⟨by decide, by decide⟩
  | some config => exact h.config_valid config hget

/-- Whatever the overrides resolve to is a valid configuration. -/
theorem valid_effectiveConfig {s : Storage} (h : s.rateLimits.Sound) (a : Address) :
    Valid (effectiveConfig s a) := by
  unfold effectiveConfig RateLimiter.resolveConfig
  split
  · rename_i config hget
    exact h.address_valid a config hget
  · split
    · rename_i config hget
      obtain ⟨role, _, hrole⟩ := Option.bind_eq_some_iff.mp hget
      exact h.role_valid role config hrole
    · exact valid_getConfig h

def Call.slots : Call → Option (Address × UInt32)
  | .submitAttestation input | .submitAttestationKycCheck input _ | .submitWithRequestId _ input
  | .submitAttestationWithSession _ input => some (input.issuer, 1)
  | .submitAttestationBatch caller inputs =>
    if inputs = [] then none
    else some (caller,
      Word.saturatingMul32 (UInt32.ofNat inputs.length) batchRateMultiplier)
  | _ => none

def Call.heldTo (s : Storage) (a : Address) : Call → RateLimitConfig
  | .submitAttestationBatch _ _ => getConfig s
  | _ => effectiveConfig s a

/-- A window with `slots` more slots taken. -/
def RateLimitState.take (state : RateLimitState) (slots : UInt32) : RateLimitState :=
  { state with submissionCount := Word.saturatingAdd32 state.submissionCount slots }

/-- The limits after `slots` more slots were taken of the open window. -/
def takeSlots (env : Env) (s : Storage) (a : Address) (config : RateLimitConfig) (slots : UInt32) :
    RateLimitStore :=
  { s.rateLimits with
    state := s.rateLimits.state.set a ((openWindow env s a config).take slots) }

def Storage.setLimits (s : Storage) (st : RateLimitStore) : Storage := { s with rateLimits := st }

/-- The open window has room for `slots` more slots. -/
def HasSlots (env : Env) (s : Storage) (a : Address) (config : RateLimitConfig) (slots : UInt32) :
    Prop :=
  ((openWindow env s a config).take slots).submissionCount ≤ config.maxSubmissions

inductive LimitStep (env : Env) (s : Storage) : Call → RateLimitStore → Prop
  | frame {c : Call} {st : RateLimitStore} (hc : c.slots = none)
      (hstate : st.state = s.rateLimits.state) (hsound : st.Sound) : LimitStep env s c st
  | bypass {c : Call} {a : Address} {slots : UInt32} (hc : c.slots = some (a, slots))
      (hadmin : s.access.admin = some a) : LimitStep env s c s.rateLimits
  | take {c : Call} {a : Address} {slots : UInt32} (hc : c.slots = some (a, slots))
      (hroom : HasSlots env s a (c.heldTo s a) slots) :
      LimitStep env s c (takeSlots env s a (c.heldTo s a) slots)

instance (env : Env) (s : Storage) (a : Address) (config : RateLimitConfig) (slots : UInt32) :
    Decidable (HasSlots env s a config slots) := inferInstanceAs (Decidable (_ ≤ _))

section Single

variable {env : Env} {s t : Storage} {a : Address}

def AdmitsOne (env : Env) (s : Storage) (a : Address) : Prop :=
  (openWindow env s a (effectiveConfig s a)).submissionCount < (effectiveConfig s a).maxSubmissions

instance : Decidable (AdmitsOne env s a) := inferInstanceAs (Decidable (_ < _))

theorem enforceRateLimit_plain (hadmin : s.access.admin ≠ some a) (hsound : s.rateLimits.Sound) :
    enforceRateLimit env s a = if AdmitsOne env s a then
      .ok (s.setLimits (takeSlots env s a (effectiveConfig s a) 1))
      else .error (.withError .rateLimitExceeded) := by
  rw [enforceRateLimit_eq_submit, RateLimiter.submit]
  simp only
  rw [RateLimiter.checkAndIncrement_plain hadmin hsound.noBurst hsound.noFairness]
  by_cases hfull : (effectiveConfig s a).maxSubmissions ≤
      (openWindow env s a (effectiveConfig s a)).submissionCount
  · have hno : ¬ AdmitsOne env s a := UInt32.not_lt.mpr hfull
    rw [if_pos hfull, if_neg hno]
    rfl
  · have hyes : AdmitsOne env s a := UInt32.not_le.mp hfull
    rw [if_neg hfull, if_pos hyes]
    rfl

theorem enforceRateLimit_plain_eq_ok (hadmin : s.access.admin ≠ some a)
    (hsound : s.rateLimits.Sound) :
    enforceRateLimit env s a = .ok t ↔ AdmitsOne env s a ∧
      t = s.setLimits (takeSlots env s a (effectiveConfig s a) 1) := by
  rw [enforceRateLimit_plain hadmin hsound]
  by_cases h : AdmitsOne env s a
  · rw [if_pos h, Except.ok.injEq]
    exact ⟨fun heq => ⟨h, heq.symm⟩, fun heq => heq.2.symm⟩
  · rw [if_neg h]
    exact ⟨nofun, fun heq => absurd heq.1 h⟩

theorem hasSlots_of_admitsOne (h : AdmitsOne env s a) :
    HasSlots env s a (effectiveConfig s a) 1 := by
  have hlt := UInt32.lt_iff_toNat_lt.mp h
  rw [HasSlots, RateLimitState.take, UInt32.le_iff_toNat_le, Word.toNat_saturatingAdd32]
  have hone : (1 : UInt32).toNat = 1 := rfl
  omega

theorem count_takeOne (h : AdmitsOne env s a) :
    ((openWindow env s a (effectiveConfig s a)).take 1).submissionCount.toNat =
      (openWindow env s a (effectiveConfig s a)).submissionCount.toNat + 1 := by
  have hlt := UInt32.lt_iff_toNat_lt.mp h
  have hmax := (effectiveConfig s a).maxSubmissions.toNat_lt
  have hone : (1 : UInt32).toNat = 1 := rfl
  rw [RateLimitState.take, Word.toNat_saturatingAdd32]
  omega

theorem limits_of_enforce (hsound : s.rateLimits.Sound) (h : enforceRateLimit env s a = .ok t) :
    (s.access.admin = some a ∧ t.rateLimits = s.rateLimits) ∨
      (HasSlots env s a (effectiveConfig s a) 1 ∧
        t.rateLimits = takeSlots env s a (effectiveConfig s a) 1) := by
  by_cases hadmin : s.access.admin = some a
  · rw [enforceRateLimit_eq_ok] at h
    obtain ⟨_, _, rfl⟩ := RateLimiter.checkAndIncrement_admin hadmin h
    exact Or.inl ⟨hadmin, rfl⟩
  · obtain ⟨hadmits, rfl⟩ := (enforceRateLimit_plain_eq_ok hadmin hsound).mp h
    exact Or.inr ⟨hasSlots_of_admitsOne hadmits, rfl⟩

theorem limitStep_of_enforce {c : Call} {st : RateLimitStore} (hsound : s.rateLimits.Sound)
    (hc : c.slots = some (a, 1)) (hheld : c.heldTo s a = effectiveConfig s a)
    (h : enforceRateLimit env s a = .ok t) (hst : st = t.rateLimits) : LimitStep env s c st := by
  rcases limits_of_enforce hsound h with ⟨hadmin, hsame⟩ | ⟨hroom, htake⟩
  · rw [hst, hsame]
    exact .bypass hc hadmin
  · rw [hst, htake, ← hheld]
    rw [← hheld] at hroom
    exact .take hc hroom

end Single

theorem limit_step {host : Host} {s s' : Storage} {i : Input} (h : step host s i = .ok s')
    (hsound : s.rateLimits.Sound) : LimitStep i.1 s i.2 s'.rateLimits := by
  obtain ⟨env, c⟩ := i
  change invoke host env s c = .ok s' at h
  by_cases hc : .rateLimits ∈ c.touches
  · cases c with
    | submitAttestation input =>
      obtain ⟨_, h⟩ := fst_map_eq_ok.mp h
      obtain ⟨_, t, hlimit, _, _, rfl⟩ := submitAttestation_effects h
      exact limitStep_of_enforce hsound rfl rfl hlimit rfl
    | submitAttestationKycCheck input requireKyc =>
      obtain ⟨_, h⟩ := fst_map_eq_ok.mp h
      obtain ⟨_, t, hlimit, _, _, rfl⟩ := submitAttestationKycCheck_effects h
      exact limitStep_of_enforce hsound rfl rfl hlimit rfl
    | submitWithRequestId requestId input =>
      obtain ⟨_, h⟩ := fst_map_eq_ok.mp h
      obtain ⟨_, t, hlimit, _, _, _, rfl⟩ := submitWithRequestId_effects h
      exact limitStep_of_enforce hsound rfl rfl hlimit rfl
    | submitAttestationWithSession sessionId input =>
      obtain ⟨_, h⟩ := fst_map_eq_ok.mp h
      obtain ⟨_, _, r, t, hopen, hlimit, _, _, _, rfl⟩ := submitAttestationWithSession_effects h
      obtain ⟨_, session, _, _, rfl⟩ := requireSessionOpen_effects hopen
      -- opening the session writes nothing the limiter reads
      rcases limits_of_enforce (s := s.setSession sessionId _) hsound hlimit with
        ⟨hadmin, hsame⟩ | ⟨hroom, htake⟩
      · rw [show t.rateLimits = s.rateLimits from hsame]
        exact .bypass rfl hadmin
      · rw [show t.rateLimits = takeSlots env s input.issuer _ 1 from htake]
        exact .take rfl hroom
    | submitAttestationBatch caller inputs =>
      obtain ⟨_, h⟩ := fst_map_eq_ok.mp h
      obtain ⟨_, _, _, _, t, ht, rfl⟩ := submitAttestationBatch_effects h
      split at ht
      · rename_i hnil
        subst ht
        exact .frame (by simp [Call.slots, hnil]) rfl hsound
      · rename_i hne
        obtain ⟨hroom, rfl⟩ := chargeBatch_effects ht
        exact .take (by simp [Call.slots, hne]) hroom
    | setRateLimitConfig caller maxSubmissions windowLength =>
      obtain ⟨hvalid, _, _, _, rfl⟩ := setRateLimitConfig_effects h
      refine .frame rfl rfl { hsound with config_valid := fun config hget => ?_ }
      obtain rfl := Option.some.inj hget
      exact hvalid
    | setRoleRateLimit caller role config =>
      obtain ⟨hvalid, _, _, rfl⟩ := setRoleRateLimit_effects h
      refine .frame rfl rfl { hsound with role_valid := fun role' config' hget => ?_ }
      simp only [KeyedStore.get_set] at hget
      split at hget
      · obtain rfl := Option.some.inj hget
        exact hvalid
      · exact hsound.role_valid role' config' hget
    | setAddressRateLimit caller address config =>
      obtain ⟨hvalid, _, _, rfl⟩ := setAddressRateLimit_effects h
      refine .frame rfl rfl { hsound with address_valid := fun a config' hget => ?_ }
      simp only [KeyedStore.get_set] at hget
      split at hget
      · obtain rfl := Option.some.inj hget
        exact hvalid
      · exact hsound.address_valid a config' hget
    | _ => exact absurd hc (by simp [Call.touches])
  · have hnone : c.slots = none := by
      cases c with
      | submitAttestation _ => exact absurd hc (by simp [Call.touches])
      | submitAttestationKycCheck _ _ => exact absurd hc (by simp [Call.touches])
      | submitWithRequestId _ _ => exact absurd hc (by simp [Call.touches])
      | submitAttestationWithSession _ _ => exact absurd hc (by simp [Call.touches])
      | submitAttestationBatch _ _ => exact absurd hc (by simp [Call.touches])
      | _ => rfl
    have hsame := (invoke_sameOutside h).rateLimits_eq hc
    refine .frame hnone ?_ ?_
    · rw [hsame]
    · rw [hsame]
      exact hsound

theorem sound_of_limitStep {env : Env} {s : Storage} {c : Call} {st : RateLimitStore}
    (h : LimitStep env s c st) (hsound : s.rateLimits.Sound) : st.Sound := by
  cases h with
  | frame hc hstate hst => exact hst
  | bypass hc hadmin => exact hsound
  | take hc hroom => exact { hsound with }

/-- No reachable state has a gate or an invalid configuration. -/
theorem limits_sound_run (host : Host) (is : List Input) : (run host is).rateLimits.Sound :=
  Machine.invariant (step host) (fun s => s.rateLimits.Sound) (s := .empty)
    ⟨rfl, rfl, nofun, nofun, nofun⟩
    (fun _ _ _ hstep hpre => sound_of_limitStep (limit_step hstep hpre) hpre) is

/-- The charge a call makes to the attestor's window. -/
def chargeTo (a : Address) (t : Transition) : Option Charge :=
  match t.input.2.slots with
  | some (b, slots) => if b = a then some (chargeOf t.input.1 slots.toNat) else none
  | none => none

def chargesTo (past : List Transition) (a : Address) : List Charge := past.filterMap (chargeTo a)

/-- The slots taken of the attestor's window since the given ledger. -/
def slotsSince (past : List Transition) (a : Address) (ledger : UInt32) : Nat :=
  FixedWindow.spentFrom (chargesTo past a) ledger.toNat

/-- Calls that charge `a` charge it as a non-admin under the configuration `config`. -/
def HeldTo (config : RateLimitConfig) (a : Address) (t : Transition) : Prop :=
  ∀ charged ∈ t.input.2.slots, charged.1 = a →
    t.pre.access.admin ≠ some a ∧ t.input.2.heldTo t.pre a = config

instance (config : RateLimitConfig) (a : Address) (t : Transition) : Decidable (HeldTo config a t) :=
  inferInstanceAs (Decidable (∀ charged ∈ t.input.2.slots, charged.1 = a → _))

section Quota

variable {env : Env} {s : Storage} {a : Address} {config : RateLimitConfig} {slots : UInt32}

theorem count_takeSlots (hmax : config.maxSubmissions.toNat < 2 ^ 32 - 1)
    (hroom : HasSlots env s a config slots) :
    ((openWindow env s a config).take slots).submissionCount.toNat =
      (openWindow env s a config).submissionCount.toNat + slots.toNat := by
  have hle := UInt32.le_iff_toNat_le.mp hroom
  rw [RateLimitState.take, Word.toNat_saturatingAdd32] at hle ⊢
  omega

/-- Below the largest limit, taking slots is an admitted charge of the fixed window. -/
theorem admits_takeSlots (hmax : config.maxSubmissions.toNat < 2 ^ 32 - 1)
    (hroom : HasSlots env s a config slots) :
    FixedWindow.Admits config.quota (storedWindow s a) (chargeOf env slots.toNat) := by
  have hcount := count_takeSlots hmax hroom
  have hle := UInt32.le_iff_toNat_le.mp hroom
  rw [hcount] at hle
  rw [FixedWindow.Admits, chargeOf, ← RateLimiter.window_openWindow]
  exact hle

theorem window_takeSlots (hmax : config.maxSubmissions.toNat < 2 ^ 32 - 1)
    (hroom : HasSlots env s a config slots) :
    ((takeSlots env s a config slots).state.get a).map RateLimitState.window =
      some (FixedWindow.charged config.quota (storedWindow s a) (chargeOf env slots.toNat)) := by
  have hcount := count_takeSlots hmax hroom
  rw [FixedWindow.charged, chargeOf, ← RateLimiter.window_openWindow, takeSlots,
    KeyedStore.get_set_self, Option.map_some]
  rw [RateLimitState.window, hcount]
  rfl

end Quota

theorem chargesTo_snoc (past : List Transition) (t : Transition) (a : Address) :
    chargesTo (past ++ [t]) a = chargesTo past a ++ (chargeTo a t).toList := by
  rw [chargesTo, List.filterMap_append, chargesTo]
  cases h : chargeTo a t with
  | none => simp [h]
  | some c => simp [h]

theorem exists_of_mem_chargesTo {past : List Transition} {a : Address} {d : Charge}
    (hd : d ∈ chargesTo past a) :
    ∃ u ∈ past, ∃ slots, u.input.2.slots = some (a, slots) ∧ d = chargeOf u.input.1 slots.toNat := by
  obtain ⟨u, hu, hcharge⟩ := List.mem_filterMap.mp hd
  unfold chargeTo at hcharge
  cases hslots : u.input.2.slots with
  | none =>
    rw [hslots] at hcharge
    cases hcharge
  | some charged =>
    obtain ⟨b, slots⟩ := charged
    rw [hslots] at hcharge
    by_cases hb : b = a
    · rw [hb] at hslots
      exact ⟨u, hu, slots, hslots, (Option.some.inj ((if_pos hb).symm.trans hcharge)).symm⟩
    · cases (if_neg hb).symm.trans hcharge

theorem le_of_mem_chargesTo {past : List Transition} {a : Address} {now : UInt32}
    (h : ∀ u ∈ past, u.input.1.sequence ≤ now) : ∀ d ∈ chargesTo past a, d.now ≤ now.toNat := by
  intro d hd
  obtain ⟨u, hu, _, _, rfl⟩ := exists_of_mem_chargesTo hd
  exact UInt32.le_iff_toNat_le.mp (h u hu)

/-- A call that does not charge `a` keeps its window. -/
theorem tracks_of_other {config : RateLimitConfig} {past : List Transition} {t : Transition}
    {a : Address} {st : RateLimitStore} (hcharge : chargeTo a t = none)
    (hsame : st.state.get a = t.pre.rateLimits.state.get a)
    (h : Tracks config.quota (chargesTo past a) (storedWindow t.pre a)) :
    Tracks config.quota (chargesTo (past ++ [t]) a)
      ((st.state.get a).map RateLimitState.window) := by
  rw [chargesTo_snoc, hcharge, hsame, Option.toList_none, List.append_nil]
  exact h

theorem tracks_step {host : Host} {config : RateLimitConfig} {past : List Transition}
    {t : Transition} {a : Address} (ht : step host t.pre t.input = .ok t.post)
    (hmax : config.maxSubmissions.toNat < 2 ^ 32 - 1) (hsound : t.pre.rateLimits.Sound)
    (hheld : HeldTo config a t) (hmono : ∀ u ∈ past, u.input.1.sequence ≤ t.input.1.sequence)
    (h : Tracks config.quota (chargesTo past a) (storedWindow t.pre a)) :
    Tracks config.quota (chargesTo (past ++ [t]) a) (storedWindow t.post a) := by
  have hstep := limit_step ht hsound
  unfold storedWindow
  generalize hc : t.input.2 = c at hstep
  generalize t.post.rateLimits = st at hstep
  cases hstep with
  | frame hslots hstate _ =>
    refine tracks_of_other ?_ (by rw [hstate]) h
    rw [chargeTo, hc, hslots]
  | bypass hslots hadmin =>
    refine tracks_of_other ?_ rfl h
    rename_i b slots
    by_cases hb : b = a
    · subst hb
      exact absurd hadmin (hheld (b, slots) (hc ▸ hslots) rfl).1
    · rw [chargeTo, hc, hslots]
      exact if_neg hb
  | take hslots hroom =>
    rename_i b slots
    by_cases hb : b = a
    · subst hb
      have hconfig := (hheld (b, slots) (hc ▸ hslots) rfl).2
      rw [hc] at hconfig
      rw [hconfig] at hroom ⊢
      have hcharge : chargeTo b t = some (chargeOf t.input.1 slots.toNat) := by
        rw [chargeTo, hc, hslots]
        exact if_pos rfl
      rw [chargesTo_snoc, hcharge, window_takeSlots hmax hroom]
      exact h.charge (admits_takeSlots hmax hroom) (le_of_mem_chargesTo hmono)
    · refine tracks_of_other ?_ ?_ h
      · rw [chargeTo, hc, hslots]
        exact if_neg hb
      · exact KeyedStore.get_set_of_ne _ _ fun heq => hb heq.symm

theorem tracks_run {host : Host} {config : RateLimitConfig} {a : Address} {is : List Input}
    (hmax : config.maxSubmissions.toNat < 2 ^ 32 - 1)
    (hmono : is.Pairwise fun i j => i.1.sequence ≤ j.1.sequence)
    (hheld : ∀ t ∈ history host is, HeldTo config a t) :
    Tracks config.quota (chargesTo (history host is) a) (storedWindow (run host is) a) := by
  refine (Machine.guarded_history_invariant (step host)
    (fun past s => s.rateLimits.Sound ∧
      Tracks config.quota (chargesTo past a) (storedWindow s a))
    (fun past t => (∀ u ∈ past, u.input.1.sequence ≤ t.input.1.sequence) ∧ HeldTo config a t)
    (s := .empty) ⟨limits_sound_run host [], rfl⟩ ?_ is ?_).2
  · rintro past t ht ⟨hsound, htracks⟩ ⟨hle, hheldT⟩
    exact ⟨sound_of_limitStep (limit_step ht hsound) hsound,
      tracks_step ht hmax hsound hheldT hle htracks⟩
  · intro before t after hsplit
    refine ⟨Machine.atEachStep_of_pairwise (step host) hmono before t after hsplit, hheld t ?_⟩
    have hmem : t ∈ before ++ t :: after := List.mem_append_right _ List.mem_cons_self
    rwa [← hsplit] at hmem

theorem valid_heldTo {s : Storage} (h : s.rateLimits.Sound) (c : Call) (a : Address) :
    Valid (c.heldTo s a) := by
  unfold Call.heldTo
  split
  · exact valid_getConfig h
  · exact valid_effectiveConfig h a

/-- A configuration that some call was held to is one the setters accept. -/
theorem valid_of_charged {host : Host} {config : RateLimitConfig} {a : Address} {is : List Input}
    (hheld : ∀ t ∈ history host is, HeldTo config a t) {d : Charge}
    (hd : d ∈ chargesTo (history host is) a) : Valid config := by
  obtain ⟨u, hu, slots, hslots, _⟩ := exists_of_mem_chargesTo hd
  obtain ⟨js, _, _, hpre⟩ := Machine.exists_prefix_of_mem_transitions (step host) hu
  have hsound : u.pre.rateLimits.Sound := hpre ▸ limits_sound_run host js
  have hvalid := valid_heldTo hsound u.input.2 a
  rwa [(hheld u hu (a, slots) hslots rfl).2] at hvalid

theorem slots_within_limit {host : Host} {config : RateLimitConfig} {a : Address}
    {is : List Input} (hmax : config.maxSubmissions.toNat < 2 ^ 32 - 1)
    (hmono : is.Pairwise fun i j => i.1.sequence ≤ j.1.sequence)
    (hheld : ∀ t ∈ history host is, HeldTo config a t) (state : RateLimitState)
    (hget : (run host is).rateLimits.state.get a = some state) :
    state.submissionCount.toNat = slotsSince (history host is) a state.windowStartLedger ∧
      slotsSince (history host is) a state.windowStartLedger ≤ config.maxSubmissions.toNat := by
  have htracks := tracks_run hmax hmono hheld
  rw [storedWindow, hget] at htracks
  have hfaithful : FixedWindow.Faithful config.quota _ state.window := htracks
  obtain ⟨d, hd, _⟩ := hfaithful.opened
  have hvalid := valid_of_charged hheld hd
  have hlen : 0 < config.quota.length := by
    have hne : config.windowLength.toNat ≠ 0 := fun heq =>
      hvalid.2 (UInt32.toNat_inj.mp heq)
    exact Nat.pos_of_ne_zero hne
  have hlow := hfaithful.used_le_spent
  have hhigh := (hfaithful.tight hlen).spent_le
  have heq : state.window.used = slotsSince (history host is) a state.windowStartLedger :=
    Nat.le_antisymm hlow hhigh
  exact ⟨heq, heq ▸ hfaithful.used_le⟩

/-- `n` single submissions at one ledger, as far as the limiter is concerned. -/
def submitTimes (env : Env) (a : Address) : Nat → Storage → Except Panic Storage
  | 0, s => .ok s
  | n + 1, s => do
    let s ← enforceRateLimit env s a
    submitTimes env a n s

section Times

variable {env : Env} {s t : Storage} {a : Address} {config : RateLimitConfig}

/-- The open window is never an expired one. -/
theorem openWindow_live (env : Env) (s : Storage) (a : Address) (hvalid : Valid config) :
    RateLimiter.isWindowExpired env.sequence (openWindow env s a config).windowStartLedger
      config.windowLength = false := by
  unfold openWindow RateLimiter.rollWindow
  split
  · rw [Bool.eq_false_iff]
    intro hexpired
    have hle := RateLimiter.isWindowExpired_iff.mp hexpired
    rw [Nat.sub_self] at hle
    exact hvalid.2 (UInt32.toNat_inj.mp (Nat.le_zero.mp hle))
  · rename_i hlive
    exact Bool.eq_false_iff.mpr hlive

/-- Right after slots were taken the same window is open, that much fuller. -/
theorem openWindow_takeSlots (hvalid : Valid config) (slots : UInt32) :
    openWindow env (s.setLimits (takeSlots env s a config slots)) a config =
      (openWindow env s a config).take slots := by
  have hstored : RateLimiter.storedState (s.setLimits (takeSlots env s a config slots)) a
      env.sequence = (openWindow env s a config).take slots := by
    simp only [RateLimiter.storedState, Storage.setLimits, takeSlots, KeyedStore.get_set_self,
      Option.getD_some]
  rw [openWindow, hstored, RateLimiter.rollWindow]
  exact if_neg (Bool.eq_false_iff.mp (openWindow_live env s a hvalid))

theorem takeSlots_takeSlots (hvalid : Valid config) {k l m : UInt32}
    (hm : m.toNat = k.toNat + l.toNat) :
    takeSlots env (s.setLimits (takeSlots env s a config k)) a config l =
      takeSlots env s a config m := by
  have hsum (w : RateLimitState) : (w.take k).take l = w.take m := by
    rw [RateLimitState.take, RateLimitState.take, RateLimitState.take, RateLimitState.mk.injEq]
    refine ⟨?_, rfl⟩
    rw [← UInt32.toNat_inj, Word.toNat_saturatingAdd32, Word.toNat_saturatingAdd32,
      Word.toNat_saturatingAdd32, hm]
    omega
  rw [takeSlots, openWindow_takeSlots hvalid, hsum]
  simp only [takeSlots, Storage.setLimits, KeyedStore.set_set]

theorem toNat_ofNat_of_lt {n : Nat} (hn : n < 2 ^ 32) : (UInt32.ofNat n).toNat = n :=
  Nat.mod_eq_of_lt hn

/-- Some number of single submissions at one ledger take as many slots, or do not fit. -/
theorem submitTimes_eq_ok (n : Nat) (hn : n + 1 < 2 ^ 32) (hadmin : s.access.admin ≠ some a)
    (hsound : s.rateLimits.Sound) :
    submitTimes env a (n + 1) s = .ok t ↔
      (openWindow env s a (effectiveConfig s a)).submissionCount.toNat + (n + 1) ≤
        (effectiveConfig s a).maxSubmissions.toNat ∧
      t = s.setLimits (takeSlots env s a (effectiveConfig s a) (UInt32.ofNat (n + 1))) := by
  induction n generalizing s with
  | zero =>
    simp only [submitTimes, bind_eq_ok, enforceRateLimit_plain_eq_ok hadmin hsound]
    rw [AdmitsOne, UInt32.lt_iff_toNat_lt]
    constructor
    · rintro ⟨_, ⟨hlt, rfl⟩, h⟩
      exact ⟨hlt, (Except.ok.inj h).symm⟩
    · rintro ⟨hlt, rfl⟩
      exact ⟨_, ⟨hlt, rfl⟩, rfl⟩
  | succ n ih =>
    have hvalid := valid_effectiveConfig hsound a
    have hnext := ih (s := s.setLimits (takeSlots env s a (effectiveConfig s a) 1))
      (by omega) hadmin { hsound with }
    have hsame : effectiveConfig (s.setLimits (takeSlots env s a (effectiveConfig s a) 1)) a =
        effectiveConfig s a := rfl
    have hm : (UInt32.ofNat (n + 1 + 1)).toNat =
        (1 : UInt32).toNat + (UInt32.ofNat (n + 1)).toNat := by
      rw [toNat_ofNat_of_lt hn, toNat_ofNat_of_lt (by omega)]
      exact Nat.add_comm _ _
    rw [hsame, openWindow_takeSlots hvalid, takeSlots_takeSlots hvalid hm] at hnext
    rw [submitTimes]
    simp only [bind_eq_ok, enforceRateLimit_plain_eq_ok hadmin hsound]
    constructor
    · rintro ⟨_, ⟨hadmits, rfl⟩, h⟩
      obtain ⟨hle, rfl⟩ := hnext.mp h
      rw [count_takeOne hadmits] at hle
      refine ⟨?_, rfl⟩
      omega
    · rintro ⟨hle, rfl⟩
      have hadmits : AdmitsOne env s a := by
        rw [AdmitsOne, UInt32.lt_iff_toNat_lt]
        omega
      rw [count_takeOne hadmits] at hnext
      refine ⟨_, ⟨hadmits, rfl⟩, hnext.mpr ⟨?_, rfl⟩⟩
      omega

end Times

section Batch

variable {env : Env} {s t : Storage} {a : Address} {n : Nat}

/-- The slots a batch of `n` entries takes. -/
def batchSlots (n : Nat) : UInt32 := Word.saturatingMul32 (UInt32.ofNat n) batchRateMultiplier

theorem toNat_batchSlots (hn : n ≤ maxBatchSize) : (batchSlots n).toNat = 5 * n := by
  have hsmall : n ≤ 25 := hn
  have hfive : batchRateMultiplier.toNat = 5 := rfl
  rw [batchSlots, Word.toNat_saturatingMul32, toNat_ofNat_of_lt (by omega), hfive]
  omega

theorem chargeBatch_eq_ok :
    chargeBatch env s a (UInt32.ofNat n) = .ok t ↔
      HasSlots env s a (getConfig s) (batchSlots n) ∧
      t = s.setLimits (takeSlots env s a (getConfig s) (batchSlots n)) := by
  simp only [chargeBatch, bind_eq_ok, require_eq_ok, pure_eq_ok]
  constructor
  · rintro ⟨_, hroom, rfl⟩
    exact ⟨hroom, rfl⟩
  · rintro ⟨hroom, rfl⟩
    exact ⟨(), hroom, rfl⟩

/-- A batch of `n` entries is charged like `slots * n` single submissions at the same ledger. -/
def BatchLikeSingles (slots : Nat) (env : Env) (s : Storage) (a : Address) (n : Nat) : Prop :=
  ∀ t, chargeBatch env s a (UInt32.ofNat n) = .ok t ↔ submitTimes env a (slots * n) s = .ok t

theorem batchLikeSingles (hadmin : s.access.admin ≠ some a) (hsound : s.rateLimits.Sound)
    (hagree : getConfig s = effectiveConfig s a)
    (hmax : (effectiveConfig s a).maxSubmissions.toNat < 2 ^ 32 - 1) (hn : n ≤ maxBatchSize)
    (hpos : 0 < n) : BatchLikeSingles 5 env s a n := by
  intro t
  have hsmall : n ≤ 25 := hn
  have hslots := toNat_batchSlots hn
  obtain ⟨m, hm⟩ : ∃ m, 5 * n = m + 1 := ⟨5 * n - 1, by omega⟩
  have hsame : UInt32.ofNat (m + 1) = batchSlots n := by
    rw [← UInt32.toNat_inj, toNat_ofNat_of_lt (by omega), hslots, hm]
  rw [chargeBatch_eq_ok, hm, submitTimes_eq_ok m (by omega) hadmin hsound, hagree, hsame]
  apply and_congr_left
  intro _
  constructor
  · intro hroom
    have hcount := count_takeSlots hmax hroom
    have hle := UInt32.le_iff_toNat_le.mp hroom
    omega
  · intro hle
    rw [HasSlots, UInt32.le_iff_toNat_le, RateLimitState.take, Word.toNat_saturatingAdd32]
    omega

end Batch

def limited : Panic := .withError .rateLimitExceeded

section Verdict

variable {host : Host} {env : Env} {s : Storage} {a : Address} {input : AttestationInput}

theorem avoids_requireAuth : Avoids limited (a.requireAuth env) := avoids_require (by decide)

theorem avoids_checkAttestor : Avoids limited (checkAttestor s a) := by
  unfold checkAttestor
  split
  · exact nofun
  · split
    · exact avoids_error (by decide)
    · exact avoids_error (by decide)

theorem avoids_verifyAttestationSignature {payloadHash signature : Bytes} :
    Avoids limited (verifyAttestationSignature host s a payloadHash signature) := by
  unfold verifyAttestationSignature
  exact Avoids.bind (avoids_expect (by decide)) fun _ _ =>
    Avoids.bind (avoids_expect (by decide)) fun _ _ => avoids_require (by decide)

theorem avoids_checkTimestamp {timestamp : UInt64} : Avoids limited (checkTimestamp timestamp) :=
  avoids_require (by decide)

theorem avoids_add64 {x y : UInt64} : Avoids limited (add64 x y) := avoids_expect (by decide)

theorem avoids_rejectReplay {requestId : Bytes} :
    Avoids limited (ReplayDetection.rejectReplay env s requestId a) := by
  unfold ReplayDetection.rejectReplay ReplayDetection.recordReplayDetection
  apply Avoids.bind (Avoids.bind avoids_add64 fun _ _ => avoids_pure _)
  intro _ _
  exact avoids_error (by decide)

theorem avoids_checkNotUsed {payloadHash : Bytes} :
    Avoids limited (checkNotUsed env s a payloadHash) := by
  unfold checkNotUsed
  split
  · exact avoids_rejectReplay
  · exact nofun

theorem avoids_checkKyc {requireKyc : Bool} : Avoids limited (checkKyc env s a requireKyc) := by
  unfold checkKyc
  dsimp only
  split
  · generalize getKycStatusInternal env s a = status
    cases status <;> exact avoids_error (by decide)
  · exact nofun

theorem avoids_acceptAttestation : Avoids limited (acceptAttestation s input) := by
  unfold acceptAttestation nextAttestationId
  exact Avoids.bind (Avoids.bind (avoids_require (by decide)) fun _ _ => avoids_pure _)
    fun _ _ => avoids_pure _

theorem avoids_validateSession {session : Session} :
    Avoids limited (validateSession env session) := by
  unfold validateSession
  apply Avoids.bind (avoids_require (by decide))
  intro _ _
  split
  · exact avoids_error (by decide)
  · exact avoids_error (by decide)
  · exact avoids_error (by decide)
  · exact avoids_pure _
  · exact avoids_pure _

theorem avoids_requireSessionOpen {sessionId : UInt64} :
    Avoids limited (requireSessionOpen env s sessionId) := by
  unfold requireSessionOpen
  apply Avoids.bind (avoids_expect (by decide))
  intro session _
  apply Avoids.bind (avoids_require (by decide))
  intro _ _
  apply Avoids.bind avoids_validateSession
  intro _ _
  apply Avoids.bind (avoids_require (by decide))
  intro _ _
  split
  · exact avoids_pure _
  · exact avoids_pure _

theorem avoids_claimSessionRequest {sessionId : UInt64} {payloadHash : Bytes} :
    Avoids limited (claimSessionRequest env s sessionId a payloadHash) := by
  unfold claimSessionRequest
  split
  · exact Avoids.bind avoids_rejectReplay fun _ _ => avoids_pure _
  · exact avoids_pure _

theorem avoids_bumpSessionNonce {sessionId : UInt64} :
    Avoids limited (bumpSessionNonce s sessionId) := by
  unfold bumpSessionNonce
  exact Avoids.bind (avoids_expect (by decide)) fun _ _ =>
    Avoids.bind avoids_add64 fun _ _ => avoids_pure _

theorem avoids_recordSessionOperation {sessionId resultData : UInt64} {operationType : String} :
    Avoids limited (recordSessionOperation env s sessionId a operationType resultData) := by
  unfold recordSessionOperation nextAuditLogId
  apply Avoids.bind avoids_add64
  intro _ _
  exact Avoids.bind (Avoids.bind (avoids_expect (by decide)) fun _ _ => avoids_pure _)
    fun _ _ => avoids_pure _

theorem avoids_enforceRateLimit (hadmin : s.access.admin ≠ some a) (hsound : s.rateLimits.Sound)
    (hadmits : AdmitsOne env s a) : Avoids limited (enforceRateLimit env s a) := by
  rw [enforceRateLimit_plain hadmin hsound, if_pos hadmits]
  exact nofun

/-- With room in the limiter no single-slot path is rejected for its rate. -/
theorem avoids_submitAttestation (hadmin : s.access.admin ≠ some input.issuer)
    (hsound : s.rateLimits.Sound) (hadmits : AdmitsOne env s input.issuer) :
    Avoids limited (submitAttestation host env s input) := by
  unfold submitAttestation
  apply Avoids.bind avoids_requireAuth
  intro _ _
  apply Avoids.bind (avoids_require (by decide))
  intro _ _
  apply Avoids.bind avoids_checkAttestor
  intro _ _
  apply Avoids.bind avoids_verifyAttestationSignature
  intro _ _
  apply Avoids.bind avoids_checkTimestamp
  intro _ _
  apply Avoids.bind avoids_checkNotUsed
  intro _ _
  apply Avoids.bind (avoids_enforceRateLimit hadmin hsound hadmits)
  intro _ _
  exact Avoids.bind avoids_acceptAttestation fun _ _ => avoids_pure _

theorem avoids_submitAttestationKycCheck {requireKyc : Bool}
    (hadmin : s.access.admin ≠ some input.issuer)
    (hsound : s.rateLimits.Sound) (hadmits : AdmitsOne env s input.issuer) :
    Avoids limited (submitAttestationKycCheck host env s input requireKyc) := by
  unfold submitAttestationKycCheck
  apply Avoids.bind avoids_requireAuth
  intro _ _
  apply Avoids.bind avoids_checkAttestor
  intro _ _
  apply Avoids.bind avoids_verifyAttestationSignature
  intro _ _
  apply Avoids.bind avoids_checkTimestamp
  intro _ _
  apply Avoids.bind avoids_checkKyc
  intro _ _
  apply Avoids.bind avoids_checkNotUsed
  intro _ _
  apply Avoids.bind (avoids_enforceRateLimit hadmin hsound hadmits)
  intro _ _
  exact Avoids.bind avoids_acceptAttestation fun _ _ => avoids_pure _

theorem avoids_submitWithRequestId {requestId : RequestId}
    (hadmin : s.access.admin ≠ some input.issuer)
    (hsound : s.rateLimits.Sound) (hadmits : AdmitsOne env s input.issuer) :
    Avoids limited (submitWithRequestId host env s requestId input) := by
  unfold submitWithRequestId
  apply Avoids.bind avoids_requireAuth
  intro _ _
  apply Avoids.bind avoids_checkAttestor
  intro _ _
  apply Avoids.bind avoids_verifyAttestationSignature
  intro _ _
  apply Avoids.bind (avoids_enforceRateLimit hadmin hsound hadmits)
  intro _ _
  apply Avoids.bind avoids_checkTimestamp
  intro _ _
  apply Avoids.bind avoids_checkNotUsed
  intro _ _
  exact Avoids.bind avoids_acceptAttestation fun _ _ => avoids_pure _

theorem avoids_submitAttestationWithSession {sessionId : UInt64}
    (hadmin : s.access.admin ≠ some input.issuer)
    (hsound : s.rateLimits.Sound) (hadmits : AdmitsOne env s input.issuer) :
    Avoids limited (submitAttestationWithSession host env s sessionId input) := by
  unfold submitAttestationWithSession
  apply Avoids.bind avoids_requireAuth
  intro _ _
  apply Avoids.bind avoids_requireSessionOpen
  intro r hopen
  obtain ⟨_, session, _, _, rfl⟩ := requireSessionOpen_effects hopen
  apply Avoids.bind avoids_checkAttestor
  intro _ _
  apply Avoids.bind avoids_verifyAttestationSignature
  intro _ _
  -- opening the session writes nothing the limiter reads
  refine Avoids.bind (avoids_enforceRateLimit hadmin hsound hadmits) ?_
  intro _ _
  apply Avoids.bind avoids_checkTimestamp
  intro _ _
  apply Avoids.bind avoids_claimSessionRequest
  intro _ _
  apply Avoids.bind avoids_checkNotUsed
  intro _ _
  apply Avoids.bind avoids_acceptAttestation
  intro _ _
  apply Avoids.bind avoids_bumpSessionNonce
  intro _ _
  exact Avoids.bind avoids_recordSessionOperation fun _ _ => avoids_pure _

theorem avoids_checkBatchEntries {inputs : List AttestationInput} :
    Avoids limited (checkBatchEntries host s inputs) := by
  induction inputs with
  | nil => exact nofun
  | cons entry rest ih =>
    unfold checkBatchEntries
    apply Avoids.bind avoids_verifyAttestationSignature
    intro _ _
    apply Avoids.bind avoids_checkTimestamp
    intro _ _
    exact Avoids.bind (avoids_require (by decide)) fun _ _ => ih

theorem avoids_storeBatchEntries {inputs : List AttestationInput} :
    Avoids limited (storeBatchEntries s inputs) := by
  induction inputs generalizing s with
  | nil => exact nofun
  | cons entry rest ih =>
    unfold storeBatchEntries
    apply Avoids.bind avoids_acceptAttestation
    intro _ _
    exact Avoids.bind ih fun _ _ => avoids_pure _

theorem avoids_submitAttestationBatch {caller : Address} {inputs : List AttestationInput}
    {t : Storage} (hcharge : chargeBatch env s caller (UInt32.ofNat inputs.length) = .ok t) :
    Avoids limited (submitAttestationBatch host env s caller inputs) := by
  unfold submitAttestationBatch
  apply Avoids.bind avoids_requireAuth
  intro _ _
  apply Avoids.bind avoids_checkAttestor
  intro _ _
  apply Avoids.bind (avoids_require (by decide))
  intro _ _
  split
  · exact avoids_pure _
  · apply Avoids.bind (by rw [hcharge]; exact nofun)
    intro _ _
    exact Avoids.bind avoids_checkBatchEntries fun _ _ => avoids_storeBatchEntries

end Verdict

/-- The attestor whose limiter a single-submission path consults. -/
def Call.submitsFor : Call → Option Address
  | .submitAttestation input | .submitAttestationKycCheck input _ | .submitWithRequestId _ input
  | .submitAttestationWithSession _ input => some input.issuer
  | _ => none

theorem avoids_fst_map {α β : Type} {x : Except Panic (α × β)} (h : Avoids limited x) :
    Avoids limited (Prod.fst <$> x) := by
  cases x with
  | error e => exact fun heq => h (congrArg _ (Except.error.inj heq))
  | ok p => exact nofun

theorem takeSlots_setSession (env : Env) (s : Storage) (a : Address) (sessionId : UInt64)
    (session : Session) :
    takeSlots env (s.setSession sessionId session) a
        (effectiveConfig (s.setSession sessionId session) a) 1 =
      takeSlots env s a (effectiveConfig s a) 1 := rfl

section Paths

variable {host : Host} {env : Env} {s s' : Storage} {a : Address} {c : Call}

/-- A path that goes through has passed the limiter and leaves the limits as the limiter does. -/
theorem enforced_of_ok (hadmin : s.access.admin ≠ some a) (hsound : s.rateLimits.Sound)
    (hc : c.submitsFor = some a) (h : step host s (env, c) = .ok s') :
    ∃ t, enforceRateLimit env s a = .ok t ∧ t.rateLimits = s'.rateLimits := by
  change invoke host env s c = .ok s' at h
  cases c with
  | submitAttestation input =>
    obtain rfl := Option.some.inj hc
    obtain ⟨_, h⟩ := fst_map_eq_ok.mp h
    obtain ⟨_, t, hlimit, _, _, rfl⟩ := submitAttestation_effects h
    exact ⟨t, hlimit, rfl⟩
  | submitAttestationKycCheck input requireKyc =>
    obtain rfl := Option.some.inj hc
    obtain ⟨_, h⟩ := fst_map_eq_ok.mp h
    obtain ⟨_, t, hlimit, _, _, rfl⟩ := submitAttestationKycCheck_effects h
    exact ⟨t, hlimit, rfl⟩
  | submitWithRequestId requestId input =>
    obtain rfl := Option.some.inj hc
    obtain ⟨_, h⟩ := fst_map_eq_ok.mp h
    obtain ⟨_, t, hlimit, _, _, _, rfl⟩ := submitWithRequestId_effects h
    exact ⟨t, hlimit, rfl⟩
  | submitAttestationWithSession sessionId input =>
    obtain rfl := Option.some.inj hc
    obtain ⟨_, h⟩ := fst_map_eq_ok.mp h
    obtain ⟨_, _, r, t, hopen, hlimit, _, _, _, rfl⟩ := submitAttestationWithSession_effects h
    obtain ⟨_, session, _, _, rfl⟩ := requireSessionOpen_effects hopen
    obtain ⟨hadmits, rfl⟩ :=
      (enforceRateLimit_plain_eq_ok (s := s.setSession sessionId _) hadmin hsound).mp hlimit
    have hadmitsHere : AdmitsOne env s input.issuer := hadmits
    exact ⟨s.setLimits (takeSlots env s input.issuer (effectiveConfig s input.issuer) 1),
      (enforceRateLimit_plain_eq_ok hadmin hsound).mpr ⟨hadmitsHere, rfl⟩,
      (takeSlots_setSession env s input.issuer sessionId _).symm⟩
  | _ => cases hc

/-- A path that is rejected for its rate is rejected by the limiter. -/
theorem enforced_of_limited (hadmin : s.access.admin ≠ some a) (hsound : s.rateLimits.Sound)
    (hc : c.submitsFor = some a) (h : step host s (env, c) = .error limited) :
    enforceRateLimit env s a = .error limited := by
  rw [enforceRateLimit_plain hadmin hsound]
  apply if_neg
  intro hadmits
  change invoke host env s c = .error limited at h
  cases c with
  | submitAttestation input =>
    obtain rfl := Option.some.inj hc
    exact avoids_fst_map (avoids_submitAttestation hadmin hsound hadmits) h
  | submitAttestationKycCheck input requireKyc =>
    obtain rfl := Option.some.inj hc
    exact avoids_fst_map (avoids_submitAttestationKycCheck hadmin hsound hadmits) h
  | submitWithRequestId requestId input =>
    obtain rfl := Option.some.inj hc
    exact avoids_fst_map (avoids_submitWithRequestId hadmin hsound hadmits) h
  | submitAttestationWithSession sessionId input =>
    obtain rfl := Option.some.inj hc
    exact avoids_fst_map (avoids_submitAttestationWithSession hadmin hsound hadmits) h
  | _ => cases hc

/-- A batch goes through the limiter, or is rejected by it, like five submissions an entry. -/
theorem batch_verdict {inputs : List AttestationInput} (hadmin : s.access.admin ≠ some a)
    (hsound : s.rateLimits.Sound) (hagree : getConfig s = effectiveConfig s a)
    (hmax : (effectiveConfig s a).maxSubmissions.toNat < 2 ^ 32 - 1) (hne : inputs ≠ []) :
    (∀ s', step host s (env, .submitAttestationBatch a inputs) = .ok s' →
        ∃ t, submitTimes env a (5 * inputs.length) s = .ok t ∧ t.rateLimits = s'.rateLimits) ∧
      (step host s (env, .submitAttestationBatch a inputs) = .error limited →
        ∀ t, submitTimes env a (5 * inputs.length) s ≠ .ok t) := by
  have hpos : 0 < inputs.length := List.length_pos_iff.mpr hne
  constructor
  · intro s' h
    obtain ⟨_, h⟩ := fst_map_eq_ok.mp h
    obtain ⟨_, hsize, _, _, t, ht, rfl⟩ := submitAttestationBatch_effects h
    rw [if_neg hne] at ht
    exact ⟨t, (batchLikeSingles hadmin hsound hagree hmax hsize hpos t).mp ht, rfl⟩
  · intro h t htimes
    by_cases hsize : inputs.length ≤ maxBatchSize
    · have hcharge := (batchLikeSingles hadmin hsound hagree hmax hsize hpos t).mpr htimes
      exact avoids_fst_map (avoids_submitAttestationBatch hcharge) h
    · refine avoids_fst_map ?_ h
      unfold submitAttestationBatch
      apply Avoids.bind avoids_requireAuth
      intro _ _
      apply Avoids.bind avoids_checkAttestor
      intro _ _
      apply Avoids.bind (avoids_require (by decide))
      intro _ hle
      exact absurd (require_eq_ok.mp hle) hsize

end Paths

/-- In every run in which the calls charging a non-admin attestor are held to one configuration
below the largest limit, the slots taken in its current window never exceed the limit. In the
state reached, every single path follows the verdict of the limiter, and a batch held to the
same configuration follows that of five single submissions an entry. -/
theorem submissions_share_quota (host : Host) (a : Address) (config : RateLimitConfig)
    (is : List Input) (hmax : config.maxSubmissions.toNat < 2 ^ 32 - 1)
    (hmono : is.Pairwise fun i j => i.1.sequence ≤ j.1.sequence)
    (hheld : ∀ t ∈ history host is, HeldTo config a t) :
    let s := run host is
    (∀ js, js <+: is → ∀ state, (run host js).rateLimits.state.get a = some state →
      slotsSince (history host js) a state.windowStartLedger = state.submissionCount.toNat ∧
        state.submissionCount ≤ config.maxSubmissions) ∧
    (s.access.admin ≠ some a → ∀ env,
      (∀ c, c.submitsFor = some a →
        (∀ s', step host s (env, c) = .ok s' →
          ∃ t, enforceRateLimit env s a = .ok t ∧ t.rateLimits = s'.rateLimits) ∧
        (step host s (env, c) = .error limited → enforceRateLimit env s a = .error limited)) ∧
      ∀ inputs, inputs ≠ [] → getConfig s = effectiveConfig s a →
        (effectiveConfig s a).maxSubmissions.toNat < 2 ^ 32 - 1 →
        (∀ s', step host s (env, .submitAttestationBatch a inputs) = .ok s' →
          ∃ t, submitTimes env a (5 * inputs.length) s = .ok t ∧ t.rateLimits = s'.rateLimits) ∧
        (step host s (env, .submitAttestationBatch a inputs) = .error limited →
          ∀ t, submitTimes env a (5 * inputs.length) s ≠ .ok t)) := by
  have hsound := limits_sound_run host is
  refine ⟨?_, fun hadmin env => ⟨fun c hc => ⟨fun s' => enforced_of_ok hadmin hsound hc,
    enforced_of_limited hadmin hsound hc⟩, fun inputs hne hagree hmaxNow =>
    batch_verdict hadmin hsound hagree hmaxNow hne⟩⟩
  rintro js ⟨ks, rfl⟩ state hget
  have hjs : ∀ t ∈ history host js, HeldTo config a t := fun t ht =>
    hheld t ((Machine.transitions_mono (step host) (List.prefix_append js ks)).subset ht)
  obtain ⟨heq, hle⟩ := slots_within_limit hmax (List.pairwise_append.mp hmono).1 hjs state hget
  exact ⟨heq.symm, UInt32.le_iff_toNat_le.mpr (heq ▸ hle)⟩

namespace Demo

/-- `alice` submits one attestation and a batch of one. -/
def mixedSubmissions : List Input :=
  [deploy, openSession, sessionRegister alice 1,
    onLedger 1 (.submitAttestation (attestation alice 1 7)),
    onLedger 2 (.submitAttestationBatch alice [attestation alice 1 8])]

/-- A contract in which `alice` has not submitted anything yet. -/
def registered : Storage := run host [deploy, openSession, sessionRegister alice 1]

end Demo

/-- A single submission and a batch of one take six of the ten slots. -/
theorem submissions_share_quota_of_mixed :
    slotsSince (history Demo.host Demo.mixedSubmissions) Demo.alice 1 = (6 : UInt32).toNat ∧
      (6 : UInt32) ≤ 10 :=
  (submissions_share_quota Demo.host Demo.alice ⟨10, 100⟩ Demo.mixedSubmissions (by decide)
    (by decide) (by decide)).1 Demo.mixedSubmissions List.prefix_rfl ⟨6, 1⟩ (by decide)

/-- Three submissions fit into a limit of ten, a batch of three does not. -/
theorem batch_unlike_singles :
    ¬ BatchLikeSingles 1 ⟨1000, 1, []⟩ Demo.registered Demo.alice 3 := by
  intro h
  have hsound : Demo.registered.rateLimits.Sound := limits_sound_run Demo.host _
  have hsingles : submitTimes ⟨1000, 1, []⟩ Demo.alice 3 Demo.registered = .ok _ :=
    (submitTimes_eq_ok 2 (by decide) (by decide) hsound).mpr ⟨by decide, rfl⟩
  exact absurd (chargeBatch_eq_ok.mp ((h _).mpr hsingles)).1 (by decide)

end AnchorKit
