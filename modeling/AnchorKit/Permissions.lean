import AnchorKit.Contract
import AnchorKit.Library.Guarded

/-!
# Roles and capabilities

The documented tables map privileged operations to the roles and capabilities that allow them.
Each entry point checks its caller in its own way; a holder of a mapped grant can do what the
tables promise exactly when that check looks at the grant.
-/

namespace AnchorKit

open Fallible Guarded

inductive Grant
  | role (role : AdminRole)
  | capability (capability : AdminCapability)
deriving DecidableEq, Repr

def AccessStore.holds (st : AccessStore) (a : Address) : Grant → Bool
  | .role role => (st.roles.get (role, a)).getD false
  | .capability capability => (st.capabilities.get (capability, a)).getD false

def AccessStore.honours (st : AccessStore) (grants : List Grant) (a : Address) : Bool :=
  st.admin = some a || grants.any (st.holds a)

/-- The grants that the tables map an operation to; none for an operation outside the tables. The
entry point behind the tables' `unblacklist_anchor` is `remove_from_blacklist`. -/
def Call.grants : Call → List Grant
  | .upgrade _ => [.capability .upgradeContract]
  | .migrate _ _ => [.capability .migrateSchema]
  | .setCacheConfig _ => [.capability .setCacheConfig]
  | .registerAttestor _ _ _ _ | .revokeAttestor _ | .registerAttestorWithSession _ _ _ _
  | .revokeAttestorWithSession _ _ _ => [.role .attestorAdmin, .capability .manageAttestors]
  | .approveKyc _ _ | .rejectKyc _ _ _ => [.role .kycAdmin, .capability .manageKyc]
  | .cacheMetadata _ _ _ | .cacheMetadataSwr _ _ _ _ | .forceRefreshMetadata _ _ _ _
  | .refreshMetadataCache _ _ _ | .cacheCapabilities _ _ _ _ | .refreshCapabilitiesCache _ _ _ _ =>
    [.role .cacheAdmin, .capability .manageCacheEntries]
  | .refreshMetadataCacheSwr _ _ _ _ => [.role .cacheAdmin]
  | .enableService _ _ _ | .disableService _ _ _ | .snapshotServices _ _ _ _
  | .rollbackServices _ _ => [.capability .toggleServices]
  | .setRateLimitConfig _ _ _ | .setRoleRateLimit _ _ _ | .setAddressRateLimit _ _ _ =>
    [.capability .setRateLimits]
  | .setSep10JwtVerifyingKey _ _ | .rotateSep10Key _ _ | .setJwtMaxLen _ | .setJwtSkew _ =>
    [.capability .setJwtConfig]
  | .setAnchorMetadata _ _ _ _ _ _ | .reactivateAnchor _ | .blacklistAnchor _ _
  | .removeFromBlacklist _ => [.capability .manageAnchorMetadata]
  | _ => []

/-- The call with `caller` in the place of the address that asks for it, where it has one. -/
def Call.withCaller (caller : Address) : Call → Call
  | .registerAttestorWithSession _ sessionId attestor publicKey =>
    .registerAttestorWithSession caller sessionId attestor publicKey
  | .revokeAttestorWithSession _ sessionId attestor =>
    .revokeAttestorWithSession caller sessionId attestor
  | .approveKyc _ subject => .approveKyc caller subject
  | .rejectKyc _ subject reasonHash => .rejectKyc caller subject reasonHash
  | .enableService _ anchor serviceCode => .enableService caller anchor serviceCode
  | .disableService _ anchor serviceCode => .disableService caller anchor serviceCode
  | .snapshotServices _ anchor services description =>
    .snapshotServices caller anchor services description
  | .rollbackServices _ snapshotId => .rollbackServices caller snapshotId
  | .setRateLimitConfig _ maxSubmissions windowLength =>
    .setRateLimitConfig caller maxSubmissions windowLength
  | .setRoleRateLimit _ role config => .setRoleRateLimit caller role config
  | .setAddressRateLimit _ address config => .setAddressRateLimit caller address config
  | c => c

/-- The call as it runs in `s` for a caller and the authorizations it brings. -/
def operation (host : Host) (env : Env) (s : Storage) (c : Call) :
    Operation Address Panic Storage :=
  fun signers caller => step host s (env.signedBy signers, c.withCaller caller)

section History

/-- Whether a call gives `g` to `a`, takes it back, or does neither. -/
def Call.decides (a : Address) (g : Grant) : Call → Option Bool
  | .grantRole grantee role => if grantee = a ∧ .role role = g then some true else none
  | .revokeRole grantee role => if grantee = a ∧ .role role = g then some false else none
  | .grantCapability grantee cap => if grantee = a ∧ .capability cap = g then some true else none
  | .revokeCapability grantee cap => if grantee = a ∧ .capability cap = g then some false else none
  | _ => none

/-- Granted and not revoked since. -/
def heldAfter (past : List Transition) (a : Address) (g : Grant) : Bool :=
  past.foldl (fun held t => (t.input.2.decides a g).getD held) false

@[simp] theorem heldAfter_snoc {past : List Transition} {t : Transition} {a : Address} {g : Grant} :
    heldAfter (past ++ [t]) a g = (t.input.2.decides a g).getD (heldAfter past a g) := by
  simp [heldAfter]

theorem Call.decides_of_frame {c : Call} (h : Component.access ∉ c.touches) (a : Address)
    (g : Grant) : c.decides a g = none := by
  cases c <;> first | rfl | (exact absurd h (by simp [Call.touches]))

section Flags

variable {K : Type} [DecidableEq K] (flags : KeyedStore (K × Address) Bool) (k k' : K)
  (a a' : Address)

/-- Flags that are `written` under one key, and what a query of them answers. -/
theorem flag_write {flags' : KeyedStore (K × Address) Bool} {written : Option Bool}
    (hwrite : ∀ x, flags'.get x = if x = (k, a) then written else flags.get x) :
    (flags'.get (k', a')).getD false =
      (if a = a' ∧ k = k' then some (written.getD false) else none).getD
        ((flags.get (k', a')).getD false) := by
  rw [hwrite]
  by_cases hsame : a = a' ∧ k = k'
  · obtain ⟨rfl, rfl⟩ := hsame
    simp
  · have hother : (k', a') ≠ (k, a) := by
      intro heq
      exact hsame ⟨(Prod.mk.inj heq).2.symm, (Prod.mk.inj heq).1.symm⟩
    rw [if_neg hother, if_neg hsame, Option.getD_none]

theorem flag_set : ((flags.set (k, a) true).get (k', a')).getD false =
    (if a = a' ∧ k = k' then some true else none).getD ((flags.get (k', a')).getD false) :=
  flag_write flags k k' a a' (KeyedStore.get_set flags (k, a) · true)

theorem flag_remove : ((flags.remove (k, a)).get (k', a')).getD false =
    (if a = a' ∧ k = k' then some false else none).getD ((flags.get (k', a')).getD false) :=
  flag_write flags k k' a a' (KeyedStore.get_remove flags (k, a))

end Flags

theorem holds_step {host : Host} {s s' : Storage} {i : Input} (h : step host s i = .ok s')
    (a : Address) (g : Grant) :
    s'.access.holds a g = (i.2.decides a g).getD (s.access.holds a g) := by
  by_cases hframe : Component.access ∈ i.2.touches
  · obtain ⟨env, c⟩ := i
    cases c with
    | initializeContract admin =>
      obtain ⟨_, _, rfl⟩ := initializeContract_effects h
      cases g <;> rfl
    | proposeAdminTransfer newAdmin =>
      obtain ⟨_, rfl⟩ := proposeAdminTransfer_effects h
      cases g <;> rfl
    | acceptAdminTransfer =>
      obtain ⟨_, _, rfl⟩ := acceptAdminTransfer_effects h
      cases g <;> rfl
    | migrate newSchemaVersion batchSize =>
      obtain ⟨_, _, _, _, _, rfl⟩ := migrate_frame h
      cases g <;> rfl
    | grantRole grantee role =>
      obtain ⟨_, _, rfl⟩ := grantRole_effects h
      cases g with
      | role r =>
        simpa [Call.decides, AccessStore.holds] using flag_set s.access.roles role r grantee a
      | capability c => simp [Call.decides, AccessStore.holds]
    | revokeRole grantee role =>
      obtain ⟨_, _, rfl⟩ := revokeRole_effects h
      cases g with
      | role r =>
        simpa [Call.decides, AccessStore.holds] using flag_remove s.access.roles role r grantee a
      | capability c => simp [Call.decides, AccessStore.holds]
    | grantCapability grantee cap =>
      obtain ⟨_, _, rfl⟩ := grantCapability_effects h
      cases g with
      | role r => simp [Call.decides, AccessStore.holds]
      | capability c =>
        simpa [Call.decides, AccessStore.holds] using
          flag_set s.access.capabilities cap c grantee a
    | revokeCapability grantee cap =>
      obtain ⟨_, _, rfl⟩ := revokeCapability_effects h
      cases g with
      | role r => simp [Call.decides, AccessStore.holds]
      | capability c =>
        simpa [Call.decides, AccessStore.holds] using
          flag_remove s.access.capabilities cap c grantee a
    | _ => exact absurd hframe (by simp [Call.touches])
  · rw [Call.decides_of_frame hframe, (invoke_sameOutside h).access_eq hframe]
    rfl

/-- The store records exactly the grants that were made and not taken back. -/
theorem holds_run (host : Host) (is : List Input) (a : Address) (g : Grant) :
    (run host is).access.holds a g = heldAfter (history host is) a g := by
  refine Machine.history_invariant (step host)
    (fun past s => s.access.holds a g = heldAfter past a g) (fun _ => True) (s := .empty) ?_ ?_ is
    (fun _ _ => trivial)
  · cases g <;> rfl
  · intro past t ht hpast _
    rw [holds_step ht, hpast, heldAfter_snoc]

end History

/-- The checks entry points make of who is calling. -/
inductive Guard
  | admin
  | adminTwice
  | callerAdmin
  | registrar (attestor : Address)
  | anyOf (grants : List Grant)
deriving DecidableEq, Repr

def attestorManagers : List Grant := [.role .attestorAdmin, .capability .manageAttestors]

namespace Guard

def Passes (st : AccessStore) (g : Guard) : Check Address := fun signers caller =>
  match g with
  | .admin => ∃ admin, st.admin = some admin ∧ admin ∈ signers
  | .adminTwice => ∃ admin, st.admin = some admin ∧ admin ∈ signers ∧ admin ∈ signers.erase admin
  | .callerAdmin => st.admin = some caller ∧ caller ∈ signers
  | .registrar attestor =>
    if st.honours attestorManagers attestor = true then attestor ∈ signers
    else ∃ admin, st.admin = some admin ∧ admin ∈ signers
  | .anyOf grants => st.honours grants caller = true ∧ caller ∈ signers

/-- Whom the check lets through without anybody else's authorization. -/
def admits (st : AccessStore) (x : Address) : Guard → Bool
  | .admin | .adminTwice | .callerAdmin => st.admin = some x
  | .registrar attestor =>
    if st.honours attestorManagers attestor = true then attestor = x else st.admin = some x
  | .anyOf grants => st.honours grants x

theorem adminAlone_iff {st : AccessStore} {x : Address} :
    PassesAlone (fun signers _ => ∃ admin, st.admin = some admin ∧ admin ∈ signers) x ↔
      st.admin = some x := by
  constructor
  · rintro ⟨signers, hown, admin, hadmin, hmem⟩
    rw [hadmin, hown admin hmem]
  · intro hadmin
    exact ⟨[x], by simp, x, hadmin, by simp⟩

theorem passesAlone_iff {st : AccessStore} {g : Guard} {x : Address} :
    PassesAlone (g.Passes st) x ↔ g.admits st x = true := by
  cases g with
  | admin =>
    rw [admits, decide_eq_true_eq]
    exact adminAlone_iff
  | adminTwice =>
    constructor
    · rintro ⟨signers, hown, admin, hadmin, hmem, _⟩
      simp [admits, hadmin, hown admin hmem]
    · intro hadmin
      have hsame : st.admin = some x := by simpa [admits] using hadmin
      exact ⟨[x, x], by simp, x, hsame, by simp, by simp⟩
  | callerAdmin =>
    constructor
    · rintro ⟨signers, _, hadmin, _⟩
      simp [admits, hadmin]
    · intro hadmin
      have hsame : st.admin = some x := by simpa [admits] using hadmin
      exact ⟨[x], by simp, hsame, by simp⟩
  | registrar attestor =>
    cases hmanages : st.honours attestorManagers attestor with
    | false =>
      simp only [PassesAlone, Passes, admits, hmanages, Bool.false_eq_true, if_false,
        decide_eq_true_eq]
      exact adminAlone_iff
    | true =>
      simp only [PassesAlone, Passes, admits, hmanages, if_true, decide_eq_true_eq]
      constructor
      · rintro ⟨signers, hown, hmem⟩
        exact hown attestor hmem
      · rintro rfl
        exact ⟨[attestor], by simp, by simp⟩
  | anyOf grants =>
    constructor
    · rintro ⟨signers, _, hheld, _⟩
      exact hheld
    · intro hheld
      exact ⟨[x], by simp, hheld, by simp⟩

end Guard

/-- The check that each operation of the tables really makes. -/
def Call.guard : Call → Guard
  | .registerAttestor attestor _ _ _ => .registrar attestor
  | .registerAttestorWithSession _ _ _ _ | .revokeAttestorWithSession _ _ _ =>
    .anyOf [.role .attestorAdmin]
  | .approveKyc _ _ | .rejectKyc _ _ _ => .anyOf [.role .kycAdmin, .capability .manageKyc]
  | .enableService _ _ _ | .disableService _ _ _ | .snapshotServices _ _ _ _
  | .rollbackServices _ _ => .anyOf [.capability .toggleServices]
  | .setRateLimitConfig _ _ _ => .callerAdmin
  | .setRoleRateLimit _ _ _ | .setAddressRateLimit _ _ _ => .anyOf [.capability .setRateLimits]
  | .refreshMetadataCache _ _ _ | .refreshCapabilitiesCache _ _ _ _ => .adminTwice
  | _ => .admin

theorem mapped_of_honours {st : AccessStore} {grants mapped : List Grant} {x : Address}
    (h : st.honours grants x = true) (hsub : ∀ g ∈ grants, g ∈ mapped) :
    st.admin = some x ∨ ∃ g ∈ mapped, st.holds x g = true := by
  simp only [AccessStore.honours, Bool.or_eq_true, decide_eq_true_eq, List.any_eq_true] at h
  rcases h with h | ⟨g, hg, hheld⟩
  · exact Or.inl h
  · exact Or.inr ⟨g, hsub g hg, hheld⟩

/-- Every check stays within what the tables allow. -/
theorem mapped_of_admits {st : AccessStore} {x : Address} {c : Call}
    (h : c.guard.admits st x = true) : st.admin = some x ∨ ∃ g ∈ c.grants, st.holds x g = true := by
  have hadmin (hadmits : Guard.admin.admits st x = true) : st.admin = some x := by
    simpa [Guard.admits] using hadmits
  cases c with
  | registerAttestor attestor token issuer pk =>
    cases hmanages : st.honours attestorManagers attestor with
    | false =>
      simp only [Call.guard, Guard.admits, hmanages] at h
      exact Or.inl (hadmin h)
    | true =>
      simp only [Call.guard, Guard.admits, hmanages, if_true, decide_eq_true_eq] at h
      subst h
      exact mapped_of_honours hmanages fun g hg => hg
  | registerAttestorWithSession _ _ _ _ => exact mapped_of_honours h (by simp [Call.grants])
  | revokeAttestorWithSession _ _ _ => exact mapped_of_honours h (by simp [Call.grants])
  | approveKyc _ _ => exact mapped_of_honours h fun g hg => hg
  | rejectKyc _ _ _ => exact mapped_of_honours h fun g hg => hg
  | enableService _ _ _ => exact mapped_of_honours h fun g hg => hg
  | disableService _ _ _ => exact mapped_of_honours h fun g hg => hg
  | snapshotServices _ _ _ _ => exact mapped_of_honours h fun g hg => hg
  | rollbackServices _ _ => exact mapped_of_honours h fun g hg => hg
  | setRoleRateLimit _ _ _ => exact mapped_of_honours h fun g hg => hg
  | setAddressRateLimit _ _ _ => exact mapped_of_honours h fun g hg => hg
  | _ => exact Or.inl (hadmin h)

section Checks

variable {env : Env} {s : Storage} {caller : Address}

theorem succeeds_requireAdmin : Succeeds (requireAdmin env s) ↔
    ∃ admin, s.access.admin = some admin ∧ admin ∈ env.authorized := by
  simp [Succeeds]

/-- A second check of the admin in the same call needs a second authorization. -/
theorem succeeds_requireAdmin_spent : Succeeds (requireAdmin (env.spendAdmin s) s) ↔
    ∃ admin, s.access.admin = some admin ∧ admin ∈ env.authorized.erase admin := by
  rw [succeeds_requireAdmin]
  cases hadmin : s.access.admin <;> simp [Env.spendAdmin, Env.signedBy, hadmin]

theorem succeeds_requireAdminOrRole {role : AdminRole} :
    Succeeds (requireAdminOrRole env s caller role) ↔
      s.access.honours [.role role] caller = true ∧ caller ∈ env.authorized := by
  simp [Succeeds, hasRoleInternal, AccessStore.honours, AccessStore.holds]

theorem succeeds_requireAdminOrCapability {cap : AdminCapability} :
    Succeeds (requireAdminOrCapability env s caller cap) ↔
      s.access.honours [.capability cap] caller = true ∧ caller ∈ env.authorized := by
  simp [Succeeds, hasCapabilityInternal, AccessStore.honours, AccessStore.holds]

theorem roleOrCapability_eq_honours (role : AdminRole) (cap : AdminCapability) :
    (hasRoleInternal s caller role || hasCapabilityInternal s caller cap) =
      s.access.honours [.role role, .capability cap] caller := by
  cases hadmin : decide (s.access.admin = some caller) <;>
    simp [hasRoleInternal, hasCapabilityInternal, AccessStore.honours, AccessStore.holds, hadmin]

theorem succeeds_requireKycReviewer : Succeeds (requireKycReviewer env s caller) ↔
    s.access.honours [.role .kycAdmin, .capability .manageKyc] caller = true ∧
      caller ∈ env.authorized := by
  rw [← roleOrCapability_eq_honours]
  simp [Succeeds, requireKycReviewer]

theorem succeeds_requireRegistrar {attestor : Address} :
    Succeeds (requireRegistrar env s attestor) ↔
      (Guard.registrar attestor).Passes s.access env.authorized caller := by
  unfold requireRegistrar Guard.Passes
  rw [roleOrCapability_eq_honours]
  cases hmanages : s.access.honours attestorManagers attestor with
  | false =>
    have hunmanaged := hmanages
    unfold attestorManagers at hunmanaged
    simp only [hunmanaged, hmanages, Bool.false_eq_true, if_false]
    exact succeeds_requireAdmin
  | true =>
    have hmanaged := hmanages
    unfold attestorManagers at hmanaged
    simp only [hmanaged, hmanages, if_true]
    simp [Succeeds]

theorem guardedBy_admin (env : Env) (s : Storage) {α : Type} {op : Operation Address Panic α}
    (body : List Address → Except Panic α)
    (hop : ∀ signers caller, op signers caller =
      (do requireAdmin (env.signedBy signers) s; body signers))
    (hbody : ∀ signers signers', Succeeds (body signers') → Succeeds (body signers)) :
    GuardedBy op (Guard.admin.Passes s.access) :=
  GuardedBy.of_check (fun signers _ => requireAdmin (env.signedBy signers) s)
    (fun signers _ => body signers) hop (fun _ _ => succeeds_requireAdmin)
    (fun signers _ signers' _ => hbody signers signers')

theorem guardedBy_capability (env : Env) (s : Storage) (cap : AdminCapability) {α : Type}
    {op : Operation Address Panic α} (body : Operation Address Panic α)
    (hop : ∀ signers caller, op signers caller =
      (do requireAdminOrCapability (env.signedBy signers) s caller cap; body signers caller))
    (hbody : ∀ signers caller signers' caller', Succeeds (body signers' caller') →
      Succeeds (body signers caller)) :
    GuardedBy op ((Guard.anyOf [.capability cap]).Passes s.access) :=
  GuardedBy.of_check
    (fun signers caller => requireAdminOrCapability (env.signedBy signers) s caller cap) body hop
    (fun _ _ => succeeds_requireAdminOrCapability) hbody

theorem guardedBy_role (env : Env) (s : Storage) (role : AdminRole) {α : Type}
    {op : Operation Address Panic α} (body : Operation Address Panic α)
    (hop : ∀ signers caller, op signers caller =
      (do requireAdminOrRole (env.signedBy signers) s caller role; body signers caller))
    (hbody : ∀ signers caller signers' caller', Succeeds (body signers' caller') →
      Succeeds (body signers caller)) :
    GuardedBy op ((Guard.anyOf [.role role]).Passes s.access) :=
  GuardedBy.of_check
    (fun signers caller => requireAdminOrRole (env.signedBy signers) s caller role) body hop
    (fun _ _ => succeeds_requireAdminOrRole) hbody

theorem guardedBy_kycReviewer (env : Env) (s : Storage) {α : Type}
    {op : Operation Address Panic α} (body : Operation Address Panic α)
    (hop : ∀ signers caller, op signers caller =
      (do requireKycReviewer (env.signedBy signers) s caller; body signers caller))
    (hbody : ∀ signers caller signers' caller', Succeeds (body signers' caller') →
      Succeeds (body signers caller)) :
    GuardedBy op ((Guard.anyOf [.role .kycAdmin, .capability .manageKyc]).Passes s.access) :=
  GuardedBy.of_check
    (fun signers caller => requireKycReviewer (env.signedBy signers) s caller) body hop
    (fun _ _ => succeeds_requireKycReviewer) hbody

theorem guardedBy_adminTwice (env : Env) (s : Storage) {op : Operation Address Panic Storage}
    (body : List Address → Except Panic Storage) (finish : List Address → Storage → Storage)
    (hop : ∀ signers caller, op signers caller = (do
      requireAdmin (env.signedBy signers) s
      let t ← (do requireAdmin ((env.signedBy signers).spendAdmin s) s; body signers)
      return finish signers t))
    (hbody : ∀ signers signers', Succeeds (body signers') → Succeeds (body signers)) :
    GuardedBy op (Guard.adminTwice.Passes s.access) := by
  have hinner : GuardedBy (fun signers (_ : Address) => (do
      let t ← (do requireAdmin ((env.signedBy signers).spendAdmin s) s; body signers)
      return finish signers t))
      (fun signers _ => ∃ admin, s.access.admin = some admin ∧ admin ∈ signers.erase admin) := by
    refine GuardedBy.of_succeeds ?_ fun _ _ => succeeds_bind_pure
    exact GuardedBy.of_check _ (fun signers _ => body signers) (fun _ _ => rfl)
      (fun _ _ => succeeds_requireAdmin_spent) fun signers _ signers' _ => hbody signers signers'
  refine GuardedBy.check _ hinner hop (fun _ _ => succeeds_requireAdmin) fun signers _ => ?_
  constructor
  · rintro ⟨admin, hadmin, hfirst, hsecond⟩
    exact ⟨⟨admin, hadmin, hfirst⟩, admin, hadmin, hsecond⟩
  · rintro ⟨⟨admin, hadmin, hfirst⟩, admin', hadmin', hsecond⟩
    obtain rfl := Option.some.inj (hadmin.symm.trans hadmin')
    exact ⟨admin, hadmin, hfirst, hsecond⟩

/-- The capability is checked first, but only the admin gets past the limiter's own check. -/
theorem succeeds_setRateLimitConfig {maxSubmissions windowLength : UInt32} :
    Succeeds (setRateLimitConfig env s caller maxSubmissions windowLength) ↔
      (s.access.admin = some caller ∧ caller ∈ env.authorized) ∧
        RateLimiter.Valid ⟨maxSubmissions, windowLength⟩ ∧ AdminAuditLog.Writable s := by
  unfold setRateLimitConfig
  rw [succeeds_bind]
  constructor
  · rintro ⟨u, hcheck, h⟩
    obtain ⟨_, hsigned⟩ := succeeds_requireAdminOrCapability.mp ⟨u, hcheck⟩
    split at h
    · exact absurd h (not_succeeds_error _)
    · rename_i t ht
      obtain ⟨hadmin, hvalid, rfl⟩ := RateLimiter.updateConfig_eq_ok.mp ht
      have hwritable := AdminAuditLog.succeeds_logAction.mp h
      exact ⟨⟨hadmin, hsigned⟩, hvalid, hwritable⟩
  · rintro ⟨⟨hadmin, hsigned⟩, hvalid, hwritable⟩
    have hhonoured : s.access.honours [.capability .setRateLimits] caller = true := by
      simp [AccessStore.honours, hadmin]
    obtain ⟨u, hcheck⟩ := succeeds_requireAdminOrCapability.mpr ⟨hhonoured, hsigned⟩
    refine ⟨u, hcheck, ?_⟩
    rw [RateLimiter.updateConfig_eq_ok.mpr ⟨hadmin, hvalid, rfl⟩]
    apply AdminAuditLog.succeeds_logAction.mpr
    exact hwritable

end Checks

section Bodies

variable {env : Env} {s : Storage} {caller caller' : Address}

theorem succeeds_recordSessionOperation {sessionId resultData : UInt64} {operationType : String}
    (h : Succeeds (recordSessionOperation env s sessionId caller' operationType resultData)) :
    Succeeds (recordSessionOperation env s sessionId caller operationType resultData) := by
  simp only [recordSessionOperation, nextAuditLogId, succeeds_bind, succeeds_pure] at h ⊢
  exact h

theorem succeeds_logAction {changeType target oldValue newValue : String}
    (h : Succeeds (AdminAuditLog.logAction env s caller' changeType target oldValue newValue)) :
    Succeeds (AdminAuditLog.logAction env s caller changeType target oldValue newValue) := by
  rw [AdminAuditLog.succeeds_logAction] at h ⊢
  exact h

theorem succeeds_reviewKyc {subject : Address} {next : KycStatus}
    {change : KycRecord → Except Panic KycRecord} {changeType oldValue newValue : String}
    (h : Succeeds (reviewKyc env s caller' subject next change changeType oldValue newValue)) :
    Succeeds (reviewKyc env s caller subject next change changeType oldValue newValue) := by
  simp only [reviewKyc, succeeds_bind, succeeds_pure, and_true] at h ⊢
  obtain ⟨record, hrecord, u, hedge, changed, hchange, hlog⟩ := h
  exact ⟨record, hrecord, u, hedge, changed, hchange, succeeds_logAction hlog⟩

theorem succeeds_finishToggle {result : Storage × Bool} {anchor : Address}
    {changeType oldValue newValue : String}
    (h : Succeeds (finishToggle env result caller' anchor changeType oldValue newValue)) :
    Succeeds (finishToggle env result caller anchor changeType oldValue newValue) := by
  obtain ⟨s, changed⟩ := result
  simp only [finishToggle, succeeds_bind] at h ⊢
  obtain ⟨t, hlog, _⟩ := h
  obtain ⟨t', hlog'⟩ := succeeds_logAction ⟨t, hlog⟩
  refine ⟨t', hlog', ?_⟩
  split
  · exact succeeds_pure _
  · exact succeeds_pure _

/-- An override is validated and logged; where it is stored makes no difference. -/
theorem succeeds_override {config : RateLimitConfig} {t : Storage}
    {changeType target oldValue newValue : String}
    (h : Succeeds (match RateLimiter.validateConfig config with
      | .error _ => throw (.withError .validationError)
      | .ok () => AdminAuditLog.logAction env t caller' changeType target oldValue newValue)) :
    Succeeds (match RateLimiter.validateConfig config with
      | .error _ => throw (.withError .validationError)
      | .ok () => AdminAuditLog.logAction env t caller changeType target oldValue newValue) := by
  cases hvalid : RateLimiter.validateConfig config with
  | error _ =>
    rw [hvalid] at h
    exact absurd h (not_succeeds_error _)
  | ok _ =>
    rw [hvalid] at h
    exact succeeds_logAction h

theorem succeeds_inSession {α β : Type} {opened : Except Panic α} {checked : α → Except Panic β}
    {next : α → β → Storage} {finish finish' : α → β → Storage × UInt64 × UInt64 → Storage}
    {sessionId resultData : UInt64} {operationType : String}
    (h : Succeeds (do
      let t ← opened
      let u ← checked t
      let p ← recordSessionOperation env (next t u) sessionId caller' operationType resultData
      return finish' t u p)) :
    Succeeds (do
      let t ← opened
      let u ← checked t
      let p ← recordSessionOperation env (next t u) sessionId caller operationType resultData
      return finish t u p) := by
  simp only [succeeds_bind] at h ⊢
  obtain ⟨t, hopen, u, hfree, p, hrecord, _⟩ := h
  obtain ⟨q, hq⟩ := succeeds_recordSessionOperation ⟨p, hrecord⟩
  exact ⟨t, hopen, u, hfree, q, hq, succeeds_pure _⟩

end Bodies

/-- The operations of the tables make the check of `Call.guard` and nothing else of who calls. -/
theorem guardedBy_operation (host : Host) (env : Env) (s : Storage) {c : Call}
    (hmapped : c.grants ≠ []) : GuardedBy (operation host env s c) (c.guard.Passes s.access) := by
  change GuardedBy
    (fun signers caller => invoke host (env.signedBy signers) s (c.withCaller caller))
    (c.guard.Passes s.access)
  cases c with
  | upgrade _ | migrate _ _ =>
    refine GuardedBy.require ?_ fun _ _ => rfl
    exact guardedBy_admin env s _ (fun _ _ => rfl) fun _ _ h => h
  | setCacheConfig _ | setSep10JwtVerifyingKey _ _ | rotateSep10Key _ _ | setJwtMaxLen _
  | setJwtSkew _ | revokeAttestor _ | cacheMetadata _ _ _ | cacheMetadataSwr _ _ _ _
  | forceRefreshMetadata _ _ _ _ | refreshMetadataCacheSwr _ _ _ _ | cacheCapabilities _ _ _ _
  | setAnchorMetadata _ _ _ _ _ _ | reactivateAnchor _ | blacklistAnchor _ _
  | removeFromBlacklist _ => exact guardedBy_admin env s _ (fun _ _ => rfl) fun _ _ h => h
  | registerAttestor attestor _ _ _ =>
    refine GuardedBy.require ?_ fun _ _ => rfl
    exact GuardedBy.of_check (fun signers _ => requireRegistrar (env.signedBy signers) s attestor)
      _ (fun _ _ => rfl) (fun _ _ => succeeds_requireRegistrar) fun _ _ _ _ h => h
  | registerAttestorWithSession _ _ _ _ | revokeAttestorWithSession _ _ _ =>
    exact guardedBy_role env s .attestorAdmin _ (fun _ _ => rfl) fun _ _ _ _ => succeeds_inSession
  | approveKyc _ _ | rejectKyc _ _ _ =>
    exact guardedBy_kycReviewer env s _ (fun _ _ => rfl) fun _ _ _ _ => succeeds_reviewKyc
  | refreshMetadataCache _ _ _ | refreshCapabilitiesCache _ _ _ _ =>
    exact guardedBy_adminTwice env s _ _ (fun _ _ => rfl) fun _ _ h => h
  | enableService _ _ _ | disableService _ _ _ =>
    refine GuardedBy.of_succeeds ?_ fun _ _ => succeeds_map
    exact guardedBy_capability env s .toggleServices _ (fun _ _ => rfl)
      fun _ _ _ _ => succeeds_finishToggle
  | snapshotServices _ anchor services description =>
    refine GuardedBy.of_succeeds ?_ fun _ _ => succeeds_map
    refine guardedBy_capability env s .toggleServices _ (fun _ _ => rfl) fun _ _ _ _ h => ?_
    obtain ⟨created, hcreated, h⟩ := succeeds_bind.mp h
    refine succeeds_bind.mpr ⟨created, hcreated, ?_⟩
    cases created with
    | error _ => exact absurd h (not_succeeds_error _)
    | ok p => exact succeeds_bind_pure.mpr (succeeds_logAction (succeeds_bind_pure.mp h))
  | rollbackServices _ snapshotId =>
    refine GuardedBy.of_succeeds ?_ fun _ _ => succeeds_map
    refine guardedBy_capability env s .toggleServices _ (fun _ _ => rfl) fun _ _ _ _ h => ?_
    exact succeeds_bind_pure.mpr (succeeds_logAction (succeeds_bind_pure.mp h))
  | setRateLimitConfig _ _ _ => exact GuardedBy.of_iff fun _ _ => succeeds_setRateLimitConfig
  | setRoleRateLimit _ _ _ | setAddressRateLimit _ _ _ =>
    exact guardedBy_capability env s .setRateLimits _ (fun _ _ => rfl)
      fun _ _ _ _ => succeeds_override
  | _ => exact absurd rfl hmapped

/-- The tables at one address and one call: whoever holds a mapped grant can do what is possible
at all, and only the admin and such holders can. -/
structure TableMet (host : Host) (env : Env) (past : List Transition) (s : Storage) (x : Address)
    (c : Call) : Prop where
  allowed : (∃ g ∈ c.grants, heldAfter past x g = true) → Performs (operation host env s c) x
  only : Performs (operation host env s c) x →
    s.access.admin = some x ∨ ∃ g ∈ c.grants, heldAfter past x g = true

/-- In every reachable state, the tables hold for an address and a possible operation exactly when
the operation's own check admits the address or it holds no mapped grant. -/
theorem table_met_iff (host : Host) (is : List Input) (env : Env) (x : Address) (c : Call)
    (hmapped : c.grants ≠ []) (hpossible : Possible (operation host env (run host is) c)) :
    TableMet host env (history host is) (run host is) x c ↔
      ((∃ g ∈ c.grants, heldAfter (history host is) x g = true) →
        c.guard.admits (run host is).access x = true) := by
  have hperforms : Performs (operation host env (run host is) c) x ↔
      c.guard.admits (run host is).access x = true := by
    rw [(guardedBy_operation host env (run host is) hmapped).performs_iff, Guard.passesAlone_iff]
    exact and_iff_right hpossible
  constructor
  · intro hmet hheld
    exact hperforms.mp (hmet.allowed hheld)
  · intro hadmits
    refine ⟨fun hheld => hperforms.mpr (hadmits hheld), fun hdone => ?_⟩
    have hmay := mapped_of_admits (hperforms.mp hdone)
    simpa only [holds_run] using hmay

namespace Demo

def grant (a : Address) (cap : AdminCapability) : Input := onLedger 1 (.grantCapability a cap)

/-- `bob` may toggle services and set rate limits, `alice` nothing. -/
def delegated : List Input := [deploy, grant bob .toggleServices, grant bob .setRateLimits]

end Demo

/-- A holder of `ToggleServices` can enable a service. -/
theorem table_met_for_toggle :
    TableMet Demo.host ⟨1000, 2, []⟩ (history Demo.host Demo.delegated)
      (run Demo.host Demo.delegated) Demo.bob (.enableService Demo.bob Demo.alice 1) :=
  (table_met_iff Demo.host Demo.delegated ⟨1000, 2, []⟩ Demo.bob _ (by decide)
    ⟨[Demo.admin], Demo.admin, _, rfl⟩).mpr (by decide)

/-- A holder of `SetRateLimits` cannot set the global configuration, though the admin can. -/
theorem rate_limit_holder_refused :
    let c : Call := .setRateLimitConfig Demo.bob 5 10
    Possible (operation Demo.host ⟨1000, 2, []⟩ (run Demo.host Demo.delegated) c) ∧
      ¬ TableMet Demo.host ⟨1000, 2, []⟩ (history Demo.host Demo.delegated)
        (run Demo.host Demo.delegated) Demo.bob c := by
  intro c
  refine ⟨⟨[Demo.admin], Demo.admin, _, rfl⟩, fun hmet => ?_⟩
  have hperforms := hmet.allowed ⟨.capability .setRateLimits, by decide, by decide⟩
  have hguarded := guardedBy_operation Demo.host ⟨1000, 2, []⟩ (run Demo.host Demo.delegated)
    (c := c) (by decide)
  have hadmits := Guard.passesAlone_iff.mp (hguarded.performs_iff.mp hperforms).2
  exact absurd hadmits (by decide)

end AnchorKit
