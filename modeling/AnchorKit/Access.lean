import AnchorKit.Storage

/-!
# Admin, roles and capabilities

Authorization checks, initialization, the two-step admin transfer and the grants the admin makes.
The admin passes every role and capability check without a grant.
-/

namespace AnchorKit

open Fallible

/-!
## The admin audit ring

Every administrative change appends an entry to a ring of bounded size. The writer runs before
and after the checks of its callers, so an entry survives only when the whole call does.
-/

namespace AdminAuditLog

def getConfig (s : Storage) : AdminAuditLogConfig :=
  s.adminAudit.config.getD AdminAuditLogConfig.default

def evictOldest (config : AdminAuditLogConfig) (st : AdminAuditStore) : AdminAuditStore :=
  if 0 < config.maxEntries ∧ config.maxEntries.toUInt64 ≤ st.counter then
    { st with entries := st.entries.remove (st.counter - config.maxEntries.toUInt64) }
  else st

def writeEvent (env : Env) (s : Storage) (admin : Address)
    (changeType target oldValue newValue status errorMessage : String) : Except Panic Storage := do
  let config := getConfig s
  if !config.enabled then
    return s
  let entryId := s.adminAudit.counter
  let st := evictOldest config s.adminAudit
  let event : AdminConfigChangeEvent :=
    { entryId, admin, changeType, target, oldValue, newValue, timestamp := env.timestamp,
      status, errorMessage }
  -- the time to live must fit the host's 32-bit ledger count
  require (config.ttlSeconds.toNat < 2 ^ 32) (.withError .validationError)
  let nextId ← expect (Word.checkedAdd64 entryId 1) (.withError .auditLogCapacityExceeded)
  let s := { s with adminAudit := { st with
    entries := st.entries.set entryId event, counter := nextId } }
  return s.publish (.adminAudit entryId event)

def logChange (env : Env) (s : Storage) (admin : Address)
    (changeType target oldValue newValue : String) : Except Panic Storage :=
  writeEvent env s admin changeType target oldValue newValue "success" ""

def logAction (env : Env) (s : Storage) (admin : Address)
    (changeType target oldValue newValue : String) : Except Panic Storage :=
  writeEvent env s admin changeType target oldValue newValue "success" ""

section Effects

variable {env : Env} {s s' : Storage} {admin : Address}
  {changeType target oldValue newValue status errorMessage : String}

@[simp] theorem evictOldest_config (config : AdminAuditLogConfig) (st : AdminAuditStore) :
    (evictOldest config st).config = st.config := by
  unfold evictOldest
  split
  · rfl
  · rfl

/-- The writer appends one entry under the counter, or logging is disabled. -/
theorem writeEvent_effects
    (h : writeEvent env s admin changeType target oldValue newValue status errorMessage = .ok s') :
    ((getConfig s).enabled = false ∧ s' = s) ∨
      ((getConfig s).enabled = true ∧
        ∃ event next, s.adminAudit.counter.toNat + 1 = next.toNat ∧ s' = { s with
          adminAudit :=
            { config := s.adminAudit.config
              counter := next
              entries := (evictOldest (getConfig s) s.adminAudit).entries.set s.adminAudit.counter
                event }
          events := s.events ++ [.adminAudit s.adminAudit.counter event] }) := by
  dsimp only [writeEvent] at h
  split at h
  · rename_i hdisabled
    exact Or.inl ⟨by simpa using hdisabled, (pure_eq_ok.mp h).symm⟩
  · rename_i henabled
    simp only [require_bind_eq_ok, expect_bind_eq_ok, pure_eq_ok, Word.checkedAdd64_eq_some,
      evictOldest_config] at h
    obtain ⟨_, next, hnext, rfl⟩ := h
    exact Or.inr ⟨by simpa using henabled, _, next, hnext, rfl⟩

/-- The writer touches the ring and the event stream only. -/
theorem writeEvent_frame
    (h : writeEvent env s admin changeType target oldValue newValue status errorMessage = .ok s') :
    ∃ ring events, s' = { s with adminAudit := ring, events := events } := by
  rcases writeEvent_effects h with ⟨_, rfl⟩ | ⟨_, _, _, _, rfl⟩
  · exact ⟨_, _, rfl⟩
  · exact ⟨_, _, rfl⟩

theorem logChange_frame (h : logChange env s admin changeType target oldValue newValue = .ok s') :
    ∃ ring events, s' = { s with adminAudit := ring, events := events } := writeEvent_frame h

theorem logAction_frame (h : logAction env s admin changeType target oldValue newValue = .ok s') :
    ∃ ring events, s' = { s with adminAudit := ring, events := events } := writeEvent_frame h

theorem logAction_counter (h : logAction env s admin changeType target oldValue newValue = .ok s') :
    s'.adminAudit.config = s.adminAudit.config ∧
      s'.adminAudit.counter.toNat ≤ s.adminAudit.counter.toNat + 1 := by
  rcases writeEvent_effects h with ⟨_, rfl⟩ | ⟨_, _, next, hnext, rfl⟩
  · exact ⟨rfl, Nat.le_succ _⟩
  · exact ⟨rfl, hnext.symm.le⟩

end Effects

/-- Whether the ring takes another entry does not depend on the entry. -/
def Writable (s : Storage) : Prop :=
  (getConfig s).enabled = false ∨
    ((getConfig s).ttlSeconds.toNat < 2 ^ 32 ∧ s.adminAudit.counter.toNat + 1 < 2 ^ 64)

theorem succeeds_logAction {env : Env} {s : Storage} {admin : Address}
    {changeType target oldValue newValue : String} :
    Succeeds (logAction env s admin changeType target oldValue newValue) ↔ Writable s := by
  dsimp only [logAction, writeEvent, Writable]
  cases henabled : (getConfig s).enabled with
  | false => simp
  | true =>
    simp only [Bool.not_true, Bool.false_eq_true, if_false, succeeds_bind, require_eq_ok,
      expect_eq_ok, Word.checkedAdd64_eq_some, succeeds_pure, exists_const, and_true, false_or,
      reduceCtorEq]
    constructor
    · rintro ⟨httl, next, hnext⟩
      have hlt := next.toNat_lt
      have hone : (1 : UInt64).toNat = 1 := rfl
      exact ⟨httl, by omega⟩
    · rintro ⟨httl, hfits⟩
      refine ⟨httl, UInt64.ofNat (s.adminAudit.counter.toNat + 1), ?_⟩
      rw [UInt64.toNat_ofNat_of_lt' hfits, UInt64.toNat_one]

end AdminAuditLog

/-!
## The admin and the roles

Every privileged call goes through one of the checks below.
-/

/-- `Address::require_auth`: the invocation must carry the address's authorization. -/
def Address.requireAuth (env : Env) (a : Address) : Except Panic Unit :=
  require (a ∈ env.authorized) .unauthorizedInvocation

def requireAdmin (env : Env) (s : Storage) : Except Panic Unit := do
  let admin ← expect s.access.admin (.withError .notInitialized)
  admin.requireAuth env

/-- What is left after `requireAdmin`: a second `require_auth` of one address within a call needs
a second authorization. -/
def Env.spendAdmin (env : Env) (s : Storage) : Env :=
  env.signedBy <| match s.access.admin with
    | some admin => env.authorized.erase admin
    | none => env.authorized

/-- What is left after `require_auth` of `a`. -/
def Env.spend (env : Env) (a : Address) : Env := env.signedBy (env.authorized.erase a)

def getAdminInternal (s : Storage) : Except Panic Address :=
  expect s.access.admin (.withError .notInitialized)

def roleName : AdminRole → String
  | .kycAdmin => "KycAdmin"
  | .attestorAdmin => "AttestorAdmin"
  | .cacheAdmin => "CacheAdmin"

def capabilityName : AdminCapability → String
  | .upgradeContract => "UpgradeContract"
  | .migrateSchema => "MigrateSchema"
  | .setCacheConfig => "SetCacheConfig"
  | .manageAttestors => "ManageAttestors"
  | .manageKyc => "ManageKyc"
  | .manageCacheEntries => "ManageCacheEntries"
  | .toggleServices => "ToggleServices"
  | .setRateLimits => "SetRateLimits"
  | .setJwtConfig => "SetJwtConfig"
  | .manageAnchorMetadata => "ManageAnchorMetadata"

def hasRoleInternal (s : Storage) (address : Address) (role : AdminRole) : Bool :=
  s.access.admin = some address || (s.access.roles.get (role, address)).getD false

def hasCapabilityInternal (s : Storage) (address : Address) (cap : AdminCapability) : Bool :=
  s.access.admin = some address || (s.access.capabilities.get (cap, address)).getD false

def requireAdminOrRole (env : Env) (s : Storage) (caller : Address) (role : AdminRole) :
    Except Panic Unit := do
  require (hasRoleInternal s caller role = true) (.withError .unauthorized)
  caller.requireAuth env

def requireAdminOrCapability (env : Env) (s : Storage) (caller : Address) (cap : AdminCapability) :
    Except Panic Unit := do
  require (hasCapabilityInternal s caller cap = true) (.withError .unauthorized)
  caller.requireAuth env

/-- `migration::set_version`, which only stamps the first schema version. -/
def setVersion (s : Storage) (version : UInt32) : Except Panic Storage := do
  require (s.access.schemaVersion = 0 ∧ version = 1) (.withError .illegalTransition)
  return { s with access := { s.access with schemaVersion := version } }

/-- `initialize`. -/
def initializeContract (env : Env) (s : Storage) (admin : Address) : Except Panic Storage := do
  admin.requireAuth env
  require (s.access.initialized = false) (.withError .alreadyInitialized)
  let s := { s with access := { s.access with initialized := true, admin := some admin } }
  let s ← setVersion s 1
  return s.publish (.contractInit admin env.timestamp)

def proposeAdminTransfer (env : Env) (s : Storage) (newAdmin : Address) :
    Except Panic Storage := do
  requireAdmin env s
  let s := { s with access := { s.access with pendingAdmin := some newAdmin } }
  return s.publish (.adminProposed newAdmin)

def acceptAdminTransfer (env : Env) (s : Storage) : Except Panic Storage := do
  let newAdmin ← expect s.access.pendingAdmin (.withError .notInitialized)
  newAdmin.requireAuth env
  let s := { s with access := { s.access with admin := some newAdmin, pendingAdmin := none } }
  return s.publish (.adminAccepted newAdmin)

def grantRole (env : Env) (s : Storage) (grantee : Address) (role : AdminRole) :
    Except Panic Storage := do
  requireAdmin env s
  let s := { s with access := { s.access with roles := s.access.roles.set (role, grantee) true } }
  let admin ← getAdminInternal s
  let s ← AdminAuditLog.logAction env s admin "grant_role" grantee.toText "" (roleName role)
  return s.publish (.roleGranted grantee role)

def revokeRole (env : Env) (s : Storage) (grantee : Address) (role : AdminRole) :
    Except Panic Storage := do
  requireAdmin env s
  let s := { s with access := { s.access with roles := s.access.roles.remove (role, grantee) } }
  let admin ← getAdminInternal s
  let s ← AdminAuditLog.logAction env s admin "revoke_role" grantee.toText (roleName role) ""
  return s.publish (.roleRevoked grantee role)

def grantCapability (env : Env) (s : Storage) (grantee : Address) (capability : AdminCapability) :
    Except Panic Storage := do
  requireAdmin env s
  let s := { s with access := { s.access with
    capabilities := s.access.capabilities.set (capability, grantee) true } }
  let admin ← getAdminInternal s
  let s ← AdminAuditLog.logAction env s admin "grant_capability" grantee.toText ""
    (capabilityName capability)
  return s.publish (.capGranted grantee capability)

def revokeCapability (env : Env) (s : Storage) (grantee : Address)
    (capability : AdminCapability) : Except Panic Storage := do
  requireAdmin env s
  let s := { s with access := { s.access with
    capabilities := s.access.capabilities.remove (capability, grantee) } }
  let admin ← getAdminInternal s
  let s ← AdminAuditLog.logAction env s admin "revoke_capability" grantee.toText
    (capabilityName capability) ""
  return s.publish (.capRevoked grantee capability)

@[simp] theorem requireAuth_eq_ok {env : Env} {a : Address} {u : Unit} :
    a.requireAuth env = .ok u ↔ a ∈ env.authorized := require_eq_ok

@[simp] theorem requireAdmin_eq_ok {env : Env} {s : Storage} {u : Unit} :
    requireAdmin env s = .ok u ↔ ∃ admin, s.access.admin = some admin ∧ admin ∈ env.authorized := by
  simp [requireAdmin]

@[simp] theorem requireAdminOrRole_eq_ok {env : Env} {s : Storage} {caller : Address}
    {role : AdminRole} {u : Unit} :
    requireAdminOrRole env s caller role = .ok u ↔
      hasRoleInternal s caller role = true ∧ caller ∈ env.authorized := by
  simp [requireAdminOrRole]

@[simp] theorem requireAdminOrCapability_eq_ok {env : Env} {s : Storage} {caller : Address}
    {cap : AdminCapability} {u : Unit} :
    requireAdminOrCapability env s caller cap = .ok u ↔
      hasCapabilityInternal s caller cap = true ∧ caller ∈ env.authorized := by
  simp [requireAdminOrCapability]

theorem initializeContract_effects {env : Env} {s s' : Storage} {admin : Address}
    (h : initializeContract env s admin = .ok s') :
    admin ∈ env.authorized ∧ s.access.initialized = false ∧
      s' = { s with
        access := { s.access with initialized := true, admin := some admin, schemaVersion := 1 }
        events := s.events ++ [.contractInit admin env.timestamp] } := by
  simp only [initializeContract, setVersion, bind_eq_ok, requireAuth_eq_ok, require_eq_ok,
    pure_eq_ok] at h
  obtain ⟨_, hauth, _, hinit, _, ⟨_, _, rfl⟩, rfl⟩ := h
  exact ⟨hauth, hinit, rfl⟩

/-- The version is stamped on a contract that has none. -/
theorem initializeContract_unversioned {env : Env} {s s' : Storage} {admin : Address}
    (h : initializeContract env s admin = .ok s') : s.access.schemaVersion = 0 := by
  simp only [initializeContract, setVersion, bind_eq_ok, requireAuth_eq_ok, require_eq_ok,
    pure_eq_ok] at h
  obtain ⟨_, _, _, _, _, ⟨_, hversion, _⟩, _⟩ := h
  exact hversion.1

theorem initializeContract_frame {env : Env} {s s' : Storage} {admin : Address}
    (h : initializeContract env s admin = .ok s') :
    ∃ access events, s' = { s with access := access, events := events } :=
  ⟨_, _, (initializeContract_effects h).2.2⟩

theorem proposeAdminTransfer_effects {env : Env} {s s' : Storage} {newAdmin : Address}
    (h : proposeAdminTransfer env s newAdmin = .ok s') :
    ∃ events, s' = { s with
      access := { s.access with pendingAdmin := some newAdmin }, events := events } := by
  simp only [proposeAdminTransfer, bind_eq_ok, pure_eq_ok] at h
  obtain ⟨_, _, rfl⟩ := h
  exact ⟨_, rfl⟩

theorem acceptAdminTransfer_effects {env : Env} {s s' : Storage}
    (h : acceptAdminTransfer env s = .ok s') :
    ∃ newAdmin events, s' = { s with
      access := { s.access with admin := some newAdmin, pendingAdmin := none }
      events := events } := by
  simp only [acceptAdminTransfer, bind_eq_ok, pure_eq_ok] at h
  obtain ⟨_, _, _, _, rfl⟩ := h
  exact ⟨_, _, rfl⟩

section Grants

variable {env : Env} {s s' : Storage} {grantee : Address}

theorem grantRole_effects {role : AdminRole} (h : grantRole env s grantee role = .ok s') :
    ∃ ring events, s' = { s with
      access := { s.access with roles := s.access.roles.set (role, grantee) true }
      adminAudit := ring, events := events } := by
  simp only [grantRole, bind_eq_ok, pure_eq_ok] at h
  obtain ⟨_, _, _, _, _, hlog, rfl⟩ := h
  obtain ⟨_, _, rfl⟩ := AdminAuditLog.logAction_frame hlog
  exact ⟨_, _, rfl⟩

theorem revokeRole_effects {role : AdminRole} (h : revokeRole env s grantee role = .ok s') :
    ∃ ring events, s' = { s with
      access := { s.access with roles := s.access.roles.remove (role, grantee) }
      adminAudit := ring, events := events } := by
  simp only [revokeRole, bind_eq_ok, pure_eq_ok] at h
  obtain ⟨_, _, _, _, _, hlog, rfl⟩ := h
  obtain ⟨_, _, rfl⟩ := AdminAuditLog.logAction_frame hlog
  exact ⟨_, _, rfl⟩

theorem grantCapability_effects {cap : AdminCapability}
    (h : grantCapability env s grantee cap = .ok s') :
    ∃ ring events, s' = { s with
      access := { s.access with capabilities := s.access.capabilities.set (cap, grantee) true }
      adminAudit := ring, events := events } := by
  simp only [grantCapability, bind_eq_ok, pure_eq_ok] at h
  obtain ⟨_, _, _, _, _, hlog, rfl⟩ := h
  obtain ⟨_, _, rfl⟩ := AdminAuditLog.logAction_frame hlog
  exact ⟨_, _, rfl⟩

theorem revokeCapability_effects {cap : AdminCapability}
    (h : revokeCapability env s grantee cap = .ok s') :
    ∃ ring events, s' = { s with
      access := { s.access with capabilities := s.access.capabilities.remove (cap, grantee) }
      adminAudit := ring, events := events } := by
  simp only [revokeCapability, bind_eq_ok, pure_eq_ok] at h
  obtain ⟨_, _, _, _, _, hlog, rfl⟩ := h
  obtain ⟨_, _, rfl⟩ := AdminAuditLog.logAction_frame hlog
  exact ⟨_, _, rfl⟩

end Grants

end AnchorKit
