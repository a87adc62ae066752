import AnchorKit.Cache

/-!
# Service toggles

An anchor's services are switched on and off one at a time, outside maintenance windows, and a
snapshot of a service list can be brought back later.
-/

namespace AnchorKit

open Fallible

namespace MaintenanceWindow

def isActive (w : MaintenanceWindow) (env : Env) : Bool :=
  w.startTime ≤ env.timestamp && env.timestamp ≤ w.endTime

/-- A window without a list of services covers every service. -/
def affectsService (w : MaintenanceWindow) (serviceCode : UInt32) : Bool :=
  w.affectedServices.isEmpty || w.affectedServices.contains serviceCode

end MaintenanceWindow

def isInMaintenance (env : Env) (s : Storage) (anchor : Address) (serviceCode : UInt32) : Bool :=
  (List.range s.services.windowCount.toNat).any fun id =>
    match s.services.window.get (UInt64.ofNat id) with
    | some w => decide (w.anchor = anchor) && w.isActive env && w.affectsService serviceCode
    | none => false

namespace MaintenanceManager

/-- Windows of one anchor may not overlap; the outcome of a conflict is for the caller to handle. -/
def scheduleWindow (s : Storage) (anchor : Address) (startTime endTime : UInt64)
    (description : String) (affectedServices : List UInt32) :
    Except Panic (Except AnchorKitError (Storage × UInt64)) := do
  let windowId := s.services.windowCount
  let conflict := (List.range windowId.toNat).any fun id =>
    match s.services.window.get (UInt64.ofNat id) with
    | some existing => decide (existing.anchor = anchor) && startTime ≤ existing.endTime &&
        existing.startTime ≤ endTime
    | none => false
  if conflict then
    return .error .maintenanceWindowConflict
  let window : MaintenanceWindow :=
    { windowId, anchor, startTime, endTime, description, affectedServices }
  let count ← add64 windowId 1
  let s := { s with services := { s.services with
    window := s.services.window.set windowId window, windowCount := count } }
  return .ok (s, windowId)

def cancelWindow (s : Storage) (windowId : UInt64) : Storage × Bool :=
  if s.services.window.has windowId then
    ({ s with services := { s.services with window := s.services.window.remove windowId } }, true)
  else (s, false)

end MaintenanceManager

namespace ServiceManager

def getServiceState (s : Storage) (anchor : Address) : ServiceToggleState :=
  (s.services.toggles.get anchor).getD
    { anchor, enabledServices := [], disabledServices := [], updatedAt := 0 }

def storeServiceState (s : Storage) (anchor : Address) (state : ServiceToggleState) : Storage :=
  { s with services := { s.services with toggles := s.services.toggles.set anchor state } }

def enableService (env : Env) (s : Storage) (anchor : Address) (serviceCode : UInt32) :
    Except AnchorKitError (Storage × Bool) := do
  require (isInMaintenance env s anchor serviceCode = false) (.serviceInMaintenance serviceCode)
  let state := getServiceState s anchor
  if state.enabledServices.contains serviceCode then
    return (s, false)
  let state := { state with
    disabledServices := state.disabledServices.filter (· ≠ serviceCode)
    enabledServices := state.enabledServices ++ [serviceCode]
    updatedAt := env.timestamp }
  return (storeServiceState s anchor state, true)

def disableService (env : Env) (s : Storage) (anchor : Address) (serviceCode : UInt32) :
    Except AnchorKitError (Storage × Bool) := do
  require (isInMaintenance env s anchor serviceCode = false) (.serviceInMaintenance serviceCode)
  let state := getServiceState s anchor
  if state.disabledServices.contains serviceCode then
    return (s, false)
  let state := { state with
    enabledServices := state.enabledServices.filter (· ≠ serviceCode)
    disabledServices := state.disabledServices ++ [serviceCode]
    updatedAt := env.timestamp }
  return (storeServiceState s anchor state, true)

def isServiceEnabled (s : Storage) (anchor : Address) (serviceCode : UInt32) : Bool :=
  (getServiceState s anchor).enabledServices.contains serviceCode

def enableAllServices (env : Env) (s : Storage) (anchor : Address) (allServices : List UInt32) :
    Storage :=
  storeServiceState s anchor
    { anchor, enabledServices := allServices, disabledServices := [], updatedAt := env.timestamp }

def disableAllServices (env : Env) (s : Storage) (anchor : Address) (allServices : List UInt32) :
    Storage :=
  storeServiceState s anchor
    { anchor, enabledServices := [], disabledServices := allServices, updatedAt := env.timestamp }

/-- The counter may overflow, which aborts; a blank name is an error for the caller to handle. -/
def createSnapshot (env : Env) (s : Storage) (anchor : Address) (services : List UInt32)
    (description : String) : Except Panic (Except AnchorKitError (Storage × UInt64)) := do
  if description.toList.all isWhitespace then
    return .error (.invalidTemplate "snapshot name must not be empty")
  let snapshotId := s.services.snapshotCount
  let snapshot : ServiceConfigSnapshot :=
    { snapshotId, anchor, services, createdAt := env.timestamp, description }
  let count ← add64 snapshotId 1
  let s := { s with services := { s.services with
    snapshot := s.services.snapshot.set snapshotId snapshot, snapshotCount := count } }
  return .ok (s, snapshotId)

/-- Bring back a snapshot's services for its anchor; the flag says whether there was one. -/
def rollbackToSnapshot (env : Env) (s : Storage) (snapshotId : UInt64) : Storage × Bool :=
  if s.services.snapshotCount ≤ snapshotId then (s, false)
  else
    match s.services.snapshot.get snapshotId with
    | some snapshot =>
      let state : ServiceToggleState :=
        { anchor := snapshot.anchor, enabledServices := snapshot.services, disabledServices := [],
          updatedAt := env.timestamp }
      (storeServiceState s snapshot.anchor state, true)
    | none => (s, false)

end ServiceManager

/-- `unwrap_or(false)`: a refused toggle changes nothing. -/
def orUnchanged (s : Storage) (result : Except AnchorKitError (Storage × Bool)) : Storage × Bool :=
  match result with
  | .ok changed => changed
  | .error _ => (s, false)

/-- Log a toggle, and drop the anchor's cache entries when it changed something. -/
def finishToggle (env : Env) (result : Storage × Bool) (caller anchor : Address)
    (changeType oldValue newValue : String) : Except Panic (Storage × Bool) := do
  let (s, changed) := result
  let s ← AdminAuditLog.logAction env s caller changeType anchor.toText oldValue newValue
  if changed then
    return ((invalidateCacheInternal env s anchor).1, changed)
  return (s, changed)

def enableService (env : Env) (s : Storage) (caller anchor : Address) (serviceCode : UInt32) :
    Except Panic (Storage × Bool) := do
  requireAdminOrCapability env s caller .toggleServices
  finishToggle env (orUnchanged s (ServiceManager.enableService env s anchor serviceCode)) caller
    anchor "enable_service" "disabled" "enabled"

def disableService (env : Env) (s : Storage) (caller anchor : Address) (serviceCode : UInt32) :
    Except Panic (Storage × Bool) := do
  requireAdminOrCapability env s caller .toggleServices
  finishToggle env (orUnchanged s (ServiceManager.disableService env s anchor serviceCode)) caller
    anchor "disable_service" "enabled" "disabled"

def snapshotServices (env : Env) (s : Storage) (caller anchor : Address) (services : List UInt32)
    (description : String) : Except Panic (Storage × UInt64) := do
  requireAdminOrCapability env s caller .toggleServices
  match ← ServiceManager.createSnapshot env s anchor services description with
  | .error _ => throw (.expectFailed "snapshot name must not be empty")
  | .ok (s, snapshotId) =>
    let s ← AdminAuditLog.logAction env s caller "snapshot_services" anchor.toText ""
      "snapshot_taken"
    return (s, snapshotId)

/-- The cache entries of the anchor whose services were brought back go too. -/
def invalidateRestored (env : Env) (s : Storage) (snapshotId : UInt64) (restored : Bool) :
    Storage :=
  if restored then
    match s.services.snapshot.get snapshotId with
    | some snapshot => (invalidateCacheInternal env s snapshot.anchor).1
    | none => s
  else s

def rollbackServices (env : Env) (s : Storage) (caller : Address) (snapshotId : UInt64) :
    Except Panic (Storage × Bool) := do
  requireAdminOrCapability env s caller .toggleServices
  let (s, restored) := ServiceManager.rollbackToSnapshot env s snapshotId
  let s := invalidateRestored env s snapshotId restored
  let s ← AdminAuditLog.logAction env s caller "rollback_services" "service_snapshot" ""
    (if restored then "rolled_back" else "rollback_failed")
  return (s, restored)

section Effects

variable {env : Env} {s s' : Storage} {caller anchor : Address}

theorem orUnchanged_frame {result : Except AnchorKitError (Storage × Bool)}
    (h : ∀ t changed, result = .ok (t, changed) → ∃ services, t = { s with services := services }) :
    ∃ services, (orUnchanged s result).1 = { s with services := services } := by
  cases result with
  | error e => exact ⟨_, rfl⟩
  | ok p => exact h p.1 p.2 rfl

theorem finishToggle_effects {result : Storage × Bool} {changeType oldValue newValue : String}
    {changed : Bool} (hresult : ∃ services, result.1 = { s with services := services })
    (h : finishToggle env result caller anchor changeType oldValue newValue = .ok (s', changed)) :
    ∃ services cache ring events, s.cache.Hook cache ∧ s' =
      { s with services := services, cache := cache, adminAudit := ring, events := events } := by
  obtain ⟨services, hservices⟩ := hresult
  simp only [finishToggle, bind_eq_ok] at h
  obtain ⟨t, hlog, h⟩ := h
  obtain ⟨_, _, rfl⟩ := AdminAuditLog.logAction_frame hlog
  rw [hservices] at h
  split at h
  · simp only [pure_eq_ok, Prod.mk.injEq] at h
    obtain ⟨rfl, rfl⟩ := h
    obtain ⟨_, hdropped⟩ := invalidateCacheInternal_effects env _ anchor
    exact ⟨_, _, _, _, .fired anchor, hdropped⟩
  · simp only [pure_eq_ok, Prod.mk.injEq] at h
    obtain ⟨rfl, rfl⟩ := h
    exact ⟨_, _, _, _, .skipped, rfl⟩

theorem enableService_effects {serviceCode : UInt32} {changed : Bool}
    (h : enableService env s caller anchor serviceCode = .ok (s', changed)) :
    ∃ services cache ring events, s.cache.Hook cache ∧ s' =
      { s with services := services, cache := cache, adminAudit := ring, events := events } := by
  simp only [enableService, bind_eq_ok] at h
  obtain ⟨_, _, h⟩ := h
  apply finishToggle_effects _ h
  apply orUnchanged_frame
  intro t changed ht
  simp only [ServiceManager.enableService, require_bind_eq_ok] at ht
  obtain ⟨_, ht⟩ := ht
  split at ht
  · obtain ⟨rfl, _⟩ := Prod.mk.inj (pure_eq_ok.mp ht)
    exact ⟨_, rfl⟩
  · obtain ⟨rfl, _⟩ := Prod.mk.inj (pure_eq_ok.mp ht)
    exact ⟨_, rfl⟩

theorem disableService_effects {serviceCode : UInt32} {changed : Bool}
    (h : disableService env s caller anchor serviceCode = .ok (s', changed)) :
    ∃ services cache ring events, s.cache.Hook cache ∧ s' =
      { s with services := services, cache := cache, adminAudit := ring, events := events } := by
  simp only [disableService, bind_eq_ok] at h
  obtain ⟨_, _, h⟩ := h
  apply finishToggle_effects _ h
  apply orUnchanged_frame
  intro t changed ht
  simp only [ServiceManager.disableService, require_bind_eq_ok] at ht
  obtain ⟨_, ht⟩ := ht
  split at ht
  · obtain ⟨rfl, _⟩ := Prod.mk.inj (pure_eq_ok.mp ht)
    exact ⟨_, rfl⟩
  · obtain ⟨rfl, _⟩ := Prod.mk.inj (pure_eq_ok.mp ht)
    exact ⟨_, rfl⟩

theorem snapshotServices_frame {services : List UInt32} {description : String}
    {snapshotId : UInt64}
    (h : snapshotServices env s caller anchor services description = .ok (s', snapshotId)) :
    ∃ services ring events, s' =
      { s with services := services, adminAudit := ring, events := events } := by
  simp only [snapshotServices, ServiceManager.createSnapshot, bind_eq_ok] at h
  obtain ⟨_, _, created, hcreated, h⟩ := h
  split at hcreated
  · obtain rfl := pure_eq_ok.mp hcreated
    cases h
  · simp only [bind_eq_ok, pure_eq_ok] at hcreated
    obtain ⟨_, _, rfl⟩ := hcreated
    simp only [bind_eq_ok, pure_eq_ok, Prod.mk.injEq] at h
    obtain ⟨_, hlog, rfl, rfl⟩ := h
    obtain ⟨_, _, rfl⟩ := AdminAuditLog.logAction_frame hlog
    exact ⟨_, _, _, rfl⟩

theorem rollbackToSnapshot_frame (env : Env) (s : Storage) (snapshotId : UInt64) :
    ∃ services, (ServiceManager.rollbackToSnapshot env s snapshotId).1 =
      { s with services := services } := by
  unfold ServiceManager.rollbackToSnapshot
  split
  · exact ⟨_, rfl⟩
  · split
    · exact ⟨_, rfl⟩
    · exact ⟨_, rfl⟩

theorem invalidateRestored_effects (env : Env) (s : Storage) (snapshotId : UInt64)
    (restored : Bool) :
    ∃ cache events, s.cache.Hook cache ∧ invalidateRestored env s snapshotId restored =
      { s with cache := cache, events := events } := by
  unfold invalidateRestored
  split
  · split
    · rename_i snapshot _
      obtain ⟨_, hdropped⟩ := invalidateCacheInternal_effects env s snapshot.anchor
      exact ⟨_, _, .fired snapshot.anchor, hdropped⟩
    · exact ⟨_, _, .skipped, rfl⟩
  · exact ⟨_, _, .skipped, rfl⟩

theorem rollbackServices_effects {snapshotId : UInt64} {restored : Bool}
    (h : rollbackServices env s caller snapshotId = .ok (s', restored)) :
    ∃ services cache ring events, s.cache.Hook cache ∧ s' =
      { s with services := services, cache := cache, adminAudit := ring, events := events } := by
  simp only [rollbackServices, bind_eq_ok, pure_eq_ok, Prod.mk.injEq] at h
  obtain ⟨_, _, _, hlog, rfl, _⟩ := h
  obtain ⟨_, _, rfl⟩ := AdminAuditLog.logAction_frame hlog
  obtain ⟨_, hback⟩ := rollbackToSnapshot_frame env s snapshotId
  obtain ⟨_, _, hhook, hdropped⟩ := invalidateRestored_effects env
    (ServiceManager.rollbackToSnapshot env s snapshotId).1 snapshotId
    (ServiceManager.rollbackToSnapshot env s snapshotId).2
  rw [hback] at hhook
  rw [hdropped, hback]
  exact ⟨_, _, _, _, hhook, rfl⟩

end Effects

end AnchorKit
