import AnchorKit.ServiceDependencies
import AnchorKit.ServiceManagement

/-!
# Enforcing dependencies

The checks of a service's requirements, the onboarding templates, and the calls that switch
services or edit the requirements. A service whose requirement is switched off must not be on; no
switch asks the checks.
-/

namespace AnchorKit

open Fallible DependencyManager

structure ServiceTemplate where
  name : String
  services : List UInt32
  description : String
  version : UInt32
deriving DecidableEq, Repr

structure TemplateApplication where
  templateName : String
  anchor : Address
  appliedAt : UInt64
deriving DecidableEq, Repr

structure ManagedServices where
  storage : Storage
  graphs : DependencyStore
  template : KeyedStore String ServiceTemplate
  application : KeyedStore (Address × String) TemplateApplication

namespace ManagedServices

def empty : ManagedServices := ⟨.empty, .empty, .empty, .empty⟩

def isEnabled (w : ManagedServices) (anchor : Address) (serviceCode : UInt32) : Bool :=
  ServiceManager.isServiceEnabled w.storage anchor serviceCode

def edges (w : ManagedServices) (anchor : Address) : List ServiceDependency :=
  (getGraph w.graphs anchor).edges

end ManagedServices

namespace DependencyManager

def assertDependenciesMet (w : ManagedServices) (anchor : Address) (serviceCode : UInt32) :
    Except AnchorKitError Unit :=
  (getGraph w.graphs anchor).edges.forM fun e =>
    if e.serviceCode = serviceCode then
      require (w.isEnabled anchor e.dependencyCode = true)
        (.dependencyNotMet serviceCode e.dependencyCode)
    else return ()

def assertNoActiveDependents (w : ManagedServices) (anchor : Address) (serviceCode : UInt32) :
    Except AnchorKitError Unit :=
  (getGraph w.graphs anchor).edges.forM fun e =>
    require (¬ (e.dependencyCode = serviceCode ∧ w.isEnabled anchor e.serviceCode = true))
      (.dependencyNotMet e.serviceCode serviceCode)

end DependencyManager

namespace TemplateManager

def registerTemplate (w : ManagedServices) (name : String) (services : List UInt32)
    (description : String) (version : UInt32) : Except AnchorKitError ManagedServices := do
  require (name ≠ "") (.invalidTemplate "template name must not be empty")
  require (services ≠ []) (.invalidTemplate "template must contain at least one service")
  return { w with template := w.template.set name { name, services, description, version } }

/-- Register a template unless there is one of its name. -/
def seedTemplate (w : ManagedServices) (name : String) (services : List UInt32)
    (description : String) : ManagedServices :=
  if w.template.has name then w
  else
    match registerTemplate w name services description 1 with
    | .ok w => w
    | .error _ => w

def seedBuiltinTemplates (w : ManagedServices) : ManagedServices :=
  let w := seedTemplate w "fiat-on-ramp" [1, 2]
    "Non-interactive and interactive deposit/withdrawal (SEP-6 + SEP-24)"
  let w := seedTemplate w "remittance" [3] "Direct cross-border payment (SEP-31)"
  seedTemplate w "stablecoin-issuer" [1, 3, 4]
    "Stablecoin issuance with deposit and direct-payment corridors"

/-- The services before the first refused one stay enabled. -/
def enableEach (env : Env) (s : Storage) (anchor : Address) :
    List UInt32 → Storage × Except AnchorKitError Unit
  | [] => (s, .ok ())
  | serviceCode :: rest =>
    match ServiceManager.enableService env s anchor serviceCode with
    | .ok (s, _) => enableEach env s anchor rest
    | .error e => (s, .error e)

def applyTemplate (env : Env) (w : ManagedServices) (anchor : Address) (name : String) :
    ManagedServices × Except AnchorKitError TemplateApplication :=
  match w.template.get name with
  | none => (w, .error (.templateNotFound name))
  | some tmpl =>
    if w.application.has (anchor, name) then (w, .error (.templateAlreadyApplied name))
    else
      match enableEach env w.storage anchor tmpl.services with
      | (storage, .error e) => ({ w with storage }, .error e)
      | (storage, .ok ()) =>
        let record : TemplateApplication :=
          { templateName := tmpl.name, anchor, appliedAt := env.timestamp }
        ({ w with storage, application := w.application.set (anchor, name) record }, .ok record)

def applyTemplateForce (env : Env) (w : ManagedServices) (anchor : Address) (name : String) :
    ManagedServices × Except AnchorKitError TemplateApplication :=
  applyTemplate env { w with application := w.application.remove (anchor, name) } anchor name

end TemplateManager

/-! ### Calls -/

inductive ServiceCall
  | enableService (anchor : Address) (serviceCode : UInt32)
  | disableService (anchor : Address) (serviceCode : UInt32)
  | enableAllServices (anchor : Address) (allServices : List UInt32)
  | disableAllServices (anchor : Address) (allServices : List UInt32)
  | createSnapshot (anchor : Address) (services : List UInt32) (description : String)
  | rollbackToSnapshot (snapshotId : UInt64)
  | scheduleWindow (anchor : Address) (startTime endTime : UInt64) (description : String)
      (affectedServices : List UInt32)
  | cancelWindow (windowId : UInt64)
  | registerTemplate (name : String) (services : List UInt32) (description : String)
      (version : UInt32)
  | seedBuiltinTemplates
  | applyTemplate (anchor : Address) (name : String)
  | applyTemplateForce (anchor : Address) (name : String)
  | addDependency (anchor : Address) (serviceCode dependencyCode : UInt32)
  | removeDependency (anchor : Address) (serviceCode dependencyCode : UInt32)
deriving DecidableEq, Repr

/-- A call that answers with an error keeps what it had written. -/
def managedStep (w : ManagedServices) : Env × ServiceCall → Except Panic ManagedServices
  | (env, .enableService anchor serviceCode) =>
    return { w with storage := (orUnchanged w.storage
      (ServiceManager.enableService env w.storage anchor serviceCode)).1 }
  | (env, .disableService anchor serviceCode) =>
    return { w with storage := (orUnchanged w.storage
      (ServiceManager.disableService env w.storage anchor serviceCode)).1 }
  | (env, .enableAllServices anchor allServices) =>
    return { w with storage :=
      ServiceManager.enableAllServices env w.storage anchor allServices }
  | (env, .disableAllServices anchor allServices) =>
    return { w with storage :=
      ServiceManager.disableAllServices env w.storage anchor allServices }
  | (env, .createSnapshot anchor services description) => do
    match ← ServiceManager.createSnapshot env w.storage anchor services description with
    | .ok (storage, _) => return { w with storage }
    | .error _ => return w
  | (env, .rollbackToSnapshot snapshotId) =>
    return { w with storage := (ServiceManager.rollbackToSnapshot env w.storage snapshotId).1 }
  | (_, .scheduleWindow anchor startTime endTime description affectedServices) => do
    match ← MaintenanceManager.scheduleWindow w.storage anchor startTime endTime description
      affectedServices with
    | .ok (storage, _) => return { w with storage }
    | .error _ => return w
  | (_, .cancelWindow windowId) =>
    return { w with storage := (MaintenanceManager.cancelWindow w.storage windowId).1 }
  | (_, .registerTemplate name services description version) =>
    match TemplateManager.registerTemplate w name services description version with
    | .ok w => return w
    | .error _ => return w
  | (_, .seedBuiltinTemplates) => return TemplateManager.seedBuiltinTemplates w
  | (env, .applyTemplate anchor name) => return (TemplateManager.applyTemplate env w anchor name).1
  | (env, .applyTemplateForce anchor name) =>
    return (TemplateManager.applyTemplateForce env w anchor name).1
  | (_, .addDependency anchor serviceCode dependencyCode) =>
    match addDependency w.graphs anchor serviceCode dependencyCode with
    | .ok graphs => return { w with graphs }
    | .error _ => return w
  | (_, .removeDependency anchor serviceCode dependencyCode) =>
    match removeDependency w.graphs anchor serviceCode dependencyCode with
    | .ok graphs => return { w with graphs }
    | .error _ => return w

abbrev ManagedTransition := Machine.Transition ManagedServices (Env × ServiceCall)

def managedRun (calls : List (Env × ServiceCall)) : ManagedServices :=
  Machine.run managedStep .empty calls

def managedHistory (calls : List (Env × ServiceCall)) : List ManagedTransition :=
  Machine.transitions managedStep .empty calls

def ClosedUnder (edges : List ServiceDependency) (services : List UInt32) : Prop :=
  ∀ e ∈ edges, e.serviceCode ∈ services → e.dependencyCode ∈ services

namespace ManagedServices

def enabledServices (w : ManagedServices) (anchor : Address) : List UInt32 :=
  (ServiceManager.getServiceState w.storage anchor).enabledServices

/-- No service is on while one of its requirements is not. -/
def Enforced (w : ManagedServices) : Prop :=
  ∀ anchor, ClosedUnder (w.edges anchor) (w.enabledServices anchor)

def NoSelfEdges (w : ManagedServices) : Prop :=
  ∀ anchor, ∀ e ∈ w.edges anchor, e.serviceCode ≠ e.dependencyCode

/-- What a template switches on, up to the first service in maintenance. -/
def bootstrapped (w : ManagedServices) (env : Env) (anchor : Address) (tmpl : ServiceTemplate) :
    List UInt32 :=
  w.enabledServices anchor ++
    tmpl.services.takeWhile fun serviceCode => !isInMaintenance env w.storage anchor serviceCode

/-- The list that a call makes the enabled services of an anchor; nothing when it switches none. -/
def switchedTo (w : ManagedServices) :
    Env × ServiceCall → Option (Address × List UInt32)
  | (env, .enableService anchor serviceCode) =>
    if isInMaintenance env w.storage anchor serviceCode then none
    else some (anchor, Roster.pushIfAbsent (w.enabledServices anchor) serviceCode)
  | (env, .disableService anchor serviceCode) =>
    if isInMaintenance env w.storage anchor serviceCode = true ∨
        serviceCode ∈ (ServiceManager.getServiceState w.storage anchor).disabledServices then none
    else some (anchor, (w.enabledServices anchor).filter (· ≠ serviceCode))
  | (_, .enableAllServices anchor allServices) => some (anchor, allServices)
  | (_, .disableAllServices anchor _) => some (anchor, [])
  | (_, .rollbackToSnapshot snapshotId) =>
    if snapshotId < w.storage.services.snapshotCount then
      (w.storage.services.snapshot.get snapshotId).map fun snapshot =>
        (snapshot.anchor, snapshot.services)
    else none
  | (env, .applyTemplate anchor name) =>
    if w.application.has (anchor, name) then none
    else (w.template.get name).map fun tmpl => (anchor, w.bootstrapped env anchor tmpl)
  | (env, .applyTemplateForce anchor name) =>
    (w.template.get name).map fun tmpl => (anchor, w.bootstrapped env anchor tmpl)
  | _ => none

end ManagedServices

/-- The call meets the requirements that are in force. Edges are added only between services that
satisfy them. -/
def RespectsDependencies (w : ManagedServices) : Env × ServiceCall → Prop
  | (env, .enableService anchor serviceCode) =>
    isInMaintenance env w.storage anchor serviceCode = true ∨
      assertDependenciesMet w anchor serviceCode = .ok ()
  | (env, .disableService anchor serviceCode) =>
    isInMaintenance env w.storage anchor serviceCode = true ∨
      serviceCode ∈ (ServiceManager.getServiceState w.storage anchor).disabledServices ∨
      assertNoActiveDependents w anchor serviceCode = .ok ()
  | (_, .enableAllServices anchor allServices) => ClosedUnder (w.edges anchor) allServices
  | (_, .rollbackToSnapshot snapshotId) => snapshotId < w.storage.services.snapshotCount →
      ∀ snapshot, w.storage.services.snapshot.get snapshotId = some snapshot →
        ClosedUnder (w.edges snapshot.anchor) snapshot.services
  | (env, .applyTemplate anchor name) => w.application.has (anchor, name) = false →
      ∀ tmpl, w.template.get name = some tmpl →
        ClosedUnder (w.edges anchor) (w.bootstrapped env anchor tmpl)
  | (env, .applyTemplateForce anchor name) => ∀ tmpl, w.template.get name = some tmpl →
      ClosedUnder (w.edges anchor) (w.bootstrapped env anchor tmpl)
  | (_, .addDependency anchor serviceCode dependencyCode) =>
    isReachable (getGraph w.graphs anchor) dependencyCode serviceCode = false →
      serviceCode ∈ w.enabledServices anchor → dependencyCode ∈ w.enabledServices anchor
  | _ => True

section Switches

variable {env : Env} {s s' : Storage} {anchor : Address} {serviceCode : UInt32}

structure SwitchesTo (s s' : Storage) (anchor : Address) (services : List UInt32) : Prop where
  window_eq : s'.services.window = s.services.window
  windowCount_eq : s'.services.windowCount = s.services.windowCount
  self : ∀ c, c ∈ (ServiceManager.getServiceState s' anchor).enabledServices ↔ c ∈ services
  others : ∀ other, other ≠ anchor →
    ServiceManager.getServiceState s' other = ServiceManager.getServiceState s other

def Switches (w w' : ManagedServices) : Option (Address × List UInt32) → Prop
  | some (anchor, services) => SwitchesTo w.storage w'.storage anchor services
  | none => w'.storage.services.toggles = w.storage.services.toggles

theorem switchesTo_refl (s : Storage) (anchor : Address) :
    SwitchesTo s s anchor (ServiceManager.getServiceState s anchor).enabledServices :=
  ⟨rfl, rfl, fun _ => Iff.rfl, fun _ _ => rfl⟩

theorem switchesTo_store (s : Storage) (anchor : Address) (state : ServiceToggleState) :
    SwitchesTo s (ServiceManager.storeServiceState s anchor state) anchor state.enabledServices := by
  refine ⟨rfl, rfl, fun c => ?_, fun other hother => ?_⟩
  · simp [ServiceManager.getServiceState, ServiceManager.storeServiceState]
  · simp [ServiceManager.getServiceState, ServiceManager.storeServiceState,
      KeyedStore.get_set_of_ne _ _ hother]

theorem SwitchesTo.isInMaintenance_eq {services : List UInt32}
    (h : SwitchesTo s s' anchor services) (other : Address) (serviceCode : UInt32) :
    isInMaintenance env s' other serviceCode = isInMaintenance env s other serviceCode := by
  unfold isInMaintenance
  rw [h.window_eq, h.windowCount_eq]

theorem enableService_refused (h : isInMaintenance env s anchor serviceCode = true) :
    ServiceManager.enableService env s anchor serviceCode =
      .error (.serviceInMaintenance serviceCode) := by
  unfold ServiceManager.enableService
  rw [h]
  rfl

theorem disableService_refused (h : isInMaintenance env s anchor serviceCode = true) :
    ServiceManager.disableService env s anchor serviceCode =
      .error (.serviceInMaintenance serviceCode) := by
  unfold ServiceManager.disableService
  rw [h]
  rfl

theorem enableService_switches (h : isInMaintenance env s anchor serviceCode = false) :
    ∃ s' changed, ServiceManager.enableService env s anchor serviceCode = .ok (s', changed) ∧
      SwitchesTo s s' anchor
        (Roster.pushIfAbsent (ServiceManager.getServiceState s anchor).enabledServices
          serviceCode) := by
  unfold ServiceManager.enableService Roster.pushIfAbsent
  rw [h]
  by_cases hon : serviceCode ∈ (ServiceManager.getServiceState s anchor).enabledServices
  · rw [if_pos hon]
    refine ⟨s, false, ?_, switchesTo_refl s anchor⟩
    simp only [List.contains_iff_mem.mpr hon, if_true]
    rfl
  · rw [if_neg hon]
    let state := ServiceManager.getServiceState s anchor
    refine ⟨_, true, ?_, switchesTo_store s anchor ⟨state.anchor,
      state.enabledServices ++ [serviceCode], state.disabledServices.filter (· ≠ serviceCode),
      env.timestamp⟩⟩
    simp only [mt List.contains_iff_mem.mp hon]
    rfl

theorem disableService_switches (h : isInMaintenance env s anchor serviceCode = false)
    (hon : serviceCode ∉ (ServiceManager.getServiceState s anchor).disabledServices) :
    ∃ s' changed, ServiceManager.disableService env s anchor serviceCode = .ok (s', changed) ∧
      SwitchesTo s s' anchor
        ((ServiceManager.getServiceState s anchor).enabledServices.filter (· ≠ serviceCode)) := by
  unfold ServiceManager.disableService
  rw [h]
  let state := ServiceManager.getServiceState s anchor
  refine ⟨_, true, ?_, switchesTo_store s anchor ⟨state.anchor,
    state.enabledServices.filter (· ≠ serviceCode), state.disabledServices ++ [serviceCode],
    env.timestamp⟩⟩
  simp only [mt List.contains_iff_mem.mp hon]
  rfl

theorem disableService_unchanged
    (h : isInMaintenance env s anchor serviceCode = true ∨
      serviceCode ∈ (ServiceManager.getServiceState s anchor).disabledServices) :
    (orUnchanged s (ServiceManager.disableService env s anchor serviceCode)).1 = s := by
  cases hwindow : isInMaintenance env s anchor serviceCode with
  | true =>
    rw [disableService_refused hwindow]
    rfl
  | false =>
    have hoff := h.resolve_left (by simp [hwindow])
    unfold ServiceManager.disableService
    rw [hwindow]
    simp only [List.contains_iff_mem.mpr hoff, if_true]
    rfl

theorem enableEach_switches (env : Env) (anchor : Address) (services : List UInt32)
    (s : Storage) :
    SwitchesTo s (TemplateManager.enableEach env s anchor services).1 anchor
      ((ServiceManager.getServiceState s anchor).enabledServices ++
        services.takeWhile fun serviceCode => !isInMaintenance env s anchor serviceCode) := by
  induction services generalizing s with
  | nil =>
    rw [List.takeWhile_nil, List.append_nil]
    exact switchesTo_refl s anchor
  | cons serviceCode rest ih =>
    cases hwindow : isInMaintenance env s anchor serviceCode with
    | true =>
      rw [TemplateManager.enableEach, enableService_refused hwindow,
        List.takeWhile_cons_of_neg (by simp [hwindow]), List.append_nil]
      exact switchesTo_refl s anchor
    | false =>
      obtain ⟨middle, changed, hok, hfirst⟩ := enableService_switches hwindow
      have hrest := ih middle
      rw [TemplateManager.enableEach, hok, List.takeWhile_cons_of_pos (by simp [hwindow])]
      refine ⟨hrest.window_eq.trans hfirst.window_eq,
        hrest.windowCount_eq.trans hfirst.windowCount_eq, fun c => ?_, fun other hother => ?_⟩
      · simp only [hrest.self, List.mem_append, hfirst.self, hfirst.isInMaintenance_eq,
          Roster.mem_pushIfAbsent, List.mem_cons]
        tauto
      · rw [hrest.others other hother, hfirst.others other hother]

end Switches

section Enforcement

variable {env : Env} {w w' : ManagedServices} {anchor : Address} {serviceCode : UInt32}

theorem assertDependenciesMet_eq_ok : assertDependenciesMet w anchor serviceCode = .ok () ↔
    ∀ e ∈ w.edges anchor, e.serviceCode = serviceCode →
      e.dependencyCode ∈ w.enabledServices anchor := by
  unfold assertDependenciesMet
  rw [forM_eq_ok]
  refine forall₂_congr fun e _ => ?_
  by_cases he : e.serviceCode = serviceCode
  · rw [if_pos he, require_eq_ok, ManagedServices.isEnabled, ServiceManager.isServiceEnabled,
      List.contains_iff_mem]
    exact (imp_iff_right he).symm
  · rw [if_neg he]
    exact iff_of_true rfl fun h => absurd h he

theorem assertNoActiveDependents_eq_ok : assertNoActiveDependents w anchor serviceCode = .ok () ↔
    ∀ e ∈ w.edges anchor, e.dependencyCode = serviceCode →
      e.serviceCode ∉ w.enabledServices anchor := by
  unfold assertNoActiveDependents
  rw [forM_eq_ok]
  refine forall₂_congr fun e _ => ?_
  rw [require_eq_ok, ManagedServices.isEnabled, ServiceManager.isServiceEnabled,
    List.contains_iff_mem, not_and]
  rfl

/-- After a switch the requirements are met exactly when the anchor's new list meets its own. -/
theorem enforced_iff_of_switches {storage : Storage} {services : List UInt32}
    (h : SwitchesTo w.storage storage anchor services) (hpre : w.Enforced)
    (hstorage : w'.storage = storage) (hgraphs : w'.graphs = w.graphs) :
    w'.Enforced ↔ ClosedUnder (w.edges anchor) services := by
  have hedges (other : Address) : w'.edges other = w.edges other := by
    unfold ManagedServices.edges
    rw [hgraphs]
  have hself (c : UInt32) : c ∈ w'.enabledServices anchor ↔ c ∈ services := by
    unfold ManagedServices.enabledServices
    rw [hstorage]
    exact h.self c
  constructor
  · intro hpost e he hservice
    rw [← hself] at hservice ⊢
    exact hpost anchor e (by rwa [hedges]) hservice
  · intro hclosed other
    by_cases hother : other = anchor
    · subst hother
      intro e he hservice
      rw [hself] at hservice ⊢
      exact hclosed e (by rwa [hedges] at he) hservice
    · unfold ManagedServices.enabledServices
      rw [hedges, hstorage, h.others other hother]
      exact hpre other

/-- Where nothing is switched the requirements stay met. -/
theorem enforced_of_unswitched (hpre : w.Enforced)
    (htoggles : w'.storage.services.toggles = w.storage.services.toggles)
    (hgraphs : w'.graphs = w.graphs) : w'.Enforced := by
  intro other
  unfold ManagedServices.edges ManagedServices.enabledServices ServiceManager.getServiceState
  rw [hgraphs, htoggles]
  exact hpre other

theorem closedUnder_pushIfAbsent (hpre : w.Enforced) (hself : w.NoSelfEdges) :
    ClosedUnder (w.edges anchor) (Roster.pushIfAbsent (w.enabledServices anchor) serviceCode) ↔
      assertDependenciesMet w anchor serviceCode = .ok () := by
  rw [assertDependenciesMet_eq_ok]
  constructor
  · rintro h e he rfl
    have hon := h e he (Roster.mem_pushIfAbsent.mpr (Or.inl rfl))
    exact (Roster.mem_pushIfAbsent.mp hon).resolve_left fun heq => hself anchor e he heq.symm
  · intro h e he hservice
    rw [Roster.mem_pushIfAbsent]
    rcases Roster.mem_pushIfAbsent.mp hservice with heq | hon
    · exact Or.inr (h e he heq)
    · exact Or.inr (hpre anchor e he hon)

theorem closedUnder_filter (hpre : w.Enforced) (hself : w.NoSelfEdges) :
    ClosedUnder (w.edges anchor) ((w.enabledServices anchor).filter (· ≠ serviceCode)) ↔
      assertNoActiveDependents w anchor serviceCode = .ok () := by
  rw [assertNoActiveDependents_eq_ok]
  simp only [ClosedUnder, List.mem_filter, decide_eq_true_eq]
  constructor
  · rintro h e he rfl hon
    exact (h e he ⟨hon, hself anchor e he⟩).2 rfl
  · rintro h e he ⟨hon, _⟩
    exact ⟨hpre anchor e he hon, fun heq => h e he heq hon⟩

/-- A call that edits edges keeps the requirements met exactly when the anchor's enabled services
meet the new ones. -/
theorem enforced_iff_of_edited {graphs : DependencyStore} {edges : List ServiceDependency}
    (h : ChangesEdges w.graphs graphs anchor edges) (hpre : w.Enforced) :
    ManagedServices.Enforced { w with graphs } ↔ ClosedUnder edges (w.enabledServices anchor) := by
  constructor
  · intro hpost
    have hclosed := hpost anchor
    unfold ManagedServices.edges at hclosed
    rwa [h.edges_eq] at hclosed
  · intro hclosed other
    unfold ManagedServices.edges
    by_cases hother : other = anchor
    · subst hother
      rw [h.edges_eq]
      exact hclosed
    · rw [h.others other hother]
      exact hpre other

theorem createSnapshot_toggles {s s' : Storage} {services : List UInt32} {description : String}
    {snapshotId : UInt64}
    (h : ServiceManager.createSnapshot env s anchor services description =
      .ok (.ok (s', snapshotId))) : s'.services.toggles = s.services.toggles := by
  unfold ServiceManager.createSnapshot at h
  dsimp only at h
  split at h
  · cases h
  · simp only [bind_eq_ok, pure_eq_ok, Except.ok.injEq, Prod.mk.injEq] at h
    obtain ⟨_, _, rfl, _⟩ := h
    rfl

theorem scheduleWindow_toggles {s s' : Storage} {startTime endTime : UInt64} {description : String}
    {affectedServices : List UInt32} {windowId : UInt64}
    (h : MaintenanceManager.scheduleWindow s anchor startTime endTime description affectedServices =
      .ok (.ok (s', windowId))) : s'.services.toggles = s.services.toggles := by
  unfold MaintenanceManager.scheduleWindow at h
  dsimp only at h
  split at h
  · cases h
  · simp only [bind_eq_ok, pure_eq_ok, Except.ok.injEq, Prod.mk.injEq] at h
    obtain ⟨_, _, rfl, _⟩ := h
    rfl

theorem registerTemplate_eq_ok {name : String} {services : List UInt32} {description : String}
    {version : UInt32}
    (h : TemplateManager.registerTemplate w name services description version = .ok w') :
    ∃ template, w' = { w with template := template } := by
  simp only [TemplateManager.registerTemplate, require_bind_eq_ok, pure_eq_ok] at h
  obtain ⟨_, _, rfl⟩ := h
  exact ⟨_, rfl⟩

theorem registerTemplate_of_step {name : String} {services : List UInt32} {description : String}
    {version : UInt32}
    (ht : managedStep w (env, .registerTemplate name services description version) = .ok w') :
    ∃ template, w' = { w with template := template } := by
  simp only [managedStep] at ht
  split at ht
  · rename_i hok
    obtain rfl := Except.ok.inj ht
    exact registerTemplate_eq_ok hok
  · obtain rfl := Except.ok.inj ht
    exact ⟨w.template, rfl⟩

theorem seedTemplate_kept (w : ManagedServices) (name : String) (services : List UInt32)
    (description : String) :
    (TemplateManager.seedTemplate w name services description).storage = w.storage ∧
      (TemplateManager.seedTemplate w name services description).graphs = w.graphs := by
  unfold TemplateManager.seedTemplate
  split
  · exact ⟨rfl, rfl⟩
  · split
    · rename_i hok
      obtain ⟨_, rfl⟩ := registerTemplate_eq_ok hok
      exact ⟨rfl, rfl⟩
    · exact ⟨rfl, rfl⟩

theorem seedBuiltinTemplates_kept (w : ManagedServices) :
    (TemplateManager.seedBuiltinTemplates w).storage = w.storage ∧
      (TemplateManager.seedBuiltinTemplates w).graphs = w.graphs := by
  simp only [TemplateManager.seedBuiltinTemplates, seedTemplate_kept, and_self]

theorem rollbackToSnapshot_restores {s : Storage} {snapshotId : UInt64}
    {snapshot : ServiceConfigSnapshot} (hid : snapshotId < s.services.snapshotCount)
    (hget : s.services.snapshot.get snapshotId = some snapshot) :
    SwitchesTo s (ServiceManager.rollbackToSnapshot env s snapshotId).1 snapshot.anchor
      snapshot.services := by
  unfold ServiceManager.rollbackToSnapshot
  rw [if_neg (by simpa using hid), hget]
  exact switchesTo_store s snapshot.anchor _

theorem rollbackToSnapshot_unchanged {s : Storage} {snapshotId : UInt64}
    (h : snapshotId < s.services.snapshotCount → s.services.snapshot.get snapshotId = none) :
    (ServiceManager.rollbackToSnapshot env s snapshotId).1 = s := by
  unfold ServiceManager.rollbackToSnapshot
  split
  · rfl
  · rename_i hid
    rw [h (by simpa using hid)]

theorem applyTemplate_switches (env : Env) (anchor : Address) (name : String) :
    Switches w (TemplateManager.applyTemplate env w anchor name).1
      (w.switchedTo (env, .applyTemplate anchor name)) := by
  unfold TemplateManager.applyTemplate
  simp only [ManagedServices.switchedTo]
  cases htemplate : w.template.get name with
  | none =>
    rw [Option.map_none, ite_self]
    exact Eq.refl w.storage.services.toggles
  | some tmpl =>
    cases happlied : w.application.has (anchor, name) with
    | true => exact Eq.refl w.storage.services.toggles
    | false =>
      have hswitch := enableEach_switches env anchor tmpl.services w.storage
      simp only [Bool.false_eq_true, if_false, Option.map_some]
      split
      · rename_i hresult
        rw [hresult] at hswitch
        exact hswitch
      · rename_i hresult
        rw [hresult] at hswitch
        exact hswitch

/-- Every call switches what `switchedTo` says. -/
theorem switches_of_step {i : Env × ServiceCall} (ht : managedStep w i = .ok w') :
    Switches w w' (w.switchedTo i) := by
  obtain ⟨env, call⟩ := i
  have hnothing : Switches w w none := Eq.refl w.storage.services.toggles
  cases call with
  | enableService anchor serviceCode =>
    obtain rfl := Except.ok.inj ht
    simp only [ManagedServices.switchedTo]
    cases hwindow : isInMaintenance env w.storage anchor serviceCode with
    | true =>
      rw [enableService_refused hwindow, if_pos rfl]
      exact hnothing
    | false =>
      obtain ⟨storage, changed, hok, hswitch⟩ := enableService_switches hwindow
      rw [hok, if_neg Bool.false_ne_true]
      exact hswitch
  | disableService anchor serviceCode =>
    obtain rfl := Except.ok.inj ht
    simp only [ManagedServices.switchedTo]
    by_cases hkept : isInMaintenance env w.storage anchor serviceCode = true ∨
        serviceCode ∈ (ServiceManager.getServiceState w.storage anchor).disabledServices
    · rw [disableService_unchanged hkept, if_pos hkept]
      exact hnothing
    · obtain ⟨hwindow, hon⟩ := not_or.mp hkept
      obtain ⟨storage, changed, hok, hswitch⟩ :=
        disableService_switches (Bool.not_eq_true _ ▸ hwindow) hon
      rw [hok, if_neg hkept]
      exact hswitch
  | enableAllServices anchor allServices =>
    obtain rfl := Except.ok.inj ht
    exact switchesTo_store _ anchor _
  | disableAllServices anchor allServices =>
    obtain rfl := Except.ok.inj ht
    exact switchesTo_store _ anchor ⟨anchor, [], allServices, env.timestamp⟩
  | createSnapshot anchor services description =>
    simp only [managedStep, bind_eq_ok] at ht
    obtain ⟨result, hresult, ht⟩ := ht
    split at ht
    · obtain rfl := Except.ok.inj ht
      exact createSnapshot_toggles hresult
    · obtain rfl := Except.ok.inj ht
      exact hnothing
  | rollbackToSnapshot snapshotId =>
    obtain rfl := Except.ok.inj ht
    simp only [ManagedServices.switchedTo]
    by_cases hid : snapshotId < w.storage.services.snapshotCount
    · rw [if_pos hid]
      cases hget : w.storage.services.snapshot.get snapshotId with
      | none =>
        rw [rollbackToSnapshot_unchanged fun _ => hget]
        exact hnothing
      | some snapshot => exact rollbackToSnapshot_restores hid hget
    · rw [if_neg hid, rollbackToSnapshot_unchanged fun h => absurd h hid]
      exact hnothing
  | scheduleWindow anchor startTime endTime description affectedServices =>
    simp only [managedStep, bind_eq_ok] at ht
    obtain ⟨result, hresult, ht⟩ := ht
    split at ht
    · obtain rfl := Except.ok.inj ht
      exact scheduleWindow_toggles hresult
    · obtain rfl := Except.ok.inj ht
      exact hnothing
  | cancelWindow windowId =>
    obtain rfl := Except.ok.inj ht
    have htoggles : (MaintenanceManager.cancelWindow w.storage windowId).1.services.toggles =
        w.storage.services.toggles := by
      unfold MaintenanceManager.cancelWindow
      split <;> rfl
    exact htoggles
  | registerTemplate name services description version =>
    obtain ⟨_, rfl⟩ := registerTemplate_of_step ht
    exact hnothing
  | seedBuiltinTemplates =>
    obtain rfl := Except.ok.inj ht
    have hstorage := (seedBuiltinTemplates_kept w).1
    exact congrArg (fun storage : Storage => storage.services.toggles) hstorage
  | applyTemplate anchor name =>
    obtain rfl := Except.ok.inj ht
    exact applyTemplate_switches env anchor name
  | applyTemplateForce anchor name =>
    obtain rfl := Except.ok.inj ht
    let cleared : ManagedServices :=
      { w with application := w.application.remove (anchor, name) }
    have hfree : cleared.application.has (anchor, name) = false := by
      simp [cleared, KeyedStore.has_remove]
    have hswitch := applyTemplate_switches (w := cleared) env anchor name
    rw [ManagedServices.switchedTo, hfree] at hswitch
    exact hswitch
  | addDependency anchor a b =>
    simp only [managedStep] at ht
    split at ht <;> (obtain rfl := Except.ok.inj ht; exact hnothing)
  | removeDependency anchor a b =>
    simp only [managedStep] at ht
    split at ht <;> (obtain rfl := Except.ok.inj ht; exact hnothing)

theorem applyTemplate_graphs (env : Env) (w : ManagedServices) (anchor : Address) (name : String) :
    (TemplateManager.applyTemplate env w anchor name).1.graphs = w.graphs := by
  unfold TemplateManager.applyTemplate
  split
  · rfl
  · split
    · rfl
    · split <;> rfl

/-- Apart from the two calls that edit edges, no call does. -/
theorem graphs_of_step {call : ServiceCall} (ht : managedStep w (env, call) = .ok w') :
    w'.graphs = w.graphs ∨
      (∃ anchor a b, call = .addDependency anchor a b) ∨
      ∃ anchor a b, call = .removeDependency anchor a b := by
  cases call with
  | addDependency anchor a b => exact Or.inr (Or.inl ⟨anchor, a, b, rfl⟩)
  | removeDependency anchor a b => exact Or.inr (Or.inr ⟨anchor, a, b, rfl⟩)
  | createSnapshot anchor services description =>
    simp only [managedStep, bind_eq_ok] at ht
    obtain ⟨result, _, ht⟩ := ht
    left
    cases result <;> (obtain rfl := Except.ok.inj ht; rfl)
  | scheduleWindow anchor startTime endTime description affectedServices =>
    simp only [managedStep, bind_eq_ok] at ht
    obtain ⟨result, _, ht⟩ := ht
    left
    cases result <;> (obtain rfl := Except.ok.inj ht; rfl)
  | registerTemplate name services description version =>
    obtain ⟨_, rfl⟩ := registerTemplate_of_step ht
    exact Or.inl rfl
  | seedBuiltinTemplates =>
    obtain rfl := Except.ok.inj ht
    exact Or.inl (seedBuiltinTemplates_kept w).2
  | applyTemplate anchor name =>
    obtain rfl := Except.ok.inj ht
    exact Or.inl (applyTemplate_graphs env w anchor name)
  | applyTemplateForce anchor name =>
    obtain rfl := Except.ok.inj ht
    exact Or.inl (applyTemplate_graphs env _ anchor name)
  | _ =>
    obtain rfl := Except.ok.inj ht
    exact Or.inl rfl

theorem addDependency_enforced_iff {a b : UInt32}
    (ht : managedStep w (env, .addDependency anchor a b) = .ok w') (hpre : w.Enforced) :
    w'.Enforced ↔ RespectsDependencies w (env, .addDependency anchor a b) := by
  cases hfound : isReachable (getGraph w.graphs anchor) b a with
  | true =>
    simp only [managedStep, addDependency_error hfound] at ht
    obtain rfl := Except.ok.inj ht
    simp only [RespectsDependencies, hfound]
    exact iff_of_true hpre fun hfalse => Bool.noConfusion hfalse
  | false =>
    obtain ⟨graphs, hok, hchanges⟩ := addDependency_ok hfound
    simp only [managedStep, hok] at ht
    obtain rfl := Except.ok.inj ht
    rw [enforced_iff_of_edited hchanges hpre]
    simp only [RespectsDependencies, hfound, forall_const]
    constructor
    · exact fun hclosed => hclosed ⟨a, b⟩ (Roster.mem_pushIfAbsent.mpr (Or.inl rfl))
    · intro hnew e he
      rcases Roster.mem_pushIfAbsent.mp he with rfl | hold
      · exact hnew
      · exact hpre anchor e hold

/-- A call keeps the requirements met exactly when it respects them. -/
theorem enforced_iff_of_step {t : ManagedTransition} (ht : managedStep t.pre t.input = .ok t.post)
    (hself : t.pre.NoSelfEdges) (hpre : t.pre.Enforced) :
    t.post.Enforced ↔ RespectsDependencies t.pre t.input := by
  obtain ⟨w, ⟨env, call⟩, w'⟩ := t
  dsimp only at *
  have hswitch := switches_of_step ht
  rcases graphs_of_step ht with hgraphs | ⟨anchor, a, b, rfl⟩ | ⟨anchor, a, b, rfl⟩
  · have hkept (h : Switches w w' none) : w'.Enforced := enforced_of_unswitched hpre h hgraphs
    have hset {anchor : Address} {services : List UInt32}
        (h : Switches w w' (some (anchor, services))) :
        w'.Enforced ↔ ClosedUnder (w.edges anchor) services :=
      enforced_iff_of_switches h hpre rfl hgraphs
    cases call with
    | enableService anchor serviceCode =>
      simp only [ManagedServices.switchedTo] at hswitch
      split at hswitch
      · rename_i hwindow
        exact iff_of_true (hkept hswitch) (Or.inl hwindow)
      · rename_i hwindow
        rw [hset hswitch, closedUnder_pushIfAbsent hpre hself, RespectsDependencies,
          or_iff_right hwindow]
    | disableService anchor serviceCode =>
      simp only [ManagedServices.switchedTo] at hswitch
      rw [RespectsDependencies, ← or_assoc]
      split at hswitch
      · rename_i hoff
        exact iff_of_true (hkept hswitch) (Or.inl hoff)
      · rename_i hon
        rw [hset hswitch, closedUnder_filter hpre hself, or_iff_right hon]
    | enableAllServices anchor allServices => exact hset hswitch
    | disableAllServices anchor allServices =>
      have hoff : ClosedUnder (w.edges anchor) [] := fun _ _ h => nomatch h
      exact iff_of_true ((hset hswitch).mpr hoff) trivial
    | rollbackToSnapshot snapshotId =>
      simp only [ManagedServices.switchedTo] at hswitch
      simp only [RespectsDependencies]
      split at hswitch
      · rename_i hid
        cases hget : w.storage.services.snapshot.get snapshotId with
        | none =>
          rw [hget] at hswitch
          refine iff_of_true (hkept hswitch) fun _ _ hsome => ?_
          cases hsome
        | some snapshot =>
          rw [hget] at hswitch
          simp only [hid, forall_const, Option.some.injEq, forall_eq']
          exact hset hswitch
      · rename_i hid
        exact iff_of_true (hkept hswitch) fun h => absurd h hid
    | applyTemplate anchor name =>
      simp only [ManagedServices.switchedTo] at hswitch
      simp only [RespectsDependencies]
      split at hswitch
      · rename_i happlied
        refine iff_of_true (hkept hswitch) fun hfree => ?_
        rw [happlied] at hfree
        cases hfree
      · rename_i hfree
        simp only [Bool.not_eq_true] at hfree
        cases hget : w.template.get name with
        | none =>
          rw [hget] at hswitch
          refine iff_of_true (hkept hswitch) fun _ _ hsome => ?_
          cases hsome
        | some tmpl =>
          rw [hget] at hswitch
          simp only [hfree, forall_const, Option.some.injEq, forall_eq']
          exact hset hswitch
    | applyTemplateForce anchor name =>
      simp only [ManagedServices.switchedTo] at hswitch
      simp only [RespectsDependencies]
      cases hget : w.template.get name with
      | none =>
        rw [hget] at hswitch
        refine iff_of_true (hkept hswitch) fun _ hsome => ?_
        cases hsome
      | some tmpl =>
        rw [hget] at hswitch
        simp only [Option.some.injEq, forall_eq']
        exact hset hswitch
    | addDependency anchor a b => exact addDependency_enforced_iff ht hpre
    | _ => exact iff_of_true (hkept hswitch) trivial
  · exact addDependency_enforced_iff ht hpre
  · obtain ⟨graphs, hok, hchanges⟩ := removeDependency_ok w.graphs anchor a b
    simp only [managedStep, hok] at ht
    obtain rfl := Except.ok.inj ht
    rw [enforced_iff_of_edited hchanges hpre]
    exact iff_of_true (fun e he => hpre anchor e (List.mem_filter.mp he).1) trivial

/-- No call adds an edge from a service to itself. -/
theorem noSelfEdges_of_step {t : ManagedTransition} (ht : managedStep t.pre t.input = .ok t.post)
    (hpre : t.pre.NoSelfEdges) : t.post.NoSelfEdges := by
  obtain ⟨w, ⟨env, call⟩, w'⟩ := t
  dsimp only at *
  have hedited {graphs : DependencyStore} {anchor : Address} {edges : List ServiceDependency}
      (h : ChangesEdges w.graphs graphs anchor edges)
      (hedges : ∀ e ∈ edges, e.serviceCode ≠ e.dependencyCode) :
      ManagedServices.NoSelfEdges { w with graphs } := by
    intro other e he
    unfold ManagedServices.edges at he
    by_cases hother : other = anchor
    · subst hother
      rw [h.edges_eq] at he
      exact hedges e he
    · rw [h.others other hother] at he
      exact hpre other e he
  rcases graphs_of_step ht with hgraphs | ⟨anchor, a, b, rfl⟩ | ⟨anchor, a, b, rfl⟩
  · unfold ManagedServices.NoSelfEdges ManagedServices.edges at hpre ⊢
    rwa [hgraphs]
  · cases hfound : isReachable (getGraph w.graphs anchor) b a with
    | true =>
      simp only [managedStep, addDependency_error hfound] at ht
      obtain rfl := Except.ok.inj ht
      exact hpre
    | false =>
      obtain ⟨graphs, hok, hchanges⟩ := addDependency_ok hfound
      simp only [managedStep, hok] at ht
      obtain rfl := Except.ok.inj ht
      refine hedited hchanges fun e he => ?_
      rcases Roster.mem_pushIfAbsent.mp he with rfl | hold
      · intro heq
        rw [isReachable_iff.mpr (Or.inl (Eq.symm heq))] at hfound
        cases hfound
      · exact hpre anchor e hold
  · obtain ⟨graphs, hok, hchanges⟩ := removeDependency_ok w.graphs anchor a b
    simp only [managedStep, hok] at ht
    obtain rfl := Except.ok.inj ht
    exact hedited hchanges fun e he => hpre anchor e (List.mem_filter.mp he).1

end Enforcement

/-- In every run no service is ever on while one of its requirements is not exactly when all calls
respect the requirements. -/
theorem dependencies_enforced_iff (calls : List (Env × ServiceCall)) :
    (∀ before, before <+: calls → (managedRun before).Enforced) ↔
      ∀ t ∈ managedHistory calls, RespectsDependencies t.pre t.input := by
  have hempty (anchor : Address) (e : ServiceDependency) : e ∉ ManagedServices.empty.edges anchor :=
    List.not_mem_nil
  apply Machine.forall_prefix_invariant_iff managedStep (fun _ w => w.Enforced)
    (fun _ w => w.NoSelfEdges)
  · exact fun anchor e he => absurd he (hempty anchor e)
  · exact fun anchor e he => absurd he (hempty anchor e)
  · exact fun _ t ht hself hpre => enforced_iff_of_step ht hself hpre
  · exact fun _ t ht hself _ _ => noSelfEdges_of_step ht hself

namespace Demo

def anchor : Address := ⟨"GANCHOR"⟩

def unmetCalls : List (Env × ServiceCall) :=
  [(⟨0, 0, []⟩, .addDependency anchor 2 1), (⟨0, 0, []⟩, .enableService anchor 2)]

end Demo

/-- The service comes on although its requirement never did. -/
theorem enabled_without_requirement :
    ¬ ∀ before, before <+: Demo.unmetCalls → (managedRun before).Enforced := by
  intro h
  have hleaf : isReachable (getGraph KeyedStore.empty Demo.anchor) 1 2 = false := by
    rw [← Bool.not_eq_true, isReachable_iff, not_or]
    exact ⟨by decide, not_findable_of_leaf rfl⟩
  obtain ⟨graphs, hok, hchanges⟩ := addDependency_ok hleaf
  have hadd : managedStep .empty (⟨0, 0, []⟩, .addDependency Demo.anchor 2 1) =
      .ok { ManagedServices.empty with graphs } := by
    simp only [managedStep, ManagedServices.empty, hok]
    rfl
  have hrun := h Demo.unmetCalls List.prefix_rfl
  simp only [managedRun, Machine.run, Demo.unmetCalls, List.foldl_cons, List.foldl_nil,
    Machine.commit_ok _ hadd] at hrun
  have hmem : (⟨2, 1⟩ : ServiceDependency) ∈ (getGraph graphs Demo.anchor).edges := by
    rw [hchanges.edges_eq]
    decide
  have hon : (2 : UInt32) ∈ [2] := List.mem_singleton_self 2
  have honly : (1 : UInt32) ∈ [2] := hrun Demo.anchor ⟨2, 1⟩ hmem hon
  revert honly
  decide

end AnchorKit
