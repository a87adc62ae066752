import AnchorKit.DependencyEnforcement
import Mathlib.Data.List.TakeWhile

/-!
# What maintenance blocks

While a window of an anchor is active the services that it covers are not to be switched. The
single switches and the templates look at the windows, the bulk switches and the rollback do not.
-/

namespace AnchorKit

open Fallible

/-- Some window of the anchor is active and affects the service. -/
def Covered (env : Env) (w : ManagedServices) (anchor : Address) (serviceCode : UInt32) : Prop :=
  ∃ windowId window, w.storage.services.window.get windowId = some window ∧
    window.anchor = anchor ∧ window.isActive env = true ∧ window.affectsService serviceCode = true

/-- No covered service is switched. -/
def KeepsCovered (t : ManagedTransition) : Prop :=
  ∀ anchor serviceCode, Covered t.input.1 t.pre anchor serviceCode →
    t.post.isEnabled anchor serviceCode = t.pre.isEnabled anchor serviceCode

/-- The list has the covered services that are on, and no other covered service. -/
def AgreesOnCovered (env : Env) (w : ManagedServices) (anchor : Address) (services : List UInt32) :
    Prop :=
  ∀ serviceCode, Covered env w anchor serviceCode →
    (serviceCode ∈ services ↔ serviceCode ∈ w.enabledServices anchor)

/-- A call that replaces all the services of an anchor replaces no covered one. -/
def LeavesCovered (w : ManagedServices) : Env × ServiceCall → Prop
  | (env, .enableAllServices anchor allServices) => AgreesOnCovered env w anchor allServices
  | (env, .disableAllServices anchor _) => AgreesOnCovered env w anchor []
  | (env, .rollbackToSnapshot snapshotId) => snapshotId < w.storage.services.snapshotCount →
      ∀ snapshot, w.storage.services.snapshot.get snapshotId = some snapshot →
        AgreesOnCovered env w snapshot.anchor snapshot.services
  | _ => True

def ManagedServices.WindowsNumbered (w : ManagedServices) : Prop :=
  ∀ windowId window, w.storage.services.window.get windowId = some window →
    windowId < w.storage.services.windowCount

section Windows

variable {env : Env} {w w' : ManagedServices} {anchor : Address} {serviceCode : UInt32}

theorem isInMaintenance_iff (h : w.WindowsNumbered) :
    isInMaintenance env w.storage anchor serviceCode = true ↔ Covered env w anchor serviceCode := by
  unfold isInMaintenance
  rw [List.any_eq_true]
  constructor
  · intro ⟨id, _, hfound⟩
    split at hfound
    · rename_i window hget
      simp only [Bool.and_eq_true, decide_eq_true_eq] at hfound
      exact ⟨UInt64.ofNat id, window, hget, hfound.1.1, hfound.1.2, hfound.2⟩
    · cases hfound
  · intro ⟨windowId, window, hget, hanchor, hactive, haffects⟩
    refine ⟨windowId.toNat, List.mem_range.mpr ?_, ?_⟩
    · exact UInt64.lt_iff_toNat_lt.mp (h windowId window hget)
    · rw [UInt64.ofNat_toNat, hget]
      simp only [hanchor, hactive, haffects, decide_true, Bool.and_self]

def Storage.windows (s : Storage) : KeyedStore UInt64 MaintenanceWindow × UInt64 :=
  (s.services.window, s.services.windowCount)

theorem SwitchesTo.windows_eq {s s' : Storage} {services : List UInt32}
    (h : SwitchesTo s s' anchor services) : s'.windows = s.windows := by
  unfold Storage.windows
  rw [h.window_eq, h.windowCount_eq]

theorem applyTemplate_windows (env : Env) (w : ManagedServices) (anchor : Address) (name : String) :
    (TemplateManager.applyTemplate env w anchor name).1.storage.windows = w.storage.windows := by
  unfold TemplateManager.applyTemplate
  split
  · rfl
  · rename_i tmpl _
    have hswitch := enableEach_switches env anchor tmpl.services w.storage
    split
    · rfl
    · split
      · rename_i hresult
        rw [hresult] at hswitch
        exact hswitch.windows_eq
      · rename_i hresult
        rw [hresult] at hswitch
        exact hswitch.windows_eq

theorem windows_of_step {call : ServiceCall} (ht : managedStep w (env, call) = .ok w') :
    w'.storage.windows = w.storage.windows ∨
      (∃ anchor startTime endTime description affectedServices,
        call = .scheduleWindow anchor startTime endTime description affectedServices) ∨
      ∃ windowId, call = .cancelWindow windowId := by
  cases call with
  | scheduleWindow anchor startTime endTime description affectedServices =>
    exact Or.inr (Or.inl ⟨anchor, startTime, endTime, description, affectedServices, rfl⟩)
  | cancelWindow windowId => exact Or.inr (Or.inr ⟨windowId, rfl⟩)
  | enableService anchor serviceCode =>
    obtain rfl := Except.ok.inj ht
    left
    cases hwindow : isInMaintenance env w.storage anchor serviceCode with
    | true =>
      rw [enableService_refused hwindow]
      rfl
    | false =>
      obtain ⟨storage, changed, hok, hswitch⟩ := enableService_switches hwindow
      rw [hok]
      exact hswitch.windows_eq
  | disableService anchor serviceCode =>
    obtain rfl := Except.ok.inj ht
    left
    by_cases hkept : isInMaintenance env w.storage anchor serviceCode = true ∨
        serviceCode ∈ (ServiceManager.getServiceState w.storage anchor).disabledServices
    · rw [disableService_unchanged hkept]
    · obtain ⟨hwindow, hon⟩ := not_or.mp hkept
      obtain ⟨storage, changed, hok, hswitch⟩ :=
        disableService_switches (Bool.not_eq_true _ ▸ hwindow) hon
      rw [hok]
      exact hswitch.windows_eq
  | createSnapshot anchor services description =>
    simp only [managedStep, ServiceManager.createSnapshot, bind_eq_ok] at ht
    left
    obtain ⟨result, hresult, ht⟩ := ht
    split at hresult
    · obtain rfl := Except.ok.inj hresult
      obtain rfl := Except.ok.inj ht
      rfl
    · simp only [bind_eq_ok, pure_eq_ok] at hresult
      obtain ⟨_, _, rfl⟩ := hresult
      obtain rfl := Except.ok.inj ht
      rfl
  | rollbackToSnapshot snapshotId =>
    obtain rfl := Except.ok.inj ht
    left
    unfold ServiceManager.rollbackToSnapshot
    split
    · rfl
    · split <;> rfl
  | registerTemplate name services description version =>
    obtain ⟨_, rfl⟩ := registerTemplate_of_step ht
    exact Or.inl rfl
  | seedBuiltinTemplates =>
    obtain rfl := Except.ok.inj ht
    exact Or.inl (congrArg Storage.windows (seedBuiltinTemplates_kept w).1)
  | applyTemplate anchor name =>
    obtain rfl := Except.ok.inj ht
    exact Or.inl (applyTemplate_windows env w anchor name)
  | applyTemplateForce anchor name =>
    obtain rfl := Except.ok.inj ht
    exact Or.inl (applyTemplate_windows env _ anchor name)
  | addDependency anchor a b =>
    simp only [managedStep] at ht
    left
    split at ht <;> (obtain rfl := Except.ok.inj ht; rfl)
  | removeDependency anchor a b =>
    obtain rfl := Except.ok.inj ht
    exact Or.inl rfl
  | _ =>
    obtain rfl := Except.ok.inj ht
    exact Or.inl rfl

theorem windowsNumbered_of_step {t : ManagedTransition}
    (ht : managedStep t.pre t.input = .ok t.post) (h : t.pre.WindowsNumbered) :
    t.post.WindowsNumbered := by
  obtain ⟨w, ⟨env, call⟩, w'⟩ := t
  dsimp only at *
  rcases windows_of_step ht with hkept | ⟨anchor, startTime, endTime, description, affected, rfl⟩ |
    ⟨windowId, rfl⟩
  · obtain ⟨hwindow, hcount⟩ := Prod.mk.inj hkept
    unfold ManagedServices.WindowsNumbered
    rwa [hwindow, hcount]
  · simp only [managedStep, MaintenanceManager.scheduleWindow, bind_eq_ok] at ht
    obtain ⟨result, hresult, ht⟩ := ht
    split at hresult
    · obtain rfl := Except.ok.inj hresult
      obtain rfl := Except.ok.inj ht
      exact h
    · simp only [bind_eq_ok, pure_eq_ok] at hresult
      obtain ⟨count, hadd, rfl⟩ := hresult
      obtain rfl := Except.ok.inj ht
      have hnext := add64_eq_ok.mp hadd
      intro other window hget
      rw [UInt64.lt_iff_toNat_lt, ← hnext]
      rcases KeyedStore.get_set_cases hget with ⟨rfl, _⟩ | hold
      · exact Nat.lt_succ_self _
      · have hlt := UInt64.lt_iff_toNat_lt.mp (h other window hold)
        exact Nat.lt_succ_of_lt hlt
  · obtain rfl := Except.ok.inj ht
    unfold MaintenanceManager.cancelWindow
    split
    · intro other window hget
      rw [KeyedStore.get_remove] at hget
      split at hget
      · cases hget
      · exact h other window hget
    · exact h

/-- Replacing the services of an anchor spares the covered ones when the lists agree on them. -/
theorem keepsCovered_of_switches {services : List UInt32}
    (h : SwitchesTo w.storage w'.storage anchor services) (call : ServiceCall) :
    KeepsCovered ⟨w, (env, call), w'⟩ ↔ AgreesOnCovered env w anchor services := by
  have hself (c : UInt32) : (w'.isEnabled anchor c = w.isEnabled anchor c) ↔
      (c ∈ services ↔ c ∈ w.enabledServices anchor) := by
    unfold ManagedServices.isEnabled ServiceManager.isServiceEnabled
    rw [Bool.eq_iff_iff, List.contains_iff_mem, List.contains_iff_mem, h.self]
    rfl
  constructor
  · intro hkept c hcovered
    exact (hself c).mp (hkept anchor c hcovered)
  · intro hagree other c hcovered
    by_cases hother : other = anchor
    · subst hother
      exact (hself c).mpr (hagree c hcovered)
    · change ServiceManager.isServiceEnabled w'.storage other c = _
      unfold ServiceManager.isServiceEnabled
      rw [h.others other hother]
      rfl

theorem keepsCovered_of_unswitched (h : Switches w w' none) (call : ServiceCall) :
    KeepsCovered ⟨w, (env, call), w'⟩ := by
  intro anchor c _
  change (ServiceManager.getServiceState w'.storage anchor).enabledServices.contains c = _
  unfold ServiceManager.getServiceState
  rw [show w'.storage.services.toggles = w.storage.services.toggles from h]
  rfl

/-- The windows that the single switches ask about are the ones that cover. -/
theorem agreesOnCovered_pushIfAbsent (h : ¬ Covered env w anchor serviceCode) :
    AgreesOnCovered env w anchor
      (Roster.pushIfAbsent (w.enabledServices anchor) serviceCode) := by
  intro c hcovered
  rw [Roster.mem_pushIfAbsent]
  refine or_iff_right ?_
  intro heq
  subst heq
  exact h hcovered

theorem agreesOnCovered_filter (h : ¬ Covered env w anchor serviceCode) :
    AgreesOnCovered env w anchor ((w.enabledServices anchor).filter (· ≠ serviceCode)) := by
  intro c hcovered
  simp only [List.mem_filter, decide_eq_true_eq]
  refine and_iff_left ?_
  intro heq
  subst heq
  exact h hcovered

theorem agreesOnCovered_bootstrapped (h : w.WindowsNumbered) (anchor : Address)
    (tmpl : ServiceTemplate) :
    AgreesOnCovered env w anchor (w.bootstrapped env anchor tmpl) := by
  intro c hcovered
  unfold ManagedServices.bootstrapped
  rw [List.mem_append]
  refine or_iff_left ?_
  intro hmem
  have hfree := List.mem_takeWhile_imp hmem
  rw [(isInMaintenance_iff h).mpr hcovered] at hfree
  cases hfree

/-- A call spares the covered services exactly when it leaves them as they are. -/
theorem keepsCovered_iff_of_step {t : ManagedTransition}
    (ht : managedStep t.pre t.input = .ok t.post) (h : t.pre.WindowsNumbered) :
    KeepsCovered t ↔ LeavesCovered t.pre t.input := by
  obtain ⟨w, ⟨env, call⟩, w'⟩ := t
  dsimp only at *
  have hswitch := switches_of_step ht
  have hkept (hnone : Switches w w' none) : KeepsCovered ⟨w, (env, call), w'⟩ :=
    keepsCovered_of_unswitched hnone call
  have hset {anchor : Address} {services : List UInt32}
      (hsome : Switches w w' (some (anchor, services))) :
      KeepsCovered ⟨w, (env, call), w'⟩ ↔ AgreesOnCovered env w anchor services :=
    keepsCovered_of_switches hsome call
  cases call with
  | enableService anchor serviceCode =>
    refine iff_of_true ?_ trivial
    simp only [ManagedServices.switchedTo] at hswitch
    split at hswitch
    · exact hkept hswitch
    · rename_i hwindow
      rw [hset hswitch]
      exact agreesOnCovered_pushIfAbsent (mt (isInMaintenance_iff h).mpr hwindow)
  | disableService anchor serviceCode =>
    refine iff_of_true ?_ trivial
    simp only [ManagedServices.switchedTo] at hswitch
    split at hswitch
    · exact hkept hswitch
    · rename_i hwindow
      rw [hset hswitch]
      exact agreesOnCovered_filter (mt (isInMaintenance_iff h).mpr (not_or.mp hwindow).1)
  | enableAllServices anchor allServices => exact hset hswitch
  | disableAllServices anchor allServices => exact hset hswitch
  | rollbackToSnapshot snapshotId =>
    simp only [ManagedServices.switchedTo] at hswitch
    simp only [LeavesCovered]
    split at hswitch
    · rename_i hid
      cases hget : w.storage.services.snapshot.get snapshotId with
      | none =>
        rw [hget] at hswitch
        refine iff_of_true (hkept hswitch) fun _ _ hsome => ?_
        cases hsome
      | some snapshot =>
        rw [hget] at hswitch
        simp only [hid, forall_const, Option.some.injEq, forall_eq']
        exact hset hswitch
    · rename_i hid
      exact iff_of_true (hkept hswitch) fun hlt => absurd hlt hid
  | applyTemplate anchor name =>
    refine iff_of_true ?_ trivial
    simp only [ManagedServices.switchedTo] at hswitch
    split at hswitch
    · exact hkept hswitch
    · cases hget : w.template.get name with
      | none =>
        rw [hget] at hswitch
        exact hkept hswitch
      | some tmpl =>
        rw [hget] at hswitch
        exact (hset hswitch).mpr (agreesOnCovered_bootstrapped h anchor tmpl)
  | applyTemplateForce anchor name =>
    refine iff_of_true ?_ trivial
    simp only [ManagedServices.switchedTo] at hswitch
    cases hget : w.template.get name with
    | none =>
      rw [hget] at hswitch
      exact hkept hswitch
    | some tmpl =>
      rw [hget] at hswitch
      exact (hset hswitch).mpr (agreesOnCovered_bootstrapped h anchor tmpl)
  | _ => exact iff_of_true (hkept hswitch) trivial

end Windows

/-- In every run no covered service is ever switched exactly when every call that replaces all the
services of an anchor has the covered ones as they are. -/
theorem maintenance_blocks_iff (calls : List (Env × ServiceCall)) :
    (∀ t ∈ managedHistory calls, KeepsCovered t) ↔
      ∀ t ∈ managedHistory calls, LeavesCovered t.pre t.input := by
  apply Machine.forall_transitions_iff managedStep ManagedServices.WindowsNumbered
  · intro windowId window hget
    cases hget
  · exact fun t ht h => keepsCovered_iff_of_step ht h
  · exact fun t ht h _ => windowsNumbered_of_step ht h

namespace Demo

def outageCalls : List (Env × ServiceCall) :=
  [(⟨0, 0, []⟩, .enableService anchor 1),
    (⟨0, 0, []⟩, .scheduleWindow anchor 10 20 "migration" [1]),
    (⟨15, 0, []⟩, .disableAllServices anchor [1])]

end Demo

/-- The bulk switch takes the service off in the middle of the window. -/
theorem switched_off_in_maintenance : ¬ ∀ t ∈ managedHistory Demo.outageCalls, KeepsCovered t := by
  intro h
  let before := managedRun (Demo.outageCalls.take 2)
  let after := managedRun Demo.outageCalls
  have hlast : (⟨before, (⟨15, 0, []⟩, .disableAllServices Demo.anchor [1]), after⟩ :
      ManagedTransition) ∈ managedHistory Demo.outageCalls :=
    List.mem_cons_of_mem _ (List.mem_cons_of_mem _ List.mem_cons_self)
  have hwindow : Covered ⟨15, 0, []⟩ before Demo.anchor 1 :=
    ⟨0, ⟨0, Demo.anchor, 10, 20, "migration", [1]⟩, by decide, by decide, by decide, by decide⟩
  have hsame := h _ hlast Demo.anchor 1 hwindow
  revert hsame
  decide

end AnchorKit
