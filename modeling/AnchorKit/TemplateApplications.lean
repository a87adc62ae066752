import AnchorKit.DependencyEnforcement
import Mathlib.Data.List.TakeWhile

/-!
# Applying templates as a whole

A template's services are switched on one after the other, and the first one in maintenance ends
the call with an error. What was switched on before it stays on, and a forced application has
dropped the record of the previous one by then.
-/

namespace AnchorKit

open Fallible

namespace TemplateManager

def validateAgainstTemplate (w : ManagedServices) (anchor : Address) (name : String) :
    Except AnchorKitError Unit := do
  let tmpl ← expect (w.template.get name) (.templateNotFound name)
  tmpl.services.forM fun serviceCode =>
    require (w.isEnabled anchor serviceCode = true) (.validationError
      ("template '" ++ name ++ "' requires service " ++ toString serviceCode ++
        " which is not enabled"))

/-- A call that fails leaves toggles and application records alone; one that succeeds has all of the
template's services on. -/
structure AllOrNothing (w : ManagedServices) (anchor : Address) (name : String)
    (result : ManagedServices × Except AnchorKitError TemplateApplication) : Prop where
  kept : ∀ e, result.2 = .error e →
    result.1.storage.services.toggles = w.storage.services.toggles ∧
      result.1.application = w.application
  enabled : ∀ record, result.2 = .ok record →
    (∃ tmpl, w.template.get name = some tmpl ∧
      ∀ serviceCode ∈ tmpl.services, result.1.isEnabled anchor serviceCode = true) ∧
      validateAgainstTemplate result.1 anchor name = .ok ()

def Clear (env : Env) (s : Storage) (anchor : Address) (services : List UInt32) : Prop :=
  ∀ serviceCode ∈ services, isInMaintenance env s anchor serviceCode = false

/-- Every service in front of the first one in maintenance is on already. -/
def OnUpToMaintenance (env : Env) (s : Storage) (anchor : Address) (services : List UInt32) : Prop :=
  ∀ serviceCode ∈ services.takeWhile fun c => !isInMaintenance env s anchor c,
    serviceCode ∈ (ServiceManager.getServiceState s anchor).enabledServices

/-- A template that may be applied is clear, or nothing is to be switched on before it is refused. -/
def AppliesWhole (env : Env) (w : ManagedServices) (anchor : Address) (name : String) : Prop :=
  w.application.has (anchor, name) = false → ∀ tmpl, w.template.get name = some tmpl →
    Clear env w.storage anchor tmpl.services ∨ OnUpToMaintenance env w.storage anchor tmpl.services

/-- In addition, a forced application goes through if there is a record of a previous one. -/
def ForcesWhole (env : Env) (w : ManagedServices) (anchor : Address) (name : String) : Prop :=
  (∀ tmpl, w.template.get name = some tmpl →
    Clear env w.storage anchor tmpl.services ∨
      OnUpToMaintenance env w.storage anchor tmpl.services) ∧
    (w.application.has (anchor, name) = true →
      ∃ tmpl, w.template.get name = some tmpl ∧ Clear env w.storage anchor tmpl.services)

section Services

variable {env : Env} {s : Storage} {anchor : Address} {services : List UInt32}
  {serviceCode : UInt32}

theorem enableService_enabled (hfree : isInMaintenance env s anchor serviceCode = false)
    (hon : serviceCode ∈ (ServiceManager.getServiceState s anchor).enabledServices) :
    ServiceManager.enableService env s anchor serviceCode = .ok (s, false) := by
  unfold ServiceManager.enableService
  rw [hfree]
  simp only [List.contains_iff_mem.mpr hon, if_true]
  rfl

theorem enableEach_eq_ok : (enableEach env s anchor services).2 = .ok () ↔
    Clear env s anchor services := by
  induction services generalizing s with
  | nil => exact iff_of_true rfl (by simp [Clear])
  | cons serviceCode rest ih =>
    rw [Clear, List.forall_mem_cons]
    cases hwindow : isInMaintenance env s anchor serviceCode with
    | true =>
      rw [enableEach, enableService_refused hwindow]
      exact iff_of_false (by simp) (by simp)
    | false =>
      obtain ⟨middle, changed, hok, hswitch⟩ := enableService_switches hwindow
      rw [enableEach, hok]
      simp only [ih, Clear, hswitch.isInMaintenance_eq, true_and]

/-- Nothing is written while every service is on already. -/
theorem enableEach_eq_self (h : OnUpToMaintenance env s anchor services) :
    (enableEach env s anchor services).1 = s := by
  induction services with
  | nil => rfl
  | cons serviceCode rest ih =>
    cases hwindow : isInMaintenance env s anchor serviceCode with
    | true => rw [enableEach, enableService_refused hwindow]
    | false =>
      rw [OnUpToMaintenance, List.takeWhile_cons_of_pos (by simp [hwindow]),
        List.forall_mem_cons] at h
      rw [enableEach, enableService_enabled hwindow h.1]
      exact ih h.2

theorem enableEach_toggles_iff :
    (enableEach env s anchor services).1.services.toggles = s.services.toggles ↔
      OnUpToMaintenance env s anchor services := by
  constructor
  · intro hkept c hc
    have hself := (enableEach_switches env anchor services s).self c
    rw [ServiceManager.getServiceState, hkept] at hself
    exact hself.mpr (List.mem_append_right _ hc)
  · intro h
    rw [enableEach_eq_self h]

end Services

section Templates

variable {env : Env} {w : ManagedServices} {anchor : Address} {name : String}

theorem validateAgainstTemplate_eq_ok {tmpl : ServiceTemplate} (h : w.template.get name = some tmpl) :
    validateAgainstTemplate w anchor name = .ok () ↔
      ∀ serviceCode ∈ tmpl.services, w.isEnabled anchor serviceCode = true := by
  rw [validateAgainstTemplate, h, expect_some_bind, forM_eq_ok]
  simp only [require_eq_ok]

theorem enableEach_enabled {s : Storage} {services : List UInt32}
    (h : Clear env s anchor services) :
    ∀ serviceCode ∈ services, ServiceManager.isServiceEnabled (enableEach env s anchor services).1
      anchor serviceCode = true := by
  intro serviceCode hmem
  have hall : services.takeWhile (fun c => !isInMaintenance env s anchor c) = services :=
    List.takeWhile_eq_self_iff.mpr fun c hc => by simp [h c hc]
  rw [ServiceManager.isServiceEnabled, List.contains_iff_mem,
    (enableEach_switches env anchor services s).self, hall]
  exact List.mem_append_right _ hmem

theorem applyTemplate_of_none (htmpl : w.template.get name = none) :
    applyTemplate env w anchor name = (w, .error (.templateNotFound name)) := by
  simp only [applyTemplate, htmpl]

theorem applyTemplate_of_has {tmpl : ServiceTemplate} (htmpl : w.template.get name = some tmpl)
    (happlied : w.application.has (anchor, name) = true) :
    applyTemplate env w anchor name = (w, .error (.templateAlreadyApplied name)) := by
  simp only [applyTemplate, htmpl, happlied, if_true]

theorem applyTemplate_of_refused {tmpl : ServiceTemplate} {storage : Storage} {e : AnchorKitError}
    (htmpl : w.template.get name = some tmpl) (hfresh : w.application.has (anchor, name) = false)
    (heach : enableEach env w.storage anchor tmpl.services = (storage, .error e)) :
    applyTemplate env w anchor name = ({ w with storage }, .error e) := by
  simp only [applyTemplate, htmpl, hfresh, heach, Bool.false_eq_true, if_false]

theorem applyTemplate_of_enabled {tmpl : ServiceTemplate} {storage : Storage}
    (htmpl : w.template.get name = some tmpl) (hfresh : w.application.has (anchor, name) = false)
    (heach : enableEach env w.storage anchor tmpl.services = (storage, .ok ())) :
    applyTemplate env w anchor name =
      ({ w with
          storage
          application := w.application.set (anchor, name) ⟨tmpl.name, anchor, env.timestamp⟩ },
        .ok ⟨tmpl.name, anchor, env.timestamp⟩) := by
  simp only [applyTemplate, htmpl, hfresh, heach, Bool.false_eq_true, if_false]

theorem allOrNothing_error_iff {w' : ManagedServices} {e : AnchorKitError} :
    AllOrNothing w anchor name (w', .error e) ↔
      w'.storage.services.toggles = w.storage.services.toggles ∧
        w'.application = w.application := by
  constructor
  · intro h
    exact h.kept e rfl
  · intro h
    exact ⟨fun _ _ => h, by simp⟩

theorem allOrNothing_ok_iff {w' : ManagedServices} {tmpl : ServiceTemplate}
    {record : TemplateApplication} (htmpl : w.template.get name = some tmpl)
    (htmpl' : w'.template.get name = some tmpl) :
    AllOrNothing w anchor name (w', .ok record) ↔
      ∀ serviceCode ∈ tmpl.services, w'.isEnabled anchor serviceCode = true := by
  constructor
  · intro h
    exact (validateAgainstTemplate_eq_ok htmpl').mp (h.enabled record rfl).2
  · intro hon
    have hvalid := (validateAgainstTemplate_eq_ok htmpl').mpr hon
    exact ⟨by simp, fun _ _ => ⟨⟨tmpl, htmpl, hon⟩, hvalid⟩⟩

/-- A call that finds no record of an application, where the records are `application` by then. -/
theorem allOrNothing_of_fresh {application : KeyedStore (Address × String) TemplateApplication}
    (hfresh : application.has (anchor, name) = false) :
    AllOrNothing w anchor name (applyTemplate env { w with application } anchor name) ↔
      (∀ tmpl, w.template.get name = some tmpl →
        Clear env w.storage anchor tmpl.services ∨
          OnUpToMaintenance env w.storage anchor tmpl.services) ∧
        (application = w.application ∨
          ∃ tmpl, w.template.get name = some tmpl ∧ Clear env w.storage anchor tmpl.services) := by
  cases htmpl : w.template.get name with
  | none =>
    rw [applyTemplate_of_none (w := { w with application }) htmpl, allOrNothing_error_iff]
    simp
  | some tmpl =>
    simp only [Option.some.injEq, forall_eq', exists_eq_left']
    have hclear : (enableEach env w.storage anchor tmpl.services).2 = .ok () ↔
        Clear env w.storage anchor tmpl.services := enableEach_eq_ok
    have htoggles : (enableEach env w.storage anchor tmpl.services).1.services.toggles =
        w.storage.services.toggles ↔ OnUpToMaintenance env w.storage anchor tmpl.services :=
      enableEach_toggles_iff
    cases heach : enableEach env w.storage anchor tmpl.services with
    | mk storage outcome =>
      rw [heach] at hclear htoggles
      cases outcome with
      | error e =>
        have hblocked : ¬ Clear env w.storage anchor tmpl.services := mt hclear.mpr (by simp)
        rw [applyTemplate_of_refused (w := { w with application }) htmpl hfresh heach,
          allOrNothing_error_iff, or_iff_right hblocked, or_iff_left hblocked, ← htoggles]
      | ok _ =>
        have hfree := hclear.mp rfl
        have hon := enableEach_enabled hfree
        rw [heach] at hon
        rw [applyTemplate_of_enabled (w := { w with application }) htmpl hfresh heach]
        refine iff_of_true ((allOrNothing_ok_iff htmpl ?_).mpr hon) ⟨Or.inl hfree, Or.inr hfree⟩
        exact htmpl

/-- A template is applied as a whole or not at all exactly when no service is switched on before
one in maintenance is met, and a forced application drops no record that it does not replace. -/
theorem templates_all_or_nothing_iff (env : Env) (w : ManagedServices) (anchor : Address)
    (name : String) :
    (AllOrNothing w anchor name (applyTemplate env w anchor name) ↔
      AppliesWhole env w anchor name) ∧
      (AllOrNothing w anchor name (applyTemplateForce env w anchor name) ↔
        ForcesWhole env w anchor name) := by
  constructor
  · cases happlied : w.application.has (anchor, name) with
    | false =>
      refine (allOrNothing_of_fresh happlied).trans ?_
      rw [AppliesWhole, and_iff_left (Or.inl rfl), happlied, imp_iff_right rfl]
    | true =>
      refine iff_of_true ?_ (by simp [AppliesWhole, happlied])
      cases htmpl : w.template.get name with
      | none =>
        rw [applyTemplate_of_none htmpl, allOrNothing_error_iff]
        exact ⟨rfl, rfl⟩
      | some tmpl =>
        rw [applyTemplate_of_has htmpl happlied, allOrNothing_error_iff]
        exact ⟨rfl, rfl⟩
  · have hremoved : (w.application.remove (anchor, name)).has (anchor, name) = false := by
      rw [KeyedStore.has_remove, if_pos rfl]
    have hsame : w.application.remove (anchor, name) = w.application ↔
        w.application.has (anchor, name) = false := by
      constructor
      · intro heq
        rwa [heq] at hremoved
      · exact KeyedStore.remove_of_has_eq_false
    rw [applyTemplateForce, allOrNothing_of_fresh hremoved, hsame, ForcesWhole]
    refine and_congr_right fun _ => ?_
    cases w.application.has (anchor, name) with
    | false => simp
    | true => simp

end Templates

end TemplateManager

namespace Demo

def halfBlocked : ManagedServices :=
  managedRun [(⟨0, 0, []⟩, .registerTemplate "corridor" [1, 2] "deposits" 1),
    (⟨0, 0, []⟩, .scheduleWindow anchor 10 20 "upgrade" [2])]

end Demo

/-- The first service of the template stays on although the application fails at the second. -/
theorem template_applied_by_half :
    ¬ ∀ env w anchor name,
      TemplateManager.AllOrNothing w anchor name
        (TemplateManager.applyTemplate env w anchor name) ∧
      TemplateManager.AllOrNothing w anchor name
        (TemplateManager.applyTemplateForce env w anchor name) := by
  intro h
  have hfailed : (TemplateManager.applyTemplate ⟨15, 0, []⟩ Demo.halfBlocked Demo.anchor
      "corridor").2 = .error (.serviceInMaintenance 2) := by decide
  have hkept := ((h ⟨15, 0, []⟩ Demo.halfBlocked Demo.anchor "corridor").1.kept _ hfailed).1
  have hstate := congrArg (fun toggles => toggles.get Demo.anchor) hkept
  revert hstate
  decide

end AnchorKit
