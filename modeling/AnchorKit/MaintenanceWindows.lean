import AnchorKit.MaintenanceBlocks

/-!
# Overlapping maintenance windows

A window is scheduled only if its ends do not cross those of another window of the anchor. Crossing
ends mean a common instant unless one of the two windows is inverted, that is, ends before it
starts.
-/

namespace AnchorKit

open Fallible

namespace MaintenanceWindow

/-- Windows are closed at both ends. -/
def Contains (window : MaintenanceWindow) (instant : UInt64) : Prop :=
  window.startTime ≤ instant ∧ instant ≤ window.endTime

def Crosses (window : MaintenanceWindow) (startTime endTime : UInt64) : Prop :=
  startTime ≤ window.endTime ∧ window.startTime ≤ endTime

theorem isActive_iff {window : MaintenanceWindow} {env : Env} :
    window.isActive env = true ↔ window.Contains env.timestamp := by
  simp [isActive, Contains]

theorem crosses_of_common {window : MaintenanceWindow} {startTime endTime instant : UInt64}
    (hrequest : startTime ≤ instant ∧ instant ≤ endTime) (hwindow : window.Contains instant) :
    window.Crosses startTime endTime :=
  ⟨UInt64.le_trans hrequest.1 hwindow.2, UInt64.le_trans hwindow.1 hrequest.2⟩

/-- Two intervals have a common instant exactly when their ends cross and neither is inverted. -/
theorem exists_common_iff {window : MaintenanceWindow} {startTime endTime : UInt64} :
    (∃ instant, (startTime ≤ instant ∧ instant ≤ endTime) ∧ window.Contains instant) ↔
      window.Crosses startTime endTime ∧ startTime ≤ endTime ∧
        window.startTime ≤ window.endTime := by
  constructor
  · rintro ⟨instant, hrequest, hwindow⟩
    exact ⟨crosses_of_common hrequest hwindow, UInt64.le_trans hrequest.1 hrequest.2,
      UInt64.le_trans hwindow.1 hwindow.2⟩
  · rintro ⟨hcross, hrequest, hwindow⟩
    -- the later of the two starts is in both
    rcases UInt64.le_total startTime window.startTime with hle | hle
    · exact ⟨window.startTime, ⟨hle, hcross.2⟩, UInt64.le_refl _, hwindow⟩
    · exact ⟨startTime, ⟨UInt64.le_refl _, hrequest⟩, hle, hcross.1⟩

end MaintenanceWindow

/-- No two windows of an anchor have a common instant, so that at most one is active at a time. -/
structure ManagedServices.WindowsDisjoint (w : ManagedServices) : Prop where
  disjoint : ∀ windowId otherId window other,
    w.storage.services.window.get windowId = some window →
    w.storage.services.window.get otherId = some other → window.anchor = other.anchor →
    windowId ≠ otherId → ∀ instant, ¬ (window.Contains instant ∧ other.Contains instant)
  oneActive : ∀ env windowId otherId window other,
    w.storage.services.window.get windowId = some window →
    w.storage.services.window.get otherId = some other → window.anchor = other.anchor →
    window.isActive env = true → other.isActive env = true → windowId = otherId

/-- A conflict is reported exactly when a stored window of the anchor has an instant in common with
the requested interval. -/
def ReportsConflicts (w : ManagedServices) : Env × ServiceCall → Prop
  | (_, .scheduleWindow anchor startTime endTime description affectedServices) =>
    MaintenanceManager.scheduleWindow w.storage anchor startTime endTime description
        affectedServices = .ok (.error .maintenanceWindowConflict) ↔
      ∃ windowId window instant, w.storage.services.window.get windowId = some window ∧
        window.anchor = anchor ∧ (startTime ≤ instant ∧ instant ≤ endTime) ∧
        window.Contains instant
  | _ => True

/-- Where the ends of a requested interval cross those of a window of the anchor, the interval is
not inverted and some such window is not. -/
def CrossesInOrder (w : ManagedServices) : Env × ServiceCall → Prop
  | (_, .scheduleWindow anchor startTime endTime _ _) =>
    (∃ windowId window, w.storage.services.window.get windowId = some window ∧
      window.anchor = anchor ∧ window.Crosses startTime endTime) →
      startTime ≤ endTime ∧ ∃ windowId window,
        w.storage.services.window.get windowId = some window ∧ window.anchor = anchor ∧
        window.Crosses startTime endTime ∧ window.startTime ≤ window.endTime
  | _ => True

section Windows

variable {w w' : ManagedServices} {anchor : Address} {startTime endTime : UInt64}
  {description : String} {affectedServices : List UInt32}

theorem ManagedServices.WindowsDisjoint.of_disjoint
    (h : ∀ windowId otherId window other,
      w.storage.services.window.get windowId = some window →
      w.storage.services.window.get otherId = some other → window.anchor = other.anchor →
      windowId ≠ otherId → ∀ instant, ¬ (window.Contains instant ∧ other.Contains instant)) :
    w.WindowsDisjoint := by
  refine ⟨h, fun env windowId otherId window other hwindow hother hanchor hactive hactive' => ?_⟩
  by_contra hne
  rw [MaintenanceWindow.isActive_iff] at hactive hactive'
  exact h windowId otherId window other hwindow hother hanchor hne env.timestamp ⟨hactive, hactive'⟩

theorem conflict_iff (h : w.WindowsNumbered) :
    ((List.range w.storage.services.windowCount.toNat).any fun id =>
      match w.storage.services.window.get (UInt64.ofNat id) with
      | some existing => decide (existing.anchor = anchor) && startTime ≤ existing.endTime &&
          existing.startTime ≤ endTime
      | none => false) = true ↔
      ∃ windowId window, w.storage.services.window.get windowId = some window ∧
        window.anchor = anchor ∧ window.Crosses startTime endTime := by
  rw [List.any_eq_true]
  constructor
  · rintro ⟨id, _, hfound⟩
    split at hfound
    · rename_i window hget
      simp only [Bool.and_eq_true, decide_eq_true_eq] at hfound
      exact ⟨UInt64.ofNat id, window, hget, hfound.1.1, hfound.1.2, hfound.2⟩
    · cases hfound
  · rintro ⟨windowId, window, hget, hanchor, hcross⟩
    refine ⟨windowId.toNat, List.mem_range.mpr ?_, ?_⟩
    · exact UInt64.lt_iff_toNat_lt.mp (h windowId window hget)
    · rw [UInt64.ofNat_toNat, hget]
      simp only [hanchor, decide_true, Bool.true_and, Bool.and_eq_true, decide_eq_true_eq]
      exact hcross

theorem scheduleWindow_conflict_iff (h : w.WindowsNumbered) :
    MaintenanceManager.scheduleWindow w.storage anchor startTime endTime description
        affectedServices = .ok (.error .maintenanceWindowConflict) ↔
      ∃ windowId window, w.storage.services.window.get windowId = some window ∧
        window.anchor = anchor ∧ window.Crosses startTime endTime := by
  rw [← conflict_iff h, MaintenanceManager.scheduleWindow]
  dsimp only
  split
  · rename_i hconflict
    exact iff_of_true rfl hconflict
  · rename_i hconflict
    refine iff_of_false ?_ hconflict
    intro hreport
    simp only [bind_eq_ok, pure_eq_ok] at hreport
    obtain ⟨_, _, hreport⟩ := hreport
    cases hreport

theorem scheduleWindow_disjoint {storage : Storage} {newId : UInt64} (hnumbered : w.WindowsNumbered)
    (h : w.WindowsDisjoint)
    (hschedule : MaintenanceManager.scheduleWindow w.storage anchor startTime endTime description
      affectedServices = .ok (.ok (storage, newId))) :
    ManagedServices.WindowsDisjoint { w with storage } := by
  unfold MaintenanceManager.scheduleWindow at hschedule
  dsimp only at hschedule
  split at hschedule
  · cases hschedule
  · rename_i hconflict
    have hfree := mt (conflict_iff hnumbered).mpr hconflict
    simp only [bind_eq_ok, pure_eq_ok, Except.ok.injEq, Prod.mk.injEq] at hschedule
    obtain ⟨_, _, rfl, _⟩ := hschedule
    have hnew (otherId : UInt64) (other : MaintenanceWindow)
        (hother : w.storage.services.window.get otherId = some other) (hanchor : other.anchor = anchor)
        (instant : UInt64) (hrequest : startTime ≤ instant ∧ instant ≤ endTime) :
        ¬ other.Contains instant := fun hcontains =>
      hfree ⟨otherId, other, hother, hanchor,
        MaintenanceWindow.crosses_of_common hrequest hcontains⟩
    apply ManagedServices.WindowsDisjoint.of_disjoint
    rintro windowId otherId window other hwindow hother hanchor hne instant ⟨hin, hin'⟩
    rcases KeyedStore.get_set_cases hwindow with ⟨rfl, rfl⟩ | hold
    · rcases KeyedStore.get_set_cases hother with ⟨rfl, _⟩ | hold'
      · exact hne rfl
      · exact hnew otherId other hold' hanchor.symm instant hin hin'
    · rcases KeyedStore.get_set_cases hother with ⟨rfl, rfl⟩ | hold'
      · exact hnew windowId window hold hanchor instant hin' hin
      · exact h.disjoint windowId otherId window other hold hold' hanchor hne instant ⟨hin, hin'⟩

theorem windowsDisjoint_of_step {env : Env} {call : ServiceCall}
    (ht : managedStep w (env, call) = .ok w') (hnumbered : w.WindowsNumbered)
    (h : w.WindowsDisjoint) : w'.WindowsDisjoint := by
  rcases windows_of_step ht with hkept | ⟨anchor, startTime, endTime, description, affected, rfl⟩ |
    ⟨windowId, rfl⟩
  · have hwindow : w'.storage.services.window = w.storage.services.window :=
      (Prod.mk.inj hkept).1
    apply ManagedServices.WindowsDisjoint.of_disjoint
    rw [hwindow]
    exact h.disjoint
  · simp only [managedStep, bind_eq_ok] at ht
    obtain ⟨result, hresult, ht⟩ := ht
    split at ht
    · obtain rfl := Except.ok.inj ht
      exact scheduleWindow_disjoint hnumbered h hresult
    · obtain rfl := Except.ok.inj ht
      exact h
  · obtain rfl := Except.ok.inj ht
    simp only [MaintenanceManager.cancelWindow]
    split
    · apply ManagedServices.WindowsDisjoint.of_disjoint
      intro first second window other hwindow hother
      rw [KeyedStore.get_remove] at hwindow hother
      split at hwindow
      · cases hwindow
      · split at hother
        · cases hother
        · exact h.disjoint first second window other hwindow hother
    · exact h

theorem windowsDisjoint_run (calls : List (Env × ServiceCall)) :
    (managedRun calls).WindowsNumbered ∧ (managedRun calls).WindowsDisjoint := by
  apply Machine.invariant managedStep fun w : ManagedServices =>
    w.WindowsNumbered ∧ w.WindowsDisjoint
  · refine ⟨?_, .of_disjoint ?_⟩
    · intro windowId window hget
      cases hget
    · intro windowId otherId window other hget
      cases hget
  · rintro w ⟨env, call⟩ w' ht ⟨hnumbered, hdisjoint⟩
    exact ⟨windowsNumbered_of_step (t := ⟨w, (env, call), w'⟩) ht hnumbered,
      windowsDisjoint_of_step ht hnumbered hdisjoint⟩

/-- A request is answered rightly unless an inverted interval makes its ends cross. -/
theorem reportsConflicts_iff (h : w.WindowsNumbered) (call : Env × ServiceCall) :
    ReportsConflicts w call ↔ CrossesInOrder w call := by
  obtain ⟨env, call⟩ := call
  cases call with
  | scheduleWindow anchor startTime endTime description affectedServices =>
    simp only [ReportsConflicts, CrossesInOrder, scheduleWindow_conflict_iff h]
    constructor
    · intro hreport hcross
      obtain ⟨windowId, window, instant, hget, hanchor, hrequest, hcontains⟩ := hreport.mp hcross
      obtain ⟨hcrosses, horder, hwindow⟩ :=
        MaintenanceWindow.exists_common_iff.mp ⟨instant, hrequest, hcontains⟩
      exact ⟨horder, windowId, window, hget, hanchor, hcrosses, hwindow⟩
    · intro horder
      constructor
      · intro hcross
        obtain ⟨hrequest, windowId, window, hget, hanchor, hcrosses, hwindow⟩ := horder hcross
        obtain ⟨instant, hcommon⟩ :=
          MaintenanceWindow.exists_common_iff.mpr ⟨hcrosses, hrequest, hwindow⟩
        exact ⟨windowId, window, instant, hget, hanchor, hcommon⟩
      · rintro ⟨windowId, window, instant, hget, hanchor, hrequest, hcontains⟩
        exact ⟨windowId, window, hget, hanchor,
          MaintenanceWindow.crosses_of_common hrequest hcontains⟩
  | _ => exact Iff.rfl

end Windows

/-- In every run the windows of an anchor are disjoint; conflicts are reported exactly where there
is a common instant as long as no inverted interval makes the ends cross. -/
theorem conflicts_as_overlaps_iff (calls : List (Env × ServiceCall)) :
    (∀ past, past <+: calls → (managedRun past).WindowsDisjoint ∧
      ∀ call, past ++ [call] <+: calls → ReportsConflicts (managedRun past) call) ↔
      ∀ past call, past ++ [call] <+: calls → CrossesInOrder (managedRun past) call := by
  constructor
  · intro h past call hpast
    rw [← reportsConflicts_iff (windowsDisjoint_run past).1]
    exact (h past ((List.prefix_append _ _).trans hpast)).2 call hpast
  · intro h past _
    refine ⟨(windowsDisjoint_run past).2, fun call hpast => ?_⟩
    rw [reportsConflicts_iff (windowsDisjoint_run past).1]
    exact h past call hpast

namespace Demo

def invertedCalls : List (Env × ServiceCall) :=
  [(⟨0, 0, []⟩, .scheduleWindow anchor 0 20 "upgrade" []),
    (⟨0, 0, []⟩, .scheduleWindow anchor 10 5 "inverted" [])]

end Demo

/-- The inverted window is refused although it contains no instant. -/
theorem inverted_request_conflicts :
    ¬ ∀ past, past <+: Demo.invertedCalls → (managedRun past).WindowsDisjoint ∧
      ∀ call, past ++ [call] <+: Demo.invertedCalls → ReportsConflicts (managedRun past) call := by
  intro h
  have hreport := (h (Demo.invertedCalls.take 1) (List.take_prefix _ _)).2
    (⟨0, 0, []⟩, .scheduleWindow Demo.anchor 10 5 "inverted" []) List.prefix_rfl
  obtain ⟨_, _, instant, _, _, hrequest, _⟩ := hreport.mp (by rfl)
  exact absurd (UInt64.le_trans hrequest.1 hrequest.2) (by decide)

end AnchorKit
