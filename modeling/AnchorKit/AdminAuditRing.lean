import AnchorKit.Access
import AnchorKit.Library.Machine
import AnchorKit.Library.NumberedWindow

/-!
# The admin audit ring over time

The ring under every sequence of writes, changes of its size and clearings. A write evicts one
entry, which keeps the newest entries together only while the ring holds no more than its size.
-/

namespace AnchorKit
namespace AdminAuditLog

open Fallible
open Numbered (Window)

def getEntry (s : Storage) (entryId : UInt64) : Option AdminConfigChangeEvent :=
  s.adminAudit.entries.get entryId

def getEntryCount (s : Storage) : UInt64 := s.adminAudit.counter

def setConfig (s : Storage) (config : AdminAuditLogConfig) : Except Panic Storage := do
  require (config.ttlSeconds.toNat < 2 ^ 32) (.withError .validationError)
  return { s with adminAudit := { s.adminAudit with config := some config } }

/-- All entries go, and the ids start over. -/
def clearEntries (env : Env) (s : Storage) (caller : Address) : Except Panic Storage := do
  let admin ← expect s.access.admin (.withError .unauthorized)
  require (caller = admin) (.withError .unauthorized)
  caller.requireAuth env
  let ids := (List.range s.adminAudit.counter.toNat).map UInt64.ofNat
  return { s with adminAudit := { s.adminAudit with
    entries := ids.foldl KeyedStore.remove s.adminAudit.entries
    counter := 0 } }

inductive RingCall
  | writeEvent (admin : Address)
      (changeType target oldValue newValue status errorMessage : String)
  | setConfig (config : AdminAuditLogConfig)
  | clearEntries (caller : Address)

def RingCall.writes : RingCall → Bool
  | .writeEvent _ _ _ _ _ _ _ => true
  | .setConfig _ | .clearEntries _ => false

abbrev RingTransition := Machine.Transition Storage (Env × RingCall)

def ringStep (s : Storage) : Env × RingCall → Except Panic Storage
  | (env, .writeEvent admin changeType target oldValue newValue status errorMessage) =>
    writeEvent env s admin changeType target oldValue newValue status errorMessage
  | (_, .setConfig config) => setConfig s config
  | (env, .clearEntries caller) => clearEntries env s caller

/-- The storage with a ring that was never written to. -/
def withFreshRing (s : Storage) : Storage := { s with adminAudit := Storage.empty.adminAudit }

/-- The retained entries are those with the largest ids, without a gap up to the newest one. -/
def Contiguous (st : AdminAuditStore) : Prop := ∃ lo, Window st.entries lo st.counter

/-- The ring holds no more entries than it is configured for; zero stands for no limit. -/
def Fits (s : Storage) : Prop :=
  (getConfig s).maxEntries = 0 ∨ s.adminAudit.entries.size ≤ (getConfig s).maxEntries.toNat

/-- The call writes an entry: while the log is disabled, the writer does nothing. -/
def Appends (s : Storage) (c : RingCall) : Prop :=
  c.writes = true ∧ (getConfig s).enabled = true

/-- What every write has to leave behind. -/
def LeavesRing (t : RingTransition) : Prop :=
  Appends t.pre t.input.2 → Contiguous t.post.adminAudit ∧ Fits t.post

/-- A write to a ring that is no larger than its size. -/
def WritesWithinSize (t : RingTransition) : Prop := Appends t.pre t.input.2 → Fits t.pre

inductive RingStep (s : Storage) : RingCall → Storage → Prop
  | disabled {c : RingCall} (hoff : (getConfig s).enabled = false) : RingStep s c s
  | written {c : RingCall} {event : AdminConfigChangeEvent} {next : UInt64} {events : List Event}
      (happends : Appends s c) (hnext : s.adminAudit.counter.toNat + 1 = next.toNat) :
      RingStep s c { s with
        adminAudit :=
          { config := s.adminAudit.config
            counter := next
            entries := (evictOldest (getConfig s) s.adminAudit).entries.set s.adminAudit.counter
              event }
        events := events }
  | configured {c : RingCall} {config : AdminAuditLogConfig} (hc : c.writes = false) :
      RingStep s c { s with adminAudit := { s.adminAudit with config := some config } }
  | cleared {c : RingCall} (hc : c.writes = false) :
      RingStep s c { s with adminAudit := { s.adminAudit with
        entries := ((List.range s.adminAudit.counter.toNat).map UInt64.ofNat).foldl
          KeyedStore.remove s.adminAudit.entries
        counter := 0 } }

theorem ring_step {s s' : Storage} {i : Env × RingCall} (h : ringStep s i = .ok s') :
    RingStep s i.2 s' := by
  obtain ⟨env, c⟩ := i
  cases c with
  | writeEvent admin changeType target oldValue newValue status errorMessage =>
    rcases writeEvent_effects h with ⟨hoff, rfl⟩ | ⟨hon, event, next, hnext, rfl⟩
    · exact .disabled hoff
    · exact .written ⟨rfl, hon⟩ hnext
  | setConfig config =>
    simp only [ringStep, setConfig, require_bind_eq_ok, pure_eq_ok] at h
    obtain ⟨_, rfl⟩ := h
    exact .configured rfl
  | clearEntries caller =>
    simp only [ringStep, clearEntries, bind_eq_ok, pure_eq_ok] at h
    obtain ⟨_, _, _, _, _, _, rfl⟩ := h
    exact .cleared rfl

section Writing

variable {config : AdminAuditLogConfig} {st : AdminAuditStore} {lo : UInt64}

/-- In a ring within its size at most the oldest entry is evicted, and that makes room. -/
theorem evictOldest_of_fits (h : Window st.entries lo st.counter)
    (hfits : config.maxEntries = 0 ∨ st.entries.size ≤ config.maxEntries.toNat) :
    ∃ lo', Window (evictOldest config st).entries lo' st.counter ∧
      (config.maxEntries = 0 ∨
        st.counter.toNat + 1 - lo'.toNat ≤ config.maxEntries.toNat) := by
  have hsize := h.size_eq
  have hle := h.toNat_le
  unfold evictOldest
  split
  · rename_i hfull
    obtain ⟨hpos, hreached⟩ := hfull
    rw [UInt32.lt_iff_toNat_lt] at hpos
    have hroom : st.entries.size ≤ config.maxEntries.toNat := by
      rcases hfits with hzero | hroom
      · rw [hzero] at hpos
        cases hpos
      · exact hroom
    have holdest : (st.counter - config.maxEntries.toUInt64).toNat =
        st.counter.toNat - config.maxEntries.toNat := UInt64.toNat_sub_of_le _ _ hreached
    rw [UInt64.le_iff_toNat_le, UInt32.toNat_toUInt64] at hreached
    rcases Nat.lt_or_ge (st.counter - config.maxEntries.toUInt64).toNat lo.toNat with hlow | hhigh
    · rw [h.remove_below (UInt64.lt_iff_toNat_lt.mpr hlow)]
      exact ⟨lo, h, Or.inr (by omega)⟩
    · have hoff : st.counter - config.maxEntries.toUInt64 = lo :=
        UInt64.toNat_inj.mp (by omega)
      have hpos' : 0 < config.maxEntries.toNat := hpos
      have hlt : lo < st.counter := UInt64.lt_iff_toNat_lt.mpr (by omega)
      rw [hoff]
      refine ⟨lo + 1, h.drop_oldest hlt, Or.inr ?_⟩
      rw [Window.toNat_bound_succ hlt]
      omega
  · rename_i hroomy
    refine ⟨lo, h, ?_⟩
    by_cases hzero : config.maxEntries = 0
    · exact Or.inl hzero
    · right
      have hpos : 0 < config.maxEntries := UInt32.pos_iff_ne_zero.mpr hzero
      have hshort : st.counter < config.maxEntries.toUInt64 :=
        UInt64.not_le.mp fun hreached => hroomy ⟨hpos, hreached⟩
      rw [UInt64.lt_iff_toNat_lt, UInt32.toNat_toUInt64] at hshort
      omega

/-- In a larger ring an entry is evicted from the middle, and the ring stays as large. -/
theorem size_evictOldest_of_crowded (h : Window st.entries lo st.counter)
    (hlimit : config.maxEntries ≠ 0) (hcrowded : config.maxEntries.toNat < st.entries.size) :
    (evictOldest config st).entries.keys.Finite ∧
      (evictOldest config st).entries.size + 1 = st.entries.size ∧
      (evictOldest config st).entries.has st.counter = false := by
  have hsize := h.size_eq
  have hle := h.toNat_le
  have hpos : 0 < config.maxEntries := UInt32.pos_iff_ne_zero.mpr hlimit
  have hposNat : 0 < config.maxEntries.toNat := UInt32.lt_iff_toNat_lt.mp hpos
  have hreached : config.maxEntries.toUInt64 ≤ st.counter := by
    rw [UInt64.le_iff_toNat_le, UInt32.toNat_toUInt64]
    omega
  have hevicted : (st.counter - config.maxEntries.toUInt64).toNat =
      st.counter.toNat - config.maxEntries.toNat := UInt64.toNat_sub_of_le _ _ hreached
  have hused : st.entries.has (st.counter - config.maxEntries.toUInt64) = true := by
    rw [h.has_iff, UInt64.le_iff_toNat_le, UInt64.lt_iff_toNat_lt]
    omega
  have hevict : (evictOldest config st).entries =
      st.entries.remove (st.counter - config.maxEntries.toUInt64) := by
    rw [evictOldest, if_pos ⟨hpos, hreached⟩]
  rw [hevict]
  refine ⟨KeyedStore.finite_keys_remove h.finite, KeyedStore.size_remove_of_has h.finite hused, ?_⟩
  rw [KeyedStore.has_remove]
  split
  · rfl
  · exact h.has_next

end Writing

theorem contiguous_of_step {s s' : Storage} {c : RingCall} (h : RingStep s c s')
    (hpre : Contiguous s.adminAudit) (hfits : Appends s c → Fits s) :
    Contiguous s'.adminAudit := by
  obtain ⟨lo, hwindow⟩ := hpre
  cases h with
  | disabled | configured => exact ⟨lo, hwindow⟩
  | written happends hnext =>
    obtain ⟨lo', hroom, _⟩ := evictOldest_of_fits hwindow (hfits happends)
    exact ⟨lo', hroom.push hnext.symm _⟩
  | cleared =>
    refine ⟨0, ?_⟩
    dsimp only
    rw [hwindow.remove_all]
    exact Numbered.window_empty 0

theorem fits_iff_of_write {s s' : Storage} {c : RingCall} (h : RingStep s c s')
    (hpre : Contiguous s.adminAudit) (happends : Appends s c) : Fits s' ↔ Fits s := by
  obtain ⟨lo, hwindow⟩ := hpre
  cases h with
  | disabled => rfl
  | configured hc | cleared hc =>
    rw [happends.1] at hc
    cases hc
  | written _ hnext =>
    unfold Fits
    change (getConfig s).maxEntries = 0 ∨
      KeyedStore.size (KeyedStore.set _ _ _) ≤ (getConfig s).maxEntries.toNat ↔ _
    by_cases hfits : Fits s
    · obtain ⟨lo', hroom, hsmall⟩ := evictOldest_of_fits hwindow hfits
      refine iff_of_true (hsmall.imp_right fun hle => ?_) hfits
      rw [(hroom.push hnext.symm _).size_eq]
      omega
    · unfold Fits at hfits
      obtain ⟨hlimit, hcrowded⟩ := not_or.mp hfits
      obtain ⟨hfin, hsize, hfree⟩ :=
        size_evictOldest_of_crowded hwindow hlimit (Nat.not_le.mp hcrowded)
      rw [KeyedStore.size_set_of_free hfin hfree, hsize]

theorem leavesRing_iff_of_step {t : RingTransition} (ht : ringStep t.pre t.input = .ok t.post)
    (hpre : Contiguous t.pre.adminAudit) : LeavesRing t ↔ WritesWithinSize t := by
  have hstep := ring_step ht
  constructor
  · intro hleaves happends
    exact (fits_iff_of_write hstep hpre happends).mp (hleaves happends).2
  · intro hfits happends
    exact ⟨contiguous_of_step hstep hpre hfits,
      (fits_iff_of_write hstep hpre happends).mpr (hfits happends)⟩

/-- Under every sequence of writes, configurations and clearings of a new ring, each write leaves
the newest entries, without a gap and no more than configured, exactly when each write finds no
more entries than are configured. -/
theorem leavesRing_iff (s : Storage) (is : List (Env × RingCall)) :
    (∀ t ∈ Machine.transitions ringStep (withFreshRing s) is, LeavesRing t) ↔
      ∀ t ∈ Machine.transitions ringStep (withFreshRing s) is, WritesWithinSize t :=
  Machine.forall_transitions_iff ringStep (fun s => Contiguous s.adminAudit) LeavesRing
    WritesWithinSize ⟨0, Numbered.window_empty 0⟩
    (fun _ ht hpre => leavesRing_iff_of_step ht hpre)
    (fun _ ht hpre hfits => contiguous_of_step (ring_step ht) hpre hfits) is

namespace Demo

def written : Env × RingCall :=
  (⟨1000, 1, []⟩, .writeEvent ⟨"GADMIN"⟩ "endpoint_update" "" "" "" "success" "")

/-- Three entries, a limit of one, and a fourth entry. -/
def shrunk : List (Env × RingCall) :=
  [written, written, written, (⟨1000, 2, []⟩, .setConfig ⟨true, 1, 86400⟩), written]

end Demo

/-- After its limit was lowered the ring loses an entry from the middle and keeps the oldest. -/
theorem ring_torn_after_shrinking :
    ¬ ∀ t ∈ Machine.transitions ringStep (withFreshRing .empty) Demo.shrunk, LeavesRing t := by
  intro h
  have htorn : ∃ t ∈ Machine.transitions ringStep (withFreshRing .empty) Demo.shrunk,
      (t.input.2.writes = true ∧ (getConfig t.pre).enabled = true) ∧
        getEntryCount t.post = 4 ∧
        (getEntry t.post 1).isSome = true ∧ (getEntry t.post 2).isSome = false := by
    decide
  obtain ⟨t, ht, happends, hcounter, hone, htwo⟩ := htorn
  obtain ⟨⟨lo, hwindow⟩, _⟩ := h t ht happends
  have hlo := ((hwindow.has_iff 1).mp hone).1
  have hmissing : t.post.adminAudit.entries.has 2 = false := htwo
  have hnext : t.post.adminAudit.counter = 4 := hcounter
  rw [Bool.eq_false_iff, ne_eq, hwindow.has_iff, hnext] at hmissing
  exact hmissing ⟨UInt64.le_trans hlo (by decide), by decide⟩

end AdminAuditLog
end AnchorKit
