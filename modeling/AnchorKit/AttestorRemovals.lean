import AnchorKit.RevocationInvariants

/-!
# What a removal leaves behind

An attestor that loses its registration should be announced by one event and recorded by one
admin-audit entry. The plain revocation logs itself twice and is silent when an earlier revocation
is still on record; the revocation inside a session writes no admin-audit entry at all.
-/

namespace AnchorKit

open Fallible

def Event.announcesRemovalOf (e : Event) (a : Address) : Bool :=
  match e with
  | .attestorRemoved b _ _ => b = a
  | _ => false

def Storage.removalsOf (s : Storage) (a : Address) : ℕ :=
  s.events.countP (·.announcesRemovalOf a)

def entriesPerAction (s : Storage) : ℕ := if (AdminAuditLog.getConfig s).enabled then 1 else 0

section Effects

variable {env : Env} {s s' : Storage} {a : Address}

theorem removalsOf_publish (s : Storage) (e : Event) (a : Address) :
    (s.publish e).removalsOf a = s.removalsOf a + if e.announcesRemovalOf a then 1 else 0 := by
  simp [Storage.removalsOf, Storage.publish, List.countP_append, List.countP_singleton]

theorem logAction_emits {admin : Address} {changeType target oldValue newValue : String}
    (h : AdminAuditLog.logAction env s admin changeType target oldValue newValue = .ok s') :
    s'.removalsOf a = s.removalsOf a ∧ entriesPerAction s' = entriesPerAction s ∧
      s'.adminAudit.counter.toNat = s.adminAudit.counter.toNat + entriesPerAction s := by
  unfold entriesPerAction
  rcases AdminAuditLog.writeEvent_effects h with ⟨hoff, rfl⟩ | ⟨hon, event, next, hnext, rfl⟩
  · refine ⟨rfl, rfl, ?_⟩
    rw [hoff]
    rfl
  · refine ⟨?_, rfl, ?_⟩
    · exact removalsOf_publish s (.adminAudit s.adminAudit.counter event) a
    · rw [hon]
      exact hnext.symm

/-- A plain revocation makes two entries, and one event unless an earlier revocation is open. -/
theorem revokeAttestor_emits (h : revokeAttestor env s a = .ok s') :
    s'.removalsOf a = s.removalsOf a + (if alreadyRevoked s.registry a then 0 else 1) ∧
      s'.adminAudit.counter.toNat = s.adminAudit.counter.toNat + 2 * entriesPerAction s := by
  simp only [revokeAttestor, bind_eq_ok, require_eq_ok, expect_eq_ok] at h
  obtain ⟨_, _, admin, _, t, ht, _, _, pk, _, u, hu, h⟩ := h
  have hfirst := logAction_emits (a := a) ht
  have hsecond := logAction_emits (a := a) hu
  obtain ⟨ring, events, rfl⟩ := AdminAuditLog.logAction_frame ht
  obtain ⟨hevents, hsame, hcounter⟩ := hfirst
  obtain ⟨hevents', _, hcounter'⟩ := hsecond
  have hquiet : u.removalsOf a = s.removalsOf a := hevents'.trans hevents
  have htwice : u.adminAudit.counter.toNat =
      s.adminAudit.counter.toNat + 2 * entriesPerAction s := by
    change ring.counter.toNat = _ at hcounter
    change u.adminAudit.counter.toNat = ring.counter.toNat +
      entriesPerAction { s with adminAudit := ring, events := events } at hcounter'
    omega
  split at h
  · rename_i hopen
    obtain rfl := pure_eq_ok.mp h
    rw [if_pos hopen]
    exact ⟨hquiet, htwice⟩
  · rename_i hclosed
    obtain rfl := pure_eq_ok.mp h
    rw [if_neg hclosed, removalsOf_publish, hquiet]
    exact ⟨by simp [Event.announcesRemovalOf], htwice⟩

/-- A revocation inside a session makes one event and no entry. -/
theorem revokeAttestorWithSession_emits {operator : Address} {sessionId : UInt64}
    (h : revokeAttestorWithSession env s operator sessionId a = .ok s') :
    s'.removalsOf a = s.removalsOf a + 1 ∧
      s'.adminAudit.counter.toNat = s.adminAudit.counter.toNat := by
  simp only [revokeAttestorWithSession, bind_eq_ok, require_eq_ok, pure_eq_ok] at h
  obtain ⟨_, _, t, hopen, _, hflag, ⟨u, opIndex, logId⟩, hrecord, rfl⟩ := h
  obtain ⟨_, _, _, _, rfl⟩ := requireSessionOpen_effects hopen
  obtain ⟨_, _, _, _, rfl⟩ := recordSessionOperation_effects hrecord
  refine ⟨?_, rfl⟩
  rw [removalsOf_publish, removalsOf_publish]
  simp [Event.announcesRemovalOf]
  rfl

end Effects

def Transition.Deregisters (t : Transition) (a : Address) : Prop :=
  t.pre.registry.attestor.has a = true ∧ t.post.registry.attestor.has a = false

/-- The removal is announced once and entered once. -/
structure RemovalOnceRecorded (t : Transition) (a : Address) : Prop where
  announced : t.post.removalsOf a = t.pre.removalsOf a + 1
  entered : t.post.adminAudit.counter.toNat = t.pre.adminAudit.counter.toNat + 1

inductive RemovalTrail (t : Transition) (a : Address) : Prop
  | plain (hcall : t.input.2 = .revokeAttestor a)
      (hevents : t.post.removalsOf a =
        t.pre.removalsOf a + (if alreadyRevoked t.pre.registry a then 0 else 1))
      (hentries : t.post.adminAudit.counter.toNat =
        t.pre.adminAudit.counter.toNat + 2 * entriesPerAction t.pre)
  | inSession {operator : Address} {sessionId : UInt64}
      (hcall : t.input.2 = .revokeAttestorWithSession operator sessionId a)
      (hevents : t.post.removalsOf a = t.pre.removalsOf a + 1)
      (hentries : t.post.adminAudit.counter.toNat = t.pre.adminAudit.counter.toNat)

/-- Only the two revocations take a registration away, each with its trail. -/
theorem removalTrail_of_step {host : Host} {t : Transition} {a : Address}
    (ht : step host t.pre t.input = .ok t.post) (hlost : t.Deregisters a) : RemovalTrail t a := by
  obtain ⟨hpre, hpost⟩ := hlost
  cases addressStep_of_step (registry_step ht) a with
  | untouched _ hflag _ =>
    rw [hflag, hpre] at hpost
    cases hpost
  | registered hflag =>
    rw [hflag] at hpost
    cases hpost
  | revoked hc _ _ _ _ =>
    have hinput : t.input = (t.input.1, .revokeAttestor a) := Prod.ext rfl hc
    rw [hinput] at ht
    obtain ⟨hevents, hentries⟩ := revokeAttestor_emits ht
    exact .plain hc hevents hentries
  | @revokedInSession operator sessionId hc _ _ _ =>
    have hinput : t.input = (t.input.1, .revokeAttestorWithSession operator sessionId a) :=
      Prod.ext rfl hc
    rw [hinput] at ht
    obtain ⟨hevents, hentries⟩ := revokeAttestorWithSession_emits ht
    exact .inSession hc hevents hentries

theorem deregisters_of_removes {host : Host} {t : Transition} {a : Address}
    (ht : step host t.pre t.input = .ok t.post) (hremoves : t.input.2.removes a = true) :
    t.Deregisters a := by
  have hstep := registry_step ht
  unfold Transition.Deregisters
  generalize t.input.2 = c at hstep hremoves
  generalize t.post.registry = st' at hstep
  cases hstep with
  | frame hc =>
    rw [Call.removes_of_frame hc] at hremoves
    cases hremoves
  | capacity | register | registerInSession | reactivate => cases hremoves
  | revoke hflag | revokeAtZero hflag | revokeInSession hflag =>
    obtain rfl := of_decide_eq_true hremoves
    exact ⟨hflag, by simp [RegistryStore.withdraw, RegistryStore.unflag, KeyedStore.has_remove]⟩

theorem RemovalTrail.not_onceRecorded {t : Transition} {a : Address} (h : RemovalTrail t a) :
    ¬ RemovalOnceRecorded t a := by
  rintro ⟨_, hentered⟩
  cases h with
  | plain hcall hevents hentries =>
    unfold entriesPerAction at hentries
    split at hentries
    · omega
    · omega
  | inSession hcall hevents hentries => omega

/-- In every run each removal of an attestor leaves the trail of its kind of revocation, so that
removals are announced and entered exactly once only in runs without any revocation. -/
theorem removals_recorded_iff (host : Host) (is : List Input) :
    ((∀ t ∈ history host is, ∀ a, t.Deregisters a → RemovalOnceRecorded t a) ↔
      ∀ t ∈ history host is, ∀ a, t.input.2.removes a = false) ∧
    ∀ t ∈ history host is, ∀ a, t.Deregisters a → RemovalTrail t a := by
  have htrail : ∀ t ∈ history host is, ∀ a, t.Deregisters a → RemovalTrail t a := fun t ht a =>
    removalTrail_of_step (Machine.step_of_mem_transitions _ ht)
  refine ⟨⟨fun h t ht a => ?_, fun h t ht a hlost => ?_⟩, htrail⟩
  · by_contra hremoves
    have hlost : t.Deregisters a :=
      deregisters_of_removes (Machine.step_of_mem_transitions _ ht) (by simpa using hremoves)
    exact (htrail t ht a hlost).not_onceRecorded (h t ht a hlost)
  · have hnone := h t ht a
    cases htrail t ht a hlost with
    | plain hcall => simp [hcall, Call.removes] at hnone
    | inSession hcall => simp [hcall, Call.removes] at hnone

namespace Demo

def revokedAgain : List Input :=
  [deploy, openSession, sessionRegister alice 7, onLedger 2 (.revokeAttestor alice),
    sessionRegister alice 9, onLedger 3 (.revokeAttestor alice)]

end Demo

/-- The second revocation of an attestor that was registered again goes unannounced. -/
theorem unannounced_second_removal :
    ¬ ∀ t ∈ history Demo.host Demo.revokedAgain, ∀ a, t.Deregisters a →
      RemovalOnceRecorded t a := by
  intro h
  have hsilent : ∃ t ∈ history Demo.host Demo.revokedAgain,
      (t.pre.registry.attestor.has Demo.alice = true ∧
        t.post.registry.attestor.has Demo.alice = false) ∧
      t.post.removalsOf Demo.alice = t.pre.removalsOf Demo.alice := by decide
  obtain ⟨t, ht, hlost, hevents⟩ := hsilent
  have hannounced := (h t ht Demo.alice hlost).announced
  omega

end AnchorKit
