import AnchorKit.RegistryInvariants

/-!
# Revocation records

A removed attestor can be brought back by a later reactivation, with the key on its revocation
record. The record is written by the plain revocation only, so it names the key that was active
at the last removal exactly in the runs whose session revocations find it already on record.
-/

namespace AnchorKit

def Call.removes (c : Call) (a : Address) : Bool :=
  match c with
  | .revokeAttestor b | .revokeAttestorWithSession _ _ b => b = a
  | _ => false

/-- The key that was active when `a` was last removed. -/
def lastRemovedKey (past : List Transition) (a : Address) : Option (BytesN 32) :=
  past.foldl (fun key t => if t.input.2.removes a then t.pre.registry.publicKey.get a else key) none

def WasRegistered (past : List Transition) (a : Address) : Prop :=
  ∃ t ∈ past, t.post.registry.attestor.has a = true

/-- A removed attestor has an open revocation record with the key it last had. -/
def RemovalRecorded (past : List Transition) (st : RegistryStore) (a : Address) : Prop :=
  WasRegistered past a → st.attestor.has a = false →
    ∃ record, st.revocation.get a = some record ∧ record.reactivated = false ∧
      lastRemovedKey past a = some record.publicKey

def RestoresLastKey (past : List Transition) : Prop :=
  ∀ before t after a, past = before ++ t :: after → t.input.2 = .reactivateAttestor a →
    t.post.registry.publicKey.get a = lastRemovedKey before a

/-- Removals are on record and reactivations follow the record. -/
def RevocationsFaithful (past : List Transition) (s : Storage) : Prop :=
  (∀ a, RemovalRecorded past s.registry a) ∧ RestoresLastKey past

/-- A session revocation that finds an open record with the key it removes. -/
def RemovalOnRecord (t : Transition) : Prop :=
  ∀ operator sessionId a, t.input.2 = .revokeAttestorWithSession operator sessionId a →
    ∃ record, t.pre.registry.revocation.get a = some record ∧ record.reactivated = false ∧
      t.pre.registry.publicKey.get a = some record.publicKey

/-- Flags and records belong to addresses that were registered at some point. -/
def KnownOnly (past : List Transition) (s : Storage) : Prop :=
  ∀ a, (s.registry.attestor.has a = true ∨ s.registry.revocation.has a = true) →
    WasRegistered past a

theorem lastRemovedKey_snoc (past : List Transition) (t : Transition) (a : Address) :
    lastRemovedKey (past ++ [t]) a =
      if t.input.2.removes a then t.pre.registry.publicKey.get a else lastRemovedKey past a := by
  simp [lastRemovedKey]

theorem wasRegistered_snoc {past : List Transition} {t : Transition} {a : Address} :
    WasRegistered (past ++ [t]) a ↔
      WasRegistered past a ∨ t.post.registry.attestor.has a = true := by
  simp [WasRegistered, or_and_right, exists_or]

theorem restoresLastKey_snoc {past : List Transition} {t : Transition} :
    RestoresLastKey (past ++ [t]) ↔ RestoresLastKey past ∧
      ∀ a, t.input.2 = .reactivateAttestor a →
        t.post.registry.publicKey.get a = lastRemovedKey past a := by
  constructor
  · intro h
    refine ⟨fun before u after a hpast hu => ?_, fun a ha => h past t [] a rfl ha⟩
    exact h before u (after ++ [t]) a (by simp [hpast]) hu
  · rintro ⟨hpast, hlast⟩ before u after a heq hu
    rcases Machine.snoc_eq_split heq with ⟨rfl, rfl, rfl⟩ | ⟨rest, rfl, hsplit⟩
    · exact hlast a hu
    · exact hpast before u rest a hsplit hu

/-- A call that neither removes `a` nor touches its flag and record leaves its removal on record. -/
theorem removalRecorded_of_same {past : List Transition} {t : Transition} {a : Address}
    (h : RemovalRecorded past t.pre.registry a) (hrem : t.input.2.removes a = false)
    (hflag : t.post.registry.attestor.has a = t.pre.registry.attestor.has a)
    (hrecord : t.post.registry.revocation.get a = t.pre.registry.revocation.get a) :
    RemovalRecorded (past ++ [t]) t.post.registry a := by
  intro hwas hfree
  have hwas : WasRegistered past a := by
    rcases wasRegistered_snoc.mp hwas with hwas | hnow
    · exact hwas
    · rw [hfree] at hnow
      cases hnow
  rw [lastRemovedKey_snoc, hrem, hrecord]
  rw [hflag] at hfree
  exact h hwas hfree

theorem removalRecorded_of_registered {past : List Transition} {st : RegistryStore} {a : Address}
    (h : st.attestor.has a = true) : RemovalRecorded past st a := by
  intro _ hfree
  rw [h] at hfree
  cases hfree

/-- What a call does to one address: nothing, register it, revoke it with a record, or revoke it
inside a session, where its record stays as it was. -/
inductive AddressStep (st : RegistryStore) (c : Call) (st' : RegistryStore) (b : Address) : Prop
  | untouched (hrem : c.removes b = false)
      (hflag : st'.attestor.has b = st.attestor.has b)
      (hrecord : st'.revocation.get b = st.revocation.get b)
  | registered (hflag : st'.attestor.has b = true)
  | revoked {record : AttestorRevocationRecord} (hc : c = .revokeAttestor b)
      (hflag : st.attestor.has b = true) (hrecord : st'.revocation.get b = some record)
      (hopen : record.reactivated = false) (hkey : st.publicKey.get b = some record.publicKey)
  | revokedInSession {operator : Address} {sessionId : UInt64}
      (hc : c = .revokeAttestorWithSession operator sessionId b)
      (hflag : st.attestor.has b = true) (hgone : st'.attestor.has b = false)
      (hrecord : st'.revocation.get b = st.revocation.get b)

theorem Call.removes_of_frame {c : Call} (hc : .registry ∉ c.touches) (b : Address) :
    c.removes b = false := by
  cases c <;> simp_all [Call.touches, Call.removes]

theorem addressStep_enroll {st : RegistryStore} {c : Call} {a b : Address} (pk : BytesN 32)
    (count : UInt64) {revocation : KeyedStore Address AttestorRevocationRecord}
    (hc : c.removes b = false) (hrecord : b ≠ a → revocation.get b = st.revocation.get b) :
    AddressStep st c { st.enroll a pk with count := count, revocation := revocation } b := by
  by_cases hb : b = a
  · apply AddressStep.registered
    subst hb
    simp [RegistryStore.enroll, KeyedStore.has_set]
  · refine .untouched hc ?_ (hrecord hb)
    simp [RegistryStore.enroll, KeyedStore.has_set, hb]

theorem addressStep_revoke {st st' : RegistryStore} {a b : Address}
    {record : AttestorRevocationRecord} (hflag : st.attestor.has a = true)
    (hkey : st.publicKey.get a = some record.publicKey) (hrecord : record.reactivated = false)
    (hattestor : st'.attestor = st.attestor.remove a)
    (hrevocation : st'.revocation = st.revocation.set a record) :
    AddressStep st (.revokeAttestor a) st' b := by
  by_cases hb : b = a
  · subst hb
    exact .revoked rfl hflag (by simp [hrevocation]) hrecord hkey
  · refine .untouched ?_ ?_ ?_
    · simp [Call.removes, Ne.symm hb]
    · simp [hattestor, KeyedStore.has_remove, hb]
    · simp [hrevocation, KeyedStore.get_set, hb]

theorem addressStep_of_step {st st' : RegistryStore} {c : Call} (h : RegistryStep st c st')
    (b : Address) : AddressStep st c st' b := by
  cases h with
  | frame hc => exact .untouched (Call.removes_of_frame hc b) rfl rfl
  | capacity => exact .untouched rfl rfl rfl
  | @register a _ _ pk count _ _ _ =>
    exact addressStep_enroll (a := a) pk count rfl fun _ => rfl
  | @registerInSession _ a _ pk _ =>
    exact addressStep_enroll (a := a) pk st.count rfl fun _ => rfl
  | @reactivate a record _ count _ _ _ =>
    exact addressStep_enroll (a := a) record.publicKey count rfl fun hb =>
      KeyedStore.get_set_of_ne _ _ hb
  | revoke hflag hkey hrecord _ => exact addressStep_revoke hflag hkey hrecord rfl rfl
  | revokeAtZero hflag hkey hrecord _ => exact addressStep_revoke hflag hkey hrecord rfl rfl
  | @revokeInSession operator a sessionId hflag =>
    by_cases hb : b = a
    · subst hb
      exact .revokedInSession rfl hflag
        (by simp [RegistryStore.withdraw, RegistryStore.unflag, KeyedStore.has_remove]) rfl
    · refine .untouched ?_ ?_ rfl
      · simp [Call.removes, Ne.symm hb]
      · simp [RegistryStore.withdraw, RegistryStore.unflag, KeyedStore.has_remove, hb]

theorem knownOnly_step {host : Host} {past : List Transition} {t : Transition}
    (ht : step host t.pre t.input = .ok t.post) (hpre : KnownOnly past t.pre) :
    KnownOnly (past ++ [t]) t.post := by
  intro b hb
  rw [wasRegistered_snoc]
  cases addressStep_of_step (registry_step ht) b with
  | untouched _ hflag hrecord =>
    refine Or.inl (hpre b (hb.imp (fun hb => hflag ▸ hb) fun hb => ?_))
    rwa [KeyedStore.has, ← hrecord]
  | registered hflag => exact Or.inr hflag
  | revoked _ hflag _ _ _ => exact Or.inl (hpre b (Or.inl hflag))
  | revokedInSession _ hflag _ _ => exact Or.inl (hpre b (Or.inl hflag))

theorem removes_session (operator a : Address) (sessionId : UInt64) :
    (Call.revokeAttestorWithSession operator sessionId a).removes a = true := by
  simp [Call.removes]

/-- After one more call, the removal of `b` is on record unless the call was a session revocation
of `b` that found no matching record. -/
theorem removalRecorded_step {host : Host} {past : List Transition} {t : Transition}
    (ht : step host t.pre t.input = .ok t.post) {b : Address}
    (hpre : RemovalRecorded past t.pre.registry b) (hgood : RemovalOnRecord t) :
    RemovalRecorded (past ++ [t]) t.post.registry b := by
  cases addressStep_of_step (registry_step ht) b with
  | untouched hrem hflag hrecord => exact removalRecorded_of_same hpre hrem hflag hrecord
  | registered hflag => exact removalRecorded_of_registered hflag
  | @revoked record hc _ hrecord hopen hkey =>
    intro _ _
    refine ⟨record, hrecord, hopen, ?_⟩
    rw [lastRemovedKey_snoc, hc, if_pos (by simp [Call.removes]), hkey]
  | @revokedInSession operator sessionId hc _ _ hrecord =>
    obtain ⟨record, hpreRecord, hopen, hkey⟩ := hgood operator sessionId b hc
    intro _ _
    refine ⟨record, hrecord.trans hpreRecord, hopen, ?_⟩
    rw [lastRemovedKey_snoc, hc, if_pos (removes_session operator b sessionId), hkey]

/-- A session revocation whose removal is on record afterwards found the record there. -/
theorem removalOnRecord_of_recorded {host : Host} {past : List Transition} {t : Transition}
    (ht : step host t.pre t.input = .ok t.post) (hknown : KnownOnly past t.pre)
    (hpost : ∀ b, RemovalRecorded (past ++ [t]) t.post.registry b) : RemovalOnRecord t := by
  intro operator sessionId a hc
  have hrem : t.input.2.removes a = true := hc ▸ removes_session operator a sessionId
  cases addressStep_of_step (registry_step ht) a with
  | untouched hfree _ _ => rw [hrem] at hfree; cases hfree
  | registered hflag =>
    have hstep := registry_step ht
    rw [hc] at hstep
    generalize t.post.registry = st' at hstep hflag
    cases hstep with
    | frame hframe => exact absurd hframe (by simp [Call.touches])
    | revokeInSession _ =>
      simp [RegistryStore.withdraw, RegistryStore.unflag, KeyedStore.has_remove] at hflag
  | revoked hplain _ _ _ _ => rw [hc] at hplain; cases hplain
  | revokedInSession _ hflag hgone hrecord =>
    have hwas : WasRegistered (past ++ [t]) a :=
      wasRegistered_snoc.mpr (Or.inl (hknown a (Or.inl hflag)))
    obtain ⟨record, hget, hopen, hkey⟩ := hpost a hwas hgone
    rw [lastRemovedKey_snoc, if_pos hrem] at hkey
    exact ⟨record, hrecord ▸ hget, hopen, hkey⟩

/-- A reactivation follows the record, so it brings back the last key when the record names it. -/
theorem restores_of_recorded {host : Host} {past : List Transition} {t : Transition}
    (ht : step host t.pre t.input = .ok t.post) (hknown : KnownOnly past t.pre)
    (hpre : ∀ b, RemovalRecorded past t.pre.registry b) {a : Address}
    (hc : t.input.2 = .reactivateAttestor a) :
    t.post.registry.publicKey.get a = lastRemovedKey past a := by
  have hstep := registry_step ht
  rw [hc] at hstep
  generalize t.post.registry = st' at hstep
  cases hstep with
  | frame hframe => exact absurd hframe (by simp [Call.touches])
  | reactivate hfree hrecord _ =>
    have hhas : t.pre.registry.revocation.has a = true := KeyedStore.has_iff.mpr ⟨_, hrecord⟩
    obtain ⟨record', hget, _, hkey⟩ := hpre a (hknown a (Or.inr hhas)) hfree
    rw [hrecord] at hget
    obtain rfl := Option.some.inj hget
    rw [hkey]
    simp [RegistryStore.enroll]

/-- In every state of a run each removed attestor has an open record with its last key, and each
reactivation brings that key back, exactly when every session revocation of the run finds an open
record with the key it removes. -/
theorem revocations_faithful_iff (host : Host) (is : List Input) :
    (∀ js, js <+: is → RevocationsFaithful (history host js) (run host js)) ↔
      ∀ t ∈ history host is, RemovalOnRecord t := by
  refine Machine.forall_prefix_invariant_iff (step host) RevocationsFaithful KnownOnly
    RemovalOnRecord (s := .empty) ?_ ?_ ?_ (fun past t ht hknown _ _ => knownOnly_step ht hknown) is
  · refine ⟨fun a hwas => ?_, fun before t after a heq => ?_⟩
    · obtain ⟨t, ht, _⟩ := hwas
      cases ht
    · simp at heq
  · rintro a (h | h)
    · cases h
    · cases h
  · intro past t ht hknown hpre
    constructor
    · intro hpost
      exact removalOnRecord_of_recorded ht hknown hpost.1
    · intro hgood
      refine ⟨fun b => removalRecorded_step ht (hpre.1 b) hgood, restoresLastKey_snoc.mpr ⟨hpre.2, ?_⟩⟩
      intro a hc
      exact restores_of_recorded ht hknown hpre.1 hc

/-- Registered with key 1 and revoked, then registered with key 2 and revoked inside a session:
the record still names key 1, and a reactivation brings it back. -/
theorem stale_key_after_session_revocation :
    let calls := [Demo.deploy, Demo.openSession, Demo.sessionRegister Demo.alice 1,
      Demo.revoke Demo.alice, Demo.sessionRegister Demo.alice 2, Demo.sessionRevoke Demo.alice]
    (run Demo.host (calls ++ [Demo.reactivate Demo.alice])).registry.publicKey.get Demo.alice =
        some (.fill 32 1) ∧
      ¬ ∀ js, js <+: calls → RevocationsFaithful (history Demo.host js) (run Demo.host js) := by
  intro calls
  refine ⟨by decide, fun h => ?_⟩
  have hwas : WasRegistered (history Demo.host calls) Demo.alice := by
    unfold WasRegistered
    decide
  obtain ⟨record, hget, _, hkey⟩ := (h calls List.prefix_rfl).1 Demo.alice hwas (by decide)
  have hold : ((run Demo.host calls).registry.revocation.get Demo.alice).map (·.publicKey) =
      some (.fill 32 1) := by decide
  have hlast : lastRemovedKey (history Demo.host calls) Demo.alice = some (.fill 32 2) := by decide
  rw [hget] at hold
  rw [hlast] at hkey
  have hsame : BytesN.fill 32 2 = BytesN.fill 32 1 :=
    (Option.some.inj hkey).trans (Option.some.inj hold)
  exact absurd hsame (by decide)

end AnchorKit
