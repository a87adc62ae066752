import AnchorKit.Contract

/-!
# Invariants of the attestor registry

The registry keeps the set of attestors three times over and counts it by hand. One inversion
lemma says what a committed call can do to it. From it follow the exact conditions under which
the three representations agree, and under which the counter counts them, along a whole run.
-/

namespace AnchorKit

open Roster (pushIfAbsent)

def RegistryStore.maxAttestors (st : RegistryStore) : UInt64 :=
  (st.capacity.getD CapacityConfig.defaultConfig).maxAttestors

def RegistryStore.enroll (st : RegistryStore) (a : Address) (pk : BytesN 32) : RegistryStore :=
  { st with
    attestor := st.attestor.set a true
    publicKey := st.publicKey.set a pk
    list := pushIfAbsent st.list a }

def RegistryStore.unflag (st : RegistryStore) (a : Address) : RegistryStore :=
  { st with attestor := st.attestor.remove a, publicKey := st.publicKey.remove a }

def RegistryStore.withdraw (st : RegistryStore) (a : Address) : RegistryStore :=
  { st.unflag a with list := st.list.erase a }

inductive RegistryStep (st : RegistryStore) : Call → RegistryStore → Prop
  | frame {c : Call} (hc : .registry ∉ c.touches) : RegistryStep st c st
  | capacity {config : CapacityConfig} :
      RegistryStep st (.setCapacityConfig config) { st with capacity := some config }
  | register {a issuer : Address} {token : Bytes} {pk : BytesN 32} {count : UInt64}
      (hfree : st.attestor.has a = false) (hcap : st.count < st.maxAttestors)
      (hcount : st.count.toNat + 1 = count.toNat) :
      RegistryStep st (.registerAttestor a token issuer pk) { st.enroll a pk with count := count }
  | registerInSession {operator a : Address} {sessionId : UInt64} {pk : BytesN 32}
      (hfree : st.attestor.has a = false) :
      RegistryStep st (.registerAttestorWithSession operator sessionId a pk) (st.enroll a pk)
  | reactivate {a : Address} {record : AttestorRevocationRecord} {now count : UInt64}
      (hfree : st.attestor.has a = false) (hrecord : st.revocation.get a = some record)
      (hcount : st.count.toNat + 1 = count.toNat) :
      RegistryStep st (.reactivateAttestor a)
        { st.enroll a record.publicKey with
          count := count
          revocation := st.revocation.set a
            { record with reactivated := true, reactivatedAt := now } }
  | revoke {a : Address} {record : AttestorRevocationRecord}
      (hflag : st.attestor.has a = true) (hkey : st.publicKey.get a = some record.publicKey)
      (hrecord : record.reactivated = false) (hpos : 0 < st.count) :
      RegistryStep st (.revokeAttestor a)
        { st.withdraw a with
          count := st.count - 1, revocation := st.revocation.set a record }
  | revokeAtZero {a : Address} {record : AttestorRevocationRecord}
      (hflag : st.attestor.has a = true) (hkey : st.publicKey.get a = some record.publicKey)
      (hrecord : record.reactivated = false) (hzero : st.count = 0) :
      RegistryStep st (.revokeAttestor a)
        { st.unflag a with revocation := st.revocation.set a record }
  | revokeInSession {operator a : Address} {sessionId : UInt64}
      (hflag : st.attestor.has a = true) :
      RegistryStep st (.revokeAttestorWithSession operator sessionId a) (st.withdraw a)

theorem registry_step {host : Host} {s s' : Storage} {i : Input} (h : step host s i = .ok s') :
    RegistryStep s.registry i.2 s'.registry := by
  obtain ⟨env, c⟩ := i
  change invoke host env s c = .ok s' at h
  by_cases hc : .registry ∈ c.touches
  · cases c with
    | setCapacityConfig config =>
      obtain rfl := setCapacityConfig_effects h
      exact .capacity
    | registerAttestor a token issuer pk =>
      obtain ⟨hfree, hcap, count, _, _, _, hcount, rfl⟩ := registerAttestor_effects h
      exact .register hfree hcap hcount
    | revokeAttestor a =>
      obtain ⟨hflag, pk, _, _, _, hkey, rfl⟩ := revokeAttestor_effects h
      by_cases hpos : 0 < s.registry.count
      · simp only [dropFromList, if_pos hpos]
        exact .revoke hflag hkey rfl hpos
      · simp only [dropFromList, if_neg hpos]
        have hzero : s.registry.count = 0 := by
          rw [UInt64.lt_iff_toNat_lt] at hpos
          exact UInt64.toNat_inj.mp (by simpa using hpos)
        exact .revokeAtZero hflag hkey rfl hzero
    | reactivateAttestor a =>
      obtain ⟨hfree, record, count, _, _, hrecord, hcount, rfl⟩ := reactivateAttestor_effects h
      exact .reactivate hfree hrecord hcount
    | registerAttestorWithSession operator sessionId a pk =>
      obtain ⟨hfree, _, _, _, rfl⟩ := registerAttestorWithSession_effects h
      exact .registerInSession hfree
    | revokeAttestorWithSession operator sessionId a =>
      obtain ⟨hflag, _, _, _, rfl⟩ := revokeAttestorWithSession_effects h
      exact .revokeInSession hflag
    | _ => exact absurd hc (by simp [Call.touches])
  · rw [(invoke_sameOutside h).registry_eq hc]
    exact .frame hc

/-- The three representations of the set of attestors agree. -/
def RegistryStore.Agrees (st : RegistryStore) : Prop :=
  Roster.Agrees st.attestor st.publicKey st.list

/-- The plain revocation that leaves its address in the list: the counter was already zero. -/
def StrandsListEntry (t : Transition) : Prop :=
  ∃ a, t.input.2 = .revokeAttestor a ∧ t.pre.registry.count = 0

theorem agrees_of_step {st st' : RegistryStore} {c : Call} (h : RegistryStep st c st')
    (hst : st.Agrees) (hc : ∀ a, c = .revokeAttestor a → st.count ≠ 0) : st'.Agrees := by
  cases h with
  | frame _ => exact hst
  | capacity => exact hst
  | register _ _ _ => exact Roster.Agrees.enroll hst _ _
  | registerInSession _ => exact Roster.Agrees.enroll hst _ _
  | reactivate _ _ _ => exact Roster.Agrees.enroll hst _ _
  | revoke _ _ _ _ => exact Roster.Agrees.withdraw hst
  | revokeAtZero _ _ _ hzero => exact absurd hzero (hc _ rfl)
  | revokeInSession _ => exact Roster.Agrees.withdraw hst

theorem not_agrees_of_revokeAtZero {st st' : RegistryStore} {a : Address}
    (h : RegistryStep st (.revokeAttestor a) st') (hst : st.Agrees) (hzero : st.count = 0) :
    ¬ st'.Agrees := by
  cases h with
  | frame hc => exact absurd hc (by simp [Call.touches])
  | revoke _ _ _ hpos => rw [hzero] at hpos; exact absurd hpos (by decide)
  | revokeAtZero hflag _ _ _ => exact Roster.Agrees.stranded hst hflag

/-- In every state of a run the flag, the key and the list agree about every address, exactly
when no plain revocation of the run finds the counter at zero. -/
theorem registry_agrees_iff (host : Host) (is : List Input) :
    (∀ js, js <+: is → (run host js).registry.Agrees) ↔
      ∀ t ∈ history host is, ¬ StrandsListEntry t := by
  refine Machine.forall_prefix_invariant_iff (step host) (fun _ s => s.registry.Agrees)
    (fun _ _ => True) (fun t => ¬ StrandsListEntry t) (s := .empty) Roster.agrees_empty trivial ?_
    (fun _ _ _ _ _ _ => trivial) is
  intro past t ht _ hpre
  have hstep := registry_step ht
  constructor
  · rintro hpost ⟨a, ha, hzero⟩
    rw [ha] at hstep
    exact not_agrees_of_revokeAtZero hstep hpre hzero hpost
  · intro hgood
    exact agrees_of_step hstep hpre fun a ha hzero => hgood ⟨a, ha, hzero⟩

/-- An attestor registered inside a session is not counted, so its plain revocation finds the
counter at zero and leaves it in the list. -/
theorem stranded_after_session_registration :
    ¬ ∀ js, js <+: [Demo.deploy, Demo.openSession, Demo.sessionRegister Demo.alice 1,
        Demo.revoke Demo.alice] → (run Demo.host js).registry.Agrees := by
  intro h
  have hlast := h _ List.prefix_rfl
  have hflag := (hlast.mem_iff Demo.alice).mpr (by decide)
  exact absurd hflag (by decide)

/-- A flag and a key always come and go together. -/
def RegistryStore.FlaggedIffKeyed (st : RegistryStore) : Prop :=
  ∀ a, st.attestor.has a = true ↔ st.publicKey.has a = true

theorem flaggedIffKeyed_enroll {st : RegistryStore} (hst : st.FlaggedIffKeyed) (a : Address)
    (pk : BytesN 32) : (st.enroll a pk).FlaggedIffKeyed := by
  intro b
  by_cases hb : b = a
  · simp [RegistryStore.enroll, KeyedStore.has_set, hb]
  · simpa [RegistryStore.enroll, KeyedStore.has_set, hb] using hst b

theorem flaggedIffKeyed_unflag {st : RegistryStore} (hst : st.FlaggedIffKeyed) (a : Address) :
    (st.unflag a).FlaggedIffKeyed := by
  intro b
  by_cases hb : b = a
  · simp [RegistryStore.unflag, KeyedStore.has_remove, hb]
  · simpa [RegistryStore.unflag, KeyedStore.has_remove, hb] using hst b

theorem flaggedIffKeyed_of_step {st st' : RegistryStore} {c : Call} (h : RegistryStep st c st')
    (hst : st.FlaggedIffKeyed) : st'.FlaggedIffKeyed := by
  cases h with
  | frame _ => exact hst
  | capacity => exact hst
  | register _ _ _ => exact flaggedIffKeyed_enroll hst _ _
  | registerInSession _ => exact flaggedIffKeyed_enroll hst _ _
  | reactivate _ _ _ => exact flaggedIffKeyed_enroll hst _ _
  | revoke _ _ _ _ => exact flaggedIffKeyed_unflag hst _
  | revokeAtZero _ _ _ _ => exact flaggedIffKeyed_unflag hst _
  | revokeInSession _ => exact flaggedIffKeyed_unflag hst _

theorem flaggedIffKeyed_run (host : Host) (is : List Input) :
    (run host is).registry.FlaggedIffKeyed :=
  Machine.invariant (step host) (fun s => s.registry.FlaggedIffKeyed) (s := .empty)
    (fun a => by simp [Storage.empty])
    (fun _ _ _ hstep hpre => flaggedIffKeyed_of_step (registry_step hstep) hpre) is

def Call.enrolls : Call → Bool
  | .registerAttestor _ _ _ _ | .registerAttestorWithSession _ _ _ _ | .reactivateAttestor _ => true
  | _ => false

def RegistryStore.Counted (st : RegistryStore) : Prop := st.count.toNat = st.list.length

/-- A call that adds an attestor stays within the cap. -/
def RegistryStore.WithinCap (st : RegistryStore) (c : Call) : Prop :=
  c.enrolls = true → st.list.length ≤ st.maxAttestors.toNat

/-- The counter counts the list, and no call of the past went over the cap. -/
def CountedWithinCap (past : List Transition) (s : Storage) : Prop :=
  s.registry.Counted ∧ ∀ t ∈ past, t.post.registry.WithinCap t.input.2

/-- The calls that keep the count: none inside a session, and reactivations only below the cap. -/
def RegistryStore.KeepsCount (st : RegistryStore) : Call → Prop
  | .registerAttestorWithSession _ _ _ _ | .revokeAttestorWithSession _ _ _ => False
  | .reactivateAttestor _ => st.count < st.maxAttestors
  | _ => True

theorem Call.neutral_of_frame {c : Call} (hc : .registry ∉ c.touches) :
    (∀ st : RegistryStore, st.KeepsCount c) ∧ c.enrolls = false := by
  cases c <;> simp_all [Call.touches, Call.enrolls, RegistryStore.KeepsCount]

/-- Enrolling a new attestor with a matching count keeps the count and fits the cap exactly when
there was room. -/
theorem counted_enroll {st : RegistryStore} {a : Address} {count : UInt64} (hst : st.Agrees)
    (hcounted : st.Counted) (hfree : st.attestor.has a = false)
    (hcount : st.count.toNat + 1 = count.toNat) (pk : BytesN 32)
    (revocation : KeyedStore Address AttestorRevocationRecord) :
    let st' := { st.enroll a pk with count := count, revocation := revocation }
    st'.Counted ∧ (st'.list.length ≤ st'.maxAttestors.toNat ↔ st.count < st.maxAttestors) := by
  have hlength : (pushIfAbsent st.list a).length = st.list.length + 1 :=
    Roster.length_pushIfAbsent (Roster.Agrees.not_mem hst hfree)
  have hcounted : st.count.toNat = st.list.length := hcounted
  constructor
  · change count.toNat = (pushIfAbsent st.list a).length
    omega
  · change (pushIfAbsent st.list a).length ≤ st.maxAttestors.toNat ↔ _
    rw [hlength, ← hcounted, UInt64.lt_iff_toNat_lt]
    exact Nat.succ_le_iff

theorem counted_withdraw {st : RegistryStore} {a : Address}
    {revocation : KeyedStore Address AttestorRevocationRecord} (hst : st.Agrees)
    (hcounted : st.Counted) (hflag : st.attestor.has a = true) :
    { st.withdraw a with count := st.count - 1, revocation := revocation : RegistryStore }.Counted := by
  have hlength : (st.list.erase a).length + 1 = st.list.length := Roster.Agrees.length_erase hst hflag
  have hcounted : st.count.toNat = st.list.length := hcounted
  change (st.count - 1).toNat = (st.list.erase a).length
  rw [UInt64.toNat_sub_of_le _ _ (by rw [UInt64.le_iff_toNat_le]; simpa using by omega)]
  simp
  omega

theorem counted_iff_of_step {st st' : RegistryStore} {c : Call} (h : RegistryStep st c st')
    (hst : st.Agrees) (hcounted : st.Counted) :
    (st'.Counted ∧ st'.WithinCap c) ↔ st.KeepsCount c := by
  have hlen : st.count.toNat = st.list.length := hcounted
  cases h with
  | frame hc =>
    obtain ⟨hkeeps, henrolls⟩ := Call.neutral_of_frame hc
    refine ⟨fun _ => hkeeps st, fun _ => ⟨hcounted, fun he => ?_⟩⟩
    rw [henrolls] at he
    cases he
  | capacity => exact ⟨fun _ => trivial, fun _ => ⟨hcounted, fun he => by cases he⟩⟩
  | @register a _ _ pk _ hfree hcap hcount =>
    have hpost := counted_enroll hst hcounted hfree hcount pk st.revocation
    exact ⟨fun _ => trivial, fun _ => ⟨hpost.1, fun _ => hpost.2.mpr hcap⟩⟩
  | @registerInSession operator a sessionId pk hfree =>
    have hlength : (pushIfAbsent st.list a).length = st.list.length + 1 :=
      Roster.length_pushIfAbsent (Roster.Agrees.not_mem hst hfree)
    refine ⟨fun hpost => ?_, False.elim⟩
    have hpost : st.count.toNat = (pushIfAbsent st.list a).length := hpost.1
    omega
  | @reactivate a record now _ hfree hrecord hcount =>
    have hpost := counted_enroll hst hcounted hfree hcount record.publicKey
      (st.revocation.set a { record with reactivated := true, reactivatedAt := now })
    exact ⟨fun h => hpost.2.mp (h.2 rfl), fun hcap => ⟨hpost.1, fun _ => hpost.2.mpr hcap⟩⟩
  | revoke hflag _ _ _ =>
    exact ⟨fun _ => trivial, fun _ =>
      ⟨counted_withdraw hst hcounted hflag, fun he => by cases he⟩⟩
  | @revokeAtZero a record hflag _ _ hzero =>
    have hmem : a ∈ st.list := (Roster.Agrees.mem_iff hst a).mp hflag
    have hpos := List.length_pos_of_mem hmem
    rw [hzero] at hlen
    exact absurd hlen (by simp; omega)
  | @revokeInSession operator a sessionId hflag =>
    have hlength : (st.list.erase a).length + 1 = st.list.length :=
      Roster.Agrees.length_erase hst hflag
    refine ⟨fun hpost => ?_, False.elim⟩
    have hpost : st.count.toNat = (st.list.erase a).length := hpost.1
    omega

theorem count_ne_zero_of_revoke {st st' : RegistryStore} {c : Call} (h : RegistryStep st c st')
    (hst : st.Agrees) (hcounted : st.Counted) {a : Address} (hc : c = .revokeAttestor a) :
    st.count ≠ 0 := by
  intro hzero
  have hflag : st.attestor.has a = true := by
    subst hc
    cases h with
    | frame hc => exact absurd hc (by simp [Call.touches])
    | revoke hflag _ _ _ => exact hflag
    | revokeAtZero hflag _ _ _ => exact hflag
  have hpos := List.length_pos_of_mem ((Roster.Agrees.mem_iff hst a).mp hflag)
  have hlen : st.count.toNat = st.list.length := hcounted
  rw [hzero] at hlen
  exact absurd hlen (by simp; omega)

/-- In every state of a run the counter is the number of registered attestors and no call has
gone over the cap, exactly when the run registers and revokes nobody inside a session and
reactivates only below the cap. -/
theorem registry_counted_iff (host : Host) (is : List Input) :
    (∀ js, js <+: is → CountedWithinCap (history host js) (run host js)) ↔
      ∀ t ∈ history host is, t.pre.registry.KeepsCount t.input.2 := by
  refine Machine.forall_prefix_invariant_iff (step host) CountedWithinCap
    (fun _ s => s.registry.Agrees) (fun t => t.pre.registry.KeepsCount t.input.2) (s := .empty)
    ⟨rfl, by simp⟩ Roster.agrees_empty ?_ ?_ is
  · intro past t ht hagrees hpre
    rw [← counted_iff_of_step (registry_step ht) hagrees hpre.1]
    constructor
    · intro hpost
      exact ⟨hpost.1, hpost.2 t (by simp)⟩
    · intro hpost
      exact ⟨hpost.1, Machine.forall_mem_snoc.mpr ⟨hpre.2, hpost.2⟩⟩
  · intro past t ht hagrees hpre _
    exact agrees_of_step (registry_step ht) hagrees fun a ha =>
      count_ne_zero_of_revoke (registry_step ht) hagrees hpre.1 ha

/-- One registration inside a session leaves one registered attestor and a counter of zero. -/
theorem uncounted_after_session_registration :
    ¬ ∀ js, js <+: [Demo.deploy, Demo.openSession, Demo.sessionRegister Demo.alice 1] →
        CountedWithinCap (history Demo.host js) (run Demo.host js) := by
  intro h
  have hlast := (h _ List.prefix_rfl).1
  revert hlast
  unfold RegistryStore.Counted
  decide

end AnchorKit
