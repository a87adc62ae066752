import AnchorKit.Library.Numbered
import AnchorKit.RegistryInvariants

/-!
# Invariants of the attestation store

Every committed call appends the attestations it carries to the store and does nothing else to
it. Ids are therefore dense and records are never overwritten; whether a payload can be stored
twice for one issuer comes down to what the batch path checks.
-/

namespace AnchorKit

open Numbered (Dense)

def Call.inputs : Call → List AttestationInput
  | .submitAttestation input | .submitAttestationKycCheck input _ | .submitWithRequestId _ input
  | .submitAttestationWithSession _ input => [input]
  | .submitAttestationBatch _ inputs => inputs
  | _ => []

def AttestationInput.claim (input : AttestationInput) : Address × Bytes :=
  (input.issuer, input.payloadHash)

def Attestation.claim (a : Attestation) : Address × Bytes := (a.issuer, a.payloadHash)

/-- What a call has checked about the attestations it carries, and the store it leaves. -/
structure AttestationsStored (host : Host) (keys : KeyedStore Address (BytesN 32))
    (st : AttestationStore) (inputs : List AttestationInput) (st' : AttestationStore) : Prop where
  signed : ∀ input ∈ inputs, SignedBy host keys input.issuer input.payloadHash input.signature
  fresh : ∀ input ∈ inputs, st.used.get input.claim = none
  room : st.counter.toNat + inputs.length < 2 ^ 64
  stored : st' = st.acceptAll inputs

theorem attestationsStored_of_submitted {host : Host} {env : Env} {input : AttestationInput}
    {s s' : Storage} (h : Submitted host env input s s') :
    AttestationsStored host s.registry.publicKey s.attestations [input] s'.attestations where
  signed := by simpa using h.signed
  fresh := by simpa [AttestationInput.claim] using h.fresh
  room := h.room
  stored := h.accepted

theorem Call.inputs_of_frame {c : Call} (hc : .attestations ∉ c.touches) : c.inputs = [] := by
  cases c <;> simp_all [Call.touches, Call.inputs]

/-- Every committed call appends what it carries, all of it signed by its issuer and new. -/
theorem attestations_step {host : Host} {s s' : Storage} {i : Input}
    (h : step host s i = .ok s') :
    AttestationsStored host s.registry.publicKey s.attestations i.2.inputs s'.attestations := by
  obtain ⟨env, c⟩ := i
  change invoke host env s c = .ok s' at h
  by_cases hc : .attestations ∈ c.touches
  · cases c with
    | submitAttestation input =>
      obtain ⟨_, h⟩ := fst_map_eq_ok.mp h
      exact attestationsStored_of_submitted (submitAttestation_effects h).1
    | submitAttestationKycCheck input requireKyc =>
      obtain ⟨_, h⟩ := fst_map_eq_ok.mp h
      exact attestationsStored_of_submitted (submitAttestationKycCheck_effects h).1
    | submitWithRequestId requestId input =>
      obtain ⟨_, h⟩ := fst_map_eq_ok.mp h
      exact attestationsStored_of_submitted (submitWithRequestId_effects h).1
    | submitAttestationWithSession sessionId input =>
      obtain ⟨_, h⟩ := fst_map_eq_ok.mp h
      exact attestationsStored_of_submitted (submitAttestationWithSession_effects h).1
    | submitAttestationBatch caller inputs =>
      obtain ⟨_, h⟩ := fst_map_eq_ok.mp h
      obtain ⟨_, _, hentries, hroom, t, _, rfl⟩ := submitAttestationBatch_effects h
      exact ⟨fun entry he => (hentries entry he).1, fun entry he => (hentries entry he).2.2, hroom,
        rfl⟩
    | _ => exact absurd hc (by simp [Call.touches])
  · have hinputs : (env, c).2.inputs = [] := Call.inputs_of_frame hc
    rw [hinputs, (invoke_sameOutside h).attestations_eq hc]
    exact ⟨by simp, by simp, s.attestations.counter.toNat_lt, rfl⟩

/-- The index lists the ids below the counter in order, each has a record, and the record knows
its id. -/
structure AttestationStore.WellNumbered (st : AttestationStore) : Prop where
  index_eq : st.index = (List.range st.counter.toNat).map UInt64.ofNat
  dense : Dense st.record st.counter
  id_eq : ∀ id a, st.record.get id = some a → a.id = id

namespace AttestationStore

variable {st : AttestationStore} {input : AttestationInput} {inputs : List AttestationInput}

theorem WellNumbered.accept (h : st.WellNumbered) (hroom : st.HasRoom) (input : AttestationInput) :
    (st.accept input).WellNumbered := by
  have hnext := counter_accept_toNat hroom input
  refine ⟨?_, h.dense.set_next hnext _, fun id a hget => ?_⟩
  · rw [hnext, List.range_succ, List.map_append, ← h.index_eq]
    simp [AttestationStore.accept]
  · rcases KeyedStore.get_set_cases hget with ⟨rfl, rfl⟩ | hget
    · rfl
    · exact h.id_eq id a hget

theorem hasRoom_of_cons {x : AttestationInput} {xs : List AttestationInput}
    (h : st.counter.toNat + (x :: xs).length < 2 ^ 64) :
    st.HasRoom ∧ (st.accept x).counter.toNat + xs.length < 2 ^ 64 := by
  rw [List.length_cons] at h
  have hroom : st.HasRoom := by
    unfold HasRoom
    omega
  refine ⟨hroom, ?_⟩
  rw [counter_accept_toNat hroom]
  omega

theorem WellNumbered.acceptAll (h : st.WellNumbered)
    (hroom : st.counter.toNat + inputs.length < 2 ^ 64) : (st.acceptAll inputs).WellNumbered := by
  induction inputs generalizing st with
  | nil => exact h
  | cons x xs ih =>
    obtain ⟨hx, hxs⟩ := hasRoom_of_cons hroom
    exact ih (h.accept hx x) hxs

theorem WellNumbered.get_acceptAll (h : st.WellNumbered)
    (hroom : st.counter.toNat + inputs.length < 2 ^ 64) {id : UInt64} {a : Attestation}
    (hget : st.record.get id = some a) : (st.acceptAll inputs).record.get id = some a := by
  induction inputs generalizing st with
  | nil => exact hget
  | cons x xs ih =>
    obtain ⟨hx, hxs⟩ := hasRoom_of_cons hroom
    exact ih (h.accept hx x) hxs (h.dense.get_set_of_get hget _)

/-- A record that was not there before is one of the appended attestations. -/
theorem get_acceptAll_cases {id : UInt64} {a : Attestation}
    (hget : (st.acceptAll inputs).record.get id = some a) :
    st.record.get id = some a ∨
      ∃ input ∈ inputs, a.issuer = input.issuer ∧ a.payloadHash = input.payloadHash ∧
        a.signature = input.signature := by
  induction inputs generalizing st with
  | nil => exact Or.inl hget
  | cons x xs ih =>
    have hrest : ((st.accept x).acceptAll xs).record.get id = some a := hget
    rcases ih hrest with hold | ⟨input, hmem, heq⟩
    · rcases KeyedStore.get_set_cases hold with ⟨rfl, rfl⟩ | hold
      · exact Or.inr ⟨x, List.mem_cons_self, rfl, rfl, rfl⟩
      · exact Or.inl hold
    · exact Or.inr ⟨input, List.mem_cons_of_mem x hmem, heq⟩

end AttestationStore

theorem wellNumbered_step {host : Host} {s s' : Storage} {i : Input}
    (h : step host s i = .ok s') (hpre : s.attestations.WellNumbered) :
    s'.attestations.WellNumbered := by
  have hstored := attestations_step h
  rw [hstored.stored]
  exact hpre.acceptAll hstored.room

theorem wellNumbered_run (host : Host) (is : List Input) :
    (run host is).attestations.WellNumbered :=
  Machine.invariant (step host) (fun s => s.attestations.WellNumbered) (s := .empty)
    ⟨rfl, Numbered.dense_empty, fun _ _ h => by cases h⟩
    (fun _ _ _ hstep hpre => wellNumbered_step hstep hpre) is

/-- The call that wrote record `a` under `id`, with its issuer registered and its signature valid
under the issuer's key at that moment. -/
def WrittenBy (host : Host) (id : UInt64) (a : Attestation) (t : Transition) : Prop :=
  t.pre.attestations.record.get id = none ∧ t.post.attestations.record.get id = some a ∧
    t.pre.registry.attestor.has a.issuer = true ∧
    SignedBy host t.pre.registry.publicKey a.issuer a.payloadHash a.signature

theorem writtenBy_of_new {host : Host} {t : Transition}
    (ht : step host t.pre t.input = .ok t.post) (hkeyed : t.pre.registry.FlaggedIffKeyed)
    {id : UInt64} {a : Attestation} (hnone : t.pre.attestations.record.get id = none)
    (hget : t.post.attestations.record.get id = some a) : WrittenBy host id a t := by
  have hstored := attestations_step ht
  have hget' := hget
  rw [hstored.stored] at hget'
  rcases AttestationStore.get_acceptAll_cases hget' with hold | ⟨input, hmem, hissuer, hhash, hsig⟩
  · rw [hnone] at hold
    cases hold
  · have hsigned := hstored.signed input hmem
    rw [← hissuer, ← hhash, ← hsig] at hsigned
    obtain ⟨pk, sig, hkey, hrest⟩ := hsigned
    have hflag := (hkeyed a.issuer).mpr (KeyedStore.has_iff.mpr ⟨pk, hkey⟩)
    exact ⟨hnone, hget, hflag, pk, sig, hkey, hrest⟩

theorem record_get_step {host : Host} {s s' : Storage} {i : Input} (h : step host s i = .ok s')
    (hpre : s.attestations.WellNumbered) {id : UInt64} {a : Attestation}
    (hget : s.attestations.record.get id = some a) : s'.attestations.record.get id = some a := by
  have hstored := attestations_step h
  rw [hstored.stored]
  exact hpre.get_acceptAll hstored.room hget

/-- A stored record is still there, unchanged, after any further calls. -/
theorem record_get_run_append (host : Host) (js ks : List Input) {id : UInt64} {a : Attestation}
    (hget : (run host js).attestations.record.get id = some a) :
    (run host (js ++ ks)).attestations.record.get id = some a := by
  unfold run
  rw [Machine.run_append]
  exact (Machine.invariant (step host)
    (fun s => s.attestations.WellNumbered ∧ s.attestations.record.get id = some a)
    ⟨wellNumbered_run host js, hget⟩
    (fun _ _ _ hstep hpre =>
      ⟨wellNumbered_step hstep hpre.1, record_get_step hstep hpre.1 hpre.2⟩) ks).2

theorem record_writtenBy (host : Host) (is : List Input) :
    ∀ id a, (run host is).attestations.record.get id = some a →
      ∃ t ∈ history host is, WrittenBy host id a t := by
  have hall := Machine.history_invariant (step host)
    (fun past s => s.registry.FlaggedIffKeyed ∧ s.attestations.WellNumbered ∧
      ∀ id a, s.attestations.record.get id = some a → ∃ t ∈ past, WrittenBy host id a t)
    (fun _ => True) (s := .empty)
    ⟨flaggedIffKeyed_run host [], wellNumbered_run host [], fun _ _ h => by cases h⟩
    (fun past t ht hpre _ => ?_) is (fun _ _ => trivial)
  · exact hall.2.2
  · obtain ⟨hkeyed, hnumbered, hwritten⟩ := hpre
    refine ⟨flaggedIffKeyed_of_step (registry_step ht) hkeyed, wellNumbered_step ht hnumbered, ?_⟩
    intro id a hget
    cases hold : t.pre.attestations.record.get id with
    | none => exact ⟨t, by simp, writtenBy_of_new ht hkeyed hold hget⟩
    | some b =>
      have hsame := record_get_step ht hnumbered hold
      rw [hget] at hsame
      obtain rfl := Option.some.inj hsame
      obtain ⟨u, hu, hw⟩ := hwritten id a hold
      exact ⟨u, List.mem_append_left _ hu, hw⟩

/-- After every run the index is exactly the ids below the counter in order, every one of them
has a record that carries its id and that no later call overwrites, and each record was written
by a call that found its issuer registered, with a stored key under which its signature verifies. -/
theorem attestations_dense_and_authentic (host : Host) (is : List Input) :
    let st := (run host is).attestations
    st.index = (List.range st.counter.toNat).map UInt64.ofNat ∧
      (∀ id, st.record.has id = true ↔ id < st.counter) ∧
      (∀ id a, st.record.get id = some a → a.id = id) ∧
      (∀ js ks, is = js ++ ks → ∀ id a, (run host js).attestations.record.get id = some a →
        st.record.get id = some a) ∧
      (∀ id a, st.record.get id = some a → ∃ t ∈ history host is, WrittenBy host id a t) := by
  have hnumbered := wellNumbered_run host is
  refine ⟨hnumbered.index_eq, hnumbered.dense, hnumbered.id_eq, ?_, record_writtenBy host is⟩
  rintro js ks rfl id a hget
  exact record_get_run_append host js ks hget

def AttestationStore.UniqueClaims (st : AttestationStore) : Prop :=
  ∀ id id' a a', st.record.get id = some a → st.record.get id' = some a' →
    a.claim = a'.claim → id = id'

def AttestationStore.Marked (st : AttestationStore) : Prop :=
  ∀ id a, st.record.get id = some a → st.used.has a.claim = true

namespace AttestationStore

variable {st : AttestationStore} {input : AttestationInput} {inputs : List AttestationInput}

theorem Marked.accept (h : st.Marked) (input : AttestationInput) : (st.accept input).Marked := by
  intro id a hget
  change (st.used.set input.claim st.counter).has a.claim = true
  rw [KeyedStore.has_set]
  rcases KeyedStore.get_set_cases hget with ⟨-, rfl⟩ | hget
  · exact if_pos rfl
  · by_cases hclaim : a.claim = input.claim
    · rw [if_pos hclaim]
    · rw [if_neg hclaim]
      exact h id a hget

theorem Marked.acceptAll (h : st.Marked) : (st.acceptAll inputs).Marked := by
  induction inputs generalizing st with
  | nil => exact h
  | cons x xs ih => exact ih (h.accept x)

/-- A claim that is not marked belongs to no record. -/
theorem Marked.claim_ne (h : st.Marked) (hfresh : st.used.get input.claim = none) {id : UInt64}
    {a : Attestation} (hget : st.record.get id = some a) : a.claim ≠ input.claim := by
  intro hclaim
  have hused := h id a hget
  rw [hclaim, KeyedStore.has, hfresh] at hused
  cases hused

theorem UniqueClaims.accept (h : st.UniqueClaims) (hmarked : st.Marked)
    (hfresh : st.used.get input.claim = none) : (st.accept input).UniqueClaims := by
  intro id id' a a' hget hget' hclaim
  rcases KeyedStore.get_set_cases hget with ⟨rfl, rfl⟩ | hold
  · rcases KeyedStore.get_set_cases hget' with ⟨rfl, rfl⟩ | hold'
    · rfl
    · exact absurd hclaim.symm (hmarked.claim_ne hfresh hold')
  · rcases KeyedStore.get_set_cases hget' with ⟨rfl, rfl⟩ | hold'
    · exact absurd hclaim (hmarked.claim_ne hfresh hold)
    · exact h id id' a a' hold hold' hclaim

/-- New attestations with pairwise different claims keep the claims unique. -/
theorem UniqueClaims.acceptAll (h : st.UniqueClaims) (hmarked : st.Marked)
    (hfresh : ∀ input ∈ inputs, st.used.get input.claim = none)
    (hnodup : (inputs.map AttestationInput.claim).Nodup) : (st.acceptAll inputs).UniqueClaims := by
  induction inputs generalizing st with
  | nil => exact h
  | cons x xs ih =>
    obtain ⟨hx, hxs⟩ := List.nodup_cons.mp hnodup
    have hfreshx := hfresh x List.mem_cons_self
    refine ih (h.accept hmarked hfreshx) (hmarked.accept x) (fun y hy => ?_) hxs
    have hne : y.claim ≠ x.claim := fun heq => hx (heq ▸ List.mem_map_of_mem hy)
    change (st.used.set x.claim st.counter).get y.claim = none
    rw [KeyedStore.get_set_of_ne _ _ hne]
    exact hfresh y (List.mem_cons_of_mem x hy)

theorem WellNumbered.exists_record (h : st.WellNumbered)
    (hroom : st.counter.toNat + inputs.length < 2 ^ 64) (hmem : input ∈ inputs) :
    ∃ id a, st.counter ≤ id ∧ (st.acceptAll inputs).record.get id = some a ∧
      a.claim = input.claim := by
  induction inputs generalizing st with
  | nil => cases hmem
  | cons x xs ih =>
    obtain ⟨hx, hxs⟩ := hasRoom_of_cons hroom
    rcases List.mem_cons.mp hmem with rfl | hmem
    · have hget : (st.accept input).record.get st.counter = some _ := KeyedStore.get_set_self _ _ _
      exact ⟨st.counter, _, UInt64.le_refl _, (h.accept hx input).get_acceptAll hxs hget, rfl⟩
    · obtain ⟨id, a, hle, hget, hclaim⟩ := ih (h.accept hx x) hxs hmem
      have hnext := counter_accept_toNat hx x
      rw [UInt64.le_iff_toNat_le] at hle
      refine ⟨id, a, ?_, hget, hclaim⟩
      rw [UInt64.le_iff_toNat_le]
      omega

/-- A repeated claim among the appended attestations ends up under two ids. -/
theorem WellNumbered.not_uniqueClaims (h : st.WellNumbered)
    (hroom : st.counter.toNat + inputs.length < 2 ^ 64)
    (hdup : ¬ (inputs.map AttestationInput.claim).Nodup) : ¬ (st.acceptAll inputs).UniqueClaims := by
  induction inputs generalizing st with
  | nil => exact absurd List.nodup_nil hdup
  | cons x xs ih =>
    obtain ⟨hx, hxs⟩ := hasRoom_of_cons hroom
    by_cases hmem : x.claim ∈ xs.map AttestationInput.claim
    · obtain ⟨y, hy, hclaim⟩ := List.mem_map.mp hmem
      obtain ⟨id, a, hle, hget, ha⟩ := (h.accept hx x).exists_record hxs hy
      have hfirst : (st.accept x).record.get st.counter = some _ := KeyedStore.get_set_self _ _ _
      have hkept := (h.accept hx x).get_acceptAll hxs hfirst
      intro hunique
      have hsame : st.counter = id :=
        hunique st.counter id _ a hkept hget (hclaim.symm.trans ha.symm)
      have hnext := counter_accept_toNat hx x
      rw [UInt64.le_iff_toNat_le, ← hsame] at hle
      omega
    · apply ih (h.accept hx x) hxs
      intro hnodup
      exact hdup (List.nodup_cons.mpr ⟨hmem, hnodup⟩)

end AttestationStore

/-- After every call of a run each issuer and payload has at most one attestation, exactly when
no committed batch repeats an issuer and payload. -/
theorem attestations_unique_iff (host : Host) (is : List Input) :
    (∀ js, js <+: is → (run host js).attestations.UniqueClaims) ↔
      ∀ t ∈ history host is, (t.input.2.inputs.map AttestationInput.claim).Nodup := by
  refine Machine.forall_prefix_invariant_iff (step host) (fun _ s => s.attestations.UniqueClaims)
    (fun _ s => s.attestations.WellNumbered ∧ s.attestations.Marked)
    (fun t => (t.input.2.inputs.map AttestationInput.claim).Nodup) (s := .empty)
    (fun _ _ _ _ h => by cases h) ⟨wellNumbered_run host [], fun _ _ h => by cases h⟩ ?_ ?_ is
  · intro past t ht haux hpre
    have hstored := attestations_step ht
    constructor
    · intro hpost
      by_contra hdup
      rw [hstored.stored] at hpost
      exact haux.1.not_uniqueClaims hstored.room hdup hpost
    · intro hnodup
      rw [hstored.stored]
      exact hpre.acceptAll haux.2 hstored.fresh hnodup
  · intro past t ht haux _ _
    refine ⟨wellNumbered_step ht haux.1, ?_⟩
    rw [(attestations_step ht).stored]
    exact haux.2.acceptAll

/-- A batch that repeats an entry stores it twice. -/
theorem duplicate_within_batch :
    ¬ ∀ js, js <+: [Demo.deploy, Demo.openSession, Demo.sessionRegister Demo.alice 1,
        Demo.onLedger 1 (.submitAttestationBatch Demo.alice
          [Demo.attestation Demo.alice 1 7, Demo.attestation Demo.alice 1 7])] →
      (run Demo.host js).attestations.UniqueClaims := by
  intro h
  have hsame := h _ List.prefix_rfl 0 1 (Demo.attestationRecord 0 Demo.alice 1 7)
    (Demo.attestationRecord 1 Demo.alice 1 7) (by decide) (by decide) (by decide)
  exact absurd hsame (by decide)

end AnchorKit
