import AnchorKit.AttestationInvariants
import AnchorKit.Library.NumberedWindow

/-!
# The replay metrics

A replayed submission is counted and then aborted, which takes the count back; a batch counts
neither what it accepts nor what it rejects. The metrics are exact in the runs where neither
happens.
-/

namespace AnchorKit

open Fallible
open ReplayDetection (getReplayMetrics recordAcceptedEvent)

def Call.submitsOne : Call → Bool
  | .submitAttestation _ | .submitAttestationKycCheck _ _ | .submitWithRequestId _ _
  | .submitAttestationWithSession _ _ => true
  | _ => false

def Call.batchSize : Call → ℕ
  | .submitAttestationBatch _ inputs => inputs.length
  | _ => 0

/-- A submission, by whatever path, that was rejected as a replay. -/
def RejectedAsReplay (failure : Input × Panic) : Prop :=
  failure.1.2.inputs.isEmpty = false ∧ failure.2 = .withError .replayAttack

instance : DecidablePred RejectedAsReplay := fun _ => inferInstanceAs (Decidable (_ ∧ _))

def reverted (host : Host) (is : List Input) : List (Input × Panic) :=
  Machine.failures (step host) Storage.empty is

/-- The metrics say how many submissions were rejected as replays and how many attestations are
stored. -/
structure ReplayMetricsExact (host : Host) (is : List Input) : Prop where
  attempts : (getReplayMetrics (run host is)).totalReplayAttempts.toNat =
    (reverted host is).countP RejectedAsReplay
  accepted : (getReplayMetrics (run host is)).acceptedEvents.toNat =
    (run host is).attestations.record.size

/-- Every single submission counts itself, and nothing else touches the metrics. -/
theorem replay_step {host : Host} {s s' : Storage} {i : Input} (h : step host s i = .ok s') :
    s'.replay = if i.2.submitsOne then (recordAcceptedEvent i.1 s).replay else s.replay := by
  obtain ⟨env, c⟩ := i
  change invoke host env s c = .ok s' at h
  by_cases hc : .replay ∈ c.touches
  · cases c with
    | submitAttestation input =>
      obtain ⟨_, h⟩ := fst_map_eq_ok.mp h
      obtain ⟨_, _, _, _, _, rfl⟩ := submitAttestation_effects h
      rfl
    | submitAttestationKycCheck input requireKyc =>
      obtain ⟨_, h⟩ := fst_map_eq_ok.mp h
      obtain ⟨_, _, _, _, _, rfl⟩ := submitAttestationKycCheck_effects h
      rfl
    | submitWithRequestId requestId input =>
      obtain ⟨_, h⟩ := fst_map_eq_ok.mp h
      obtain ⟨_, _, _, _, _, _, rfl⟩ := submitWithRequestId_effects h
      rfl
    | submitAttestationWithSession sessionId input =>
      obtain ⟨_, h⟩ := fst_map_eq_ok.mp h
      obtain ⟨_, _, _, _, _, _, _, _, _, rfl⟩ := submitAttestationWithSession_effects h
      rfl
    | _ => exact absurd hc (by simp [Call.touches])
  · rw [(invoke_sameOutside h).replay_eq hc]
    cases c <;> first
      | rfl
      | exact absurd (by simp [Call.touches]) hc

theorem Call.length_inputs (c : Call) :
    c.inputs.length = (if c.submitsOne then 1 else 0) + c.batchSize := by
  cases c with
  | submitAttestationBatch caller inputs => exact (Nat.zero_add _).symm
  | _ => rfl

def batched (past : List Transition) : ℕ := (past.map fun t => t.input.2.batchSize).sum

/-- No attempt is on record, and what was accepted is on record up to the batches. -/
structure MetricsTraced (past : List Transition) (s : Storage) : Prop where
  attempts : (getReplayMetrics s).totalReplayAttempts = 0
  accepted : (getReplayMetrics s).acceptedEvents.toNat + batched past =
    s.attestations.counter.toNat

theorem batched_snoc (past : List Transition) (t : Transition) :
    batched (past ++ [t]) = batched past + t.input.2.batchSize := by
  simp [batched]

theorem batched_eq_zero_iff {past : List Transition} :
    batched past = 0 ↔ ∀ t ∈ past, t.input.2.batchSize = 0 := by
  induction past with
  | nil => simp [batched]
  | cons t past ih =>
    rw [List.forall_mem_cons, ← ih]
    exact Nat.add_eq_zero_iff

theorem metricsTraced_of_step {host : Host} {past : List Transition} {t : Transition}
    (ht : step host t.pre t.input = .ok t.post) (hpre : MetricsTraced past t.pre) :
    MetricsTraced (past ++ [t]) t.post := by
  have hstored := attestations_step ht
  have hcounter : t.post.attestations.counter.toNat =
      t.pre.attestations.counter.toNat + t.input.2.inputs.length := by
    rw [hstored.stored]
    exact counter_acceptAll_toNat hstored.room
  have hlength := Call.length_inputs t.input.2
  have hroom := hstored.room
  have hreplay := replay_step ht
  have haccepted := hpre.accepted
  by_cases hone : t.input.2.submitsOne = true
  · rw [if_pos hone] at hreplay hlength
    have hmetrics : getReplayMetrics t.post = { getReplayMetrics t.pre with
        acceptedEvents := Word.saturatingAdd64 (getReplayMetrics t.pre).acceptedEvents 1
        lastUpdatedLedger := t.input.1.sequence } := by
      rw [getReplayMetrics, hreplay]
      rfl
    refine ⟨by rw [hmetrics]; exact hpre.attempts, ?_⟩
    have hadd := Word.toNat_saturatingAdd64 (getReplayMetrics t.pre).acceptedEvents 1
    change _ = min (_ + 1) _ at hadd
    rw [hmetrics, batched_snoc, hcounter]
    dsimp only
    omega
  · rw [if_neg hone] at hreplay hlength
    have hmetrics : getReplayMetrics t.post = getReplayMetrics t.pre := by
      rw [getReplayMetrics, hreplay]
      rfl
    refine ⟨by rw [hmetrics]; exact hpre.attempts, ?_⟩
    rw [hmetrics, batched_snoc, hcounter]
    omega

theorem metricsTraced_run (host : Host) (is : List Input) :
    MetricsTraced (history host is) (run host is) :=
  Machine.history_invariant (step host) MetricsTraced (fun _ => True) ⟨rfl, rfl⟩
    (fun _ _ ht hpre _ => metricsTraced_of_step ht hpre) is (fun _ _ => trivial)

/-- The metrics are exact after a run exactly when the run rejects no submission as a replay and
stores no batch. -/
theorem replayMetricsExact_iff (host : Host) (is : List Input) :
    ReplayMetricsExact host is ↔
      (∀ failure ∈ reverted host is, ¬ RejectedAsReplay failure) ∧
        ∀ t ∈ history host is, t.input.2.batchSize = 0 := by
  have htraced := metricsTraced_run host is
  have hsize : (run host is).attestations.record.size = (run host is).attestations.counter.toNat :=
    (wellNumbered_run host is).dense.size_eq
  have haccepted := htraced.accepted
  have hnone : (reverted host is).countP RejectedAsReplay = 0 ↔
      ∀ failure ∈ reverted host is, ¬ RejectedAsReplay failure := by
    simp [List.countP_eq_zero]
  rw [← hnone, ← batched_eq_zero_iff]
  constructor
  · rintro ⟨hattempts, hstored⟩
    rw [htraced.attempts] at hattempts
    exact ⟨hattempts.symm, by omega⟩
  · rintro ⟨hreplays, hbatched⟩
    refine ⟨?_, by omega⟩
    rw [htraced.attempts, hreplays]
    rfl

namespace Demo

def replayed : List Input :=
  [deploy, openSession, sessionRegister alice 7, onLedger 2 (.submitAttestation (attestation alice 7 1)),
    onLedger 3 (.submitAttestation (attestation alice 7 1))]

end Demo

/-- A rejected replay leaves no trace in the metrics. -/
theorem uncounted_replay : ¬ ReplayMetricsExact Demo.host Demo.replayed := by
  intro h
  have hcount : (getReplayMetrics (run Demo.host Demo.replayed)).totalReplayAttempts.toNat = 0 ∧
      (reverted Demo.host Demo.replayed).countP RejectedAsReplay = 1 := by decide
  have hexact := h.attempts
  omega

end AnchorKit
