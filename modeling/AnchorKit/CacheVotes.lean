import AnchorKit.Contract
import AnchorKit.CacheProposals
import AnchorKit.Library.Ballots
import AnchorKit.Library.Numbered

/-!
# The vote on cache invalidations

Proposals to drop cache entries are ballots among the registered attestors. The contract's calls
are steps of the vote, so that what holds of ballots holds of proposals along every run.
-/

namespace AnchorKit

open Fallible
open Numbered (Dense)

def proposalView : Ballots.View Address CacheInvalidationProposal where
  voters := CacheInvalidationProposal.endorsements
  decided := CacheInvalidationProposal.executed

/-- Who may vote, on what, and how many are enough, in a call made in this state. -/
def proposalRules (env : Env) (s : Storage) : Ballots.Rules Address CacheInvalidationProposal where
  eligible a := a ∈ env.authorized ∧ s.registry.attestor.has a = true
  live proposal := CacheGovernance.isExpired env proposal = false
  quorum := (CacheGovernance.getConfig s).quorumThreshold.toNat

def Call.ballotEvent (s : Storage) : Call → Ballots.Event UInt64 Address
  | .proposeCacheInvalidation caller _ => .opened s.governance.proposalCount caller
  | .endorseCacheInvalidation caller proposalId => .voted proposalId caller
  | .executeCacheInvalidation proposalId => .decided proposalId
  | _ => .other

theorem Call.ballotEvent_of_frame {c : Call} {s : Storage} (hc : .governance ∉ c.touches) :
    c.ballotEvent s = .other := by
  cases c <;> first
    | rfl
    | exact absurd (by simp [Call.touches]) hc

/-- Every committed call is a step of the vote, and the proposals stay numbered by their counter. -/
theorem governance_step {host : Host} {s s' : Storage} {i : Input} (h : step host s i = .ok s')
    (hdense : Dense s.governance.proposal s.governance.proposalCount) :
    Ballots.Step proposalView (proposalRules i.1 s) s.governance.proposal (i.2.ballotEvent s)
        s'.governance.proposal ∧
      Dense s'.governance.proposal s'.governance.proposalCount := by
  obtain ⟨env, c⟩ := i
  change invoke host env s c = .ok s' at h
  by_cases hc : .governance ∈ c.touches
  · cases c with
    | proposeCacheInvalidation caller anchor =>
      obtain ⟨_, h⟩ := fst_map_eq_ok.mp h
      obtain ⟨hsigned, hregistered, next, hnext, rfl⟩ := proposeCacheInvalidation_effects h
      exact ⟨.opened hdense.get_next ⟨hsigned, hregistered⟩ rfl rfl,
        hdense.set_next hnext.symm _⟩
    | endorseCacheInvalidation caller proposalId =>
      obtain ⟨hsigned, hregistered, proposal, hopen, hsame⟩ := endorseCacheInvalidation_effects h
      rcases hsame with rfl | ⟨hnew, rfl⟩
      · exact ⟨.repeated, hdense⟩
      · exact ⟨.voted hopen.filed hopen.live hopen.pending ⟨hsigned, hregistered⟩ hnew rfl
          hopen.pending, hdense.set_of_get hopen.filed _⟩
    | executeCacheInvalidation proposalId =>
      obtain ⟨proposal, hopen, hquorum, _, rfl⟩ := executeCacheInvalidation_effects h
      exact ⟨.decided hopen.filed hopen.live hopen.pending hquorum rfl rfl,
        hdense.set_of_get hopen.filed _⟩
    | setCacheQuorumThreshold n =>
      obtain ⟨_, _, rfl⟩ := setCacheQuorumThreshold_effects h
      exact ⟨.other, hdense⟩
    | setCacheProposalExpiry ledgers =>
      obtain ⟨_, rfl⟩ := setCacheProposalExpiry_effects h
      exact ⟨.other, hdense⟩
    | _ => exact absurd hc (by simp [Call.touches])
  · rw [(invoke_sameOutside h).governance_eq hc, Call.ballotEvent_of_frame hc]
    exact ⟨.other, hdense⟩

/-- An endorsement: a call that votes for the proposal, signed by a registered attestor. -/
structure Transition.Endorses (t : Transition) (proposalId : UInt64) (a : Address) : Prop where
  call : t.input.2 = .endorseCacheInvalidation a proposalId ∨
    (∃ anchor, t.input.2 = .proposeCacheInvalidation a anchor) ∧
      t.pre.governance.proposalCount = proposalId
  signed : a ∈ t.input.1.authorized
  registered : t.pre.registry.attestor.has a = true

structure ProposalsTraced (past : List Transition) (s : Storage) : Prop where
  numbered : Dense s.governance.proposal s.governance.proposalCount
  counted_once : ∀ id proposal, s.governance.proposal.get id = some proposal →
    proposal.endorsements.Nodup
  endorsed : ∀ id proposal, s.governance.proposal.get id = some proposal →
    ∀ a ∈ proposal.endorsements, ∃ t ∈ past, t.Endorses id a
  executed : ∀ id, (∃ t ∈ past, t.input.2 = .executeCacheInvalidation id) →
    ∃ proposal, s.governance.proposal.get id = some proposal ∧ proposal.executed = true

theorem endorses_of_ballotEvent {t : Transition} {id : UInt64} {a : Address}
    (hrules : (proposalRules t.input.1 t.pre).eligible a)
    (hevent : t.input.2.ballotEvent t.pre = .opened id a ∨
      t.input.2.ballotEvent t.pre = .voted id a) : t.Endorses id a := by
  refine ⟨?_, hrules.1, hrules.2⟩
  rcases hevent with hevent | hevent
  · cases hc : t.input.2 <;> simp only [hc, Call.ballotEvent] at hevent <;> cases hevent
    exact Or.inr ⟨⟨_, rfl⟩, rfl⟩
  · cases hc : t.input.2 <;> simp only [hc, Call.ballotEvent] at hevent <;> cases hevent
    exact Or.inl rfl

theorem proposalsTraced_of_step {host : Host} {past : List Transition} {t : Transition}
    (ht : step host t.pre t.input = .ok t.post) (hpre : ProposalsTraced past t.pre) :
    ProposalsTraced (past ++ [t]) t.post := by
  obtain ⟨hstep, hnumbered⟩ := governance_step ht hpre.numbered
  refine ⟨hnumbered, hstep.countedOnce hpre.counted_once, ?_, ?_⟩
  · intro id proposal hget a ha
    rcases hstep.voter_origin hget ha with ⟨old, hold, hmem⟩ | ⟨heligible, hevent⟩
    · obtain ⟨u, hu, hendorses⟩ := hpre.endorsed id old hold a hmem
      exact ⟨u, List.mem_append_left _ hu, hendorses⟩
    · exact ⟨t, by simp, endorses_of_ballotEvent heligible hevent⟩
  · rintro id ⟨u, hu, hcall⟩
    rcases Machine.mem_snoc.mp hu with hu | rfl
    · obtain ⟨proposal, hget, hdone⟩ := hpre.executed id ⟨u, hu, hcall⟩
      exact ⟨proposal, hstep.get_of_settled hget (.inl hdone), hdone⟩
    · rw [hcall] at hstep
      obtain ⟨_, proposal, _, _, _, _, hget, hdone⟩ := hstep.of_decided
      exact ⟨proposal, hget, hdone⟩

theorem proposalsTraced_run (host : Host) (is : List Input) :
    ProposalsTraced (history host is) (run host is) := by
  have hempty : ProposalsTraced [] .empty := by
    refine ⟨Numbered.dense_empty, ?_, ?_, ?_⟩
    · intro id proposal hget
      cases hget
    · intro id proposal hget
      cases hget
    · rintro id ⟨t, ht, _⟩
      cases ht
  exact Machine.history_invariant (step host) ProposalsTraced (fun _ => True) hempty
    (fun _ _ ht hpre _ => proposalsTraced_of_step ht hpre) is (fun _ _ => trivial)

/-- An execution of a proposal that was open, endorsed by a quorum of different addresses, each an
attestor when it endorsed, and not executed before. -/
def ExecutedByQuorum (past : List Transition) (t : Transition) (id : UInt64) : Prop :=
  ∃ proposal, OpenProposal t.input.1 t.pre id proposal ∧
    (CacheGovernance.getConfig t.pre).quorumThreshold.toNat ≤ proposal.endorsements.length ∧
    proposal.endorsements.Nodup ∧
    (∀ a ∈ proposal.endorsements, ∃ u ∈ past, u.Endorses id a) ∧
    ∀ u ∈ past, u.input.2 ≠ .executeCacheInvalidation id

/-- The proposal is executed, or has expired by the ledger that the calls start at. -/
def SettledBefore (proposal : CacheInvalidationProposal) (ks : List Input) : Prop :=
  proposal.executed = true ∨
    ∃ env, CacheGovernance.isExpired env proposal = true ∧ ∀ i ∈ ks, env.sequence ≤ i.1.sequence

theorem isExpired_mono {env env' : Env} {proposal : CacheInvalidationProposal}
    (hle : env.sequence ≤ env'.sequence) (h : CacheGovernance.isExpired env proposal = true) :
    CacheGovernance.isExpired env' proposal = true := by
  simp only [CacheGovernance.isExpired, decide_eq_true_eq] at h ⊢
  exact UInt32.le_trans h hle

theorem executedByQuorum_of_step {host : Host} {past : List Transition} {t : Transition}
    {id : UInt64} (ht : step host t.pre t.input = .ok t.post) (hpre : ProposalsTraced past t.pre)
    (hcall : t.input.2 = .executeCacheInvalidation id) : ExecutedByQuorum past t id := by
  obtain ⟨hstep, _⟩ := governance_step ht hpre.numbered
  rw [hcall] at hstep
  obtain ⟨proposal, _, hget, hlive, hpending, hquorum, _⟩ := hstep.of_decided
  change proposal.executed = false at hpending
  refine ⟨proposal, ⟨hget, hlive, hpending⟩, hquorum, hpre.counted_once id proposal hget,
    hpre.endorsed id proposal hget, ?_⟩
  intro u hu hearlier
  obtain ⟨old, hold, hdone⟩ := hpre.executed id ⟨u, hu, hearlier⟩
  obtain rfl := Option.some.inj (hget.symm.trans hold)
  rw [hpending] at hdone
  cases hdone

theorem proposal_of_settled (host : Host) (js ks : List Input) {id : UInt64}
    {proposal : CacheInvalidationProposal}
    (hget : (run host js).governance.proposal.get id = some proposal)
    (hsettled : SettledBefore proposal ks) :
    (run host (js ++ ks)).governance.proposal.get id = some proposal := by
  induction ks using List.reverseRecOn with
  | nil => simpa using hget
  | append_singleton ks i ih =>
    have hearlier : SettledBefore proposal ks := by
      rcases hsettled with hdone | ⟨env, hexpired, hlater⟩
      · exact .inl hdone
      · exact .inr ⟨env, hexpired, fun j hj => hlater j (List.mem_append_left _ hj)⟩
    have hpre := ih hearlier
    rw [← List.append_assoc, run, Machine.run_snoc]
    cases hc : step host (run host (js ++ ks)) i with
    | error e =>
      rw [run] at hc
      rw [Machine.commit_error _ hc]
      exact hpre
    | ok s' =>
      obtain ⟨hstep, _⟩ := governance_step hc (proposalsTraced_run host (js ++ ks)).numbered
      rw [run] at hc
      rw [Machine.commit_ok _ hc]
      refine hstep.get_of_settled hpre ?_
      rcases hsettled with hdone | ⟨env, hexpired, hlater⟩
      · exact Or.inl hdone
      · right
        have hdead := isExpired_mono (hlater i (by simp)) hexpired
        simp [proposalRules, hdead]

/-- In every run a proposal is executed at most once, before it expires and by a quorum of
different addresses that were attestors when they endorsed; no endorser is counted twice; and an
executed or expired proposal never changes. -/
theorem cache_governance (host : Host) (is : List Input) :
    (∀ before t after, history host is = before ++ t :: after → ∀ id,
      t.input.2 = .executeCacheInvalidation id → ExecutedByQuorum before t id) ∧
    (∀ id proposal, (run host is).governance.proposal.get id = some proposal →
      proposal.endorsements.Nodup ∧
        ∀ a ∈ proposal.endorsements, ∃ t ∈ history host is, t.Endorses id a) ∧
    (∀ js ks id proposal, is = js ++ ks →
      (run host js).governance.proposal.get id = some proposal → SettledBefore proposal ks →
        (run host is).governance.proposal.get id = some proposal) := by
  have htraced := proposalsTraced_run host is
  refine ⟨?_, fun id proposal hget => ⟨htraced.counted_once id proposal hget,
    htraced.endorsed id proposal hget⟩, ?_⟩
  · intro before t after hsplit id hcall
    obtain ⟨js, ks, _, hpre, hbefore⟩ := Machine.exists_prefix_of_transitions_eq (step host) hsplit
    have hmem : t ∈ history host is := by
      rw [hsplit]
      exact List.mem_append_right _ List.mem_cons_self
    have htracedPre : ProposalsTraced before t.pre := by
      have hjs := proposalsTraced_run host js
      rwa [history, run, hpre, hbefore] at hjs
    exact executedByQuorum_of_step (Machine.step_of_mem_transitions _ hmem) htracedPre hcall
  · rintro js ks id proposal rfl hget hsettled
    exact proposal_of_settled host js ks hget hsettled

namespace Demo

def jointlyInvalidated : List Input :=
  [deploy, openSession, sessionRegister alice 7, sessionRegister bob 8,
    onLedger 2 (.setCacheQuorumThreshold 2), onLedger 3 (.proposeCacheInvalidation alice admin),
    onLedger 4 (.endorseCacheInvalidation bob 0), onLedger 5 (.executeCacheInvalidation 0)]

end Demo

/-- Two attestors carry a proposal under a quorum of two. -/
example :
    (run Demo.host Demo.jointlyInvalidated).governance.proposal.get 0 =
      some ⟨0, Demo.admin, Demo.alice, [Demo.alice, Demo.bob], 3, 17280, true⟩ := by
  decide

end AnchorKit
