import AnchorKit.AuditRetention
import AnchorKit.SessionInvariants

/-!
# The audit log under retention

The contract's calls together with those that read, count and prune the audit log. Outside an
explicit prune an entry may only go when it has outlived the retention period. Asking for the
count takes no retention period for one of no length.
-/

namespace AnchorKit

open Fallible
open Numbered (Below)

inductive AuditCall
  | contract (c : Call)
  | getAuditLog (logId : UInt64)
  | getAuditLogsPaginated (offset limit : UInt64)
  | getSessionLogsPaginated (sessionId offset limit : UInt64)
  | getAuditLogCount
  | pruneAuditLogs (beforeTimestamp : UInt64)

def AuditCall.reads : AuditCall → Bool
  | .getAuditLog _ | .getAuditLogsPaginated _ _ | .getSessionLogsPaginated _ _ _ => true
  | .contract _ | .getAuditLogCount | .pruneAuditLogs _ => false

def AuditCall.prunes : AuditCall → Bool
  | .pruneAuditLogs _ => true
  | _ => false

abbrev AuditInput := Env × AuditCall

abbrev AuditTransition := Machine.Transition Storage AuditInput

def auditStep (host : Host) (s : Storage) : AuditInput → Except Panic Storage
  | (env, .contract c) => invoke host env s c
  | (_, .getAuditLog logId) => (fun _ => s) <$> getAuditLog s logId
  | (_, .getAuditLogsPaginated _ _) | (_, .getSessionLogsPaginated _ _ _) => .ok s
  | (env, .getAuditLogCount) => Prod.fst <$> getAuditLogCount env s
  | (env, .pruneAuditLogs before) => Prod.fst <$> pruneAuditLogs env s before

def auditRun (host : Host) (is : List AuditInput) : Storage :=
  Machine.run (auditStep host) Storage.empty is

def auditHistory (host : Host) (is : List AuditInput) : List AuditTransition :=
  Machine.transitions (auditStep host) Storage.empty is

def AuditLog.OutlivesRetention (entry : AuditLog) (env : Env) (s : Storage) : Prop :=
  s.auditRetention.retentionDays ≠ 0 ∧
    entry.operation.timestamp.toNat + s.auditRetention.retentionDays.toNat * 86400 <
      env.timestamp.toNat

/-- A transition that drops or alters entries only by an explicit prune or by their age. -/
def KeepsAuditLog (t : AuditTransition) : Prop :=
  t.input.2.prunes = false →
    ∀ id entry, t.pre.sessions.audit.get id = some entry →
      t.post.sessions.audit.get id = some entry ∨ entry.OutlivesRetention t.input.1 t.pre

/-- The count of a log beyond the threshold is asked for while no retention period is set, and the
entries that would be swept are not all from this very second. -/
structure PrunesUnlimited (t : AuditTransition) : Prop where
  counts : t.input.2 = .getAuditLogCount
  unlimited : t.pre.auditRetention.retentionDays = 0
  outgrown : PrunesOnCount t.pre
  swept : ∃ id entry, id < t.pre.sessions.auditCount ∧ id < 100 ∧
    t.pre.sessions.audit.get id = some entry ∧ entry.operation.timestamp < t.input.1.timestamp

inductive AuditStep (env : Env) (s : Storage) : AuditCall → SessionStore → Prop
  | contract {c : Call} {st' : SessionStore} (h : SessionStep env s.sessions c st') :
      AuditStep env s (.contract c) st'
  | read {c : AuditCall} (hreads : c.reads = true) : AuditStep env s c s.sessions
  | counted {audit : KeyedStore UInt64 AuditLog}
      (hkept : ∀ id entry, audit.get id = some entry ↔
        s.sessions.audit.get id = some entry ∧ SparedOnCount env s id entry) :
      AuditStep env s .getAuditLogCount { s.sessions with audit := audit }
  | pruned {before : UInt64} {audit : KeyedStore UInt64 AuditLog}
      (hold : ∀ id entry, audit.get id = some entry → s.sessions.audit.get id = some entry) :
      AuditStep env s (.pruneAuditLogs before) { s.sessions with audit := audit }

theorem audit_step {host : Host} {s s' : Storage} {i : AuditInput}
    (h : auditStep host s i = .ok s') : AuditStep i.1 s i.2 s'.sessions := by
  obtain ⟨env, c⟩ := i
  cases c with
  | contract c => exact .contract (session_step (i := (env, c)) h)
  | getAuditLog logId =>
    obtain ⟨_, _, rfl⟩ := map_eq_ok.mp h
    exact .read rfl
  | getAuditLogsPaginated offset limit =>
    cases h
    exact .read rfl
  | getSessionLogsPaginated sessionId offset limit =>
    cases h
    exact .read rfl
  | getAuditLogCount =>
    obtain ⟨_, h⟩ := fst_map_eq_ok.mp h
    obtain ⟨_, audit, _, rfl, hkept⟩ := getAuditLogCount_effects h
    exact .counted hkept
  | pruneAuditLogs before =>
    obtain ⟨_, h⟩ := fst_map_eq_ok.mp h
    obtain ⟨audit, rfl, hold⟩ := pruneAuditLogs_effects h
    exact .pruned hold

/-- A call of the contract proper adds entries at the counter, and does nothing else to the log. -/
theorem audit_of_sessionStep {env : Env} {st st' : SessionStore} {c : Call}
    (h : SessionStep env st c st') (hbelow : Below st.audit st.auditCount) :
    Below st'.audit st'.auditCount ∧
      ∀ id entry, st.audit.get id = some entry → st'.audit.get id = some entry := by
  cases h with
  | frame | create | close => exact ⟨hbelow, fun _ _ hget => hget⟩
  | operate hc hop =>
    obtain ⟨session, nonce, opCount, auditCount, request, entry, _, _, _, _, haudit, hid, _, _, _,
      rfl⟩ := hop.logged
    have hset : (st.logOperation session nonce opCount auditCount request entry).audit =
        st.audit.set st.auditCount entry := by
      rw [← hid]
      rfl
    rw [hset]
    exact ⟨hbelow.set_next haudit entry, fun id old hget => hbelow.get_set_of_get hget entry⟩

section Steps

variable {env : Env} {s : Storage} {c : AuditCall} {st' : SessionStore}

theorem AuditStep.below (h : AuditStep env s c st')
    (hbelow : Below s.sessions.audit s.sessions.auditCount) : Below st'.audit st'.auditCount := by
  cases h with
  | contract h => exact (audit_of_sessionStep h hbelow).1
  | read => exact hbelow
  | counted hkept => exact fun id entry hget => hbelow id entry ((hkept id entry).mp hget).1
  | pruned hold => exact fun id entry hget => hbelow id entry (hold id entry hget)

/-- What a call that neither prunes nor counts does to the entries. -/
theorem AuditStep.keeps (h : AuditStep env s c st')
    (hbelow : Below s.sessions.audit s.sessions.auditCount)
    (hprune : c.prunes = false) (hcount : c ≠ .getAuditLogCount) (id : UInt64) (entry : AuditLog)
    (hget : s.sessions.audit.get id = some entry) :
    st'.audit.get id = some entry := by
  cases h with
  | contract h => exact (audit_of_sessionStep h hbelow).2 id entry hget
  | read => exact hget
  | counted => exact absurd rfl hcount
  | pruned => cases hprune

end Steps

/-- Asking for the count drops exactly the scanned entries that are past the period, so that it
breaks the rule exactly when there is no period. -/
theorem keepsAuditLog_iff_of_count {t : AuditTransition} (hc : t.input.2 = .getAuditLogCount)
    (h : AuditStep t.input.1 t.pre .getAuditLogCount t.post.sessions) :
    KeepsAuditLog t ↔ ¬ PrunesUnlimited t := by
  generalize hpost : t.post.sessions = st' at h
  cases h with
  | read hreads => cases hreads
  | counted hkept =>
    constructor
    · rintro hkeeps ⟨_, hunlimited, houtgrown, id, entry, hcount, hhundred, hget, hold⟩
      rcases hkeeps (by rw [hc]; rfl) id entry hget with hstill | ⟨hlimited, _⟩
      · rw [hpost, hkept, SparedOnCount, hunlimited] at hstill
        have hrecent := hstill.2 ⟨houtgrown, hcount, hhundred⟩
        rw [UInt64.lt_iff_toNat_lt] at hold
        change _ ≤ _ + 0 * 86400 at hrecent
        omega
      · exact hlimited hunlimited
    · intro hnot _ id entry hget
      rw [hpost, hkept]
      by_cases hscanned : PrunesOnCount t.pre ∧ id < t.pre.sessions.auditCount ∧ id < 100
      · by_cases hover : entry.operation.timestamp.toNat +
            t.pre.auditRetention.retentionDays.toNat * 86400 < t.input.1.timestamp.toNat
        · refine Or.inr ⟨fun hunlimited => hnot ?_, hover⟩
          refine ⟨hc, hunlimited, hscanned.1, id, entry, hscanned.2.1, hscanned.2.2, hget, ?_⟩
          rw [UInt64.lt_iff_toNat_lt]
          omega
        · exact Or.inl ⟨hget, fun _ => Nat.not_lt.mp hover⟩
      · exact Or.inl ⟨hget, fun hscan => absurd hscan hscanned⟩

theorem keepsAuditLog_iff_of_step {host : Host} {t : AuditTransition}
    (ht : auditStep host t.pre t.input = .ok t.post)
    (hbelow : Below t.pre.sessions.audit t.pre.sessions.auditCount) :
    KeepsAuditLog t ↔ ¬ PrunesUnlimited t := by
  have hstep := audit_step ht
  by_cases hc : t.input.2 = .getAuditLogCount
  · rw [hc] at hstep
    exact keepsAuditLog_iff_of_count hc hstep
  · refine iff_of_true ?_ fun hprunes => hc hprunes.counts
    intro hprune id entry hget
    exact Or.inl (hstep.keeps hbelow hprune hc id entry hget)

theorem below_auditRun (host : Host) (is : List AuditInput) :
    Below (auditRun host is).sessions.audit (auditRun host is).sessions.auditCount :=
  Machine.invariant (auditStep host) (fun s => Below s.sessions.audit s.sessions.auditCount)
    Numbered.below_empty
    (fun _ _ _ h hbelow => (audit_step h).below hbelow) is

/-- In every run of the calls, prunes and readers, all entries stay but those explicitly pruned and
those older than the retention period, exactly when no count is asked for that sweeps the log of
a contract without a retention period. -/
theorem keepsAuditLog_iff (host : Host) (is : List AuditInput) :
    (∀ t ∈ auditHistory host is, KeepsAuditLog t) ↔
      ∀ t ∈ auditHistory host is, ¬ PrunesUnlimited t := by
  refine forall₂_congr fun t ht => ?_
  obtain ⟨js, _, _, hpre⟩ := Machine.exists_prefix_of_mem_transitions _ ht
  exact keepsAuditLog_iff_of_step (Machine.step_of_mem_transitions _ ht)
    (hpre ▸ below_auditRun host js)

namespace Demo

/-- One session operation, a threshold of one entry, and a count in the next second. -/
def countedUnlimited : List AuditInput :=
  [deploy, openSession, sessionRegister alice 7, sessionRegister bob 8,
    onLedger 2 (.setAutoPruneThreshold 1)].map (fun i => (i.1, .contract i.2)) ++
    [(⟨1001, 3, []⟩, .getAuditLogCount)]

end Demo

/-- Without a retention period, asking for the count empties the log. -/
theorem unlimited_log_pruned_by_count :
    ¬ ∀ t ∈ auditHistory Demo.host Demo.countedUnlimited, KeepsAuditLog t := by
  intro h
  have hdropped : ∃ t ∈ auditHistory Demo.host Demo.countedUnlimited, t.input.2.prunes = false ∧
      t.pre.auditRetention.retentionDays = 0 ∧ t.pre.sessions.audit.has 0 = true ∧
      t.post.sessions.audit.has 0 = false := by decide
  obtain ⟨t, ht, hcall, hunlimited, hbefore, hafter⟩ := hdropped
  obtain ⟨entry, hget⟩ := KeyedStore.has_iff.mp hbefore
  rcases h t ht hcall 0 entry hget with hstill | ⟨hlimited, _⟩
  · rw [KeyedStore.has_iff.mpr ⟨entry, hstill⟩] at hafter
    cases hafter
  · exact hlimited hunlimited

end AnchorKit
