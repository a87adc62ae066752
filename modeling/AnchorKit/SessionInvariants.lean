import AnchorKit.Contract
import AnchorKit.Library.Numbered

/-!
# Invariants of sessions

Each committed session operation counts itself, takes the next audit id and fills the next log
slot of its session. The invariant ties these to the history of the run: the nonce of a session
counts its attestations, and an open session has not been closed.
-/

namespace AnchorKit

open Numbered (Dense)

def Call.operatesIn : Call → Option UInt64
  | .registerAttestorWithSession _ sessionId _ _ | .revokeAttestorWithSession _ sessionId _
  | .submitAttestationWithSession sessionId _ => some sessionId
  | _ => none

def Call.attestsIn : Call → Option UInt64
  | .submitAttestationWithSession sessionId _ => some sessionId
  | _ => none

def Call.closes : Call → Option UInt64
  | .closeSession sessionId _ => some sessionId
  | _ => none

inductive SessionStep (env : Env) (st : SessionStore) : Call → SessionStore → Prop
  | frame {c : Call} (hc : .sessions ∉ c.touches) : SessionStep env st c st
  | create {initiator : Address} {sessionCount : UInt64}
      (hcount : sessionCount.toNat = st.sessionCount.toNat + 1) :
      SessionStep env st (.createSession initiator)
        { st with
          sessionCount := sessionCount
          session := st.session.set st.sessionCount
            { sessionId := st.sessionCount, initiator, createdAt := env.timestamp, nonce := 0,
              operationCount := 0, sessionTtlSeconds := defaultSessionTtl, closed := false,
              state := SessionState.created.toU32 } }
  | close {initiator : Address} {sessionId : UInt64} {session : Session}
      (hsession : st.session.get sessionId = some session) (hopen : session.Open env.timestamp) :
      SessionStep env st (.closeSession sessionId initiator)
        { st with
          session := st.session.set sessionId
            { session with closed := true, state := SessionState.closed.toU32 } }
  | operate {c : Call} {sessionId : UInt64} {st' : SessionStore}
      (hc : c.operatesIn = some sessionId)
      (hop : SessionOperated env sessionId (c.attestsIn = some sessionId) st st') :
      SessionStep env st c st'

theorem session_step {host : Host} {s s' : Storage} {i : Input} (h : step host s i = .ok s') :
    SessionStep i.1 s.sessions i.2 s'.sessions := by
  obtain ⟨env, c⟩ := i
  change invoke host env s c = .ok s' at h
  by_cases hc : .sessions ∈ c.touches
  · cases c with
    | createSession initiator =>
      obtain ⟨_, h⟩ := fst_map_eq_ok.mp h
      obtain ⟨rfl, _, _, hcount, rfl⟩ := createSession_effects h
      exact .create hcount.symm
    | closeSession sessionId initiator =>
      obtain ⟨_, _, hsession, hopen, rfl⟩ := closeSession_effects h
      exact .close hsession hopen
    | registerAttestorWithSession operator sessionId a pk =>
      exact .operate rfl (registerAttestorWithSession_effects h).2.1
    | revokeAttestorWithSession operator sessionId a =>
      exact .operate rfl (revokeAttestorWithSession_effects h).2.1
    | submitAttestationWithSession sessionId input =>
      obtain ⟨_, h⟩ := fst_map_eq_ok.mp h
      apply SessionStep.operate rfl
      simpa [Call.attestsIn] using (submitAttestationWithSession_effects h).2.1
    | _ => exact absurd hc (by simp [Call.touches])
  · rw [(invoke_sameOutside h).sessions_eq hc]
    exact .frame hc

/-- How many calls of a history `which` assigns to the session. -/
def callCount (which : Call → Option UInt64) (past : List Transition) (sessionId : UInt64) : Nat :=
  past.countP fun t => which t.input.2 = some sessionId

def WasClosed (past : List Transition) (sessionId : UInt64) : Prop :=
  ∃ t ∈ past, t.input.2.closes = some sessionId

def CreatedAt (past : List Transition) (sessionId createdAt : UInt64) : Prop :=
  ∃ t ∈ past, (∃ initiator, t.input.2 = .createSession initiator) ∧
    t.pre.sessions.sessionCount = sessionId ∧ t.input.1.timestamp = createdAt

theorem callCount_snoc (which : Call → Option UInt64) (past : List Transition) (t : Transition)
    (sessionId : UInt64) :
    callCount which (past ++ [t]) sessionId =
      callCount which past sessionId + if which t.input.2 = some sessionId then 1 else 0 := by
  simp [callCount, List.countP_append, List.countP_singleton]

theorem wasClosed_snoc {past : List Transition} {t : Transition} {sessionId : UInt64} :
    WasClosed (past ++ [t]) sessionId ↔
      WasClosed past sessionId ∨ t.input.2.closes = some sessionId := by
  simp [WasClosed, or_and_right, exists_or]

theorem CreatedAt.snoc {past : List Transition} {sessionId createdAt : UInt64}
    (h : CreatedAt past sessionId createdAt) (t : Transition) :
    CreatedAt (past ++ [t]) sessionId createdAt := by
  obtain ⟨u, hu, hrest⟩ := h
  exact ⟨u, List.mem_append_left _ hu, hrest⟩

/-- A log slot that points to the audit entry of its own operation. -/
def SessionStore.SlotFilled (st : SessionStore) (sessionId index : UInt64) : Prop :=
  ∃ logId entry, st.log.get (sessionId, index) = some logId ∧ st.audit.get logId = some entry ∧
    entry.logId = logId ∧ entry.sessionId = sessionId ∧ entry.operation.sessionId = sessionId ∧
    entry.operation.operationIndex = index

/-- What the logs look like at any time: dense numbering, counts within the limit, and exactly
the slots below the count filled. -/
structure SessionStore.LogsConsistent (st : SessionStore) : Prop where
  sessions_dense : Dense st.session st.sessionCount
  audit_dense : Dense st.audit st.auditCount
  count_le : ∀ sessionId, st.opCountOf sessionId ≤ maxOpsPerSession
  filled : ∀ sessionId index, index < st.opCountOf sessionId → st.SlotFilled sessionId index
  slot_lt : ∀ sessionId index logId, st.log.get (sessionId, index) = some logId →
    index < st.opCountOf sessionId

namespace SessionStore

variable {st : SessionStore} {session : Session} {nonce opCount auditCount : UInt64}
  {request : KeyedStore (UInt64 × Bytes) Bool} {entry : AuditLog}

theorem opCountOf_empty (sessionId : UInt64) : Storage.empty.sessions.opCountOf sessionId = 0 := rfl

theorem logsConsistent_empty : Storage.empty.sessions.LogsConsistent where
  sessions_dense := Numbered.dense_empty
  audit_dense := Numbered.dense_empty
  count_le := fun _ => UInt64.zero_le
  filled := fun sessionId index h => by
    rw [opCountOf_empty] at h
    exact absurd h UInt64.not_lt_zero
  slot_lt := fun _ _ _ h => by cases h

theorem opCountOf_logOperation (sessionId : UInt64) :
    (st.logOperation session nonce opCount auditCount request entry).opCountOf sessionId =
      if sessionId = entry.sessionId then opCount else st.opCountOf sessionId := by
  simp only [opCountOf, logOperation, KeyedStore.get_set]
  split
  · rfl
  · rfl

theorem LogsConsistent.slot_free (h : st.LogsConsistent) (sessionId : UInt64) :
    st.log.get (sessionId, st.opCountOf sessionId) = none := by
  cases hget : st.log.get (sessionId, st.opCountOf sessionId) with
  | none => rfl
  | some logId => exact absurd (h.slot_lt _ _ _ hget) (UInt64.lt_irrefl _)

theorem LogsConsistent.log_get_logOperation (h : st.LogsConsistent)
    (hindex : entry.operation.operationIndex = st.opCountOf entry.sessionId)
    {slot : UInt64 × UInt64} {logId : UInt64} (hget : st.log.get slot = some logId) :
    (st.logOperation session nonce opCount auditCount request entry).log.get slot =
      some logId := by
  have hne : slot ≠ (entry.sessionId, entry.operation.operationIndex) := by
    rintro rfl
    rw [hindex, h.slot_free] at hget
    cases hget
  change (st.log.set _ _).get slot = some logId
  rw [KeyedStore.get_set_of_ne _ _ hne, hget]

theorem LogsConsistent.audit_get_logOperation (h : st.LogsConsistent)
    (hid : entry.logId = st.auditCount) {logId : UInt64} {e : AuditLog}
    (hget : st.audit.get logId = some e) :
    (st.logOperation session nonce opCount auditCount request entry).audit.get logId = some e := by
  change (st.audit.set entry.logId entry).get logId = some e
  rw [hid]
  exact h.audit_dense.get_set_of_get hget entry

theorem LogsConsistent.slotFilled_logOperation (h : st.LogsConsistent)
    (hid : entry.logId = st.auditCount)
    (hindex : entry.operation.operationIndex = st.opCountOf entry.sessionId)
    {sessionId index : UInt64} (hfilled : st.SlotFilled sessionId index) :
    (st.logOperation session nonce opCount auditCount request entry).SlotFilled sessionId index := by
  obtain ⟨logId, e, hlog, haudit, hrest⟩ := hfilled
  exact ⟨logId, e, h.log_get_logOperation hindex hlog, h.audit_get_logOperation hid haudit, hrest⟩

theorem slotFilled_logOperation_self (hsid : entry.operation.sessionId = entry.sessionId) :
    (st.logOperation session nonce opCount auditCount request entry).SlotFilled entry.sessionId
      entry.operation.operationIndex :=
  ⟨entry.logId, entry, KeyedStore.get_set_self _ _ _, KeyedStore.get_set_self _ _ _, rfl, rfl,
    hsid, rfl⟩

theorem LogsConsistent.logOperation (h : st.LogsConsistent) {old : Session}
    (hsession : st.session.get entry.sessionId = some old)
    (hlimit : st.opCountOf entry.sessionId < maxOpsPerSession)
    (hop : opCount.toNat = (st.opCountOf entry.sessionId).toNat + 1)
    (haudit : auditCount.toNat = st.auditCount.toNat + 1) (hid : entry.logId = st.auditCount)
    (hsid : entry.operation.sessionId = entry.sessionId)
    (hindex : entry.operation.operationIndex = st.opCountOf entry.sessionId) :
    (st.logOperation session nonce opCount auditCount request entry).LogsConsistent where
  sessions_dense := h.sessions_dense.set_of_get hsession _
  audit_dense := by
    have hdense := h.audit_dense.set_next haudit entry
    rw [← hid] at hdense
    exact hdense
  count_le := by
    intro sessionId
    rw [opCountOf_logOperation]
    split
    · rw [UInt64.lt_iff_toNat_lt] at hlimit
      rw [UInt64.le_iff_toNat_le]
      omega
    · exact h.count_le sessionId
  filled := by
    intro sessionId index hlt
    rw [opCountOf_logOperation] at hlt
    by_cases hself : sessionId = entry.sessionId ∧ index = entry.operation.operationIndex
    · obtain ⟨rfl, rfl⟩ := hself
      exact slotFilled_logOperation_self hsid
    · refine h.slotFilled_logOperation hid hindex (h.filled sessionId index ?_)
      split at hlt
      · rename_i heq
        have hne : index.toNat ≠ (st.opCountOf entry.sessionId).toNat := fun hcount =>
          hself ⟨heq, hindex ▸ UInt64.toNat_inj.mp hcount⟩
        rw [heq]
        rw [UInt64.lt_iff_toNat_lt] at hlt ⊢
        omega
      · exact hlt
  slot_lt := by
    intro sessionId index logId hget
    change (st.log.set _ _).get (sessionId, index) = some logId at hget
    rw [opCountOf_logOperation]
    rw [KeyedStore.get_set] at hget
    split at hget
    · rename_i hslot
      obtain ⟨rfl, rfl⟩ := Prod.mk.inj hslot
      rw [if_pos rfl, hindex, UInt64.lt_iff_toNat_lt]
      omega
    · have hlt := h.slot_lt sessionId index logId hget
      split
      · rename_i heq
        rw [heq] at hlt
        rw [UInt64.lt_iff_toNat_lt] at hlt ⊢
        omega
      · exact hlt

end SessionStore

theorem logsConsistent_of_step {env : Env} {st st' : SessionStore} {c : Call}
    (hstep : SessionStep env st c st') (h : st.LogsConsistent) : st'.LogsConsistent := by
  cases hstep with
  | frame hc => exact h
  | create hcount =>
    exact ⟨h.sessions_dense.set_next hcount _, h.audit_dense, h.count_le, h.filled, h.slot_lt⟩
  | close hsession hopen =>
    exact ⟨h.sessions_dense.set_of_get hsession _, h.audit_dense, h.count_le, h.filled, h.slot_lt⟩
  | operate hc hop =>
    obtain ⟨session, nonce, opCount, auditCount, request, entry, hsession, hopen, hnonce, hcount,
      haudit, hid, rfl, hsid, hindex, rfl⟩ := hop.logged
    exact h.logOperation hsession hop.belowLimit hcount haudit hid hsid hindex

theorem logsConsistent_run (host : Host) (is : List Input) :
    (run host is).sessions.LogsConsistent :=
  Machine.invariant (step host) (fun s => s.sessions.LogsConsistent) (s := .empty)
    SessionStore.logsConsistent_empty
    (fun _ _ _ hstep hpre => logsConsistent_of_step (session_step hstep) hpre) is

/-- Nothing logged in `st` is overwritten in `st'`. -/
structure SessionStore.KeepsLogs (st st' : SessionStore) : Prop where
  slots : ∀ slot logId, st.log.get slot = some logId → st'.log.get slot = some logId
  entries : ∀ logId entry, st.audit.get logId = some entry → st'.audit.get logId = some entry

theorem SessionStore.KeepsLogs.trans {a b c : SessionStore} (hab : a.KeepsLogs b)
    (hbc : b.KeepsLogs c) : a.KeepsLogs c where
  slots := fun slot logId h => hbc.slots slot logId (hab.slots slot logId h)
  entries := fun logId entry h => hbc.entries logId entry (hab.entries logId entry h)

theorem keepsLogs_of_step {env : Env} {st st' : SessionStore} {c : Call}
    (hstep : SessionStep env st c st') (h : st.LogsConsistent) : st.KeepsLogs st' := by
  cases hstep with
  | frame hc => exact ⟨fun _ _ h => h, fun _ _ h => h⟩
  | create hcount => exact ⟨fun _ _ h => h, fun _ _ h => h⟩
  | close hsession hopen => exact ⟨fun _ _ h => h, fun _ _ h => h⟩
  | operate hc hop =>
    obtain ⟨_, _, _, _, _, _, _, _, _, _, _, hid, rfl, _, hindex, rfl⟩ := hop.logged
    exact ⟨fun slot logId => h.log_get_logOperation hindex,
      fun logId entry => h.audit_get_logOperation hid⟩

/-- What is logged at one point of a run is still there, unchanged, at every later point. -/
theorem keepsLogs_run_append (host : Host) (js ks : List Input) :
    (run host js).sessions.KeepsLogs (run host (js ++ ks)).sessions := by
  unfold run
  rw [Machine.run_append]
  refine (Machine.invariant (step host)
    (fun s => s.sessions.LogsConsistent ∧ (run host js).sessions.KeepsLogs s.sessions)
    ⟨logsConsistent_run host js, fun _ _ h => h, fun _ _ h => h⟩ (fun s i s' h hpre => ?_) ks).2
  have hstep := session_step h
  exact ⟨logsConsistent_of_step hstep hpre.1, hpre.2.trans (keepsLogs_of_step hstep hpre.1)⟩

structure SessionTraced (past : List Transition) (sessionId : UInt64) (session : Session) :
    Prop where
  nonce_eq : session.nonce.toNat = callCount Call.attestsIn past sessionId
  ttl_eq : session.ttl = defaultSessionTtl
  created : CreatedAt past sessionId session.createdAt
  closed : WasClosed past sessionId → session.lifecycle = .closed

/-- A session that does not exist yet has no history. -/
def Untouched (past : List Transition) (sessionId : UInt64) : Prop :=
  callCount Call.attestsIn past sessionId = 0 ∧ ¬ WasClosed past sessionId

/-- The records of all sessions agree with the history. -/
structure SessionsTraced (past : List Transition) (st : SessionStore) : Prop where
  stored : ∀ sessionId session, st.session.get sessionId = some session →
    SessionTraced past sessionId session
  absent : ∀ sessionId, st.session.get sessionId = none → Untouched past sessionId
  counted : ∀ sessionId, (st.opCountOf sessionId).toNat = callCount Call.operatesIn past sessionId

theorem Call.operatesIn_of_attestsIn {c : Call} {sessionId : UInt64}
    (h : c.attestsIn = some sessionId) : c.operatesIn = some sessionId := by
  cases c with
  | submitAttestationWithSession _ _ => exact h
  | _ => cases h

theorem Call.operatesIn_of_frame {c : Call} (hc : .sessions ∉ c.touches) : c.operatesIn = none := by
  cases c with
  | registerAttestorWithSession _ _ _ _ => exact absurd hc (by simp [Call.touches])
  | revokeAttestorWithSession _ _ _ => exact absurd hc (by simp [Call.touches])
  | submitAttestationWithSession _ _ => exact absurd hc (by simp [Call.touches])
  | _ => rfl

theorem Call.closes_of_frame {c : Call} (hc : .sessions ∉ c.touches) : c.closes = none := by
  cases c with
  | closeSession _ _ => exact absurd hc (by simp [Call.touches])
  | _ => rfl

theorem Call.closes_of_operatesIn {c : Call} {sessionId : UInt64}
    (hc : c.operatesIn = some sessionId) : c.closes = none := by
  cases c with
  | closeSession _ _ => cases hc
  | _ => rfl

/-- A call that neither operates in nor closes a session leaves its history as it was. -/
def Call.PassesBy (c : Call) (sessionId : UInt64) : Prop :=
  c.operatesIn ≠ some sessionId ∧ c.closes ≠ some sessionId

section PassesBy

variable {past : List Transition} {t : Transition} {sessionId : UInt64} {session : Session}

theorem callCount_of_passesBy (h : t.input.2.PassesBy sessionId) :
    callCount Call.operatesIn (past ++ [t]) sessionId = callCount Call.operatesIn past sessionId ∧
      callCount Call.attestsIn (past ++ [t]) sessionId =
        callCount Call.attestsIn past sessionId := by
  have hattests : t.input.2.attestsIn ≠ some sessionId := fun ha =>
    h.1 (Call.operatesIn_of_attestsIn ha)
  rw [callCount_snoc, callCount_snoc, if_neg h.1, if_neg hattests]
  exact ⟨rfl, rfl⟩

theorem wasClosed_of_passesBy (h : t.input.2.PassesBy sessionId) :
    WasClosed (past ++ [t]) sessionId ↔ WasClosed past sessionId := by
  rw [wasClosed_snoc]
  exact or_iff_left h.2

theorem SessionTraced.passBy (htraced : SessionTraced past sessionId session)
    (h : t.input.2.PassesBy sessionId) : SessionTraced (past ++ [t]) sessionId session where
  nonce_eq := by rw [(callCount_of_passesBy h).2, htraced.nonce_eq]
  ttl_eq := htraced.ttl_eq
  created := htraced.created.snoc t
  closed := fun hclosed => htraced.closed ((wasClosed_of_passesBy h).mp hclosed)

theorem Untouched.passBy (huntouched : Untouched past sessionId)
    (h : t.input.2.PassesBy sessionId) : Untouched (past ++ [t]) sessionId := by
  refine ⟨?_, fun hclosed => huntouched.2 ((wasClosed_of_passesBy h).mp hclosed)⟩
  rw [(callCount_of_passesBy h).2, huntouched.1]

theorem SessionsTraced.set {st st' : SessionStore} (htraced : SessionsTraced past st)
    (hset : st'.session = st.session.set sessionId session)
    (hself : SessionTraced (past ++ [t]) sessionId session)
    (hothers : ∀ id, id ≠ sessionId → t.input.2.PassesBy id)
    (hcount : ∀ id, (st'.opCountOf id).toNat = callCount Call.operatesIn (past ++ [t]) id) :
    SessionsTraced (past ++ [t]) st' where
  stored := by
    intro id record hget
    rw [hset, KeyedStore.get_set] at hget
    by_cases hid : id = sessionId
    · rw [if_pos hid] at hget
      obtain rfl := Option.some.inj hget
      rwa [hid]
    · rw [if_neg hid] at hget
      exact (htraced.stored id record hget).passBy (hothers id hid)
  absent := by
    intro id hget
    rw [hset, KeyedStore.get_set] at hget
    by_cases hid : id = sessionId
    · rw [if_pos hid] at hget
      cases hget
    · rw [if_neg hid] at hget
      exact (htraced.absent id hget).passBy (hothers id hid)
  counted := hcount

/-- A call outside the sessions leaves all records and all histories alone. -/
theorem SessionsTraced.frame {st : SessionStore} (htraced : SessionsTraced past st)
    (hothers : ∀ id, t.input.2.PassesBy id) : SessionsTraced (past ++ [t]) st where
  stored := fun id record hget => (htraced.stored id record hget).passBy (hothers id)
  absent := fun id hget => (htraced.absent id hget).passBy (hothers id)
  counted := fun id => by rw [(callCount_of_passesBy (hothers id)).1, htraced.counted id]

end PassesBy

theorem SessionsTraced.create {past : List Transition} {t : Transition} {initiator : Address}
    {st' : SessionStore} (htraced : SessionsTraced past t.pre.sessions)
    (hdense : Dense t.pre.sessions.session t.pre.sessions.sessionCount)
    (hc : t.input.2 = .createSession initiator)
    (hset : st'.session = t.pre.sessions.session.set t.pre.sessions.sessionCount
      { sessionId := t.pre.sessions.sessionCount, initiator, createdAt := t.input.1.timestamp,
        nonce := 0, operationCount := 0, sessionTtlSeconds := defaultSessionTtl, closed := false,
        state := SessionState.created.toU32 })
    (hops : st'.opCount = t.pre.sessions.opCount) : SessionsTraced (past ++ [t]) st' := by
  have hpass (id : UInt64) : t.input.2.PassesBy id := by
    rw [hc]
    exact ⟨nofun, nofun⟩
  obtain ⟨hnonce, hopen⟩ := (htraced.absent _ hdense.get_next).passBy (hpass _)
  refine htraced.set hset ⟨hnonce.symm, rfl, ?_, fun hclosed => absurd hclosed hopen⟩
    (fun id _ => hpass id) (fun id => ?_)
  · exact ⟨t, by simp, ⟨initiator, hc⟩, rfl, rfl⟩
  · rw [(callCount_of_passesBy (hpass id)).1, ← htraced.counted id, SessionStore.opCountOf, hops]
    rfl

theorem SessionsTraced.close {past : List Transition} {t : Transition} {initiator : Address}
    {sessionId : UInt64} {session : Session} {st' : SessionStore}
    (htraced : SessionsTraced past t.pre.sessions)
    (hsession : t.pre.sessions.session.get sessionId = some session)
    (hc : t.input.2 = .closeSession sessionId initiator)
    (hset : st'.session = t.pre.sessions.session.set sessionId
      { session with closed := true, state := SessionState.closed.toU32 })
    (hops : st'.opCount = t.pre.sessions.opCount) : SessionsTraced (past ++ [t]) st' := by
  have hold := htraced.stored sessionId session hsession
  have hcount (which : Call → Option UInt64) (hwhich : which t.input.2 = none) (id : UInt64) :
      callCount which (past ++ [t]) id = callCount which past id := by
    rw [callCount_snoc, hwhich]
    rfl
  have hattests : t.input.2.attestsIn = none := by rw [hc]; rfl
  have hoperates : t.input.2.operatesIn = none := by rw [hc]; rfl
  refine htraced.set hset ⟨?_, hold.ttl_eq, hold.created.snoc t, fun _ => rfl⟩ (fun id hid => ?_)
    (fun id => ?_)
  · rw [hcount _ hattests, ← hold.nonce_eq]
  · rw [hc]
    refine ⟨nofun, fun heq => hid ?_⟩
    exact (Option.some.inj heq).symm
  · rw [hcount _ hoperates, ← htraced.counted id, SessionStore.opCountOf, hops]
    rfl

theorem SessionsTraced.operate {past : List Transition} {t : Transition} {sessionId : UInt64}
    {st' : SessionStore} (htraced : SessionsTraced past t.pre.sessions)
    (hc : t.input.2.operatesIn = some sessionId)
    (hop : SessionOperated t.input.1 sessionId (t.input.2.attestsIn = some sessionId)
      t.pre.sessions st') : SessionsTraced (past ++ [t]) st' := by
  obtain ⟨session, nonce, opCount, auditCount, request, entry, hsession, hopen, hnonce, hcount, _, _,
    rfl, _, _, rfl⟩ := hop.logged
  have hold := htraced.stored _ session hsession
  refine htraced.set rfl ⟨?_, hold.ttl_eq, hold.created.snoc t, fun hclosed => ?_⟩ (fun id hid => ?_)
    (fun id => ?_)
  · change nonce.toNat = _
    rw [hnonce, hold.nonce_eq, callCount_snoc]
    simp
  · rw [wasClosed_snoc, Call.closes_of_operatesIn hc] at hclosed
    have hterminal := hold.closed (hclosed.resolve_right nofun)
    have hlive := hopen.2
    rw [hterminal] at hlive
    exact absurd hlive (by simp)
  · refine ⟨fun heq => hid ?_, ?_⟩
    · exact Option.some.inj (heq.symm.trans hc)
    · rw [Call.closes_of_operatesIn hc]
      nofun
  · rw [SessionStore.opCountOf_logOperation, callCount_snoc, hc, ← htraced.counted id]
    by_cases hid : id = entry.sessionId
    · rw [if_pos hid, if_pos (by rw [hid]), hcount, hid]
    · have hne : some entry.sessionId ≠ some id := fun heq => hid (Option.some.inj heq).symm
      rw [if_neg hid, if_neg hne, Nat.add_zero]

theorem sessionsTraced_step {host : Host} {past : List Transition} {t : Transition}
    (ht : step host t.pre t.input = .ok t.post) (hlogs : t.pre.sessions.LogsConsistent)
    (htraced : SessionsTraced past t.pre.sessions) :
    SessionsTraced (past ++ [t]) t.post.sessions := by
  have hstep := session_step ht
  generalize hc : t.input.2 = c at hstep
  generalize hst : t.post.sessions = st' at hstep
  cases hstep with
  | frame hframe =>
    refine htraced.frame fun id => ⟨?_, ?_⟩
    · rw [hc, Call.operatesIn_of_frame hframe]
      nofun
    · rw [hc, Call.closes_of_frame hframe]
      nofun
  | create hcount => exact htraced.create hlogs.sessions_dense hc rfl rfl
  | close hsession hopen => exact htraced.close hsession hc rfl rfl
  | operate hoperates hop =>
    rw [← hc] at hoperates hop
    exact htraced.operate hoperates hop

theorem sessionsTraced_run (host : Host) (is : List Input) :
    SessionsTraced (history host is) (run host is).sessions := by
  refine (Machine.history_invariant (step host)
    (fun past s => s.sessions.LogsConsistent ∧ SessionsTraced past s.sessions) (fun _ => True)
    (s := .empty) ⟨SessionStore.logsConsistent_empty, ?_⟩ (fun past t ht hpre _ => ?_) is
    (fun _ _ => trivial)).2
  · exact ⟨nofun, fun _ _ => ⟨rfl, by simp [WasClosed]⟩, fun _ => rfl⟩
  · exact ⟨logsConsistent_of_step (session_step ht) hpre.1, sessionsTraced_step ht hpre.1 hpre.2⟩

/-- A call that takes place in a session: an operation or its closing. -/
def Call.ActsIn (c : Call) (sessionId : UInt64) : Prop :=
  c.operatesIn = some sessionId ∨ c.closes = some sessionId

theorem open_of_actsIn {host : Host} {t : Transition}
    (ht : step host t.pre t.input = .ok t.post) {sessionId : UInt64}
    (hacts : t.input.2.ActsIn sessionId) :
    ∃ session, t.pre.sessions.session.get sessionId = some session ∧
      session.Open t.input.1.timestamp := by
  have hstep := session_step ht
  generalize hc : t.input.2 = c at hstep hacts
  generalize hst : t.post.sessions = st' at hstep
  cases hstep with
  | frame hframe =>
    rcases hacts with h | h
    · rw [Call.operatesIn_of_frame hframe] at h
      cases h
    · rw [Call.closes_of_frame hframe] at h
      cases h
  | create hcount => rcases hacts with h | h <;> cases h
  | close hsession hopen =>
    obtain h | h := hacts
    · cases h
    · obtain rfl := Option.some.inj h
      exact ⟨_, hsession, hopen⟩
  | operate hoperates hop =>
    obtain ⟨session, _, _, _, _, _, hsession, hopen, _⟩ := hop.logged
    rcases hacts with h | h
    · obtain rfl := Option.some.inj (hoperates.symm.trans h)
      exact ⟨session, hsession, hopen⟩
    · rw [Call.closes_of_operatesIn hoperates] at h
      cases h

/-- An open session that is traced was never closed and is within its time to live. -/
theorem SessionTraced.live {past : List Transition} {sessionId now : UInt64} {session : Session}
    (htraced : SessionTraced past sessionId session) (hopen : session.Open now) :
    ¬ WasClosed past sessionId ∧ ∃ createdAt, CreatedAt past sessionId createdAt ∧
      now.toNat ≤ createdAt.toNat + defaultSessionTtl.toNat := by
  refine ⟨fun hclosed => ?_, session.createdAt, htraced.created, ?_⟩
  · have hlive := hopen.2
    rw [htraced.closed hclosed] at hlive
    exact absurd hlive (by simp)
  · have hexpiry := UInt64.le_iff_toNat_le.mp hopen.1
    rw [Session.expiry, sessionExpiry, htraced.ttl_eq, Word.toNat_saturatingAdd64] at hexpiry
    omega

/-- The operation took an audit id that was free and points its own log slot, free as well, to
the entry it stored there. -/
def TakesFreshId (t : Transition) (sessionId : UInt64) : Prop :=
  let slot := (sessionId, t.pre.sessions.opCountOf sessionId)
  let logId := t.pre.sessions.auditCount
  t.pre.sessions.log.get slot = none ∧ t.pre.sessions.audit.get logId = none ∧
    t.post.sessions.log.get slot = some logId ∧ t.post.sessions.audit.has logId = true

theorem takesFreshId_of_step {host : Host} {t : Transition}
    (ht : step host t.pre t.input = .ok t.post) (hlogs : t.pre.sessions.LogsConsistent)
    {sessionId : UInt64} (hc : t.input.2.operatesIn = some sessionId) :
    TakesFreshId t sessionId := by
  have hstep := session_step ht
  generalize t.input.2 = c at hstep hc
  generalize hpost : t.post.sessions = st' at hstep
  cases hstep with
  | frame hframe =>
    rw [Call.operatesIn_of_frame hframe] at hc
    cases hc
  | create hcount => cases hc
  | close hsession hopen => cases hc
  | operate hoperates hop =>
    obtain rfl := Option.some.inj (hoperates.symm.trans hc)
    obtain ⟨_, _, _, _, _, entry, _, _, _, _, _, hid, hentry, _, hindex, rfl⟩ := hop.logged
    refine ⟨hlogs.slot_free _, hlogs.audit_dense.get_next, ?_, ?_⟩
    · rw [hpost, ← hindex, ← hentry, ← hid]
      exact KeyedStore.get_set_self _ _ _
    · rw [hpost, ← hid]
      exact KeyedStore.has_iff.mpr ⟨entry, KeyedStore.get_set_self _ _ _⟩

/-- After every run no session has more operations than its limit, the slots below its count are
filled with entries of the session and its indices, nothing logged was overwritten on the way,
and its nonce counts its attestations. Every committed operation took a fresh audit id, and no
committed call in a session came after the session was closed or had expired. -/
theorem sessions_faithful (host : Host) (is : List Input) :
    let st := (run host is).sessions
    (∀ sessionId, st.opCountOf sessionId ≤ maxOpsPerSession ∧
      (st.opCountOf sessionId).toNat = callCount Call.operatesIn (history host is) sessionId) ∧
      (∀ sessionId index, index < st.opCountOf sessionId → st.SlotFilled sessionId index) ∧
      (∀ js ks, is = js ++ ks → (run host js).sessions.KeepsLogs st) ∧
      (∀ sessionId session, st.session.get sessionId = some session →
        session.nonce.toNat = callCount Call.attestsIn (history host is) sessionId) ∧
      ∀ before t after, history host is = before ++ t :: after → ∀ sessionId,
        (t.input.2.operatesIn = some sessionId → TakesFreshId t sessionId) ∧
        (t.input.2.ActsIn sessionId → ¬ WasClosed before sessionId ∧
          ∃ createdAt, CreatedAt before sessionId createdAt ∧
            t.input.1.timestamp.toNat ≤ createdAt.toNat + defaultSessionTtl.toNat) := by
  have hlogs := logsConsistent_run host is
  have htraced := sessionsTraced_run host is
  refine ⟨fun id => ⟨hlogs.count_le id, htraced.counted id⟩, hlogs.filled, ?_,
    fun id session hget => (htraced.stored id session hget).nonce_eq, ?_⟩
  · rintro js ks rfl
    exact keepsLogs_run_append host js ks
  · intro before t after hsplit sessionId
    obtain ⟨js, ks, _, hpre, hbefore⟩ := Machine.exists_prefix_of_transitions_eq (step host) hsplit
    have ht : step host t.pre t.input = .ok t.post := by
      have hmem : t ∈ history host is := by
        rw [hsplit]
        exact List.mem_append_right _ List.mem_cons_self
      exact Machine.step_of_mem_transitions (step host) hmem
    have hlogsPre : t.pre.sessions.LogsConsistent := hpre ▸ logsConsistent_run host js
    have htracedPre : SessionsTraced before t.pre.sessions := by
      have hjs := sessionsTraced_run host js
      rwa [history, run, hpre, hbefore] at hjs
    refine ⟨takesFreshId_of_step ht hlogsPre, fun hacts => ?_⟩
    obtain ⟨session, hsession, hopen⟩ := open_of_actsIn ht hacts
    exact (htracedPre.stored sessionId session hsession).live hopen

end AnchorKit
