import AnchorKit.Registry
import AnchorKit.Types

/-!
# Sessions

Creating and closing sessions, the check that guards every session operation, the log each
operation leaves behind, and the registry operations that run inside a session.
-/

namespace AnchorKit

/-!
## The session lifecycle

The states a session passes through, stored as discriminants, with the table of legal
transitions.
-/

inductive SessionState
  | created
  | active
  | exhausted
  | closed
  | expired
deriving DecidableEq, Repr

inductive SessionTransitionError
  | sameState
  | fromTerminal
  | illegalTransition
deriving DecidableEq, Repr

namespace SessionState

def toU32 : SessionState → UInt32
  | .created => 0
  | .active => 1
  | .exhausted => 2
  | .closed => 3
  | .expired => 4

/-- Unknown discriminants read as the safest terminal state. -/
def fromU32 (v : UInt32) : SessionState :=
  if v = 0 then .created
  else if v = 1 then .active
  else if v = 2 then .exhausted
  else if v = 3 then .closed
  else .expired

def isTerminal : SessionState → Bool
  | .closed | .expired | .exhausted => true
  | .created | .active => false

def legalTransitions : List (SessionState × SessionState) :=
  [(.created, .active), (.created, .exhausted), (.created, .closed), (.active, .closed),
    (.exhausted, .closed), (.active, .exhausted), (.created, .expired), (.active, .expired),
    (.exhausted, .expired)]

def isLegalTransition (source target : SessionState) : Bool :=
  legalTransitions.contains (source, target)

def validateTransition (source target : SessionState) : Except SessionTransitionError Unit :=
  if source = target then .error .sameState
  else if source.isTerminal then .error .fromTerminal
  else if !isLegalTransition source target then .error .illegalTransition
  else .ok ()

theorem eq_active_of_fromU32 {v : UInt32} (h : fromU32 v = .active) : v = active.toU32 := by
  unfold fromU32 at h
  split at h
  · cases h
  · split at h
    · assumption
    · repeat' split at h
      all_goals cases h

@[simp] theorem fromU32_toU32 (state : SessionState) : fromU32 state.toU32 = state := by
  cases state <;> rfl

theorem eq_of_toU32_eq {a b : SessionState} (h : a.toU32 = b.toU32) : a = b := by
  rw [← fromU32_toU32 a, h, fromU32_toU32]

/-- A session can be closed exactly from its two live states. -/
theorem validateTransition_closed {source : SessionState} :
    validateTransition source .closed = .ok () ↔ source = .created ∨ source = .active := by
  cases source <;> decide

end SessionState

def sessionExpiry (createdAt ttlSecs : UInt64) : UInt64 := Word.saturatingAdd64 createdAt ttlSecs

/-!
## Operations on sessions

Every operation of a session passes one guard and is logged.
-/

open Fallible
open Roster (pushIfAbsent)

def defaultSessionTtl : UInt64 := 3600

def maxOpsPerSession : UInt64 := 100

/-- The time to live of a session, zero standing for the default. -/
def Session.ttl (session : Session) : UInt64 :=
  if session.sessionTtlSeconds = 0 then defaultSessionTtl else session.sessionTtlSeconds

def Session.expiry (session : Session) : UInt64 := sessionExpiry session.createdAt session.ttl

def Session.lifecycle (session : Session) : SessionState := SessionState.fromU32 session.state

def SessionStore.opCountOf (st : SessionStore) (sessionId : UInt64) : UInt64 :=
  (st.opCount.get sessionId).getD 0

def Storage.setSession (s : Storage) (sessionId : UInt64) (session : Session) : Storage :=
  { s with sessions := { s.sessions with session := s.sessions.session.set sessionId session } }

def createSession (env : Env) (s : Storage) (initiator : Address) :
    Except Panic (Storage × UInt64) := do
  initiator.requireAuth env
  let sessionId := s.sessions.sessionCount
  let sessionCount ← add64 sessionId 1
  let s := { s with sessions := { s.sessions with sessionCount := sessionCount } }
  let session : Session :=
    { sessionId, initiator, createdAt := env.timestamp, nonce := 0, operationCount := 0,
      sessionTtlSeconds := defaultSessionTtl, closed := false,
      state := SessionState.created.toU32 }
  let s := s.setSession sessionId session
  return (s.publish (.sessionCreated sessionId initiator env.timestamp), sessionId)

/-- What `close_session` reports for a transition the state machine rejects. -/
def closeError (source : SessionState) : SessionTransitionError → ErrorCode
  | .fromTerminal => if source = .closed then .sessionClosed else .illegalTransition
  | _ => .illegalTransition

def closeSession (env : Env) (s : Storage) (sessionId : UInt64) (initiator : Address) :
    Except Panic Storage := do
  initiator.requireAuth env
  let session ← expect (s.sessions.session.get sessionId) (.withError .sessionNotFound)
  require (initiator = session.initiator) (.withError .unauthorizedAttestor)
  let now := env.timestamp
  -- the expired state and event written before this panic are rolled back with it
  require (now ≤ session.expiry) (.withError .sessionExpired)
  match SessionState.validateTransition session.lifecycle .closed with
  | .error e => throw (.withError (closeError session.lifecycle e))
  | .ok () =>
    let session := { session with closed := true, state := SessionState.closed.toU32 }
    let s := s.setSession sessionId session
    return s.publish (.sessionClosed sessionId initiator now)

/-- Neither expired nor in a terminal state. -/
def validateSession (env : Env) (session : Session) : Except Panic Unit := do
  require (env.timestamp ≤ session.expiry) (.withError .sessionExpired)
  match session.lifecycle with
  | .closed => throw (.withError .sessionClosed)
  | .expired => throw (.withError .sessionExpired)
  | .exhausted => throw (.withError .sessionOperationLimitExceeded)
  | .created | .active => return ()

/-- The guard of every session operation; the first one makes the session active. The state
changes the source makes right before a panic are rolled back with it. -/
def requireSessionOpen (env : Env) (s : Storage) (sessionId : UInt64) : Except Panic Storage := do
  let session ← expect (s.sessions.session.get sessionId) (.withError .sessionNotFound)
  require (¬(Word.saturatingAdd64 session.createdAt session.ttl < env.timestamp ∧
    session.lifecycle.isTerminal = false)) (.withError .sessionExpired)
  validateSession env session
  require (s.sessions.opCountOf sessionId < maxOpsPerSession)
    (.withError .sessionOperationLimitExceeded)
  if session.lifecycle = .created then
    return s.setSession sessionId { session with state := SessionState.active.toU32 }
  return s

/-- Past its expiry a session is reported expired, whatever state is stored. -/
def getSessionState (env : Env) (s : Storage) (sessionId : UInt64) : Except Panic UInt32 := do
  let session ← expect (s.sessions.session.get sessionId) (.withError .sessionNotFound)
  if Word.saturatingAdd64 session.createdAt session.ttl < env.timestamp then
    return SessionState.expired.toU32
  return session.state

/-- Allocate the next audit record id; the counter never wraps. -/
def nextAuditLogId (s : Storage) : Except Panic (Storage × UInt64) := do
  let logId := s.sessions.auditCount
  let next ← expect (Word.checkedAdd64 logId 1) (.withError .auditLogCapacityExceeded)
  return ({ s with sessions := { s.sessions with auditCount := next } }, logId)

/-- The tail every session operation ends with: count it, write its audit entry and point the
session's log slot to the entry. -/
def recordSessionOperation (env : Env) (s : Storage) (sessionId : UInt64) (actor : Address)
    (operationType : String) (resultData : UInt64) :
    Except Panic (Storage × UInt64 × UInt64) := do
  let opIndex := s.sessions.opCountOf sessionId
  let opCount ← add64 opIndex 1
  let s := { s with sessions := { s.sessions with
    opCount := s.sessions.opCount.set sessionId opCount } }
  let (s, logId) ← nextAuditLogId s
  let audit : AuditLog :=
    { logId, sessionId, actor
      operation :=
        { sessionId, operationIndex := opIndex, operationType, timestamp := env.timestamp,
          status := "success", resultData } }
  let s := { s with sessions := { s.sessions with
    audit := s.sessions.audit.set logId audit
    log := s.sessions.log.set (sessionId, opIndex) logId } }
  return (s, opIndex, logId)

def registerAttestorWithSession (env : Env) (s : Storage) (operator : Address)
    (sessionId : UInt64) (attestor : Address) (publicKey : BytesN 32) : Except Panic Storage := do
  requireAdminOrRole env s operator .attestorAdmin
  let s ← requireSessionOpen env s sessionId
  require (s.registry.attestor.has attestor = false) (.withError .attestorAlreadyRegistered)
  let s := { s with registry := { s.registry with
    attestor := s.registry.attestor.set attestor true
    publicKey := s.registry.publicKey.set attestor publicKey
    list := pushIfAbsent s.registry.list attestor } }
  let (s, opIndex, logId) ← recordSessionOperation env s sessionId operator "register" 0
  let s := s.publish (.attestorAdded attestor env.timestamp)
  return s.publish (.auditLogged logId sessionId opIndex "register" "success" 0)

def revokeAttestorWithSession (env : Env) (s : Storage) (operator : Address)
    (sessionId : UInt64) (attestor : Address) : Except Panic Storage := do
  requireAdminOrRole env s operator .attestorAdmin
  let s ← requireSessionOpen env s sessionId
  require (s.registry.attestor.has attestor = true) (.withError .attestorNotRegistered)
  let s := { s with registry := { s.registry with
    attestor := s.registry.attestor.remove attestor
    publicKey := s.registry.publicKey.remove attestor
    list := s.registry.list.erase attestor } }
  let (s, opIndex, logId) ← recordSessionOperation env s sessionId operator "revoke" 0
  let s := s.publish (.attestorRemoved attestor operator env.timestamp)
  return s.publish (.auditLogged logId sessionId opIndex "revoke" "success" 0)

/-- A session that still takes operations at `now`. -/
def Session.Open (session : Session) (now : UInt64) : Prop :=
  now ≤ session.expiry ∧ (session.lifecycle = .created ∨ session.lifecycle = .active)

/-- The store after an operation: the session active with a new nonce, one more operation
counted, and the entry stored and pointed to by its log slot. -/
def SessionStore.logOperation (st : SessionStore) (session : Session) (nonce opCount auditCount : UInt64)
    (request : KeyedStore (UInt64 × Bytes) Bool) (entry : AuditLog) : SessionStore :=
  { st with
    session := st.session.set entry.sessionId
      { session with state := SessionState.active.toU32, nonce := nonce }
    opCount := st.opCount.set entry.sessionId opCount
    log := st.log.set (entry.sessionId, entry.operation.operationIndex) entry.logId
    request := request
    auditCount := auditCount
    audit := st.audit.set entry.logId entry }

def SessionStore.nextEntry (st : SessionStore) (env : Env) (sessionId : UInt64) (actor : Address)
    (operationType : String) (resultData : UInt64) : AuditLog where
  logId := st.auditCount
  sessionId := sessionId
  actor := actor
  operation :=
    { sessionId, operationIndex := st.opCountOf sessionId, operationType,
      timestamp := env.timestamp, status := "success", resultData }

/-- One successful operation inside session `sessionId`; an attestation consumes a nonce. -/
structure SessionOperated (env : Env) (sessionId : UInt64) (attests : Bool)
    (st st' : SessionStore) : Prop where
  belowLimit : st.opCountOf sessionId < maxOpsPerSession
  logged : ∃ session nonce opCount auditCount request entry,
    st.session.get sessionId = some session ∧ session.Open env.timestamp ∧
    nonce.toNat = session.nonce.toNat + (if attests then 1 else 0) ∧
    opCount.toNat = (st.opCountOf sessionId).toNat + 1 ∧
    auditCount.toNat = st.auditCount.toNat + 1 ∧
    entry.logId = st.auditCount ∧ entry.sessionId = sessionId ∧
    entry.operation.sessionId = sessionId ∧
    entry.operation.operationIndex = st.opCountOf sessionId ∧
    st' = st.logOperation session nonce opCount auditCount request entry

section Effects

variable {env : Env} {s s' : Storage} {sessionId : UInt64}

theorem createSession_effects {initiator : Address} {id : UInt64}
    (h : createSession env s initiator = .ok (s', id)) :
    id = s.sessions.sessionCount ∧ ∃ sessionCount events,
      s.sessions.sessionCount.toNat + 1 = sessionCount.toNat ∧
      s' = { s with
        sessions := { s.sessions with
          sessionCount := sessionCount
          session := s.sessions.session.set id
            { sessionId := id, initiator, createdAt := env.timestamp, nonce := 0,
              operationCount := 0, sessionTtlSeconds := defaultSessionTtl, closed := false,
              state := SessionState.created.toU32 } }
        events := events } := by
  simp only [createSession, bind_eq_ok, add64_eq_ok, pure_eq_ok] at h
  obtain ⟨_, _, sessionCount, hcount, h⟩ := h
  obtain ⟨rfl, rfl⟩ := Prod.mk.inj h
  exact ⟨rfl, sessionCount, _, hcount, rfl⟩

theorem closeSession_effects {initiator : Address}
    (h : closeSession env s sessionId initiator = .ok s') :
    ∃ session events, s.sessions.session.get sessionId = some session ∧
      session.Open env.timestamp ∧
      s' = { s with
        sessions := { s.sessions with
          session := s.sessions.session.set sessionId
            { session with closed := true, state := SessionState.closed.toU32 } }
        events := events } := by
  simp only [closeSession, bind_eq_ok, expect_eq_ok, require_eq_ok] at h
  obtain ⟨_, _, session, hsession, _, _, _, hexpiry, h⟩ := h
  split at h
  · cases h
  · rename_i hlegal
    obtain rfl := pure_eq_ok.mp h
    exact ⟨session, _, hsession, ⟨hexpiry, SessionState.validateTransition_closed.mp hlegal⟩, rfl⟩

theorem validateSession_eq_ok {session : Session} {u : Unit} :
    validateSession env session = .ok u ↔ session.Open env.timestamp := by
  simp only [validateSession, require_bind_eq_ok, Session.Open]
  cases session.lifecycle <;> simp [pure, Except.pure, throw, throwThe, MonadExceptOf.throw]

theorem requireSessionOpen_effects (h : requireSessionOpen env s sessionId = .ok s') :
    s.sessions.opCountOf sessionId < maxOpsPerSession ∧
      ∃ session, s.sessions.session.get sessionId = some session ∧ session.Open env.timestamp ∧
        s' = s.setSession sessionId { session with state := SessionState.active.toU32 } := by
  simp only [requireSessionOpen, bind_eq_ok, expect_eq_ok, require_eq_ok,
    validateSession_eq_ok] at h
  obtain ⟨session, hsession, _, _, _, hopen, _, hlimit, h⟩ := h
  refine ⟨hlimit, session, hsession, hopen, ?_⟩
  split at h
  · exact (pure_eq_ok.mp h).symm
  · rename_i hnew
    obtain rfl := pure_eq_ok.mp h
    have hactive : session.state = SessionState.active.toU32 :=
      SessionState.eq_active_of_fromU32 (hopen.2.resolve_left hnew)
    have hsame : s.sessions.session.set sessionId session = s.sessions.session :=
      KeyedStore.set_of_get_eq_some hsession
    rw [← hactive]
    simp only [Storage.setSession, hsame]

theorem recordSessionOperation_effects {actor : Address} {operationType : String}
    {resultData opIndex logId : UInt64}
    (h : recordSessionOperation env s sessionId actor operationType resultData =
      .ok (s', opIndex, logId)) :
    ∃ opCount auditCount, opCount.toNat = (s.sessions.opCountOf sessionId).toNat + 1 ∧
      auditCount.toNat = s.sessions.auditCount.toNat + 1 ∧
      s' = { s with sessions := { s.sessions with
        opCount := s.sessions.opCount.set sessionId opCount
        auditCount := auditCount
        audit := s.sessions.audit.set s.sessions.auditCount
          (s.sessions.nextEntry env sessionId actor operationType resultData)
        log := s.sessions.log.set (sessionId, s.sessions.opCountOf sessionId)
          s.sessions.auditCount } } := by
  simp only [recordSessionOperation, nextAuditLogId, bind_eq_ok, expect_eq_ok, add64_eq_ok,
    Word.checkedAdd64_eq_some, pure_eq_ok] at h
  obtain ⟨opCount, hop, _, ⟨auditCount, haudit, rfl⟩, h⟩ := h
  obtain ⟨rfl, -⟩ := Prod.mk.inj h
  exact ⟨opCount, auditCount, by simpa using hop.symm, by simpa using haudit.symm, rfl⟩

theorem sessionOperated_of_plain {actor : Address} {operationType : String}
    {resultData opIndex logId : UInt64} {t u : Storage}
    (hopen : requireSessionOpen env s sessionId = .ok t)
    (hrecord : recordSessionOperation env u sessionId actor operationType resultData =
      .ok (s', opIndex, logId)) (hsame : u.sessions = t.sessions) :
    SessionOperated env sessionId false s.sessions s'.sessions := by
  obtain ⟨hlimit, session, hsession, hlive, rfl⟩ := requireSessionOpen_effects hopen
  obtain ⟨opCount, auditCount, hop, haudit, rfl⟩ := recordSessionOperation_effects hrecord
  rw [hsame] at hop haudit ⊢
  refine ⟨hlimit, session, session.nonce, opCount, auditCount, s.sessions.request,
    s.sessions.nextEntry env sessionId actor operationType resultData, hsession, hlive, rfl, hop,
    haudit, rfl, rfl, rfl, rfl, rfl⟩

theorem registerAttestorWithSession_effects {operator attestor : Address} {pk : BytesN 32}
    (h : registerAttestorWithSession env s operator sessionId attestor pk = .ok s') :
    s.registry.attestor.has attestor = false ∧
      SessionOperated env sessionId false s.sessions s'.sessions ∧
      ∃ sessions events, s' = { s with
        registry := { s.registry with
          attestor := s.registry.attestor.set attestor true
          publicKey := s.registry.publicKey.set attestor pk
          list := pushIfAbsent s.registry.list attestor }
        sessions := sessions, events := events } := by
  simp only [registerAttestorWithSession, bind_eq_ok, require_eq_ok, pure_eq_ok] at h
  obtain ⟨_, _, t, hopen, _, hfree, ⟨u, opIndex, logId⟩, hrecord, rfl⟩ := h
  have hops := sessionOperated_of_plain hopen hrecord rfl
  obtain ⟨_, _, _, _, rfl⟩ := requireSessionOpen_effects hopen
  obtain ⟨_, _, _, _, rfl⟩ := recordSessionOperation_effects hrecord
  exact ⟨hfree, hops, _, _, rfl⟩

theorem revokeAttestorWithSession_effects {operator attestor : Address}
    (h : revokeAttestorWithSession env s operator sessionId attestor = .ok s') :
    s.registry.attestor.has attestor = true ∧
      SessionOperated env sessionId false s.sessions s'.sessions ∧
      ∃ sessions events, s' = { s with
        registry := { s.registry with
          attestor := s.registry.attestor.remove attestor
          publicKey := s.registry.publicKey.remove attestor
          list := s.registry.list.erase attestor }
        sessions := sessions, events := events } := by
  simp only [revokeAttestorWithSession, bind_eq_ok, require_eq_ok, pure_eq_ok] at h
  obtain ⟨_, _, t, hopen, _, hflag, ⟨u, opIndex, logId⟩, hrecord, rfl⟩ := h
  have hops := sessionOperated_of_plain hopen hrecord rfl
  obtain ⟨_, _, _, _, rfl⟩ := requireSessionOpen_effects hopen
  obtain ⟨_, _, _, _, rfl⟩ := recordSessionOperation_effects hrecord
  exact ⟨hflag, hops, _, _, rfl⟩

end Effects

end AnchorKit
