import AnchorKit.SessionInvariants

/-!
# What a session is reported to be

The reported state is computed from the stored one and the time of the read. Nothing ever stores
the states `Exhausted` and `Expired`, because the calls that would write them abort.
-/

namespace AnchorKit

open Fallible

theorem getSessionState_eq_ok {env : Env} {s : Storage} {sessionId : UInt64} {state : UInt32} :
    getSessionState env s sessionId = .ok state ↔
      ∃ session, s.sessions.session.get sessionId = some session ∧
        state = if session.expiry < env.timestamp then SessionState.expired.toU32
          else session.state := by
  simp only [getSessionState, expect_bind_eq_ok]
  apply exists_congr
  intro session
  apply and_congr_right
  intro _
  change (if session.expiry < env.timestamp then _ else _) = _ ↔ _
  split
  · rw [pure_eq_ok, eq_comm]
  · rw [pure_eq_ok, eq_comm]

def Session.Recorded (session : Session) : Prop :=
  session.state = SessionState.created.toU32 ∨ session.state = SessionState.active.toU32 ∨
    session.state = SessionState.closed.toU32

def Session.IsClosed (session : Session) : Prop := session.state = SessionState.closed.toU32

theorem Session.Open.not_isClosed {session : Session} {now : UInt64} (h : session.Open now) :
    ¬ session.IsClosed := by
  intro hclosed
  have hlifecycle : session.lifecycle = .closed := by
    rw [Session.lifecycle, hclosed]
    rfl
  rcases h.2 with hlive | hlive
  · rw [hlifecycle] at hlive
    cases hlive
  · rw [hlifecycle] at hlive
    cases hlive

/-- What later calls keep of a session: its expiry, and that it is closed. -/
structure Session.Keeps (old new : Session) : Prop where
  expiry_eq : new.expiry = old.expiry
  closed : old.IsClosed → new.IsClosed

/-- Every session of `st` is still there in `st'`. -/
def SessionStore.KeepsSessions (st st' : SessionStore) : Prop :=
  ∀ sessionId old, st.session.get sessionId = some old →
    ∃ new, st'.session.get sessionId = some new ∧ old.Keeps new

namespace SessionStore

theorem keepsSessions_refl (st : SessionStore) : st.KeepsSessions st := by
  intro sessionId old hget
  exact ⟨old, hget, rfl, id⟩

theorem KeepsSessions.trans {a b c : SessionStore} (hab : a.KeepsSessions b)
    (hbc : b.KeepsSessions c) : a.KeepsSessions c := by
  intro sessionId old hget
  obtain ⟨mid, hmid, hold⟩ := hab sessionId old hget
  obtain ⟨new, hnew, hkept⟩ := hbc sessionId mid hmid
  exact ⟨new, hnew, hkept.expiry_eq.trans hold.expiry_eq, fun h => hkept.closed (hold.closed h)⟩

theorem keepsSessions_of_set {st st' : SessionStore} {sessionId : UInt64} {old new : Session}
    (hold : st.session.get sessionId = some old)
    (hset : st'.session = st.session.set sessionId new) (hkeeps : old.Keeps new) :
    st.KeepsSessions st' := by
  intro id session hget
  rw [hset, KeyedStore.get_set]
  by_cases hid : id = sessionId
  · rw [hid, hold] at hget
    obtain rfl := Option.some.inj hget
    exact ⟨new, if_pos hid, hkeeps⟩
  · exact ⟨session, by rw [if_neg hid, hget], rfl, fun hclosed => hclosed⟩

def AllRecorded (st : SessionStore) : Prop :=
  ∀ sessionId session, st.session.get sessionId = some session → session.Recorded

theorem AllRecorded.set {st st' : SessionStore} {sessionId : UInt64} {new : Session}
    (h : st.AllRecorded) (hset : st'.session = st.session.set sessionId new)
    (hnew : new.Recorded) : st'.AllRecorded := by
  intro id session hget
  rw [hset] at hget
  rcases KeyedStore.get_set_cases hget with ⟨_, rfl⟩ | hold
  · exact hnew
  · exact h id session hold

end SessionStore

theorem keepsSessions_of_step {env : Env} {st st' : SessionStore} {c : Call}
    (hstep : SessionStep env st c st') (hlogs : st.LogsConsistent) : st.KeepsSessions st' := by
  cases hstep with
  | frame hc => exact st.keepsSessions_refl
  | create hcount =>
    intro id session hget
    exact ⟨session, hlogs.sessions_dense.get_set_of_get hget _, rfl, fun hclosed => hclosed⟩
  | close hsession hopen => exact SessionStore.keepsSessions_of_set hsession rfl ⟨rfl, fun _ => rfl⟩
  | operate hc hop =>
    obtain ⟨session, nonce, _, _, _, entry, hsession, hopen, _, _, _, _, rfl, _, _, rfl⟩ :=
      hop.logged
    exact SessionStore.keepsSessions_of_set hsession rfl
      ⟨rfl, fun hclosed => absurd hclosed hopen.not_isClosed⟩

theorem allRecorded_of_step {env : Env} {st st' : SessionStore} {c : Call}
    (hstep : SessionStep env st c st') (h : st.AllRecorded) : st'.AllRecorded := by
  cases hstep with
  | frame hc => exact h
  | create hcount => exact h.set rfl (Or.inl rfl)
  | close hsession hopen => exact h.set rfl (Or.inr (Or.inr rfl))
  | operate hc hop =>
    obtain ⟨_, _, _, _, _, _, _, _, _, _, _, _, _, _, _, rfl⟩ := hop.logged
    exact h.set rfl (Or.inr (Or.inl rfl))

theorem allRecorded_run (host : Host) (is : List Input) :
    (run host is).sessions.AllRecorded :=
  Machine.invariant (step host) (fun s => s.sessions.AllRecorded) (s := .empty) nofun
    (fun _ _ _ hstep hpre => allRecorded_of_step (session_step hstep) hpre) is

theorem keepsSessions_run_append (host : Host) (js ks : List Input) :
    (run host js).sessions.KeepsSessions (run host (js ++ ks)).sessions := by
  unfold run
  rw [Machine.run_append]
  refine (Machine.invariant (step host)
    (fun s => s.sessions.LogsConsistent ∧ (run host js).sessions.KeepsSessions s.sessions)
    ⟨logsConsistent_run host js, (run host js).sessions.keepsSessions_refl⟩ ?_ ks).2
  intro s i s' h hpre
  have hstep := session_step h
  exact ⟨logsConsistent_of_step hstep hpre.1,
    hpre.2.trans (keepsSessions_of_step hstep hpre.1)⟩

/-- A terminal state that was read is an expiry that has passed, or a session that was closed. -/
theorem terminal_report {session : Session} (hrecorded : session.Recorded) {now : UInt64}
    {state : SessionState} (hterminal : state.isTerminal = true)
    (hreport : state.toU32 =
      if session.expiry < now then SessionState.expired.toU32 else session.state) :
    (session.expiry < now ∧ state = .expired) ∨
      (¬ session.expiry < now ∧ state = .closed ∧ session.IsClosed) := by
  by_cases hexpired : session.expiry < now
  · rw [if_pos hexpired] at hreport
    exact Or.inl ⟨hexpired, SessionState.eq_of_toU32_eq hreport⟩
  · rw [if_neg hexpired] at hreport
    refine Or.inr ⟨hexpired, ?_⟩
    rcases hrecorded with hstored | hstored | hstored
    · obtain rfl := SessionState.eq_of_toU32_eq (hreport.trans hstored)
      cases hterminal
    · obtain rfl := SessionState.eq_of_toU32_eq (hreport.trans hstored)
      cases hterminal
    · exact ⟨SessionState.eq_of_toU32_eq (hreport.trans hstored), hstored⟩

/-- An operation was attempted, before the expiry, in a session that already had all of its
operations. -/
def Overrun (host : Host) (is : List Input) (sessionId : UInt64) : Prop :=
  ∃ before i after, is = before ++ i :: after ∧ i.2.operatesIn = some sessionId ∧
    maxOpsPerSession.toNat ≤ callCount Call.operatesIn (history host before) sessionId ∧
    ∃ session, (run host before).sessions.session.get sessionId = some session ∧
      i.1.timestamp ≤ session.expiry

/-- What the reported states promise, for a read after the calls `js` and a later one after `ks`
more. -/
structure ReportsFaithful (host : Host) (js ks : List Input) (first second : Env)
    (sessionId : UInt64) : Prop where
  absorbing : first.timestamp ≤ second.timestamp → ∀ state : SessionState,
    state.isTerminal = true →
    getSessionState first (run host js) sessionId = .ok state.toU32 →
    getSessionState second (run host (js ++ ks)) sessionId = .ok state.toU32
  exhausted : Overrun host js sessionId →
    getSessionState first (run host js) sessionId = .ok SessionState.exhausted.toU32

/-- The session is closed at the first read, and expires between the two. -/
def ExpiresAfterClosing (s : Storage) (first second : Env) (sessionId : UInt64) : Prop :=
  ∃ session, s.sessions.session.get sessionId = some session ∧ session.IsClosed ∧
    first.timestamp ≤ session.expiry ∧ session.expiry < second.timestamp

section Reports

variable {host : Host} {js : List Input} {first second : Env} {sessionId : UInt64}

theorem not_reported_exhausted :
    getSessionState first (run host js) sessionId ≠ .ok SessionState.exhausted.toU32 := by
  intro hread
  obtain ⟨session, hsession, hreport⟩ := getSessionState_eq_ok.mp hread
  have hrecorded := allRecorded_run host js sessionId session hsession
  rcases terminal_report hrecorded rfl hreport with ⟨_, h⟩ | ⟨_, h, _⟩
  · cases h
  · cases h

/-- A report stays what it was unless a closed session expires. -/
theorem report_absorbing (ks : List Input) (htime : first.timestamp ≤ second.timestamp)
    (hexpires : ¬ ExpiresAfterClosing (run host js) first second sessionId) {state : SessionState}
    (hterminal : state.isTerminal = true)
    (hread : getSessionState first (run host js) sessionId = .ok state.toU32) :
    getSessionState second (run host (js ++ ks)) sessionId = .ok state.toU32 := by
  obtain ⟨session, hsession, hreport⟩ := getSessionState_eq_ok.mp hread
  obtain ⟨later, hlater, hkeeps⟩ := keepsSessions_run_append host js ks sessionId session hsession
  have hrecorded := allRecorded_run host js sessionId session hsession
  rw [getSessionState_eq_ok]
  refine ⟨later, hlater, ?_⟩
  rw [hkeeps.expiry_eq]
  rcases terminal_report hrecorded hterminal hreport with ⟨hexpired, rfl⟩ | ⟨hlive, rfl, hclosed⟩
  · have hstill : session.expiry < second.timestamp := by
      rw [UInt64.lt_iff_toNat_lt] at hexpired ⊢
      rw [UInt64.le_iff_toNat_le] at htime
      omega
    rw [if_pos hstill]
  · have hstill : ¬ session.expiry < second.timestamp := by
      intro hexpired
      exact hexpires ⟨session, hsession, hclosed, UInt64.not_lt.mp hlive, hexpired⟩
    rw [if_neg hstill]
    exact (hkeeps.closed hclosed).symm

/-- A closed session that has expired is not reported closed any more. -/
theorem report_changes (ks : List Input)
    (hexpires : ExpiresAfterClosing (run host js) first second sessionId) :
    getSessionState first (run host js) sessionId = .ok SessionState.closed.toU32 ∧
      getSessionState second (run host (js ++ ks)) sessionId = .ok SessionState.expired.toU32 := by
  obtain ⟨session, hsession, hclosed, hlive, hexpired⟩ := hexpires
  obtain ⟨later, hlater, hkeeps⟩ := keepsSessions_run_append host js ks sessionId session hsession
  constructor
  · rw [getSessionState_eq_ok]
    exact ⟨session, hsession, by rw [if_neg (UInt64.not_lt.mpr hlive), hclosed]⟩
  · rw [getSessionState_eq_ok]
    exact ⟨later, hlater, by rw [hkeeps.expiry_eq, if_pos hexpired]⟩

end Reports

/-- The reports keep their promise exactly when no closed session expires between the reads and
no operation is attempted in a session that has had all of its operations. -/
theorem reportsFaithful_iff (host : Host) (js ks : List Input) (first second : Env)
    (sessionId : UInt64) :
    ReportsFaithful host js ks first second sessionId ↔
      ¬ ExpiresAfterClosing (run host js) first second sessionId ∧ ¬ Overrun host js sessionId := by
  constructor
  · intro hfaithful
    constructor
    · intro hexpires
      have htime : first.timestamp ≤ second.timestamp := by
        obtain ⟨session, _, _, hlive, hexpired⟩ := hexpires
        rw [UInt64.le_iff_toNat_le] at hlive ⊢
        rw [UInt64.lt_iff_toNat_lt] at hexpired
        omega
      obtain ⟨hfirst, hsecond⟩ := report_changes ks hexpires
      have hstays := hfaithful.absorbing htime .closed rfl hfirst
      rw [hsecond] at hstays
      cases hstays
    · intro hoverrun
      exact not_reported_exhausted (hfaithful.exhausted hoverrun)
  · rintro ⟨hexpires, hoverrun⟩
    constructor
    · intro htime state hterminal hread
      exact report_absorbing ks htime hexpires hterminal hread
    · intro h
      exact absurd h hoverrun

/-- A session closed at 1000 is reported closed then, and expired at 5000. -/
theorem closed_session_reported_expired :
    ¬ ReportsFaithful Demo.host
      [Demo.openSession, Demo.onLedger 1 (.closeSession 0 Demo.admin)] [] ⟨1000, 1, []⟩
      ⟨5000, 2, []⟩ 0 := by
  intro hfaithful
  have hstays := hfaithful.absorbing (by decide) .closed rfl (by decide)
  revert hstays
  decide

end AnchorKit
