import AnchorKit.Library.Machine
import AnchorKit.Sep10Rejections

/-!
# How long a `jti` is remembered

The marker of a `jti` is gone once it has lived for the ledgers that it was given. Over runs of
verifications on a ledger that takes five seconds or more to close, the marker of a token outlives
the time in which the token is acceptable.
-/

namespace AnchorKit
namespace Sep10Jwt

open Fallible Procedure

/-- The contract's storage, and for each marker of a `jti` the ledger at which it is gone. -/
structure JtiState where
  storage : Storage
  liveUntil : KeyedStore Bytes ℕ

namespace JtiState

def empty : JtiState := ⟨.empty, .empty⟩

/-- What a call in the given ledger finds: the markers that are not gone. -/
def visible (s : JtiState) (sequence : UInt32) : Sep10Store :=
  { s.storage.sep10 with jtis := fun jti => (s.liveUntil.get jti).bind fun last =>
      if sequence.toNat < last then some (UInt32.ofNat (last - sequence.toNat)) else none }

/-- A new marker lives for the number of ledgers that it was extended to. -/
def settle (s : JtiState) (sequence : UInt32) (sep10 : Sep10Store) : JtiState where
  storage := { s.storage with sep10 := sep10 }
  liveUntil := fun jti =>
    match sep10.jtis.get jti with
    | some ttl =>
      if (s.visible sequence).jtis.has jti then s.liveUntil.get jti
      else some (sequence.toNat + ttl.toNat)
    | none => s.liveUntil.get jti

end JtiState

inductive JtiCall
  | initializeContract (admin : Address)
  | verify (token anchorPublicKey : Bytes) (expectedSub expectedIssuer : Option String)
  | setJwtSkew (skewSeconds : UInt64)
  | setJwtMaxLen (maxLen : UInt32)
deriving DecidableEq, Repr

/-- With an expected issuer the stricter entry point is called. -/
def verification (host : Host) (env : Env) (token anchorPublicKey : Bytes)
    (expectedSub expectedIssuer : Option String) : VerifyM Unit :=
  match expectedIssuer with
  | some issuer => verifySep10JwtWithIssuer host env token anchorPublicKey expectedSub issuer
  | none => verifySep10Jwt host env token anchorPublicKey expectedSub

/-- A rejected verification keeps what it has written. -/
def jtiStep (host : Host) (s : JtiState) : Env × JtiCall → Except Panic JtiState
  | (env, .verify token anchorPublicKey expectedSub expectedIssuer) => do
    let (_, sep10) ← (verification host env token anchorPublicKey expectedSub expectedIssuer).run.run
      (s.visible env.sequence)
    return s.settle env.sequence sep10
  | (env, .initializeContract admin) => do
    return { s with storage := ← AnchorKit.initializeContract env s.storage admin }
  | (env, .setJwtSkew skewSeconds) => do
    return { s with storage := ← setJwtSkew env s.storage skewSeconds }
  | (env, .setJwtMaxLen maxLen) => do
    return { s with storage := ← setJwtMaxLen env s.storage maxLen }

abbrev JtiTransition := Machine.Transition JtiState (Env × JtiCall)

def jtiHistory (host : Host) (calls : List (Env × JtiCall)) : List JtiTransition :=
  Machine.transitions (jtiStep host) .empty calls

/-- Time does not run backwards, and each ledger takes at least five seconds. -/
def Ticks (a b : Env × JtiCall) : Prop :=
  a.1.timestamp ≤ b.1.timestamp ∧ a.1.sequence ≤ b.1.sequence ∧
    5 * (b.1.sequence.toNat - a.1.sequence.toNat) ≤ b.1.timestamp.toNat - a.1.timestamp.toNat

instance (a b : Env × JtiCall) : Decidable (Ticks a b) := inferInstanceAs (Decidable (_ ∧ _ ∧ _))

def JtiTransition.Accepts (host : Host) (t : JtiTransition) (token : Bytes) : Prop :=
  ∃ anchorPublicKey expectedSub expectedIssuer st',
    t.input.2 = .verify token anchorPublicKey expectedSub expectedIssuer ∧
    Returns (verification host t.input.1 token anchorPublicKey expectedSub expectedIssuer)
      (t.pre.visible t.input.1.sequence) () st'

def tokenClaims (token : Bytes) : Option Claims :=
  match dots token with
  | [d0, d1] => (base64urlDecode ((token.take d1).drop (d0 + 1))).bind readClaims
  | _ => none

/-- The dates of an accepted token are consistent, in unbounded arithmetic. -/
structure Claims.Timely (c : Claims) (now skew : UInt64) : Prop where
  issued : c.iat.toNat ≤ now.toNat + skew.toNat
  unexpired : now.toNat < c.exp.toNat + skew.toNat
  ordered : c.iat.toNat ≤ c.exp.toNat
  lifetime : c.exp.toNat - c.iat.toNat ≤ 24 * 60 * 60

variable {host : Host} {env : Env} {s : JtiState} {st st' : Sep10Store} {c : Claims}

theorem tokenClaims_of_signed {token anchorPublicKey payload : Bytes}
    (hsigned : SignedPayload host st token anchorPublicKey payload) :
    tokenClaims token = readClaims payload := by
  obtain ⟨_, _, _, d0, d1, hdots, _, _, _, _, _, hpayload⟩ := hsigned
  simp only [tokenClaims, hdots, hpayload, Option.bind_some]

theorem timely_of_accepted {expectedSub : Option String} (h : c.Accepted env st expectedSub) :
    c.Timely env.timestamp (clockSkew st) := by
  obtain ⟨lifetime, hsub, hshort⟩ := h.lifetime
  have hunexpired := UInt64.lt_iff_toNat_lt.mp h.unexpired
  have hissued := UInt64.le_iff_toNat_le.mp h.issued
  have hshort := UInt64.le_iff_toNat_le.mp hshort
  rw [Word.checkedSub64_eq_some] at hsub
  rw [Word.toNat_saturatingAdd64] at hunexpired hissued
  have hmax : maxJwtLifetime.toNat = 86400 := rfl
  exact ⟨by omega, by omega, by omega, by omega⟩

/-- The lifetime of a marker, in seconds, exceeds what is left of the token by about ten minutes. -/
theorem markerTtl_ge {expectedSub : Option String} (h : c.Accepted env st expectedSub)
    (hskew : clockSkew st ≤ 300) :
    c.exp.toNat - env.timestamp.toNat + 596 ≤ 5 * (c.markerTtl env).toNat := by
  have htimely := timely_of_accepted h
  have hshort := htimely.lifetime
  have hissued := htimely.issued
  have hskew : (clockSkew st).toNat ≤ 300 := UInt64.le_iff_toNat_le.mp hskew
  have hremaining := Word.toNat_saturatingSub64 c.exp env.timestamp
  have hledgers : (Word.saturatingSub64 c.exp env.timestamp / 5).toUInt32.toNat =
      (c.exp.toNat - env.timestamp.toNat) / 5 := by
    have h5 : (5 : UInt64).toNat = 5 := rfl
    rw [UInt64.toNat_toUInt32, UInt64.toNat_div, hremaining, h5]
    omega
  have hbuffer : jtiTtlBufferLedgers.toNat = 120 := rfl
  have hsmall : (c.exp.toNat - env.timestamp.toNat) / 5 + 120 ≤ 2 ^ 32 - 1 := by omega
  have hlong : (c.exp.toNat - env.timestamp.toNat) / 5 + 120 ≤ (c.markerTtl env).toNat := by
    rw [Claims.markerTtl, Word.toNat_max32, Word.toNat_saturatingAdd32, hledgers, hbuffer,
      Nat.min_eq_left hsmall]
    exact Nat.le_max_left _ _
  omega

/-! ### Runs -/

theorem verification_outcome {token anchorPublicKey : Bytes} {expectedSub expectedIssuer : Option String}
    {r : Except Unit Unit}
    (h : (verification host env token anchorPublicKey expectedSub expectedIssuer).run.run st =
      .ok (r, st')) : st' = st ∨ ∃ c : Claims, st' = c.commit env st := by
  have hbase {t : Sep10Store}
      (hreturns : Returns (verifySep10Jwt host env token anchorPublicKey expectedSub) st () t) :
      ∃ c : Claims, t = c.commit env st := by
    obtain ⟨_, c, _, _, _, rfl⟩ := returns_verifySep10Jwt.mp hreturns
    exact ⟨c, rfl⟩
  cases expectedIssuer with
  | none =>
    cases r with
    | error e => exact Or.inl (restores_verifySep10Jwt _ _ _ st e st' h)
    | ok u => exact Or.inr (hbase h)
  | some issuer =>
    cases r with
    | ok u => exact Or.inr (hbase (returns_of_withIssuer h))
    | error e =>
      rcases rejects_withIssuer.mp h with ⟨_, rfl⟩ | ⟨_, _, hrejects | ⟨t, hreturns, hafter⟩⟩
      · exact Or.inl rfl
      · exact Or.inl (restores_verifySep10Jwt _ _ _ st () st' hrejects)
      · obtain rfl := readOnly_compareIssuer t _ st' hafter
        exact Or.inr (hbase hreturns)

theorem commit_jwtSkew (c : Claims) : (c.commit env st).jwtSkew = st.jwtSkew := by
  unfold Claims.commit
  split <;> rfl

theorem accepts_claims {t : JtiTransition} (ht : jtiStep host t.pre t.input = .ok t.post)
    {token : Bytes} (h : t.Accepts host token) :
    ∃ c expectedSub, tokenClaims token = some c ∧
      c.Accepted t.input.1 (t.pre.visible t.input.1.sequence) expectedSub ∧
      t.post = t.pre.settle t.input.1.sequence
        (c.commit t.input.1 (t.pre.visible t.input.1.sequence)) := by
  obtain ⟨s, ⟨env, call⟩, s'⟩ := t
  obtain ⟨anchorPublicKey, expectedSub, expectedIssuer, st', hcall, hreturns⟩ := h
  dsimp only at *
  subst hcall
  have hbase : Returns (verifySep10Jwt host env token anchorPublicKey expectedSub)
      (s.visible env.sequence) () st' := by
    cases expectedIssuer with
    | none => exact hreturns
    | some issuer => exact returns_of_withIssuer hreturns
  obtain ⟨payload, c, hsigned, hclaims, hc, rfl⟩ := returns_verifySep10Jwt.mp hbase
  simp only [jtiStep, bind_eq_ok, pure_eq_ok] at ht
  obtain ⟨⟨r, sep10⟩, hrun, rfl⟩ := ht
  obtain ⟨_, rfl⟩ := Prod.mk.inj (Except.ok.inj (hrun.symm.trans hreturns))
  exact ⟨c, expectedSub, (tokenClaims_of_signed hsigned).trans hclaims, hc, rfl⟩

theorem get_visible (sequence : UInt32) (jti : Bytes) :
    (s.visible sequence).jtis.has jti = true ↔
      ∃ last, s.liveUntil.get jti = some last ∧ sequence.toNat < last := by
  rw [KeyedStore.has_iff]
  unfold JtiState.visible KeyedStore.get
  simp only [Option.bind_eq_some_iff]
  constructor
  · rintro ⟨_, last, hlast, hvisible⟩
    split at hvisible
    · rename_i hlt
      exact ⟨last, hlast, hlt⟩
    · cases hvisible
  · rintro ⟨last, hlast, hlt⟩
    exact ⟨_, last, hlast, if_pos hlt⟩

theorem settle_liveUntil (sequence : UInt32) (sep10 : Sep10Store) {jti : Bytes} {last : ℕ}
    (h : s.liveUntil.get jti = some last) :
    ∃ last', (s.settle sequence sep10).liveUntil.get jti = some last' ∧ last ≤ last' := by
  have hget : (s.settle sequence sep10).liveUntil.get jti = (match sep10.jtis.get jti with
      | some ttl => if (s.visible sequence).jtis.has jti then s.liveUntil.get jti
        else some (sequence.toNat + ttl.toNat)
      | none => s.liveUntil.get jti) := rfl
  rw [hget]
  split
  · split
    · exact ⟨last, h, le_rfl⟩
    · rename_i hgone
      have hpast : ¬ sequence.toNat < last := fun hlt => hgone (get_visible _ _ |>.mpr ⟨last, h, hlt⟩)
      exact ⟨_, rfl, by omega⟩
  · exact ⟨last, h, le_rfl⟩

/-- The marker of a `jti` that was not visible lives for its lifetime. -/
theorem settle_commit {sequence : UInt32} {jti : Bytes} (hjti : c.jti = some jti)
    (hfree : (s.visible sequence).jtis.has jti = false) :
    (s.settle sequence (c.commit env (s.visible sequence))).liveUntil.get jti =
      some (sequence.toNat + (c.markerTtl env).toNat) := by
  have hget : (c.commit env (s.visible sequence)).jtis.get jti = some (c.markerTtl env) := by
    simp [Claims.commit, hjti]
  have hsettled : (s.settle sequence (c.commit env (s.visible sequence))).liveUntil.get jti =
      (match (c.commit env (s.visible sequence)).jtis.get jti with
      | some ttl => if (s.visible sequence).jtis.has jti then s.liveUntil.get jti
        else some (sequence.toNat + ttl.toNat)
      | none => s.liveUntil.get jti) := rfl
  rw [hsettled, hget]
  simp [hfree]

/-- Of every accepted token with a `jti` the marker is there for as long as it was given, and the
clock skew is within its limit. -/
structure JtisTraced (host : Host) (past : List JtiTransition) (s : JtiState) : Prop where
  skew_le : clockSkew s.storage.sep10 ≤ 300
  marked : ∀ t ∈ past, ∀ token c jti, t.Accepts host token → tokenClaims token = some c →
    c.jti = some jti → ∃ last, s.liveUntil.get jti = some last ∧
      t.input.1.sequence.toNat + (c.markerTtl t.input.1).toNat ≤ last

/-- No call cuts a marker short. -/
theorem liveUntil_of_step {t : JtiTransition} (ht : jtiStep host t.pre t.input = .ok t.post)
    {jti : Bytes} {last : ℕ} (hlast : t.pre.liveUntil.get jti = some last) :
    ∃ last', t.post.liveUntil.get jti = some last' ∧ last ≤ last' := by
  obtain ⟨s, ⟨env, call⟩, s'⟩ := t
  dsimp only at *
  cases call with
  | verify token anchorPublicKey expectedSub expectedIssuer =>
    simp only [jtiStep, bind_eq_ok, pure_eq_ok] at ht
    obtain ⟨⟨r, sep10⟩, _, rfl⟩ := ht
    exact settle_liveUntil _ _ hlast
  | initializeContract admin =>
    simp only [jtiStep, bind_eq_ok, pure_eq_ok] at ht
    obtain ⟨_, _, rfl⟩ := ht
    exact ⟨last, hlast, le_rfl⟩
  | setJwtSkew skewSeconds =>
    simp only [jtiStep, bind_eq_ok, pure_eq_ok] at ht
    obtain ⟨_, _, rfl⟩ := ht
    exact ⟨last, hlast, le_rfl⟩
  | setJwtMaxLen maxLen =>
    simp only [jtiStep, bind_eq_ok, pure_eq_ok] at ht
    obtain ⟨_, _, rfl⟩ := ht
    exact ⟨last, hlast, le_rfl⟩

theorem clockSkew_of_step {t : JtiTransition} (ht : jtiStep host t.pre t.input = .ok t.post)
    (hpre : clockSkew t.pre.storage.sep10 ≤ 300) : clockSkew t.post.storage.sep10 ≤ 300 := by
  obtain ⟨s, ⟨env, call⟩, s'⟩ := t
  dsimp only at *
  cases call with
  | verify token anchorPublicKey expectedSub expectedIssuer =>
    simp only [jtiStep, bind_eq_ok, pure_eq_ok] at ht
    obtain ⟨⟨r, sep10⟩, hrun, rfl⟩ := ht
    have hsame : sep10.jwtSkew = s.storage.sep10.jwtSkew := by
      rcases verification_outcome hrun with rfl | ⟨c, rfl⟩
      · rfl
      · exact commit_jwtSkew c
    unfold clockSkew at hpre ⊢
    rw [JtiState.settle, hsame]
    exact hpre
  | initializeContract admin =>
    simp only [jtiStep, bind_eq_ok, pure_eq_ok] at ht
    obtain ⟨_, hinitialized, rfl⟩ := ht
    obtain ⟨_, _, rfl⟩ := initializeContract_frame hinitialized
    exact hpre
  | setJwtSkew skewSeconds =>
    simp only [jtiStep, AnchorKit.setJwtSkew, bind_eq_ok, pure_eq_ok, require_eq_ok] at ht
    obtain ⟨_, ⟨_, _, _, hlimit, rfl⟩, rfl⟩ := ht
    exact hlimit
  | setJwtMaxLen maxLen =>
    simp only [jtiStep, AnchorKit.setJwtMaxLen, bind_eq_ok, pure_eq_ok] at ht
    obtain ⟨_, ⟨_, _, _, _, rfl⟩, rfl⟩ := ht
    exact hpre

theorem jtisTraced_of_step {past : List JtiTransition} {t : JtiTransition}
    (ht : jtiStep host t.pre t.input = .ok t.post) (hpre : JtisTraced host past t.pre) :
    JtisTraced host (past ++ [t]) t.post := by
  refine ⟨clockSkew_of_step ht hpre.skew_le, fun u hu token c jti haccepts hclaims hjti => ?_⟩
  rcases Machine.mem_snoc.mp hu with hold | rfl
  · obtain ⟨last, hlast, hle⟩ := hpre.marked u hold token c jti haccepts hclaims hjti
    obtain ⟨last', hlast', hle'⟩ := liveUntil_of_step ht hlast
    exact ⟨last', hlast', hle.trans hle'⟩
  · obtain ⟨c', expectedSub, hclaims', hc, hpost⟩ := accepts_claims ht haccepts
    obtain rfl := Option.some.inj (hclaims.symm.trans hclaims')
    rw [hpost]
    exact ⟨_, settle_commit hjti (hc.unused jti hjti).2, le_rfl⟩

theorem jtisTraced_run (host : Host) (calls : List (Env × JtiCall)) :
    JtisTraced host (jtiHistory host calls) (Machine.run (jtiStep host) .empty calls) := by
  apply Machine.history_invariant _ _ (fun _ => True)
  · refine ⟨?_, by simp⟩
    decide
  · exact fun past t ht hpre _ => jtisTraced_of_step ht hpre
  · exact fun _ _ => trivial

/-- A token with a `jti` that was accepted is not accepted again: as long as it is acceptable its
marker is there. -/
theorem not_accepts_again {past : List JtiTransition} {t u : JtiTransition} {token : Bytes}
    (hpre : JtisTraced host past u.pre) (hu : jtiStep host u.pre u.input = .ok u.post)
    (ht : t ∈ past) (htstep : jtiStep host t.pre t.input = .ok t.post)
    (hskew : clockSkew t.pre.storage.sep10 ≤ 300) (htick : Ticks t.input u.input)
    (hfirst : t.Accepts host token) (hclaims : tokenClaims token = some c) (hjti : c.jti ≠ none) :
    ¬ u.Accepts host token := by
  intro hsecond
  obtain ⟨jti, hjti⟩ := Option.ne_none_iff_exists'.mp hjti
  obtain ⟨last, hlast, hmarked⟩ := hpre.marked t ht token c jti hfirst hclaims hjti
  obtain ⟨d, _, hd, hdt, _⟩ := accepts_claims htstep hfirst
  obtain rfl := Option.some.inj (hclaims.symm.trans hd)
  obtain ⟨d', _, hd', hdu, _⟩ := accepts_claims hu hsecond
  obtain rfl := Option.some.inj (hclaims.symm.trans hd')
  have houtlives := markerTtl_ge hdt hskew
  have hunexpired := (timely_of_accepted hdu).unexpired
  have hlimit : (clockSkew u.pre.storage.sep10).toNat ≤ 300 :=
    UInt64.le_iff_toNat_le.mp hpre.skew_le
  -- the second call does not find the marker, so its ledger comes after the marker's last
  have hgone : ¬ u.input.1.sequence.toNat < last := by
    intro hlt
    have hhas := (get_visible u.input.1.sequence jti).mpr ⟨last, hlast, hlt⟩
    rw [(hdu.unused jti hjti).2] at hhas
    cases hhas
  obtain ⟨htime, hledger, hclose⟩ := htick
  have htime := UInt64.le_iff_toNat_le.mp htime
  have hsame : clockSkew (u.pre.visible u.input.1.sequence) = clockSkew u.pre.storage.sep10 := rfl
  rw [hsame] at hunexpired
  omega

/-- A token with a `jti` is accepted at most once in a run, and the dates of every accepted token
are consistent. -/
theorem jti_accepted_once (host : Host) (calls : List (Env × JtiCall))
    (hticks : calls.Pairwise Ticks) :
    ((jtiHistory host calls).Pairwise fun t u => ∀ token c, tokenClaims token = some c →
      c.jti ≠ none → ¬ (t.Accepts host token ∧ u.Accepts host token)) ∧
    ∀ t ∈ jtiHistory host calls, ∀ token, t.Accepts host token → ∃ c, tokenClaims token = some c ∧
      c.Timely t.input.1.timestamp (clockSkew t.pre.storage.sep10) := by
  constructor
  · rw [← Machine.atEachStep_forall_mem]
    intro before u after hsplit t ht token c hclaims hjti
    rintro ⟨hfirst, hsecond⟩
    obtain ⟨js, ks, _, hpre, hbefore⟩ := Machine.exists_prefix_of_transitions_eq _ hsplit
    have htraced := jtisTraced_run host js
    rw [jtiHistory, hbefore, hpre] at htraced
    have hticked := Machine.atEachStep_of_pairwise (jtiStep host) hticks before u after hsplit t ht
    have hmem {v : JtiTransition} (hv : v ∈ before ++ [u]) : v ∈ jtiHistory host calls := by
      rw [hsplit, List.append_cons]
      exact List.mem_append_left _ hv
    have htmem := hmem (List.mem_append_left _ ht)
    have humem := hmem (List.mem_append_right _ (List.mem_singleton_self u))
    obtain ⟨js', _, _, htpre⟩ := Machine.exists_prefix_of_mem_transitions _ htmem
    have hskew := (jtisTraced_run host js').skew_le
    rw [htpre] at hskew
    exact not_accepts_again htraced (Machine.step_of_mem_transitions _ humem) ht
      (Machine.step_of_mem_transitions _ htmem) hskew hticked hfirst hclaims hjti hsecond
  · intro t ht token haccepts
    have hstep := Machine.step_of_mem_transitions _ ht
    obtain ⟨c, _, hclaims, hc, _⟩ := accepts_claims hstep haccepts
    have htimely := timely_of_accepted hc
    exact ⟨c, hclaims, htimely⟩

end Sep10Jwt

namespace Demo

/-- The token is presented three times: as it is issued, a ledger later, and as the longest clock
skew runs out. -/
def threePresentations : List (Env × Sep10Jwt.JtiCall) :=
  let present := Sep10Jwt.JtiCall.verify sep10Token (List.replicate 32 0) none none
  [(⟨900, 80, [⟨"GADMIN"⟩]⟩, .initializeContract ⟨"GADMIN"⟩),
    (⟨900, 80, [⟨"GADMIN"⟩]⟩, .setJwtSkew 300), (⟨1000, 100, []⟩, present),
    (⟨1005, 101, []⟩, present), (⟨1355, 171, []⟩, present)]

end Demo

/-- The first presentation is accepted and leaves its marker, and no other one is accepted. -/
theorem jti_accepted_once_of_three :
    (Machine.run (Sep10Jwt.jtiStep Demo.trustingHost) .empty Demo.threePresentations).liveUntil.get
        [0x6E, 0x31] = some 232 ∧
      ((Sep10Jwt.jtiHistory Demo.trustingHost Demo.threePresentations).Pairwise fun t u =>
        ∀ token c, Sep10Jwt.tokenClaims token = some c → c.jti ≠ none →
          ¬ (t.Accepts Demo.trustingHost token ∧ u.Accepts Demo.trustingHost token)) ∧
      ∀ t ∈ Sep10Jwt.jtiHistory Demo.trustingHost Demo.threePresentations, ∀ token,
        t.Accepts Demo.trustingHost token → ∃ c, Sep10Jwt.tokenClaims token = some c ∧
          c.Timely t.input.1.timestamp (Sep10Jwt.clockSkew t.pre.storage.sep10) :=
  ⟨by decide +kernel,
    Sep10Jwt.jti_accepted_once Demo.trustingHost Demo.threePresentations (by decide)⟩

end AnchorKit
