import AnchorKit.Contract

/-!
# The KYC gate

A stored record is the outcome of the committed calls about its subject. `KycTrail` says which
calls these were and how each review built on the record before it; the status read at any later
time follows from the last of them.
-/

namespace AnchorKit

open Fallible

def Call.kycSubject : Call → Option Address
  | .submitKyc subject _ _ | .approveKyc _ subject | .rejectKyc _ subject _
  | .reopenKyc _ subject => some subject
  | _ => none

/-- The documented edges of the status machine. -/
inductive KycStatus.Edge : KycStatus → KycStatus → Prop
  | submit : Edge .notSubmitted .pending
  | renew : Edge .expired .pending
  | resubmit : Edge .rejected .pending
  | resubmitReopened : Edge .reopened .pending
  | approve : Edge .pending .approved
  | reject : Edge .pending .rejected
  | reopen : Edge .rejected .reopened

theorem edge_of_validateKycTransition {current next : KycStatus} {record : KycRecord}
    {now : UInt64} (h : validateKycTransition current next record now = true) :
    current.Edge next := by
  unfold validateKycTransition at h
  split at h
  · cases h
  · cases current <;> cases next <;> first | constructor | cases h

namespace KycStatus.Edge

variable {current : KycStatus}

theorem into_approved (h : current.Edge .approved) : current = .pending := by
  cases h
  rfl

theorem into_rejected (h : current.Edge .rejected) : current = .pending := by
  cases h
  rfl

theorem into_reopened (h : current.Edge .reopened) : current = .rejected := by
  cases h
  rfl

end KycStatus.Edge

structure KycReviewer (env : Env) (s : Storage) (operator : Address) : Prop where
  allowed : hasRoleInternal s operator .kycAdmin = true ∨
    hasCapabilityInternal s operator .manageKyc = true
  signed : operator ∈ env.authorized

inductive KycMove (env : Env) (s : Storage) (subject : Address) : Call → KycRecord → Prop
  | submitted {dataHash : Bytes} {attestor : Address} (hsigned : attestor ∈ env.authorized)
      (hregistered : s.registry.attestor.has attestor = true)
      (hedge : (getKycStatusInternal env s subject).Edge .pending) :
      KycMove env s subject (.submitKyc subject dataHash attestor)
        (.submitted subject env.timestamp)
  | approved {operator : Address} {record : KycRecord} {expiry : UInt64}
      (hreviewer : KycReviewer env s operator) (hfile : s.kyc.record.get subject = some record)
      (hedge : currentKycStatus env record = .pending)
      (hexpiry : env.timestamp.toNat + kycExpirySeconds.toNat = expiry.toNat) :
      KycMove env s subject (.approveKyc operator subject) (record.approved env.timestamp expiry)
  | rejected {operator : Address} {record : KycRecord} {reasonHash : Bytes}
      (hreviewer : KycReviewer env s operator) (hfile : s.kyc.record.get subject = some record)
      (hedge : currentKycStatus env record = .pending) :
      KycMove env s subject (.rejectKyc operator subject reasonHash)
        (record.rejected env.timestamp reasonHash)
  | reopened {operator : Address} {record : KycRecord}
      (hreviewer : KycReviewer env s operator) (hfile : s.kyc.record.get subject = some record)
      (hedge : currentKycStatus env record = .rejected) :
      KycMove env s subject (.reopenKyc operator subject) (record.reopened env.timestamp)

theorem edge_of_checkResubmission {env : Env} {s : Storage} {subject : Address}
    (h : checkResubmission env s subject = .ok ()) :
    (getKycStatusInternal env s subject).Edge .pending := by
  unfold checkResubmission at h
  unfold getKycStatusInternal
  cases hfile : s.kyc.record.get subject with
  | none => exact .submit
  | some record =>
    rw [hfile, require_eq_ok] at h
    exact edge_of_validateKycTransition h

theorem kycReviewer_of_ok {env : Env} {s : Storage} {operator : Address}
    (h : requireKycReviewer env s operator = .ok ()) : KycReviewer env s operator := by
  rw [requireKycReviewer_eq_ok] at h
  exact ⟨h.1, h.2⟩

/-- A committed call either is no KYC call and leaves the records alone, or rewrites the record of
its subject. -/
theorem kyc_step {host : Host} {s s' : Storage} {i : Input} (h : step host s i = .ok s') :
    (i.2.kycSubject = none ∧ s'.kyc = s.kyc) ∨
      ∃ subject record, i.2.kycSubject = some subject ∧ KycMove i.1 s subject i.2 record ∧
        s'.kyc.record = s.kyc.record.set subject record := by
  obtain ⟨env, c⟩ := i
  change invoke host env s c = .ok s' at h
  by_cases hc : .kyc ∈ c.touches
  · right
    cases c with
    | submitKyc subject dataHash attestor =>
      obtain ⟨hsigned, hregistered, hcheck, _, _, rfl⟩ := submitKyc_effects h
      exact ⟨subject, _, rfl,
        .submitted hsigned hregistered (edge_of_checkResubmission hcheck), rfl⟩
    | approveKyc operator subject =>
      obtain ⟨hreviewer, record, expiry, hfile, hvalid, hexpiry, _, _, rfl⟩ := approveKyc_effects h
      have hedge := (edge_of_validateKycTransition hvalid).into_approved
      exact ⟨subject, _, rfl,
        .approved (kycReviewer_of_ok hreviewer) hfile hedge hexpiry, rfl⟩
    | rejectKyc operator subject reasonHash =>
      obtain ⟨hreviewer, record, hfile, hvalid, _, _, rfl⟩ := rejectKyc_effects h
      have hedge := (edge_of_validateKycTransition hvalid).into_rejected
      exact ⟨subject, _, rfl, .rejected (kycReviewer_of_ok hreviewer) hfile hedge, rfl⟩
    | reopenKyc operator subject =>
      obtain ⟨hreviewer, record, hfile, hvalid, _, _, rfl⟩ := reopenKyc_effects h
      have hedge := (edge_of_validateKycTransition hvalid).into_reopened
      rw [requireAdminOrRole_eq_ok] at hreviewer
      exact ⟨subject, _, rfl, .reopened ⟨.inl hreviewer.1, hreviewer.2⟩ hfile hedge, rfl⟩
    | _ => exact absurd hc (by simp [Call.touches])
  · left
    refine ⟨?_, (invoke_sameOutside h).kyc_eq hc⟩
    cases c with
    | submitKyc | approveKyc | rejectKyc | reopenKyc => exact absurd (by simp [Call.touches]) hc
    | _ => rfl

theorem getKycStatusInternal_of_file {env : Env} {s : Storage} {subject : Address}
    {record : KycRecord} (hfile : s.kyc.record.get subject = some record) :
    getKycStatusInternal env s subject = currentKycStatus env record := by
  rw [getKycStatusInternal, hfile]

theorem edge_of_kycMove {env : Env} {s s' : Storage} {subject : Address} {c : Call}
    {record : KycRecord} (h : KycMove env s subject c record)
    (hset : s'.kyc.record = s.kyc.record.set subject record) :
    (getKycStatusInternal env s subject).Edge (getKycStatusInternal env s' subject) := by
  have hfiled : s'.kyc.record.get subject = some record := by
    rw [hset, KeyedStore.get_set_self]
  rw [getKycStatusInternal_of_file hfiled]
  cases h with
  | submitted hsigned hregistered hedge => exact hedge
  | approved hreviewer hfile hedge hexpiry =>
    rename_i operator old expiry
    have hnow : ¬ expiry < env.timestamp := by
      rw [UInt64.lt_iff_toNat_lt]
      omega
    have hstatus : currentKycStatus env (old.approved env.timestamp expiry) = .approved := by
      simp only [currentKycStatus, KycRecord.approved, if_neg hnow]
      rfl
    rw [getKycStatusInternal_of_file hfile, hedge, hstatus]
    exact .approve
  | rejected hreviewer hfile hedge =>
    rw [getKycStatusInternal_of_file hfile, hedge]
    exact .reject
  | reopened hreviewer hfile hedge =>
    rename_i operator old
    have hstatus : currentKycStatus env (old.reopened env.timestamp) = .reopened := by
      simp only [currentKycStatus, KycRecord.reopened]
      cases hexpiry : old.expiry with
      | none => rfl
      | some expiry =>
        by_cases hpast : expiry < env.timestamp
        · simp [currentKycStatus, hexpiry, hpast] at hedge
        · simp only [if_neg hpast]
          rfl
    rw [getKycStatusInternal_of_file hfile, hedge, hstatus]
    exact .reopen

/-- None of the calls is a KYC call about the subject. -/
def KycQuiet (subject : Address) (calls : List Transition) : Prop :=
  ∀ t ∈ calls, t.input.2.kycSubject ≠ some subject

theorem KycQuiet.snoc {subject : Address} {calls : List Transition} {t : Transition}
    (h : KycQuiet subject calls) (ht : t.input.2.kycSubject ≠ some subject) :
    KycQuiet subject (calls ++ [t]) :=
  Machine.forall_mem_snoc.mpr ⟨h, ht⟩

/-- The calls that led to a record: a submission, then the reviews that built on it, with no
other call about the subject in between or since. -/
inductive KycTrail (subject : Address) : List Transition → KycRecord → Prop
  | submitted {before after : List Transition} {t : Transition} {dataHash : Bytes}
      {attestor : Address} (hcall : t.input.2 = .submitKyc subject dataHash attestor)
      (hquiet : KycQuiet subject after) :
      KycTrail subject (before ++ t :: after) (.submitted subject t.input.1.timestamp)
  | approved {before after : List Transition} {t : Transition} {operator : Address}
      {record : KycRecord} {expiry : UInt64} (hearlier : KycTrail subject before record)
      (hpending : record.status = KycStatus.pending.toU32)
      (hcall : t.input.2 = .approveKyc operator subject)
      (hreviewer : KycReviewer t.input.1 t.pre operator)
      (hexpiry : t.input.1.timestamp.toNat + kycExpirySeconds.toNat = expiry.toNat)
      (hquiet : KycQuiet subject after) :
      KycTrail subject (before ++ t :: after) (record.approved t.input.1.timestamp expiry)
  | rejected {before after : List Transition} {t : Transition} {operator : Address}
      {reasonHash : Bytes} {record : KycRecord} (hearlier : KycTrail subject before record)
      (hpending : record.status = KycStatus.pending.toU32)
      (hcall : t.input.2 = .rejectKyc operator subject reasonHash)
      (hreviewer : KycReviewer t.input.1 t.pre operator) (hquiet : KycQuiet subject after) :
      KycTrail subject (before ++ t :: after) (record.rejected t.input.1.timestamp reasonHash)
  | reopened {before after : List Transition} {t : Transition} {operator : Address}
      {record : KycRecord} (hearlier : KycTrail subject before record)
      (hrejected : record.status = KycStatus.rejected.toU32)
      (hcall : t.input.2 = .reopenKyc operator subject)
      (hreviewer : KycReviewer t.input.1 t.pre operator) (hquiet : KycQuiet subject after) :
      KycTrail subject (before ++ t :: after) (record.reopened t.input.1.timestamp)

section Trail

variable {subject : Address} {past : List Transition} {record : KycRecord}

/-- A call about someone else leaves the trail as it is. -/
theorem KycTrail.quiet (h : KycTrail subject past record) {t : Transition}
    (ht : t.input.2.kycSubject ≠ some subject) : KycTrail subject (past ++ [t]) record := by
  cases h with
  | submitted hcall hquiet =>
    rw [List.append_assoc, List.cons_append]
    exact .submitted hcall (hquiet.snoc ht)
  | approved hearlier hpending hcall hreviewer hexpiry hquiet =>
    rw [List.append_assoc, List.cons_append]
    exact .approved hearlier hpending hcall hreviewer hexpiry (hquiet.snoc ht)
  | rejected hearlier hpending hcall hreviewer hquiet =>
    rw [List.append_assoc, List.cons_append]
    exact .rejected hearlier hpending hcall hreviewer (hquiet.snoc ht)
  | reopened hearlier hrejected hcall hreviewer hquiet =>
    rw [List.append_assoc, List.cons_append]
    exact .reopened hearlier hrejected hcall hreviewer (hquiet.snoc ht)

/-- The status on file is the effective one, unless that is `Expired`. -/
theorem status_of_current {env : Env} {status : KycStatus}
    (h : currentKycStatus env record = status) (hlive : status ≠ .expired) :
    KycStatus.fromU32 record.status = status := by
  unfold currentKycStatus at h
  split at h
  · split at h
    · exact absurd h.symm hlive
    · exact h
  · exact h

theorem toU32_of_fromU32 {v : UInt32} {status : KycStatus} (h : KycStatus.fromU32 v = status)
    (hsubmitted : status ≠ .notSubmitted) : v = status.toU32 := by
  unfold KycStatus.fromU32 at h
  split_ifs at h with h1 h2 h3 h4 h5
  all_goals subst h
  · exact h1
  · exact h2
  · exact h3
  · exact h4
  · exact h5
  · exact absurd rfl hsubmitted

theorem pending_of_current {env : Env} (h : currentKycStatus env record = .pending) :
    record.status = KycStatus.pending.toU32 :=
  toU32_of_fromU32 (status_of_current h nofun) nofun

theorem rejected_of_current {env : Env} (h : currentKycStatus env record = .rejected) :
    record.status = KycStatus.rejected.toU32 :=
  toU32_of_fromU32 (status_of_current h nofun) nofun

theorem KycMove.trail {t : Transition} (hmove : KycMove t.input.1 t.pre subject t.input.2 record)
    (hearlier : ∀ old, t.pre.kyc.record.get subject = some old → KycTrail subject past old) :
    KycTrail subject (past ++ [t]) record := by
  have hnone : KycQuiet subject [] := by
    intro u hu
    cases hu
  obtain ⟨pre, ⟨env, c⟩, post⟩ := t
  dsimp only at hmove hearlier
  cases hmove with
  | submitted hsigned hregistered hedge => exact .submitted rfl hnone
  | approved hreviewer hfile hedge hexpiry =>
    exact .approved (hearlier _ hfile) (pending_of_current hedge) rfl hreviewer hexpiry hnone
  | rejected hreviewer hfile hedge =>
    exact .rejected (hearlier _ hfile) (pending_of_current hedge) rfl hreviewer hnone
  | reopened hreviewer hfile hedge =>
    exact .reopened (hearlier _ hfile) (rejected_of_current hedge) rfl hreviewer hnone

end Trail

/-- Every record on file has its trail. -/
def KycTraced (past : List Transition) (s : Storage) : Prop :=
  ∀ subject record, s.kyc.record.get subject = some record → KycTrail subject past record

theorem kycTraced_run (host : Host) (is : List Input) :
    KycTraced (history host is) (run host is) := by
  apply Machine.history_invariant (step host) KycTraced (fun _ => True)
  · intro subject record h
    cases h
  · intro past t ht hpre _ subject record hfile
    rcases kyc_step ht with ⟨hother, hsame⟩ | ⟨about, new, habout, hmove, hset⟩
    · rw [hsame] at hfile
      exact (hpre subject record hfile).quiet (by simp [hother])
    · rw [hset, KeyedStore.get_set] at hfile
      by_cases hsubject : subject = about
      · subst hsubject
        rw [if_pos rfl] at hfile
        obtain rfl := Option.some.inj hfile
        exact hmove.trail (hpre subject)
      · rw [if_neg hsubject] at hfile
        refine (hpre subject record hfile).quiet ?_
        rw [habout]
        exact fun heq => hsubject (Option.some.inj heq).symm
  · exact fun _ _ => trivial

/-- The subject's latest submission was committed at `time`. -/
def LastSubmittedAt (subject : Address) (past : List Transition) (time : UInt64) : Prop :=
  ∃ before t after dataHash attestor, past = before ++ t :: after ∧
    t.input.2 = .submitKyc subject dataHash attestor ∧ t.input.1.timestamp = time ∧
    ∀ u ∈ after, ∀ dataHash attestor, u.input.2 ≠ .submitKyc subject dataHash attestor

/-- The fields that the status of a record calls for, after the call that wrote it. -/
def KycRecord.Reflects (record : KycRecord) (subject : Address) (t : Transition) : Prop :=
  match KycStatus.fromU32 record.status with
  | .pending => (∃ dataHash attestor, t.input.2 = .submitKyc subject dataHash attestor) ∧
      record.reviewedAt = none ∧ record.expiry = none ∧ record.rejectionReasonHash = none
  | .approved => (∃ operator, t.input.2 = .approveKyc operator subject ∧
        KycReviewer t.input.1 t.pre operator) ∧
      record.reviewedAt = some t.input.1.timestamp ∧ record.rejectionReasonHash = none ∧
      ∃ expiry, record.expiry = some expiry ∧
        t.input.1.timestamp.toNat + kycExpirySeconds.toNat = expiry.toNat
  | .rejected => (∃ operator reasonHash, t.input.2 = .rejectKyc operator subject reasonHash ∧
        KycReviewer t.input.1 t.pre operator ∧ record.rejectionReasonHash = some reasonHash) ∧
      record.reviewedAt = some t.input.1.timestamp ∧ record.expiry = none
  | .reopened => (∃ operator, t.input.2 = .reopenKyc operator subject ∧
        KycReviewer t.input.1 t.pre operator) ∧
      record.reviewedAt = some t.input.1.timestamp ∧ record.expiry = none ∧
      ∃ reasonHash, record.rejectionReasonHash = some reasonHash
  | .notSubmitted | .expired => False

/-- The record names its subject, dates its submission, and reflects the last call about it. -/
structure KycRecord.Consistent (subject : Address) (past : List Transition) (record : KycRecord) :
    Prop where
  subject_eq : record.subject = subject
  submitted : LastSubmittedAt subject past record.submittedAt
  latest : ∃ before t after, past = before ++ t :: after ∧ KycQuiet subject after ∧
    record.Reflects subject t

/-- An approval of the latest submission that nothing has superseded and that has not run out. -/
def ApprovalInForce (subject : Address) (past : List Transition) (now : UInt64) : Prop :=
  ∃ before submission middle approval after dataHash attestor operator,
    past = before ++ submission :: (middle ++ approval :: after) ∧
    submission.input.2 = .submitKyc subject dataHash attestor ∧
    approval.input.2 = .approveKyc operator subject ∧
    KycReviewer approval.input.1 approval.pre operator ∧
    KycQuiet subject middle ∧ KycQuiet subject after ∧
    now.toNat ≤ approval.input.1.timestamp.toNat + kycExpirySeconds.toNat

section Reading

variable {subject : Address} {past before after : List Transition} {t : Transition}
  {record : KycRecord}

theorem KycQuiet.not_submits (h : KycQuiet subject past) :
    ∀ u ∈ past, ∀ dataHash attestor, u.input.2 ≠ .submitKyc subject dataHash attestor := by
  intro u hu dataHash attestor hcall
  exact h u hu (by rw [hcall]; rfl)

/-- A later review does not date the submission anew. -/
theorem LastSubmittedAt.reviewed {time : UInt64} (h : LastSubmittedAt subject before time)
    (ht : ∀ dataHash attestor, t.input.2 ≠ .submitKyc subject dataHash attestor)
    (hquiet : KycQuiet subject after) : LastSubmittedAt subject (before ++ t :: after) time := by
  obtain ⟨first, submission, rest, dataHash, attestor, rfl, hcall, htime, hrest⟩ := h
  refine ⟨first, submission, rest ++ t :: after, dataHash, attestor, by simp, hcall, htime, ?_⟩
  intro u hu
  rcases List.mem_append.mp hu with hu | hu
  · exact hrest u hu
  · rcases List.mem_cons.mp hu with rfl | hu
    · exact ht
    · exact hquiet.not_submits u hu

theorem KycTrail.lastSubmittedAt (h : KycTrail subject past record) :
    LastSubmittedAt subject past record.submittedAt := by
  induction h with
  | submitted hcall hquiet => exact ⟨_, _, _, _, _, rfl, hcall, rfl, hquiet.not_submits⟩
  | approved hearlier hpending hcall hreviewer hexpiry hquiet ih =>
    exact ih.reviewed (by simp [hcall]) hquiet
  | rejected hearlier hpending hcall hreviewer hquiet ih =>
    exact ih.reviewed (by simp [hcall]) hquiet
  | reopened hearlier hrejected hcall hreviewer hquiet ih =>
    exact ih.reviewed (by simp [hcall]) hquiet

theorem KycTrail.subject_eq (h : KycTrail subject past record) : record.subject = subject := by
  induction h with
  | submitted hcall hquiet => rfl
  | approved hearlier hpending hcall hreviewer hexpiry hquiet ih => exact ih
  | rejected hearlier hpending hcall hreviewer hquiet ih => exact ih
  | reopened hearlier hrejected hcall hreviewer hquiet ih => exact ih

/-- A pending record is its submission, which nothing has followed. -/
theorem KycTrail.of_pending (h : KycTrail subject past record)
    (hpending : record.status = KycStatus.pending.toU32) :
    ∃ before t after dataHash attestor, past = before ++ t :: after ∧
      t.input.2 = .submitKyc subject dataHash attestor ∧ KycQuiet subject after ∧
      record = .submitted subject t.input.1.timestamp := by
  cases h with
  | submitted hcall hquiet => exact ⟨_, _, _, _, _, rfl, hcall, hquiet, rfl⟩
  | approved => cases hpending
  | rejected => cases hpending
  | reopened => cases hpending

theorem KycTrail.reason_of_rejected (h : KycTrail subject past record)
    (hrejected : record.status = KycStatus.rejected.toU32) :
    record.expiry = none ∧ ∃ reasonHash, record.rejectionReasonHash = some reasonHash := by
  cases h with
  | submitted => cases hrejected
  | approved => cases hrejected
  | rejected => exact ⟨rfl, _, rfl⟩
  | reopened => cases hrejected

theorem KycTrail.latest (h : KycTrail subject past record) :
    ∃ before t after, past = before ++ t :: after ∧ KycQuiet subject after ∧
      record.Reflects subject t := by
  cases h with
  | submitted hcall hquiet =>
    exact ⟨_, _, _, rfl, hquiet, ⟨_, _, hcall⟩, rfl, rfl, rfl⟩
  | approved hearlier hpending hcall hreviewer hexpiry hquiet =>
    obtain ⟨_, _, _, _, _, _, _, _, rfl⟩ := hearlier.of_pending hpending
    exact ⟨_, _, _, rfl, hquiet, ⟨_, hcall, hreviewer⟩, rfl, rfl, _, rfl, hexpiry⟩
  | rejected hearlier hpending hcall hreviewer hquiet =>
    exact ⟨_, _, _, rfl, hquiet, ⟨_, _, hcall, hreviewer, rfl⟩, rfl, rfl⟩
  | reopened hearlier hrejected hcall hreviewer hquiet =>
    obtain ⟨hexpiry, hreason⟩ := hearlier.reason_of_rejected hrejected
    exact ⟨_, _, _, rfl, hquiet, ⟨_, hcall, hreviewer⟩, rfl, hexpiry, hreason⟩

theorem KycTrail.consistent (h : KycTrail subject past record) : record.Consistent subject past :=
  ⟨h.subject_eq, h.lastSubmittedAt, h.latest⟩

theorem KycTrail.approved_of_expiry (h : KycTrail subject past record) {expiry : UInt64}
    (hexpiry : record.expiry = some expiry) : record.status = KycStatus.approved.toU32 := by
  cases h with
  | submitted => cases hexpiry
  | approved => rfl
  | rejected => cases hexpiry
  | reopened hearlier hrejected =>
    obtain ⟨hnone, _⟩ := hearlier.reason_of_rejected hrejected
    rw [KycRecord.reopened, hnone] at hexpiry
    cases hexpiry

theorem KycTrail.approvalInForce (h : KycTrail subject past record) {env : Env}
    (happroved : currentKycStatus env record = .approved) :
    ApprovalInForce subject past env.timestamp := by
  have hstatus := toU32_of_fromU32 (status_of_current happroved nofun) nofun
  cases h with
  | submitted => cases hstatus
  | approved hearlier hpending hcall hreviewer hexpiry hquiet =>
    rename_i before after approval operator old expiry
    obtain ⟨first, submission, middle, dataHash, attestor, rfl, hsubmitted, hmiddle, _⟩ :=
      hearlier.of_pending hpending
    refine ⟨first, submission, middle, approval, after, dataHash, attestor, operator, by simp,
      hsubmitted, hcall, hreviewer, hmiddle, hquiet, ?_⟩
    by_cases hpast : expiry < env.timestamp
    · simp [currentKycStatus, KycRecord.approved, hpast] at happroved
    · rw [UInt64.lt_iff_toNat_lt] at hpast
      omega
  | rejected => cases hstatus
  | reopened => cases hstatus

/-- The passing of time turns an approval into an expired one and changes nothing else. -/
theorem KycTrail.later (h : KycTrail subject past record) {env env' : Env}
    (hle : env.timestamp ≤ env'.timestamp) :
    currentKycStatus env' record = currentKycStatus env record ∨
      (currentKycStatus env record = .approved ∧ currentKycStatus env' record = .expired) := by
  cases hexpiry : record.expiry with
  | none =>
    left
    simp [currentKycStatus, hexpiry]
  | some expiry =>
    have hstatus := h.approved_of_expiry hexpiry
    have happroved : KycStatus.fromU32 KycStatus.approved.toU32 = .approved := rfl
    simp only [currentKycStatus, hexpiry, hstatus, happroved]
    by_cases hpast : expiry < env.timestamp
    · have hlater : expiry < env'.timestamp := UInt64.lt_of_lt_of_le hpast hle
      simp [hpast, hlater]
    · by_cases hlater : expiry < env'.timestamp
      · simp [hpast, hlater]
      · simp [hpast, hlater]

end Reading

/-- An approved status comes from an authorized approval of the latest submission, within its
validity and not superseded; every change of a status is over a documented edge or an approval
running out; and every record fits its status. -/
theorem kyc_gate (host : Host) (is : List Input) (subject : Address) :
    (∀ env, getKycStatus env (run host is) subject = .approved →
      ApprovalInForce subject (history host is) env.timestamp) ∧
    (∀ t ∈ history host is,
      getKycStatus t.input.1 t.post subject = getKycStatus t.input.1 t.pre subject ∨
        (t.input.2.kycSubject = some subject ∧
          (getKycStatus t.input.1 t.pre subject).Edge (getKycStatus t.input.1 t.post subject))) ∧
    (∀ env env' : Env, env.timestamp ≤ env'.timestamp →
      getKycStatus env' (run host is) subject = getKycStatus env (run host is) subject ∨
        (getKycStatus env (run host is) subject = .approved ∧
          getKycStatus env' (run host is) subject = .expired)) ∧
    (∀ record, (run host is).kyc.record.get subject = some record →
      record.Consistent subject (history host is)) := by
  have htraced := kycTraced_run host is subject
  refine ⟨?_, ?_, ?_, fun record hfile => (htraced record hfile).consistent⟩
  · intro env happroved
    cases hfile : (run host is).kyc.record.get subject with
    | none => simp [getKycStatus, getKycStatusInternal, hfile] at happroved
    | some record =>
      rw [getKycStatus, getKycStatusInternal_of_file hfile] at happroved
      exact (htraced record hfile).approvalInForce happroved
  · intro t ht
    rcases kyc_step (Machine.step_of_mem_transitions _ ht) with
      ⟨_, hsame⟩ | ⟨about, record, habout, hmove, hset⟩
    · left
      simp only [getKycStatus, getKycStatusInternal, hsame]
    · by_cases hsubject : subject = about
      · subst hsubject
        exact Or.inr ⟨habout, edge_of_kycMove hmove hset⟩
      · left
        simp only [getKycStatus, getKycStatusInternal, hset, KeyedStore.get_set, if_neg hsubject]
  · intro env env' hle
    cases hfile : (run host is).kyc.record.get subject with
    | none => simp [getKycStatus, getKycStatusInternal, hfile]
    | some record =>
      simp only [getKycStatus, getKycStatusInternal_of_file hfile]
      exact (htraced record hfile).later hle

namespace Demo

def approvedBob : List Input :=
  [deploy, openSession, sessionRegister alice 7, onLedger 1 (.submitKyc bob [1] alice),
    onLedger 1 (.approveKyc admin bob)]

end Demo

/-- The approval lasts to the end of its validity, and not a second longer. -/
example :
    getKycStatus ⟨1000 + 2592000, 9, []⟩ (run Demo.host Demo.approvedBob) Demo.bob = .approved ∧
      getKycStatus ⟨1001 + 2592000, 9, []⟩ (run Demo.host Demo.approvedBob) Demo.bob = .expired := by
  decide

end AnchorKit
