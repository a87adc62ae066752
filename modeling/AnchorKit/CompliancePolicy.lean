import AnchorKit.Attestations
import AnchorKit.Compliance
import AnchorKit.RouteSelection

/-!
# The engine of compliance policies

An ordered list of rules, of which the first that denies a request decides. The contract asks the
standard rules about what it has stored of a subject.
-/

namespace AnchorKit

open Fallible

inductive KycState
  | notSubmitted
  | pending
  | approved
  | rejected
  | expired
  | reopened
deriving DecidableEq, Repr

structure PolicyContext where
  kycState : KycState
  complianceCheckPassed : Bool
  minimumScore : Option UInt32
  subjectScore : Option UInt32
  requireKyc : Bool
  requireCompliance : Bool
deriving DecidableEq, Repr

inductive DenialReason
  | kycNotSubmitted
  | kycPending
  | kycRejected
  | kycExpired
  | complianceCheckFailed
  | scoreBelowMinimum (required actual : UInt32)
deriving DecidableEq, Repr

inductive PolicyDecision
  | allow
  | deny (reason : DenialReason)
deriving DecidableEq, Repr

def PolicyDecision.isDenied : PolicyDecision → Bool
  | .deny _ => true
  | .allow => false

def PolicyDecision.denialReason : PolicyDecision → Option DenialReason
  | .deny r => some r
  | .allow => none

abbrev PolicyRule := PolicyContext → PolicyDecision

def kycApprovedRule : PolicyRule := fun ctx =>
  if ctx.requireKyc then
    match ctx.kycState with
    | .approved => .allow
    | .notSubmitted => .deny .kycNotSubmitted
    | .pending => .deny .kycPending
    | .rejected => .deny .kycRejected
    | .expired => .deny .kycExpired
    | .reopened => .deny .kycPending
  else .allow

def complianceCheckPassedRule : PolicyRule := fun ctx =>
  if ctx.requireCompliance then
    if ctx.complianceCheckPassed then .allow else .deny .complianceCheckFailed
  else .allow

/-- A score that was not recorded counts as zero. -/
def minimumScoreRule : PolicyRule := fun ctx =>
  if ctx.requireCompliance then
    match ctx.minimumScore with
    | none => .allow
    | some min =>
      match ctx.subjectScore with
      | none => if min = 0 then .allow else .deny (.scoreBelowMinimum min 0)
      | some score => if min ≤ score then .allow else .deny (.scoreBelowMinimum min score)
  else .allow

structure PolicyEngine where
  rules : List PolicyRule

namespace PolicyEngine

def new : PolicyEngine := ⟨[]⟩

def addRule (engine : PolicyEngine) (rule : PolicyRule) : PolicyEngine := ⟨engine.rules ++ [rule]⟩

def standard : PolicyEngine :=
  ((new.addRule kycApprovedRule).addRule complianceCheckPassedRule).addRule minimumScoreRule

def evaluateRules (ctx : PolicyContext) : List PolicyRule → PolicyDecision
  | [] => .allow
  | rule :: rules =>
    let decision := rule ctx
    if decision.isDenied then decision else evaluateRules ctx rules

def evaluate (engine : PolicyEngine) (ctx : PolicyContext) : PolicyDecision :=
  evaluateRules ctx engine.rules

def evaluateAll (engine : PolicyEngine) (ctx : PolicyContext) : List DenialReason :=
  engine.rules.filterMap fun rule => (rule ctx).denialReason

end PolicyEngine

/-! ### The engine over what the contract has stored -/

structure CompliancePolicy where
  minimumScore : Option UInt32
deriving DecidableEq, Repr

def CompliancePolicy.defaultPolicy : CompliancePolicy := ⟨none⟩

def policyKycState : KycStatus → KycState
  | .approved => .approved
  | .pending => .pending
  | .rejected => .rejected
  | .expired => .expired
  | .reopened => .reopened
  | .notSubmitted => .notSubmitted

def denialError : DenialReason → ErrorCode
  | .kycPending => .kycPending
  | .kycRejected => .kycRejected
  | .kycExpired => .complianceNotMet
  | .kycNotSubmitted => .kycNotFound
  | .complianceCheckFailed => .complianceNotMet
  | .scoreBelowMinimum _ _ => .complianceNotMet

def policyContext (env : Env) (s : Storage) (globalPolicy : Option CompliancePolicy)
    (subject : Address) (requireKyc requireCompliance : Bool) : PolicyContext :=
  let check := s.compliance.check.get (subject, "kyc")
  { kycState := policyKycState (getKycStatusInternal env s subject)
    complianceCheckPassed := check.any fun r => r.result = 1
    minimumScore := (globalPolicy.getD .defaultPolicy).minimumScore
    subjectScore := check.bind ComplianceCheck.score
    requireKyc
    requireCompliance }

def enforcePolicy (env : Env) (s : Storage) (globalPolicy : Option CompliancePolicy)
    (subject : Address) (requireKyc requireCompliance : Bool) : Except Panic Unit :=
  if !requireKyc && !requireCompliance then .ok ()
  else
    match PolicyEngine.standard.evaluate
        (policyContext env s globalPolicy subject requireKyc requireCompliance) with
    | .allow => .ok ()
    | .deny reason => .error (.withError (denialError reason))

/-!
## What the policy engine decides

An engine denies with the first of all its denials, and whether it denies does not depend on the
order of its rules. The engine of the contract lets through what the separate gates on KYC and
compliance let through, as long as the score of the subject reaches the minimum.
-/

/-- The decision that the denials of all rules amount to. -/
def firstDenial : List DenialReason → PolicyDecision
  | [] => .allow
  | reason :: _ => .deny reason

/-- What an engine says about a context, and what other engines with its rules say. -/
structure EngineDecides (engine : PolicyEngine) (ctx : PolicyContext) : Prop where
  first : engine.evaluate ctx = firstDenial (engine.evaluateAll ctx)
  allows : engine.evaluate ctx = .allow ↔ ∀ rule ∈ engine.rules, rule ctx = .allow
  reordered : ∀ other : PolicyEngine, other.rules.Perm engine.rules →
    (other.evaluateAll ctx).Perm (engine.evaluateAll ctx) ∧
      (other.evaluate ctx).isDenied = (engine.evaluate ctx).isDenied
  tightened : ∀ rule, ((engine.addRule rule).evaluate ctx).isDenied =
    ((engine.evaluate ctx).isDenied || (rule ctx).isDenied)

/-- The score of a subject, which counts as zero as long as there is none, reaches the minimum. -/
def MeetsMinimum (s : Storage) (globalPolicy : Option CompliancePolicy) (subject : Address) :
    Prop :=
  ∀ minimum, (globalPolicy.getD .defaultPolicy).minimumScore = some minimum →
    minimum ≤ ((s.compliance.check.get (subject, "kyc")).bind ComplianceCheck.score).getD 0

/-- What the gate of the policies says, next to the separate gates on KYC and compliance. -/
structure PolicyGate (env : Env) (s : Storage) (globalPolicy : Option CompliancePolicy)
    (subject : Address) (requireKyc requireCompliance : Bool) : Prop where
  passes : enforcePolicy env s globalPolicy subject requireKyc requireCompliance = .ok () ↔
    checkKyc env s subject requireKyc = .ok () ∧
      checkCompliance s subject requireCompliance = .ok () ∧
      (requireCompliance = true → MeetsMinimum s globalPolicy subject)
  kyc_first : checkKyc env s subject requireKyc ≠ .ok () →
    (enforcePolicy env s globalPolicy subject requireKyc requireCompliance =
        checkKyc env s subject requireKyc ↔
      getKycStatusInternal env s subject ≠ .expired ∧
        getKycStatusInternal env s subject ≠ .reopened)
  compliance_next : checkKyc env s subject requireKyc = .ok () →
    checkCompliance s subject requireCompliance ≠ .ok () →
    enforcePolicy env s globalPolicy subject requireKyc requireCompliance =
      checkCompliance s subject requireCompliance

section Engine

variable {ctx : PolicyContext} {rules : List PolicyRule} {rule : PolicyRule}

@[simp] theorem isDenied_eq_false {decision : PolicyDecision} :
    decision.isDenied = false ↔ decision = .allow := by
  cases decision with
  | allow => simp [PolicyDecision.isDenied]
  | deny reason => simp [PolicyDecision.isDenied]

theorem evaluateRules_eq_firstDenial (ctx : PolicyContext) (rules : List PolicyRule) :
    PolicyEngine.evaluateRules ctx rules =
      firstDenial (rules.filterMap fun rule => (rule ctx).denialReason) := by
  induction rules with
  | nil => rfl
  | cons rule rules ih =>
    rw [PolicyEngine.evaluateRules, List.filterMap_cons]
    cases rule ctx with
    | allow => exact ih
    | deny reason => rfl

theorem isDenied_firstDenial (reasons : List DenialReason) :
    (firstDenial reasons).isDenied = !reasons.isEmpty := by
  cases reasons with
  | nil => rfl
  | cons reason reasons => rfl

theorem firstDenial_eq_allow {reasons : List DenialReason} :
    firstDenial reasons = .allow ↔ reasons = [] := by
  cases reasons with
  | nil => simp [firstDenial]
  | cons reason reasons => simp [firstDenial]

theorem denialReason_eq_none {decision : PolicyDecision} :
    decision.denialReason = none ↔ decision = .allow := by
  cases decision with
  | allow => simp [PolicyDecision.denialReason]
  | deny reason => simp [PolicyDecision.denialReason]

theorem evaluate_eq_allow (engine : PolicyEngine) (ctx : PolicyContext) :
    engine.evaluate ctx = .allow ↔ ∀ rule ∈ engine.rules, rule ctx = .allow := by
  rw [PolicyEngine.evaluate, evaluateRules_eq_firstDenial, firstDenial_eq_allow,
    List.filterMap_eq_nil_iff]
  exact forall₂_congr fun rule _ => denialReason_eq_none

theorem engine_decides (engine : PolicyEngine) (ctx : PolicyContext) :
    EngineDecides engine ctx := by
  have hfirst (e : PolicyEngine) : e.evaluate ctx = firstDenial (e.evaluateAll ctx) :=
    evaluateRules_eq_firstDenial ctx e.rules
  have hdenied (e : PolicyEngine) : (e.evaluate ctx).isDenied = !(e.evaluateAll ctx).isEmpty := by
    rw [hfirst, isDenied_firstDenial]
  constructor
  · exact hfirst engine
  · exact evaluate_eq_allow engine ctx
  · intro other hperm
    have hall : (other.evaluateAll ctx).Perm (engine.evaluateAll ctx) := hperm.filterMap _
    exact ⟨hall, by rw [hdenied, hdenied, hall.isEmpty_eq]⟩
  · intro rule
    have hadd : (engine.addRule rule).evaluateAll ctx =
        engine.evaluateAll ctx ++ (rule ctx).denialReason.toList := by
      rw [PolicyEngine.evaluateAll, PolicyEngine.addRule, List.filterMap_append]
      cases hrule : rule ctx with
      | allow => rw [List.filterMap_cons_none (by rw [hrule]; rfl)]; rfl
      | deny reason => rw [List.filterMap_cons_some (by rw [hrule]; rfl)]; rfl
    rw [hdenied, hdenied, hadd]
    cases rule ctx with
    | allow => simp [PolicyDecision.denialReason, PolicyDecision.isDenied]
    | deny reason => simp [PolicyDecision.denialReason, PolicyDecision.isDenied]

end Engine

section Gate

variable {env : Env} {s : Storage} {globalPolicy : Option CompliancePolicy} {subject : Address}
  {requireKyc requireCompliance : Bool} {ctx : PolicyContext}

theorem kycApprovedRule_eq_allow :
    kycApprovedRule ctx = .allow ↔ (ctx.requireKyc = true → ctx.kycState = .approved) := by
  unfold kycApprovedRule
  by_cases h : ctx.requireKyc = true
  · rw [if_pos h]
    cases ctx.kycState with
    | _ => simp [h]
  · rw [if_neg h]
    simp [h]

theorem complianceCheckPassedRule_eq_allow :
    complianceCheckPassedRule ctx = .allow ↔
      (ctx.requireCompliance = true → ctx.complianceCheckPassed = true) := by
  unfold complianceCheckPassedRule
  by_cases h : ctx.requireCompliance = true
  · rw [if_pos h]
    cases ctx.complianceCheckPassed with
    | false => simp [h]
    | true => simp [h]
  · rw [if_neg h]
    simp [h]

theorem minimumScoreRule_eq_allow :
    minimumScoreRule ctx = .allow ↔ (ctx.requireCompliance = true →
      ∀ minimum, ctx.minimumScore = some minimum → minimum ≤ ctx.subjectScore.getD 0) := by
  unfold minimumScoreRule
  by_cases h : ctx.requireCompliance = true
  · rw [if_pos h]
    cases ctx.minimumScore with
    | none => simp
    | some minimum =>
      cases ctx.subjectScore with
      | none => simp [h, UInt32.le_zero_iff]
      | some score => simp [h]
  · rw [if_neg h]
    simp [h]

theorem standard_eq_allow :
    PolicyEngine.standard.evaluate ctx = .allow ↔
      (ctx.requireKyc = true → ctx.kycState = .approved) ∧
      (ctx.requireCompliance = true → ctx.complianceCheckPassed = true) ∧
      (ctx.requireCompliance = true →
        ∀ minimum, ctx.minimumScore = some minimum → minimum ≤ ctx.subjectScore.getD 0) := by
  rw [evaluate_eq_allow, ← kycApprovedRule_eq_allow, ← complianceCheckPassedRule_eq_allow,
    ← minimumScoreRule_eq_allow]
  simp [PolicyEngine.standard, PolicyEngine.addRule, PolicyEngine.new]

theorem enforcePolicy_eq :
    enforcePolicy env s globalPolicy subject requireKyc requireCompliance =
      match PolicyEngine.standard.evaluate
        (policyContext env s globalPolicy subject requireKyc requireCompliance) with
      | .allow => .ok ()
      | .deny reason => .error (.withError (denialError reason)) := by
  unfold enforcePolicy
  split
  · rename_i h
    rw [Bool.and_eq_true, Bool.not_eq_true', Bool.not_eq_true'] at h
    rw [standard_eq_allow.mpr]
    simp [policyContext, h.1, h.2]
  · rfl

theorem enforcePolicy_eq_ok :
    enforcePolicy env s globalPolicy subject requireKyc requireCompliance = .ok () ↔
      PolicyEngine.standard.evaluate
        (policyContext env s globalPolicy subject requireKyc requireCompliance) = .allow := by
  rw [enforcePolicy_eq]
  cases PolicyEngine.standard.evaluate
      (policyContext env s globalPolicy subject requireKyc requireCompliance) with
  | allow => simp
  | deny reason => simp

theorem policyKycState_eq_approved {status : KycStatus} :
    policyKycState status = .approved ↔ status = .approved := by
  cases status with
  | _ => simp [policyKycState]

theorem complianceCheckPassed_policyContext :
    (policyContext env s globalPolicy subject requireKyc requireCompliance).complianceCheckPassed =
      compliancePassed s subject := by
  rw [policyContext, compliancePassed]
  cases s.compliance.check.get (subject, "kyc") with
  | none => rfl
  | some check => rfl

theorem enforcePolicy_passes :
    enforcePolicy env s globalPolicy subject requireKyc requireCompliance = .ok () ↔
      checkKyc env s subject requireKyc = .ok () ∧
        checkCompliance s subject requireCompliance = .ok () ∧
        (requireCompliance = true → MeetsMinimum s globalPolicy subject) := by
  rw [enforcePolicy_eq_ok, standard_eq_allow, checkKyc_eq_ok, checkCompliance_eq_ok,
    complianceCheckPassed_policyContext]
  exact and_congr (imp_congr Iff.rfl policyKycState_eq_approved) Iff.rfl

theorem enforcePolicy_of_unapproved (hrequired : requireKyc = true)
    (hkyc : getKycStatusInternal env s subject ≠ .approved) :
    (enforcePolicy env s globalPolicy subject requireKyc requireCompliance =
        checkKyc env s subject requireKyc ↔
      getKycStatusInternal env s subject ≠ .expired ∧
        getKycStatusInternal env s subject ≠ .reopened) := by
  subst hrequired
  have hcheck : checkKyc env s subject true =
      .error (.withError (kycError (getKycStatusInternal env s subject))) := by
    rw [checkKyc]
    exact if_pos ⟨rfl, hkyc⟩
  rw [hcheck, enforcePolicy_eq]
  simp only [PolicyEngine.evaluate, PolicyEngine.standard, PolicyEngine.addRule, PolicyEngine.new,
    List.nil_append, List.cons_append, PolicyEngine.evaluateRules, kycApprovedRule, policyContext,
    if_true]
  cases hstatus : getKycStatusInternal env s subject with
  | approved => exact absurd hstatus hkyc
  | _ => simp [policyKycState, PolicyDecision.isDenied, denialError, kycError]

theorem enforcePolicy_of_approved (hkyc : checkKyc env s subject requireKyc = .ok ())
    (hcompliance : checkCompliance s subject requireCompliance ≠ .ok ()) :
    enforcePolicy env s globalPolicy subject requireKyc requireCompliance =
      checkCompliance s subject requireCompliance := by
  rw [ne_eq, checkCompliance_eq_ok, Classical.not_imp, Bool.not_eq_true] at hcompliance
  obtain ⟨rfl, hfailed⟩ := hcompliance
  have hallow : kycApprovedRule (policyContext env s globalPolicy subject requireKyc true) =
      .allow := by
    rw [kycApprovedRule_eq_allow]
    exact fun hrequired => policyKycState_eq_approved.mpr (checkKyc_eq_ok.mp hkyc hrequired)
  have hdeny : complianceCheckPassedRule (policyContext env s globalPolicy subject requireKyc true)
      = .deny .complianceCheckFailed := by
    rw [complianceCheckPassedRule, complianceCheckPassed_policyContext, hfailed]
    rfl
  rw [enforcePolicy_eq]
  simp only [PolicyEngine.evaluate, PolicyEngine.standard, PolicyEngine.addRule, PolicyEngine.new,
    List.nil_append, List.cons_append, PolicyEngine.evaluateRules, hallow, hdeny,
    PolicyDecision.isDenied, Bool.false_eq_true, if_true, if_false, denialError, checkCompliance,
    hfailed, require]

/-- The gate of the policies, in every state and for every subject. -/
theorem policy_gate (env : Env) (s : Storage) (globalPolicy : Option CompliancePolicy)
    (subject : Address) (requireKyc requireCompliance : Bool) :
    PolicyGate env s globalPolicy subject requireKyc requireCompliance where
  passes := enforcePolicy_passes
  kyc_first hkyc := by
    have hneeded : requireKyc = true ∧ getKycStatusInternal env s subject ≠ .approved := by
      rw [ne_eq, checkKyc_eq_ok, Classical.not_imp] at hkyc
      exact hkyc
    exact enforcePolicy_of_unapproved hneeded.1 hneeded.2
  compliance_next := enforcePolicy_of_approved

end Gate

end AnchorKit
