import AnchorKit.QuoteInvariants
import AnchorKit.Quotes

/-!
# Availability of services

A service is supported when it is declared and not retired. Routing and the readiness reports read
the declaration alone, so they agree with it as long as no declared service is retired.
-/

namespace AnchorKit

open Fallible

/-!
## Readiness reports

What an anchor can be asked for at the moment, read from its declared services and its latest
quote. None of the reports changes the state.
-/

structure AnchorReadinessReport where
  anchor : Address
  isRegistered : Bool
  depositReady : Bool
  withdrawalReady : Bool
  quoteReady : Bool
  kycReady : Bool
  checkedAt : UInt64
deriving DecidableEq, Repr

/-- The anchor's latest quote is on record and has not expired. -/
def holdsCurrentQuote (env : Env) (s : Storage) (anchor : Address) : Except Panic Bool := do
  let quote ← latestQuote s anchor
  return (quote.map fun quote => decide (env.timestamp < quote.validUntil)).getD false

def isDepositReady (s : Storage) (anchor : Address) : Bool :=
  declaresService s anchor serviceDeposits

/-- The quote is only read for an anchor that declares the quote service. -/
def isQuoteReady (env : Env) (s : Storage) (anchor : Address) : Except Panic Bool :=
  if declaresService s anchor serviceQuotes then holdsCurrentQuote env s anchor else .ok false

def getAnchorReadiness (env : Env) (s : Storage) (anchor : Address) :
    Except Panic AnchorReadinessReport := do
  let quoteReady ← isQuoteReady env s anchor
  return {
    anchor
    isRegistered := (s.registry.attestor.get anchor).getD false
    depositReady := declaresService s anchor serviceDeposits
    withdrawalReady := declaresService s anchor serviceWithdrawals
    quoteReady
    kycReady := declaresService s anchor serviceKyc
    checkedAt := env.timestamp }

/-!
## Agreement of the readers

A declared service is supported unless it is retired.
-/

/-- The services that routing and the reports read. -/
def reportedServices : List UInt32 :=
  [serviceDeposits, serviceWithdrawals, serviceQuotes, serviceKyc]

/-- An anchor without a declaration supports nothing. -/
def Supported (s : Storage) (anchor : Address) (service : UInt32) : Prop :=
  supportsService s anchor service = .ok true

instance {s : Storage} {anchor : Address} {service : UInt32} :
    Decidable (Supported s anchor service) := inferInstanceAs (Decidable (_ = _))

/-- Routing and the reports take a service to be available exactly when it is supported. -/
structure ReadersAgree (env : Env) (s : Storage) (anchor : Address) : Prop where
  routing : advertisesQuoteService s anchor = true ↔ Supported s anchor serviceQuotes
  deposit : isDepositReady s anchor = true ↔ Supported s anchor serviceDeposits
  quote : isQuoteReady env s anchor = .ok true ↔
    Supported s anchor serviceQuotes ∧ holdsCurrentQuote env s anchor = .ok true
  report : ∃ report, getAnchorReadiness env s anchor = .ok report ∧
    (report.depositReady = true ↔ Supported s anchor serviceDeposits) ∧
    (report.withdrawalReady = true ↔ Supported s anchor serviceWithdrawals) ∧
    (report.kycReady = true ↔ Supported s anchor serviceKyc) ∧
    (report.quoteReady = true ↔
      Supported s anchor serviceQuotes ∧ holdsCurrentQuote env s anchor = .ok true)

/-- No declared service that is reported on is retired. -/
def AnchorServices.OffersDeclared (record : AnchorServices) : Prop :=
  ∀ service ∈ reportedServices, record.services.contains service = true →
    isServiceRetired record service = false

def AnchorServicesStore.OfferDeclared (st : AnchorServicesStore) : Prop :=
  ∀ anchor record, st.record.get anchor = some record → record.OffersDeclared

section Readers

variable {env : Env} {s : Storage} {anchor : Address} {service : UInt32} {record : AnchorServices}

theorem supported_iff : Supported s anchor service ↔
    ∃ record, s.anchorServices.record.get anchor = some record ∧
      record.services.contains service = true ∧ isServiceRetired record service = false := by
  simp only [Supported, supportsService, getSupportedServicesInternal, expect_bind_eq_ok,
    pure_eq_ok, Bool.and_eq_true, Bool.not_eq_true']

theorem declaresService_iff : declaresService s anchor service = true ↔
    ∃ record, s.anchorServices.record.get anchor = some record ∧
      record.services.contains service = true := by
  unfold declaresService
  cases s.anchorServices.record.get anchor with
  | none => simp
  | some record => simp

theorem declares_of_supported (h : Supported s anchor service) :
    declaresService s anchor service = true := by
  obtain ⟨record, hget, hdeclared, _⟩ := supported_iff.mp h
  exact declaresService_iff.mpr ⟨record, hget, hdeclared⟩

theorem declares_iff_supported (anchor : Address) (h : s.anchorServices.OfferDeclared)
    (hservice : service ∈ reportedServices) :
    declaresService s anchor service = true ↔ Supported s anchor service := by
  constructor
  · intro hdeclares
    obtain ⟨record, hget, hdeclared⟩ := declaresService_iff.mp hdeclares
    exact supported_iff.mpr ⟨record, hget, hdeclared, h anchor record hget service hservice hdeclared⟩
  · exact declares_of_supported

theorem holdsCurrentQuote_succeeds (h : s.quotes.Current) :
    Succeeds (holdsCurrentQuote env s anchor) := by
  unfold holdsCurrentQuote
  rw [succeeds_bind_pure]
  unfold latestQuote
  cases s.quotes.latest.get anchor with
  | none => exact succeeds_ok none
  | some id =>
    dsimp only
    cases hget : s.quotes.record.get (anchor, id) with
    | none => exact succeeds_ok none
    | some stored =>
      obtain ⟨quote, rfl⟩ := h _ stored hget
      exact succeeds_ok (some quote)

theorem isQuoteReady_eq_true : isQuoteReady env s anchor = .ok true ↔
    declaresService s anchor serviceQuotes = true ∧ holdsCurrentQuote env s anchor = .ok true := by
  unfold isQuoteReady
  cases declaresService s anchor serviceQuotes with
  | false => simp
  | true => simp

theorem getAnchorReadiness_succeeds (env : Env) (anchor : Address) (h : s.quotes.Current) :
    ∃ report, getAnchorReadiness env s anchor = .ok report ∧
      report.depositReady = declaresService s anchor serviceDeposits ∧
      report.withdrawalReady = declaresService s anchor serviceWithdrawals ∧
      report.kycReady = declaresService s anchor serviceKyc ∧
      isQuoteReady env s anchor = .ok report.quoteReady := by
  have hquote : Succeeds (isQuoteReady env s anchor) := by
    unfold isQuoteReady
    split
    · exact holdsCurrentQuote_succeeds h
    · exact succeeds_ok false
  obtain ⟨ready, hready⟩ := hquote
  unfold getAnchorReadiness
  rw [hready]
  exact ⟨_, rfl, rfl, rfl, rfl, rfl⟩

theorem readersAgree_iff_offerDeclared (hcurrent : s.quotes.Current) :
    (∀ env anchor, ReadersAgree env s anchor) ↔ s.anchorServices.OfferDeclared := by
  constructor
  · intro hagree anchor record hget service hservice hdeclared
    have hdeclares : declaresService s anchor service = true :=
      declaresService_iff.mpr ⟨record, hget, hdeclared⟩
    have hsupported : Supported s anchor service := by
      have h := hagree ⟨0, 0, []⟩ anchor
      obtain ⟨report, hreport, hdeposit, hwithdrawal, hkyc, _⟩ := h.report
      obtain ⟨report', hreport', hdeposit', hwithdrawal', hkyc', _⟩ :=
        getAnchorReadiness_succeeds ⟨0, 0, []⟩ anchor hcurrent
      obtain rfl : report = report' := Except.ok.inj (hreport.symm.trans hreport')
      simp only [reportedServices, List.mem_cons, List.not_mem_nil, or_false] at hservice
      rcases hservice with rfl | rfl | rfl | rfl
      · exact hdeposit.mp (hdeposit'.trans hdeclares)
      · exact hwithdrawal.mp (hwithdrawal'.trans hdeclares)
      · exact h.routing.mp hdeclares
      · exact hkyc.mp (hkyc'.trans hdeclares)
    obtain ⟨found, hfound, _, hoffered⟩ := supported_iff.mp hsupported
    obtain rfl : record = found := Option.some.inj (hget.symm.trans hfound)
    exact hoffered
  · intro hoffer env anchor
    have hquotes : declaresService s anchor serviceQuotes = true ↔
        Supported s anchor serviceQuotes := declares_iff_supported anchor hoffer (by decide)
    have hdeposits : declaresService s anchor serviceDeposits = true ↔
        Supported s anchor serviceDeposits := declares_iff_supported anchor hoffer (by decide)
    have hquote : isQuoteReady env s anchor = .ok true ↔
        Supported s anchor serviceQuotes ∧ holdsCurrentQuote env s anchor = .ok true := by
      rw [isQuoteReady_eq_true, hquotes]
    refine ⟨hquotes, hdeposits, hquote, ?_⟩
    obtain ⟨report, hreport, hdeposit, hwithdrawal, hkyc, hready⟩ :=
      getAnchorReadiness_succeeds env anchor hcurrent
    refine ⟨report, hreport, ?_, ?_, ?_, ?_⟩
    · rw [hdeposit, hdeposits]
    · rw [hwithdrawal]
      exact declares_iff_supported anchor hoffer (by decide)
    · rw [hkyc]
      exact declares_iff_supported anchor hoffer (by decide)
    · rw [← hquote, hready, Except.ok.injEq]

end Readers

/-- The call retires no service that is declared and reported on. -/
def SparesDeclared (t : Transition) : Prop :=
  match t.input.2 with
  | .retireService anchor service _ _ =>
    service ∈ reportedServices → declaresService t.pre anchor service = false
  | .configureServicesVersioned _ services retirements _
  | .configureServicesWithRetire _ services retirements =>
    ∀ retirement ∈ retirements, retirement.retired = true →
      retirement.serviceCode ∈ reportedServices → retirement.serviceCode ∉ services
  | _ => True

section Offers

variable {host : Host} {s s' : Storage} {st : AnchorServicesStore} {anchor : Address}
  {record : AnchorServices} {service version : UInt32} {services : List UInt32}
  {retirements : List ServiceRetirementInfo}

theorem offersDeclared_configured :
    (⟨anchor, sortServices services, version, retirements⟩ : AnchorServices).OffersDeclared ↔
      ∀ retirement ∈ retirements, retirement.retired = true →
        retirement.serviceCode ∈ reportedServices → retirement.serviceCode ∉ services := by
  unfold AnchorServices.OffersDeclared
  simp only [← Bool.not_eq_true, AnchorServices.isServiceRetired_iff, List.contains_iff_mem,
    sortServices, List.mem_insertionSort]
  constructor
  · intro h retirement hmem hretired hreported hdeclared
    exact h retirement.serviceCode hreported hdeclared ⟨retirement, hmem, rfl, hretired⟩
  · rintro h service hreported hdeclared ⟨retirement, hmem, rfl, hretired⟩
    exact h retirement hmem hretired hreported hdeclared

theorem offersDeclared_retire (h : record.OffersDeclared) {timestamp : Option UInt64}
    {notice : Option String} : (record.retire service timestamp notice).OffersDeclared ↔
      (service ∈ reportedServices → record.services.contains service = false) := by
  constructor
  · intro hretired hreported
    cases hdeclared : record.services.contains service with
    | false => rfl
    | true =>
      have hoffered := hretired service hreported hdeclared
      rw [← Bool.not_eq_true, AnchorServices.isServiceRetired_retire] at hoffered
      exact absurd (Or.inl rfl) hoffered
  · intro hundeclared other hreported hdeclared
    change record.services.contains other = true at hdeclared
    rw [← Bool.not_eq_true, AnchorServices.isServiceRetired_retire]
    rintro (rfl | hretired)
    · rw [hundeclared hreported] at hdeclared
      cases hdeclared
    · rw [h other hreported hdeclared] at hretired
      cases hretired

theorem offersDeclared_unretire (h : record.OffersDeclared) :
    (record.unretire service).OffersDeclared := by
  intro other hreported hdeclared
  rw [← Bool.not_eq_true, AnchorServices.isServiceRetired_unretire]
  rintro ⟨_, hretired⟩
  rw [h other hreported hdeclared] at hretired
  cases hretired

theorem offerDeclared_set (h : st.OfferDeclared)
    {profile : KeyedStore Address AttestorProfile} :
    AnchorServicesStore.OfferDeclared ⟨st.record.set anchor record, profile⟩ ↔
      record.OffersDeclared := by
  constructor
  · intro hset
    exact hset anchor record (KeyedStore.get_set_self _ _ _)
  · intro hrecord other found hget
    rcases KeyedStore.get_set_cases hget with ⟨_, rfl⟩ | hold
    · exact hrecord
    · exact h other found hold

/-- Given that every declared service was on offer, it stays so exactly when the call retires
none. -/
theorem offerDeclared_step {t : Transition} (ht : step host t.pre t.input = .ok t.post)
    (h : t.pre.anchorServices.OfferDeclared) :
    t.post.anchorServices.OfferDeclared ↔ SparesDeclared t := by
  rcases t with ⟨s, ⟨env, c⟩, s'⟩
  change invoke host env s c = .ok s' at ht
  change s.anchorServices.OfferDeclared at h
  change s'.anchorServices.OfferDeclared ↔ _
  by_cases hc : .anchorServices ∈ c.touches
  · cases c with
    | configureServices anchor services =>
      obtain ⟨_, _, rfl⟩ := configureServicesVersioned_effects ht
      exact (offerDeclared_set h).trans (offersDeclared_configured.trans (by simp [SparesDeclared]))
    | configureServicesVersioned anchor services retirements version =>
      obtain ⟨_, _, rfl⟩ := configureServicesVersioned_effects ht
      exact (offerDeclared_set h).trans offersDeclared_configured
    | configureServicesWithRetire anchor services retirements =>
      obtain ⟨_, _, rfl⟩ := configureServicesVersioned_effects ht
      exact (offerDeclared_set h).trans offersDeclared_configured
    | retireService anchor service timestamp notice =>
      obtain ⟨record, _, hget, rfl⟩ := retireService_effects ht
      have hdeclares : declaresService s anchor service = record.services.contains service := by
        rw [declaresService, hget]
        rfl
      change _ ↔ (service ∈ reportedServices → declaresService s anchor service = false)
      rw [hdeclares]
      exact (offerDeclared_set h).trans (offersDeclared_retire (h anchor record hget))
    | unretireService anchor service =>
      obtain ⟨record, _, hget, rfl⟩ := unretireService_effects ht
      apply iff_of_true
      · exact (offerDeclared_set h).mpr (offersDeclared_unretire (h anchor record hget))
      · trivial
    | _ => exact absurd hc (by simp [Call.touches])
  · rw [(invoke_sameOutside ht).anchorServices_eq hc]
    apply iff_of_true h
    cases c with
    | retireService _ _ _ _ => exact absurd hc (by simp [Call.touches])
    | configureServicesVersioned _ _ _ _ => exact absurd hc (by simp [Call.touches])
    | configureServicesWithRetire _ _ _ => exact absurd hc (by simp [Call.touches])
    | _ => trivial

end Offers

/-- At every point of a run, routing and the reports agree with `supports_service` for every
anchor, exactly when the run retires no service that is declared and reported on. -/
theorem readersAgree_iff (host : Host) (is : List Input) :
    (∀ js, js <+: is → ∀ env anchor, ReadersAgree env (run host js) anchor) ↔
      ∀ t ∈ history host is, SparesDeclared t := by
  refine Machine.forall_prefix_invariant_iff (step host)
    (fun _ s => ∀ env anchor, ReadersAgree env s anchor) (fun _ s => s.quotes.Current)
    SparesDeclared (s := .empty) ?_ nofun ?_ ?_ is
  · exact (readersAgree_iff_offerDeclared (s := .empty) nofun).mpr nofun
  · intro past t ht hcurrent hagree
    rw [readersAgree_iff_offerDeclared (hcurrent.of_step (quote_step ht))]
    exact offerDeclared_step ht ((readersAgree_iff_offerDeclared hcurrent).mp hagree)
  · intro past t ht hcurrent _ _
    exact hcurrent.of_step (quote_step ht)

/-- An anchor that has retired the quote service is still routed to for quotes. -/
theorem retired_quote_service_advertised :
    ¬ ∀ js, js <+: [Demo.deploy, Demo.openSession, Demo.sessionRegister Demo.alice 1,
        Demo.onLedger 1 (.configureServices Demo.alice [3]),
        Demo.onLedger 1 (.retireService Demo.alice 3 none none)] →
      ∀ env anchor, ReadersAgree env (run Demo.host js) anchor := by
  intro h
  have hsupported := (h _ List.prefix_rfl ⟨1000, 1, []⟩ Demo.alice).routing.mp (by decide)
  revert hsupported
  decide

end AnchorKit
