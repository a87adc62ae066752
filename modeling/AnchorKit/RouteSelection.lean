import AnchorKit.Library.FirstBest
import AnchorKit.RoutingGates

/-!
# The choice of a route

The strategies that compare one key of the candidates. The full path returns the first of the best
candidates in the order of the anchor list.
-/

namespace AnchorKit

open Fallible FirstBest

/-- The strategies that compare a single key. -/
inductive KeyStrategy
  | lowestFee
  | fastestSettlement
  | highestReputation
deriving DecidableEq, Repr

namespace KeyStrategy

def name : KeyStrategy → String
  | .lowestFee => "LowestFee"
  | .fastestSettlement => "FastestSettlement"
  | .highestReputation => "HighestReputation"

def better (s : Storage) : KeyStrategy → Quote → Quote → Bool
  | .lowestFee, quote, other => quote.feePercentage < other.feePercentage
  | .fastestSettlement, quote, other => settlementTime s quote < settlementTime s other
  | .highestReputation, quote, other => reputation s other < reputation s quote

theorem strategyOrder_name {s : Storage} {options : RoutingOptions} {candidates : List Quote}
    (strategy : KeyStrategy) :
    strategyOrder s options candidates strategy.name = strategy.better s := by
  funext quote best
  cases strategy with
  | lowestFee => simp [strategyOrder, name, better]
  | fastestSettlement => simp [strategyOrder, name, better]
  | highestReputation => simp [strategyOrder, name, better]

theorem ranks (s : Storage) (strategy : KeyStrategy) : Ranks (strategy.better s) := by
  cases strategy with
  | lowestFee =>
    apply Ranks.of_key fun quote => quote.feePercentage.toNat
    intro quote other
    simp [better, UInt32.lt_iff_toNat_lt]
  | fastestSettlement =>
    apply Ranks.of_key fun quote => (settlementTime s quote).toNat
    intro quote other
    simp [better, UInt64.lt_iff_toNat_lt]
  | highestReputation =>
    apply Ranks.of_key fun quote => OrderDual.toDual (reputation s quote).toNat
    intro quote other
    simp [better, UInt32.lt_iff_toNat_lt]

end KeyStrategy

/-- The gates of a request on an anchor and its latest quote. -/
structure PassesGates (env : Env) (s : Storage) (options : RoutingOptions) (quote : Quote) :
    Prop where
  listed : quote.anchor ∈ s.anchors.list
  welcome : isAnchorBlacklisted s quote.anchor = false
  active : ∃ routing, s.anchors.routing.get quote.anchor = some routing ∧
    routing.isActive = true ∧ options.minReputation ≤ routing.reputationScore
  latest : latestQuote s quote.anchor = .ok (some quote)
  advertises : advertisesQuoteService s quote.anchor = true
  pair : quote.isFor options.request = true
  current : env.timestamp < quote.validUntil
  valid : isInvalidated s quote.anchor quote.quoteId = false
  amount : quote.admits options.request.amount = true

structure SubjectPasses (env : Env) (s : Storage) (options : RoutingOptions) : Prop where
  compliance : options.requireCompliance = true → compliancePassed s options.subject = true
  kyc : options.requireKyc = true → getKycStatusInternal env s options.subject = .approved

/-- Both assets of the request have the form of a currency code. -/
def NamesCurrencies (request : RoutingRequest) : Prop :=
  validateCurrencyCode request.baseAsset = .ok () ∧ validateCurrencyCode request.quoteAsset = .ok ()

/-- No quote that passes the gates has a better key, and those of anchors listed earlier have a
worse one. -/
structure ChosenFirst (env : Env) (s : Storage) (options : RoutingOptions) (strategy : KeyStrategy)
    (quote : Quote) : Prop where
  passes : PassesGates env s options quote
  optimal : ∀ other, PassesGates env s options other → strategy.better s other quote = false
  first : ∃ before after, s.anchors.list = before ++ quote.anchor :: after ∧
    ∀ other, PassesGates env s options other → other.anchor ∈ before →
      strategy.better s quote other = true

section Selection

variable {env : Env} {s s' : Storage} {options : RoutingOptions} {quote : Quote}
  {candidates : List Quote} {strategy : KeyStrategy}

theorem passesGates_iff : PassesGates env s options quote ↔
    quote.anchor ∈ s.anchors.list ∧ candidateOf env s options quote.anchor = .ok (some quote) := by
  rw [candidateOf_eq_some]
  simp only [activeMeta_eq_some, acceptsQuote, Bool.and_eq_true, Bool.not_eq_true',
    decide_eq_true_eq]
  constructor
  · intro h
    exact ⟨h.listed, h.welcome, h.active, h.latest,
      ⟨⟨⟨h.advertises, h.pair⟩, h.current⟩, h.valid⟩, h.amount⟩
  · intro h
    obtain ⟨hlisted, hwelcome, hactive, hlatest, haccepts, hamount⟩ := h
    obtain ⟨⟨⟨hadvertises, hpair⟩, hcurrent⟩, hvalid⟩ := haccepts
    exact ⟨hlisted, hwelcome, hactive, hlatest, hadvertises, hpair, hcurrent, hvalid, hamount⟩

theorem anchor_of_candidate (hwf : s.quotes.WellFormed) {anchor : Address}
    (h : candidateOf env s options anchor = .ok (some quote)) : quote.anchor = anchor :=
  (latest_own hwf (candidateOf_eq_some.mp h).2.2.1).1

theorem mem_candidates (hwf : s.quotes.WellFormed)
    (h : routingCandidates env s options = .ok candidates) :
    quote ∈ candidates ↔ PassesGates env s options quote := by
  rw [passesGates_iff, mem_collect h]
  constructor
  · intro hsource
    obtain ⟨anchor, hlisted, hcandidate⟩ := hsource
    obtain rfl := anchor_of_candidate hwf hcandidate
    exact ⟨hlisted, hcandidate⟩
  · intro hsource
    exact ⟨quote.anchor, hsource⟩

theorem succeeds_latestQuote (hcurrent : s.quotes.Current) (anchor : Address) :
    Succeeds (latestQuote s anchor) := by
  unfold latestQuote
  cases hid : s.quotes.latest.get anchor with
  | none => exact succeeds_ok _
  | some id =>
    cases hget : s.quotes.record.get (anchor, id) with
    | none => exact ⟨none, by simp [hget]⟩
    | some stored =>
      obtain ⟨quote, rfl⟩ := hcurrent _ stored hget
      exact ⟨some quote, by simp [hget]⟩

/-- Where every quote can be read, the search for candidates comes to an end. -/
theorem succeeds_routingCandidates (hcurrent : s.quotes.Current) :
    Succeeds (routingCandidates env s options) := by
  apply succeeds_collect.mpr
  intro anchor _
  unfold candidateOf
  split
  · exact succeeds_ok _
  · split
    · exact succeeds_ok _
    · rw [succeeds_bind_pure]
      exact succeeds_latestQuote hcurrent anchor

theorem checkCompliance_eq_ok {subject : Address} {required : Bool} :
    checkCompliance s subject required = .ok () ↔
      (required = true → compliancePassed s subject = true) := by
  unfold checkCompliance
  cases required with
  | false => simp
  | true => simp

theorem checkKyc_eq_ok {subject : Address} {required : Bool} :
    checkKyc env s subject required = .ok () ↔
      (required = true → getKycStatusInternal env s subject = .approved) := by
  unfold checkKyc
  dsimp only
  split
  · rename_i h
    simp [h.1, h.2]
  · rename_i h
    simpa using h

theorem checkSubject_eq_ok : checkSubject env s options = .ok () ↔ SubjectPasses env s options := by
  rw [checkSubject, bind_eq_ok]
  constructor
  · intro h
    obtain ⟨_, hcompliance, hkyc⟩ := h
    exact ⟨checkCompliance_eq_ok.mp hcompliance, checkKyc_eq_ok.mp hkyc⟩
  · intro h
    exact ⟨(), checkCompliance_eq_ok.mpr h.compliance, checkKyc_eq_ok.mpr h.kyc⟩

/-- A subject that does not pass is reported under an error of its own. -/
theorem avoids_checkSubject :
    Avoids (.withError .noQuotesAvailable) (checkSubject env s options) := by
  apply Avoids.bind
  · unfold checkCompliance
    split
    · exact avoids_require (by decide)
    · exact avoids_pure ()
  · intro _ _
    unfold checkKyc
    dsimp only
    split
    · apply avoids_error
      generalize getKycStatusInternal env s options.subject = status
      cases status <;> decide
    · exact avoids_pure ()

theorem avoids_validateCurrencyCode (code : String) :
    Avoids (.withError .noQuotesAvailable) (validateCurrencyCode code) :=
  avoids_require (by decide)

theorem routeTransaction_of_no_candidate (hcodes : NamesCurrencies options.request)
    (hcandidates : routingCandidates env s options = .ok []) :
    routeTransaction env s options = .error (.withError .noQuotesAvailable) := by
  simp only [routeTransaction, hcodes.1, hcodes.2, hcandidates]
  rfl

theorem routeTransaction_of_candidates {first : Quote} (hcodes : NamesCurrencies options.request)
    (hcandidates : routingCandidates env s options = .ok (first :: candidates))
    (hstrategy : options.strategy.head? = some strategy.name) :
    routeTransaction env s options = (do
      checkSubject env s options
      let best := keepBest (strategy.better s) first (first :: candidates)
      return (s.publish (.routeSelected "transaction_routed" best.quoteId env.timestamp []),
        best)) := by
  have horder : strategy.better s =
      strategyOrder s options (first :: candidates) strategy.name :=
    strategy.strategyOrder_name.symm
  simp only [routeTransaction, hcodes.1, hcodes.2, hcandidates, hstrategy, horder]
  rfl

/-- The first of the best candidates is the one chosen, as candidates come in the order of their
anchors. -/
theorem chosenFirst_of_candidates (hwf : s.quotes.WellFormed)
    (hcandidates : routingCandidates env s options = .ok candidates)
    (hbest : IsFirstBest (strategy.better s) candidates quote) :
    ChosenFirst env s options strategy quote where
  passes := (mem_candidates hwf hcandidates).mp hbest.mem
  optimal := by
    intro other hother
    exact hbest.not_better (strategy.ranks s) ((mem_candidates hwf hcandidates).mpr hother)
  first := by
    obtain ⟨earlier, later, rfl, hearlier, _⟩ := hbest
    obtain ⟨before, anchor, after, hlist, hsource, hbefore, _⟩ := collect_eq_append hcandidates
    obtain rfl := anchor_of_candidate hwf hsource
    refine ⟨before, after, hlist, ?_⟩
    intro other hother hlisted
    apply hearlier
    exact (mem_collect hbefore).mpr ⟨other.anchor, hlisted, (passesGates_iff.mp hother).2⟩

theorem names_of_succeeds (h : Succeeds (routeTransaction env s options)) :
    NamesCurrencies options.request := by
  obtain ⟨_, hbase, h⟩ := succeeds_bind.mp h
  obtain ⟨_, hcounter, _⟩ := succeeds_bind.mp h
  exact ⟨hbase, hcounter⟩

theorem names_of_no_quotes
    (h : routeTransaction env s options = .error (.withError .noQuotesAvailable)) :
    NamesCurrencies options.request := by
  unfold routeTransaction at h
  cases hbase : validateCurrencyCode options.request.baseAsset with
  | error e =>
    rw [hbase] at h
    exact absurd (hbase.trans (congrArg _ (Except.error.inj h))) (avoids_validateCurrencyCode _)
  | ok _ =>
    rw [hbase] at h
    cases hcounter : validateCurrencyCode options.request.quoteAsset with
    | error e =>
      rw [hcounter] at h
      exact absurd (hcounter.trans (congrArg _ (Except.error.inj h)))
        (avoids_validateCurrencyCode _)
    | ok _ => exact ⟨hbase, hcounter⟩

/-- What the full path does with a request for two currencies depends on the candidates and the
subject. -/
theorem route_succeeds_iff (hwf : s.quotes.WellFormed) (hcodes : NamesCurrencies options.request)
    (hcandidates : routingCandidates env s options = .ok candidates)
    (hstrategy : options.strategy.head? = some strategy.name) :
    Succeeds (routeTransaction env s options) ↔
      SubjectPasses env s options ∧ ∃ quote, PassesGates env s options quote := by
  cases candidates with
  | nil =>
    rw [routeTransaction_of_no_candidate hcodes hcandidates]
    constructor
    · intro h
      exact absurd h (not_succeeds_error _)
    · intro h
      obtain ⟨_, quote, hpasses⟩ := h
      exact absurd ((mem_candidates hwf hcandidates).mpr hpasses) List.not_mem_nil
  | cons first rest =>
    rw [routeTransaction_of_candidates hcodes hcandidates hstrategy, succeeds_bind_pure]
    constructor
    · intro h
      obtain ⟨_, hsubject⟩ := h
      exact ⟨checkSubject_eq_ok.mp hsubject, first,
        (mem_candidates hwf hcandidates).mp List.mem_cons_self⟩
    · intro h
      exact ⟨(), checkSubject_eq_ok.mpr h.1⟩

theorem route_no_quotes_iff (hwf : s.quotes.WellFormed) (hcodes : NamesCurrencies options.request)
    (hcandidates : routingCandidates env s options = .ok candidates)
    (hstrategy : options.strategy.head? = some strategy.name) :
    routeTransaction env s options = .error (.withError .noQuotesAvailable) ↔
      ∀ quote, ¬ PassesGates env s options quote := by
  cases candidates with
  | nil =>
    rw [routeTransaction_of_no_candidate hcodes hcandidates]
    constructor
    · intro _ quote hpasses
      exact absurd ((mem_candidates hwf hcandidates).mpr hpasses) List.not_mem_nil
    · intro _
      rfl
  | cons first rest =>
    constructor
    · intro h
      rw [routeTransaction_of_candidates hcodes hcandidates hstrategy] at h
      exact absurd h (avoids_checkSubject.bind fun _ _ => avoids_pure _)
    · intro h
      exact absurd ((mem_candidates hwf hcandidates).mp List.mem_cons_self) (h first)

end Selection

/-- The full path with a strategy that compares one key. It returns the first of the best quotes
that pass the gates; it does so when the subject passes and there is such a quote, and reports that
there is none only then. -/
theorem routes_first_best (env : Env) (s : Storage) (options : RoutingOptions)
    (strategy : KeyStrategy) (hwf : s.quotes.WellFormed) (hcurrent : s.quotes.Current)
    (hstrategy : options.strategy.head? = some strategy.name) :
    (∀ s' quote, routeTransaction env s options = .ok (s', quote) →
      ChosenFirst env s options strategy quote) ∧
    (Succeeds (routeTransaction env s options) ↔ NamesCurrencies options.request ∧
      SubjectPasses env s options ∧ ∃ quote, PassesGates env s options quote) ∧
    (routeTransaction env s options = .error (.withError .noQuotesAvailable) ↔
      NamesCurrencies options.request ∧ ∀ quote, ¬ PassesGates env s options quote) := by
  have hsearch : Succeeds (routingCandidates env s options) := succeeds_routingCandidates hcurrent
  obtain ⟨candidates, hcandidates⟩ := hsearch
  refine ⟨?_, ?_, ?_⟩
  · intro s' quote h
    have hcodes := names_of_succeeds ⟨_, h⟩
    cases candidates with
    | nil =>
      rw [routeTransaction_of_no_candidate hcodes hcandidates] at h
      cases h
    | cons first rest =>
      rw [routeTransaction_of_candidates hcodes hcandidates hstrategy] at h
      obtain ⟨_, _, hbest⟩ := bind_eq_ok.mp h
      obtain ⟨_, rfl⟩ := Prod.mk.inj (pure_eq_ok.mp hbest)
      exact chosenFirst_of_candidates hwf hcandidates (isFirstBest_keepBest (strategy.ranks s))
  · constructor
    · intro h
      have hcodes := names_of_succeeds h
      exact ⟨hcodes, (route_succeeds_iff hwf hcodes hcandidates hstrategy).mp h⟩
    · intro h
      exact (route_succeeds_iff hwf h.1 hcandidates hstrategy).mpr h.2
  · constructor
    · intro h
      have hcodes := names_of_no_quotes h
      exact ⟨hcodes, (route_no_quotes_iff hwf hcodes hcandidates hstrategy).mp h⟩
    · intro h
      exact (route_no_quotes_iff hwf h.1 hcandidates hstrategy).mpr h.2

namespace Demo

/-- An attestor joins, declares the quote service, offers a quote and is rated. -/
def join (a : Address) (key : UInt8) (feePercentage : UInt32) : List Input :=
  [sessionRegister a key, onLedger 1 (.configureServices a [3]),
    onLedger 1 (.submitQuote a { terms with feePercentage }),
    onLedger 1 (.setAnchorMetadata a 50 60 70 99 1000)]

/-- Three anchors that differ in their fees only. -/
def contest : List Input :=
  [deploy, openSession] ++ join bob 2 20 ++ join alice 1 10 ++ join admin 3 10

def contested : Storage := run host contest

def offerOf (anchor : Address) (quoteId : UInt64) (feePercentage : UInt32) : Quote :=
  { offer none with quoteId, anchor, feePercentage }

def contenders : List Quote := [offerOf bob 1 20, offerOf alice 2 10, offerOf admin 3 10]

theorem contested_candidates :
    routingCandidates noon contested (lowestFee 10) = .ok contenders := by
  decide +kernel

theorem contenders_pass : ∀ quote ∈ contenders, PassesGates noon contested (lowestFee 10) quote :=
  fun _ hquote => (mem_candidates (wellFormed_run _ _) contested_candidates).mp hquote

theorem routed_by_fee :
    ∃ s', routeTransaction noon contested (lowestFee 10) = .ok (s', offerOf alice 2 10) := by
  simp only [routeTransaction, bind_eq_ok, expect_eq_ok, pure_eq_ok, Prod.mk.injEq]
  exact ⟨_, (), by decide, (), by decide, contenders, contested_candidates, offerOf bob 1 20, rfl,
    (), by decide +kernel, "LowestFee", rfl, rfl, by decide +kernel⟩

end Demo

/-- Of three quotes the first one asks for more, and the last one asks for the same as the one that
is chosen. -/
theorem offer_routed_by_fee :
    (∀ quote ∈ Demo.contenders,
      PassesGates Demo.noon Demo.contested (Demo.lowestFee 10) quote) ∧
    ChosenFirst Demo.noon Demo.contested (Demo.lowestFee 10) .lowestFee
      (Demo.offerOf Demo.alice 2 10) ∧
    Succeeds (routeTransaction Demo.noon Demo.contested (Demo.lowestFee 10)) ∧
    routeTransaction Demo.noon Demo.contested (Demo.lowestFee 10) ≠
      .error (.withError .noQuotesAvailable) := by
  have hroutes := routes_first_best Demo.noon Demo.contested (Demo.lowestFee 10) .lowestFee
    (wellFormed_run _ _) (current_run _ _) rfl
  obtain ⟨s', hrouted⟩ := Demo.routed_by_fee
  refine ⟨Demo.contenders_pass, hroutes.1 s' _ hrouted, ⟨_, hrouted⟩, ?_⟩
  intro hnone
  exact (hroutes.2.2.mp hnone).2 _ (Demo.contenders_pass _ List.mem_cons_self)

/-- A request whose subject has no KYC record is not told that there are no quotes. -/
theorem unknown_subject_has_own_error :
    ¬ ∀ (env : Env) (s : Storage) (options : RoutingOptions) (strategy : KeyStrategy),
      s.quotes.WellFormed → s.quotes.Current →
      options.strategy.head? = some strategy.name →
        (∀ s' quote, routeTransaction env s options = .ok (s', quote) →
          ChosenFirst env s options strategy quote ∧ SubjectPasses env s options) ∧
        (routeTransaction env s options = .error (.withError .noQuotesAvailable) ↔
          ¬ ∃ quote, PassesGates env s options quote ∧ SubjectPasses env s options) := by
  intro h
  let options : RoutingOptions := { Demo.lowestFee 10 with requireKyc := true }
  obtain ⟨_, hno⟩ := h Demo.noon Demo.ranked options .lowestFee (wellFormed_run _ _)
    (current_run _ _) rfl
  have hnone : ¬ ∃ quote, PassesGates Demo.noon Demo.ranked options quote ∧
      SubjectPasses Demo.noon Demo.ranked options := by
    intro hsome
    obtain ⟨_, _, hsubject⟩ := hsome
    exact absurd (hsubject.kyc rfl) (by decide)
  have hunknown : routeTransaction Demo.noon Demo.ranked options =
      .error (.withError .kycNotFound) := rfl
  have hrouted := hunknown.symm.trans (hno.mpr hnone)
  cases hrouted

end AnchorKit
