import AnchorKit.AnchorInvariants
import AnchorKit.QuoteInvariants

/-!
# The gates of the three routing paths

What each path asks of an anchor and its latest quote, and where the paths agree. The path with a
preferred anchor and the ranking leave out gates that the full path has.
-/

namespace AnchorKit

open Fallible

section Gates

variable {host : Host} {env : Env} {s s' : Storage} {options : RoutingOptions} {anchor : Address}
  {quote : Quote} {minReputation : UInt32} {routing : RoutingAnchorMeta}

@[simp] theorem activeMeta_eq_some : activeMeta s anchor minReputation = some routing ↔
    s.anchors.routing.get anchor = some routing ∧ routing.isActive = true ∧
      minReputation ≤ routing.reputationScore := by
  simp [activeMeta, Option.filter_eq_some_iff]

/-- The full path takes an anchor's quote when the anchor and the quote pass all of its gates. -/
theorem candidateOf_eq_some : candidateOf env s options anchor = .ok (some quote) ↔
    isAnchorBlacklisted s anchor = false ∧
      (∃ routing, activeMeta s anchor options.minReputation = some routing) ∧
      latestQuote s anchor = .ok (some quote) ∧
      acceptsQuote env s options.request anchor quote = true := by
  unfold candidateOf
  cases isAnchorBlacklisted s anchor with
  | true => simp
  | false =>
    cases activeMeta s anchor options.minReputation with
    | none => simp
    | some routing =>
      cases hlatest : latestQuote s anchor with
      | error e => simp [bind, Except.bind]
      | ok found =>
        cases found <;> simp [bind, Except.bind, pure, Except.pure, Option.filter_eq_some_iff]

/-- The ranking looks at the anchor's activity and reputation and at the time. -/
theorem rankable_eq_some : rankable env s minReputation anchor = .ok (some (routing, quote)) ↔
    activeMeta s anchor minReputation = some routing ∧
      latestQuote s anchor = .ok (some quote) ∧ env.timestamp < quote.validUntil := by
  unfold rankable
  cases activeMeta s anchor minReputation with
  | none => simp
  | some found =>
    cases hlatest : latestQuote s anchor with
    | error e => simp [bind, Except.bind]
    | ok latest =>
      cases latest with
      | none => simp [bind, Except.bind, pure, Except.pure]
      | some held =>
        simp only [bind, Except.bind, pure, Except.pure, Option.filter_eq_some_iff,
          Option.map_eq_some_iff, Except.ok.injEq, Option.some.injEq, Prod.mk.injEq,
          decide_eq_true_eq]
        constructor
        · rintro ⟨_, ⟨rfl, htime⟩, rfl, rfl⟩
          exact ⟨rfl, rfl, htime⟩
        · rintro ⟨rfl, rfl, htime⟩
          exact ⟨held, ⟨rfl, htime⟩, rfl, rfl⟩

theorem latest_own (hwf : s.quotes.WellFormed) (h : latestQuote s anchor = .ok (some quote)) :
    quote.anchor = anchor ∧ s.quotes.latest.get anchor = some quote.quoteId := by
  rw [latestQuote_eq_ok] at h
  obtain ⟨id, hid, hget⟩ := Option.bind_eq_some_iff.mp h
  obtain ⟨hanchor, hquote⟩ := hwf.own_key anchor id _ hget
  change quote.quoteId = id at hquote
  exact ⟨hanchor, by rw [hid, hquote]⟩

/-- The subject, the anchor and the quote pass all gates of the full path. -/
structure Eligible (env : Env) (s : Storage) (options : RoutingOptions) (quote : Quote) : Prop where
  listed : quote.anchor ∈ s.anchors.list
  candidate : candidateOf env s options quote.anchor = .ok (some quote)
  subject : checkSubject env s options = .ok ()

theorem eligible_of_routeTransaction (hwf : s.quotes.WellFormed)
    (h : routeTransaction env s options = .ok (s', quote)) : Eligible env s options quote := by
  obtain ⟨⟨candidates, hcandidates, hmem⟩, hsubject, _⟩ := routeTransaction_effects h
  obtain ⟨anchor, hlisted, hcandidate⟩ := (mem_collect hcandidates).mp hmem
  obtain ⟨_, _, hlatest, _⟩ := candidateOf_eq_some.mp hcandidate
  obtain ⟨rfl, _⟩ := latest_own hwf hlatest
  exact ⟨hlisted, hcandidate, hsubject⟩

/-- What the path with a preferred anchor asks of the request, the anchor and its latest quote. -/
structure PreferredServes (env : Env) (s : Storage) (options : RoutingOptions) (anchor : Address)
    (quote : Quote) : Prop where
  base : validateCurrencyCode options.request.baseAsset = .ok ()
  counter : validateCurrencyCode options.request.quoteAsset = .ok ()
  welcome : isAnchorBlacklisted s anchor = false
  active : ∃ routing, s.anchors.routing.get anchor = some routing ∧ routing.isActive = true
  latest : latestQuote s anchor = .ok (some quote)
  pair : quote.isFor options.request = true
  current : env.timestamp < quote.validUntil
  valid : isInvalidated s anchor quote.quoteId = false
  amount : quote.admits options.request.amount = true

theorem preferredQuote_eq_some : preferredQuote env s options anchor = .ok (some quote) ↔
    isAnchorBlacklisted s anchor = false ∧
      (∃ routing, s.anchors.routing.get anchor = some routing ∧ routing.isActive = true) ∧
      latestQuote s anchor = .ok (some quote) ∧
      (quote.isFor options.request && env.timestamp < quote.validUntil &&
        !isInvalidated s anchor ((s.quotes.latest.get anchor).getD 0) &&
        quote.admits options.request.amount) = true := by
  unfold preferredQuote
  cases isAnchorBlacklisted s anchor with
  | true => simp
  | false =>
    cases s.anchors.routing.get anchor with
    | none => simp
    | some routing =>
      cases hactive : routing.isActive with
      | false => simp [hactive]
      | true =>
        cases hlatest : latestQuote s anchor with
        | error e => simp [bind, Except.bind, hactive]
        | ok found =>
          cases found <;> simp [bind, Except.bind, pure, Except.pure, hactive]

theorem preferredServes_iff (hwf : s.quotes.WellFormed) :
    PreferredServes env s options anchor quote ↔
      validateCurrencyCode options.request.baseAsset = .ok () ∧
      validateCurrencyCode options.request.quoteAsset = .ok () ∧
      preferredQuote env s options anchor = .ok (some quote) := by
  rw [preferredQuote_eq_some]
  constructor
  · intro h
    have hid := (latest_own hwf h.latest).2
    have hflag := h.valid
    refine ⟨h.base, h.counter, h.welcome, h.active, h.latest, ?_⟩
    simp [h.pair, h.current, h.amount, hid, hflag]
  · rintro ⟨hbase, hcounter, hwelcome, hactive, hlatest, hquote⟩
    rw [(latest_own hwf hlatest).2, Option.getD_some] at hquote
    simp only [Bool.and_eq_true, decide_eq_true_eq, Bool.not_eq_true'] at hquote
    obtain ⟨⟨⟨hpair, hcurrent⟩, hvalid⟩, hamount⟩ := hquote
    exact ⟨hbase, hcounter, hwelcome, hactive, hlatest, hpair, hcurrent, hvalid, hamount⟩

theorem routed_with_preferred (hwf : s.quotes.WellFormed)
    (h : routeWithFallback env s options anchor = .ok (s', quote)) :
    PreferredServes env s options anchor quote ∨ Eligible env s options quote := by
  obtain ⟨hbase, hcounter, ⟨hpreferred, _⟩ | ⟨_, hfull⟩⟩ := routeWithFallback_effects h
  · exact Or.inl ((preferredServes_iff hwf).mpr ⟨hbase, hcounter, hpreferred⟩)
  · -- the event of the fallback is not looked at
    obtain ⟨hlisted, hcandidate, hsubject⟩ :=
      eligible_of_routeTransaction (s := s.publish .quoteFallback) hwf hfull
    exact Or.inr ⟨hlisted, hcandidate, hsubject⟩

/-- The gates of the full path that the path with a preferred anchor leaves out. -/
structure PassesSkippedGates (env : Env) (s : Storage) (options : RoutingOptions)
    (anchor : Address) : Prop where
  advertises : advertisesQuoteService s anchor = true
  reputation : ∀ routing, s.anchors.routing.get anchor = some routing →
    options.minReputation ≤ routing.reputationScore
  subject : checkSubject env s options = .ok ()

theorem PreferredServes.eligible_iff (h : PreferredServes env s options anchor quote)
    (hwf : s.quotes.WellFormed) (hknown : s.anchors.KnownListed) :
    Eligible env s options quote ↔ PassesSkippedGates env s options anchor := by
  obtain ⟨rfl, _⟩ := latest_own hwf h.latest
  obtain ⟨routing, hrouting, hactive⟩ := h.active
  constructor
  · intro heligible
    obtain ⟨_, ⟨found, hfound⟩, _, haccepts⟩ := candidateOf_eq_some.mp heligible.candidate
    obtain ⟨hget, _, hreputation⟩ := activeMeta_eq_some.mp hfound
    simp only [acceptsQuote, Bool.and_eq_true] at haccepts
    refine ⟨haccepts.1.1.1.1, ?_, heligible.subject⟩
    intro other hother
    obtain rfl : found = other := Option.some.inj (hget.symm.trans hother)
    exact hreputation
  · intro hgates
    refine ⟨hknown _ (KeyedStore.has_iff.mpr ⟨_, hrouting⟩), ?_, hgates.subject⟩
    apply candidateOf_eq_some.mpr
    refine ⟨h.welcome, ⟨routing, ?_⟩, h.latest, ?_⟩
    · exact activeMeta_eq_some.mpr ⟨hrouting, hactive, hgates.reputation routing hrouting⟩
    · simp [acceptsQuote, hgates.advertises, h.pair, h.current, h.valid, h.amount]

end Gates

/-- Every quote that is routed with a preferred anchor is eligible on the full path, exactly when
a preferred anchor that serves the request also passes the gates that are left out for it. -/
theorem fallback_eligible_iff (host : Host) (is : List Input) (env : Env)
    (options : RoutingOptions) (preferred : Address) :
    (∀ s' quote, routeWithFallback env (run host is) options preferred = .ok (s', quote) →
      Eligible env (run host is) options quote) ↔
    ((∃ quote, PreferredServes env (run host is) options preferred quote) →
      PassesSkippedGates env (run host is) options preferred) := by
  have hwf := wellFormed_run host is
  have hknown := knownListed_run host is
  constructor
  · rintro heligible ⟨quote, hserves⟩
    obtain ⟨hbase, hcounter, hpreferred⟩ := (preferredServes_iff hwf).mp hserves
    have hrouted := routeWithFallback_of_preferred hbase hcounter hpreferred
    exact (hserves.eligible_iff hwf hknown).mp (heligible _ _ hrouted)
  · intro hgates s' quote hrouted
    rcases routed_with_preferred hwf hrouted with hserves | heligible
    · exact (hserves.eligible_iff hwf hknown).mpr (hgates ⟨quote, hserves⟩)
    · exact heligible

namespace Demo

def rateAlice : Input := onLedger 1 (.setAnchorMetadata alice 50 60 70 99 1000)

/-- Route an amount of USDC for EURC to the anchor with the lowest fee. -/
def lowestFee (amount : UInt64) : RoutingOptions :=
  { request := ⟨"USDC", "EURC", amount⟩, strategy := ["LowestFee"], minReputation := 0,
    requireKyc := false, requireCompliance := false, subject := bob, feeWeight := 1000,
    speedWeight := 0, reputationWeight := 0 }

def noon : Env := ⟨1000, 1, []⟩

end Demo

/-- A preferred anchor that has never declared the quote service is routed to. -/
theorem undeclared_anchor_routed :
    ¬ ∀ s' quote,
      routeWithFallback Demo.noon (run Demo.host (Demo.offered none ++ [Demo.rateAlice]))
        (Demo.lowestFee 10) Demo.alice = .ok (s', quote) →
      Eligible Demo.noon (run Demo.host (Demo.offered none ++ [Demo.rateAlice]))
        (Demo.lowestFee 10) quote := by
  intro h
  have heligible := h _ (Demo.offer none) rfl
  have hpassed := heligible.candidate
  revert hpassed
  decide

section Ranking

variable {host : Host} {env : Env} {s : Storage} {options : RoutingOptions} {quote : Quote}
  {anchor : Address} {minReputation : UInt32}

def Considers (env : Env) (s : Storage) (options : RoutingOptions) (quote : Quote) : Prop :=
  ∃ candidates, routingCandidates env s options = .ok candidates ∧ quote ∈ candidates

/-- What is true of the quotes that the ranking returns: which anchors they come from, and for
which requests the full path considers them. -/
structure RankedQuote (env : Env) (s : Storage) (minReputation : UInt32) (quote : Quote) :
    Prop where
  active : quote.anchor ∈ listActiveAnchors s
  reputation : ∃ routing, s.anchors.routing.get quote.anchor = some routing ∧
    minReputation ≤ routing.reputationScore
  latest : latestQuote s quote.anchor = .ok (some quote)
  current : env.timestamp < quote.validUntil
  considered : ∀ options : RoutingOptions, options.minReputation = minReputation →
    quote.isFor options.request = true → quote.admits options.request.amount = true →
    (Considers env s options quote ↔ isAnchorBlacklisted s quote.anchor = false ∧
      advertisesQuoteService s quote.anchor = true ∧
      isInvalidated s quote.anchor quote.quoteId = false)

/-- The full path reads no quote that the ranking does not read. -/
theorem candidateOf_succeeds (hreputation : options.minReputation = minReputation)
    (h : Succeeds (rankable env s minReputation anchor)) :
    Succeeds (candidateOf env s options anchor) := by
  unfold candidateOf
  rw [hreputation]
  unfold rankable at h
  split
  · exact succeeds_ok _
  · split
    · exact succeeds_ok _
    · rename_i hactive
      rw [hactive] at h
      simp only [succeeds_bind_pure] at h ⊢
      exact h

theorem ranked_sound (hwf : s.quotes.WellFormed) {ranked : List (RoutingAnchorMeta × Quote)}
    (hranked : collect (rankable env s minReputation) s.anchors.list = .ok ranked)
    {routing : RoutingAnchorMeta} (hentry : (routing, quote) ∈ ranked) :
    RankedQuote env s minReputation quote := by
  obtain ⟨anchor, hlisted, hrankable⟩ := (mem_collect hranked).mp hentry
  obtain ⟨hmeta, hlatest, hcurrent⟩ := rankable_eq_some.mp hrankable
  obtain ⟨hget, hactive, hreputation⟩ := activeMeta_eq_some.mp hmeta
  obtain ⟨rfl, _⟩ := latest_own hwf hlatest
  refine ⟨?_, ⟨routing, hget, hreputation⟩, hlatest, hcurrent, ?_⟩
  · rw [listActiveAnchors, List.mem_filter, hget]
    exact ⟨hlisted, hactive⟩
  · intro options hmin hpair hamount
    have hreads : Succeeds (routingCandidates env s options) := by
      apply succeeds_collect.mpr
      intro other hother
      exact candidateOf_succeeds hmin (succeeds_collect.mp ⟨_, hranked⟩ other hother)
    obtain ⟨candidates, hcandidates⟩ := hreads
    constructor
    · rintro ⟨found, hfound, hmem⟩
      obtain ⟨other, _, hcandidate⟩ := (mem_collect hfound).mp hmem
      obtain ⟨hwelcome, _, hother, haccepts⟩ := candidateOf_eq_some.mp hcandidate
      obtain ⟨rfl, _⟩ := latest_own hwf hother
      simp only [acceptsQuote, Bool.and_eq_true, Bool.not_eq_true'] at haccepts
      exact ⟨hwelcome, haccepts.1.1.1.1, haccepts.1.2⟩
    · rintro ⟨hwelcome, hadvertises, hvalid⟩
      refine ⟨candidates, hcandidates, (mem_collect hcandidates).mpr ⟨quote.anchor, hlisted, ?_⟩⟩
      apply candidateOf_eq_some.mpr
      refine ⟨hwelcome, ⟨routing, by rwa [hmin]⟩, hlatest, ?_⟩
      simp [acceptsQuote, hadvertises, hpair, hcurrent, hvalid, hamount]

end Ranking

def quoteOf (result : Except Panic (Storage × Quote)) : List Quote :=
  match result with
  | .ok (_, quote) => [quote]
  | .error _ => []

theorem mem_quoteOf {result : Except Panic (Storage × Quote)} {quote : Quote} :
    quote ∈ quoteOf result ↔ ∃ s', result = .ok (s', quote) := by
  rcases result with e | ⟨s', returned⟩
  · simp [quoteOf]
  · simp [quoteOf, eq_comm]

def routedQuotes (host : Host) (env : Env) (s : Storage) : Call → List Quote
  | .routeTransaction options => quoteOf (routeTransaction env s options)
  | .routeWithFallback options preferredAnchor =>
    quoteOf (routeWithFallback env s options preferredAnchor)
  | .routeAnchors feeWeight speedWeight reputationWeight maxResults minReputation =>
    match routeAnchors host env s feeWeight speedWeight reputationWeight maxResults minReputation with
    | .ok quotes => quotes
    | .error _ => []
  | _ => []

inductive Routed (env : Env) (s : Storage) (quote : Quote) : Call → Prop
  | full {options : RoutingOptions} (heligible : Eligible env s options quote) :
      Routed env s quote (.routeTransaction options)
  | fallback {options : RoutingOptions} {preferred : Address}
      (heligible : Eligible env s options quote) :
      Routed env s quote (.routeWithFallback options preferred)
  | preferred {options : RoutingOptions} {preferred : Address}
      (hserves : PreferredServes env s options preferred quote) :
      Routed env s quote (.routeWithFallback options preferred)
  | ranked {fee speed reputation maxResults minReputation : UInt32}
      (hranked : RankedQuote env s minReputation quote) :
      Routed env s quote (.routeAnchors fee speed reputation maxResults minReputation)

section Routed

variable {host : Host} {env : Env} {s s' : Storage} {quote : Quote} {c : Call}

theorem ranked_of_routeAnchors {fee speed reputation maxResults minReputation : UInt32}
    {quotes : List Quote} (hwf : s.quotes.WellFormed)
    (h : routeAnchors host env s fee speed reputation maxResults minReputation = .ok quotes)
    (hmem : quote ∈ quotes) : RankedQuote env s minReputation quote := by
  obtain ⟨ranked, hranked, hentries⟩ := routeAnchors_effects h
  obtain ⟨routing, hentry⟩ := hentries quote hmem
  exact ranked_sound hwf hranked hentry

theorem routed_of_mem (hwf : s.quotes.WellFormed) (h : quote ∈ routedQuotes host env s c) :
    Routed env s quote c := by
  cases c with
  | routeTransaction options =>
    obtain ⟨_, hrouted⟩ := mem_quoteOf.mp h
    exact .full (eligible_of_routeTransaction hwf hrouted)
  | routeWithFallback options preferred =>
    obtain ⟨_, hrouted⟩ := mem_quoteOf.mp h
    rcases routed_with_preferred hwf hrouted with hserves | heligible
    · exact .preferred hserves
    · exact .fallback heligible
  | routeAnchors fee speed reputation maxResults minReputation =>
    dsimp only [routedQuotes] at h
    split at h
    · rename_i quotes hquotes
      exact .ranked (ranked_of_routeAnchors hwf hquotes h)
    · cases h
  | _ => cases h

theorem Routed.active (h : Routed env s quote c) (hwf : s.quotes.WellFormed) :
    ∃ routing, s.anchors.routing.get quote.anchor = some routing ∧ routing.isActive = true := by
  have heligible {options : RoutingOptions} (h : Eligible env s options quote) :
      ∃ routing, s.anchors.routing.get quote.anchor = some routing ∧ routing.isActive = true := by
    obtain ⟨_, ⟨routing, hrouting⟩, _⟩ := candidateOf_eq_some.mp h.candidate
    obtain ⟨hget, hactive, _⟩ := activeMeta_eq_some.mp hrouting
    exact ⟨routing, hget, hactive⟩
  cases h with
  | full h => exact heligible h
  | fallback h => exact heligible h
  | preferred hserves =>
    obtain ⟨rfl, _⟩ := latest_own hwf hserves.latest
    exact hserves.active
  | ranked hranked =>
    have hmem := hranked.active
    rw [listActiveAnchors, List.mem_filter] at hmem
    obtain ⟨routing, hget, _⟩ := hranked.reputation
    have hactive := hmem.2
    rw [hget] at hactive
    exact ⟨routing, hget, hactive⟩

end Routed

/-- Every quote that the ranking returns is the current quote of an active anchor with the
reputation asked for, and for the requests it serves, the full path considers it too unless the
anchor or the quote is barred. -/
theorem ranked_quotes_sound (host : Host) (is : List Input) (env : Env)
    (feeWeight speedWeight reputationWeight maxResults minReputation : UInt32)
    (quotes : List Quote)
    (h : routeAnchors host env (run host is) feeWeight speedWeight reputationWeight maxResults
      minReputation = .ok quotes) :
    ∀ quote ∈ quotes, RankedQuote env (run host is) minReputation quote := by
  intro quote hquote
  exact ranked_of_routeAnchors (wellFormed_run host is) h hquote

namespace Demo

/-- Alice declares the quote service, offers a quote and is rated. -/
def ranked : Storage := run host
  [deploy, openSession, sessionRegister alice 1, onLedger 1 (.configureServices alice [3]),
    onLedger 1 (.submitQuote alice terms), rateAlice]

theorem ranking : routeAnchors host noon ranked 1000 0 0 0 0 = .ok [offer none] := by
  decide +kernel

end Demo

theorem offer_ranked_soundly : RankedQuote Demo.noon Demo.ranked 0 (Demo.offer none) :=
  ranked_quotes_sound Demo.host _ Demo.noon 1000 0 0 0 0 [Demo.offer none] Demo.ranking _
    List.mem_cons_self

/-- The ranking knows no amount, so its quotes need not admit the amount of a request. -/
theorem ranked_beyond_its_limits :
    ¬ ∀ quotes, routeAnchors Demo.host Demo.noon Demo.ranked 1000 0 0 0 0 = .ok quotes →
      ∀ quote ∈ quotes, Considers Demo.noon Demo.ranked (Demo.lowestFee 2000) quote := by
  intro h
  obtain ⟨candidates, hcandidates, hmem⟩ := h _ Demo.ranking (Demo.offer none) List.mem_cons_self
  have hnone : routingCandidates Demo.noon Demo.ranked (Demo.lowestFee 2000) = .ok [] := by decide
  rw [hnone] at hcandidates
  obtain rfl := Except.ok.inj hcandidates
  cases hmem

end AnchorKit
