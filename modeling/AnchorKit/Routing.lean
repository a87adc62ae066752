import AnchorKit.AnchorMetadata
import AnchorKit.Attestations
import AnchorKit.Library.Binary32
import AnchorKit.Quotes

/-!
# Routing

The full routing path, the path that tries a preferred anchor first, and the ranking of anchors.
Each of the three filters the anchors' latest quotes in its own way.
-/

namespace AnchorKit

open Fallible

structure RoutingRequest where
  baseAsset : String
  quoteAsset : String
  amount : UInt64
deriving DecidableEq, Repr

structure RoutingOptions where
  request : RoutingRequest
  strategy : List String
  minReputation : UInt32
  requireKyc : Bool
  requireCompliance : Bool
  subject : Address
  feeWeight : UInt32
  speedWeight : UInt32
  reputationWeight : UInt32
deriving DecidableEq, Repr

def isAnchorBlacklisted (s : Storage) (anchor : Address) : Bool := s.anchors.blacklist.has anchor

def listActiveAnchors (s : Storage) : List Address :=
  s.anchors.list.filter fun anchor =>
    ((s.anchors.routing.get anchor).map RoutingAnchorMeta.isActive).getD false

def Quote.isFor (quote : Quote) (request : RoutingRequest) : Bool :=
  quote.baseAsset = request.baseAsset && quote.quoteAsset = request.quoteAsset

/-- A maximum of zero stands for no maximum. -/
def Quote.admits (quote : Quote) (amount : UInt64) : Bool :=
  quote.minimumAmount ≤ amount && (quote.maximumAmount = 0 || amount ≤ quote.maximumAmount)

def activeMeta (s : Storage) (anchor : Address) (minReputation : UInt32) :
    Option RoutingAnchorMeta :=
  (s.anchors.routing.get anchor).filter fun routing =>
    routing.isActive && minReputation ≤ routing.reputationScore

def acceptsQuote (env : Env) (s : Storage) (request : RoutingRequest) (anchor : Address)
    (quote : Quote) : Bool :=
  advertisesQuoteService s anchor && quote.isFor request && env.timestamp < quote.validUntil &&
    !isInvalidated s anchor quote.quoteId && quote.admits request.amount

/-- The quote of `anchor` that the full path considers. -/
def candidateOf (env : Env) (s : Storage) (options : RoutingOptions) (anchor : Address) :
    Except Panic (Option Quote) :=
  if isAnchorBlacklisted s anchor then .ok none
  else
    match activeMeta s anchor options.minReputation with
    | none => .ok none
    | some _ => do
      let quote ← latestQuote s anchor
      return quote.filter (acceptsQuote env s options.request anchor)

def routingCandidates (env : Env) (s : Storage) (options : RoutingOptions) :
    Except Panic (List Quote) :=
  collect (candidateOf env s options) s.anchors.list

/-- Keep the first of the best candidates. -/
def pickBest (better : Quote → Quote → Bool) (first : Quote) (candidates : List Quote) : Quote :=
  candidates.foldl (fun best quote => if better quote best then quote else best) first

def settlementTime (s : Storage) (quote : Quote) : UInt64 :=
  ((s.anchors.routing.get quote.anchor).map RoutingAnchorMeta.averageSettlementTime).getD
    18446744073709551615

def reputation (s : Storage) (quote : Quote) : UInt32 :=
  ((s.anchors.routing.get quote.anchor).map RoutingAnchorMeta.reputationScore).getD 0

structure Weights where
  fee : ℚ
  speed : ℚ
  reputation : ℚ
deriving DecidableEq

/-- Weights are given in thousandths. -/
def Weights.ofThousandths (fee speed reputation : UInt32) : Weights :=
  let scaled (w : UInt32) : ℚ := Binary32.div (Binary32.ofNat w.toNat) (Binary32.ofNat 1000)
  ⟨scaled fee, scaled speed, scaled reputation⟩

/-- `WeightedRoutingStrategy::validate`. -/
def Weights.validate (w : Weights) : Bool :=
  let sum := Binary32.add (Binary32.add w.fee w.speed) w.reputation
  0 ≤ w.fee && 0 ≤ w.speed && 0 ≤ w.reputation &&
    |Binary32.sub sum 1| < Binary32.round (1 / 100)

/-- The largest values among the anchors compared. -/
structure Maxima where
  fee : UInt32
  settlement : UInt64
  reputation : UInt32
deriving DecidableEq, Repr

def Maxima.zero : Maxima := ⟨0, 0, 0⟩

/-- Low fees and fast settlement score high, each against the largest value. -/
def compositeScore (w : Weights) (fee : UInt32) (settlement : UInt64) (reputation : UInt32)
    (maxima : Maxima) : ℚ :=
  let ratio (n d : ℕ) : ℚ := Binary32.div (Binary32.ofNat n) (Binary32.ofNat d)
  let feeScore : ℚ :=
    if maxima.fee = 0 then 1 else Binary32.sub 1 (ratio fee.toNat maxima.fee.toNat)
  let speedScore : ℚ :=
    if maxima.settlement = 0 then 1
    else Binary32.sub 1 (ratio settlement.toNat maxima.settlement.toNat)
  let repScore : ℚ :=
    if maxima.reputation = 0 then 0 else ratio reputation.toNat maxima.reputation.toNat
  Binary32.add (Binary32.add (Binary32.mul w.fee feeScore) (Binary32.mul w.speed speedScore))
    (Binary32.mul w.reputation repScore)

/-- The maxima of the candidates; an anchor without metadata counts with its fee only. -/
def candidateMaxima (s : Storage) (candidates : List Quote) : Maxima :=
  candidates.foldl (fun maxima quote =>
    let fee := max maxima.fee quote.feePercentage
    match s.anchors.routing.get quote.anchor with
    | some routing =>
      ⟨fee, max maxima.settlement routing.averageSettlementTime,
        max maxima.reputation routing.reputationScore⟩
    | none => { maxima with fee }) .zero

/-- The score by which the full path compares candidates. -/
def weightedScore (s : Storage) (options : RoutingOptions) (candidates : List Quote)
    (quote : Quote) : ℚ :=
  let w := Weights.ofThousandths options.feeWeight options.speedWeight options.reputationWeight
  compositeScore w quote.feePercentage (settlementTime s quote) (reputation s quote)
    (candidateMaxima s candidates)

/-- The order a strategy puts on the candidates; an unknown strategy prefers none. -/
def strategyOrder (s : Storage) (options : RoutingOptions) (candidates : List Quote)
    (strategy : String) (quote best : Quote) : Bool :=
  if strategy = "LowestFee" then quote.feePercentage < best.feePercentage
  else if strategy = "FastestSettlement" then settlementTime s quote < settlementTime s best
  else if strategy = "HighestReputation" then reputation s best < reputation s quote
  else if strategy = "WeightedScore" then
    weightedScore s options candidates best < weightedScore s options candidates quote
  else false

def checkSubject (env : Env) (s : Storage) (options : RoutingOptions) : Except Panic Unit := do
  checkCompliance s options.subject options.requireCompliance
  checkKyc env s options.subject options.requireKyc

def routeTransaction (env : Env) (s : Storage) (options : RoutingOptions) :
    Except Panic (Storage × Quote) := do
  validateCurrencyCode options.request.baseAsset
  validateCurrencyCode options.request.quoteAsset
  let candidates ← routingCandidates env s options
  let first ← expect candidates.head? (.withError .noQuotesAvailable)
  checkSubject env s options
  let strategy ← expect options.strategy.head? (.withError .noQuotesAvailable)
  let best := pickBest (strategyOrder s options candidates strategy) first candidates
  return (s.publish (.routeSelected "transaction_routed" best.quoteId env.timestamp []), best)

def preferredQuote (env : Env) (s : Storage) (options : RoutingOptions) (anchor : Address) :
    Except Panic (Option Quote) :=
  if isAnchorBlacklisted s anchor then .ok none
  else
    match s.anchors.routing.get anchor with
    | none => .ok none
    | some routing =>
      if routing.isActive then do
        let quote ← latestQuote s anchor
        let quoteId := (s.quotes.latest.get anchor).getD 0
        return quote.filter fun quote =>
          quote.isFor options.request && env.timestamp < quote.validUntil &&
            !isInvalidated s anchor quoteId && quote.admits options.request.amount
      else .ok none

def routeWithFallback (env : Env) (s : Storage) (options : RoutingOptions)
    (preferredAnchor : Address) : Except Panic (Storage × Quote) := do
  validateCurrencyCode options.request.baseAsset
  validateCurrencyCode options.request.quoteAsset
  match ← preferredQuote env s options preferredAnchor with
  | some quote => return (s.publish (.quoteRouted quote.quoteId), quote)
  | none => routeTransaction env (s.publish .quoteFallback) options

def rankable (env : Env) (s : Storage) (minReputation : UInt32) (anchor : Address) :
    Except Panic (Option (RoutingAnchorMeta × Quote)) :=
  match activeMeta s anchor minReputation with
  | none => .ok none
  | some routing => do
    let quote ← latestQuote s anchor
    return (quote.filter fun quote => env.timestamp < quote.validUntil).map fun quote =>
      (routing, quote)

def rankedMaxima (ranked : List (RoutingAnchorMeta × Quote)) : Maxima :=
  ranked.foldl (fun maxima entry =>
    ⟨max maxima.fee entry.2.feePercentage, max maxima.settlement entry.1.averageSettlementTime,
      max maxima.reputation entry.1.reputationScore⟩) .zero

/-- `score_anchor` in millionths, rounded down. -/
def scoreAnchor (w : Weights) (maxima : Maxima) (routing : RoutingAnchorMeta) (quote : Quote) : ℕ :=
  let score := Binary32.clamp
    (compositeScore w quote.feePercentage routing.averageSettlementTime routing.reputationScore
      maxima) 0 1
  (Binary32.mul score 1000000).floor.toNat

def routeAnchors (host : Host) (env : Env) (s : Storage)
    (feeWeight speedWeight reputationWeight maxResults minReputation : UInt32) :
    Except Panic (List Quote) := do
  require (feeWeight.toNat + speedWeight.toNat + reputationWeight.toNat = 1000)
    (.withError .invalidWeights)
  let w := Weights.ofThousandths feeWeight speedWeight reputationWeight
  require (w.validate = true) (.withError .invalidWeights)
  let ranked ← collect (rankable env s minReputation) s.anchors.list
  let maxima := rankedMaxima ranked
  let scored := ranked.map fun entry => (scoreAnchor w maxima entry.1 entry.2, entry.2)
  let sorted := host.unstableSort.sort (fun a b => b.1 ≤ a.1) scored
  let limit := if maxResults = 0 then 4294967295 else maxResults.toNat
  return (sorted.take limit).map Prod.snd

section Effects

variable {host : Host} {env : Env} {s s' : Storage} {anchor : Address} {options : RoutingOptions}
  {quote : Quote}

@[simp] theorem latestQuote_eq_ok {found : Option Quote} :
    latestQuote s anchor = .ok found ↔
      (s.quotes.latest.get anchor).bind (fun quoteId => s.quotes.record.get (anchor, quoteId)) =
        found.map .current := by
  unfold latestQuote
  cases s.quotes.latest.get anchor with
  | none => cases found <;> simp
  | some quoteId => simp

theorem pickBest_mem {better : Quote → Quote → Bool} {first : Quote} {candidates : List Quote} :
    pickBest better first candidates ∈ first :: candidates := by
  unfold pickBest
  induction candidates generalizing first with
  | nil => simp
  | cons quote rest ih =>
    rw [List.foldl_cons]
    split
    · exact List.mem_cons_of_mem _ ih
    · rcases List.mem_cons.mp (@ih first) with heq | hrest
      · exact List.mem_cons.mpr (Or.inl heq)
      · exact List.mem_cons_of_mem _ (List.mem_cons_of_mem _ hrest)

theorem routeTransaction_effects (h : routeTransaction env s options = .ok (s', quote)) :
    (∃ candidates, routingCandidates env s options = .ok candidates ∧ quote ∈ candidates) ∧
      checkSubject env s options = .ok () ∧ ∃ events, s' = { s with events := events } := by
  simp only [routeTransaction, bind_eq_ok, expect_eq_ok, pure_eq_ok, Prod.mk.injEq] at h
  obtain ⟨_, _, _, _, candidates, hcandidates, first, hfirst, _, hsubject, strategy, _, rfl, rfl⟩ :=
    h
  have hmem : first ∈ candidates := List.mem_of_head? hfirst
  refine ⟨⟨candidates, hcandidates, ?_⟩, hsubject, _, rfl⟩
  rcases List.mem_cons.mp pickBest_mem with heq | hrest
  · exact heq ▸ hmem
  · exact hrest

theorem routeTransaction_frame (h : routeTransaction env s options = .ok (s', quote)) :
    ∃ events, s' = { s with events := events } := (routeTransaction_effects h).2.2

theorem routeWithFallback_effects
    (h : routeWithFallback env s options anchor = .ok (s', quote)) :
    validateCurrencyCode options.request.baseAsset = .ok () ∧
      validateCurrencyCode options.request.quoteAsset = .ok () ∧
      ((preferredQuote env s options anchor = .ok (some quote) ∧ s' = s.publish
          (.quoteRouted quote.quoteId)) ∨
        (preferredQuote env s options anchor = .ok none ∧
          routeTransaction env (s.publish .quoteFallback) options = .ok (s', quote))) := by
  simp only [routeWithFallback, bind_eq_ok] at h
  obtain ⟨_, hbase, _, hcounter, preferred, hpreferred, h⟩ := h
  refine ⟨hbase, hcounter, ?_⟩
  cases preferred with
  | some q =>
    obtain ⟨rfl, rfl⟩ := Prod.mk.inj (pure_eq_ok.mp h)
    exact Or.inl ⟨hpreferred, rfl⟩
  | none => exact Or.inr ⟨hpreferred, h⟩

theorem routeWithFallback_of_preferred
    (hbase : validateCurrencyCode options.request.baseAsset = .ok ())
    (hcounter : validateCurrencyCode options.request.quoteAsset = .ok ())
    (hpreferred : preferredQuote env s options anchor = .ok (some quote)) :
    routeWithFallback env s options anchor = .ok (s.publish (.quoteRouted quote.quoteId), quote) := by
  simp only [routeWithFallback, bind_eq_ok]
  exact ⟨_, hbase, _, hcounter, _, hpreferred, rfl⟩

theorem routeWithFallback_frame (h : routeWithFallback env s options anchor = .ok (s', quote)) :
    ∃ events, s' = { s with events := events } := by
  rcases (routeWithFallback_effects h).2.2 with ⟨_, rfl⟩ | ⟨_, hfull⟩
  · exact ⟨_, rfl⟩
  · obtain ⟨_, rfl⟩ := routeTransaction_frame hfull
    exact ⟨_, rfl⟩

theorem routeAnchors_effects {feeWeight speedWeight reputationWeight maxResults minReputation : UInt32}
    {quotes : List Quote}
    (h : routeAnchors host env s feeWeight speedWeight reputationWeight maxResults minReputation
      = .ok quotes) :
    ∃ ranked, collect (rankable env s minReputation) s.anchors.list = .ok ranked ∧
      ∀ quote ∈ quotes, ∃ routing, (routing, quote) ∈ ranked := by
  simp only [routeAnchors, bind_eq_ok, pure_eq_ok] at h
  obtain ⟨_, _, _, _, ranked, hranked, rfl⟩ := h
  refine ⟨ranked, hranked, ?_⟩
  intro quote hquote
  obtain ⟨scored, hscored, rfl⟩ := List.mem_map.mp hquote
  have hsorted := List.mem_of_mem_take hscored
  rw [UnstableSort.mem_sort] at hsorted
  obtain ⟨⟨routing, quote⟩, hentry, rfl⟩ := List.mem_map.mp hsorted
  exact ⟨routing, hentry⟩

end Effects

end AnchorKit
