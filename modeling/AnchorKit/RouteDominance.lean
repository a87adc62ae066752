import AnchorKit.RouteSelection
import AnchorKit.RoutingGates

/-!
# Routes by weighted score

A score is a sum of rounded ratios. A quote that is at least as good as another one by fee,
settlement time and reputation never scores lower, so it is passed over only where the two scores
are equal.
-/

namespace AnchorKit

open Fallible

/-- One quote is at least as good as another one by each of the three criteria. -/
structure Dominates (s : Storage) (better worse : Quote) : Prop where
  fee : better.feePercentage ≤ worse.feePercentage
  settlement : settlementTime s better ≤ settlementTime s worse
  reputation : reputation s worse ≤ reputation s better

def Weights.Nonneg (w : Weights) : Prop := 0 ≤ w.fee ∧ 0 ≤ w.speed ∧ 0 ≤ w.reputation

/-! ### Scores -/

section Scores

variable {s : Storage} {options : RoutingOptions} {candidates : List Quote} {better worse : Quote}
  {w : Weights} {maxima : Maxima}

theorem nonneg_ofThousandths (fee speed reputation : UInt32) :
    (Weights.ofThousandths fee speed reputation).Nonneg := by
  have hscaled (weight : UInt32) :
      0 ≤ Binary32.div (Binary32.ofNat weight.toNat) (Binary32.ofNat 1000) :=
    Binary32.zero_le_div (Binary32.ofNat_nonneg _) (Binary32.ofNat_nonneg _)
  exact ⟨hscaled fee, hscaled speed, hscaled reputation⟩

/-- A ratio to a fixed number in single precision. -/
theorem ratio_mono {n m : ℕ} (h : n ≤ m) (d : ℕ) :
    Binary32.div (Binary32.ofNat n) (Binary32.ofNat d) ≤
      Binary32.div (Binary32.ofNat m) (Binary32.ofNat d) :=
  Binary32.div_mono (Binary32.ofNat_nonneg d) (Binary32.ofNat_mono h)

theorem compositeScore_mono (hw : w.Nonneg) {fee fee' rep rep' : UInt32} {time time' : UInt64}
    (hfee : fee ≤ fee') (htime : time ≤ time') (hrep : rep' ≤ rep) :
    compositeScore w fee' time' rep' maxima ≤ compositeScore w fee time rep maxima := by
  have hfeeScore : (if maxima.fee = 0 then (1 : ℚ) else Binary32.sub 1
      (Binary32.div (Binary32.ofNat fee'.toNat) (Binary32.ofNat maxima.fee.toNat))) ≤
      if maxima.fee = 0 then (1 : ℚ) else Binary32.sub 1
        (Binary32.div (Binary32.ofNat fee.toNat) (Binary32.ofNat maxima.fee.toNat)) := by
    split
    · exact le_refl _
    · exact Binary32.sub_anti (ratio_mono (UInt32.le_iff_toNat_le.mp hfee) _) 1
  have htimeScore : (if maxima.settlement = 0 then (1 : ℚ) else Binary32.sub 1
      (Binary32.div (Binary32.ofNat time'.toNat) (Binary32.ofNat maxima.settlement.toNat))) ≤
      if maxima.settlement = 0 then (1 : ℚ) else Binary32.sub 1
        (Binary32.div (Binary32.ofNat time.toNat) (Binary32.ofNat maxima.settlement.toNat)) := by
    split
    · exact le_refl _
    · exact Binary32.sub_anti (ratio_mono (UInt64.le_iff_toNat_le.mp htime) _) 1
  have hrepScore : (if maxima.reputation = 0 then (0 : ℚ) else
      Binary32.div (Binary32.ofNat rep'.toNat) (Binary32.ofNat maxima.reputation.toNat)) ≤
      if maxima.reputation = 0 then (0 : ℚ) else
        Binary32.div (Binary32.ofNat rep.toNat) (Binary32.ofNat maxima.reputation.toNat) := by
    split
    · exact le_refl _
    · exact ratio_mono (UInt32.le_iff_toNat_le.mp hrep) _
  exact Binary32.add_mono
    (Binary32.add_mono (Binary32.mul_mono hw.1 hfeeScore) (Binary32.mul_mono hw.2.1 htimeScore))
    (Binary32.mul_mono hw.2.2 hrepScore)

theorem weightedScore_mono (h : Dominates s better worse) :
    weightedScore s options candidates worse ≤ weightedScore s options candidates better :=
  compositeScore_mono (nonneg_ofThousandths _ _ _) h.fee h.settlement h.reputation

/-- The score by which `routeAnchors` orders a quote, of an anchor that it has metadata of. -/
def quoteScore (s : Storage) (w : Weights) (maxima : Maxima) (quote : Quote) : ℕ :=
  ((s.anchors.routing.get quote.anchor).map fun routing =>
    scoreAnchor w maxima routing quote).getD 0

theorem scoreAnchor_mono (hw : w.Nonneg) {routing routing' : RoutingAnchorMeta}
    (hfee : better.feePercentage ≤ worse.feePercentage)
    (htime : routing.averageSettlementTime ≤ routing'.averageSettlementTime)
    (hrep : routing'.reputationScore ≤ routing.reputationScore) :
    scoreAnchor w maxima routing' worse ≤ scoreAnchor w maxima routing better := by
  have hscore : compositeScore w worse.feePercentage routing'.averageSettlementTime
        routing'.reputationScore maxima ≤
      compositeScore w better.feePercentage routing.averageSettlementTime
        routing.reputationScore maxima := compositeScore_mono hw hfee htime hrep
  have hclamped := Binary32.clamp_mono zero_le_one hscore
  have hscaled := Binary32.round_mono
    (mul_le_mul_of_nonneg_right hclamped (by norm_num : (0 : ℚ) ≤ 1000000))
  exact Int.toNat_le_toNat (Rat.floor_monotone hscaled)

theorem quoteScore_mono (hw : w.Nonneg) (h : Dominates s better worse)
    (hbetter : s.anchors.routing.has better.anchor = true) :
    quoteScore s w maxima worse ≤ quoteScore s w maxima better := by
  obtain ⟨routing, hget⟩ := KeyedStore.has_iff.mp hbetter
  unfold quoteScore
  rw [hget, Option.map_some, Option.getD_some]
  cases hget' : s.anchors.routing.get worse.anchor with
  | none => exact Nat.zero_le _
  | some routing' =>
    have htime := h.settlement
    have hrep := h.reputation
    rw [settlementTime, settlementTime, hget, hget'] at htime
    rw [reputation, reputation, hget, hget'] at hrep
    exact scoreAnchor_mono hw h.fee htime hrep

end Scores

/-! ### The route of a transaction -/

section Route

variable {env : Env} {s s' : Storage} {options : RoutingOptions} {candidates : List Quote}
  {best : Quote}

theorem pickBest_eq (better : Quote → Quote → Bool) (first : Quote) (candidates : List Quote) :
    pickBest better first candidates = FirstBest.keepBest better first candidates := rfl

/-- Under the weighted score, a candidate that dominates the quote routed to has the same score. -/
theorem route_by_score (hroute : routeTransaction env s options = .ok (s', best))
    (hstrategy : options.strategy.head? = some "WeightedScore")
    (hcandidates : routingCandidates env s options = .ok candidates) :
    best ∈ candidates ∧
      (∀ quote ∈ candidates,
        weightedScore s options candidates quote ≤ weightedScore s options candidates best) ∧
      ∀ quote ∈ candidates, Dominates s quote best →
        weightedScore s options candidates quote = weightedScore s options candidates best := by
  simp only [routeTransaction, bind_eq_ok, expect_eq_ok, pure_eq_ok, Prod.mk.injEq] at hroute
  obtain ⟨_, _, _, _, found, hfound, first, hfirst, _, _, strategy, hhead, rfl, rfl⟩ := hroute
  obtain rfl : found = candidates := Except.ok.inj (hfound.symm.trans hcandidates)
  obtain rfl : strategy = "WeightedScore" := Option.some.inj (hhead.symm.trans hstrategy)
  have horder : strategyOrder s options found "WeightedScore" = fun quote best =>
      decide (weightedScore s options found best < weightedScore s options found quote) := rfl
  have hmax : ∀ quote ∈ found, weightedScore s options found quote ≤
      weightedScore s options found
        (pickBest (strategyOrder s options found "WeightedScore") first found) := by
    intro quote hquote
    rw [horder, pickBest_eq]
    refine FirstBest.le_keepBest _ ?_ ?_ first found quote (List.mem_cons_of_mem _ hquote)
    · exact fun x y hxy => (of_decide_eq_true hxy).le
    · exact fun x y hxy => not_lt.mp (of_decide_eq_false hxy)
  refine ⟨?_, hmax, fun quote hquote hdominates => ?_⟩
  · have hmem := FirstBest.keepBest_mem (strategyOrder s options found "WeightedScore") first found
    rcases List.mem_cons.mp hmem with heq | hmem
    · rw [pickBest_eq, heq]
      exact List.mem_of_head? hfirst
    · exact hmem
  · exact le_antisymm (hmax quote hquote) (weightedScore_mono hdominates)

end Route

/-! ### The ranking of anchors -/

/-- As many of the quotes considered as the limit lets through, those with the highest scores. -/
structure RankedByScore (s : Storage) (score : Quote → ℕ) (limit : ℕ)
    (considered quotes : List Quote) : Prop where
  chosen : quotes.Subperm considered
  count : quotes.length = min limit considered.length
  sorted : quotes.Pairwise fun a b => score b ≤ score a
  cut : ∀ quote ∈ considered, quote ∉ quotes → ∀ returned ∈ quotes, score quote ≤ score returned
  undominated : ∀ better ∈ considered, ∀ worse ∈ quotes, Dominates s better worse →
    (better ∉ quotes ∨ [worse, better].Sublist quotes) → score better = score worse

section Ranking

variable {host : Host} {env : Env} {s : Storage} {fee speed rep maxResults minReputation : UInt32}
  {quotes : List Quote} {ranked : List (RoutingAnchorMeta × Quote)}

/-- A ranked entry holds the metadata of the anchor that made the quote. -/
theorem routing_of_ranked (hwf : s.quotes.WellFormed)
    (hranked : collect (rankable env s minReputation) s.anchors.list = .ok ranked)
    {routing : RoutingAnchorMeta} {quote : Quote} (hentry : (routing, quote) ∈ ranked) :
    s.anchors.routing.get quote.anchor = some routing := by
  obtain ⟨anchor, _, hrankable⟩ := (mem_collect hranked).mp hentry
  obtain ⟨hmeta, hlatest, _⟩ := rankable_eq_some.mp hrankable
  obtain ⟨rfl, _⟩ := latest_own hwf hlatest
  exact (activeMeta_eq_some.mp hmeta).1

theorem rankedByScore_topScored (sort : UnstableSort) {score : Quote → ℕ} {considered : List Quote}
    (hdominates : ∀ better ∈ considered, ∀ worse, Dominates s better worse →
      score worse ≤ score better) (limit : ℕ) :
    RankedByScore s score limit considered (sort.topScored score limit considered) := by
  constructor
  · exact sort.topScored_subperm
  · exact sort.length_topScored
  · exact sort.pairwise_topScored
  · exact fun quote hquote hout returned => sort.score_le_of_not_mem_topScored hquote hout
  · intro better hbetter worse hworse hdom hlater
    refine le_antisymm ?_ (hdominates better hbetter worse hdom)
    rcases hlater with hout | hbehind
    · exact sort.score_le_of_not_mem_topScored hbetter hout hworse
    · have hsub := sort.pairwise_topScored.sublist hbehind
      rwa [List.pairwise_pair] at hsub

def rankingLimit (maxResults : UInt32) : ℕ :=
  if maxResults = 0 then 4294967295 else maxResults.toNat

/-- A ranking of anchors in a reachable state. -/
theorem ranks_by_score {is : List Input}
    (h : routeAnchors host env (run host is) fee speed rep maxResults minReputation = .ok quotes) :
    ∃ ranked, collect (rankable env (run host is) minReputation) (run host is).anchors.list =
        .ok ranked ∧
      RankedByScore (run host is)
        (quoteScore (run host is) (.ofThousandths fee speed rep) (rankedMaxima ranked))
        (rankingLimit maxResults) (ranked.map Prod.snd) quotes := by
  simp only [routeAnchors, bind_eq_ok, pure_eq_ok] at h
  obtain ⟨_, _, _, _, ranked, hranked, rfl⟩ := h
  refine ⟨ranked, hranked, ?_⟩
  have hknown {routing : RoutingAnchorMeta} {quote : Quote} (hentry : (routing, quote) ∈ ranked) :
      (run host is).anchors.routing.get quote.anchor = some routing :=
    routing_of_ranked (wellFormed_run host is) hranked hentry
  have hscored : ranked.map (fun entry => (scoreAnchor (.ofThousandths fee speed rep)
        (rankedMaxima ranked) entry.1 entry.2, entry.2)) =
      (ranked.map Prod.snd).map fun quote => (quoteScore (run host is)
        (.ofThousandths fee speed rep) (rankedMaxima ranked) quote, quote) := by
    rw [List.map_map]
    refine List.map_congr_left fun entry hentry => ?_
    rw [Function.comp_apply, quoteScore, hknown hentry, Option.map_some, Option.getD_some]
  rw [hscored]
  refine rankedByScore_topScored _ ?_ _
  intro better hbetter worse hdominates
  obtain ⟨entry, hentry, rfl⟩ := List.mem_map.mp hbetter
  exact quoteScore_mono (nonneg_ofThousandths _ _ _) hdominates
    (KeyedStore.has_iff.mpr ⟨_, hknown hentry⟩)

end Ranking

namespace Demo

def byScore : RoutingOptions := { lowestFee 10 with strategy := ["WeightedScore"] }

theorem contested_candidates_by_score :
    routingCandidates noon contested byScore = .ok contenders := by
  decide +kernel

theorem routed_by_score :
    ∃ s', routeTransaction noon contested byScore = .ok (s', offerOf alice 2 10) := by
  simp only [routeTransaction, bind_eq_ok, expect_eq_ok, pure_eq_ok, Prod.mk.injEq]
  exact ⟨_, (), by decide, (), by decide, contenders, contested_candidates_by_score,
    offerOf bob 1 20, rfl, (), by decide +kernel, "WeightedScore", rfl, rfl, by decide +kernel⟩

theorem contested_ranking : routeAnchors host noon (run host contest) 1000 0 0 2 0 =
    .ok [offerOf alice 2 10, offerOf admin 3 10] := by
  decide +kernel

end Demo

/-- The first candidate asks for a higher fee, and the last one has the same score. -/
theorem offer_routed_by_score :
    Demo.offerOf Demo.alice 2 10 ∈ Demo.contenders ∧
      (∀ quote ∈ Demo.contenders,
        weightedScore Demo.contested Demo.byScore Demo.contenders quote ≤
          weightedScore Demo.contested Demo.byScore Demo.contenders
            (Demo.offerOf Demo.alice 2 10)) ∧
      ∀ quote ∈ Demo.contenders,
        Dominates Demo.contested quote (Demo.offerOf Demo.alice 2 10) →
          weightedScore Demo.contested Demo.byScore Demo.contenders quote =
            weightedScore Demo.contested Demo.byScore Demo.contenders
              (Demo.offerOf Demo.alice 2 10) :=
  Demo.routed_by_score.elim fun _ h => route_by_score h rfl Demo.contested_candidates_by_score

/-- Two of three quotes are returned, and the one with the highest fee is left out. -/
theorem two_ranked_by_score :
    ∃ considered, collect (rankable Demo.noon (run Demo.host Demo.contest) 0)
        (run Demo.host Demo.contest).anchors.list = .ok considered ∧
      RankedByScore (run Demo.host Demo.contest)
        (quoteScore (run Demo.host Demo.contest) (.ofThousandths 1000 0 0)
          (rankedMaxima considered))
        (rankingLimit 2) (considered.map Prod.snd)
        [Demo.offerOf Demo.alice 2 10, Demo.offerOf Demo.admin 3 10] :=
  ranks_by_score Demo.contested_ranking

end AnchorKit
