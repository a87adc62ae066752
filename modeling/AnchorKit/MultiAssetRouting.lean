import AnchorKit.Library.Binary32
import AnchorKit.Library.FirstBest
import AnchorKit.Library.Text
import AnchorKit.Types

/-!
# Routing over several asset pairs

Every request of a list names a corridor and a strategy of its own; the quotes are one flat list.
A request is filled by the best of the quotes that are eligible for it, or goes to the unfilled
ones. Asset codes are compared without surrounding whitespace and ASCII case.
-/

namespace AnchorKit

open Fallible

namespace MultiAssetRouting

structure AssetPairRequest where
  baseAsset : Text
  quoteAsset : Text
  amount : UInt64
  strategy : Text
  minReputation : UInt32
deriving DecidableEq, Repr

structure AssetPairQuote where
  pairKey : Text
  anchor : Text
  feePercentage : UInt32
  rate : UInt64
  quoteId : UInt64
  strategyApplied : Text
  routingReason : Option Text
deriving DecidableEq, Repr

structure MultiAssetRoutingResult where
  filled : List AssetPairQuote
  unfilled : List Text
deriving DecidableEq, Repr

structure CandidateQuote where
  quoteId : UInt64
  anchor : Text
  baseAsset : Text
  quoteAsset : Text
  rate : UInt64
  feePercentage : UInt32
  minimumAmount : UInt64
  maximumAmount : UInt64
  validUntil : UInt64
  reputationScore : UInt32
  averageSettlementTime : UInt64
  routingReason : Option Text
deriving DecidableEq, Repr

/-! ### Validation -/

def routingStrategies : List Text :=
  ["LowestFee".toList, "FastestSettlement".toList, "HighestReputation".toList,
    "WeightedScore".toList]

def normalizeAssetCode (code : Text) : Text :=
  Text.asciiUpper (Text.trimMatches isWhitespace code)

def isAssetCodeCharset (code : Text) : Bool := code.all Char.isAlphanum

def pairKey (base quote : Text) : Text := normalizeAssetCode base ++ '/' :: normalizeAssetCode quote

def validateAssetPairRequest (req : AssetPairRequest) : Except ErrorCode Unit := do
  let base := normalizeAssetCode req.baseAsset
  let quote := normalizeAssetCode req.quoteAsset
  require (¬ (base = [] ∨ Text.byteLen base > 12 ∨ isAssetCodeCharset base = false))
    .invalidAssetCode
  require (¬ (quote = [] ∨ Text.byteLen quote > 12 ∨ isAssetCodeCharset quote = false))
    .invalidAssetCode
  require (base ≠ quote) .invalidAssetPair
  require (req.amount ≠ 0) .invalidAmount
  require (req.strategy ∈ routingStrategies) .validationError

/-! ### Selection -/

section Selection

variable {κ : Type}

/-- `Iterator::min_by_key`: the first of the elements with the least key. -/
def minByKey [LT κ] [DecidableLT κ] (key : CandidateQuote → κ) (candidates : List CandidateQuote) :
    Option CandidateQuote :=
  FirstBest.keepBest? (fun q best => decide (key q < key best)) candidates

/-- `Iterator::max_by_key`: the last of the elements with the greatest key. -/
def maxByKey [LE κ] [DecidableLE κ] (key : CandidateQuote → κ) (candidates : List CandidateQuote) :
    Option CandidateQuote :=
  FirstBest.keepBest? (fun q best => decide (key best ≤ key q)) candidates

/-- Single precision throughout. A settlement time over the largest number may be subnormal; one
minus it is one all the same. -/
def weightedScore (q : CandidateQuote) (fw sw rw maxFee maxTime maxRep : ℚ) : ℚ :=
  let feeScore : ℚ :=
    if maxFee = 0 then 1
    else Binary32.sub 1 (Binary32.div (Binary32.ofNat q.feePercentage.toNat) maxFee)
  let speedScore : ℚ :=
    if maxTime = 0 then 1
    else Binary32.sub 1 (Binary32.div (Binary32.ofNat q.averageSettlementTime.toNat) maxTime)
  let repScore : ℚ :=
    if maxRep = 0 then 0
    else Binary32.div (Binary32.ofNat q.reputationScore.toNat) maxRep
  Binary32.add (Binary32.add (Binary32.mul fw feeScore) (Binary32.mul sw speedScore))
    (Binary32.mul rw repScore)

def maxFee : ℚ := 100

def maxRep : ℚ := 100

/-- `f32::MAX`. -/
def maxTime : ℚ := (2 ^ 24 - 1) * 2 ^ 104

def selectBest (candidates : List CandidateQuote) (strategy : Text)
    (feeWeight speedWeight reputationWeight : ℚ) : Except ErrorCode (Option CandidateQuote) :=
  if strategy = "LowestFee".toList then
    .ok (minByKey (fun q => q.feePercentage) candidates)
  else if strategy = "FastestSettlement".toList then
    .ok (minByKey (fun q => q.averageSettlementTime) candidates)
  else if strategy = "HighestReputation".toList then
    .ok (maxByKey (fun q => q.reputationScore) candidates)
  else if strategy = "WeightedScore".toList then
    .ok (maxByKey
      (fun q => weightedScore q feeWeight speedWeight reputationWeight maxFee maxTime maxRep)
      candidates)
  else .error .validationError

end Selection

/-! ### Routing -/

def isCandidate (req : AssetPairRequest) (base quote : Text) (now : UInt64) (q : CandidateQuote) :
    Bool :=
  let qBase := normalizeAssetCode q.baseAsset
  let qQuote := normalizeAssetCode q.quoteAsset
  qBase ≠ qQuote && qBase = base && qQuote = quote && q.rate > 0 && q.validUntil > now &&
    req.amount ≥ q.minimumAmount && (q.maximumAmount = 0 || req.amount ≤ q.maximumAmount) &&
    q.reputationScore ≥ req.minReputation

def routeRequest (allQuotes : List CandidateQuote) (now : UInt64) (result : MultiAssetRoutingResult)
    (req : AssetPairRequest) : Except ErrorCode MultiAssetRoutingResult := do
  validateAssetPairRequest req
  let base := normalizeAssetCode req.baseAsset
  let quote := normalizeAssetCode req.quoteAsset
  let key := pairKey base quote
  let candidates := allQuotes.filter (isCandidate req base quote now)
  if candidates.isEmpty then
    return { result with unfilled := result.unfilled ++ [key] }
  else
    match ← selectBest candidates req.strategy (Binary32.round (333 / 1000))
      (Binary32.round (333 / 1000)) (Binary32.round (334 / 1000)) with
    | some best =>
      let entry : AssetPairQuote :=
        { pairKey := key, anchor := best.anchor, feePercentage := best.feePercentage,
          rate := best.rate, quoteId := best.quoteId, strategyApplied := req.strategy,
          routingReason := best.routingReason }
      return { result with filled := result.filled ++ [entry] }
    | none => return { result with unfilled := result.unfilled ++ [pairKey base quote] }

def routeMultiAsset (requests : List AssetPairRequest) (allQuotes : List CandidateQuote)
    (nowTimestamp : UInt64) : Except ErrorCode MultiAssetRoutingResult := do
  allQuotes.forM fun q =>
    require (¬ (normalizeAssetCode q.baseAsset = [] ∨ normalizeAssetCode q.quoteAsset = []))
      ErrorCode.invalidAssetCode
  requests.foldlM (routeRequest allQuotes nowTimestamp) { filled := [], unfilled := [] }

/-! ### Eligible quotes -/

/-- Codes up to surrounding whitespace and ASCII case. -/
def SameCode (a b : Text) : Prop :=
  Text.eqIgnoreAsciiCase (Text.trimMatches isWhitespace a) (Text.trimMatches isWhitespace b) = true

structure ValidCode (code : Text) : Prop where
  nonempty : normalizeAssetCode code ≠ []
  length : (normalizeAssetCode code).length ≤ 12
  charset : ∀ c ∈ normalizeAssetCode code, c.isAlphanum = true

structure ValidRequest (req : AssetPairRequest) : Prop where
  base : ValidCode req.baseAsset
  quote : ValidCode req.quoteAsset
  distinct : ¬ SameCode req.baseAsset req.quoteAsset
  amount : req.amount ≠ 0
  strategy : req.strategy ∈ routingStrategies

structure Eligible (req : AssetPairRequest) (now : UInt64) (q : CandidateQuote) : Prop where
  base : SameCode q.baseAsset req.baseAsset
  quote : SameCode q.quoteAsset req.quoteAsset
  rate : q.rate ≠ 0
  unexpired : now < q.validUntil
  minimum : q.minimumAmount ≤ req.amount
  maximum : q.maximumAmount = 0 ∨ req.amount ≤ q.maximumAmount
  reputation : req.minReputation ≤ q.reputationScore

/-- Best among the eligible quotes, for the strategies that compare a single field. -/
structure Optimal (strategy : Text) (eligible : CandidateQuote → Prop) (best : CandidateQuote) :
    Prop where
  fee : strategy = "LowestFee".toList → ∀ q, eligible q → best.feePercentage ≤ q.feePercentage
  settlement : strategy = "FastestSettlement".toList →
    ∀ q, eligible q → best.averageSettlementTime ≤ q.averageSettlementTime
  reputation : strategy = "HighestReputation".toList →
    ∀ q, eligible q → q.reputationScore ≤ best.reputationScore

section Codes

variable {a b code : Text}

theorem sameCode_iff : SameCode a b ↔ normalizeAssetCode a = normalizeAssetCode b := by
  rw [SameCode, Text.eqIgnoreAsciiCase_iff, normalizeAssetCode, normalizeAssetCode,
    Text.asciiUpper_eq_iff]

theorem validCode_iff : ValidCode code ↔
    ¬ (normalizeAssetCode code = [] ∨ Text.byteLen (normalizeAssetCode code) > 12 ∨
      isAssetCodeCharset (normalizeAssetCode code) = false) := by
  have hcharset : isAssetCodeCharset (normalizeAssetCode code) = true ↔
      ∀ c ∈ normalizeAssetCode code, c.isAlphanum = true := List.all_eq_true
  have hlength (h : ∀ c ∈ normalizeAssetCode code, c.isAlphanum = true) :
      Text.byteLen (normalizeAssetCode code) = (normalizeAssetCode code).length :=
    Text.byteLen_of_isAscii fun c hc => Text.isAscii_of_isAlphanum (h c hc)
  rw [not_or, not_or, Bool.not_eq_false, hcharset]
  constructor
  · rintro ⟨hne, hlen, hall⟩
    exact ⟨hne, by rw [hlength hall]; omega, hall⟩
  · rintro ⟨hne, hlen, hall⟩
    exact ⟨hne, by rw [hlength hall] at hlen; omega, hall⟩

theorem not_isWhitespace_of_isAlphanum {c : Char} (h : c.isAlphanum = true) :
    isWhitespace c = false := by
  rw [Text.isAlphanum_iff] at h
  simp [isWhitespace]
  omega

/-- A valid code is its own normal form once it is normalised. -/
theorem normalizeAssetCode_idem (h : ValidCode code) :
    normalizeAssetCode (normalizeAssetCode code) = normalizeAssetCode code := by
  have htrim : Text.trimMatches isWhitespace (normalizeAssetCode code) = normalizeAssetCode code :=
    Text.trimMatches_of_forall fun c hc => not_isWhitespace_of_isAlphanum (h.charset c hc)
  rw [normalizeAssetCode, htrim, normalizeAssetCode, Text.asciiUpper_asciiUpper]

end Codes

theorem validateAssetPairRequest_eq_ok {req : AssetPairRequest} :
    validateAssetPairRequest req = .ok () ↔ ValidRequest req := by
  simp only [validateAssetPairRequest, require_bind_eq_ok, require_eq_ok]
  rw [← validCode_iff, ← validCode_iff, ne_eq, ← sameCode_iff]
  constructor
  · rintro ⟨hbase, hquote, hdistinct, hamount, hstrategy⟩
    exact ⟨hbase, hquote, hdistinct, hamount, hstrategy⟩
  · intro h
    exact ⟨h.base, h.quote, h.distinct, h.amount, h.strategy⟩

/-- The filter lets exactly the eligible quotes pass; that a quote may not be a self-route follows
from the request. -/
theorem isCandidate_iff {req : AssetPairRequest} {now : UInt64} {q : CandidateQuote}
    (h : ValidRequest req) :
    isCandidate req (normalizeAssetCode req.baseAsset) (normalizeAssetCode req.quoteAsset) now q =
      true ↔ Eligible req now q := by
  have hrate : q.rate > 0 ↔ q.rate ≠ 0 := UInt64.pos_iff_ne_zero
  simp only [isCandidate, Bool.and_eq_true, Bool.or_eq_true, decide_eq_true_eq, ← sameCode_iff,
    hrate, ne_eq]
  constructor
  · rintro ⟨⟨⟨⟨⟨⟨⟨-, hbase⟩, hquote⟩, hrate⟩, hvalid⟩, hmin⟩, hmax⟩, hrep⟩
    exact ⟨hbase, hquote, hrate, hvalid, hmin, hmax, hrep⟩
  · intro he
    refine ⟨⟨⟨⟨⟨⟨⟨?_, he.base⟩, he.quote⟩, he.rate⟩, he.unexpired⟩, he.minimum⟩, he.maximum⟩,
      he.reputation⟩
    intro hself
    apply h.distinct
    rw [sameCode_iff] at hself ⊢
    rw [← sameCode_iff.mp he.base, hself, sameCode_iff.mp he.quote]

section Selection

variable {κ : Type} {key : CandidateQuote → κ} {candidates : List CandidateQuote}
  {best : CandidateQuote} {strategy : Text} {selected : Option CandidateQuote} {fw sw rw : ℚ}

theorem minByKey_le [LT κ] [DecidableLT κ] (value : κ → ℕ)
    (hvalue : ∀ a b, a < b ↔ value a < value b) (h : minByKey key candidates = some best) :
    ∀ q ∈ candidates, value (key best) ≤ value (key q) := by
  refine FirstBest.le_of_keepBest? (fun q => OrderDual.toDual (value (key q))) ?_ ?_ h
  · intro x y hxy
    exact OrderDual.toDual_le_toDual.mpr ((hvalue _ _).mp (of_decide_eq_true hxy)).le
  · intro x y hxy
    exact OrderDual.toDual_le_toDual.mpr (not_lt.mp (mt (hvalue _ _).mpr (of_decide_eq_false hxy)))

theorem maxByKey_le [LE κ] [DecidableLE κ] (value : κ → ℕ)
    (hvalue : ∀ a b, a ≤ b ↔ value a ≤ value b) (h : maxByKey key candidates = some best) :
    ∀ q ∈ candidates, value (key q) ≤ value (key best) := by
  refine FirstBest.le_of_keepBest? (fun q => value (key q)) ?_ ?_ h
  · intro x y hxy
    exact (hvalue _ _).mp (of_decide_eq_true hxy)
  · intro x y hxy
    exact (not_le.mp (mt (hvalue _ _).mpr (of_decide_eq_false hxy))).le

theorem exists_loop_of_selectBest (h : selectBest candidates strategy fw sw rw = .ok selected) :
    ∃ better, FirstBest.keepBest? better candidates = selected := by
  unfold selectBest at h
  split_ifs at h
  all_goals exact ⟨_, Except.ok.inj h⟩

theorem selectBest_eq_none (h : selectBest candidates strategy fw sw rw = .ok none) :
    candidates = [] := by
  obtain ⟨_, hloop⟩ := exists_loop_of_selectBest h
  exact FirstBest.keepBest?_eq_none.mp hloop

theorem selectBest_mem (h : selectBest candidates strategy fw sw rw = .ok (some best)) :
    best ∈ candidates := by
  obtain ⟨_, hloop⟩ := exists_loop_of_selectBest h
  exact FirstBest.mem_of_keepBest? hloop

theorem selectBest_optimal (h : selectBest candidates strategy fw sw rw = .ok (some best)) :
    Optimal strategy (fun q => q ∈ candidates) best := by
  constructor
  · rintro rfl q hq
    rw [selectBest, if_pos rfl] at h
    exact UInt32.le_iff_toNat_le.mpr
      (minByKey_le UInt32.toNat (fun _ _ => UInt32.lt_iff_toNat_lt) (Except.ok.inj h) q hq)
  · rintro rfl q hq
    rw [selectBest, if_neg (by decide), if_pos rfl] at h
    exact UInt64.le_iff_toNat_le.mpr
      (minByKey_le UInt64.toNat (fun _ _ => UInt64.lt_iff_toNat_lt) (Except.ok.inj h) q hq)
  · rintro rfl q hq
    rw [selectBest, if_neg (by decide), if_neg (by decide), if_pos rfl] at h
    exact UInt32.le_iff_toNat_le.mpr
      (maxByKey_le UInt32.toNat (fun _ _ => UInt32.le_iff_toNat_le) (Except.ok.inj h) q hq)

theorem succeeds_selectBest (candidates : List CandidateQuote) (fw sw rw : ℚ)
    (h : strategy ∈ routingStrategies) :
    Succeeds (selectBest candidates strategy fw sw rw) := by
  simp only [routingStrategies, List.mem_cons, List.not_mem_nil, or_false] at h
  unfold selectBest
  split_ifs
  all_goals first
    | exact succeeds_ok _
    | simp_all

end Selection

/-! ### What the loop over the requests returns -/

def entry (req : AssetPairRequest) (best : CandidateQuote) : AssetPairQuote :=
  { pairKey := pairKey req.baseAsset req.quoteAsset, anchor := best.anchor,
    feePercentage := best.feePercentage, rate := best.rate, quoteId := best.quoteId,
    strategyApplied := req.strategy, routingReason := best.routingReason }

def split (pick : AssetPairRequest → Option CandidateQuote) (requests : List AssetPairRequest) :
    MultiAssetRoutingResult where
  filled := requests.filterMap fun req => (pick req).map (entry req)
  unfilled := (requests.filter fun req => (pick req).isNone).map fun req =>
    pairKey req.baseAsset req.quoteAsset

/-- A quote picked for a request is eligible and optimal, and one is picked if there is any. -/
structure PickedFor (quotes : List CandidateQuote) (now : UInt64) (req : AssetPairRequest)
    (picked : Option CandidateQuote) : Prop where
  none_iff : picked = none ↔ ∀ q ∈ quotes, ¬ Eligible req now q
  mem : ∀ best ∈ picked, best ∈ quotes
  eligible : ∀ best ∈ picked, Eligible req now best
  optimal : ∀ best ∈ picked, Optimal req.strategy (fun q => q ∈ quotes ∧ Eligible req now q) best

section Loop

variable {quotes : List CandidateQuote} {now : UInt64} {req : AssetPairRequest}
  {result result' : MultiAssetRoutingResult}

def candidatesFor (quotes : List CandidateQuote) (now : UInt64) (req : AssetPairRequest) :
    List CandidateQuote :=
  quotes.filter
    (isCandidate req (normalizeAssetCode req.baseAsset) (normalizeAssetCode req.quoteAsset) now)

def selectFor (quotes : List CandidateQuote) (now : UInt64) (req : AssetPairRequest) :
    Except ErrorCode (Option CandidateQuote) :=
  selectBest (candidatesFor quotes now req) req.strategy (Binary32.round (333 / 1000))
    (Binary32.round (333 / 1000)) (Binary32.round (334 / 1000))

/-- The quote selected for a request; an unknown strategy selects none. -/
def pickFor (quotes : List CandidateQuote) (now : UInt64) (req : AssetPairRequest) :
    Option CandidateQuote :=
  match selectFor quotes now req with
  | .ok selected => selected
  | .error _ => none

theorem mem_candidatesFor (h : ValidRequest req) {q : CandidateQuote} :
    q ∈ candidatesFor quotes now req ↔ q ∈ quotes ∧ Eligible req now q := by
  rw [candidatesFor, List.mem_filter, isCandidate_iff h]

theorem selectFor_eq_ok (quotes : List CandidateQuote) (now : UInt64) (h : ValidRequest req) :
    selectFor quotes now req = .ok (pickFor quotes now req) := by
  obtain ⟨selected, hselected⟩ : Succeeds (selectFor quotes now req) :=
    succeeds_selectBest _ _ _ _ h.strategy
  rw [pickFor, hselected]

theorem pickedFor_pickFor (h : ValidRequest req) :
    PickedFor quotes now req (pickFor quotes now req) := by
  have hselect := selectFor_eq_ok quotes now h
  have hcandidates : (fun q => q ∈ candidatesFor quotes now req) =
      fun q => q ∈ quotes ∧ Eligible req now q :=
    funext fun _ => propext (mem_candidatesFor h)
  cases hpick : pickFor quotes now req with
  | none =>
    rw [hpick] at hselect
    have hempty := selectBest_eq_none hselect
    refine ⟨iff_of_true rfl fun q hq he => ?_, nofun, nofun, nofun⟩
    have hmem := (mem_candidatesFor h).mpr ⟨hq, he⟩
    rw [hempty] at hmem
    cases hmem
  | some best =>
    rw [hpick] at hselect
    obtain ⟨hmem, heligible⟩ := (mem_candidatesFor h).mp (selectBest_mem hselect)
    have hoptimal := selectBest_optimal hselect
    rw [hcandidates] at hoptimal
    refine ⟨iff_of_false nofun fun hnone => hnone best hmem heligible, ?_, ?_, ?_⟩
    · rintro _ ⟨⟩
      exact hmem
    · rintro _ ⟨⟩
      exact heligible
    · rintro _ ⟨⟩
      exact hoptimal

def MultiAssetRoutingResult.append (first second : MultiAssetRoutingResult) :
    MultiAssetRoutingResult :=
  ⟨first.filled ++ second.filled, first.unfilled ++ second.unfilled⟩

theorem pairKey_normalized (h : ValidRequest req) :
    pairKey (normalizeAssetCode req.baseAsset) (normalizeAssetCode req.quoteAsset) =
      pairKey req.baseAsset req.quoteAsset := by
  rw [pairKey, normalizeAssetCode_idem h.base, normalizeAssetCode_idem h.quote, pairKey]

theorem routeRequest_of_valid (h : ValidRequest req) :
    routeRequest quotes now result req =
      .ok (result.append (split (pickFor quotes now) [req])) := by
  have hselect := selectFor_eq_ok quotes now h
  have hkey := pairKey_normalized h
  rw [routeRequest, validateAssetPairRequest_eq_ok.mpr h]
  change (if (candidatesFor quotes now req).isEmpty = true then _
    else selectFor quotes now req >>= _) = _
  cases hpick : pickFor quotes now req with
  | none =>
    rw [hpick] at hselect
    rw [selectBest_eq_none hselect]
    simp [split, hpick, MultiAssetRoutingResult.append, hkey]
  | some best =>
    rw [hpick] at hselect
    have hne : (candidatesFor quotes now req).isEmpty = false :=
      List.isEmpty_eq_false_iff.mpr (List.ne_nil_of_mem (selectBest_mem hselect))
    rw [hne, if_neg Bool.false_ne_true, hselect]
    simp [split, hpick, MultiAssetRoutingResult.append, hkey, entry]
    rfl

theorem routeRequest_eq_ok : routeRequest quotes now result req = .ok result' ↔
    ValidRequest req ∧ result' = result.append (split (pickFor quotes now) [req]) := by
  by_cases h : ValidRequest req
  · rw [routeRequest_of_valid h, and_iff_right h, Except.ok.injEq, eq_comm]
  · refine iff_of_false ?_ fun ⟨hvalid, _⟩ => h hvalid
    intro hround
    obtain ⟨_, hvalidate, _⟩ := bind_eq_ok.mp hround
    exact h (validateAssetPairRequest_eq_ok.mp hvalidate)

theorem append_split_cons (result : MultiAssetRoutingResult)
    (pick : AssetPairRequest → Option CandidateQuote) (req : AssetPairRequest)
    (rest : List AssetPairRequest) :
    (result.append (split pick [req])).append (split pick rest) =
      result.append (split pick (req :: rest)) := by
  cases hpick : pick req with
  | none => simp [MultiAssetRoutingResult.append, split, hpick]
  | some best => simp [MultiAssetRoutingResult.append, split, hpick]

/-- The whole loop adds the entries of all requests. -/
theorem foldlM_routeRequest_eq_ok {requests : List AssetPairRequest} :
    requests.foldlM (routeRequest quotes now) result = .ok result' ↔
      (∀ req ∈ requests, ValidRequest req) ∧
        result' = result.append (split (pickFor quotes now) requests) := by
  induction requests generalizing result with
  | nil =>
    rw [List.foldlM_nil, pure_eq_ok, and_iff_right (by simp), eq_comm]
    simp [split, MultiAssetRoutingResult.append]
  | cons req rest ih =>
    rw [List.foldlM_cons, bind_eq_ok, List.forall_mem_cons]
    simp only [routeRequest_eq_ok, ih]
    constructor
    · rintro ⟨_, ⟨hreq, rfl⟩, hrest, rfl⟩
      exact ⟨⟨hreq, hrest⟩, append_split_cons _ _ _ _⟩
    · rintro ⟨⟨hreq, hrest⟩, rfl⟩
      exact ⟨_, ⟨hreq, rfl⟩, hrest, (append_split_cons _ _ _ _).symm⟩

/-- Routing fails exactly when a quote has a blank asset code or a request is invalid. Otherwise
each request has one entry, in order, for an optimal one of its eligible quotes. -/
theorem routes_each_request (requests : List AssetPairRequest) (quotes : List CandidateQuote)
    (now : UInt64) :
    (Succeeds (routeMultiAsset requests quotes now) ↔
      (∀ q ∈ quotes, normalizeAssetCode q.baseAsset ≠ [] ∧ normalizeAssetCode q.quoteAsset ≠ []) ∧
        ∀ req ∈ requests, ValidRequest req) ∧
      ∀ result, routeMultiAsset requests quotes now = .ok result →
        ∃ pick, result = split pick requests ∧
          ∀ req ∈ requests, PickedFor quotes now req (pick req) := by
  have hroute (result : MultiAssetRoutingResult) :
      routeMultiAsset requests quotes now = .ok result ↔
        (∀ q ∈ quotes, normalizeAssetCode q.baseAsset ≠ [] ∧
          normalizeAssetCode q.quoteAsset ≠ []) ∧
          (∀ req ∈ requests, ValidRequest req) ∧ result = split (pickFor quotes now) requests := by
    have hblank : quotes.forM (fun q => require (¬ (normalizeAssetCode q.baseAsset = [] ∨
        normalizeAssetCode q.quoteAsset = [])) ErrorCode.invalidAssetCode) = .ok () ↔
          ∀ q ∈ quotes, normalizeAssetCode q.baseAsset ≠ [] ∧
            normalizeAssetCode q.quoteAsset ≠ [] := by
      simp only [forM_eq_ok, require_eq_ok, not_or, ne_eq]
    rw [routeMultiAsset, bind_eq_ok, ← hblank]
    simp only [foldlM_routeRequest_eq_ok]
    constructor
    · rintro ⟨_, hquotes, hloop⟩
      exact ⟨hquotes, hloop⟩
    · rintro ⟨hquotes, hloop⟩
      exact ⟨_, hquotes, hloop⟩
  constructor
  · constructor
    · rintro ⟨result, hresult⟩
      obtain ⟨hquotes, hvalid, _⟩ := (hroute result).mp hresult
      exact ⟨hquotes, hvalid⟩
    · rintro ⟨hquotes, hvalid⟩
      exact ⟨_, (hroute _).mpr ⟨hquotes, hvalid, rfl⟩⟩
  · intro result hresult
    obtain ⟨_, hvalid, rfl⟩ := (hroute result).mp hresult
    exact ⟨pickFor quotes now, rfl, fun req hreq => pickedFor_pickFor (hvalid req hreq)⟩

end Loop

end MultiAssetRouting

end AnchorKit
