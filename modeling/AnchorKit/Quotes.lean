import AnchorKit.Compliance
import AnchorKit.ReplayDetection
import AnchorKit.ServiceConfiguration

/-!
# Quotes

Anchors submit quotes under consecutive ids; receivers read and accept them, and the admin
invalidates them and purges the index. A quote's lifecycle flag is stored apart from the quote.
-/

namespace AnchorKit

open Fallible

def maxQuoteValiditySeconds : UInt64 := 2592000

inductive QuoteLifecycleState
  | active
  | invalidated
deriving DecidableEq, Repr

def QuoteLifecycleState.toU32 : QuoteLifecycleState → UInt32
  | .active => 0
  | .invalidated => 1

def validateCurrencyCode (code : String) : Except Panic Unit :=
  require (code.utf8ByteSize ≠ 0 ∧ code.utf8ByteSize ≤ 12) (.withError .invalidAssetCode)

def validateFeePercent (fee : UInt32) : Except Panic Unit :=
  require (fee ≤ 10000) (.withError .invalidQuote)

/-- A maximum of zero stands for no maximum. -/
def validateAmountLimits (minAmount maxAmount : UInt64) : Except Panic Unit :=
  require (maxAmount = 0 ∨ minAmount ≤ maxAmount) (.withError .invalidQuote)

structure QuoteTerms where
  baseAsset : String
  quoteAsset : String
  rate : UInt64
  feePercentage : UInt32
  minimumAmount : UInt64
  maximumAmount : UInt64
  validUntil : UInt64
deriving DecidableEq, Repr

def appendQuoteIndex (st : QuoteStore) (quoteId : UInt64) (anchor : Address) : QuoteStore :=
  { st with index := st.index ++ [quoteId], anchorRef := st.anchorRef.set quoteId anchor }

def storeQuote (st : QuoteStore) (quote : Quote) : QuoteStore :=
  { st with
    record := st.record.set (quote.anchor, quote.quoteId) (.current quote)
    lifecycle := st.lifecycle.set (quote.anchor, quote.quoteId) QuoteLifecycleState.active.toU32 }

def submitQuoteWithReason (env : Env) (s : Storage) (anchor : Address) (terms : QuoteTerms)
    (routingReason : Option String) : Except Panic (Storage × UInt64) := do
  anchor.requireAuth env
  validateCurrencyCode terms.baseAsset
  validateCurrencyCode terms.quoteAsset
  validateFeePercent terms.feePercentage
  validateAmountLimits terms.minimumAmount terms.maximumAmount
  let now := env.timestamp
  require (now < terms.validUntil) (.withError .invalidQuote)
  require (Word.saturatingSub64 terms.validUntil now ≤ maxQuoteValiditySeconds)
    (.withError .invalidQuote)
  let next ← add64 s.quotes.count 1
  let quote : Quote :=
    { quoteId := next, anchor, baseAsset := terms.baseAsset, quoteAsset := terms.quoteAsset,
      rate := terms.rate, feePercentage := terms.feePercentage,
      minimumAmount := terms.minimumAmount, maximumAmount := terms.maximumAmount,
      validUntil := terms.validUntil, schemaVersion := schemaV1, routingReason }
  let st := storeQuote { s.quotes with count := next } quote
  let st := appendQuoteIndex st next anchor
  let st := { st with latest := st.latest.set anchor next }
  let event := .quoteSubmitted next anchor terms.baseAsset terms.quoteAsset terms.rate
    terms.validUntil routingReason
  return ({ s with quotes := st }.publish event, next)

def submitQuote (env : Env) (s : Storage) (anchor : Address) (terms : QuoteTerms) :
    Except Panic (Storage × UInt64) :=
  submitQuoteWithReason env s anchor terms none

def requireQuoteService (s : Storage) (anchor : Address) : Except Panic Unit := do
  let record ← getSupportedServicesInternal s anchor
  require (record.services.contains serviceQuotes = true) (.withError .servicesNotConfigured)

/-- The inner submission asks for the anchor's authorization once more. -/
def quoteWithRequestIdAndReason (env : Env) (s : Storage) (requestId : RequestId)
    (anchor : Address) (terms : QuoteTerms) (routingReason : Option String) :
    Except Panic Storage := do
  anchor.requireAuth env
  requireQuoteService s anchor
  let (s, _) ← submitQuoteWithReason (env.spend anchor) s anchor terms routingReason
  let operation := if routingReason.isSome then "submit_quote_with_reason" else "submit_quote"
  let s := storeSpan s requestId operation anchor env.timestamp "success"
  return recordOperationInContext env s requestId.id operation

def quoteWithRequestId (env : Env) (s : Storage) (requestId : RequestId) (anchor : Address)
    (terms : QuoteTerms) : Except Panic Storage :=
  quoteWithRequestIdAndReason env s requestId anchor terms none

/-- Reading a record as a `Quote` aborts on the old layout, so the source's fallback for that
layout is never reached. -/
def readQuote : Option StoredQuote → Except Panic (Option Quote)
  | none => .ok none
  | some (.current quote) => .ok (some quote)
  | some (.legacy _) => .error .conversionFailed

def getQuote (s : Storage) (anchor : Address) (quoteId : UInt64) : Except Panic Quote := do
  let quote ← readQuote (s.quotes.record.get (anchor, quoteId))
  expect quote (.withError .quoteNotFound)

def latestQuote (s : Storage) (anchor : Address) : Except Panic (Option Quote) :=
  match s.quotes.latest.get anchor with
  | none => .ok none
  | some quoteId => readQuote (s.quotes.record.get (anchor, quoteId))

/-- A quote without a flag is active. -/
def isInvalidated (s : Storage) (anchor : Address) (quoteId : UInt64) : Bool :=
  (s.quotes.lifecycle.get (anchor, quoteId)).getD 0 = QuoteLifecycleState.invalidated.toU32

def getQuoteLifecycleState (s : Storage) (anchor : Address) (quoteId : UInt64) :
    QuoteLifecycleState :=
  if isInvalidated s anchor quoteId then .invalidated else .active

/-- The lifecycle flag is not looked at. -/
def receiveQuote (env : Env) (s : Storage) (receiver anchor : Address) (quoteId : UInt64) :
    Except Panic (Storage × Quote) := do
  receiver.requireAuth env
  let quote ← getQuote s anchor quoteId
  return (s.publish (.quoteReceived quoteId receiver env.timestamp), quote)

/-- Nor is it here, where the time and the compliance of the receiver count. -/
def acceptQuoteWithCompliance (env : Env) (s : Storage) (receiver anchor : Address)
    (quoteId : UInt64) (requireCompliance : Bool) : Except Panic (Storage × Quote) := do
  receiver.requireAuth env
  let quote ← getQuote s anchor quoteId
  require (env.timestamp < quote.validUntil) (.withError .quoteExpired)
  checkCompliance s receiver requireCompliance
  return (s.publish (.quoteAccepted quoteId receiver env.timestamp), quote)

def invalidateQuote (env : Env) (s : Storage) (anchor : Address) (quoteId : UInt64) :
    Except Panic Storage := do
  requireAdmin env s
  require (s.quotes.record.has (anchor, quoteId) = true) (.withError .quoteNotFound)
  let s := { s with quotes := { s.quotes with
    lifecycle := s.quotes.lifecycle.set (anchor, quoteId) QuoteLifecycleState.invalidated.toU32 } }
  return s.publish (.quoteInvalidated quoteId)

/-- Whether a purge at `now` keeps the index entry. -/
def survivesPurge (s : Storage) (now quoteId : UInt64) : Except Panic Bool :=
  match s.quotes.anchorRef.get quoteId with
  | none => .ok false
  | some anchor => do
    match ← readQuote (s.quotes.record.get (anchor, quoteId)) with
    | none => return false
    | some quote =>
      if now < quote.validUntil then return !isInvalidated s anchor quoteId
      return false

/-- The purge walks its own list, which no submission writes. -/
def purgeExpiredQuotes (env : Env) (s : Storage) : Except Panic Storage := do
  requireAdmin env s
  let ids := s.quotes.purgeIndex
  let live ← ids.filterM (survivesPurge s env.timestamp)
  if live.length < ids.length then
    return { s with quotes := { s.quotes with purgeIndex := live } }
  return s

section Effects

variable {env : Env} {s s' : Storage} {anchor receiver : Address} {quoteId : UInt64}

/-- The store after the quote `quote` came in under the next id. -/
def QuoteStore.submit (st : QuoteStore) (quote : Quote) : QuoteStore :=
  { st with
    count := quote.quoteId
    index := st.index ++ [quote.quoteId]
    anchorRef := st.anchorRef.set quote.quoteId quote.anchor
    record := st.record.set (quote.anchor, quote.quoteId) (.current quote)
    lifecycle := st.lifecycle.set (quote.anchor, quote.quoteId) QuoteLifecycleState.active.toU32
    latest := st.latest.set quote.anchor quote.quoteId }

theorem submitQuoteWithReason_effects {terms : QuoteTerms} {routingReason : Option String}
    (h : submitQuoteWithReason env s anchor terms routingReason = .ok (s', quoteId)) :
    ∃ quote : Quote, ∃ events, quote.anchor = anchor ∧ quote.quoteId = quoteId ∧
      quote.quoteId.toNat = s.quotes.count.toNat + 1 ∧ quote.schemaVersion = schemaV1 ∧
      quote.routingReason = routingReason ∧
      s' = { s with quotes := s.quotes.submit quote, events := events } := by
  simp only [submitQuoteWithReason, bind_eq_ok, add64_eq_ok, pure_eq_ok, Prod.mk.injEq] at h
  obtain ⟨_, _, _, _, _, _, _, _, _, _, _, _, _, _, next, hnext, rfl, rfl⟩ := h
  let quote : Quote :=
    { quoteId := next, anchor, baseAsset := terms.baseAsset, quoteAsset := terms.quoteAsset,
      rate := terms.rate, feePercentage := terms.feePercentage,
      minimumAmount := terms.minimumAmount, maximumAmount := terms.maximumAmount,
      validUntil := terms.validUntil, schemaVersion := schemaV1, routingReason }
  exact ⟨quote, _, rfl, rfl, hnext.symm, rfl, rfl, rfl⟩

theorem quoteWithRequestIdAndReason_effects {requestId : RequestId} {terms : QuoteTerms}
    {routingReason : Option String}
    (h : quoteWithRequestIdAndReason env s requestId anchor terms routingReason = .ok s') :
    ∃ quote : Quote, ∃ span context events, quote.anchor = anchor ∧
      quote.quoteId.toNat = s.quotes.count.toNat + 1 ∧ quote.schemaVersion = schemaV1 ∧
      quote.routingReason = routingReason ∧
      s' = { s with
        quotes := s.quotes.submit quote
        tracing := { s.tracing with
          span := s.tracing.span.set requestId.id span, context := context }
        events := events } := by
  simp only [quoteWithRequestIdAndReason, bind_eq_ok, pure_eq_ok] at h
  obtain ⟨_, _, _, _, ⟨t, id⟩, hsubmit, rfl⟩ := h
  obtain ⟨quote, _, hanchor, _, hid, hversion, hreason, rfl⟩ :=
    submitQuoteWithReason_effects hsubmit
  exact ⟨quote, _, _, _, hanchor, hid, hversion, hreason, rfl⟩

@[simp] theorem readQuote_eq_ok {stored : Option StoredQuote} {read : Option Quote} :
    readQuote stored = .ok read ↔ stored = read.map .current := by
  rcases stored with _ | (legacy | quote) <;> cases read <;> simp [readQuote]

theorem getQuote_eq_ok {quote : Quote} :
    getQuote s anchor quoteId = .ok quote ↔
      s.quotes.record.get (anchor, quoteId) = some (.current quote) := by
  simp [getQuote, bind_eq_ok]

theorem receiveQuote_effects {quote : Quote}
    (h : receiveQuote env s receiver anchor quoteId = .ok (s', quote)) :
    s.quotes.record.get (anchor, quoteId) = some (.current quote) ∧
      ∃ events, s' = { s with events := events } := by
  simp only [receiveQuote, bind_eq_ok, getQuote_eq_ok, pure_eq_ok, Prod.mk.injEq] at h
  obtain ⟨_, _, _, hquote, rfl, rfl⟩ := h
  exact ⟨hquote, _, rfl⟩

theorem acceptQuoteWithCompliance_effects {requireCompliance : Bool} {quote : Quote}
    (h : acceptQuoteWithCompliance env s receiver anchor quoteId requireCompliance
      = .ok (s', quote)) :
    s.quotes.record.get (anchor, quoteId) = some (.current quote) ∧
      ∃ events, s' = { s with events := events } := by
  simp only [acceptQuoteWithCompliance, bind_eq_ok, getQuote_eq_ok, pure_eq_ok,
    Prod.mk.injEq] at h
  obtain ⟨_, _, _, hquote, _, _, _, _, rfl, rfl⟩ := h
  exact ⟨hquote, _, rfl⟩

theorem invalidateQuote_effects (h : invalidateQuote env s anchor quoteId = .ok s') :
    s.quotes.record.has (anchor, quoteId) = true ∧
      ∃ events, s' = { s with
        quotes := { s.quotes with
          lifecycle := s.quotes.lifecycle.set (anchor, quoteId)
            QuoteLifecycleState.invalidated.toU32 }
        events := events } := by
  simp only [invalidateQuote, bind_eq_ok, require_eq_ok, pure_eq_ok] at h
  obtain ⟨_, _, _, hhas, rfl⟩ := h
  exact ⟨hhas, _, rfl⟩

theorem purgeExpiredQuotes_effects (h : purgeExpiredQuotes env s = .ok s') :
    ∃ purgeIndex, s' = { s with quotes := { s.quotes with purgeIndex := purgeIndex } } := by
  simp only [purgeExpiredQuotes, bind_eq_ok] at h
  obtain ⟨_, _, live, _, h⟩ := h
  split at h
  · obtain rfl := pure_eq_ok.mp h
    exact ⟨live, rfl⟩
  · obtain rfl := pure_eq_ok.mp h
    exact ⟨s.quotes.purgeIndex, rfl⟩

end Effects

end AnchorKit
