import AnchorKit.Library.Text
import AnchorKit.Types
import Mathlib.Data.List.Destutter

/-!
# Firm quotes

An anchor's raw quote becomes a firm quote when all its fields are valid. A partial response is
parsed field by field, and one without gaps can be promoted to a firm quote as well.
-/

namespace AnchorKit

namespace Sep38

open Fallible

structure FirmQuote where
  id : Text
  expiresAt : UInt64
  price : Text
  sellAmount : Text
  buyAmount : Text
  sellAsset : Text
  buyAsset : Text
  routingReason : Option Text
deriving DecidableEq, Repr

structure RawFirmQuote where
  id : Text
  expiresAt : Text
  price : Text
  sellAmount : Text
  buyAmount : Text
  sellAsset : Text
  buyAsset : Text
deriving DecidableEq, Repr

structure RawPartialFirmQuote where
  id : Option Text
  expiresAt : Option Text
  price : Option Text
  sellAmount : Option Text
  buyAmount : Option Text
  sellAsset : Option Text
  buyAsset : Option Text
deriving DecidableEq, Repr

structure PartialFirmQuote where
  id : Option Text
  expiresAt : Option UInt64
  price : Option Text
  sellAmount : Option Text
  buyAmount : Option Text
  sellAsset : Option Text
  buyAsset : Option Text
  missingFields : List Text
deriving DecidableEq, Repr

def RawFirmQuote.toPartial (raw : RawFirmQuote) : RawPartialFirmQuote :=
  ⟨raw.id, raw.expiresAt, raw.price, raw.sellAmount, raw.buyAmount, raw.sellAsset, raw.buyAsset⟩

/-! ### Checks of single fields -/

def normalizeAssetCode (code : Text) : Except AnchorKitError Text := do
  let trimmed := Text.trimMatches isWhitespace code
  require (¬ (trimmed = [] ∨ 12 < Text.byteLen trimmed)) (.invalidAssetCode (String.ofList code))
  require (trimmed.all Char.isAlphanum = true) (.invalidAssetCode (String.ofList code))
  return Text.asciiUpper trimmed

def scanDecimal (hasDigit : Bool) (dotCount : ℕ) : Text → Bool
  | [] => hasDigit
  | ch :: rest =>
    if ch.isDigit then scanDecimal true dotCount rest
    else if ch = '.' then
      if 1 < dotCount + 1 then false else scanDecimal hasDigit (dotCount + 1) rest
    else false

def isValidPositiveDecimal (s : Text) : Bool :=
  s ≠ [] && scanDecimal false 0 s && s.any fun c => c ≠ '.' && c ≠ '0'

def maxReasonableFuture : UInt64 := 315360000

def parseAndValidateTimestamp (timestamp : Text) (now : UInt64) : Except AnchorKitError UInt64 := do
  require (timestamp ≠ []) .invalidQuote
  let timestamp ← expect (Text.parseU64 timestamp) .invalidQuote
  require (timestamp ≠ 0) .invalidQuote
  require (timestamp ≤ Word.saturatingAdd64 now maxReasonableFuture) .invalidQuote
  return timestamp

inductive QuoteFreshness
  | fresh
  | nearStale
  | stale
  | invalid
deriving DecidableEq, Repr

/-! ### The strict parser -/

def validateQuoteFieldsWithThreshold (raw : RawFirmQuote) (currentTimestamp : UInt64)
    (nearStaleThresholdSeconds : UInt64) : Except AnchorKitError (UInt64 × QuoteFreshness) := do
  require (Text.trimMatches isWhitespace raw.id ≠ []) .invalidQuote
  let expiresAt ← parseAndValidateTimestamp raw.expiresAt currentTimestamp
  let freshness :=
    if expiresAt ≤ currentTimestamp then QuoteFreshness.stale
    else if expiresAt - currentTimestamp < nearStaleThresholdSeconds then .nearStale
    else .fresh
  require (isValidPositiveDecimal raw.price = true) .invalidQuote
  require (isValidPositiveDecimal raw.sellAmount = true) .invalidQuote
  require (isValidPositiveDecimal raw.buyAmount = true) .invalidQuote
  let sellAsset := Text.trimMatches isWhitespace raw.sellAsset
  let buyAsset := Text.trimMatches isWhitespace raw.buyAsset
  require (¬ (sellAsset = [] ∨ buyAsset = [])) .invalidQuote
  require (Text.eqIgnoreAsciiCase sellAsset buyAsset = false) .invalidQuote
  return (expiresAt, freshness)

def defaultNearStaleThreshold : UInt64 := 60

def validateQuoteFields (raw : RawFirmQuote) (currentTimestamp : UInt64) :
    Except AnchorKitError UInt64 := do
  let (expiresAt, freshness) ←
    validateQuoteFieldsWithThreshold raw currentTimestamp defaultNearStaleThreshold
  match freshness with
  | .stale => .error .staleQuote
  | .nearStale | .fresh => return expiresAt
  | .invalid => .error .invalidQuote

def requestFirmQuote (raw : RawFirmQuote) (currentTimestamp : UInt64) :
    Except AnchorKitError FirmQuote := do
  let expiresAt ← validateQuoteFields raw currentTimestamp
  let sellAsset ← normalizeAssetCode raw.sellAsset
  let buyAsset ← normalizeAssetCode raw.buyAsset
  return { id := raw.id, expiresAt, price := raw.price, sellAmount := raw.sellAmount,
           buyAmount := raw.buyAmount, sellAsset, buyAsset, routingReason := none }

/-! ### The lenient parser -/

def parsePartialId (s : Text) : Option Text :=
  if Text.trimMatches isWhitespace s ≠ [] then some s else none

/-- Without a bound on how far ahead the expiry is. -/
def parsePartialExpiry (s : Text) : Option UInt64 :=
  if s ≠ [] then (Text.parseU64 s).filter fun v => 0 < v else none

def parsePartialDecimal (s : Text) : Option Text :=
  if isValidPositiveDecimal s then some s else none

def parsePartialAsset (s : Text) : Option Text :=
  if s ≠ [] then (normalizeAssetCode s).toOption else none

def missingName {α : Type} (name : String) (field : Option α) : List Text :=
  if field.isSome then [] else [name.toList]

def identicalAssets : Option Text → Option Text → Bool
  | some sell, some buy => Text.eqIgnoreAsciiCase sell buy
  | _, _ => false

def parsePartialQuote (raw : RawPartialFirmQuote) : PartialFirmQuote :=
  let id := raw.id.bind parsePartialId
  let expiresAt := raw.expiresAt.bind parsePartialExpiry
  let price := raw.price.bind parsePartialDecimal
  let sellAmount := raw.sellAmount.bind parsePartialDecimal
  let buyAmount := raw.buyAmount.bind parsePartialDecimal
  let sellAsset := raw.sellAsset.bind parsePartialAsset
  let buyAsset := raw.buyAsset.bind parsePartialAsset
  let missing := missingName "id" id ++ missingName "expires_at" expiresAt ++
    missingName "price" price ++ missingName "sell_amount" sellAmount ++
    missingName "buy_amount" buyAmount ++ missingName "sell_asset" sellAsset ++
    missingName "buy_asset" buyAsset
  if identicalAssets sellAsset buyAsset then
    ⟨none, none, none, none, none, none, none,
      (missing ++ ["sell_asset".toList, "buy_asset".toList]).destutter (· ≠ ·)⟩
  else ⟨id, expiresAt, price, sellAmount, buyAmount, sellAsset, buyAsset, missing⟩

namespace PartialFirmQuote

def isComplete (quote : PartialFirmQuote) : Bool := quote.missingFields.isEmpty

def intoFull (quote : PartialFirmQuote) : Except AnchorKitError FirmQuote := do
  require (quote.isComplete = true) .invalidQuote
  let id ← expect quote.id .invalidQuote
  let expiresAt ← expect quote.expiresAt .invalidQuote
  let price ← expect quote.price .invalidQuote
  let sellAmount ← expect quote.sellAmount .invalidQuote
  let buyAmount ← expect quote.buyAmount .invalidQuote
  let sellAsset ← expect quote.sellAsset .invalidQuote
  let buyAsset ← expect quote.buyAsset .invalidQuote
  return { id, expiresAt, price, sellAmount, buyAmount, sellAsset, buyAsset,
           routingReason := none }

end PartialFirmQuote

/-! ### What both parsers accept -/

def assetCode (code : Text) : Text := Text.asciiUpper (Text.trimMatches isWhitespace code)

structure ValidAssetCode (code : Text) : Prop where
  nonempty : Text.trimMatches isWhitespace code ≠ []
  length : Text.byteLen (Text.trimMatches isWhitespace code) ≤ 12
  alphanumeric : (Text.trimMatches isWhitespace code).all Char.isAlphanum = true

structure RawFirmQuote.FieldsValid (raw : RawFirmQuote) : Prop where
  id : Text.trimMatches isWhitespace raw.id ≠ []
  price : isValidPositiveDecimal raw.price = true
  sellAmount : isValidPositiveDecimal raw.sellAmount = true
  buyAmount : isValidPositiveDecimal raw.buyAmount = true
  sellAsset : ValidAssetCode raw.sellAsset
  buyAsset : ValidAssetCode raw.buyAsset
  assetsDiffer : assetCode raw.sellAsset ≠ assetCode raw.buyAsset

def RawFirmQuote.toFirm (raw : RawFirmQuote) (expiresAt : UInt64) : FirmQuote :=
  { id := raw.id, expiresAt, price := raw.price, sellAmount := raw.sellAmount,
    buyAmount := raw.buyAmount, sellAsset := assetCode raw.sellAsset,
    buyAsset := assetCode raw.buyAsset, routingReason := none }

variable {raw : RawFirmQuote} {now t : UInt64} {q : FirmQuote} {code c : Text}

theorem normalizeAssetCode_eq_ok :
    normalizeAssetCode code = .ok c ↔ ValidAssetCode code ∧ assetCode code = c := by
  simp only [normalizeAssetCode, require_bind_eq_ok, pure_eq_ok, not_or, not_lt]
  constructor
  · intro h
    obtain ⟨⟨hnonempty, hlength⟩, halpha, hcode⟩ := h
    exact ⟨⟨hnonempty, hlength, halpha⟩, hcode⟩
  · intro h
    obtain ⟨hvalid, hcode⟩ := h
    exact ⟨⟨hvalid.nonempty, hvalid.length⟩, hvalid.alphanumeric, hcode⟩

/-- Folding to upper case first makes the lenient comparison of two codes that of the strict one. -/
theorem eqIgnoreAsciiCase_assetCode {d : Text} :
    Text.eqIgnoreAsciiCase (assetCode c) (assetCode d) = true ↔ assetCode c = assetCode d := by
  rw [Text.eqIgnoreAsciiCase_iff, ← Text.asciiUpper_eq_iff, assetCode, assetCode,
    Text.asciiUpper_asciiUpper, Text.asciiUpper_asciiUpper]

theorem parsePartialAsset_eq_some :
    parsePartialAsset code = some c ↔ ValidAssetCode code ∧ assetCode code = c := by
  rw [parsePartialAsset, ← normalizeAssetCode_eq_ok]
  split
  · cases normalizeAssetCode code with
    | error e => simp [Except.toOption]
    | ok d => simp [Except.toOption]
  · rename_i hempty
    rw [not_not.mp hempty]
    refine iff_of_false (by simp) fun h => ?_
    exact (normalizeAssetCode_eq_ok.mp h).1.nonempty rfl

theorem parseU64_nil : Text.parseU64 [] = none := rfl

/-- What comes after some time is not at zero. -/
theorem pos_of_now_lt (h : now < t) : 0 < t := by
  rw [UInt64.lt_iff_toNat_lt] at h ⊢
  exact Nat.zero_lt_of_lt h

theorem parsePartialExpiry_eq_some :
    parsePartialExpiry code = some t ↔ Text.parseU64 code = some t ∧ 0 < t := by
  rw [parsePartialExpiry]
  split
  · rw [Option.filter_eq_some_iff, decide_eq_true_iff]
  · rename_i hempty
    rw [not_not.mp hempty, parseU64_nil]
    simp

theorem parseAndValidateTimestamp_eq_ok : parseAndValidateTimestamp code now = .ok t ↔
    Text.parseU64 code = some t ∧ 0 < t ∧ t ≤ Word.saturatingAdd64 now maxReasonableFuture := by
  simp only [parseAndValidateTimestamp, require_bind_eq_ok, expect_bind_eq_ok, pure_eq_ok]
  constructor
  · rintro ⟨_, _, hparse, hzero, hfuture, rfl⟩
    exact ⟨hparse, UInt64.pos_iff_ne_zero.mpr hzero, hfuture⟩
  · intro h
    obtain ⟨hparse, hzero, hfuture⟩ := h
    refine ⟨?_, t, hparse, UInt64.pos_iff_ne_zero.mp hzero, hfuture, rfl⟩
    rintro rfl
    rw [parseU64_nil] at hparse
    cases hparse

theorem validateQuoteFields_eq_ok : validateQuoteFields raw now = .ok t ↔
    (Text.trimMatches isWhitespace raw.id ≠ [] ∧ isValidPositiveDecimal raw.price = true ∧
      isValidPositiveDecimal raw.sellAmount = true ∧
      isValidPositiveDecimal raw.buyAmount = true ∧
      Text.trimMatches isWhitespace raw.sellAsset ≠ [] ∧
      Text.trimMatches isWhitespace raw.buyAsset ≠ [] ∧
      assetCode raw.sellAsset ≠ assetCode raw.buyAsset) ∧
    Text.parseU64 raw.expiresAt = some t ∧ now < t ∧
      t ≤ Word.saturatingAdd64 now maxReasonableFuture := by
  have hdiffer : Text.eqIgnoreAsciiCase (Text.trimMatches isWhitespace raw.sellAsset)
      (Text.trimMatches isWhitespace raw.buyAsset) = false ↔
      assetCode raw.sellAsset ≠ assetCode raw.buyAsset := by
    rw [← Bool.not_eq_true, Text.eqIgnoreAsciiCase_iff, ← Text.asciiUpper_eq_iff]
    rfl
  simp only [validateQuoteFields, validateQuoteFieldsWithThreshold, bind_eq_ok, require_eq_ok,
    pure_eq_ok, parseAndValidateTimestamp_eq_ok, hdiffer, not_or]
  constructor
  · rintro ⟨_, ⟨_, hid, expiry, ⟨hparse, hzero, hfuture⟩, _, hprice, _, hsell, _, hbuy, _,
      ⟨hsellAsset, hbuyAsset⟩, _, hassets, rfl⟩, hfresh⟩
    by_cases hstale : expiry ≤ now
    · rw [if_pos hstale] at hfresh
      cases hfresh
    · have hsame : expiry = t := by
        dsimp only at hfresh
        rw [if_neg hstale] at hfresh
        split_ifs at hfresh
        · exact Except.ok.inj hfresh
        · exact Except.ok.inj hfresh
      subst hsame
      exact ⟨⟨hid, hprice, hsell, hbuy, hsellAsset, hbuyAsset, hassets⟩, hparse,
        UInt64.not_le.mp hstale, hfuture⟩
  · intro h
    obtain ⟨⟨hid, hprice, hsell, hbuy, hsellAsset, hbuyAsset, hassets⟩, hparse, hfresh,
      hfuture⟩ := h
    refine ⟨_, ⟨(), hid, t, ⟨hparse, pos_of_now_lt hfresh, hfuture⟩, (), hprice, (), hsell, (),
      hbuy, (), ⟨hsellAsset, hbuyAsset⟩, (), hassets, rfl⟩, ?_⟩
    rw [if_neg (UInt64.not_le.mpr hfresh)]
    split_ifs
    · rfl
    · rfl

theorem requestFirmQuote_eq_ok : requestFirmQuote raw now = .ok q ↔
    raw.FieldsValid ∧ ∃ t, Text.parseU64 raw.expiresAt = some t ∧ now < t ∧
      t ≤ Word.saturatingAdd64 now maxReasonableFuture ∧ raw.toFirm t = q := by
  simp only [requestFirmQuote, bind_eq_ok, validateQuoteFields_eq_ok, normalizeAssetCode_eq_ok,
    pure_eq_ok]
  constructor
  · rintro ⟨t, ⟨⟨hid, hprice, hsell, hbuy, _, _, hassets⟩, hparse, hfresh, hfuture⟩, _,
      ⟨hsellAsset, rfl⟩, _, ⟨hbuyAsset, rfl⟩, rfl⟩
    exact ⟨⟨hid, hprice, hsell, hbuy, hsellAsset, hbuyAsset, hassets⟩, t, hparse, hfresh, hfuture,
      rfl⟩
  · rintro ⟨hvalid, t, hparse, hfresh, hfuture, rfl⟩
    refine ⟨t, ⟨?_, hparse, hfresh, hfuture⟩, _, ⟨hvalid.sellAsset, rfl⟩, _,
      ⟨hvalid.buyAsset, rfl⟩, rfl⟩
    exact ⟨hvalid.id, hvalid.price, hvalid.sellAmount, hvalid.buyAmount,
      hvalid.sellAsset.nonempty, hvalid.buyAsset.nonempty, hvalid.assetsDiffer⟩

theorem intoFull_eq_ok {quote : PartialFirmQuote} : quote.intoFull = .ok q ↔
    quote.missingFields = [] ∧ quote.id = some q.id ∧ quote.expiresAt = some q.expiresAt ∧
      quote.price = some q.price ∧ quote.sellAmount = some q.sellAmount ∧
      quote.buyAmount = some q.buyAmount ∧ quote.sellAsset = some q.sellAsset ∧
      quote.buyAsset = some q.buyAsset ∧ q.routingReason = none := by
  simp only [PartialFirmQuote.intoFull, PartialFirmQuote.isComplete, require_bind_eq_ok,
    expect_bind_eq_ok, pure_eq_ok, List.isEmpty_iff]
  refine and_congr_right fun _ => ?_
  constructor
  · rintro ⟨id, hid, expiry, hexpiry, price, hprice, sell, hsell, buy, hbuy, sellAsset, hsellAsset,
      buyAsset, hbuyAsset, rfl⟩
    exact ⟨hid, hexpiry, hprice, hsell, hbuy, hsellAsset, hbuyAsset, rfl⟩
  · intro h
    obtain ⟨hid, hexpiry, hprice, hsell, hbuy, hsellAsset, hbuyAsset, hreason⟩ := h
    refine ⟨_, hid, _, hexpiry, _, hprice, _, hsell, _, hbuy, _, hsellAsset, _, hbuyAsset, ?_⟩
    rw [← hreason]

/-- A partial quote without gaps comes from valid fields. -/
theorem intoFull_parsePartialQuote_eq_ok : (parsePartialQuote raw.toPartial).intoFull = .ok q ↔
    raw.FieldsValid ∧ ∃ t, Text.parseU64 raw.expiresAt = some t ∧ 0 < t ∧ raw.toFirm t = q := by
  rw [intoFull_eq_ok]
  constructor
  · intro ⟨_, hid, hexpiry, hprice, hsell, hbuy, hsellAsset, hbuyAsset, hreason⟩
    unfold parsePartialQuote at hid hexpiry hprice hsell hbuy hsellAsset hbuyAsset
    dsimp only [RawFirmQuote.toPartial, Option.bind_some] at *
    by_cases hsame : identicalAssets (parsePartialAsset raw.sellAsset)
        (parsePartialAsset raw.buyAsset) = true
    · rw [if_pos hsame] at hid
      cases hid
    · rw [if_neg hsame] at hid hexpiry hprice hsell hbuy hsellAsset hbuyAsset
      dsimp only at *
      rw [hsellAsset, hbuyAsset] at hsame
      obtain ⟨hsellValid, hsellCode⟩ := parsePartialAsset_eq_some.mp hsellAsset
      obtain ⟨hbuyValid, hbuyCode⟩ := parsePartialAsset_eq_some.mp hbuyAsset
      obtain ⟨hparse, hpositive⟩ := parsePartialExpiry_eq_some.mp hexpiry
      rw [parsePartialId, Option.ite_none_right_eq_some] at hid
      rw [parsePartialDecimal, Option.ite_none_right_eq_some] at hprice hsell hbuy
      rw [identicalAssets, ← hsellCode, ← hbuyCode, eqIgnoreAsciiCase_assetCode] at hsame
      refine ⟨⟨hid.1, hprice.1, hsell.1, hbuy.1, hsellValid, hbuyValid, hsame⟩, _, hparse,
        hpositive, ?_⟩
      rw [RawFirmQuote.toFirm, hsellCode, hbuyCode, Option.some.inj hid.2,
        Option.some.inj hprice.2, Option.some.inj hsell.2, Option.some.inj hbuy.2, ← hreason]
  · rintro ⟨hvalid, t, hparse, hpositive, rfl⟩
    have hid : parsePartialId raw.id = some raw.id := if_pos hvalid.id
    have hexpiry : parsePartialExpiry raw.expiresAt = some t :=
      parsePartialExpiry_eq_some.mpr ⟨hparse, hpositive⟩
    have hprice : parsePartialDecimal raw.price = some raw.price := if_pos hvalid.price
    have hsell : parsePartialDecimal raw.sellAmount = some raw.sellAmount :=
      if_pos hvalid.sellAmount
    have hbuy : parsePartialDecimal raw.buyAmount = some raw.buyAmount := if_pos hvalid.buyAmount
    have hsellAsset : parsePartialAsset raw.sellAsset = some (assetCode raw.sellAsset) :=
      parsePartialAsset_eq_some.mpr ⟨hvalid.sellAsset, rfl⟩
    have hbuyAsset : parsePartialAsset raw.buyAsset = some (assetCode raw.buyAsset) :=
      parsePartialAsset_eq_some.mpr ⟨hvalid.buyAsset, rfl⟩
    unfold parsePartialQuote
    dsimp only [RawFirmQuote.toPartial, Option.bind_some]
    rw [hid, hexpiry, hprice, hsell, hbuy, hsellAsset, hbuyAsset]
    have hdiffer : ¬ identicalAssets (some (assetCode raw.sellAsset))
        (some (assetCode raw.buyAsset)) = true :=
      mt eqIgnoreAsciiCase_assetCode.mp hvalid.assetsDiffer
    rw [if_neg hdiffer]
    exact ⟨rfl, rfl, rfl, rfl, rfl, rfl, rfl, rfl, rfl⟩

/-- Before its expiry, a response without gaps gives both parsers the same quote unless it is valid
but expires too far ahead. -/
theorem partial_agrees_iff (hbefore : ∀ t, Text.parseU64 raw.expiresAt = some t → now < t) :
    (∀ q, (parsePartialQuote raw.toPartial).intoFull = .ok q ↔ requestFirmQuote raw now = .ok q) ↔
      (raw.FieldsValid → ∀ t, Text.parseU64 raw.expiresAt = some t →
        t ≤ Word.saturatingAdd64 now maxReasonableFuture) := by
  simp only [intoFull_parsePartialQuote_eq_ok, requestFirmQuote_eq_ok]
  constructor
  · intro hagree hvalid t hparse
    obtain ⟨_, t', hparse', _, hfuture, _⟩ := (hagree (raw.toFirm t)).mp
      ⟨hvalid, t, hparse, pos_of_now_lt (hbefore t hparse), rfl⟩
    rw [hparse] at hparse'
    rwa [Option.some.inj hparse']
  · intro hbound q
    refine and_congr_right fun hvalid => exists_congr fun t => and_congr_right fun hparse => ?_
    have hnow := hbefore t hparse
    constructor
    · intro ⟨_, hfirm⟩
      exact ⟨hnow, hbound hvalid t hparse, hfirm⟩
    · intro ⟨_, _, hfirm⟩
      exact ⟨pos_of_now_lt hnow, hfirm⟩

def exampleQuote (expiresAt : String) : RawFirmQuote :=
  { id := "q-1".toList, expiresAt := expiresAt.toList, price := "0.15".toList,
    sellAmount := "1000".toList, buyAmount := "150".toList, sellAsset := "xlm".toList,
    buyAsset := "usdc".toList }

/-- Ten years and a second ahead, only the lenient parser takes the quote. -/
theorem far_quote_promoted :
    (∀ t, Text.parseU64 (exampleQuote "315360002").expiresAt = some t → 1 < t) ∧
      (parsePartialQuote (exampleQuote "315360002").toPartial).intoFull =
        .ok ((exampleQuote "315360002").toFirm 315360002) ∧
      requestFirmQuote (exampleQuote "315360002") 1 = .error .invalidQuote := by
  refine ⟨?_, by decide +kernel, by decide +kernel⟩
  intro t h
  have hparse : Text.parseU64 (exampleQuote "315360002").expiresAt = some 315360002 := by
    decide +kernel
  rw [hparse] at h
  cases h
  decide

theorem partial_agrees_iff_near_quote :
    requestFirmQuote (exampleQuote "1700000000") 1690000000 =
      .ok ((exampleQuote "1700000000").toFirm 1700000000) ∧
    (parsePartialQuote (exampleQuote "1700000000").toPartial).intoFull =
      .ok ((exampleQuote "1700000000").toFirm 1700000000) := by
  have hparse : Text.parseU64 (exampleQuote "1700000000").expiresAt = some 1700000000 := by
    decide +kernel
  have hfirm : requestFirmQuote (exampleQuote "1700000000") 1690000000 =
      .ok ((exampleQuote "1700000000").toFirm 1700000000) := by
    decide +kernel
  refine ⟨hfirm, ((partial_agrees_iff ?_).mpr ?_ _).mpr hfirm⟩
  · intro t h
    rw [hparse] at h
    cases h
    decide
  · intro _ t h
    rw [hparse] at h
    cases h
    decide

end Sep38

end AnchorKit
