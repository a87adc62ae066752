import AnchorKit.ResponseValidator

/-!
# Compatibility of responses

A response of an older anchor is rated by its shape before it is validated. The rating and the
validator have the rules for the same fields separately, and not all of them twice.
-/

namespace AnchorKit

open Fallible

namespace ResponseValidator

inductive CompatibilityLevel
  | fullyCompatible
  | partiallyCompatible
  | incompatible
deriving DecidableEq, Repr

structure CompatibilityReport where
  level : CompatibilityLevel
  reason : Text
  missingOptionalFields : List Text
deriving DecidableEq, Repr

namespace CompatibilityReport

def fullyCompatible : CompatibilityReport :=
  ⟨.fullyCompatible, "all required and optional fields present".toList, []⟩

def partiallyCompatible (missing : List Text) : CompatibilityReport :=
  ⟨.partiallyCompatible, "required fields present; optional fields missing".toList, missing⟩

def incompatible (reason : String) : CompatibilityReport := ⟨.incompatible, reason.toList, []⟩

end CompatibilityReport

open CompatibilityReport

def checkDepositCompatibility (transactionId status depositAddress : Text)
    (expiresAt : Option UInt64) : CompatibilityReport :=
  if transactionId = [] then incompatible "transaction_id is missing"
  else if status = [] ∨ isValidSep6Status status = false then
    incompatible "status is missing or not a recognised SEP-6 value"
  else if depositAddress = [] then incompatible "deposit_address is missing"
  else if expiresAt = none then partiallyCompatible ["expires_at".toList]
  else fullyCompatible

def checkWithdrawCompatibility (transactionId status : Text) (estimatedCompletion : Option UInt64) :
    CompatibilityReport :=
  if transactionId = [] then incompatible "transaction_id is missing"
  else if status = [] ∨ isValidSep6Status status = false then
    incompatible "status is missing or not a recognised SEP-6 value"
  else if estimatedCompletion = none then partiallyCompatible ["estimated_completion".toList]
  else fullyCompatible

def isMissing (field : Option Text) : Bool := field.getD [] = []

def checkSep38QuoteCompatibility (id price sellAmount buyAmount : Text)
    (expiresAt fee : Option Text) : CompatibilityReport :=
  if id = [] then incompatible "id is missing"
  else if price = [] ∨ isValidPositiveDecimal price = false then
    incompatible "price is missing or not a positive number"
  else if sellAmount = [] ∨ isValidPositiveDecimal sellAmount = false then
    incompatible "sell_amount is missing or not a positive number"
  else if buyAmount = [] ∨ isValidPositiveDecimal buyAmount = false then
    incompatible "buy_amount is missing or not a positive number"
  else
    let missing := (if isMissing expiresAt then ["expires_at".toList] else []) ++
      if isMissing fee then ["fee".toList] else []
    if missing = [] then fullyCompatible else partiallyCompatible missing

def checkAnchorInfoCompatibility (name : Text) (supportedAssets : List Text) :
    CompatibilityReport :=
  if name = [] then incompatible "name is missing"
  else if supportedAssets = [] then incompatible "supported_assets is missing or empty"
  else fullyCompatible

def checkTransactionStatusCompatibility (transactionId status kind : Text) : CompatibilityReport :=
  if transactionId = [] then incompatible "transaction_id is missing"
  else if status = [] ∨ isValidSep6Status status = false then
    incompatible "status is missing or not a recognised SEP-6 value"
  else if kind = [] then incompatible "kind is missing"
  else fullyCompatible

/-! ### Responses of every shape -/

inductive RawResponse
  | deposit (transactionId status depositAddress : Text) (expiresAt : Option UInt64)
  | withdraw (transactionId status : Text) (estimatedCompletion : Option UInt64)
  | sep38Quote (id price sellAmount buyAmount : Text) (expiresAt fee : Option Text)
  | anchorInfo (name : Text) (supportedAssets : List Text)
  | transactionStatus (transactionId status kind : Text)

namespace RawResponse

def compatibility : RawResponse → CompatibilityReport
  | deposit transactionId status depositAddress expiresAt =>
    checkDepositCompatibility transactionId status depositAddress expiresAt
  | withdraw transactionId status estimatedCompletion =>
    checkWithdrawCompatibility transactionId status estimatedCompletion
  | sep38Quote id price sellAmount buyAmount expiresAt fee =>
    checkSep38QuoteCompatibility id price sellAmount buyAmount expiresAt fee
  | anchorInfo name supportedAssets => checkAnchorInfoCompatibility name supportedAssets
  | transactionStatus transactionId status kind =>
    checkTransactionStatusCompatibility transactionId status kind

/-- The validator of the current schema takes the required fields with some values of the optional
ones, of which those that are there are kept. -/
inductive Accepted (now : UInt64) : RawResponse → Prop
  | deposit {transactionId status depositAddress : Text} {expiresAt : UInt64}
      (h : Succeeds (validateDepositWithVersion transactionId status depositAddress expiresAt now
        .latest)) : Accepted now (.deposit transactionId status depositAddress (some expiresAt))
  | withdraw {transactionId status : Text} {estimatedCompletion : UInt64}
      (h : Succeeds (validateWithdrawWithVersion transactionId status estimatedCompletion
        .latest)) :
      Accepted now (.withdraw transactionId status (some estimatedCompletion))
  | sep38Quote {id price sellAmount buyAmount expiresAt fee : Text}
      (h : Succeeds (validateSep38QuoteWithVersion id expiresAt price sellAmount buyAmount fee
        .latest)) :
      Accepted now (.sep38Quote id price sellAmount buyAmount (some expiresAt) (some fee))
  | anchorInfo {name : Text} {supportedAssets : List Text}
      (h : Succeeds (validateAnchorInfoWithVersion name supportedAssets .latest)) :
      Accepted now (.anchorInfo name supportedAssets)
  | transactionStatus {transactionId status kind : Text}
      (h : Succeeds (validateTransactionStatusWithVersion transactionId status kind .latest)) :
      Accepted now (.transactionStatus transactionId status kind)

/-- The same required fields, with any optional ones. -/
inductive SameRequired : RawResponse → RawResponse → Prop
  | deposit (transactionId status depositAddress : Text) (expiresAt expiresAt' : Option UInt64) :
    SameRequired (.deposit transactionId status depositAddress expiresAt)
      (.deposit transactionId status depositAddress expiresAt')
  | withdraw (transactionId status : Text) (completion completion' : Option UInt64) :
    SameRequired (.withdraw transactionId status completion)
      (.withdraw transactionId status completion')
  | sep38Quote (id price sellAmount buyAmount : Text)
      (expiresAt expiresAt' fee fee' : Option Text) :
    SameRequired (.sep38Quote id price sellAmount buyAmount expiresAt fee)
      (.sep38Quote id price sellAmount buyAmount expiresAt' fee')
  | anchorInfo (name : Text) (supportedAssets : List Text) :
    SameRequired (.anchorInfo name supportedAssets) (.anchorInfo name supportedAssets)
  | transactionStatus (transactionId status kind : Text) :
    SameRequired (.transactionStatus transactionId status kind)
      (.transactionStatus transactionId status kind)

/-- What is rated as fully compatible is accepted, and what is rated as incompatible is not,
whatever its optional fields are. -/
structure NeverOverrated (now : UInt64) (raw : RawResponse) : Prop where
  full (h : raw.compatibility.level = .fullyCompatible) : raw.Accepted now
  incompatible (h : raw.compatibility.level = .incompatible) (other : RawResponse)
    (hother : raw.SameRequired other) : ¬ other.Accepted now

def NamesAsset (asset : Text) : Prop :=
  asset = "native".toList ∨ ∃ code issuer key, asset = code ++ ':' :: issuer ∧
    IsAssetCode code ∧ Encodes issuer key

/-- The rules that only the validator has do not refuse what is rated as fully compatible: an expiry
that has passed, a fee that is no positive number, a long name and assets that are none. -/
def Consistent (now : UInt64) : RawResponse → Prop
  | deposit transactionId status depositAddress expiresAt =>
    transactionId ≠ [] → status ≠ [] ∧ isValidSep6Status status = true → depositAddress ≠ [] →
      ∀ t, expiresAt = some t → t = 0 ∨ now < t
  | withdraw _ _ _ => True
  | sep38Quote id price sellAmount buyAmount expiresAt fee =>
    id ≠ [] → isValidPositiveDecimal price = true → isValidPositiveDecimal sellAmount = true →
      isValidPositiveDecimal buyAmount = true →
      ∀ t f, expiresAt = some t → t ≠ [] → fee = some f → f ≠ [] → isValidPositiveDecimal f = true
  | anchorInfo name supportedAssets =>
    name ≠ [] → supportedAssets ≠ [] →
      Text.byteLen name ≤ 100 ∧ ∀ asset ∈ supportedAssets, NamesAsset asset
  | transactionStatus _ _ _ => True

/-- A rating by what is required and what there is besides. -/
structure Rates (report : CompatibilityReport) (required complete : Prop) : Prop where
  full : report.level = .fullyCompatible ↔ required ∧ complete
  incompatible : report.level = .incompatible ↔ ¬ required

section Ratings

variable {raw : RawResponse} {now : UInt64} {report : CompatibilityReport}
  {required complete : Prop}

theorem Rates.guard {missing : Prop} [Decidable missing] {reason : String}
    (h : Rates report required complete) :
    Rates (if missing then CompatibilityReport.incompatible reason else report)
      (¬ missing ∧ required) complete := by
  by_cases hmissing : missing
  · rw [if_pos hmissing]
    exact ⟨iff_of_false nofun fun h => h.1.1 hmissing, iff_of_true rfl fun h => h.1 hmissing⟩
  · rw [if_neg hmissing, and_iff_right hmissing]
    exact h

theorem Rates.optional {absent : Prop} [Decidable absent] {missing : List Text} :
    Rates (if absent then partiallyCompatible missing else fullyCompatible) True (¬ absent) := by
  by_cases habsent : absent
  · rw [if_pos habsent]
    exact ⟨iff_of_false nofun fun h => h.2 habsent, iff_of_false nofun fun h => h trivial⟩
  · rw [if_neg habsent]
    exact ⟨iff_of_true rfl ⟨trivial, habsent⟩, iff_of_false nofun fun h => h trivial⟩

theorem Rates.always : Rates fullyCompatible True True :=
  ⟨iff_of_true rfl ⟨trivial, trivial⟩, iff_of_false nofun fun h => h trivial⟩

/-- A rating is right when the validator asks for nothing more where all fields are there. -/
theorem neverOverrated_iff_of_rates {more : Prop}
    (hrates : Rates raw.compatibility required complete)
    (hrequired : ∀ other, raw.SameRequired other → other.Accepted now → required)
    (haccepted : complete → (raw.Accepted now ↔ required ∧ more)) :
    raw.NeverOverrated now ↔ (required → complete → more) := by
  constructor
  · intro h hall hcomplete
    have hfull := h.full (hrates.full.mpr ⟨hall, hcomplete⟩)
    exact ((haccepted hcomplete).mp hfull).2
  · intro h
    refine ⟨?_, ?_⟩
    · intro hfull
      obtain ⟨hall, hcomplete⟩ := hrates.full.mp hfull
      exact (haccepted hcomplete).mpr ⟨hall, h hall hcomplete⟩
    · intro hincompatible other hother hotherAccepted
      exact hrates.incompatible.mp hincompatible (hrequired other hother hotherAccepted)

/-- A field with rules of its own is missing or invalid unless it is there and valid. -/
theorem not_missing_or_invalid {field : Text} {valid : Bool} :
    ¬ (field = [] ∨ valid = false) ↔ field ≠ [] ∧ valid = true := by
  rw [not_or, Bool.not_eq_false]

theorem ne_nil_of_isValidPositiveDecimal {s : Text} (h : isValidPositiveDecimal s = true) :
    s ≠ [] := by
  rintro rfl
  revert h
  decide

section Deposits

variable {transactionId status depositAddress : Text} {expiresAt : Option UInt64}

theorem rates_deposit :
    Rates (deposit transactionId status depositAddress expiresAt).compatibility
      (transactionId ≠ [] ∧ (status ≠ [] ∧ isValidSep6Status status = true) ∧ depositAddress ≠ [])
      (expiresAt ≠ none) := by
  have h : Rates (deposit transactionId status depositAddress expiresAt).compatibility
      (¬ transactionId = [] ∧ ¬ (status = [] ∨ isValidSep6Status status = false) ∧
        ¬ depositAddress = [] ∧ True) (¬ expiresAt = none) := .guard (.guard (.guard .optional))
  rwa [not_missing_or_invalid, and_true] at h

theorem accepted_deposit :
    (deposit transactionId status depositAddress expiresAt).Accepted now ↔
      (transactionId ≠ [] ∧ (status ≠ [] ∧ isValidSep6Status status = true) ∧
        depositAddress ≠ []) ∧ ∃ t, expiresAt = some t ∧ (t = 0 ∨ now < t) := by
  constructor
  · intro haccepted
    cases haccepted with
    | deposit h =>
      obtain ⟨response, h⟩ := h
      obtain ⟨hid, hstatus, haddress, hexpiry, _⟩ := validateDeposit_eq_ok.mp h
      refine ⟨⟨hid, hstatus, haddress⟩, _, rfl, ?_⟩
      rwa [not_and_or, not_not, UInt64.not_le] at hexpiry
  · rintro ⟨⟨hid, hstatus, haddress⟩, t, rfl, hexpiry⟩
    rw [← UInt64.not_le, ← not_not (a := t = 0), ← not_and_or] at hexpiry
    exact .deposit ⟨_, validateDeposit_eq_ok.mpr ⟨hid, hstatus, haddress, hexpiry, rfl⟩⟩

theorem neverOverrated_deposit :
    (deposit transactionId status depositAddress expiresAt).NeverOverrated now ↔
      (deposit transactionId status depositAddress expiresAt).Consistent now := by
  rw [neverOverrated_iff_of_rates rates_deposit ?_ fun _ => accepted_deposit]
  · constructor
    · rintro h hid hstatus haddress t rfl
      obtain ⟨t', ht, hexpiry⟩ := h ⟨hid, hstatus, haddress⟩ (Option.some_ne_none t)
      cases ht
      exact hexpiry
    · rintro h ⟨hid, hstatus, haddress⟩ hsome
      obtain ⟨t, rfl⟩ := Option.ne_none_iff_exists'.mp hsome
      exact ⟨t, rfl, h hid hstatus haddress t rfl⟩
  · rintro _ ⟨⟩ haccepted
    exact (accepted_deposit.mp haccepted).1

end Deposits

section Withdrawals

variable {transactionId status : Text} {completion : Option UInt64}

theorem rates_withdraw : Rates (withdraw transactionId status completion).compatibility
    (transactionId ≠ [] ∧ status ≠ [] ∧ isValidSep6Status status = true) (completion ≠ none) := by
  have h : Rates (withdraw transactionId status completion).compatibility
      (¬ transactionId = [] ∧ ¬ (status = [] ∨ isValidSep6Status status = false) ∧ True)
      (¬ completion = none) := .guard (.guard .optional)
  rwa [not_missing_or_invalid, and_true] at h

theorem accepted_withdraw : (withdraw transactionId status completion).Accepted now ↔
    (transactionId ≠ [] ∧ status ≠ [] ∧ isValidSep6Status status = true) ∧ completion ≠ none := by
  constructor
  · intro haccepted
    cases haccepted with
    | withdraw h =>
      obtain ⟨response, h⟩ := h
      obtain ⟨hid, hstatus, _⟩ := validateWithdraw_eq_ok.mp h
      exact ⟨⟨hid, hstatus⟩, Option.some_ne_none _⟩
  · rintro ⟨⟨hid, hstatus⟩, hsome⟩
    obtain ⟨t, rfl⟩ := Option.ne_none_iff_exists'.mp hsome
    exact .withdraw ⟨_, validateWithdraw_eq_ok.mpr ⟨hid, hstatus, rfl⟩⟩

theorem neverOverrated_withdraw :
    (withdraw transactionId status completion).NeverOverrated now := by
  rw [neverOverrated_iff_of_rates rates_withdraw ?_ fun _ => accepted_withdraw]
  · exact fun _ hsome => hsome
  · rintro _ ⟨⟩ haccepted
    exact (accepted_withdraw.mp haccepted).1

end Withdrawals

section Quotes

variable {id price sellAmount buyAmount : Text} {expiresAt fee : Option Text}

theorem isMissing_eq_false {field : Option Text} :
    isMissing field = false ↔ ∃ text, field = some text ∧ text ≠ [] := by
  cases field with
  | none => simp [isMissing]
  | some text => simp [isMissing]

theorem rates_listed {missing missing' : Bool} {field field' : Text} :
    Rates (let absent := (if missing then [field] else []) ++ if missing' then [field'] else []
        if absent = [] then fullyCompatible else partiallyCompatible absent)
      True (missing = false ∧ missing' = false) := by
  cases missing <;> cases missing' <;> constructor <;>
    simp [CompatibilityReport.fullyCompatible, CompatibilityReport.partiallyCompatible]

theorem rates_sep38Quote :
    Rates (sep38Quote id price sellAmount buyAmount expiresAt fee).compatibility
      (id ≠ [] ∧ (price ≠ [] ∧ isValidPositiveDecimal price = true) ∧
        (sellAmount ≠ [] ∧ isValidPositiveDecimal sellAmount = true) ∧
        buyAmount ≠ [] ∧ isValidPositiveDecimal buyAmount = true)
      (isMissing expiresAt = false ∧ isMissing fee = false) := by
  have h : Rates (sep38Quote id price sellAmount buyAmount expiresAt fee).compatibility
      (¬ id = [] ∧ ¬ (price = [] ∨ isValidPositiveDecimal price = false) ∧
        ¬ (sellAmount = [] ∨ isValidPositiveDecimal sellAmount = false) ∧
        ¬ (buyAmount = [] ∨ isValidPositiveDecimal buyAmount = false) ∧ True)
      (isMissing expiresAt = false ∧ isMissing fee = false) :=
    .guard (.guard (.guard (.guard rates_listed)))
  rwa [not_missing_or_invalid, not_missing_or_invalid, not_missing_or_invalid, and_true] at h

theorem accepted_sep38Quote :
    (sep38Quote id price sellAmount buyAmount expiresAt fee).Accepted now ↔
      (id ≠ [] ∧ (price ≠ [] ∧ isValidPositiveDecimal price = true) ∧
        (sellAmount ≠ [] ∧ isValidPositiveDecimal sellAmount = true) ∧
        buyAmount ≠ [] ∧ isValidPositiveDecimal buyAmount = true) ∧
      ∃ t f, expiresAt = some t ∧ t ≠ [] ∧ fee = some f ∧ f ≠ [] ∧
        isValidPositiveDecimal f = true := by
  constructor
  · intro haccepted
    cases haccepted with
    | sep38Quote h =>
      obtain ⟨response, h⟩ := h
      obtain ⟨hid, ht, hprice, hsell, hbuy, hf, hprice', hsell', hbuy', hf', _⟩ :=
        validateSep38Quote_eq_ok.mp h
      exact ⟨⟨hid, ⟨hprice, hprice'⟩, ⟨hsell, hsell'⟩, hbuy, hbuy'⟩, _, _, rfl, ht, rfl, hf, hf'⟩
  · rintro ⟨⟨hid, ⟨hprice, hprice'⟩, ⟨hsell, hsell'⟩, hbuy, hbuy'⟩, t, f, rfl, ht, rfl, hf, hf'⟩
    exact .sep38Quote ⟨_, validateSep38Quote_eq_ok.mpr
      ⟨hid, ht, hprice, hsell, hbuy, hf, hprice', hsell', hbuy', hf', rfl⟩⟩

theorem neverOverrated_sep38Quote :
    (sep38Quote id price sellAmount buyAmount expiresAt fee).NeverOverrated now ↔
      (sep38Quote id price sellAmount buyAmount expiresAt fee).Consistent now := by
  rw [neverOverrated_iff_of_rates rates_sep38Quote ?_ fun _ => accepted_sep38Quote,
    isMissing_eq_false, isMissing_eq_false]
  · constructor
    · rintro h hid hprice hsell hbuy t f rfl ht rfl hf
      obtain ⟨_, _, _, _, hf', _, hvalid⟩ := h
        ⟨hid, ⟨ne_nil_of_isValidPositiveDecimal hprice, hprice⟩,
          ⟨ne_nil_of_isValidPositiveDecimal hsell, hsell⟩,
          ne_nil_of_isValidPositiveDecimal hbuy, hbuy⟩
        ⟨⟨t, rfl, ht⟩, f, rfl, hf⟩
      cases hf'
      exact hvalid
    · rintro h ⟨hid, ⟨_, hprice⟩, ⟨_, hsell⟩, _, hbuy⟩ ⟨⟨t, rfl, ht⟩, f, rfl, hf⟩
      exact ⟨t, f, rfl, ht, rfl, hf, h hid hprice hsell hbuy t f rfl ht rfl hf⟩
  · rintro _ ⟨⟩ haccepted
    exact (accepted_sep38Quote.mp haccepted).1

end Quotes

section AnchorInfos

variable {name : Text} {supportedAssets : List Text}

theorem rates_anchorInfo : Rates (anchorInfo name supportedAssets).compatibility
    (name ≠ [] ∧ supportedAssets ≠ []) True := by
  have h : Rates (anchorInfo name supportedAssets).compatibility
      (¬ name = [] ∧ ¬ supportedAssets = [] ∧ True) True := .guard (.guard .always)
  rwa [and_true] at h

theorem accepted_anchorInfo : (anchorInfo name supportedAssets).Accepted now ↔
    (name ≠ [] ∧ supportedAssets ≠ []) ∧ Text.byteLen name ≤ 100 ∧
      ∀ asset ∈ supportedAssets, NamesAsset asset := by
  constructor
  · intro haccepted
    cases haccepted with
    | anchorInfo h =>
      obtain ⟨response, h⟩ := h
      obtain ⟨hname, hlength, hne, hassets, _⟩ := validateAnchorInfo_eq_ok.mp h
      exact ⟨⟨hname, hne⟩, hlength, fun asset hasset =>
        validateStellarAsset_eq_ok.mp (hassets asset hasset)⟩
  · rintro ⟨⟨hname, hne⟩, hlength, hassets⟩
    exact .anchorInfo ⟨_, validateAnchorInfo_eq_ok.mpr ⟨hname, hlength, hne, fun asset hasset =>
      validateStellarAsset_eq_ok.mpr (hassets asset hasset), rfl⟩⟩

theorem neverOverrated_anchorInfo : (anchorInfo name supportedAssets).NeverOverrated now ↔
    (anchorInfo name supportedAssets).Consistent now := by
  rw [neverOverrated_iff_of_rates rates_anchorInfo ?_ fun _ => accepted_anchorInfo]
  · exact ⟨fun h hname hne => h ⟨hname, hne⟩ trivial, fun h hrequired _ =>
      h hrequired.1 hrequired.2⟩
  · rintro _ ⟨⟩ haccepted
    exact (accepted_anchorInfo.mp haccepted).1

end AnchorInfos

section TransactionStatuses

variable {transactionId status kind : Text}

theorem rates_transactionStatus :
    Rates (transactionStatus transactionId status kind).compatibility
      (transactionId ≠ [] ∧ (status ≠ [] ∧ isValidSep6Status status = true) ∧ kind ≠ []) True := by
  have h : Rates (transactionStatus transactionId status kind).compatibility
      (¬ transactionId = [] ∧ ¬ (status = [] ∨ isValidSep6Status status = false) ∧
        ¬ kind = [] ∧ True) True := .guard (.guard (.guard .always))
  rwa [not_missing_or_invalid, and_true] at h

theorem accepted_transactionStatus : (transactionStatus transactionId status kind).Accepted now ↔
    (transactionId ≠ [] ∧ (status ≠ [] ∧ isValidSep6Status status = true) ∧ kind ≠ []) ∧
      True := by
  rw [and_true]
  constructor
  · intro haccepted
    cases haccepted with
    | transactionStatus h =>
      obtain ⟨response, h⟩ := h
      obtain ⟨hid, hstatus, hkind, _⟩ := validateTransactionStatus_eq_ok.mp h
      exact ⟨hid, hstatus, hkind⟩
  · rintro ⟨hid, hstatus, hkind⟩
    exact .transactionStatus ⟨_, validateTransactionStatus_eq_ok.mpr ⟨hid, hstatus, hkind, rfl⟩⟩

theorem neverOverrated_transactionStatus :
    (transactionStatus transactionId status kind).NeverOverrated now := by
  rw [neverOverrated_iff_of_rates rates_transactionStatus ?_ fun _ => accepted_transactionStatus]
  · exact fun _ _ => trivial
  · rintro _ ⟨⟩ haccepted
    exact (accepted_transactionStatus.mp haccepted).1

end TransactionStatuses

end Ratings

/-- A rating is right exactly when the rules that only the validator has are kept. -/
theorem neverOverrated_iff_consistent (now : UInt64) (raw : RawResponse) :
    raw.NeverOverrated now ↔ raw.Consistent now := by
  cases raw with
  | deposit => exact neverOverrated_deposit
  | withdraw => exact iff_of_true neverOverrated_withdraw trivial
  | sep38Quote => exact neverOverrated_sep38Quote
  | anchorInfo => exact neverOverrated_anchorInfo
  | transactionStatus => exact iff_of_true neverOverrated_transactionStatus trivial

/-- A quote whose fee is no number is rated as fully compatible and refused. -/
theorem fee_without_number_overrated :
    let raw := sep38Quote "q1".toList "1.5".toList "100".toList "150".toList
      (some "2024-01-01T00:00:00Z".toList) (some "abc".toList)
    raw.compatibility = .fullyCompatible ∧
      validateSep38QuoteWithVersion "q1".toList "2024-01-01T00:00:00Z".toList "1.5".toList
          "100".toList "150".toList "abc".toList .latest =
        .error (.validationError "fee must be a positive number") ∧
      ∀ now, ¬ raw.NeverOverrated now := by
  intro raw
  have hrated : raw.compatibility = .fullyCompatible := by decide +kernel
  have hrefused : validateSep38QuoteWithVersion "q1".toList "2024-01-01T00:00:00Z".toList
      "1.5".toList "100".toList "150".toList "abc".toList .latest =
        .error (.validationError "fee must be a positive number") := by decide +kernel
  refine ⟨hrated, hrefused, ?_⟩
  intro now h
  have haccepted := h.full (congrArg CompatibilityReport.level hrated)
  obtain ⟨_, _, _, _, _, ⟨⟩, _, hvalid⟩ := accepted_sep38Quote.mp haccepted
  exact absurd hvalid (by decide)

end RawResponse

end ResponseValidator

end AnchorKit
