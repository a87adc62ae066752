import AnchorKit.StellarAccounts
import AnchorKit.TransactionPolling

/-!
# Validated responses

The fields of an anchor's response are checked one by one before they become a response of the
current schema. The versions of the schema that exist have the same rules.
-/

namespace AnchorKit

open Fallible

/-! ### Statuses -/

namespace Sep6

def normalizeStatusToken (s : Text) : Text := Text.asciiLower (Text.trimMatches isWhitespace s)

def statusNames : List (Text × TransactionStatus) :=
  [("pending_external".toList, .pendingExternal), ("pending_anchor".toList, .pendingAnchor),
    ("pending_trust".toList, .pendingTrust), ("pending_user".toList, .pendingUser),
    ("pending_user_transfer_start".toList, .pendingUser),
    ("pending_user_transfer_complete".toList, .pendingUser), ("completed".toList, .completed),
    ("refunded".toList, .refunded), ("expired".toList, .expired),
    ("incomplete".toList, .incomplete), ("pending".toList, .pending),
    ("no_market".toList, .noMarket), ("too_small".toList, .tooSmall),
    ("too_large".toList, .tooLarge), ("pending_stellar".toList, .pendingStellar),
    ("waiting_customer_action".toList, .waitingCustomerAction),
    ("pending_customer_info_update".toList, .waitingCustomerAction)]

def TransactionStatus.fromStr (s : Text) : TransactionStatus :=
  (statusNames.lookup (normalizeStatusToken s)).getD .error

end Sep6

namespace ResponseValidator

inductive Sep6StatusClass
  | completed
  | failed
  | pending
  | unknown
deriving DecidableEq, Repr

def sep6StatusClass (status : Text) : Sep6StatusClass :=
  match Sep6.TransactionStatus.fromStr status with
  -- An unrecognised status is parsed as the error status, too.
  | .error =>
    if Text.asciiLower (Text.trimMatches isWhitespace status) = "error".toList then .failed
    else .unknown
  | .completed => .completed
  | .refunded | .expired | .noMarket | .tooSmall | .tooLarge => .failed
  | .pending | .incomplete | .pendingExternal | .pendingAnchor | .pendingTrust | .pendingUser
  | .pendingStellar | .waitingCustomerAction => .pending

def isValidSep6Status (status : Text) : Bool := sep6StatusClass status ≠ .unknown

def isValidQuoteStatus (status : Text) : Bool :=
  ["quoted".toList, "pending".toList, "expired".toList, "error".toList].contains status

/-! ### Positive decimals -/

/-- A sign and what follows it; `true` is the minus sign. -/
def splitSign : Text → Bool × Text
  | '-' :: rest => (true, rest)
  | '+' :: rest => (false, rest)
  | rest => (false, rest)

def parseExponent (s : Text) : Option ℤ :=
  let (negative, digits) := splitSign s
  if digits ≠ [] ∧ digits.all Char.isDigit = true then
    some (if negative then -(Text.decimalValue digits : ℤ) else Text.decimalValue digits)
  else none

/-- A decimal number without sign and exponent, as a multiple of a power of ten. -/
def parseMantissa (s : Text) : Option (ℕ × ℤ) :=
  let (whole, fraction) := (Text.cutAt ['.'] s).getD (s, [])
  if whole ++ fraction ≠ [] ∧ (whole ++ fraction).all Char.isDigit = true then
    some (Text.decimalValue (whole ++ fraction), -(fraction.length : ℤ))
  else none

/-- A decimal number without sign. -/
def parseNumber (s : Text) : Option (ℕ × ℤ) :=
  match Text.cutAt ['e'] (Text.asciiLower s) with
  | none => parseMantissa s
  | some (mantissa, exponent) => do
    let (n, e) ← parseMantissa mantissa
    let e' ← parseExponent exponent
    return (n, e + e')

/-- `n * 10 ^ e` is above half of the least positive binary64 number, so that it is not rounded to
zero. -/
def roundsAboveZero (n : ℕ) (e : ℤ) : Bool :=
  if 0 ≤ e then decide (0 < n) else decide (10 ^ e.natAbs < n * 2 ^ 1075)

/-- Whether the text is a binary64 number above zero. -/
def isValidPositiveDecimal (s : Text) : Bool :=
  let (negative, number) := splitSign s
  let positive :=
    if ["inf".toList, "infinity".toList].contains (Text.asciiLower number) then true
    else
      match parseNumber number with
      | some (n, e) => roundsAboveZero n e
      | none => false
  positive && !negative

example : isValidPositiveDecimal "1.5e-3".toList = true ∧
    isValidPositiveDecimal "1e-400".toList = false := by decide +kernel

/-! ### Assets -/

/-- An error is told without that of the issuer. -/
def validateStellarAsset (asset : Text) : Except AnchorKitError Unit :=
  if asset = "native".toList then .ok ()
  else
    match Text.cutAt [':'] asset with
    | none => .error (.validationError "asset must be 'native' or 'CODE:ISSUER'")
    | some (code, issuer) => do
      require (code ≠ [] ∧ Text.byteLen code ≤ 12 ∧ code.all Char.isAlphanum = true)
        (.validationError "asset code must be 1-12 alphanumeric characters")
      match validateStellarAccountId issuer with
      | .ok () => return ()
      | .error _ =>
        .error (.validationError "asset issuer must be a valid Stellar account address")

/-! ### Responses -/

structure SchemaVersion where
  version : UInt32
deriving DecidableEq, Repr

def SchemaVersion.v1 : SchemaVersion := ⟨1⟩

def SchemaVersion.latest : SchemaVersion := .v1

structure DepositResponse where
  transactionId : Text
  status : Text
  depositAddress : Text
  expiresAt : UInt64
  schemaVersion : SchemaVersion
deriving DecidableEq

structure WithdrawResponse where
  transactionId : Text
  status : Text
  estimatedCompletion : UInt64
  schemaVersion : SchemaVersion
deriving DecidableEq

structure QuoteResponse where
  id : Text
  status : Text
  amount : UInt64
  asset : Text
  fee : UInt64
  schemaVersion : SchemaVersion
deriving DecidableEq

structure Sep38QuoteResponse where
  id : Text
  expiresAt : Text
  price : Text
  sellAmount : Text
  buyAmount : Text
  fee : Text
  schemaVersion : SchemaVersion
deriving DecidableEq

structure AnchorInfoResponse where
  name : Text
  supportedAssets : List Text
  schemaVersion : SchemaVersion
deriving DecidableEq

structure TransactionStatusResponseValidated where
  transactionId : Text
  status : Text
  kind : Text
  schemaVersion : SchemaVersion
deriving DecidableEq

def requireField (field : Text) (error : String) : Except AnchorKitError Unit :=
  require (field ≠ []) (.validationError error)

def requireSep6Status (status : Text) : Except AnchorKitError Unit := do
  requireField status "status is empty"
  require (isValidSep6Status status = true)
    (.validationError "status is not a recognised SEP-6 value")

def requirePositive (field : Text) (error : String) : Except AnchorKitError Unit :=
  require (isValidPositiveDecimal field = true) (.validationError error)

def validateDepositV1 (transactionId status depositAddress : Text) (expiresAt nowUnix : UInt64) :
    Except AnchorKitError DepositResponse := do
  requireField transactionId "transaction_id is empty"
  requireSep6Status status
  requireField depositAddress "deposit_address is empty"
  require (¬ (expiresAt ≠ 0 ∧ expiresAt ≤ nowUnix)) (.validationError "expires_at is in the past")
  return ⟨transactionId, status, depositAddress, expiresAt, .v1⟩

def validateDepositWithVersion (transactionId status depositAddress : Text)
    (expiresAt nowUnix : UInt64) (_version : SchemaVersion) :
    Except AnchorKitError DepositResponse :=
  validateDepositV1 transactionId status depositAddress expiresAt nowUnix

def validateWithdrawV1 (transactionId status : Text) (estimatedCompletion : UInt64) :
    Except AnchorKitError WithdrawResponse := do
  requireField transactionId "transaction_id is empty"
  requireSep6Status status
  return ⟨transactionId, status, estimatedCompletion, .v1⟩

def validateWithdrawWithVersion (transactionId status : Text) (estimatedCompletion : UInt64)
    (_version : SchemaVersion) : Except AnchorKitError WithdrawResponse :=
  validateWithdrawV1 transactionId status estimatedCompletion

def validateQuoteV1 (id status : Text) (amount : UInt64) (asset : Text) (fee : UInt64) :
    Except AnchorKitError QuoteResponse := do
  requireField id "id is empty"
  requireField status "status is empty"
  require (isValidQuoteStatus status = true)
    (.validationError "status is not a recognised quote status")
  require (amount ≠ 0) (.validationError "amount must be greater than zero")
  require (fee ≤ amount) (.validationError "fee exceeds amount")
  requireField asset "asset is empty"
  validateStellarAsset asset
  return ⟨id, status, amount, asset, fee, .v1⟩

def validateQuoteWithVersion (id status : Text) (amount : UInt64) (asset : Text) (fee : UInt64)
    (_version : SchemaVersion) : Except AnchorKitError QuoteResponse :=
  validateQuoteV1 id status amount asset fee

def validateSep38QuoteV1 (id expiresAt price sellAmount buyAmount fee : Text) :
    Except AnchorKitError Sep38QuoteResponse := do
  requireField id "id is empty"
  requireField expiresAt "expires_at is empty"
  requireField price "price is empty"
  requireField sellAmount "sell_amount is empty"
  requireField buyAmount "buy_amount is empty"
  requireField fee "fee is empty"
  requirePositive price "price must be a positive number"
  requirePositive sellAmount "sell_amount must be a positive number"
  requirePositive buyAmount "buy_amount must be a positive number"
  requirePositive fee "fee must be a positive number"
  return ⟨id, expiresAt, price, sellAmount, buyAmount, fee, .v1⟩

def validateSep38QuoteWithVersion (id expiresAt price sellAmount buyAmount fee : Text)
    (_version : SchemaVersion) : Except AnchorKitError Sep38QuoteResponse :=
  validateSep38QuoteV1 id expiresAt price sellAmount buyAmount fee

def validateAnchorInfoV1 (name : Text) (supportedAssets : List Text) :
    Except AnchorKitError AnchorInfoResponse := do
  requireField name "name is empty"
  require (Text.byteLen name ≤ 100) (.validationError "name must be 100 characters or fewer")
  require (supportedAssets ≠ []) (.validationError "supported_assets is empty")
  supportedAssets.forM validateStellarAsset
  return ⟨name, supportedAssets, .v1⟩

def validateAnchorInfoWithVersion (name : Text) (supportedAssets : List Text)
    (_version : SchemaVersion) : Except AnchorKitError AnchorInfoResponse :=
  validateAnchorInfoV1 name supportedAssets

def validateTransactionStatusV1 (transactionId status kind : Text) :
    Except AnchorKitError TransactionStatusResponseValidated := do
  requireField transactionId "transaction_id is empty"
  requireSep6Status status
  requireField kind "kind is empty"
  return ⟨transactionId, status, kind, .v1⟩

def validateTransactionStatusWithVersion (transactionId status kind : Text)
    (_version : SchemaVersion) : Except AnchorKitError TransactionStatusResponseValidated :=
  validateTransactionStatusV1 transactionId status kind

/-! ### What is accepted -/

/-- Alphanumeric, and not too long. -/
structure IsAssetCode (code : Text) : Prop where
  nonempty : code ≠ []
  length_le : code.length ≤ 12
  chars : ∀ c ∈ code, c.isAlphanum = true

section Accepted

variable {transactionId status depositAddress id asset name kind price sellAmount buyAmount fee
    expiry : Text} {assets : List Text} {amount feeUnits expiresAt completion now : UInt64}
  {version : SchemaVersion}

theorem requireField_eq_ok {field : Text} {error : String} :
    requireField field error = .ok () ↔ field ≠ [] := require_eq_ok

theorem requirePositive_eq_ok {field : Text} {error : String} :
    requirePositive field error = .ok () ↔ isValidPositiveDecimal field = true := require_eq_ok

theorem unit_bind_eq_ok {α : Type} {x : Except AnchorKitError Unit}
    {f : Unit → Except AnchorKitError α} {a : α} :
    (x >>= f) = .ok a ↔ x = .ok () ∧ f () = .ok a := by
  rw [bind_eq_ok]
  constructor
  · rintro ⟨_, hx, hf⟩
    exact ⟨hx, hf⟩
  · rintro ⟨hx, hf⟩
    exact ⟨(), hx, hf⟩

theorem requireSep6Status_eq_ok :
    requireSep6Status status = .ok () ↔ status ≠ [] ∧ isValidSep6Status status = true := by
  rw [requireSep6Status, unit_bind_eq_ok, requireField_eq_ok, require_eq_ok]

theorem validateStellarAccountId_eq_ok {accountId : Text} :
    validateStellarAccountId accountId = .ok () ↔ ∃ key, Encodes accountId key := by
  simp only [validateStellarAccountId, bind_eq_ok, pure_eq_ok, normalizeStellarAccountId_eq_ok]
  constructor
  · rintro ⟨_, ⟨key, hkey, _⟩, _⟩
    exact ⟨key, hkey⟩
  · rintro ⟨key, hkey⟩
    exact ⟨_, ⟨key, hkey, rfl⟩, trivial⟩

theorem colon_not_mem_code {code : Text} (h : IsAssetCode code) : ':' ∉ code := by
  intro hmem
  have hcolon := h.chars ':' hmem
  revert hcolon
  decide

theorem isAssetCode_iff {code : Text} :
    code ≠ [] ∧ Text.byteLen code ≤ 12 ∧ code.all Char.isAlphanum = true ↔ IsAssetCode code := by
  have hlength (h : code.all Char.isAlphanum = true) : Text.byteLen code = code.length :=
    Text.byteLen_of_isAscii fun c hc => Text.isAscii_of_isAlphanum (List.all_eq_true.mp h c hc)
  constructor
  · rintro ⟨hne, hshort, hchars⟩
    exact ⟨hne, hlength hchars ▸ hshort, List.all_eq_true.mp hchars⟩
  · intro h
    have hchars : code.all Char.isAlphanum = true := List.all_eq_true.mpr h.chars
    exact ⟨h.nonempty, (hlength hchars).symm ▸ h.length_le, hchars⟩

/-- The issuer may be written in any way that the account validator takes. -/
theorem validateStellarAsset_eq_ok : validateStellarAsset asset = .ok () ↔
    asset = "native".toList ∨ ∃ code issuer key, asset = code ++ ':' :: issuer ∧
      IsAssetCode code ∧ Encodes issuer key := by
  unfold validateStellarAsset
  by_cases hnative : asset = "native".toList
  · rw [if_pos hnative]
    exact iff_of_true rfl (Or.inl hnative)
  · rw [if_neg hnative, or_iff_right hnative]
    constructor
    · intro h
      split at h
      · cases h
      · rename_i code issuer hcut
        rw [require_bind_eq_ok, isAssetCode_iff] at h
        obtain ⟨hcode, hissuer⟩ := h
        split at hissuer
        · rename_i haccount
          obtain ⟨key, hkey⟩ := validateStellarAccountId_eq_ok.mp haccount
          exact ⟨code, issuer, key, Text.eq_of_cutAt hcut, hcode, hkey⟩
        · cases hissuer
    · rintro ⟨code, issuer, key, rfl, hcode, hkey⟩
      rw [Text.cutAt_singleton (colon_not_mem_code hcode)]
      dsimp only
      rw [require_bind_eq_ok, isAssetCode_iff, validateStellarAccountId_eq_ok.mpr ⟨key, hkey⟩]
      exact ⟨hcode, rfl⟩

theorem validateDeposit_eq_ok {response : DepositResponse} :
    validateDepositWithVersion transactionId status depositAddress expiresAt now version =
        .ok response ↔
      transactionId ≠ [] ∧ (status ≠ [] ∧ isValidSep6Status status = true) ∧
        depositAddress ≠ [] ∧ ¬ (expiresAt ≠ 0 ∧ expiresAt ≤ now) ∧
        ⟨transactionId, status, depositAddress, expiresAt, .v1⟩ = response := by
  rw [validateDepositWithVersion, validateDepositV1]
  simp only [unit_bind_eq_ok, requireField_eq_ok, requireSep6Status_eq_ok, require_eq_ok,
    pure_eq_ok]

theorem validateWithdraw_eq_ok {response : WithdrawResponse} :
    validateWithdrawWithVersion transactionId status completion version = .ok response ↔
      transactionId ≠ [] ∧ (status ≠ [] ∧ isValidSep6Status status = true) ∧
        ⟨transactionId, status, completion, .v1⟩ = response := by
  rw [validateWithdrawWithVersion, validateWithdrawV1]
  simp only [unit_bind_eq_ok, requireField_eq_ok, requireSep6Status_eq_ok, pure_eq_ok]

theorem validateQuote_eq_ok {response : QuoteResponse} :
    validateQuoteWithVersion id status amount asset feeUnits version = .ok response ↔
      id ≠ [] ∧ status ≠ [] ∧ isValidQuoteStatus status = true ∧ amount ≠ 0 ∧ feeUnits ≤ amount ∧
        asset ≠ [] ∧ validateStellarAsset asset = .ok () ∧
        ⟨id, status, amount, asset, feeUnits, .v1⟩ = response := by
  rw [validateQuoteWithVersion, validateQuoteV1]
  simp only [unit_bind_eq_ok, requireField_eq_ok, require_eq_ok, pure_eq_ok]

theorem validateSep38Quote_eq_ok {response : Sep38QuoteResponse} :
    validateSep38QuoteWithVersion id expiry price sellAmount buyAmount fee version =
        .ok response ↔
      id ≠ [] ∧ expiry ≠ [] ∧ price ≠ [] ∧ sellAmount ≠ [] ∧ buyAmount ≠ [] ∧ fee ≠ [] ∧
        isValidPositiveDecimal price = true ∧ isValidPositiveDecimal sellAmount = true ∧
        isValidPositiveDecimal buyAmount = true ∧ isValidPositiveDecimal fee = true ∧
        ⟨id, expiry, price, sellAmount, buyAmount, fee, .v1⟩ = response := by
  rw [validateSep38QuoteWithVersion, validateSep38QuoteV1]
  simp only [unit_bind_eq_ok, requireField_eq_ok, requirePositive_eq_ok, pure_eq_ok]

theorem validateAnchorInfo_eq_ok {response : AnchorInfoResponse} :
    validateAnchorInfoWithVersion name assets version = .ok response ↔
      name ≠ [] ∧ Text.byteLen name ≤ 100 ∧ assets ≠ [] ∧
        (∀ asset ∈ assets, validateStellarAsset asset = .ok ()) ∧
        ⟨name, assets, .v1⟩ = response := by
  rw [validateAnchorInfoWithVersion, validateAnchorInfoV1]
  simp only [unit_bind_eq_ok, requireField_eq_ok, require_eq_ok, forM_eq_ok, pure_eq_ok]

theorem validateTransactionStatus_eq_ok {response : TransactionStatusResponseValidated} :
    validateTransactionStatusWithVersion transactionId status kind version = .ok response ↔
      transactionId ≠ [] ∧ (status ≠ [] ∧ isValidSep6Status status = true) ∧ kind ≠ [] ∧
        ⟨transactionId, status, kind, .v1⟩ = response := by
  rw [validateTransactionStatusWithVersion, validateTransactionStatusV1]
  simp only [unit_bind_eq_ok, requireField_eq_ok, requireSep6Status_eq_ok, pure_eq_ok]

end Accepted

end ResponseValidator

end AnchorKit
