import AnchorKit.FirmQuotes
import AnchorKit.Library.KeyedList
import AnchorKit.Library.Machine
import AnchorKit.Library.Text
import AnchorKit.MultiAssetRouting
import AnchorKit.ResponseValidator
import AnchorKit.Types

/-!
# SEP-6 responses

What anchors answer to deposits and withdrawals is checked and brought into one form.
-/

namespace AnchorKit

namespace Sep6

open Fallible

/-!
## Amounts

An anchor gives an amount as a string. It is a whole number without a sign, perhaps followed by a
dot and zeros.
-/

/-- The string up to its first dot, and what follows the dot. -/
def splitFraction (s : Text) : Text × Option Text :=
  match Text.cutAt ['.'] s with
  | some (i, f) => (i, some f)
  | none => (s, none)

def parseSep6Amount (raw : Text) : Except AnchorKitError UInt64 := do
  let s := Text.trimMatches isWhitespace raw
  require (s.head?.any Char.isDigit = true) .invalidTransactionIntent
  let (intPart, fracPart) := splitFraction s
  require (intPart.all Char.isDigit = true) .invalidTransactionIntent
  require (∀ frac ∈ fracPart, ¬ (frac = [] ∨ frac.all Char.isDigit = false ∨
    (frac.any fun b => b ≠ '0') = true)) .invalidTransactionIntent
  expect (Text.parseU64 intPart) .invalidTransactionIntent

def Digits (t : Text) : Prop := t ≠ [] ∧ ∀ c ∈ t, c.isDigit = true

def Zeros (t : Text) : Prop := t ≠ [] ∧ ∀ c ∈ t, c = '0'

/-- The number alone, or with a fraction that is zero. -/
inductive WritesAmount (whole : Text) : Text → Prop
  | plain : WritesAmount whole whole
  | fraction (zeros : Text) (h : Zeros zeros) : WritesAmount whole (whole ++ '.' :: zeros)

section Parsing

variable {s whole frac : Text} {c : Char}

theorem Digits.not_mem_dot (h : Digits whole) : '.' ∉ whole := by
  intro hdot
  exact absurd (h.2 '.' hdot) (by decide)

theorem Digits.head (h : Digits whole) (rest : Text) :
    (whole ++ rest).head?.any Char.isDigit = true := by
  obtain ⟨c, t, rfl⟩ := List.exists_cons_of_ne_nil h.1
  exact h.2 c List.mem_cons_self

theorem zeros_iff : Zeros frac ↔
    ¬ (frac = [] ∨ frac.all Char.isDigit = false ∨ (frac.any fun b => b ≠ '0') = true) := by
  have hzero : (frac.any fun b => b ≠ '0') = true ↔ ¬ ∀ c ∈ frac, c = '0' := by
    simp
  rw [hzero, not_or, not_or, not_not, Bool.not_eq_false, List.all_eq_true]
  constructor
  · intro ⟨hne, hzeros⟩
    refine ⟨hne, fun c hc => ?_, hzeros⟩
    rw [hzeros c hc]
    decide
  · intro ⟨hne, _, hzeros⟩
    exact ⟨hne, hzeros⟩

/-- The checks before the number is read let exactly the amounts through. -/
theorem splitFraction_writesAmount : WritesAmount whole s ∧ Digits whole ↔
    s.head?.any Char.isDigit = true ∧ (splitFraction s).1 = whole ∧
      whole.all Char.isDigit = true ∧ ∀ frac ∈ (splitFraction s).2, Zeros frac := by
  rw [List.all_eq_true]
  constructor
  · rintro ⟨hwrites, hdigits⟩
    rcases hwrites with _ | ⟨zeros, h⟩
    · have hsplit : splitFraction s = (s, none) := by
        rw [splitFraction, Text.cutAt_eq_none hdigits.not_mem_dot]
      rw [hsplit]
      have hhead := hdigits.head []
      rw [List.append_nil] at hhead
      exact ⟨hhead, rfl, hdigits.2, by simp⟩
    · have hsplit : splitFraction (whole ++ '.' :: zeros) = (whole, some zeros) := by
        rw [splitFraction, Text.cutAt_singleton hdigits.not_mem_dot]
      rw [hsplit]
      exact ⟨hdigits.head _, rfl, hdigits.2, by simpa using h⟩
  · rintro ⟨hhead, hwhole, hdigits, hzeros⟩
    unfold splitFraction at hwhole hzeros
    cases hcut : Text.cutAt ['.'] s with
    | none =>
      rw [hcut] at hwhole
      obtain rfl : s = whole := hwhole
      refine ⟨.plain, ?_, hdigits⟩
      rintro rfl
      cases hhead
    | some parts =>
      obtain ⟨i, f⟩ := parts
      rw [hcut] at hwhole hzeros
      obtain rfl : i = whole := hwhole
      have hs : s = i ++ '.' :: f := Text.eq_of_cutAt hcut
      subst hs
      refine ⟨.fraction f (hzeros f rfl), ?_, hdigits⟩
      rintro rfl
      exact absurd hhead Bool.false_ne_true

/-- The amounts are the whole numbers below `2 ^ 64`, with or without a fraction of zeros. -/
theorem parseSep6Amount_eq_ok (raw : Text) (v : UInt64) : parseSep6Amount raw = .ok v ↔
    ∃ whole, Digits whole ∧ WritesAmount whole (Text.trimMatches isWhitespace raw) ∧
      Text.decimalValue whole < 2 ^ 64 ∧ v.toNat = Text.decimalValue whole := by
  have hv := v.toNat_lt
  simp only [parseSep6Amount, require_bind_eq_ok, expect_eq_ok, ← zeros_iff]
  constructor
  · intro h
    obtain ⟨hhead, hdigits, hzeros, hparse⟩ := h
    obtain ⟨hwrites, hwhole⟩ := splitFraction_writesAmount.mpr ⟨hhead, rfl, hdigits, hzeros⟩
    have hvalue := (Text.parseU64_eq_some hwhole.1 hwhole.2).mp hparse
    exact ⟨_, hwhole, hwrites, hvalue ▸ hv, hvalue.symm⟩
  · rintro ⟨whole, hwhole, hwrites, _, hvalue⟩
    obtain ⟨hhead, rfl, hdigits, hzeros⟩ := splitFraction_writesAmount.mp ⟨hwrites, hwhole⟩
    exact ⟨hhead, hdigits, hzeros, (Text.parseU64_eq_some hwhole.1 hwhole.2).mpr hvalue.symm⟩

example : parseSep6Amount "  0010.00 ".toList = .ok 10 := by decide +kernel

end Parsing

/-!
## Statuses and responses

Every anchor may have names of its own for the statuses. A response is refused or kept as it is,
with its status and its asset in the standard spelling.
-/

open KeyedList (lookup rewrite lookup_append lookup_singleton lookup_rewrite lookup_eq_none
  map_key_rewrite eraseP_eq_filter lookup_filter_of_not)
open Sep38 (ValidAssetCode assetCode normalizeAssetCode)

/-! ### Statuses -/

def TransactionStatus.asStr : TransactionStatus → Text
  | .pending => "pending".toList
  | .incomplete => "incomplete".toList
  | .pendingExternal => "pending_external".toList
  | .pendingAnchor => "pending_anchor".toList
  | .pendingTrust => "pending_trust".toList
  | .pendingUser => "pending_user".toList
  | .completed => "completed".toList
  | .refunded => "refunded".toList
  | .expired => "expired".toList
  | .noMarket => "no_market".toList
  | .tooSmall => "too_small".toList
  | .tooLarge => "too_large".toList
  | .pendingStellar => "pending_stellar".toList
  | .waitingCustomerAction => "waiting_customer_action".toList
  | .error => "error".toList

inductive StatusCategory
  | active
  | completed
  | refunded
  | expired
  | failed
  | unknown
deriving DecidableEq, Repr

def TransactionStatus.classify : TransactionStatus → StatusCategory
  | .pending | .incomplete | .pendingExternal | .pendingAnchor | .pendingTrust | .pendingUser
  | .pendingStellar | .waitingCustomerAction => .active
  | .completed => .completed
  | .refunded => .refunded
  | .expired => .expired
  | .noMarket | .tooSmall | .tooLarge | .error => .failed

def categoryNames : List (Text × StatusCategory) :=
  [("pending_external".toList, .active), ("pending_anchor".toList, .active),
    ("pending_trust".toList, .active), ("pending_user".toList, .active),
    ("pending_user_transfer_start".toList, .active),
    ("pending_user_transfer_complete".toList, .active), ("pending_stellar".toList, .active),
    ("waiting_customer_action".toList, .active),
    ("pending_customer_info_update".toList, .active), ("incomplete".toList, .active),
    ("pending".toList, .active), ("completed".toList, .completed),
    ("refunded".toList, .refunded), ("expired".toList, .expired),
    ("no_market".toList, .failed), ("too_small".toList, .failed), ("too_large".toList, .failed),
    ("error".toList, .failed)]

def classifyStatusStr (s : Text) : StatusCategory :=
  (categoryNames.lookup (normalizeStatusToken s)).getD .unknown

/-! ### Vendor statuses -/

structure VendorStatusEntry where
  vendorStatus : Text
  canonical : TransactionStatus
deriving DecidableEq, Repr

structure VendorStatusMap where
  entries : List VendorStatusEntry

namespace VendorStatusMap

def register (map : VendorStatusMap) (vendorStatus : Text) (canonical : TransactionStatus) :
    VendorStatusMap × Bool :=
  let key := normalizeStatusToken vendorStatus
  if key = [] then (map, false)
  else
    match lookup VendorStatusEntry.vendorStatus key map.entries with
    | some entry =>
      (⟨rewrite VendorStatusEntry.vendorStatus key { entry with canonical } map.entries⟩, true)
    | none => (⟨map.entries ++ [⟨key, canonical⟩]⟩, true)

/-- The original string, trimmed, is kept beside what it means. -/
def resolve (map : VendorStatusMap) (raw : Text) : VendorStatusEntry :=
  match lookup VendorStatusEntry.vendorStatus (normalizeStatusToken raw) map.entries with
  | some entry => ⟨Text.trimMatches isWhitespace raw, entry.canonical⟩
  | none => ⟨Text.trimMatches isWhitespace raw, .fromStr raw⟩

def contains (map : VendorStatusMap) (vendorStatus : Text) : Bool :=
  map.entries.any fun e => e.vendorStatus = normalizeStatusToken vendorStatus

def remove (map : VendorStatusMap) (vendorStatus : Text) : VendorStatusMap × Bool :=
  let key := normalizeStatusToken vendorStatus
  if (map.entries.any fun e => e.vendorStatus = key) = true then
    (⟨map.entries.eraseP fun e => e.vendorStatus = key⟩, true)
  else (map, false)

inductive Call
  | register (vendorStatus : Text) (canonical : TransactionStatus)
  | remove (vendorStatus : Text)

def apply (map : VendorStatusMap) : Call → VendorStatusMap × Bool
  | .register vendorStatus canonical => map.register vendorStatus canonical
  | .remove vendorStatus => map.remove vendorStatus

def after (calls : List Call) : VendorStatusMap :=
  calls.foldl (fun map c => (map.apply c).1) ⟨[]⟩

/-! ### What the map holds -/

def sets (token : Text) : Call → Option (Option TransactionStatus)
  | .register vendorStatus canonical =>
    if normalizeStatusToken vendorStatus = token ∧ token ≠ [] then some (some canonical) else none
  | .remove vendorStatus => if normalizeStatusToken vendorStatus = token then some none else none

/-- What a token was registered as last, if it has not been removed since. -/
def meaning (calls : List Call) (token : Text) : Option TransactionStatus :=
  (Machine.lastSome (sets token) calls).join

def answer (calls : List Call) : Call → Bool
  | .register vendorStatus _ => decide (normalizeStatusToken vendorStatus ≠ [])
  | .remove vendorStatus => (meaning calls (normalizeStatusToken vendorStatus)).isSome

/-- The map means what the calls made it mean, whatever the spelling of a status, and one that was
not registered is read as the standard says. -/
structure FollowsCalls (calls : List Call) : Prop where
  resolved : ∀ raw, (after calls).resolve raw =
    ⟨Text.trimMatches isWhitespace raw,
      (meaning calls (normalizeStatusToken raw)).getD (.fromStr raw)⟩
  contained : ∀ raw, (after calls).contains raw =
    (meaning calls (normalizeStatusToken raw)).isSome
  answered : ∀ c, ((after calls).apply c).2 = answer calls c
  distinct : ((after calls).entries.map VendorStatusEntry.vendorStatus).Nodup

section Calls

variable {map : VendorStatusMap} {calls : List Call} {c : Call} {token : Text}

def canonicalOf (map : VendorStatusMap) (token : Text) : Option TransactionStatus :=
  (lookup VendorStatusEntry.vendorStatus token map.entries).map VendorStatusEntry.canonical

theorem any_vendorStatus : (map.entries.any fun e => e.vendorStatus = token) = true ↔
    (lookup VendorStatusEntry.vendorStatus token map.entries).isSome = true := by
  rw [lookup, List.find?_isSome, List.any_eq_true]

theorem canonicalOf_register (vendorStatus : Text) (canonical : TransactionStatus) :
    (map.register vendorStatus canonical).1.canonicalOf token =
      (sets token (.register vendorStatus canonical)).getD (map.canonicalOf token) := by
  unfold register sets
  dsimp only
  generalize normalizeStatusToken vendorStatus = key
  by_cases hblank : key = []
  · rw [if_pos hblank, if_neg (by rintro ⟨rfl, hne⟩; exact hne hblank)]
    rfl
  rw [if_neg hblank]
  cases hentry : lookup VendorStatusEntry.vendorStatus key map.entries with
  | some entry =>
    have hentryKey : entry.vendorStatus = key := KeyedList.key_of_lookup hentry
    have hkey : ({ entry with canonical } : VendorStatusEntry).vendorStatus = key := hentryKey
    dsimp only
    by_cases htoken : token = key
    · subst htoken
      rw [canonicalOf, lookup_rewrite hkey, if_pos rfl, hentry, if_pos ⟨rfl, hblank⟩]
      rfl
    · rw [canonicalOf, lookup_rewrite hkey, if_neg htoken, if_neg fun h => htoken h.1.symm]
      rfl
  | none =>
    dsimp only
    by_cases htoken : token = key
    · subst htoken
      rw [canonicalOf, lookup_append, hentry, lookup_singleton, if_pos rfl, if_pos ⟨rfl, hblank⟩]
      rfl
    · rw [canonicalOf, lookup_append, lookup_singleton, if_neg fun h => htoken (Eq.symm h),
        Option.or_none, if_neg fun h => htoken h.1.symm]
      rfl

theorem nodup_register (h : (map.entries.map VendorStatusEntry.vendorStatus).Nodup)
    (vendorStatus : Text) (canonical : TransactionStatus) :
    ((map.register vendorStatus canonical).1.entries.map VendorStatusEntry.vendorStatus).Nodup := by
  unfold register
  dsimp only
  split
  · exact h
  split
  · rename_i entry hentry
    have hentryKey : entry.vendorStatus = normalizeStatusToken vendorStatus :=
      KeyedList.key_of_lookup hentry
    have hkey : ({ entry with canonical } : VendorStatusEntry).vendorStatus =
      normalizeStatusToken vendorStatus := hentryKey
    rw [map_key_rewrite hkey]
    exact h
  · rename_i hnone
    rw [List.map_append, List.map_singleton]
    exact h.append (List.nodup_singleton _)
      (List.disjoint_singleton.mpr (lookup_eq_none.mp hnone))

theorem canonicalOf_remove (h : (map.entries.map VendorStatusEntry.vendorStatus).Nodup)
    (vendorStatus : Text) : (map.remove vendorStatus).1.canonicalOf token =
      (sets token (.remove vendorStatus)).getD (map.canonicalOf token) := by
  unfold remove sets
  dsimp only
  generalize normalizeStatusToken vendorStatus = key
  by_cases htoken : key = token
  · subst htoken
    rw [if_pos rfl, Option.getD_some]
    split
    · rw [canonicalOf, eraseP_eq_filter h, Option.map_eq_none_iff, lookup_eq_none]
      simp
    · rename_i habsent
      rw [canonicalOf, Option.map_eq_none_iff, ← Option.not_isSome_iff_eq_none,
        ← any_vendorStatus]
      exact habsent
  · rw [if_neg htoken, Option.getD_none]
    split
    · rw [canonicalOf, eraseP_eq_filter h, lookup_filter_of_not, canonicalOf]
      rintro e - rfl
      exact decide_eq_true (Ne.symm htoken)
    · rfl

theorem nodup_remove (h : (map.entries.map VendorStatusEntry.vendorStatus).Nodup)
    (vendorStatus : Text) :
    ((map.remove vendorStatus).1.entries.map VendorStatusEntry.vendorStatus).Nodup := by
  unfold remove
  dsimp only
  split
  · exact h.sublist (List.eraseP_sublist.map _)
  · exact h

theorem after_snoc : after (calls ++ [c]) = ((after calls).apply c).1 := by
  rw [after, List.foldl_append]
  rfl

theorem meaning_snoc :
    meaning (calls ++ [c]) token = (sets token c).getD (meaning calls token) := by
  rw [meaning, Machine.lastSome_snoc]
  cases sets token c <;> rfl

/-- A call changes what its token means and nothing else. -/
theorem follows_after (calls : List Call) :
    ((after calls).entries.map VendorStatusEntry.vendorStatus).Nodup ∧
      ∀ token, (after calls).canonicalOf token = meaning calls token := by
  induction calls using List.reverseRecOn with
  | nil => exact ⟨List.nodup_nil, fun _ => rfl⟩
  | append_singleton calls c ih =>
    obtain ⟨hnodup, hmeaning⟩ := ih
    simp only [after_snoc, meaning_snoc, ← hmeaning]
    cases c with
    | register vendorStatus canonical =>
      exact ⟨nodup_register hnodup vendorStatus canonical,
        fun _ => canonicalOf_register vendorStatus canonical⟩
    | remove vendorStatus =>
      exact ⟨nodup_remove hnodup vendorStatus, fun _ => canonicalOf_remove hnodup vendorStatus⟩

theorem vendor_statuses_run (calls : List Call) : FollowsCalls calls := by
  obtain ⟨hnodup, hmeaning⟩ := follows_after calls
  have hcontains : ∀ token, ((after calls).entries.any fun e => e.vendorStatus = token) =
      (meaning calls token).isSome := by
    intro token
    rw [Bool.eq_iff_iff, any_vendorStatus, ← hmeaning, canonicalOf, Option.isSome_map]
  refine ⟨fun raw => ?_, fun raw => hcontains _, fun c => ?_, hnodup⟩
  · rw [resolve, ← hmeaning, canonicalOf]
    cases lookup VendorStatusEntry.vendorStatus (normalizeStatusToken raw)
      (after calls).entries <;> rfl
  · cases c with
    | register vendorStatus canonical =>
      unfold apply register answer
      dsimp only
      split
      · rename_i hblank
        rw [hblank]
        rfl
      · rename_i hblank
        rw [decide_eq_true hblank]
        split <;> rfl
    | remove vendorStatus =>
      unfold apply remove answer
      dsimp only
      rw [← hcontains]
      split
      · exact Eq.symm ‹_›
      · exact (Bool.eq_false_iff.mpr ‹_›).symm

end Calls

end VendorStatusMap

/-! ### Responses -/

structure RawDepositResponse where
  transactionId : Text
  how : Text
  extraInfo : Option Text
  minAmount : Option UInt64
  maxAmount : Option UInt64
  feeFixed : Option UInt64
  status : Option Text
  clawbackEnabled : Option Bool
  stellarMemo : Option Text
  stellarMemoType : Option Text
  assetCode : Option Text

structure DepositResponse where
  transactionId : Text
  how : Text
  extraInfo : Option Text
  minAmount : Option UInt64
  maxAmount : Option UInt64
  feeFixed : Option UInt64
  status : TransactionStatus
  clawbackEnabled : Option Bool
  stellarMemo : Option Text
  stellarMemoType : Option Text
  assetCode : Option Text

structure RawWithdrawalResponse where
  transactionId : Text
  accountId : Text
  memo : Option Text
  memoType : Option Text
  minAmount : Option UInt64
  maxAmount : Option UInt64
  feeFixed : Option UInt64
  status : Option Text
  assetCode : Option Text

structure WithdrawalResponse where
  transactionId : Text
  accountId : Text
  memo : Option Text
  memoType : Option Text
  minAmount : Option UInt64
  maxAmount : Option UInt64
  feeFixed : Option UInt64
  status : TransactionStatus
  assetCode : Option Text

structure RawTransactionResponse where
  transactionId : Text
  kind : Option Text
  status : Text
  amountIn : Option UInt64
  amountOut : Option UInt64
  amountFee : Option UInt64
  message : Option Text

def TransactionKind.fromStr (s : Text) : TransactionKind :=
  if s = "withdrawal".toList ∨ s = "withdraw".toList then .withdrawal else .deposit

def validMemoTypes : List Text := ["text".toList, "id".toList, "hash".toList]

def validateMemoPair (memo memoType : Option Text) : Except AnchorKitError Unit :=
  match memo, memoType with
  | none, _ => .ok ()
  | some _, none => .error .invalidTransactionIntent
  | some _, some mt => require (validMemoTypes.contains mt = true) .invalidTransactionIntent

def validateAmountOrdering (minAmount maxAmount : Option UInt64) : Except AnchorKitError Unit :=
  match minAmount, maxAmount with
  | some min, some max => require (min ≤ max) .invalidTransactionIntent
  | _, _ => .ok ()

/-- The checks that deposits and withdrawals have in common; `target` is where to send funds. -/
def checkIntent (transactionId target : Text) (minAmount maxAmount : Option UInt64)
    (memo memoType code : Option Text) : Except AnchorKitError (Option Text) := do
  require (¬ (Text.trimMatches isWhitespace transactionId = [] ∨ target = []))
    .invalidTransactionIntent
  validateAmountOrdering minAmount maxAmount
  validateMemoPair memo memoType
  transpose (code.map normalizeAssetCode)

def initialStatus (status : Option Text) : TransactionStatus :=
  ((status.filter fun s => Text.trimMatches isWhitespace s ≠ []).map .fromStr).getD .pending

def initiateDeposit (raw : RawDepositResponse) : Except AnchorKitError DepositResponse := do
  let assetCode ← checkIntent raw.transactionId raw.how raw.minAmount raw.maxAmount
    raw.stellarMemo raw.stellarMemoType raw.assetCode
  return {
    transactionId := raw.transactionId, how := raw.how, extraInfo := raw.extraInfo,
    minAmount := raw.minAmount, maxAmount := raw.maxAmount, feeFixed := raw.feeFixed,
    status := initialStatus raw.status, clawbackEnabled := raw.clawbackEnabled,
    stellarMemo := raw.stellarMemo, stellarMemoType := raw.stellarMemoType, assetCode }

def initiateWithdrawal (raw : RawWithdrawalResponse) :
    Except AnchorKitError WithdrawalResponse := do
  let assetCode ← checkIntent raw.transactionId raw.accountId raw.minAmount raw.maxAmount
    raw.memo raw.memoType raw.assetCode
  return {
    transactionId := raw.transactionId, accountId := raw.accountId, memo := raw.memo,
    memoType := raw.memoType, minAmount := raw.minAmount, maxAmount := raw.maxAmount,
    feeFixed := raw.feeFixed, status := initialStatus raw.status, assetCode }

def transactionKind (kind : Option Text) : TransactionKind :=
  (kind.map TransactionKind.fromStr).getD .deposit

def fetchTransactionStatus (raw : RawTransactionResponse) :
    Except AnchorKitError TransactionStatusResponse := do
  require (Text.trimMatches isWhitespace raw.transactionId ≠ []) .invalidTransactionIntent
  return {
    transactionId := raw.transactionId, kind := transactionKind raw.kind,
    status :=
      if Text.trimMatches isWhitespace raw.status = [] then .error else .fromStr raw.status,
    amountIn := raw.amountIn, amountOut := raw.amountOut, amountFee := raw.amountFee,
    message := raw.message }

def listTransactions (rawList : List RawTransactionResponse) : List TransactionStatusResponse :=
  (rawList.filter fun r => Text.trimMatches isWhitespace r.transactionId ≠ []).map fun r =>
    { transactionId := r.transactionId, kind := transactionKind r.kind, status := .fromStr r.status,
      amountIn := r.amountIn, amountOut := r.amountOut, amountFee := r.amountFee,
      message := r.message }

/-! ### What passes -/

/-- The response says which transaction it is about and where to send funds, its bounds are in
order, and its memo has a type. -/
structure IntentAllowed (transactionId target : Text) (minAmount maxAmount : Option UInt64)
    (memo memoType : Option Text) : Prop where
  id : Text.trimMatches isWhitespace transactionId ≠ []
  target : target ≠ []
  ordered : ∀ min ∈ minAmount, ∀ max ∈ maxAmount, min ≤ max
  typed : memo ≠ none → ∃ mt ∈ memoType, mt ∈ validMemoTypes

def RawDepositResponse.Allowed (raw : RawDepositResponse) : Prop :=
  IntentAllowed raw.transactionId raw.how raw.minAmount raw.maxAmount raw.stellarMemo
    raw.stellarMemoType

def RawWithdrawalResponse.Allowed (raw : RawWithdrawalResponse) : Prop :=
  IntentAllowed raw.transactionId raw.accountId raw.minAmount raw.maxAmount raw.memo raw.memoType

def RawDepositResponse.kept (raw : RawDepositResponse) : DepositResponse where
  transactionId := raw.transactionId
  how := raw.how
  extraInfo := raw.extraInfo
  minAmount := raw.minAmount
  maxAmount := raw.maxAmount
  feeFixed := raw.feeFixed
  status := initialStatus raw.status
  clawbackEnabled := raw.clawbackEnabled
  stellarMemo := raw.stellarMemo
  stellarMemoType := raw.stellarMemoType
  assetCode := raw.assetCode.map Sep38.assetCode

def RawWithdrawalResponse.kept (raw : RawWithdrawalResponse) : WithdrawalResponse where
  transactionId := raw.transactionId
  accountId := raw.accountId
  memo := raw.memo
  memoType := raw.memoType
  minAmount := raw.minAmount
  maxAmount := raw.maxAmount
  feeFixed := raw.feeFixed
  status := initialStatus raw.status
  assetCode := raw.assetCode.map Sep38.assetCode

def DepositResponse.toRaw (response : DepositResponse) : RawDepositResponse where
  transactionId := response.transactionId
  how := response.how
  extraInfo := response.extraInfo
  minAmount := response.minAmount
  maxAmount := response.maxAmount
  feeFixed := response.feeFixed
  status := some response.status.asStr
  clawbackEnabled := response.clawbackEnabled
  stellarMemo := response.stellarMemo
  stellarMemoType := response.stellarMemoType
  assetCode := response.assetCode

def WithdrawalResponse.toRaw (response : WithdrawalResponse) : RawWithdrawalResponse where
  transactionId := response.transactionId
  accountId := response.accountId
  memo := response.memo
  memoType := response.memoType
  minAmount := response.minAmount
  maxAmount := response.maxAmount
  feeFixed := response.feeFixed
  status := some response.status.asStr
  assetCode := response.assetCode

structure Checks {Raw Response : Type} (initiate : Raw → Except AnchorKitError Response)
    (raw : Raw) (allowed : Prop) (code : Option Text) (kept : Response) : Prop where
  accepts : ∀ response, initiate raw = .ok response ↔
    allowed ∧ (∀ c ∈ code, ValidAssetCode c) ∧ response = kept
  refuses : ∀ e, initiate raw = .error e ↔ ¬ allowed ∧ e = .invalidTransactionIntent ∨
    allowed ∧ ∃ c ∈ code, ¬ ValidAssetCode c ∧ e = .invalidAssetCode (String.ofList c)

/-- Responses pass or are refused by what they say, those that passed pass unchanged, and a list of
transactions is read as each of them is. -/
structure ResponsesNormalised : Prop where
  deposit : ∀ raw : RawDepositResponse,
    Checks initiateDeposit raw raw.Allowed raw.assetCode raw.kept
  withdrawal : ∀ raw : RawWithdrawalResponse,
    Checks initiateWithdrawal raw raw.Allowed raw.assetCode raw.kept
  depositAgain : ∀ raw response, initiateDeposit raw = .ok response →
    initiateDeposit response.toRaw = .ok response
  withdrawalAgain : ∀ raw response, initiateWithdrawal raw = .ok response →
    initiateWithdrawal response.toRaw = .ok response
  listed : ∀ rawList, listTransactions rawList =
    rawList.filterMap fun raw => (fetchTransactionStatus raw).toOption

theorem isAlphanum_toUpper {c : Char} (h : c.isAlphanum = true) : c.toUpper.isAlphanum = true := by
  rw [Text.isAlphanum_iff] at h ⊢
  rw [Text.toNat_toUpper]
  split_ifs
  · omega
  · omega

/-- An asset code is its own normal form once it is in upper case. -/
theorem assetCode_again {code : Text} (h : ValidAssetCode code) :
    Text.trimMatches isWhitespace (assetCode code) = assetCode code ∧
      ValidAssetCode (assetCode code) ∧ assetCode (assetCode code) = assetCode code := by
  have halphanum : ∀ c ∈ assetCode code, c.isAlphanum = true := by
    intro c hc
    obtain ⟨d, hd, rfl⟩ := List.mem_map.mp hc
    exact isAlphanum_toUpper (List.all_eq_true.mp h.alphanumeric d hd)
  have htrim : Text.trimMatches isWhitespace (assetCode code) = assetCode code :=
    Text.trimMatches_of_forall fun c hc =>
      MultiAssetRouting.not_isWhitespace_of_isAlphanum (halphanum c hc)
  have hlength : Text.byteLen (assetCode code) =
      Text.byteLen (Text.trimMatches isWhitespace code) := by
    rw [Text.byteLen_of_isAscii fun c hc => Text.isAscii_of_isAlphanum (halphanum c hc),
      Text.byteLen_of_isAscii fun c hc => Text.isAscii_of_isAlphanum
        (List.all_eq_true.mp h.alphanumeric c hc)]
    exact List.length_map _
  refine ⟨htrim, ⟨?_, ?_, ?_⟩, ?_⟩
  · rw [htrim]
    exact fun hnil => h.nonempty (List.map_eq_nil_iff.mp hnil)
  · rw [htrim, hlength]
    exact h.length
  · rw [htrim, List.all_eq_true]
    exact halphanum
  · rw [assetCode, htrim, assetCode, Text.asciiUpper_asciiUpper]

theorem fromStr_asStr (status : TransactionStatus) :
    TransactionStatus.fromStr status.asStr = status := by
  cases status <;> decide +kernel

theorem initialStatus_asStr (status : TransactionStatus) :
    initialStatus (some status.asStr) = status := by
  have hnonblank : Text.trimMatches isWhitespace status.asStr ≠ [] := by
    cases status <;> decide +kernel
  rw [initialStatus, Option.filter_some, if_pos (decide_eq_true hnonblank), Option.map_some,
    Option.getD_some, fromStr_asStr]

theorem classifyStatusStr_eq (s : Text) : classifyStatusStr s =
    if normalizeStatusToken s ∈ categoryNames.map Prod.fst then
      (TransactionStatus.fromStr s).classify else .unknown := by
  unfold classifyStatusStr TransactionStatus.fromStr
  generalize normalizeStatusToken s = token
  split
  · rename_i hnamed
    have hall : ∀ token ∈ categoryNames.map Prod.fst,
        (categoryNames.lookup token).getD .unknown =
          TransactionStatus.classify ((statusNames.lookup token).getD .error) := by
      decide +kernel
    exact hall token hnamed
  · rename_i hother
    have hnone : categoryNames.lookup token = none := by
      rw [List.lookup_eq_none_iff]
      intro entry hentry
      rw [bne_iff_ne]
      rintro rfl
      exact hother (List.mem_map_of_mem hentry)
    rw [hnone, Option.getD_none]

section Intents

variable {transactionId target : Text} {minAmount maxAmount : Option UInt64}
  {memo memoType code r : Option Text} {e : AnchorKitError} {u : Unit}

theorem validateAmountOrdering_eq_ok : validateAmountOrdering minAmount maxAmount = .ok u ↔
    ∀ min ∈ minAmount, ∀ max ∈ maxAmount, min ≤ max := by
  cases minAmount with
  | none => simp [validateAmountOrdering]
  | some min => cases maxAmount <;> simp [validateAmountOrdering]

theorem validateAmountOrdering_eq_error
    (h : validateAmountOrdering minAmount maxAmount = .error e) :
    e = .invalidTransactionIntent := by
  cases minAmount with
  | none => cases h
  | some min =>
    cases maxAmount with
    | none => cases h
    | some max => exact require_eq_error h

theorem validateMemoPair_eq_ok : validateMemoPair memo memoType = .ok u ↔
    (memo ≠ none → ∃ mt ∈ memoType, mt ∈ validMemoTypes) := by
  cases memo with
  | none => simp [validateMemoPair]
  | some m => cases memoType <;> simp [validateMemoPair]

theorem validateMemoPair_eq_error (h : validateMemoPair memo memoType = .error e) :
    e = .invalidTransactionIntent := by
  cases memo with
  | none => cases h
  | some m =>
    cases memoType with
    | none => exact (Except.error.inj h).symm
    | some mt => exact require_eq_error h

theorem normalizeAssetCode_of_not_valid {c : Text} (h : ¬ ValidAssetCode c) :
    normalizeAssetCode c = .error (.invalidAssetCode (String.ofList c)) := by
  unfold normalizeAssetCode
  dsimp only
  by_cases hlength : ¬ (Text.trimMatches isWhitespace c = [] ∨
      12 < Text.byteLen (Text.trimMatches isWhitespace c))
  · rw [require_bind_of hlength, require_bind_of_not]
    intro halphanum
    obtain ⟨hne, hle⟩ := not_or.mp hlength
    exact h ⟨hne, Nat.not_lt.mp hle, halphanum⟩
  · rw [require_bind_of_not hlength]

theorem normalizeAssetCode_eq_error {c : Text} : normalizeAssetCode c = .error e ↔
    ¬ ValidAssetCode c ∧ e = .invalidAssetCode (String.ofList c) := by
  by_cases hvalid : ValidAssetCode c
  · rw [Sep38.normalizeAssetCode_eq_ok.mpr ⟨hvalid, rfl⟩]
    simp [hvalid]
  · rw [normalizeAssetCode_of_not_valid hvalid, Except.error.injEq]
    simp [hvalid, eq_comm]

theorem checkIntent_of_allowed
    (h : IntentAllowed transactionId target minAmount maxAmount memo memoType) :
    checkIntent transactionId target minAmount maxAmount memo memoType code =
      transpose (code.map normalizeAssetCode) := by
  have hordered := @validateAmountOrdering_eq_ok minAmount maxAmount ()
  have htyped := @validateMemoPair_eq_ok memo memoType ()
  rw [checkIntent, require_bind_of (not_or.mpr ⟨h.id, h.target⟩), hordered.mpr h.ordered,
    htyped.mpr h.typed]
  rfl

theorem checkIntent_of_not_allowed
    (h : ¬ IntentAllowed transactionId target minAmount maxAmount memo memoType) :
    checkIntent transactionId target minAmount maxAmount memo memoType code =
      .error .invalidTransactionIntent := by
  unfold checkIntent
  by_cases hgiven : ¬ (Text.trimMatches isWhitespace transactionId = [] ∨ target = [])
  · rw [require_bind_of hgiven]
    obtain ⟨hid, htarget⟩ := not_or.mp hgiven
    cases hordering : validateAmountOrdering minAmount maxAmount with
    | error e =>
      rw [validateAmountOrdering_eq_error hordering]
      rfl
    | ok u =>
      cases hmemo : validateMemoPair memo memoType with
      | error e =>
        rw [validateMemoPair_eq_error hmemo]
        rfl
      | ok v =>
        exact absurd ⟨hid, htarget, validateAmountOrdering_eq_ok.mp hordering,
          validateMemoPair_eq_ok.mp hmemo⟩ h
  · rw [require_bind_of_not hgiven]

theorem checks_of_checkIntent {Raw Response : Type}
    {initiate : Raw → Except AnchorKitError Response} {raw : Raw} {keep : Option Text → Response}
    (h : initiate raw = (checkIntent transactionId target minAmount maxAmount memo memoType code >>=
      fun code => pure (keep code))) :
    Checks initiate raw (IntentAllowed transactionId target minAmount maxAmount memo memoType) code
      (keep (code.map assetCode)) := by
  have hasset : ∀ r, transpose (code.map normalizeAssetCode) = .ok r ↔
      (∀ c ∈ code, ValidAssetCode c) ∧ r = code.map assetCode := fun r =>
    transpose_map_eq_ok fun _ _ => by rw [Sep38.normalizeAssetCode_eq_ok, eq_comm]
  have hbad : ∀ e, transpose (code.map normalizeAssetCode) = .error e ↔
      ∃ c ∈ code, ¬ ValidAssetCode c ∧ e = .invalidAssetCode (String.ofList c) := by
    intro e
    simp only [transpose_map_eq_error, normalizeAssetCode_eq_error]
  by_cases hallowed : IntentAllowed transactionId target minAmount maxAmount memo memoType
  · rw [checkIntent_of_allowed hallowed] at h
    constructor
    · intro response
      simp only [h, bind_eq_ok, hasset, pure_eq_ok]
      constructor
      · rintro ⟨_, ⟨hvalid, rfl⟩, rfl⟩
        exact ⟨hallowed, hvalid, rfl⟩
      · rintro ⟨-, hvalid, rfl⟩
        exact ⟨_, ⟨hvalid, rfl⟩, rfl⟩
    · intro e
      rw [h, bind_pure_eq_error, hbad]
      constructor
      · exact fun he => Or.inr ⟨hallowed, he⟩
      · rintro (⟨hnot, -⟩ | ⟨-, he⟩)
        · exact absurd hallowed hnot
        · exact he
  · rw [checkIntent_of_not_allowed hallowed] at h
    constructor
    · intro response
      rw [h]
      constructor
      · intro hok
        cases hok
      · rintro ⟨h', -⟩
        exact absurd h' hallowed
    · intro e
      rw [h, bind_pure_eq_error, Except.error.injEq]
      constructor
      · rintro rfl
        exact Or.inl ⟨hallowed, rfl⟩
      · rintro (⟨-, rfl⟩ | ⟨h', -⟩)
        · rfl
        · exact absurd h' hallowed

end Intents

theorem deposit_checks (raw : RawDepositResponse) :
    Checks initiateDeposit raw raw.Allowed raw.assetCode raw.kept :=
  @checks_of_checkIntent _ _ _ _ _ _ _ _ _ initiateDeposit raw
    (fun code => { raw.kept with assetCode := code }) rfl

theorem withdrawal_checks (raw : RawWithdrawalResponse) :
    Checks initiateWithdrawal raw raw.Allowed raw.assetCode raw.kept :=
  @checks_of_checkIntent _ _ _ _ _ _ _ _ _ initiateWithdrawal raw
    (fun code => { raw.kept with assetCode := code }) rfl

theorem assetCodes_again {code : Option Text} (h : ∀ c ∈ code, ValidAssetCode c) :
    (∀ c ∈ code.map assetCode, ValidAssetCode c) ∧
      (code.map assetCode).map assetCode = code.map assetCode := by
  constructor
  · intro c hc
    obtain ⟨c', hc', rfl⟩ := Option.map_eq_some_iff.mp hc
    exact (assetCode_again (h c' hc')).2.1
  · rw [Option.map_map]
    exact Option.map_congr fun c hc => (assetCode_again (h c hc)).2.2

theorem fromStr_of_blank {s : Text} (h : Text.trimMatches isWhitespace s = []) :
    TransactionStatus.fromStr s = .error := by
  rw [TransactionStatus.fromStr, normalizeStatusToken, h]
  decide

/-- The list leaves out what would be refused on its own. -/
theorem listTransactions_eq (rawList : List RawTransactionResponse) : listTransactions rawList =
    rawList.filterMap fun raw => (fetchTransactionStatus raw).toOption := by
  induction rawList with
  | nil => rfl
  | cons raw rest ih =>
    by_cases hid : Text.trimMatches isWhitespace raw.transactionId = []
    · have hfetch : (fetchTransactionStatus raw).toOption = none := by
        rw [fetchTransactionStatus, require_bind_of_not (not_not_intro hid)]
        rfl
      rw [List.filterMap_cons, hfetch, ← ih]
      dsimp only
      unfold listTransactions
      rw [List.filter_cons, if_neg (by simp [hid])]
    · have hstatus : (if Text.trimMatches isWhitespace raw.status = [] then .error
          else TransactionStatus.fromStr raw.status) = .fromStr raw.status := by
        split
        · exact (fromStr_of_blank ‹_›).symm
        · rfl
      have hfetch : (fetchTransactionStatus raw).toOption = some
          { transactionId := raw.transactionId, kind := transactionKind raw.kind,
            status := .fromStr raw.status, amountIn := raw.amountIn, amountOut := raw.amountOut,
            amountFee := raw.amountFee, message := raw.message } := by
        rw [fetchTransactionStatus, require_bind_of hid, hstatus]
        rfl
      rw [List.filterMap_cons, hfetch, ← ih]
      dsimp only
      unfold listTransactions
      rw [List.filter_cons, if_pos (by simp [hid]), List.map_cons]

theorem responses_normalised : ResponsesNormalised where
  deposit := deposit_checks
  withdrawal := withdrawal_checks
  depositAgain raw response h := by
    obtain ⟨hallowed, hcode, rfl⟩ := ((deposit_checks raw).accepts response).mp h
    obtain ⟨hagain, hsame⟩ := assetCodes_again hcode
    refine ((deposit_checks raw.kept.toRaw).accepts raw.kept).mpr ⟨hallowed, hagain, ?_⟩
    unfold RawDepositResponse.kept DepositResponse.toRaw
    rw [initialStatus_asStr, hsame]
  withdrawalAgain raw response h := by
    obtain ⟨hallowed, hcode, rfl⟩ := ((withdrawal_checks raw).accepts response).mp h
    obtain ⟨hagain, hsame⟩ := assetCodes_again hcode
    refine ((withdrawal_checks raw.kept.toRaw).accepts raw.kept).mpr ⟨hallowed, hagain, ?_⟩
    unfold RawWithdrawalResponse.kept WithdrawalResponse.toRaw
    rw [initialStatus_asStr, hsame]
  listed := listTransactions_eq

end Sep6

end AnchorKit
