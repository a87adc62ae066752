import AnchorKit.FirmQuotes
import AnchorKit.MultiAssetRouting
import AnchorKit.Sep6Responses
import AnchorKit.StellarAccounts
import Mathlib.Data.Rat.Floor
import Mathlib.Tactic.Positivity

/-!
# Direct payments

The response of an anchor to the initiation of a direct payment is checked field by field. What
passes is kept as it came, up to the spelling of its asset, and passes again.
-/

namespace AnchorKit

namespace Sep31

open Fallible
open Sep6 (Digits)
open Sep38 (ValidAssetCode assetCode normalizeAssetCode)

structure RawSep31PaymentResponse where
  id : Text
  stellarAccountId : Text
  sender : Text
  stellarMemo : Option Text
  stellarMemoType : Option Text
  amount : Option Text
  assetCode : Option Text
  idempotencyKey : Option Text

structure Sep31PaymentResponse where
  id : Text
  stellarAccountId : Text
  sender : Text
  stellarMemo : Option Text
  stellarMemoType : Option Text
  amount : Option Text
  assetCode : Option Text
  idempotencyKey : Option Text
deriving DecidableEq

def validMemoTypes : List Text := ["text".toList, "id".toList, "hash".toList]

def maxIdLength : ℕ := 64

def maxIdempotencyKeyLength : ℕ := 64

def maxMemoLength : ℕ := 256

def validateMemoPair (memo memoType : Option Text) : Except AnchorKitError Unit :=
  if memo.isSome then
    match memoType with
    | none => .error .invalidTransactionIntent
    | some mt => require (validMemoTypes.contains mt = true) .invalidTransactionIntent
  else .ok ()

def validateMemoLength (memo : Option Text) : Except AnchorKitError Unit :=
  require (∀ m ∈ memo, Text.byteLen m ≤ maxMemoLength)
    (.validationError "memo exceeds maximum length of 256 characters")

/-! ### Amounts -/

/-- What the loop over the characters of an amount keeps. Its counters do not overflow. -/
structure DecimalScan where
  hasDot : Bool
  digitsBeforeDot : ℕ
  digitsAfterDot : ℕ

def DecimalScan.digit (scan : DecimalScan) : DecimalScan :=
  if scan.hasDot then { scan with digitsAfterDot := scan.digitsAfterDot + 1 }
  else { scan with digitsBeforeDot := scan.digitsBeforeDot + 1 }

def multipleDots : String := " contains multiple decimal points"

def negativeSign : String := " must not be negative"

def invalidCharacter (c : Char) : String :=
  " contains invalid character '" ++ String.singleton c ++ "'"

/-- The number is the index of the next character. -/
def scanDecimal (field : String) (scan : DecimalScan) (i : ℕ) :
    Text → Except AnchorKitError DecimalScan
  | [] => .ok scan
  | c :: rest =>
    if c = '.' then
      if scan.hasDot then .error (.validationError (field ++ multipleDots))
      else scanDecimal field { scan with hasDot := true } (i + 1) rest
    else if c.isDigit then scanDecimal field scan.digit (i + 1) rest
    else if c = '-' ∧ i = 0 then .error (.validationError (field ++ negativeSign))
    else .error (.validationError (field ++ invalidCharacter c))

def validatePositiveDecimal (s : Text) (field : String) : Except AnchorKitError Unit := do
  require (s ≠ []) (.validationError (field ++ " must not be empty"))
  require (s.head? ≠ some '.') (.validationError (field ++ " must not start with a decimal point"))
  let scan ← scanDecimal field ⟨false, 0, 0⟩ 0 s
  require (scan.digitsBeforeDot ≠ 0)
    (.validationError (field ++ " must contain at least one digit"))
  require (¬ (scan.hasDot = true ∧ scan.digitsAfterDot = 0))
    (.validationError (field ++ " must not end with a decimal point"))
  require (((s.filter Char.isDigit).all fun c => c = '0') = false)
    (.validationError (field ++ " must be greater than zero"))

/-! ### The grammar of amounts -/

/-- One digit or more, perhaps with a dot and one digit or more behind them, and their number. -/
inductive Denotes : Text → ℚ → Prop
  | whole {digits : Text} (h : Digits digits) : Denotes digits (Text.decimalValue digits)
  | fraction {whole digits : Text} (hwhole : Digits whole) (h : Digits digits) :
    Denotes (whole ++ '.' :: digits) (Text.decimalValue (whole ++ digits) / 10 ^ digits.length)

inductive Begins : Text → Prop
  | whole {digits : Text} (h : ∀ c ∈ digits, c.isDigit = true) : Begins digits
  | fraction {whole digits : Text} (hwhole : Digits whole) (h : ∀ c ∈ digits, c.isDigit = true) :
    Begins (whole ++ '.' :: digits)

/-- The first thing that is wrong with a text, and how this is told. -/
inductive Departs : Text → String → Prop
  | empty : Departs [] " must not be empty"
  | leadingDot (rest : Text) : Departs ('.' :: rest) " must not start with a decimal point"
  | sign (rest : Text) : Departs ('-' :: rest) negativeSign
  | secondDot {front : Text} (rest : Text) (h : Begins front) (hdot : '.' ∈ front) :
    Departs (front ++ '.' :: rest) multipleDots
  | invalid {front : Text} {c : Char} (rest : Text) (h : Begins front)
    (hdigit : c.isDigit = false) (hdot : c ≠ '.') (hsign : c = '-' → front ≠ []) :
    Departs (front ++ c :: rest) (invalidCharacter c)
  | trailingDot {whole : Text} (h : Digits whole) :
    Departs (whole ++ ['.']) " must not end with a decimal point"
  | zero {s : Text} (h : Denotes s 0) : Departs s " must be greater than zero"

section Amounts

variable {s front whole digits rest : Text} {field defect : String} {q : ℚ} {c : Char}

theorem decimalValue_eq_zero (h : ∀ c ∈ s, c.isDigit = true) :
    Text.decimalValue s = 0 ↔ ∀ c ∈ s, c = '0' := by
  have hfold (n : ℕ) : s.foldl (fun n c => n * 10 + (c.toNat - 0x30)) n = 0 ↔
      n = 0 ∧ ∀ c ∈ s, c = '0' := by
    induction s generalizing n with
    | nil => simp
    | cons c s ih =>
      obtain ⟨hc, hs⟩ := List.forall_mem_cons.mp h
      have hlow := (Text.isDigit_iff.mp hc).1
      have hzero : c = '0' ↔ c.toNat = 0x30 := Char.toNat_inj.symm
      rw [List.foldl_cons, ih hs, List.forall_mem_cons, hzero]
      constructor
      · rintro ⟨hsum, hrest⟩
        exact ⟨by omega, by omega, hrest⟩
      · rintro ⟨hn, hchar, hrest⟩
        exact ⟨by omega, hrest⟩
  rw [Text.decimalValue, hfold]
  exact and_iff_right rfl

theorem digits_append (hwhole : Digits whole) (h : ∀ c ∈ digits, c.isDigit = true) :
    ∀ c ∈ whole ++ digits, c.isDigit = true := by
  intro c hc
  rcases List.mem_append.mp hc with hc | hc
  · exact hwhole.2 c hc
  · exact h c hc

theorem filter_digits (h : ∀ c ∈ digits, c.isDigit = true) : digits.filter Char.isDigit = digits :=
  List.filter_eq_self.mpr h

theorem Denotes.eq_zero_iff (h : Denotes s q) :
    ((s.filter Char.isDigit).all fun c => c = '0') = true ↔ q = 0 := by
  cases h with
  | whole h =>
    rw [filter_digits h.2, Nat.cast_eq_zero, decimalValue_eq_zero h.2]
    simp
  | @fraction whole digits hwhole h =>
    have hdot : ('.' :: digits).filter Char.isDigit = digits := by
      rw [List.filter_cons_of_neg (by decide), filter_digits h.2]
    rw [List.filter_append, hdot, filter_digits hwhole.2, div_eq_zero_iff, Nat.cast_eq_zero,
      decimalValue_eq_zero (digits_append hwhole h.2)]
    simp [or_imp, forall_and]

theorem Denotes.nonneg (h : Denotes s q) : 0 ≤ q := by
  cases h with
  | whole h => positivity
  | fraction hwhole h => positivity

/-! ### The loop over the characters -/

/-- Digits are counted on their side of the dot. -/
theorem scanDecimal_digits (field : String) (h : ∀ c ∈ digits, c.isDigit = true)
    (scan : DecimalScan) (i : ℕ) :
    scanDecimal field scan i (digits ++ rest) =
      scanDecimal field (digits.foldl (fun scan _ => scan.digit) scan) (i + digits.length)
        rest := by
  induction digits generalizing scan i with
  | nil => rfl
  | cons c digits ih =>
    obtain ⟨hc, hdigits⟩ := List.forall_mem_cons.mp h
    have hdot : c ≠ '.' := by
      rintro rfl
      exact absurd hc (by decide)
    rw [List.cons_append, scanDecimal, if_neg hdot, if_pos hc, ih hdigits, List.foldl_cons,
      List.length_cons, Nat.add_right_comm, Nat.add_assoc]

theorem foldl_digit_before (b : ℕ) :
    digits.foldl (fun scan _ => scan.digit) ⟨false, b, 0⟩ =
      (⟨false, b + digits.length, 0⟩ : DecimalScan) := by
  induction digits generalizing b with
  | nil => rfl
  | cons c digits ih =>
    rw [List.foldl_cons, List.length_cons, ← Nat.add_assoc, Nat.add_right_comm]
    exact ih (b + 1)

theorem foldl_digit_after (b a : ℕ) :
    digits.foldl (fun scan _ => scan.digit) ⟨true, b, a⟩ =
      (⟨true, b, a + digits.length⟩ : DecimalScan) := by
  induction digits generalizing a with
  | nil => rfl
  | cons c digits ih =>
    rw [List.foldl_cons, List.length_cons, ← Nat.add_assoc, Nat.add_right_comm]
    exact ih (a + 1)

theorem scanDecimal_whole (field : String) (h : ∀ c ∈ digits, c.isDigit = true) :
    scanDecimal field ⟨false, 0, 0⟩ 0 (digits ++ rest) =
      scanDecimal field ⟨false, digits.length, 0⟩ digits.length rest := by
  rw [scanDecimal_digits field h, foldl_digit_before, Nat.zero_add]

theorem scanDecimal_fraction (field : String) (hwhole : Digits whole)
    (h : ∀ c ∈ digits, c.isDigit = true) :
    scanDecimal field ⟨false, 0, 0⟩ 0 (whole ++ '.' :: (digits ++ rest)) =
      scanDecimal field ⟨true, whole.length, digits.length⟩ (whole.length + 1 + digits.length)
        rest := by
  rw [scanDecimal_whole field hwhole.2, scanDecimal, if_pos rfl, if_neg Bool.false_ne_true,
    scanDecimal_digits field h, foldl_digit_after, Nat.zero_add]

/-- The loop gets past what an amount can begin with. -/
theorem scanDecimal_begins (field : String) (h : Begins front) : ∃ scan : DecimalScan,
    (scan.hasDot = true ↔ '.' ∈ front) ∧ ∀ rest, scanDecimal field ⟨false, 0, 0⟩ 0 (front ++ rest) =
      scanDecimal field scan front.length rest := by
  cases h with
  | whole h =>
    refine ⟨⟨false, front.length, 0⟩, ?_, fun rest => scanDecimal_whole field h⟩
    refine iff_of_false Bool.false_ne_true fun hdot => ?_
    exact absurd (h '.' hdot) (by decide)
  | @fraction whole digits hwhole h =>
    refine ⟨⟨true, whole.length, digits.length⟩, iff_of_true rfl (by simp), fun rest => ?_⟩
    rw [List.append_assoc, List.cons_append, scanDecimal_fraction field hwhole h,
      List.length_append, List.length_cons, Nat.add_assoc, Nat.add_comm 1]

/-! ### The verdict on an amount -/

theorem head_ne_dot (h : Digits whole) (rest : Text) : (whole ++ rest).head? ≠ some '.' := by
  intro hdot
  have hhead := h.head rest
  rw [hdot] at hhead
  exact absurd hhead (by decide)

/-- A text that begins like an amount and does not begin with a dot. -/
theorem Begins.head_ne_dot (h : Begins front) (hc : c ≠ '.') :
    (front ++ c :: rest).head? ≠ some '.' := by
  cases h with
  | whole h =>
    cases front with
    | nil => simpa using hc
    | cons d front =>
      have hd : d ≠ '.' := by
        rintro rfl
        exact absurd (h '.' List.mem_cons_self) (by decide)
      simpa using hd
  | fraction hwhole h =>
    rw [List.append_assoc]
    exact Sep31.head_ne_dot hwhole _

theorem Denotes.head_ne_dot (h : Denotes s q) : s ≠ [] ∧ s.head? ≠ some '.' := by
  cases h with
  | whole h => exact ⟨h.1, by simpa using Sep31.head_ne_dot h []⟩
  | fraction hwhole h => exact ⟨by simp, Sep31.head_ne_dot hwhole _⟩

/-- The loop gets through an amount, and there are digits wherever they are asked for. -/
theorem Denotes.scan (field : String) (h : Denotes s q) :
    ∃ scan, scanDecimal field ⟨false, 0, 0⟩ 0 s = .ok scan ∧
      scan.digitsBeforeDot ≠ 0 ∧ ¬ (scan.hasDot = true ∧ scan.digitsAfterDot = 0) := by
  cases h with
  | whole h =>
    have hscan : scanDecimal field ⟨false, 0, 0⟩ 0 s = .ok ⟨false, s.length, 0⟩ := by
      rw [← List.append_nil s, scanDecimal_whole field h.2, List.append_nil]
      rfl
    exact ⟨_, hscan, by simpa using h.1, by simp⟩
  | @fraction whole digits hwhole h =>
    have hscan : scanDecimal field ⟨false, 0, 0⟩ 0 (whole ++ '.' :: digits) =
        .ok ⟨true, whole.length, digits.length⟩ := by
      rw [← List.append_nil digits, scanDecimal_fraction field hwhole h.2, List.append_nil]
      rfl
    exact ⟨_, hscan, by simpa using hwhole.1, by simpa using h.1⟩

/-- Behind the first two checks, a text that the loop stops at is rejected with its error. -/
theorem validatePositiveDecimal_of_scan {e : AnchorKitError} (hne : s ≠ [])
    (hhead : s.head? ≠ some '.') (hscan : scanDecimal field ⟨false, 0, 0⟩ 0 s = .error e) :
    validatePositiveDecimal s field = .error e := by
  rw [validatePositiveDecimal, require_bind_of hne, require_bind_of hhead, hscan]
  rfl

theorem Denotes.validate (field : String) (h : Denotes s q) :
    validatePositiveDecimal s field = require (q ≠ 0)
      (.validationError (field ++ " must be greater than zero")) := by
  obtain ⟨hne, hhead⟩ := h.head_ne_dot
  obtain ⟨scan, hscan, hbefore, hafter⟩ := h.scan field
  rw [validatePositiveDecimal, require_bind_of hne, require_bind_of hhead, hscan]
  change (require _ _ >>= _) = _
  rw [require_bind_of hbefore, require_bind_of hafter]
  have hzero : ((s.filter Char.isDigit).all fun c => c = '0') = false ↔ q ≠ 0 := by
    rw [← Bool.not_eq_true, h.eq_zero_iff]
  by_cases hq : q = 0
  · rw [require, require, if_neg (by rw [hzero]; exact not_not.mpr hq),
      if_neg (not_not.mpr hq)]
  · rw [require, require, if_pos (hzero.mpr hq), if_pos hq]

theorem Departs.validate (field : String) (h : Departs s defect) :
    validatePositiveDecimal s field = .error (.validationError (field ++ defect)) := by
  cases h with
  | empty => rfl
  | leadingDot rest => rfl
  | sign rest => rfl
  | @secondDot front rest h hdot =>
    obtain ⟨scan, hscan, hrest⟩ := scanDecimal_begins field h
    refine validatePositiveDecimal_of_scan (by simp) ?_ ?_
    · cases h with
      | whole h => exact absurd (h '.' hdot) (by decide)
      | fraction hwhole h =>
        rw [List.append_assoc]
        exact Sep31.head_ne_dot hwhole _
    · rw [hrest, scanDecimal, if_pos rfl, if_pos (hscan.mpr hdot)]
  | @invalid front c rest h hdigit hdot hsign =>
    obtain ⟨scan, hscan, hrest⟩ := scanDecimal_begins field h
    refine validatePositiveDecimal_of_scan (by simp) (h.head_ne_dot hdot) ?_
    have hfront : ¬ (c = '-' ∧ front.length = 0) := by
      rintro ⟨hc, hlength⟩
      exact hsign hc (List.length_eq_zero_iff.mp hlength)
    rw [hrest, scanDecimal, if_neg hdot, if_neg (by simp [hdigit]), if_neg hfront]
  | @trailingDot whole h =>
    have hscan : scanDecimal field ⟨false, 0, 0⟩ 0 (whole ++ ['.']) =
        .ok ⟨true, whole.length, 0⟩ := by
      rw [scanDecimal_whole field h.2, scanDecimal, if_pos rfl, if_neg Bool.false_ne_true]
      rfl
    rw [validatePositiveDecimal, require_bind_of (by simp),
      require_bind_of (Sep31.head_ne_dot h _), hscan]
    change (require _ _ >>= _) = _
    rw [require_bind_of (by simpa using h.1), require_bind_of_not (by simp)]
  | zero h =>
    rw [h.validate field]
    exact if_neg (not_not.mpr rfl)

/-- A text is digits up to the first character that is none. -/
theorem exists_digits (s : Text) : ∃ digits rest, s = digits ++ rest ∧
    (∀ c ∈ digits, c.isDigit = true) ∧ ∀ c ∈ rest.head?, c.isDigit = false := by
  refine ⟨s.takeWhile Char.isDigit, s.dropWhile Char.isDigit, ?_, ?_, ?_⟩
  · exact (List.takeWhile_append_dropWhile).symm
  · exact fun c hc => List.mem_takeWhile_imp hc
  · intro c hc
    have := List.head?_dropWhile_not Char.isDigit s
    rw [hc] at this
    simpa using this

/-- Every text is an amount above zero or departs from the grammar. -/
theorem denotes_or_departs (s : Text) :
    (∃ q, 0 < q ∧ Denotes s q) ∨ ∃ defect, Departs s defect := by
  have hamount {q : ℚ} (h : Denotes s q) :
      (∃ q, 0 < q ∧ Denotes s q) ∨ ∃ defect, Departs s defect := by
    rcases h.nonneg.eq_or_lt with rfl | hpos
    · exact Or.inr ⟨_, .zero h⟩
    · exact Or.inl ⟨q, hpos, h⟩
  obtain ⟨whole, rest, rfl, hwhole, hrest⟩ := exists_digits s
  cases rest with
  | nil =>
    rw [List.append_nil] at hamount ⊢
    by_cases hne : whole = []
    · subst hne
      exact Or.inr ⟨_, .empty⟩
    · exact hamount (.whole ⟨hne, hwhole⟩)
  | cons c rest =>
    have hc : c.isDigit = false := hrest c rfl
    by_cases hdot : c = '.'
    · subst hdot
      by_cases hne : whole = []
      · subst hne
        exact Or.inr ⟨_, .leadingDot rest⟩
      · obtain ⟨digits, rest, rfl, hdigits, hrest⟩ := exists_digits rest
        have hdigit : Digits whole := ⟨hne, hwhole⟩
        cases rest with
        | nil =>
          rw [List.append_nil] at hamount ⊢
          by_cases hfrac : digits = []
          · subst hfrac
            exact Or.inr ⟨_, .trailingDot hdigit⟩
          · exact hamount (.fraction hdigit ⟨hfrac, hdigits⟩)
        | cons d rest =>
          have hfront : Begins (whole ++ '.' :: digits) := .fraction hdigit hdigits
          have hsplit : whole ++ '.' :: (digits ++ d :: rest) =
              (whole ++ '.' :: digits) ++ d :: rest := by simp
          rw [hsplit]
          by_cases hd : d = '.'
          · subst hd
            exact Or.inr ⟨_, .secondDot rest hfront (by simp)⟩
          · exact Or.inr ⟨_, .invalid rest hfront (hrest d rfl) hd (fun _ => by simp)⟩
    · by_cases hsign : c = '-' ∧ whole = []
      · obtain ⟨rfl, rfl⟩ := hsign
        exact Or.inr ⟨_, .sign rest⟩
      · exact Or.inr ⟨_, .invalid rest (.whole hwhole) hc hdot fun hminus hnil =>
          hsign ⟨hminus, hnil⟩⟩

/-- An amount passes when it is a decimal above zero, and otherwise the error names the field and
the first thing that is wrong with it. -/
structure AmountChecked (s : Text) (field : String) : Prop where
  accepts : validatePositiveDecimal s field = .ok () ↔ ∃ q, 0 < q ∧ Denotes s q
  rejects : ∀ e, validatePositiveDecimal s field = .error e ↔
    ∃ defect, Departs s defect ∧ e = .validationError (field ++ defect)

theorem validatePositiveDecimal_of_denotes {s : Text} {q : ℚ} (hpos : 0 < q) (h : Denotes s q)
    (field : String) : validatePositiveDecimal s field = .ok () := by
  rw [h.validate field]
  exact if_pos hpos.ne'

theorem validatePositiveDecimal_eq_ok {s : Text} {field : String} {u : Unit} :
    validatePositiveDecimal s field = .ok u ↔ ∃ q, 0 < q ∧ Denotes s q := by
  constructor
  · intro hok
    rcases denotes_or_departs s with h | ⟨defect, h⟩
    · exact h
    · rw [h.validate field] at hok
      cases hok
  · rintro ⟨q, hpos, h⟩
    exact validatePositiveDecimal_of_denotes hpos h field

theorem amount_checked (s : Text) (field : String) : AmountChecked s field := by
  constructor
  · exact validatePositiveDecimal_eq_ok
  · intro e
    constructor
    · intro herror
      rcases denotes_or_departs s with ⟨q, hpos, h⟩ | ⟨defect, h⟩
      · rw [validatePositiveDecimal_of_denotes hpos h] at herror
        cases herror
      · rw [h.validate field] at herror
        exact ⟨defect, h, (Except.error.inj herror).symm⟩
    · rintro ⟨defect, h, rfl⟩
      exact h.validate field

/-- A dot without a digit before it is reported first. -/
example : validatePositiveDecimal ".5.".toList "amount" =
    .error (.validationError "amount must not start with a decimal point") := by decide

end Amounts

/-! ### Payments -/

/-- `char::is_ascii_graphic` -/
def isAsciiGraphic (c : Char) : Bool := '!' ≤ c && c ≤ '~'

def validateIdempotencyKey (key : Option Text) : Except AnchorKitError Unit :=
  match key with
  | none => .ok ()
  | some k => do
    require (k ≠ []) (.validationError "idempotency key must not be empty")
    require (Text.byteLen k ≤ maxIdempotencyKeyLength)
      (.validationError "idempotency key exceeds maximum length of 64 characters")
    require ((k.all fun c => isAsciiGraphic c || c = ' ') = true)
      (.validationError "idempotency key contains non-printable characters")

def paymentAmount (amount : Option Text) : Except AnchorKitError (Option Text) :=
  match amount with
  | some a => do
    validatePositiveDecimal a "amount"
    return some a
  | none => .ok none

/-- The reserved name is kept in lower case. -/
def normalizePaymentAsset (code : Text) : Except AnchorKitError Text :=
  if Text.eqIgnoreAsciiCase (Text.trimMatches isWhitespace code) "native".toList then
    .ok "native".toList
  else normalizeAssetCode code

def initiateSep31Payment (raw : RawSep31PaymentResponse) :
    Except AnchorKitError Sep31PaymentResponse := do
  require (Text.trimMatches isWhitespace raw.id ≠ []) .invalidTransactionIntent
  require (Text.byteLen raw.id ≤ maxIdLength)
    (.validationError "id exceeds maximum length of 64 characters")
  require (Text.trimMatches isWhitespace raw.sender ≠ []) .invalidTransactionIntent
  validateStellarAccountId raw.stellarAccountId
  validateMemoPair raw.stellarMemo raw.stellarMemoType
  validateMemoLength raw.stellarMemo
  let amount ← paymentAmount raw.amount
  let assetCode ← transpose (raw.assetCode.map normalizePaymentAsset)
  validateIdempotencyKey raw.idempotencyKey
  return {
    id := raw.id, stellarAccountId := raw.stellarAccountId, sender := raw.sender,
    stellarMemo := raw.stellarMemo, stellarMemoType := raw.stellarMemoType,
    amount, assetCode, idempotencyKey := raw.idempotencyKey }

/-! ### Well-formed responses -/

def IsNative (code : Text) : Prop :=
  Text.eqIgnoreAsciiCase (Text.trimMatches isWhitespace code) "native".toList = true

instance (code : Text) : Decidable (IsNative code) := inferInstanceAs (Decidable (_ = _))

def paymentAsset (code : Text) : Text :=
  if IsNative code then "native".toList else assetCode code

/-- A memo is short and says what kind of memo it is. -/
structure MemoAllowed (memo : Text) (memoType : Option Text) : Prop where
  length : Text.byteLen memo ≤ 256
  typed : ∃ mt, memoType = some mt ∧ validMemoTypes.contains mt = true

/-- Printable ASCII, of one character at least. -/
structure KeyAllowed (key : Text) : Prop where
  nonempty : key ≠ []
  length : Text.byteLen key ≤ 64
  printable : ∀ c ∈ key, 0x20 ≤ c.toNat ∧ c.toNat ≤ 0x7e

structure RawSep31PaymentResponse.WellFormed (raw : RawSep31PaymentResponse) : Prop where
  id : Text.trimMatches isWhitespace raw.id ≠ []
  idLength : Text.byteLen raw.id ≤ 64
  sender : Text.trimMatches isWhitespace raw.sender ≠ []
  account : ∃ key, Encodes raw.stellarAccountId key
  memo : ∀ m ∈ raw.stellarMemo, MemoAllowed m raw.stellarMemoType
  amount : ∀ a ∈ raw.amount, ∃ q, 0 < q ∧ Denotes a q
  asset : ∀ code ∈ raw.assetCode, IsNative code ∨ ValidAssetCode code
  key : ∀ k ∈ raw.idempotencyKey, KeyAllowed k

def RawSep31PaymentResponse.kept (raw : RawSep31PaymentResponse) : Sep31PaymentResponse where
  id := raw.id
  stellarAccountId := raw.stellarAccountId
  sender := raw.sender
  stellarMemo := raw.stellarMemo
  stellarMemoType := raw.stellarMemoType
  amount := raw.amount
  assetCode := raw.assetCode.map paymentAsset
  idempotencyKey := raw.idempotencyKey

def Sep31PaymentResponse.toRaw (response : Sep31PaymentResponse) : RawSep31PaymentResponse where
  id := response.id
  stellarAccountId := response.stellarAccountId
  sender := response.sender
  stellarMemo := response.stellarMemo
  stellarMemoType := response.stellarMemoType
  amount := response.amount
  assetCode := response.assetCode
  idempotencyKey := response.idempotencyKey

/-- Exactly the well-formed responses pass. They are kept as they are but for the spelling of the
asset, and what was kept passes unchanged. -/
structure PaymentChecked (raw : RawSep31PaymentResponse) : Prop where
  accepts : ∀ response, initiateSep31Payment raw = .ok response ↔
    raw.WellFormed ∧ response = raw.kept
  again : ∀ response, initiateSep31Payment raw = .ok response →
    initiateSep31Payment response.toRaw = .ok response

section Payments

variable {raw : RawSep31PaymentResponse} {memo memoType amount asset key : Option Text}
  {code c : Text}

theorem validateMemo_eq_ok {u v : Unit} :
    validateMemoPair memo memoType = .ok u ∧ validateMemoLength memo = .ok v ↔
      ∀ m ∈ memo, MemoAllowed m memoType := by
  rw [validateMemoLength, require_eq_ok]
  cases memo with
  | none => simp [validateMemoPair]
  | some m =>
    have hpair : validateMemoPair (some m) memoType = .ok u ↔
        ∃ mt, memoType = some mt ∧ validMemoTypes.contains mt = true := by
      cases memoType with
      | none => simp [validateMemoPair]
      | some mt =>
        have hset : (some m).isSome = true := rfl
        rw [validateMemoPair, if_pos hset, require_eq_ok]
        simp
    rw [hpair]
    constructor
    · rintro ⟨htyped, hlength⟩ m' hm
      obtain rfl := Option.some.inj hm
      exact ⟨hlength m rfl, htyped⟩
    · intro h
      obtain ⟨hlength, htyped⟩ := h m rfl
      refine ⟨htyped, fun m' hm => ?_⟩
      obtain rfl := Option.some.inj hm
      exact hlength

theorem isAsciiGraphic_or_space (c : Char) :
    (isAsciiGraphic c || decide (c = ' ')) = true ↔ 0x20 ≤ c.toNat ∧ c.toNat ≤ 0x7e := by
  have hgraphic : isAsciiGraphic c = true ↔ 0x21 ≤ c.toNat ∧ c.toNat ≤ 0x7e := by
    rw [isAsciiGraphic, Bool.and_eq_true, decide_eq_true_iff, decide_eq_true_iff]
    exact Iff.rfl
  have hspace : c = ' ' ↔ c.toNat = 0x20 := Char.toNat_inj.symm
  rw [Bool.or_eq_true, hgraphic, decide_eq_true_iff, hspace]
  omega

theorem validateIdempotencyKey_eq_ok {u : Unit} :
    validateIdempotencyKey key = .ok u ↔ ∀ k ∈ key, KeyAllowed k := by
  cases key with
  | none => simp [validateIdempotencyKey]
  | some k =>
    simp only [validateIdempotencyKey, require_bind_eq_ok, require_eq_ok, List.all_eq_true,
      isAsciiGraphic_or_space]
    constructor
    · rintro ⟨hnonempty, hlength, hprintable⟩ k' hk
      obtain rfl := Option.some.inj hk
      exact ⟨hnonempty, hlength, hprintable⟩
    · intro h
      obtain ⟨hnonempty, hlength, hprintable⟩ := h k rfl
      exact ⟨hnonempty, hlength, hprintable⟩

theorem paymentAmount_eq_ok : paymentAmount amount = .ok key ↔
    (∀ a ∈ amount, ∃ q, 0 < q ∧ Denotes a q) ∧ key = amount := by
  cases amount with
  | none => simp [paymentAmount, eq_comm]
  | some a =>
    simp only [paymentAmount, bind_eq_ok, validatePositiveDecimal_eq_ok, pure_eq_ok,
      Option.mem_some_iff, forall_eq']
    constructor
    · rintro ⟨_, hamount, rfl⟩
      exact ⟨hamount, rfl⟩
    · rintro ⟨hamount, rfl⟩
      exact ⟨(), hamount, rfl⟩

theorem normalizePaymentAsset_eq_ok : normalizePaymentAsset code = .ok c ↔
    (IsNative code ∨ ValidAssetCode code) ∧ c = paymentAsset code := by
  have hnormalize : normalizePaymentAsset code =
      if IsNative code then .ok "native".toList else normalizeAssetCode code := rfl
  rw [hnormalize, paymentAsset]
  by_cases h : IsNative code
  · rw [if_pos h, if_pos h, Except.ok.injEq]
    simp [h, eq_comm]
  · rw [if_neg h, if_neg h, Sep38.normalizeAssetCode_eq_ok]
    simp [h, eq_comm]

theorem transpose_eq_ok : transpose (asset.map normalizePaymentAsset) = .ok key ↔
    (∀ code ∈ asset, IsNative code ∨ ValidAssetCode code) ∧ key = asset.map paymentAsset :=
  transpose_map_eq_ok fun _ _ => normalizePaymentAsset_eq_ok

theorem initiateSep31Payment_eq_ok {response : Sep31PaymentResponse} :
    initiateSep31Payment raw = .ok response ↔ raw.WellFormed ∧ response = raw.kept := by
  have haccount : validateStellarAccountId raw.stellarAccountId = .ok () ↔
      ∃ key, Encodes raw.stellarAccountId key := by
    simp only [validateStellarAccountId, bind_eq_ok, normalizeStellarAccountId_eq_ok, pure_eq_ok]
    constructor
    · rintro ⟨_, ⟨key, hkey, _⟩, _⟩
      exact ⟨key, hkey⟩
    · rintro ⟨key, hkey⟩
      exact ⟨_, ⟨key, hkey, rfl⟩, trivial⟩
  simp only [initiateSep31Payment, bind_eq_ok, require_eq_ok, paymentAmount_eq_ok,
    transpose_eq_ok, validateIdempotencyKey_eq_ok, pure_eq_ok]
  constructor
  · rintro ⟨_, hid, _, hidLength, _, hsender, _, hkey, _, hpair, _, hlength, _, ⟨hamount, rfl⟩, _,
      ⟨hasset, rfl⟩, _, hidempotency, rfl⟩
    exact ⟨⟨hid, hidLength, hsender, haccount.mp hkey, validateMemo_eq_ok.mp ⟨hpair, hlength⟩,
      hamount, hasset, hidempotency⟩, rfl⟩
  · rintro ⟨h, rfl⟩
    obtain ⟨hpair, hlength⟩ := validateMemo_eq_ok.mpr h.memo
    exact ⟨(), h.id, (), h.idLength, (), h.sender, (), haccount.mpr h.account, (), hpair, (),
      hlength, _, ⟨h.amount, rfl⟩, _, ⟨h.asset, rfl⟩, (), h.key, rfl⟩

/-- What is kept of an asset is itself an asset, in the spelling that is kept. -/
theorem paymentAsset_again (h : IsNative code ∨ ValidAssetCode code) :
    (IsNative (paymentAsset code) ∨ ValidAssetCode (paymentAsset code)) ∧
      paymentAsset (paymentAsset code) = paymentAsset code := by
  have hnative : IsNative "native".toList := by decide
  by_cases hcode : IsNative code
  · rw [paymentAsset, if_pos hcode]
    exact ⟨Or.inl hnative, if_pos hnative⟩
  · have hvalid := h.resolve_left hcode
    obtain ⟨htrim, hagain, hsame⟩ := Sep6.assetCode_again hvalid
    have hother : ¬ IsNative (assetCode code) := by
      unfold IsNative at hcode ⊢
      rwa [htrim, Text.eqIgnoreAsciiCase_iff, assetCode, ← Text.asciiUpper_eq_iff,
        Text.asciiUpper_asciiUpper, Text.asciiUpper_eq_iff, ← Text.eqIgnoreAsciiCase_iff]
    rw [paymentAsset, if_neg hcode]
    refine ⟨Or.inr hagain, ?_⟩
    rw [paymentAsset, if_neg hother, hsame]

theorem RawSep31PaymentResponse.WellFormed.again (h : raw.WellFormed) :
    raw.kept.toRaw.WellFormed ∧ raw.kept.toRaw.kept = raw.kept := by
  have hasset : ∀ code ∈ raw.assetCode,
      (IsNative (paymentAsset code) ∨ ValidAssetCode (paymentAsset code)) ∧
        paymentAsset (paymentAsset code) = paymentAsset code :=
    fun code hcode => paymentAsset_again (h.asset code hcode)
  constructor
  · refine ⟨h.id, h.idLength, h.sender, h.account, h.memo, h.amount, ?_, h.key⟩
    intro code hcode
    obtain ⟨code', hcode', rfl⟩ := Option.map_eq_some_iff.mp hcode
    exact (hasset code' hcode').1
  · have hkept : (raw.assetCode.map paymentAsset).map paymentAsset =
        raw.assetCode.map paymentAsset := by
      rw [Option.map_map]
      exact Option.map_congr fun code hcode => (hasset code hcode).2
    exact congrArg (fun code => { raw.kept with assetCode := code }) hkept

theorem payment_checked (raw : RawSep31PaymentResponse) : PaymentChecked raw where
  accepts _ := initiateSep31Payment_eq_ok
  again response h := by
    obtain ⟨hformed, rfl⟩ := initiateSep31Payment_eq_ok.mp h
    obtain ⟨hagain, hkept⟩ := hformed.again
    exact initiateSep31Payment_eq_ok.mpr ⟨hagain, hkept.symm⟩

end Payments

end Sep31

end AnchorKit
