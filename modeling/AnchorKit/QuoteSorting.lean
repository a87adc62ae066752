import AnchorKit.FirmQuotes
import AnchorKit.Library.StableSort
import Mathlib.Data.Rat.Lemmas
import Mathlib.Algebra.Order.Ring.Unbundled.Rat
import Mathlib.Order.Basic
import Std.Data.TreeMap.Lemmas

/-!
# Sorting quotes

Quotes are sorted by one criterion, and by their identifiers where it ties. Prices are compared by
their floating-point values, of which only the order matters.
-/

namespace AnchorKit

namespace Sep38

inductive QuoteSortOrder
  | expiresAtAsc
  | expiresAtDesc
  | priceAsc
  | priceDesc
  | idAsc
deriving DecidableEq, Repr

section Model

variable {F : Type} [LinearOrder F] (parseF64 : Text → Option F) (f64Max zero : F)

def comparePrimary (order : QuoteSortOrder) (a b : FirmQuote) : Ordering :=
  match order with
  | .expiresAtAsc => compare a.expiresAt b.expiresAt
  | .expiresAtDesc => compare b.expiresAt a.expiresAt
  | .priceAsc =>
    let pa := (parseF64 a.price).getD f64Max
    let pb := (parseF64 b.price).getD f64Max
    compare pa pb
  | .priceDesc =>
    let pa := (parseF64 a.price).getD zero
    let pb := (parseF64 b.price).getD zero
    compare pb pa
  | .idAsc => compare a.id b.id

def compareQuotes (order : QuoteSortOrder) (a b : FirmQuote) : Ordering :=
  let primary := comparePrimary parseF64 f64Max zero order a b
  if primary = .eq ∧ order ≠ .idAsc then compare a.id b.id else primary

def sortQuotes (quotes : List FirmQuote) (order : QuoteSortOrder) : List FirmQuote :=
  StableSort.sortBy (compareQuotes parseF64 f64Max zero order) quotes

end Model

/-! ### The order that is promised -/

def FirmQuote.Validated (q : FirmQuote) : Prop := ∃ raw now, requestFirmQuote raw now = .ok q

theorem FirmQuote.Validated.price {q : FirmQuote} (h : q.Validated) :
    isValidPositiveDecimal q.price = true := by
  obtain ⟨raw, now, hq⟩ := h
  obtain ⟨hvalid, t, _, _, _, rfl⟩ := requestFirmQuote_eq_ok.mp hq
  exact hvalid.price

def IdLE (a b : FirmQuote) : Prop := compare a.id b.id ≠ .gt

section Promise

variable {F : Type} [LinearOrder F] (value : Text → F)

def CriterionLE (order : QuoteSortOrder) (a b : FirmQuote) : Prop :=
  match order with
  | .expiresAtAsc => a.expiresAt ≤ b.expiresAt
  | .expiresAtDesc => b.expiresAt ≤ a.expiresAt
  | .priceAsc => value a.price ≤ value b.price
  | .priceDesc => value b.price ≤ value a.price
  | .idAsc => IdLE a b

def InOrder (order : QuoteSortOrder) (a b : FirmQuote) : Prop :=
  CriterionLE value order a b ∧ (CriterionLE value order b a → IdLE a b)

/-- Two quotes that neither the criterion nor the identifier tells apart. -/
def Tied (order : QuoteSortOrder) (a b : FirmQuote) : Prop :=
  CriterionLE value order a b ∧ CriterionLE value order b a ∧ a.id = b.id

end Promise

/-! ### The comparator -/

section Comparator

variable {F : Type} [LinearOrder F] {parseF64 : Text → Option F} {f64Max zero : F}
  {order : QuoteSortOrder} {a b : FirmQuote}

theorem compareQuotes_eq : compareQuotes parseF64 f64Max zero order =
    compareLex (comparePrimary parseF64 f64Max zero order) (compareOn FirmQuote.id) := by
  funext a b
  unfold compareQuotes compareLex compareOn
  dsimp only
  by_cases hid : order = .idAsc
  · subst hid
    rw [if_neg (fun h => h.2 rfl), comparePrimary, Ordering.then_self]
  · cases hprimary : comparePrimary parseF64 f64Max zero order a b with
    | lt => rfl
    | eq =>
      rw [if_pos ⟨rfl, hid⟩]
      rfl
    | gt => rfl

instance : Std.TransCmp (comparePrimary parseF64 f64Max zero order) := by
  cases order with
  | expiresAtAsc => exact inferInstanceAs (Std.TransCmp (compareOn FirmQuote.expiresAt))
  | expiresAtDesc =>
    exact inferInstanceAs (Std.TransCmp fun a b => compareOn FirmQuote.expiresAt b a)
  | priceAsc =>
    exact inferInstanceAs (Std.TransCmp (compareOn fun q : FirmQuote =>
      (parseF64 q.price).getD f64Max))
  | priceDesc =>
    exact inferInstanceAs (Std.TransCmp fun a b => compareOn (fun q : FirmQuote =>
      (parseF64 q.price).getD zero) b a)
  | idAsc => exact inferInstanceAs (Std.TransCmp (compareOn FirmQuote.id))

instance : Std.TransCmp (compareQuotes parseF64 f64Max zero order) := by
  rw [compareQuotes_eq]
  infer_instance

variable {value : Text → F}

theorem comparePrimary_ne_gt (f64Max zero : F) (ha : parseF64 a.price = some (value a.price))
    (hb : parseF64 b.price = some (value b.price)) :
    comparePrimary parseF64 f64Max zero order a b ≠ .gt ↔ CriterionLE value order a b := by
  cases order with
  | expiresAtAsc => exact Ordering.isLE_iff_ne_gt.symm.trans Std.isLE_compare
  | expiresAtDesc => exact Ordering.isLE_iff_ne_gt.symm.trans Std.isLE_compare
  | priceAsc =>
    rw [comparePrimary, ha, hb]
    exact compare_le_iff_le
  | priceDesc =>
    rw [comparePrimary, ha, hb]
    exact compare_le_iff_le
  | idAsc => rfl

theorem comparePrimary_eq_eq (ha : parseF64 a.price = some (value a.price))
    (hb : parseF64 b.price = some (value b.price)) :
    comparePrimary parseF64 f64Max zero order a b = .eq ↔
      CriterionLE value order a b ∧ CriterionLE value order b a := by
  have hswap : comparePrimary parseF64 f64Max zero order b a =
      (comparePrimary parseF64 f64Max zero order a b).swap := Std.OrientedCmp.eq_swap
  rw [← comparePrimary_ne_gt f64Max zero ha hb, ← comparePrimary_ne_gt f64Max zero hb ha, hswap]
  cases comparePrimary parseF64 f64Max zero order a b with
  | lt => simp
  | eq => simp
  | gt => simp

/-- The comparator orders two quotes by the criterion, then by their identifiers. -/
theorem compareQuotes_ne_gt (ha : parseF64 a.price = some (value a.price))
    (hb : parseF64 b.price = some (value b.price)) :
    compareQuotes parseF64 f64Max zero order a b ≠ .gt ↔ InOrder value order a b := by
  have hswap : comparePrimary parseF64 f64Max zero order b a =
      (comparePrimary parseF64 f64Max zero order a b).swap := Std.OrientedCmp.eq_swap
  rw [compareQuotes_eq, InOrder, ← comparePrimary_ne_gt f64Max zero ha hb,
    ← comparePrimary_ne_gt f64Max zero hb ha, hswap, IdLE]
  change (Ordering.then _ (compare a.id b.id)) ≠ .gt ↔ _
  cases comparePrimary parseF64 f64Max zero order a b with
  | lt => simp [Ordering.then]
  | eq => simp [Ordering.then]
  | gt => simp [Ordering.then]

theorem compareQuotes_eq_eq (ha : parseF64 a.price = some (value a.price))
    (hb : parseF64 b.price = some (value b.price)) :
    compareQuotes parseF64 f64Max zero order a b = .eq ↔ Tied value order a b := by
  rw [compareQuotes_eq, Tied, ← and_assoc, ← comparePrimary_eq_eq ha hb]
  change (Ordering.then _ (compare a.id b.id)) = .eq ↔ _
  rw [Ordering.then_eq_eq, Std.LawfulEqOrd.compare_eq_iff_eq]

end Comparator

section Sorting

variable {F : Type} [LinearOrder F] {parseF64 : Text → Option F} {f64Max zero : F}
  {value : Text → F} {quotes : List FirmQuote} {order : QuoteSortOrder}

/-- Sorting validated quotes gives the promised order, and one result for all orders of the input
exactly when no two different quotes tie in the criterion and the identifier. -/
theorem sortQuotes_sorts_iff
    (hparse : ∀ s, isValidPositiveDecimal s = true → parseF64 s = some (value s))
    (hvalidated : ∀ q ∈ quotes, q.Validated) :
    ((sortQuotes parseF64 f64Max zero quotes order).Perm quotes ∧
      (sortQuotes parseF64 f64Max zero quotes order).Pairwise (InOrder value order) ∧
      ∀ other : List FirmQuote, other.Perm quotes →
        sortQuotes parseF64 f64Max zero other order =
          sortQuotes parseF64 f64Max zero quotes order) ↔
      ∀ a ∈ quotes, ∀ b ∈ quotes, Tied value order a b → a = b := by
  have hprice {q : FirmQuote} (hq : q ∈ quotes) : parseF64 q.price = some (value q.price) :=
    hparse q.price (hvalidated q hq).price
  have hperm : (sortQuotes parseF64 f64Max zero quotes order).Perm quotes :=
    StableSort.sortBy_perm _ quotes
  have hsorted : (sortQuotes parseF64 f64Max zero quotes order).Pairwise (InOrder value order) := by
    refine List.Pairwise.imp_of_mem (fun ha hb h => ?_) (StableSort.pairwise_sortBy quotes)
    exact (compareQuotes_ne_gt (hprice (hperm.mem_iff.mp ha)) (hprice (hperm.mem_iff.mp hb))).mp h
  have hties : (∀ a ∈ quotes, ∀ b ∈ quotes,
      compareQuotes parseF64 f64Max zero order a b = .eq → a = b) ↔
      ∀ a ∈ quotes, ∀ b ∈ quotes, Tied value order a b → a = b := by
    refine forall₂_congr fun a ha => forall₂_congr fun b hb => ?_
    rw [compareQuotes_eq_eq (hprice ha) (hprice hb)]
  rw [← hties, ← StableSort.sortBy_congr_iff]
  constructor
  · intro ⟨_, _, hsame⟩
    exact hsame
  · intro hsame
    exact ⟨hperm, hsorted, hsame⟩

end Sorting

def decimalRat (s : Text) : ℚ :=
  match Text.cutAt ['.'] s with
  | some (whole, fraction) =>
    (Text.decimalValue (whole ++ fraction) : ℚ) / (10 ^ fraction.length : ℕ)
  | none => Text.decimalValue s

def parseRat (s : Text) : Option ℚ :=
  if isValidPositiveDecimal s then some (decimalRat s) else none

def maxRat : ℚ := 2 ^ 1024 - 2 ^ 971

def rawSale (id sellAmount : String) : RawFirmQuote :=
  { exampleQuote "1700000000" with id := id.toList, sellAmount := sellAmount.toList }

def saleOf (id sellAmount : String) : FirmQuote := (rawSale id sellAmount).toFirm 1700000000

/-- Two quotes under one identifier come back in the order in which they were given. -/
theorem sortQuotes_keeps_input_order :
    (∀ q ∈ [saleOf "q-1" "1000", saleOf "q-1" "2000"], q.Validated) ∧
      [saleOf "q-1" "2000", saleOf "q-1" "1000"].Perm
        [saleOf "q-1" "1000", saleOf "q-1" "2000"] ∧
      sortQuotes parseRat maxRat 0 [saleOf "q-1" "1000", saleOf "q-1" "2000"] .priceAsc ≠
        sortQuotes parseRat maxRat 0 [saleOf "q-1" "2000", saleOf "q-1" "1000"] .priceAsc := by
  refine ⟨?_, List.Perm.swap _ _ _, ?_⟩
  · intro q hq
    rcases List.mem_pair.mp hq with rfl | rfl
    · exact ⟨rawSale "q-1" "1000", 1690000000, by decide +kernel⟩
    · exact ⟨rawSale "q-1" "2000", 1690000000, by decide +kernel⟩
  · have hties : ∀ amount ∈ ["1000", "2000"], ∀ amount' ∈ ["1000", "2000"],
        compareQuotes parseRat maxRat 0 .priceAsc (saleOf "q-1" amount) (saleOf "q-1" amount') ≠
          .gt := by
      decide +kernel
    rw [sortQuotes, sortQuotes, StableSort.sortBy_of_pairwise, StableSort.sortBy_of_pairwise]
    · decide +kernel
    · exact List.pairwise_pair.mpr (hties "2000" (by simp) "1000" (by simp))
    · exact List.pairwise_pair.mpr (hties "1000" (by simp) "2000" (by simp))

theorem sortQuotes_sorts_two_quotes :
    sortQuotes parseRat maxRat 0 [saleOf "q-2" "2000", saleOf "q-1" "1000"] .priceAsc =
      sortQuotes parseRat maxRat 0 [saleOf "q-1" "1000", saleOf "q-2" "2000"] .priceAsc := by
  have hparse : ∀ s, isValidPositiveDecimal s = true → parseRat s = some (decimalRat s) :=
    fun _ hs => if_pos hs
  refine ((sortQuotes_sorts_iff hparse ?_).mpr ?_).2.2 _ (List.Perm.swap _ _ _)
  · intro q hq
    rcases List.mem_pair.mp hq with rfl | rfl
    · exact ⟨rawSale "q-1" "1000", 1690000000, by decide +kernel⟩
    · exact ⟨rawSale "q-2" "2000", 1690000000, by decide +kernel⟩
  · intro a ha b hb htied
    rcases List.mem_pair.mp ha with rfl | rfl <;> rcases List.mem_pair.mp hb with rfl | rfl
    · rfl
    · exact absurd htied.2.2 (by decide)
    · exact absurd htied.2.2 (by decide)
    · rfl

end Sep38

end AnchorKit
