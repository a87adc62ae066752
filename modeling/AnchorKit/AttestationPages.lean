import AnchorKit.AttestationInvariants
import AnchorKit.Library.Paging
import AnchorKit.Library.StableSort

/-!
# Reading the attestations page by page

A page skips as many matching records as its offset says and goes over the whole list for it. The
offset it hands out counts matching records too, so the pages are consecutive pieces of the list
of all matching records.
-/

namespace AnchorKit

open Fallible

/-- What a reader asks for; an absent field asks for nothing. -/
structure AttestationFilter where
  issuer : Option Address
  subject : Option Address
  fromTimestamp : Option UInt64
  toTimestamp : Option UInt64
  minId : Option UInt64
deriving DecidableEq, Repr

structure AttestationPage where
  records : List Attestation
  nextOffset : UInt64
  total : UInt64
deriving DecidableEq, Repr

/-- The test that comes before the record is loaded. -/
def AttestationFilter.skipsId (f : AttestationFilter) (id : UInt64) : Bool :=
  f.minId.any fun minId => id < minId

def AttestationFilter.skips (f : AttestationFilter) (record : Attestation) : Bool :=
  (f.issuer.any fun issuer => record.issuer ≠ issuer) ||
    (f.subject.any fun subject => record.subject ≠ subject) ||
    (f.fromTimestamp.any fun fromTs => record.timestamp < fromTs) ||
    (f.toTimestamp.any fun toTs => toTs < record.timestamp)

/-- The record under an id of the list, unless the filter skips it. -/
def matchAt (st : AttestationStore) (filter : Option AttestationFilter) (id : UInt64) :
    Option Attestation :=
  if filter.any (·.skipsId id) then none
  else
    match st.record.get id with
    | none => none
    | some record => if filter.any (·.skips record) then none else some record

/-- The loop over the ids. The count of skipped records stays below the offset when it grows. -/
def pageLoop (st : AttestationStore) (filter : Option AttestationFilter)
    (offset effectiveLimit total : UInt64) (records : List Attestation) (skipped : UInt64) :
    List UInt64 → List Attestation × UInt64
  | [] => (records, total)
  | id :: ids =>
    match matchAt st filter id with
    | none => pageLoop st filter offset effectiveLimit total records skipped ids
    | some record =>
      if skipped < offset then
        pageLoop st filter offset effectiveLimit total records (skipped + 1) ids
      else if effectiveLimit ≤ UInt64.ofNat records.length then
        (records, Word.saturatingAdd64 offset effectiveLimit)
      else pageLoop st filter offset effectiveLimit total (records ++ [record]) skipped ids

def getAttestationsPaginated (st : AttestationStore) (offset limit : UInt64)
    (filter : Option AttestationFilter) : Except Panic AttestationPage := do
  require (limit ≠ 0) (.withError .validationError)
  let effectiveLimit := min limit 50
  let total := UInt64.ofNat st.index.length
  if total ≤ offset then
    return { records := [], nextOffset := total, total }
  let (records, nextOffset) := pageLoop st filter offset effectiveLimit total [] 0 st.index
  return { records, nextOffset, total }

def AttestationPage.following (page : AttestationPage) : Option UInt64 :=
  if page.total ≤ page.nextOffset then none else some page.nextOffset

/-- Read the page at an offset and all that follow it, `fuel` pages at most. -/
def readPages (st : AttestationStore) (limit : UInt64) (filter : Option AttestationFilter)
    (fuel : ℕ) (offset : UInt64) : Option (List AttestationPage) :=
  Paging.follow (fun offset => (getAttestationsPaginated st offset limit filter).toOption)
    AttestationPage.following fuel offset

def matching (st : AttestationStore) (filter : Option AttestationFilter) : List Attestation :=
  st.index.filterMap (matchAt st filter)

section Pages

variable {st : AttestationStore} {filter : Option AttestationFilter}
  {offset effectiveLimit total limit skipped : UInt64} {records : List Attestation}
  {ids : List UInt64}

/-- The loop leaves out what is still to be skipped, takes what still fits, and hands out the next
offset when more is left. -/
theorem pageLoop_eq (hskipped : skipped ≤ offset) (hlimit : effectiveLimit.toNat ≤ 50)
    (hrecords : records.length ≤ effectiveLimit.toNat) :
    pageLoop st filter offset effectiveLimit total records skipped ids =
      let rest := (ids.filterMap (matchAt st filter)).drop (offset.toNat - skipped.toNat)
      let room := effectiveLimit.toNat - records.length
      (records ++ rest.take room,
        if room < rest.length then Word.saturatingAdd64 offset effectiveLimit else total) := by
  induction ids generalizing records skipped with
  | nil => simp [pageLoop]
  | cons id ids ih =>
    rw [pageLoop]
    cases hmatch : matchAt st filter id with
    | none =>
      rw [List.filterMap_cons_none hmatch]
      exact ih hskipped hrecords
    | some record =>
      rw [List.filterMap_cons_some hmatch]
      dsimp only
      split
      · -- the record is one of those to be skipped
        rename_i hskip
        rw [UInt64.lt_iff_toNat_lt] at hskip
        have hnext : (skipped + 1).toNat = skipped.toNat + 1 := by
          have hoffset := offset.toNat_lt
          rw [UInt64.toNat_add, UInt64.toNat_one, Nat.mod_eq_of_lt (by omega)]
        have hdrop : offset.toNat - skipped.toNat = offset.toNat - (skipped + 1).toNat + 1 := by
          omega
        rw [ih (UInt64.le_iff_toNat_le.mpr (by omega)) hrecords, hdrop, List.drop_succ_cons]
      · rename_i hfound
        have hreached : offset.toNat - skipped.toNat = 0 := by
          rw [UInt64.lt_iff_toNat_lt] at hfound
          omega
        have hlength : (UInt64.ofNat records.length).toNat = records.length :=
          Word.toNat_ofNat64 (by omega)
        rw [hreached, List.drop_zero]
        split
        · -- the page is full
          rename_i hfull
          rw [UInt64.le_iff_toNat_le, hlength] at hfull
          have hroom : effectiveLimit.toNat - records.length = 0 := by omega
          rw [hroom, List.take_zero, List.append_nil, if_pos (by simp)]
        · rename_i hfits
          rw [UInt64.le_iff_toNat_le, hlength] at hfits
          have hroom : effectiveLimit.toNat - records.length =
              effectiveLimit.toNat - (records ++ [record]).length + 1 := by
            rw [List.length_append, List.length_singleton]
            omega
          have hnext : (records ++ [record]).length ≤ effectiveLimit.toNat := by
            rw [List.length_append, List.length_singleton]
            omega
          rw [ih hskipped hnext, hreached, List.drop_zero, hroom]
          simp only [List.take_succ_cons, List.append_assoc, List.singleton_append,
            List.length_cons, Nat.add_lt_add_iff_right]

theorem length_matching_le (st : AttestationStore) (filter : Option AttestationFilter) :
    (matching st filter).length ≤ st.index.length :=
  List.length_filterMap_le _ _

theorem toNat_pageLimit (limit : UInt64) : (min limit 50).toNat = min limit.toNat 50 :=
  Word.toNat_min64 limit 50

/-- What a page holds, and where it says to go on. -/
theorem getAttestationsPaginated_eq (offset : UInt64) (filter : Option AttestationFilter)
    (hlimit : limit ≠ 0) (hindex : st.index.length < 2 ^ 64) :
    ∃ page, getAttestationsPaginated st offset limit filter = .ok page ∧
      page.records = ((matching st filter).drop offset.toNat).take (min limit.toNat 50) ∧
      page.total = UInt64.ofNat st.index.length ∧
      page.nextOffset =
        if min limit.toNat 50 < (matching st filter).length - offset.toNat
        then Word.saturatingAdd64 offset (min limit 50) else page.total := by
  have hlength := length_matching_le st filter
  have htotal := Word.toNat_ofNat64 hindex
  have heffective := toNat_pageLimit limit
  have hzero : (0 : UInt64).toNat = 0 := UInt64.toNat_zero
  simp only [getAttestationsPaginated, require_bind_eq_ok, hlimit, ne_eq, not_false_eq_true,
    true_and]
  by_cases hbeyond : UInt64.ofNat st.index.length ≤ offset
  · rw [if_pos hbeyond]
    rw [UInt64.le_iff_toNat_le, htotal] at hbeyond
    refine ⟨_, rfl, ?_, rfl, ?_⟩
    · rw [List.drop_eq_nil_of_le (hlength.trans hbeyond), List.take_nil]
    · rw [if_neg (by omega)]
  · rw [if_neg hbeyond, pageLoop_eq (UInt64.le_iff_toNat_le.mpr (by omega)) (by omega) (by simp)]
    refine ⟨_, rfl, ?_, rfl, ?_⟩
    · simp only [List.nil_append, List.length_nil, Nat.sub_zero, heffective, hzero]
      rfl
    · simp only [List.length_nil, Nat.sub_zero, List.length_drop, heffective, hzero]
      rfl

theorem pages_cut (filter : Option AttestationFilter) (hlimit : limit ≠ 0)
    (hindex : st.index.length < 2 ^ 64) :
    Paging.Cuts (fun offset => (getAttestationsPaginated st offset limit filter).toOption)
      AttestationPage.following AttestationPage.records UInt64.toNat (matching st filter)
      (min limit.toNat 50) where
  limit_pos := by
    have hpos : limit.toNat ≠ 0 := fun h => hlimit (UInt64.toNat_inj.mp h)
    omega
  page := by
    intro offset hoffset
    have hlength := length_matching_le st filter
    obtain ⟨page, hpage, hrecords, htotal, hnext⟩ :=
      getAttestationsPaginated_eq offset filter hlimit hindex
    refine ⟨page, by rw [hpage]; rfl, hrecords, ?_⟩
    have hvalue : (Word.saturatingAdd64 offset (min limit 50)).toNat =
        min (offset.toNat + min limit.toNat 50) (2 ^ 64 - 1) := by
      rw [Word.toNat_saturatingAdd64, toNat_pageLimit]
    have hends : page.total ≤ page.nextOffset ↔ st.index.length ≤ page.nextOffset.toNat := by
      rw [UInt64.le_iff_toNat_le, htotal, Word.toNat_ofNat64 hindex]
    split at hnext
    · rename_i hmore
      have hfollowing : page.following = some page.nextOffset := by
        refine if_neg fun hle => ?_
        rw [hends, hnext, hvalue] at hle
        omega
      rw [hfollowing, hnext]
      refine ⟨nofun, fun later hlater => ?_⟩
      rw [← Option.some.inj hlater, hvalue]
      omega
    · rename_i hlast
      have hfollowing : page.following = none := by
        refine if_pos ?_
        rw [hends, hnext, htotal, Word.toNat_ofNat64 hindex]
      rw [hfollowing]
      exact ⟨fun _ => by omega, nofun⟩

end Pages

structure AttestationFilter.Admits (f : AttestationFilter) (a : Attestation) : Prop where
  issuer : ∀ issuer, f.issuer = some issuer → a.issuer = issuer
  subject : ∀ subject, f.subject = some subject → a.subject = subject
  fromTimestamp : ∀ fromTs, f.fromTimestamp = some fromTs → fromTs ≤ a.timestamp
  toTimestamp : ∀ toTs, f.toTimestamp = some toTs → a.timestamp ≤ toTs
  minId : ∀ minId, f.minId = some minId → minId ≤ a.id

/-- The index lists the ids in ascending order, those of all records among them, and is no longer
than a list can be. An id whose record has expired may still be listed. -/
structure AttestationStore.Catalogued (st : AttestationStore) : Prop where
  ascending : st.index.Pairwise (· < ·)
  listed : ∀ id, st.record.has id = true → id ∈ st.index
  id_eq : ∀ id a, st.record.get id = some a → a.id = id
  length_lt : st.index.length < 2 ^ 64

section Matching

variable {st : AttestationStore} {filter : Option AttestationFilter} {id : UInt64}
  {a b : Attestation}

theorem AttestationFilter.admits_iff {f : AttestationFilter} :
    f.Admits a ↔ f.skipsId a.id = false ∧ f.skips a = false := by
  simp only [skipsId, skips, Bool.or_eq_false_iff, Option.any_eq_false, decide_eq_false_iff_not,
    UInt64.not_lt, ne_eq, not_not]
  constructor
  · intro h
    exact ⟨h.minId, ⟨⟨h.issuer, h.subject⟩, h.fromTimestamp⟩, h.toTimestamp⟩
  · rintro ⟨hmin, ⟨⟨hissuer, hsubject⟩, hfrom⟩, hto⟩
    exact ⟨hissuer, hsubject, hfrom, hto, hmin⟩

theorem matchAt_eq_some (hst : st.Catalogued) : matchAt st filter id = some a ↔
    st.record.get id = some a ∧ ∀ f, filter = some f → f.Admits a := by
  cases hget : st.record.get id with
  | none => simp [matchAt, hget]
  | some record =>
    have hid := hst.id_eq id record hget
    cases filter with
    | none => simp [matchAt, hget]
    | some f =>
      simp only [matchAt, hget, Option.any_some, Option.some.injEq, forall_eq']
      rw [← hid]
      constructor
      · intro h
        split at h
        · cases h
        · split at h
          · cases h
          · obtain rfl := Option.some.inj h
            rename_i hskipsId hskips
            exact ⟨rfl, AttestationFilter.admits_iff.mpr
              ⟨Bool.eq_false_iff.mpr hskipsId, Bool.eq_false_iff.mpr hskips⟩⟩
      · rintro ⟨rfl, hadmits⟩
        obtain ⟨hskipsId, hskips⟩ := AttestationFilter.admits_iff.mp hadmits
        simp [hskipsId, hskips]

theorem id_of_matchAt (hst : st.Catalogued) (h : matchAt st filter id = some a) : a.id = id :=
  hst.id_eq id a ((matchAt_eq_some hst).mp h).1

/-- The matching records come in the order of their ids, each once. -/
theorem pairwise_matching (hst : st.Catalogued) :
    (matching st filter).Pairwise (fun a b => a.id < b.id) := by
  rw [matching, List.pairwise_filterMap]
  refine hst.ascending.imp fun {id later} hlt a ha b hb => ?_
  rw [id_of_matchAt hst ha, id_of_matchAt hst hb]
  exact hlt

theorem mem_matching (hst : st.Catalogued) : a ∈ matching st filter ↔
    st.record.get a.id = some a ∧ ∀ f, filter = some f → f.Admits a := by
  rw [matching, List.mem_filterMap]
  constructor
  · rintro ⟨id, -, hid⟩
    rw [id_of_matchAt hst hid]
    exact (matchAt_eq_some hst).mp hid
  · intro h
    exact ⟨a.id, hst.listed a.id (KeyedStore.has_iff.mpr ⟨a, h.1⟩), (matchAt_eq_some hst).mpr h⟩

end Matching

theorem AttestationStore.WellNumbered.catalogued {st : AttestationStore} (h : st.WellNumbered) :
    st.Catalogued where
  ascending := by
    rw [h.index_eq, List.pairwise_map]
    refine List.pairwise_lt_range.imp_of_mem fun {i j} hi hj hlt => ?_
    have hcounter := st.counter.toNat_lt
    rw [List.mem_range] at hi hj
    rw [UInt64.lt_iff_toNat_lt, Word.toNat_ofNat64 (by omega), Word.toNat_ofNat64 (by omega)]
    exact hlt
  listed := by
    intro id hid
    rw [h.index_eq, List.mem_map]
    exact ⟨id.toNat, List.mem_range.mpr (UInt64.lt_iff_toNat_lt.mp ((h.dense id).mp hid)),
      UInt64.ofNat_toNat⟩
  id_eq := h.id_eq
  length_lt := by
    rw [h.index_eq, List.length_map, List.length_range]
    exact st.counter.toNat_lt

/-- The stores of all runs are catalogued. In each catalogued store, with whatever filter and
positive limit, the pages from offset 0 on come to an end, hold at most 50 records and no more than
the limit each, and list the records that the filter asks for, all of them, by ascending id. -/
theorem pages_list_matches :
    (∀ host is, (run host is).attestations.Catalogued) ∧
    ∀ (st : AttestationStore) (filter : Option AttestationFilter) (limit : UInt64),
      st.Catalogued → limit ≠ 0 →
      ∃ pages, (∀ fuel, pages.length ≤ fuel → readPages st limit filter fuel 0 = some pages) ∧
        (∀ page ∈ pages, page.records.length ≤ min limit.toNat 50) ∧
        (pages.flatMap (·.records)).Pairwise (fun a b => a.id < b.id) ∧
        ∀ a, a ∈ pages.flatMap (·.records) ↔
          st.record.get a.id = some a ∧ ∀ f, filter = some f → f.Admits a := by
  refine ⟨fun host is => (wellNumbered_run host is).catalogued, ?_⟩
  intro st filter limit hst hlimit
  have hstart : (0 : UInt64).toNat ≤ (matching st filter).length := Nat.zero_le _
  obtain ⟨pages, hpages⟩ := (pages_cut filter hlimit hst.length_lt).reads hstart
  have hall : pages.flatMap (·.records) = matching st filter := hpages.flatMap_eq
  refine ⟨pages, hpages.follow_eq, hpages.length_le, ?_⟩
  rw [hall]
  exact ⟨pairwise_matching hst, fun a => mem_matching hst⟩

namespace Demo

def attestedBy (issuer : Address) (id : UInt64) : Attestation :=
  { id, issuer, subject := admin, timestamp := 1000, payloadHash := [1], signature := [2],
    schemaVersion := 1 }

/-- Three listed ids; the record under the middle one has expired. -/
def catalogue : AttestationStore :=
  { counter := 3, record := (KeyedStore.empty.set 0 (attestedBy alice 0)).set 2 (attestedBy bob 2),
    index := [0, 1, 2], used := .empty }

def askingFor (issuer : Address) : AttestationFilter := ⟨some issuer, none, none, none, none⟩

theorem get_catalogue {id : UInt64} {a : Attestation} (h : catalogue.record.get id = some a) :
    id = 2 ∧ a = attestedBy bob 2 ∨ id = 0 ∧ a = attestedBy alice 0 := by
  rcases KeyedStore.get_set_cases h with ⟨rfl, rfl⟩ | h
  · exact Or.inl ⟨rfl, rfl⟩
  · rcases KeyedStore.get_set_cases h with ⟨rfl, rfl⟩ | h
    · exact Or.inr ⟨rfl, rfl⟩
    · cases h

theorem catalogued_catalogue : catalogue.Catalogued where
  ascending := by decide
  listed := by
    intro id hid
    obtain ⟨a, ha⟩ := KeyedStore.has_iff.mp hid
    rcases get_catalogue ha with ⟨rfl, -⟩ | ⟨rfl, -⟩ <;> decide
  id_eq := by
    intro id a ha
    rcases get_catalogue ha with ⟨rfl, rfl⟩ | ⟨rfl, rfl⟩ <;> rfl
  length_lt := by decide

end Demo

/-- Pages of one record each find the attestation of one issuer past an expired record. -/
theorem pages_list_issuer :
    ∃ pages, (∀ fuel, pages.length ≤ fuel →
        readPages Demo.catalogue 1 (some (Demo.askingFor Demo.bob)) fuel 0 = some pages) ∧
      (∀ page ∈ pages, page.records.length ≤ 1) ∧
      Demo.attestedBy Demo.bob 2 ∈ pages.flatMap (·.records) := by
  obtain ⟨pages, hread, hlength, -, hmem⟩ := pages_list_matches.2 Demo.catalogue
    (some (Demo.askingFor Demo.bob)) 1 Demo.catalogued_catalogue (by decide)
  refine ⟨pages, hread, hlength, (hmem _).mpr ⟨rfl, ?_⟩⟩
  rintro f ⟨⟩
  exact AttestationFilter.admits_iff.mpr (by decide)

/-! ### Sorting what was read -/

inductive AttestationSortOrder
  | idAsc
  | idDesc
  | timestampAsc
  | timestampDesc
deriving DecidableEq, Repr

namespace AttestationSortOrder

def primary : AttestationSortOrder → Attestation → Attestation → Ordering
  | idAsc, a, b => compare a.id b.id
  | idDesc, a, b => compare b.id a.id
  | timestampAsc, a, b => compare a.timestamp b.timestamp
  | timestampDesc, a, b => compare b.timestamp a.timestamp

def byTimestamp : AttestationSortOrder → Bool
  | timestampAsc | timestampDesc => true
  | idAsc | idDesc => false

def compareBy (order : AttestationSortOrder) (a b : Attestation) : Ordering :=
  if order.primary a b = .eq ∧ order.byTimestamp = true then compare a.id b.id
  else order.primary a b

/-- One record comes before the other; ties between timestamps go by id. -/
def Before : AttestationSortOrder → Attestation → Attestation → Prop
  | idAsc, a, b => a.id < b.id
  | idDesc, a, b => b.id < a.id
  | timestampAsc, a, b => a.timestamp < b.timestamp ∨ a.timestamp = b.timestamp ∧ a.id < b.id
  | timestampDesc, a, b => b.timestamp < a.timestamp ∨ a.timestamp = b.timestamp ∧ a.id < b.id

end AttestationSortOrder

def sortAttestations (records : List Attestation) (order : AttestationSortOrder) :
    List Attestation :=
  StableSort.sortBy order.compareBy records

/-- However large the pages are and in whatever order they are put together, sorting gives the
one list of the records that the filter asks for. -/
structure SortsPages (st : AttestationStore) (filter : Option AttestationFilter)
    (order : AttestationSortOrder) (sorted : List Attestation) : Prop where
  ordered : sorted.Pairwise order.Before
  mem_iff : ∀ a, a ∈ sorted ↔ st.record.get a.id = some a ∧ ∀ f, filter = some f → f.Admits a
  fetched : ∀ limit, limit ≠ 0 → ∃ pages,
    (∀ fuel, pages.length ≤ fuel → readPages st limit filter fuel 0 = some pages) ∧
      ∀ records, records.Perm (pages.flatMap (·.records)) →
        sortAttestations records order = sorted

section Sorting

variable {order : AttestationSortOrder} {a b : Attestation}

theorem compareBy_timestamp (h : order.byTimestamp = true) :
    order.compareBy = compareLex order.primary (compareOn Attestation.id) := by
  funext a b
  unfold AttestationSortOrder.compareBy compareLex compareOn
  cases hprimary : order.primary a b <;> simp [h]

theorem compareBy_id (h : order.byTimestamp = false) : order.compareBy = order.primary := by
  funext a b
  simp [AttestationSortOrder.compareBy, h]

instance : Std.TransCmp order.primary := by
  cases order with
  | idAsc => exact inferInstanceAs (Std.TransCmp (compareOn Attestation.id))
  | idDesc => exact inferInstanceAs (Std.TransCmp fun a b => compareOn Attestation.id b a)
  | timestampAsc => exact inferInstanceAs (Std.TransCmp (compareOn Attestation.timestamp))
  | timestampDesc =>
    exact inferInstanceAs (Std.TransCmp fun a b => compareOn Attestation.timestamp b a)

instance : Std.TransCmp order.compareBy := by
  cases htime : order.byTimestamp with
  | true =>
    rw [compareBy_timestamp htime]
    infer_instance
  | false =>
    rw [compareBy_id htime]
    infer_instance

theorem compareBy_eq (h : order.compareBy a b = .eq) : a.id = b.id := by
  cases htime : order.byTimestamp with
  | true =>
    rw [compareBy_timestamp htime, compareLex_eq_eq] at h
    exact Std.compare_eq_iff_eq.mp h.2
  | false =>
    rw [compareBy_id htime] at h
    cases order with
    | idAsc => exact Std.compare_eq_iff_eq.mp h
    | idDesc => exact (Std.compare_eq_iff_eq.mp h).symm
    | timestampAsc | timestampDesc => cases htime

theorem before_of_compareBy (h : order.compareBy a b = .lt) : order.Before a b := by
  cases htime : order.byTimestamp with
  | true =>
    rw [compareBy_timestamp htime] at h
    rcases Ordering.then_eq_lt.mp h with hfirst | ⟨htie, hid⟩
    · cases order with
      | timestampAsc => exact Or.inl (Std.compare_eq_lt.mp hfirst)
      | timestampDesc => exact Or.inl (Std.compare_eq_lt.mp hfirst)
      | idAsc | idDesc => cases htime
    · have hid : a.id < b.id := Std.compare_eq_lt.mp hid
      cases order with
      | timestampAsc => exact Or.inr ⟨Std.compare_eq_iff_eq.mp htie, hid⟩
      | timestampDesc => exact Or.inr ⟨(Std.compare_eq_iff_eq.mp htie).symm, hid⟩
      | idAsc | idDesc => cases htime
  | false =>
    rw [compareBy_id htime] at h
    cases order with
    | idAsc => exact Std.compare_eq_lt.mp h
    | idDesc => exact Std.compare_eq_lt.mp h
    | timestampAsc | timestampDesc => cases htime

/-- Records with different ids sort to one list, whatever order they are in. -/
theorem sortAttestations_eq {records others : List Attestation}
    (hids : records.Pairwise fun a b => a.id < b.id) (hperm : others.Perm records) :
    sortAttestations others order = sortAttestations records order := by
  have hnodup : (records.map Attestation.id).Nodup := by
    rw [List.Nodup, List.pairwise_map]
    exact hids.imp fun hlt => UInt64.ne_of_lt hlt
  refine StableSort.sortBy_congr_iff.mpr (fun a ha b hb htie => ?_) others hperm
  exact List.inj_on_of_nodup_map hnodup ha hb (compareBy_eq htie)

theorem pairwise_sortAttestations {records : List Attestation}
    (hids : records.Pairwise fun a b => a.id < b.id) :
    (sortAttestations records order).Pairwise order.Before := by
  have hsorted := @StableSort.pairwise_sortBy _ order.compareBy _ records
  have hnodup : (sortAttestations records order).Pairwise fun a b => a.id ≠ b.id := by
    refine ((StableSort.sortBy_perm order.compareBy records).pairwise_iff fun h => h.symm).mpr ?_
    exact hids.imp fun hlt => UInt64.ne_of_lt hlt
  refine (hsorted.and hnodup).imp fun {a b} h => ?_
  cases hcompare : order.compareBy a b with
  | lt => exact before_of_compareBy hcompare
  | eq => exact absurd (compareBy_eq hcompare) h.2
  | gt => exact absurd hcompare h.1

theorem pages_sort (host : Host) (is : List (Env × Call)) (filter : Option AttestationFilter)
    (order : AttestationSortOrder) :
    ∃ sorted, SortsPages (run host is).attestations filter order sorted := by
  have hst := (wellNumbered_run host is).catalogued
  have hids := @pairwise_matching _ filter hst
  refine ⟨sortAttestations (matching (run host is).attestations filter) order,
    pairwise_sortAttestations hids, fun a => ?_, fun limit hlimit => ?_⟩
  · rw [sortAttestations, StableSort.mem_sortBy, mem_matching hst]
  · have hstart : (0 : UInt64).toNat ≤ (matching (run host is).attestations filter).length :=
      Nat.zero_le _
    obtain ⟨pages, hpages⟩ := (pages_cut filter hlimit hst.length_lt).reads hstart
    refine ⟨pages, hpages.follow_eq, fun records hperm => ?_⟩
    rw [hpages.flatMap_eq] at hperm
    exact sortAttestations_eq hids hperm

end Sorting

end AnchorKit
