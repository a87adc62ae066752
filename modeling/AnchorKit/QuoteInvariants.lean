import AnchorKit.Contract
import AnchorKit.QuoteMigration

/-!
# Invariants of the quote store

Quote ids are handed out in increasing order, and each stored quote is indexed, refers back to
its anchor and carries the key it is stored under. The latest quote of an anchor is one of its
stored quotes.
-/

namespace AnchorKit

def StoredQuote.base : StoredQuote → QuoteV1
  | .legacy quote => quote
  | .current quote => quote.toQuoteV1

def Call.submitsQuote : Call → Bool
  | .submitQuote _ _ | .submitQuoteWithReason _ _ _ | .quoteWithRequestId _ _ _
  | .quoteWithRequestIdAndReason _ _ _ _ => true
  | _ => false

inductive QuoteStep (st : QuoteStore) : Call → QuoteStore → Prop
  | keep {c : Call} {purgeIndex : List UInt64} (hc : c.submitsQuote = false) :
      QuoteStep st c { st with purgeIndex := purgeIndex }
  | submit {c : Call} {quote : Quote} (hc : c.submitsQuote = true)
      (hid : quote.quoteId.toNat = st.count.toNat + 1) (hversion : quote.schemaVersion = schemaV1) :
      QuoteStep st c (st.submit quote)
  | invalidate {anchor : Address} {id : UInt64} (hhas : st.record.has (anchor, id) = true) :
      QuoteStep st (.invalidateQuote anchor id) { st with
        lifecycle := st.lifecycle.set (anchor, id) QuoteLifecycleState.invalidated.toU32 }
  | migrate {version batchSize : UInt32} {ids : List UInt64} :
      QuoteStep st (.migrate version batchSize) (st.upgradeAll ids)

theorem Call.submitsQuote_of_frame {c : Call} (hc : .quotes ∉ c.touches) :
    c.submitsQuote = false := by
  cases c with
  | submitQuote _ _ => exact absurd hc (by simp [Call.touches])
  | submitQuoteWithReason _ _ _ => exact absurd hc (by simp [Call.touches])
  | quoteWithRequestId _ _ _ => exact absurd hc (by simp [Call.touches])
  | quoteWithRequestIdAndReason _ _ _ _ => exact absurd hc (by simp [Call.touches])
  | _ => rfl

theorem quote_step {host : Host} {s s' : Storage} {i : Input} (h : step host s i = .ok s') :
    QuoteStep s.quotes i.2 s'.quotes := by
  obtain ⟨env, c⟩ := i
  change invoke host env s c = .ok s' at h
  by_cases hc : .quotes ∈ c.touches
  · cases c with
    | submitQuote anchor terms =>
      obtain ⟨_, h⟩ := fst_map_eq_ok.mp h
      obtain ⟨_, _, _, _, hid, hversion, _, rfl⟩ := submitQuoteWithReason_effects h
      exact .submit rfl hid hversion
    | submitQuoteWithReason anchor terms reason =>
      obtain ⟨_, h⟩ := fst_map_eq_ok.mp h
      obtain ⟨_, _, _, _, hid, hversion, _, rfl⟩ := submitQuoteWithReason_effects h
      exact .submit rfl hid hversion
    | quoteWithRequestId requestId anchor terms =>
      obtain ⟨_, _, _, _, _, hid, hversion, _, rfl⟩ := quoteWithRequestIdAndReason_effects h
      exact .submit rfl hid hversion
    | quoteWithRequestIdAndReason requestId anchor terms reason =>
      obtain ⟨_, _, _, _, _, hid, hversion, _, rfl⟩ := quoteWithRequestIdAndReason_effects h
      exact .submit rfl hid hversion
    | invalidateQuote anchor id =>
      obtain ⟨hhas, _, rfl⟩ := invalidateQuote_effects h
      exact .invalidate hhas
    | purgeExpiredQuotes =>
      obtain ⟨_, rfl⟩ := purgeExpiredQuotes_effects h
      exact .keep rfl
    | migrate version batchSize =>
      obtain ⟨_, now, _, _, hbatch⟩ := migrate_batch h
      rw [hbatch.quotes_eq]
      exact .migrate
    | _ => exact absurd hc (by simp [Call.touches])
  · rw [(invoke_sameOutside h).quotes_eq hc]
    exact .keep (Call.submitsQuote_of_frame hc)

namespace QuoteStore

structure WellFormed (st : QuoteStore) : Prop where
  own_key : ∀ anchor id stored, st.record.get (anchor, id) = some stored →
    stored.base.anchor = anchor ∧ stored.base.quoteId = id
  listed : ∀ anchor id, st.record.has (anchor, id) = true → id ∈ st.index ∧ st.Refers id anchor
  ascending : st.index.Pairwise (· < ·)
  bounds : ∀ id ∈ st.index, 0 < id ∧ id ≤ st.count
  latest_stored : ∀ anchor id, st.latest.get anchor = some id → st.record.has (anchor, id) = true

variable {st : QuoteStore} {anchor : Address} {id : UInt64}

theorem wellFormed_empty : Storage.empty.quotes.WellFormed where
  own_key := nofun
  listed := nofun
  ascending := List.Pairwise.nil
  bounds := by simp [Storage.empty]
  latest_stored := nofun

theorem WellFormed.le_count (h : st.WellFormed) (hhas : st.record.has (anchor, id) = true) :
    id ≤ st.count := (h.bounds id (h.listed anchor id hhas).1).2

theorem WellFormed.submit (h : st.WellFormed) {quote : Quote}
    (hid : quote.quoteId.toNat = st.count.toNat + 1) : (st.submit quote).WellFormed := by
  -- the new id is above all others
  have hlt (id : UInt64) (hle : id ≤ st.count) : id < quote.quoteId := by
    rw [UInt64.le_iff_toNat_le] at hle
    rw [UInt64.lt_iff_toNat_lt]
    omega
  constructor
  · intro anchor id stored hget
    rcases KeyedStore.get_set_cases hget with ⟨hkey, rfl⟩ | hold
    · obtain ⟨rfl, rfl⟩ := Prod.mk.inj hkey
      exact ⟨rfl, rfl⟩
    · exact h.own_key anchor id stored hold
  · intro anchor id hhas
    change (st.record.set _ _).has (anchor, id) = true at hhas
    rw [KeyedStore.has_set] at hhas
    by_cases hkey : (anchor, id) = (quote.anchor, quote.quoteId)
    · obtain ⟨rfl, rfl⟩ := Prod.mk.inj hkey
      exact ⟨by simp [QuoteStore.submit], KeyedStore.get_set_self _ _ _⟩
    · rw [if_neg hkey] at hhas
      obtain ⟨hmem, href⟩ := h.listed anchor id hhas
      have hne : id ≠ quote.quoteId := by
        rintro rfl
        exact UInt64.lt_irrefl _ (hlt _ (h.bounds _ hmem).2)
      refine ⟨List.mem_append_left _ hmem, ?_⟩
      change (st.anchorRef.set _ _).get id = some anchor
      rw [KeyedStore.get_set_of_ne _ _ hne]
      exact href
  · change (st.index ++ [quote.quoteId]).Pairwise (· < ·)
    rw [List.pairwise_append]
    refine ⟨h.ascending, List.pairwise_singleton _ _, ?_⟩
    intro id hmem new hnew
    obtain rfl := List.mem_singleton.mp hnew
    exact hlt id (h.bounds id hmem).2
  · intro id hmem
    change 0 < id ∧ id ≤ quote.quoteId
    rcases List.mem_append.mp hmem with hold | hnew
    · obtain ⟨hpos, hle⟩ := h.bounds id hold
      exact ⟨hpos, UInt64.le_of_lt (hlt id hle)⟩
    · obtain rfl := List.mem_singleton.mp hnew
      refine ⟨?_, UInt64.le_refl _⟩
      rw [UInt64.lt_iff_toNat_lt, hid]
      simp
  · intro anchor id hlatest
    change (st.record.set _ _).has (anchor, id) = true
    rw [KeyedStore.has_set]
    rcases KeyedStore.get_set_cases hlatest with ⟨rfl, rfl⟩ | hold
    · simp
    · simp [h.latest_stored anchor id hold]

theorem has_upgradeAll (st : QuoteStore) (ids : List UInt64) (key : Address × UInt64) :
    (st.upgradeAll ids).record.has key = st.record.has key := by
  obtain ⟨anchor, id⟩ := key
  unfold KeyedStore.has
  rw [get_upgradeAll, Option.isSome_map]

theorem WellFormed.upgradeAll (h : st.WellFormed) (ids : List UInt64) :
    (st.upgradeAll ids).WellFormed where
  own_key := by
    intro anchor id stored hget
    rw [get_upgradeAll] at hget
    obtain ⟨old, hold, rfl⟩ := Option.map_eq_some_iff.mp hget
    have hbase : (upgradeStored old).base.anchor = old.base.anchor ∧
        (upgradeStored old).base.quoteId = old.base.quoteId := by
      rcases old with legacy | quote
      · exact ⟨rfl, rfl⟩
      · by_cases hversion : schemaV2 ≤ quote.schemaVersion
        · simp [upgradeStored, hversion]
        · simp [upgradeStored, hversion, StoredQuote.base]
    have hkey := h.own_key anchor id old hold
    split
    · rwa [hbase.1, hbase.2]
    · exact hkey
  listed := by
    intro anchor id hhas
    rw [has_upgradeAll] at hhas
    exact h.listed anchor id hhas
  ascending := h.ascending
  bounds := h.bounds
  latest_stored := by
    intro anchor id hlatest
    rw [has_upgradeAll]
    exact h.latest_stored anchor id hlatest

def Current (st : QuoteStore) : Prop :=
  ∀ key stored, st.record.get key = some stored → ∃ quote, stored = .current quote

theorem Current.of_step {st' : QuoteStore} {c : Call} (hstep : QuoteStep st c st')
    (h : st.Current) : st'.Current := by
  rintro ⟨anchor, id⟩ stored hget
  cases hstep with
  | keep _ => exact h _ stored hget
  | invalidate _ => exact h _ stored hget
  | submit _ _ _ =>
    rcases KeyedStore.get_set_cases hget with ⟨_, rfl⟩ | hold
    · exact ⟨_, rfl⟩
    · exact h _ stored hold
  | migrate =>
    rw [get_upgradeAll] at hget
    obtain ⟨old, hold, rfl⟩ := Option.map_eq_some_iff.mp hget
    obtain ⟨quote, rfl⟩ := h _ old hold
    split
    · exact upgradeStored_current quote
    · exact ⟨_, rfl⟩

end QuoteStore

theorem current_run (host : Host) (is : List Input) : (run host is).quotes.Current :=
  Machine.invariant (step host) (fun s => s.quotes.Current) (s := .empty) nofun
    (fun _ _ _ hstep hpre => hpre.of_step (quote_step hstep)) is

theorem wellFormed_of_step {st st' : QuoteStore} {c : Call} (hstep : QuoteStep st c st')
    (h : st.WellFormed) : st'.WellFormed := by
  cases hstep with
  | keep hc => exact ⟨h.own_key, h.listed, h.ascending, h.bounds, h.latest_stored⟩
  | submit hc hid hversion => exact h.submit hid
  | invalidate hhas => exact ⟨h.own_key, h.listed, h.ascending, h.bounds, h.latest_stored⟩
  | migrate => exact h.upgradeAll _

theorem wellFormed_run (host : Host) (is : List Input) : (run host is).quotes.WellFormed :=
  Machine.invariant (step host) (fun s => s.quotes.WellFormed) (s := .empty)
    QuoteStore.wellFormed_empty
    (fun _ _ _ hstep hpre => wellFormed_of_step (quote_step hstep) hpre) is

end AnchorKit
