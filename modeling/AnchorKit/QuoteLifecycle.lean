import AnchorKit.QuoteInvariants
import AnchorKit.RoutingGates

/-!
# The lifecycle of quotes

What becomes of a quote that was submitted: the admin can invalidate it, and it can be purged.
-/

namespace AnchorKit

open Fallible

/-!
## Invalidation

The admin invalidates a quote by a flag beside it, which stays, since no later quote gets the same
id. Routing requests look at the flag; receiving, accepting and ranking do not.
-/

def returnedQuotes (host : Host) (env : Env) (s : Storage) : Call → List Quote
  | .receiveQuote receiver anchor quoteId => quoteOf (receiveQuote env s receiver anchor quoteId)
  | .acceptQuoteWithCompliance receiver anchor quoteId requireCompliance =>
    quoteOf (acceptQuoteWithCompliance env s receiver anchor quoteId requireCompliance)
  | c => routedQuotes host env s c

/-- No call before `t` has invalidated a quote that `t` hands out. -/
def ReturnsValid (host : Host) (past : List Transition) (t : Transition) : Prop :=
  ∀ quote ∈ returnedQuotes host t.input.1 t.pre t.input.2,
    ∀ u ∈ past, u.input.2 ≠ .invalidateQuote quote.anchor quote.quoteId

instance {host : Host} {past : List Transition} {t : Transition} :
    Decidable (ReturnsValid host past t) := by
  unfold ReturnsValid
  infer_instance

/-- No current quote of an anchor that would be ranked is flagged. -/
def RanksValid (env : Env) (s : Storage) (minReputation : UInt32) : Prop :=
  ∀ anchor ∈ listActiveAnchors s, ∀ routing, s.anchors.routing.get anchor = some routing →
    minReputation ≤ routing.reputationScore → ∀ quote, latestQuote s anchor = .ok (some quote) →
    env.timestamp < quote.validUntil → isInvalidated s anchor quote.quoteId = false

/-- The call that does not look at a flag meets none. -/
def MeetsNoFlag (t : Transition) : Prop :=
  match t.input.2 with
  | .receiveQuote _ anchor quoteId | .acceptQuoteWithCompliance _ anchor quoteId _ =>
    isInvalidated t.pre anchor quoteId = false
  | .routeAnchors _ _ _ _ minReputation => RanksValid t.input.1 t.pre minReputation
  | _ => True

/-- Every quote that was invalidated is still stored and still flagged. -/
structure FlagsKept (past : List Transition) (s : Storage) : Prop where
  wellFormed : s.quotes.WellFormed
  flagged : ∀ u ∈ past, ∀ anchor id, u.input.2 = .invalidateQuote anchor id →
    s.quotes.record.has (anchor, id) = true ∧
      s.quotes.lifecycle.get (anchor, id) = some QuoteLifecycleState.invalidated.toU32

section Flags

variable {host : Host} {st st' : QuoteStore} {c : Call} {anchor : Address} {id : UInt64}

theorem flag_kept (hstep : QuoteStep st c st') (hwf : st.WellFormed)
    (hhas : st.record.has (anchor, id) = true)
    (hflag : st.lifecycle.get (anchor, id) = some QuoteLifecycleState.invalidated.toU32) :
    st'.record.has (anchor, id) = true ∧
      st'.lifecycle.get (anchor, id) = some QuoteLifecycleState.invalidated.toU32 := by
  cases hstep with
  | keep _ => exact ⟨hhas, hflag⟩
  | @submit _ quote _ hid _ =>
    have hne : (anchor, id) ≠ (quote.anchor, quote.quoteId) := by
      intro hkey
      have hle := UInt64.le_iff_toNat_le.mp (hwf.le_count hhas)
      rw [(Prod.mk.inj hkey).2] at hle
      omega
    constructor
    · change (st.record.set _ _).has _ = true
      rw [KeyedStore.has_set, if_neg hne]
      exact hhas
    · change (st.lifecycle.set _ _).get _ = _
      rw [KeyedStore.get_set_of_ne _ _ hne]
      exact hflag
  | invalidate _ =>
    refine ⟨hhas, ?_⟩
    change (st.lifecycle.set _ _).get _ = _
    rw [KeyedStore.get_set, hflag, ite_self]
  | migrate => exact ⟨by rw [QuoteStore.has_upgradeAll]; exact hhas, hflag⟩

theorem flagged_by_invalidate {s s' : Storage} {env : Env}
    (h : step host s (env, .invalidateQuote anchor id) = .ok s') :
    s'.quotes.record.has (anchor, id) = true ∧
      s'.quotes.lifecycle.get (anchor, id) = some QuoteLifecycleState.invalidated.toU32 := by
  obtain ⟨hhas, _, rfl⟩ := invalidateQuote_effects h
  exact ⟨hhas, KeyedStore.get_set_self _ _ _⟩

theorem FlagsKept.of_step {past : List Transition} {t : Transition}
    (ht : step host t.pre t.input = .ok t.post) (h : FlagsKept past t.pre) :
    FlagsKept (past ++ [t]) t.post := by
  refine ⟨wellFormed_of_step (quote_step ht) h.wellFormed, ?_⟩
  intro u hu anchor id hinput
  rcases Machine.mem_snoc.mp hu with hold | rfl
  · obtain ⟨hhas, hflag⟩ := h.flagged u hold anchor id hinput
    exact flag_kept (quote_step ht) h.wellFormed hhas hflag
  · rcases hpair : u.input with ⟨env, c⟩
    rw [hpair] at ht hinput
    dsimp only at hinput
    subst hinput
    exact flagged_by_invalidate ht

theorem flagsKept_run (host : Host) (is : List Input) :
    FlagsKept (history host is) (run host is) :=
  Machine.history_invariant (step host) FlagsKept (fun _ => True) (s := .empty)
    ⟨QuoteStore.wellFormed_empty, by simp⟩ (fun _ _ ht hpre _ => hpre.of_step ht) is
    (fun _ _ => trivial)

theorem unflagged_of_eligible {env : Env} {s : Storage} {options : RoutingOptions} {quote : Quote}
    (h : Eligible env s options quote) : isInvalidated s quote.anchor quote.quoteId = false := by
  obtain ⟨_, _, _, haccepts⟩ := candidateOf_eq_some.mp h.candidate
  simp only [acceptsQuote, Bool.and_eq_true, Bool.not_eq_true'] at haccepts
  exact haccepts.1.2

theorem unflagged_of_stored {s : Storage} {quote : Quote} (hwf : s.quotes.WellFormed)
    (hget : s.quotes.record.get (anchor, id) = some (.current quote))
    (hflag : isInvalidated s anchor id = false) :
    isInvalidated s quote.anchor quote.quoteId = false := by
  obtain ⟨hanchor, hid⟩ := hwf.own_key anchor id _ hget
  change quote.anchor = anchor at hanchor
  change quote.quoteId = id at hid
  rwa [hanchor, hid]

theorem returned_unflagged {t : Transition} {quote : Quote} (hwf : t.pre.quotes.WellFormed)
    (hmeets : MeetsNoFlag t) (hmem : quote ∈ returnedQuotes host t.input.1 t.pre t.input.2) :
    isInvalidated t.pre quote.anchor quote.quoteId = false := by
  rcases t with ⟨s, ⟨env, c⟩, s'⟩
  have hrouted (h : quote ∈ routedQuotes host env s c) :
      isInvalidated s quote.anchor quote.quoteId = false := by
    cases routed_of_mem hwf h with
    | full heligible => exact unflagged_of_eligible heligible
    | fallback heligible => exact unflagged_of_eligible heligible
    | preferred hserves =>
      obtain ⟨rfl, _⟩ := latest_own hwf hserves.latest
      exact hserves.valid
    | ranked hranked =>
      obtain ⟨routing, hget, hreputation⟩ := hranked.reputation
      exact hmeets quote.anchor hranked.active routing hget hreputation quote hranked.latest
        hranked.current
  cases c with
  | receiveQuote receiver anchor id =>
    obtain ⟨_, hreceived⟩ := mem_quoteOf.mp hmem
    exact unflagged_of_stored hwf (receiveQuote_effects hreceived).1 hmeets
  | acceptQuoteWithCompliance receiver anchor id requireCompliance =>
    obtain ⟨_, haccepted⟩ := mem_quoteOf.mp hmem
    exact unflagged_of_stored hwf (acceptQuoteWithCompliance_effects haccepted).1 hmeets
  | _ => exact hrouted hmem

end Flags

/-- A run hands out no quote that was invalidated before, as long as the calls that do not look
at the flag meet none. -/
theorem invalidated_never_returned (host : Host) (is : List Input)
    (hmeets : ∀ t ∈ history host is, MeetsNoFlag t) :
    Machine.AtEachStep (ReturnsValid host) (history host is) := by
  intro past t after hsplit quote hmem u hu hinvalidated
  obtain ⟨js, _, _, hpre, hpast⟩ := Machine.exists_prefix_of_transitions_eq (step host) hsplit
  have hkept := flagsKept_run host js
  change FlagsKept (Machine.transitions (step host) Storage.empty js)
    (Machine.run (step host) Storage.empty js) at hkept
  rw [hpast, hpre] at hkept
  have ht : t ∈ history host is := by
    rw [hsplit]
    exact List.mem_append_right _ List.mem_cons_self
  have hunflagged := returned_unflagged hkept.wellFormed (hmeets t ht) hmem
  obtain ⟨_, hflag⟩ := hkept.flagged u hu quote.anchor quote.quoteId hinvalidated
  rw [isInvalidated, hflag] at hunflagged
  exact absurd hunflagged (by decide)

namespace Demo

def accept : Input := onLedger 1 (.acceptQuoteWithCompliance bob alice 1 false)

def invalidate : Input := onLedger 1 (.invalidateQuote alice 1)

def receiveSecond : Input := onLedger 1 (.receiveQuote bob alice 2)

/-- A quote is accepted and invalidated, and the next one is received. -/
def replaced : List Input := offered none ++ [accept, invalidate, makeOffer none, receiveSecond]

end Demo

theorem accepted_before_invalidated :
    Machine.AtEachStep (ReturnsValid Demo.host) (history Demo.host Demo.replaced) := by
  apply invalidated_never_returned
  have hhistory : history Demo.host Demo.replaced =
      [⟨.empty, Demo.deploy, run Demo.host [Demo.deploy]⟩,
        ⟨run Demo.host [Demo.deploy], Demo.makeOffer none, run Demo.host (Demo.offered none)⟩,
        ⟨run Demo.host (Demo.offered none), Demo.accept, run Demo.host (Demo.replaced.take 3)⟩,
        ⟨run Demo.host (Demo.replaced.take 3), Demo.invalidate,
          run Demo.host (Demo.replaced.take 4)⟩,
        ⟨run Demo.host (Demo.replaced.take 4), Demo.makeOffer none,
          run Demo.host (Demo.replaced.take 5)⟩,
        ⟨run Demo.host (Demo.replaced.take 5), Demo.receiveSecond,
          run Demo.host Demo.replaced⟩] := rfl
  rw [hhistory]
  simp only [List.forall_mem_cons]
  refine ⟨trivial, trivial, ?_, trivial, trivial, ?_, by simp⟩
  · change isInvalidated (run Demo.host (Demo.offered none)) Demo.alice 1 = false
    decide
  · change isInvalidated (run Demo.host (Demo.replaced.take 5)) Demo.alice 2 = false
    decide

/-- An invalidated quote can still be accepted. -/
theorem invalidated_quote_accepted :
    ¬ Machine.AtEachStep (ReturnsValid Demo.host)
      (history Demo.host (Demo.offered none ++ [Demo.invalidate, Demo.accept])) := by
  decide

/-!
## Purging of the index

Every id in the index has a stored quote, and the list that a purge walks is empty on every run.
A purge therefore leaves the records, the flags and the index as they are.
-/

namespace QuoteStore

def Indexed (st : QuoteStore) : Prop :=
  ∀ id ∈ st.index, ∃ anchor, st.record.has (anchor, id) = true

theorem Indexed.of_step {st st' : QuoteStore} {c : Call} (hstep : QuoteStep st c st')
    (h : st.Indexed) : st'.Indexed := by
  intro id hid
  cases hstep with
  | keep _ => exact h id hid
  | invalidate _ => exact h id hid
  | @submit _ quote _ _ _ =>
    change ∃ anchor, (st.record.set (quote.anchor, quote.quoteId) _).has (anchor, id) = true
    rcases List.mem_append.mp hid with hold | hnew
    · obtain ⟨anchor, hhas⟩ := h id hold
      refine ⟨anchor, ?_⟩
      rw [KeyedStore.has_set, hhas, ite_self]
    · obtain rfl := List.mem_singleton.mp hnew
      refine ⟨quote.anchor, ?_⟩
      rw [KeyedStore.has_set, if_pos rfl]
  | migrate =>
    obtain ⟨anchor, hhas⟩ := h id hid
    refine ⟨anchor, ?_⟩
    rw [has_upgradeAll]
    exact hhas

end QuoteStore

theorem indexed_run (host : Host) (is : List Input) : (run host is).quotes.Indexed :=
  Machine.invariant (step host) (fun s => s.quotes.Indexed) (s := .empty) nofun
    (fun _ _ _ hstep hpre => hpre.of_step (quote_step hstep)) is

section Purge

variable {env : Env} {s s' : Storage}

/-- A purge that walks an empty list changes nothing. -/
theorem purgeExpiredQuotes_nil (hnil : s.quotes.purgeIndex = []) :
    purgeExpiredQuotes env s = .ok s' ↔ requireAdmin env s = .ok () ∧ s' = s := by
  have hwalk : List.filterM (survivesPurge s env.timestamp) [] = .ok [] := rfl
  simp only [purgeExpiredQuotes, hnil, hwalk, bind_eq_ok, Except.ok.injEq]
  constructor
  · intro h
    obtain ⟨_, hadmin, _, rfl, hpost⟩ := h
    exact ⟨hadmin, (pure_eq_ok.mp hpost).symm⟩
  · intro h
    obtain ⟨hadmin, rfl⟩ := h
    exact ⟨(), hadmin, [], rfl, rfl⟩

/-- No call adds to the list that a purge walks. -/
theorem purgeIndex_step {host : Host} {i : Input} (h : step host s i = .ok s')
    (hnil : s.quotes.purgeIndex = []) : s'.quotes.purgeIndex = [] := by
  obtain ⟨env, c⟩ := i
  change invoke host env s c = .ok s' at h
  by_cases hc : .quotes ∈ c.touches
  · cases c with
    | submitQuote anchor terms =>
      obtain ⟨_, h⟩ := fst_map_eq_ok.mp h
      obtain ⟨_, _, _, _, _, _, _, rfl⟩ := submitQuoteWithReason_effects h
      exact hnil
    | submitQuoteWithReason anchor terms reason =>
      obtain ⟨_, h⟩ := fst_map_eq_ok.mp h
      obtain ⟨_, _, _, _, _, _, _, rfl⟩ := submitQuoteWithReason_effects h
      exact hnil
    | quoteWithRequestId requestId anchor terms =>
      obtain ⟨_, _, _, _, _, _, _, _, rfl⟩ := quoteWithRequestIdAndReason_effects h
      exact hnil
    | quoteWithRequestIdAndReason requestId anchor terms reason =>
      obtain ⟨_, _, _, _, _, _, _, _, rfl⟩ := quoteWithRequestIdAndReason_effects h
      exact hnil
    | invalidateQuote anchor id =>
      obtain ⟨_, _, rfl⟩ := invalidateQuote_effects h
      exact hnil
    | purgeExpiredQuotes =>
      obtain ⟨_, rfl⟩ := (purgeExpiredQuotes_nil hnil).mp h
      exact hnil
    | migrate version batchSize =>
      obtain ⟨_, _, _, _, hbatch⟩ := migrate_batch h
      rw [hbatch.quotes_eq]
      exact hnil
    | _ => exact absurd hc (by simp [Call.touches])
  · rw [(invoke_sameOutside h).quotes_eq hc]
    exact hnil

theorem purgeIndex_run (host : Host) (is : List Input) : (run host is).quotes.purgeIndex = [] :=
  Machine.invariant (step host) (fun s => s.quotes.purgeIndex = []) (s := .empty) rfl
    (fun _ _ _ hstep hpre => purgeIndex_step hstep hpre) is

/-- A purge that deletes: afterwards the stored quotes are those that were still valid, and the
index lists them, each once. -/
structure PurgeDeletes (now : UInt64) (s s' : Storage) : Prop where
  valid_stored : ∀ anchor id, s'.quotes.record.has (anchor, id) = true ↔
    ∃ stored, s.quotes.record.get (anchor, id) = some stored ∧ now < stored.base.validUntil
  index_stored : ∀ id, id ∈ s'.quotes.index ↔
    ∃ anchor, s'.quotes.record.has (anchor, id) = true
  index_nodup : s'.quotes.index.Nodup

/-- A purge that prunes at most the index: the records and their flags stay for audits, and the
index lists stored quotes only, each once, and all that are valid and not invalidated. -/
structure PurgePrunes (now : UInt64) (s s' : Storage) : Prop where
  record_kept : s'.quotes.record = s.quotes.record
  lifecycle_kept : s'.quotes.lifecycle = s.quotes.lifecycle
  index_stored : ∀ id ∈ s'.quotes.index, ∃ anchor, s'.quotes.record.has (anchor, id) = true
  index_nodup : s'.quotes.index.Nodup
  live_indexed : ∀ anchor id stored, s'.quotes.record.get (anchor, id) = some stored →
    now < stored.base.validUntil → isInvalidated s' anchor id = false → id ∈ s'.quotes.index

theorem PurgePrunes.of_unchanged {now : UInt64} (hwf : s.quotes.WellFormed)
    (hindexed : s.quotes.Indexed) : PurgePrunes now s s where
  record_kept := rfl
  lifecycle_kept := rfl
  index_stored := hindexed
  index_nodup := hwf.ascending.imp UInt64.ne_of_lt
  live_indexed := by
    intro anchor id stored hget _ _
    have hhas : s.quotes.record.has (anchor, id) = true := by
      rw [KeyedStore.has, hget]
      rfl
    exact (hwf.listed anchor id hhas).1

end Purge

/-- In every state that a run reaches and at every time, a purge prunes at most the index, and a
second one at that time changes nothing more. -/
theorem purge_prunes (host : Host) (is : List Input) (env : Env) (s' : Storage)
    (h : purgeExpiredQuotes env (run host is) = .ok s') :
    PurgePrunes env.timestamp (run host is) s' ∧ purgeExpiredQuotes env s' = .ok s' := by
  have hnil := purgeIndex_run host is
  obtain ⟨hadmin, rfl⟩ := (purgeExpiredQuotes_nil hnil).mp h
  exact ⟨.of_unchanged (wellFormed_run host is) (indexed_run host is), h⟩

theorem offer_outlives_purge :
    PurgePrunes 6000 (run Demo.host (Demo.offered none)) (run Demo.host (Demo.offered none)) ∧
      purgeExpiredQuotes ⟨6000, 2, [Demo.admin]⟩ (run Demo.host (Demo.offered none)) =
        .ok (run Demo.host (Demo.offered none)) :=
  purge_prunes Demo.host (Demo.offered none) ⟨6000, 2, [Demo.admin]⟩ _ rfl

/-- The record of a quote outlives a purge after its end. -/
theorem expired_record_stays :
    ¬ ∀ (host : Host) (is : List Input) (env : Env) (s' : Storage),
      purgeExpiredQuotes env (run host is) = .ok s' →
        PurgeDeletes env.timestamp (run host is) s' ∧ purgeExpiredQuotes env s' = .ok s' := by
  intro h
  obtain ⟨hdeletes, _⟩ :=
    h Demo.host (Demo.offered none) ⟨6000, 2, [Demo.admin]⟩ (run Demo.host (Demo.offered none)) rfl
  obtain ⟨stored, hstored, hvalid⟩ := (hdeletes.valid_stored Demo.alice 1).mp rfl
  have hoffer : (run Demo.host (Demo.offered none)).quotes.record.get (Demo.alice, 1) =
      some (.current (Demo.offer none)) := rfl
  rw [hoffer] at hstored
  obtain rfl := Option.some.inj hstored
  revert hvalid
  decide

end AnchorKit
