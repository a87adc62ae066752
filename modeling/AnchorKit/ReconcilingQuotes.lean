import AnchorKit.FirmQuotes
import AnchorKit.Library.KeyedList
import AnchorKit.Library.Machine
import AnchorKit.Library.OrderedMap
import Mathlib.Data.Rat.Defs

/-!
# The reconciling quote cache

A cached quote is handed out while it is fresh and agrees with the market. The times of the last
refreshes are kept beside the quotes; they were meant to hold back refreshes that come too soon.
-/

namespace AnchorKit

namespace Sep38

open Machine

structure CachedQuoteEntry where
  key : Text
  quote : FirmQuote
  cachedAt : UInt64
  ttlSeconds : UInt64
deriving DecidableEq, Repr

/-- The time at which an entry goes stale. -/
def CachedQuoteEntry.deadline (e : CachedQuoteEntry) : UInt64 :=
  Word.saturatingAdd64 e.cachedAt e.ttlSeconds

structure QuoteCache where
  entries : List CachedQuoteEntry

namespace QuoteCache

def new : QuoteCache := ⟨[]⟩

def insert (cache : QuoteCache) (key : Text) (quote : FirmQuote) (now ttlSeconds : UInt64) :
    QuoteCache :=
  let entry := { key, quote, cachedAt := now, ttlSeconds }
  if (KeyedList.lookup CachedQuoteEntry.key key cache.entries).isSome then
    ⟨KeyedList.rewrite CachedQuoteEntry.key key entry cache.entries⟩
  else ⟨cache.entries ++ [entry]⟩

def get (cache : QuoteCache) (key : Text) (now : UInt64) : Option FirmQuote :=
  (cache.entries.find? fun e => e.key = key ∧ now < e.deadline).map CachedQuoteEntry.quote

/-- The flag tells whether the key was there. -/
def invalidate (cache : QuoteCache) (key : Text) : QuoteCache × Bool :=
  if (KeyedList.lookup CachedQuoteEntry.key key cache.entries).isSome then
    (⟨cache.entries.eraseP fun e => e.key = key⟩, true)
  else (cache, false)

def evictStale (cache : QuoteCache) (now : UInt64) : QuoteCache × ℕ :=
  let entries := cache.entries.filter fun e => now < e.deadline
  (⟨entries⟩, cache.entries.length - entries.length)

end QuoteCache

def isQuoteExpired (quote : FirmQuote) (currentTimestamp : UInt64) : Bool :=
  quote.expiresAt ≤ currentTimestamp

def isQuoteNearStale (quote : FirmQuote) (currentTimestamp thresholdSeconds : UInt64) : Bool :=
  if isQuoteExpired quote currentTimestamp then false
  else quote.expiresAt - currentTimestamp < thresholdSeconds

inductive ReconciliationResult
  | suitable
  | shouldRefresh
  | notSuitable
deriving DecidableEq, Repr

/-- Percentages and prices are floating-point numbers. -/
structure ReconciliationConfig (F : Type) where
  nearStaleThresholdSeconds : UInt64
  maxPriceDriftPercent : F
  minRefreshIntervalSeconds : UInt64

structure ReconcilingQuoteCache where
  inner : QuoteCache
  lastRefreshTimestamps : Std.TreeMap Text UInt64

section Model

-- whether a market price is too far from the price of a quote, for a greatest drift
variable {F : Type} (priceDrifts : F → Text → F → Bool)

def reconcileQuote (cachedQuote : FirmQuote) (currentTimestamp : UInt64)
    (currentMarketPrice : Option F) (lastRefreshTimestamp : Option UInt64)
    (config : ReconciliationConfig F) : ReconciliationResult :=
  if isQuoteExpired cachedQuote currentTimestamp then .notSuitable
  else if isQuoteNearStale cachedQuote currentTimestamp config.nearStaleThresholdSeconds then
    .shouldRefresh
  else if currentMarketPrice.any fun currentPrice =>
      priceDrifts currentPrice cachedQuote.price config.maxPriceDriftPercent then .shouldRefresh
  else
    match lastRefreshTimestamp with
    | some lastRefresh =>
      let timeSinceRefresh := Word.saturatingSub64 currentTimestamp lastRefresh
      -- too soon to refresh again, but so is the answer otherwise
      if timeSinceRefresh < config.minRefreshIntervalSeconds then .suitable else .suitable
    | none => .suitable

namespace ReconcilingQuoteCache

def new : ReconcilingQuoteCache := ⟨.new, ∅⟩

def getWithReconciliation (cache : ReconcilingQuoteCache) (key : Text) (now : UInt64)
    (currentMarketPrice : Option F) (config : ReconciliationConfig F) : Option FirmQuote :=
  match cache.inner.get key now with
  | none => none
  | some quote =>
    let lastRefresh := cache.lastRefreshTimestamps[key]?
    match reconcileQuote priceDrifts quote now currentMarketPrice lastRefresh config with
    | .suitable => some quote
    | .shouldRefresh | .notSuitable => none

def insertWithRefresh (cache : ReconcilingQuoteCache) (key : Text) (quote : FirmQuote)
    (now ttlSeconds : UInt64) : ReconcilingQuoteCache :=
  { inner := cache.inner.insert key quote now ttlSeconds,
    lastRefreshTimestamps := cache.lastRefreshTimestamps.insert key now }

/-- The flag tells whether there is a fresh quote. -/
def markRefreshed (cache : ReconcilingQuoteCache) (key : Text) (now : UInt64) :
    ReconcilingQuoteCache × Bool :=
  if (cache.inner.get key now).isSome then
    ({ cache with lastRefreshTimestamps := cache.lastRefreshTimestamps.insert key now }, true)
  else (cache, false)

end ReconcilingQuoteCache

end Model

namespace ReconcilingQuoteCache

/-! ### Runs -/

/-- The last two calls are made on the inner cache. -/
inductive Call
  | insertWithRefresh (key : Text) (quote : FirmQuote) (now ttlSeconds : UInt64)
  | markRefreshed (key : Text) (now : UInt64)
  | invalidate (key : Text)
  | evictStale (now : UInt64)
deriving DecidableEq, Repr

def perform (cache : ReconcilingQuoteCache) : Call → ReconcilingQuoteCache
  | .insertWithRefresh key quote now ttlSeconds => cache.insertWithRefresh key quote now ttlSeconds
  | .markRefreshed key now => (cache.markRefreshed key now).1
  | .invalidate key => { cache with inner := (cache.inner.invalidate key).1 }
  | .evictStale now => { cache with inner := (cache.inner.evictStale now).1 }

def step (cache : ReconcilingQuoteCache) (c : Call) : Except Empty ReconcilingQuoteCache :=
  .ok (cache.perform c)

abbrev Transition := Machine.Transition ReconcilingQuoteCache Call

def Inserts (u : Transition) (e : CachedQuoteEntry) : Prop :=
  u.input = .insertWithRefresh e.key e.quote e.cachedAt e.ttlSeconds

/-- The entry is replaced, invalidated or evicted as stale. -/
def Drops (u : Transition) (e : CachedQuoteEntry) : Prop :=
  (∃ e', Inserts u e' ∧ e'.key = e.key) ∨ u.input = .invalidate e.key ∨
    ∃ now, u.input = .evictStale now ∧ e.deadline ≤ now

/-- The entry is the last one that was inserted under its key, and it was not removed since. -/
def Caches (past : List Transition) (e : CachedQuoteEntry) : Prop :=
  HoldsSince (Inserts · e) (Drops · e) past

/-- A quote of the key is inserted, or a fresh one is marked as refreshed. -/
def Refreshes (u : Transition) (key : Text) (t : UInt64) : Prop :=
  (∃ quote ttlSeconds, u.input = .insertWithRefresh key quote t ttlSeconds) ∨
    u.input = .markRefreshed key t ∧ (u.pre.markRefreshed key t).2 = true

def LastRefreshed (past : List Transition) (key : Text) (t : UInt64) : Prop :=
  HoldsSince (Refreshes · key t) (fun u => ∃ t', Refreshes u key t') past

/-- The entry is in the cache, within its lifetime, and its quote has not expired. -/
structure Live (past : List Transition) (e : CachedQuoteEntry) (key : Text) (now : UInt64) :
    Prop where
  cached : Caches past e
  key : e.key = key
  fresh : now < e.deadline
  unexpired : now < e.quote.expiresAt

def RecentlyRefreshed (past : List Transition) (key : Text) (now minInterval : UInt64) : Prop :=
  ∃ t, LastRefreshed past key t ∧ now.toNat - t.toNat < minInterval.toNat

/-- What is handed out is live and the last that was inserted, and no live quote is held back soon
after a refresh. -/
structure AnswersRightly (past : List Transition) (key : Text) (now minInterval : UInt64)
    (answer : Option FirmQuote) : Prop where
  live (q : FirmQuote) (h : answer = some q) : ∃ e, Live past e key now ∧ e.quote = q
  calm (e : CachedQuoteEntry) (h : Live past e key now)
    (hrecent : RecentlyRefreshed past key now minInterval) : answer ≠ none

/-! ### The cache -/

section Cache

variable {cache : QuoteCache} {key : Text} {quote q : FirmQuote} {now ttl : UInt64}
  {e : CachedQuoteEntry}

theorem map_key_insert_nodup (hl : (cache.entries.map CachedQuoteEntry.key).Nodup) :
    ((cache.insert key quote now ttl).entries.map CachedQuoteEntry.key).Nodup := by
  unfold QuoteCache.insert
  dsimp only
  split
  · have hkeys := KeyedList.map_key_rewrite (k := key) (l := cache.entries)
      (v := ⟨key, quote, now, ttl⟩) (rfl : CachedQuoteEntry.key ⟨key, quote, now, ttl⟩ = key)
    exact hkeys ▸ hl
  · rename_i hnone
    rw [Option.not_isSome_iff_eq_none, KeyedList.lookup_eq_none] at hnone
    rw [List.map_append, List.nodup_append]
    refine ⟨hl, List.nodup_singleton _, ?_⟩
    intro a ha b hb
    rw [List.map_singleton, List.mem_singleton] at hb
    rw [hb]
    rintro rfl
    exact hnone ha

theorem mem_insert (hl : (cache.entries.map CachedQuoteEntry.key).Nodup) :
    e ∈ (cache.insert key quote now ttl).entries ↔
      e = ⟨key, quote, now, ttl⟩ ∨ e ∈ cache.entries ∧ e.key ≠ key := by
  unfold QuoteCache.insert
  dsimp only
  split
  · rename_i hsome
    obtain ⟨w, hw⟩ := Option.isSome_iff_exists.mp hsome
    exact KeyedList.mem_rewrite_iff hl hw rfl
  · rename_i hnone
    rw [Option.not_isSome_iff_eq_none, KeyedList.lookup_eq_none] at hnone
    rw [mem_snoc, or_comm]
    refine or_congr_right (iff_self_and.mpr fun he hkey => hnone ?_)
    rw [← hkey]
    exact List.mem_map_of_mem he

theorem entries_invalidate (hl : (cache.entries.map CachedQuoteEntry.key).Nodup) :
    (cache.invalidate key).1.entries = cache.entries.filter fun e => e.key ≠ key := by
  unfold QuoteCache.invalidate
  split
  · exact KeyedList.eraseP_eq_filter hl key
  · rename_i hnone
    rw [Option.not_isSome_iff_eq_none, KeyedList.lookup_eq_none] at hnone
    have hkeep : ∀ e ∈ cache.entries, e.key ≠ key := by
      rintro e he rfl
      exact hnone (List.mem_map_of_mem he)
    exact (List.filter_eq_self.mpr fun e he => decide_eq_true (hkeep e he)).symm

theorem get_eq_some (hl : (cache.entries.map CachedQuoteEntry.key).Nodup) :
    cache.get key now = some q ↔
      ∃ e ∈ cache.entries, e.key = key ∧ now < e.deadline ∧ e.quote = q := by
  rw [QuoteCache.get, Option.map_eq_some_iff]
  constructor
  · rintro ⟨e, hfind, rfl⟩
    have hfound := List.find?_some hfind
    obtain ⟨hkey, hfresh⟩ := of_decide_eq_true hfound
    exact ⟨e, List.mem_of_find?_eq_some hfind, hkey, hfresh, rfl⟩
  · rintro ⟨e, he, hkey, hfresh, rfl⟩
    refine ⟨e, ?_, rfl⟩
    cases hfind : cache.entries.find? fun e => decide (e.key = key ∧ now < e.deadline) with
    | none => exact absurd (decide_eq_true ⟨hkey, hfresh⟩) (List.find?_eq_none.mp hfind e he)
    | some e' =>
      have hfound := List.find?_some hfind
      have hkey' := (of_decide_eq_true hfound).1
      have hsame := KeyedList.lookup_key hl (List.mem_of_find?_eq_some hfind)
      rw [hkey', ← hkey, KeyedList.lookup_key hl he] at hsame
      exact hsame.symm

end Cache

/-! ### What the cache holds in a run -/

section Steps

variable {cache : ReconcilingQuoteCache} {past : List Transition} {u : Transition} {key : Text}
  {e : CachedQuoteEntry} {t : UInt64}

/-- The entries are those that were inserted and not dropped since, and the times those of the last
refreshes. -/
structure Holds (past : List Transition) (cache : ReconcilingQuoteCache) : Prop where
  nodup : (cache.inner.entries.map CachedQuoteEntry.key).Nodup
  entries (e : CachedQuoteEntry) : e ∈ cache.inner.entries ↔ Caches past e
  refreshed (key : Text) (t : UInt64) :
    cache.lastRefreshTimestamps[key]? = some t ↔ LastRefreshed past key t

theorem holds_new : Holds [] new where
  nodup := List.nodup_nil
  entries _ := iff_of_false List.not_mem_nil not_holdsSince_nil
  refreshed _ _ := iff_of_false (by simp [new]) not_holdsSince_nil

theorem inner_markRefreshed (cache : ReconcilingQuoteCache) (key : Text) (now : UInt64) :
    (cache.markRefreshed key now).1.inner = cache.inner := by
  unfold markRefreshed
  split
  · rfl
  · rfl

theorem nodup_perform (hl : (cache.inner.entries.map CachedQuoteEntry.key).Nodup) (c : Call) :
    ((cache.perform c).inner.entries.map CachedQuoteEntry.key).Nodup := by
  cases c with
  | insertWithRefresh key quote now ttl => exact map_key_insert_nodup hl
  | markRefreshed key now =>
    dsimp only [perform]
    rwa [inner_markRefreshed]
  | invalidate key =>
    dsimp only [perform]
    rw [entries_invalidate hl]
    exact hl.sublist (List.filter_sublist.map _)
  | evictStale now => exact hl.sublist (List.filter_sublist.map _)

theorem mem_perform (hl : (cache.inner.entries.map CachedQuoteEntry.key).Nodup) (c : Call)
    {post : ReconcilingQuoteCache} : e ∈ (cache.perform c).inner.entries ↔
      Inserts ⟨cache, c, post⟩ e ∨ e ∈ cache.inner.entries ∧ ¬ Drops ⟨cache, c, post⟩ e := by
  cases c with
  | insertWithRefresh key quote now ttl =>
    have hinserts (e : CachedQuoteEntry) :
        Inserts ⟨cache, .insertWithRefresh key quote now ttl, post⟩ e ↔
          e = ⟨key, quote, now, ttl⟩ := by
      cases e
      simp [Inserts, eq_comm]
    have hdrops : Drops ⟨cache, .insertWithRefresh key quote now ttl, post⟩ e ↔ e.key = key := by
      simp [Drops, hinserts, eq_comm]
    rw [hinserts, hdrops]
    exact mem_insert hl
  | markRefreshed key now =>
    dsimp only [perform]
    rw [inner_markRefreshed]
    simp [Inserts, Drops]
  | invalidate key =>
    have hdrops : Drops ⟨cache, .invalidate key, post⟩ e ↔ e.key = key := by
      simp [Drops, Inserts, eq_comm]
    dsimp only [perform]
    rw [hdrops, entries_invalidate hl, List.mem_filter, decide_eq_true_iff]
    simp [Inserts]
  | evictStale now =>
    have hdrops : Drops ⟨cache, .evictStale now, post⟩ e ↔ e.deadline ≤ now := by
      simp [Drops, Inserts]
    dsimp only [perform, QuoteCache.evictStale]
    rw [hdrops, List.mem_filter, decide_eq_true_iff, UInt64.not_le]
    simp [Inserts]

theorem refreshed_perform (c : Call) {post : ReconcilingQuoteCache} :
    (cache.perform c).lastRefreshTimestamps[key]? = some t ↔ Refreshes ⟨cache, c, post⟩ key t ∨
      cache.lastRefreshTimestamps[key]? = some t ∧
        ¬ ∃ t', Refreshes ⟨cache, c, post⟩ key t' := by
  cases c with
  | insertWithRefresh k quote now ttl =>
    have hrefreshes (t : UInt64) :
        Refreshes ⟨cache, .insertWithRefresh k quote now ttl, post⟩ key t ↔ k = key ∧ now = t := by
      simp [Refreshes]
    dsimp only [perform, insertWithRefresh]
    simp only [hrefreshes, OrderedMap.getElem?_insert]
    by_cases hkey : k = key
    · simp [hkey]
    · simp [hkey]
  | markRefreshed k now =>
    have hrefreshes (t : UInt64) : Refreshes ⟨cache, .markRefreshed k now, post⟩ key t ↔
        (k = key ∧ now = t) ∧ (cache.inner.get k now).isSome = true := by
      have hflag : (cache.markRefreshed k now).2 = (cache.inner.get k now).isSome := by
        unfold markRefreshed
        split
        · rename_i hsome
          exact hsome.symm
        · rename_i hnone
          exact (Bool.eq_false_iff.mpr hnone).symm
      unfold Refreshes
      constructor
      · rintro (⟨_, _, hinput⟩ | ⟨hinput, hmarked⟩)
        · cases hinput
        · cases hinput
          exact ⟨⟨rfl, rfl⟩, hflag ▸ hmarked⟩
      · rintro ⟨⟨rfl, rfl⟩, hsome⟩
        exact Or.inr ⟨rfl, hflag.trans hsome⟩
    simp only [hrefreshes]
    dsimp only [perform]
    unfold markRefreshed
    split
    · rename_i hsome
      simp only [hsome, OrderedMap.getElem?_insert]
      by_cases hkey : k = key
      · simp [hkey]
      · simp [hkey]
    · rename_i hnone
      simp [hnone]
  | invalidate k => simp [perform, Refreshes]
  | evictStale now => simp [perform, Refreshes]

theorem holds_after (calls : List Call) :
    Holds (transitions step new calls) (Machine.run step new calls) := by
  apply history_invariant step Holds (fun _ => True) holds_new _ calls (fun _ _ => trivial)
  intro past u hu hpre _
  obtain ⟨pre, c, post⟩ := u
  obtain rfl : pre.perform c = post := Except.ok.inj hu
  constructor
  · exact nodup_perform hpre.nodup c
  · intro e
    rw [Caches, holdsSince_snoc, mem_perform hpre.nodup c, hpre.entries]
    rfl
  · intro key t
    rw [LastRefreshed, holdsSince_snoc, refreshed_perform, hpre.refreshed]
    rfl

end Steps

/-! ### Answers -/

section Answers

variable {F : Type} {priceDrifts : F → Text → F → Bool} {config : ReconciliationConfig F}
  {price : Option F} {q : FirmQuote} {now : UInt64} {key : Text} {lastRefresh : Option UInt64}
  {past : List Transition} {cache : ReconcilingQuoteCache} {e : CachedQuoteEntry}

/-- The quote is about to expire, or too far from the market. -/
def Doubtful (priceDrifts : F → Text → F → Bool) (config : ReconciliationConfig F)
    (price : Option F) (now : UInt64) (q : FirmQuote) : Prop :=
  isQuoteNearStale q now config.nearStaleThresholdSeconds = true ∨
    ∃ p ∈ price, priceDrifts p q.price config.maxPriceDriftPercent = true

theorem reconcileQuote_eq_suitable :
    reconcileQuote priceDrifts q now price lastRefresh config = .suitable ↔
      now < q.expiresAt ∧ ¬ Doubtful priceDrifts config price now q := by
  have hexpired : isQuoteExpired q now = true ↔ ¬ now < q.expiresAt := by
    rw [UInt64.not_lt]
    exact decide_eq_true_iff
  have hdrift : (price.any fun p => priceDrifts p q.price config.maxPriceDriftPercent) = true ↔
      ∃ p ∈ price, priceDrifts p q.price config.maxPriceDriftPercent = true := by
    rw [Option.any_eq_true]
    rfl
  rw [Doubtful, ← hdrift]
  unfold reconcileQuote
  by_cases hlive : now < q.expiresAt
  · rw [if_neg fun hexp => hexpired.mp hexp hlive]
    split_ifs with hnear hprice
    · simp [hnear]
    · exact iff_of_false (by simp) fun h => h.2 (Or.inr hprice)
    · refine iff_of_true ?_ ⟨hlive, not_or.mpr ⟨hnear, hprice⟩⟩
      cases lastRefresh with
      | none => rfl
      | some t => exact ite_self _
  · rw [if_pos (hexpired.mpr hlive)]
    exact iff_of_false (by simp) fun h => hlive h.1

/-- A quote is handed out when it is live and not doubtful. -/
theorem getWithReconciliation_eq_some (h : Holds past cache) :
    cache.getWithReconciliation priceDrifts key now price config = some q ↔
      (∃ e, Live past e key now ∧ e.quote = q) ∧ ¬ Doubtful priceDrifts config price now q := by
  have hlive : (∃ e, Live past e key now ∧ e.quote = q) ↔
      cache.inner.get key now = some q ∧ now < q.expiresAt := by
    rw [get_eq_some h.nodup]
    constructor
    · rintro ⟨e, hlive, rfl⟩
      exact ⟨⟨e, (h.entries e).mpr hlive.cached, hlive.key, hlive.fresh, rfl⟩, hlive.unexpired⟩
    · rintro ⟨⟨e, he, hkey, hfresh, rfl⟩, hexpires⟩
      exact ⟨e, ⟨(h.entries e).mp he, hkey, hfresh, hexpires⟩, rfl⟩
  rw [hlive, and_assoc]
  unfold getWithReconciliation
  cases hget : cache.inner.get key now with
  | none => simp
  | some q' =>
    dsimp only
    constructor
    · intro hanswer
      split at hanswer
      · rename_i hsuitable
        obtain rfl := Option.some.inj hanswer
        exact ⟨rfl, reconcileQuote_eq_suitable.mp hsuitable⟩
      · cases hanswer
      · cases hanswer
    · rintro ⟨hsame, hsuitable⟩
      obtain rfl := Option.some.inj hsame
      rw [reconcileQuote_eq_suitable.mpr hsuitable]

theorem live_unique (h : Holds past cache) {e' : CachedQuoteEntry} (he : Live past e key now)
    (he' : Live past e' key now) : e = e' := by
  have hlookup := KeyedList.lookup_key h.nodup ((h.entries e).mpr he.cached)
  have hlookup' := KeyedList.lookup_key h.nodup ((h.entries e').mpr he'.cached)
  rw [he.key] at hlookup
  rw [he'.key, hlookup] at hlookup'
  exact Option.some.inj hlookup'

/-- After any run, the answers are right except for a live quote that was refreshed lately and is
doubtful again. -/
theorem answersRightly_iff (priceDrifts : F → Text → F → Bool) (calls : List Call) (key : Text)
    (now : UInt64) (price : Option F) (config : ReconciliationConfig F) :
    AnswersRightly (transitions step new calls) key now config.minRefreshIntervalSeconds
        ((Machine.run step new calls).getWithReconciliation priceDrifts key now price config) ↔
      ∀ e, Live (transitions step new calls) e key now →
        RecentlyRefreshed (transitions step new calls) key now config.minRefreshIntervalSeconds →
        ¬ Doubtful priceDrifts config price now e.quote := by
  have h := holds_after calls
  constructor
  · intro hright e hlive hrecent
    cases hanswer : (Machine.run step new calls).getWithReconciliation priceDrifts key now price
        config with
    | none => exact absurd hanswer (hright.calm e hlive hrecent)
    | some q =>
      obtain ⟨⟨e', hlive', rfl⟩, hsure⟩ := (getWithReconciliation_eq_some h).mp hanswer
      rwa [live_unique h hlive hlive']
  · intro hsure
    constructor
    · intro q hanswer
      exact ((getWithReconciliation_eq_some h).mp hanswer).1
    · intro e hlive hrecent hnone
      have hanswer := (getWithReconciliation_eq_some h).mpr
        ⟨⟨e, hlive, rfl⟩, hsure e hlive hrecent⟩
      rw [hnone] at hanswer
      cases hanswer

def defaultConfig : ReconciliationConfig ℚ :=
  { nearStaleThresholdSeconds := 60, maxPriceDriftPercent := 1 / 100,
    minRefreshIntervalSeconds := 30 }

def shortEntry : CachedQuoteEntry :=
  { key := "key1".toList, quote := (exampleQuote "1050").toFirm 1050, cachedAt := 1000,
    ttlSeconds := 600 }

def shortRun : List Call :=
  [.insertWithRefresh shortEntry.key shortEntry.quote shortEntry.cachedAt shortEntry.ttlSeconds]

/-- Ten seconds after it was inserted, a quote near its expiry is held back. -/
theorem short_quote_held_back :
    ¬ AnswersRightly (transitions step new shortRun) shortEntry.key 1010
      defaultConfig.minRefreshIntervalSeconds
      ((Machine.run step new shortRun).getWithReconciliation (fun _ _ _ => false) shortEntry.key 1010
        none defaultConfig) := by
  intro hright
  have hlive : Live (transitions step new shortRun) shortEntry shortEntry.key 1010 :=
    ⟨⟨[], _, [], rfl, rfl, by simp⟩, rfl, by decide, by decide⟩
  have hrecent : RecentlyRefreshed (transitions step new shortRun) shortEntry.key 1010
      defaultConfig.minRefreshIntervalSeconds :=
    ⟨1000, ⟨[], _, [], rfl, Or.inl ⟨_, _, rfl⟩, by simp⟩, by decide⟩
  exact hright.calm shortEntry hlive hrecent (by decide +kernel)

end Answers

end ReconcilingQuoteCache

end Sep38

end AnchorKit
