import AnchorKit.Library.Machine
import AnchorKit.Library.OrderedMap
import AnchorKit.Webhook

/-!
# Replayed webhooks

Along a run at non-decreasing times no body is accepted twice as long as the tracker never forgets a
nonce whose message is still fresh. It forgets one when a new nonce comes while it is full, and at
every cleanup that is given no age limit.
-/

namespace AnchorKit
namespace Webhook

def Fresh (maxAge now ts : UInt64) : Prop :=
  ts ≤ now ∧ (maxAge = 0 ∨ now.toNat - ts.toNat < maxAge.toNat)

instance (maxAge now ts : UInt64) : Decidable (Fresh maxAge now ts) :=
  inferInstanceAs (Decidable (_ ∧ _))

theorem Fresh.earlier {maxAge now later ts : UInt64} (h : Fresh maxAge later ts) (hts : ts ≤ now)
    (hle : now ≤ later) : Fresh maxAge now ts := by
  rw [UInt64.le_iff_toNat_le] at hle
  refine ⟨hts, h.2.imp_right fun hage => ?_⟩
  omega

def MemoryNonceTracker.makeRoom (tracker : MemoryNonceTracker) : MemoryNonceTracker :=
  if tracker.maxCapacity ≤ tracker.nonces.size then tracker.evictOldest else tracker

def MemoryNonceTracker.record (tracker : MemoryNonceTracker) (nonce : Text) (ts : UInt64) :
    MemoryNonceTracker :=
  { tracker.makeRoom with nonces := tracker.makeRoom.nonces.insert nonce ts }

/-- A delivery that is accepted unless its nonce is known. -/
structure Presents (hmacSha256 : Bytes → Bytes → BytesN 32) (maxAge : UInt64)
    (payload signatureHeader : Text) (key : Bytes) (now ts : UInt64) (nonce : Text) : Prop where
  signed : verifyWebhookSignature hmacSha256 payload signatureHeader key = true
  fields : extractTimestampAndNonce payload = some (ts, nonce)
  fresh : Fresh maxAge now ts
  not_blank : Text.trimMatches isWhitespace nonce ≠ []

section Tracker

variable {tracker : MemoryNonceTracker} {nonce k : Text} {ts v now maxAge : UInt64}

theorem contains_eq_false : tracker.nonces.contains nonce = false ↔ tracker.nonces[nonce]? = none := by
  rw [Std.TreeMap.contains_eq_isSome_getElem?, Option.isSome_eq_false_iff, Option.isNone_iff_eq_none]

theorem checkAndRecord_known (h : tracker.nonces[nonce]? ≠ none) :
    tracker.checkAndRecord nonce ts = (tracker, false) := by
  rw [MemoryNonceTracker.checkAndRecord, if_pos]
  exact Bool.of_not_eq_false fun hnot => h (contains_eq_false.mp hnot)

theorem checkAndRecord_new (h : tracker.nonces[nonce]? = none) :
    tracker.checkAndRecord nonce ts = (tracker.record nonce ts, true) := by
  rw [MemoryNonceTracker.checkAndRecord, if_neg]
  · rfl
  · rw [contains_eq_false.mpr h]
    exact Bool.false_ne_true

theorem getElem?_record : (tracker.record nonce ts).nonces[k]? =
    if k = nonce then some ts else tracker.makeRoom.nonces[k]? := by
  simp only [MemoryNonceTracker.record, OrderedMap.getElem?_insert, eq_comm]

theorem getElem?_cleanupExpired : (tracker.cleanupExpired now maxAge).nonces[k]? =
    tracker.nonces[k]?.filter fun ts => Word.saturatingSub64 now maxAge ≤ ts := by
  rw [MemoryNonceTracker.cleanupExpired, Std.TreeMap.getElem?_filter]
  exact Option.pfilter_eq_filter

theorem mem_nonces : (k, v) ∈ tracker.nonces.toList ↔ tracker.nonces[k]? = some v :=
  Std.TreeMap.mem_toList_iff_getElem?_eq_some

theorem oldest_stored {e : Text × UInt64} (h : tracker.oldest = some e) :
    tracker.nonces[e.1]? = some e.2 :=
  mem_nonces.mp (List.argmin_mem h)

/-- Making room drops the oldest nonce of a full tracker and keeps the others. -/
theorem getElem?_makeRoom : tracker.makeRoom.nonces[k]? =
    if tracker.maxCapacity ≤ tracker.nonces.size ∧ tracker.oldest.map Prod.fst = some k then none
    else tracker.nonces[k]? := by
  unfold MemoryNonceTracker.makeRoom MemoryNonceTracker.evictOldest
  by_cases hfull : tracker.maxCapacity ≤ tracker.nonces.size
  · simp only [if_pos hfull, and_iff_right hfull]
    cases hold : tracker.oldest with
    | none => simp
    | some e =>
      simp only [Option.map_some, Option.some.injEq, OrderedMap.getElem?_erase]
  · rw [if_neg hfull, if_neg fun h => hfull h.1]

end Tracker

section Verify

variable {hmacSha256 : Bytes → Bytes → BytesN 32} {maxAge now : UInt64}
variable {payload signatureHeader : Text} {key : Bytes} {tracker : MemoryNonceTracker}

theorem fresh_iff {ts : UInt64} : Fresh maxAge now ts ↔
    ¬ now < ts ∧ ¬ (0 < maxAge ∧ maxAge ≤ Word.saturatingSub64 now ts) := by
  unfold Fresh
  rw [← UInt64.toNat_inj, UInt64.lt_iff_toNat_lt, UInt64.lt_iff_toNat_lt, UInt64.le_iff_toNat_le,
    UInt64.le_iff_toNat_le, Word.toNat_saturatingSub64, UInt64.toNat_zero]
  omega

/-- What a verification can do: accept and record a new nonce, or reject and change nothing. -/
theorem verify_cases (hmacSha256 : Bytes → Bytes → BytesN 32) (maxAge now : UInt64)
    (payload signatureHeader : Text) (key : Bytes) (tracker : MemoryNonceTracker) :
    (∃ ts nonce, Presents hmacSha256 maxAge payload signatureHeader key now ts nonce ∧
      tracker.nonces[nonce]? = none ∧
      verifyWithReplayProtection hmacSha256 payload signatureHeader key now maxAge tracker =
        (tracker.record nonce ts, .valid)) ∨
    (∃ result, result ≠ .valid ∧
      verifyWithReplayProtection hmacSha256 payload signatureHeader key now maxAge tracker =
        (tracker, result) ∧
      ∀ ts nonce, Presents hmacSha256 maxAge payload signatureHeader key now ts nonce →
        tracker.nonces[nonce]? ≠ none) := by
  unfold verifyWithReplayProtection
  split
  · rename_i hsigned
    refine Or.inr ⟨.invalidSignature, by decide, rfl, fun ts nonce h => ?_⟩
    rw [h.signed] at hsigned
    cases hsigned
  rename_i hsigned
  split
  · rename_i hfields
    refine Or.inr ⟨.invalidTimestamp, by decide, rfl, fun ts nonce h => ?_⟩
    rw [h.fields] at hfields
    cases hfields
  rename_i ts nonce hfields
  have hsame {ts' : UInt64} {nonce' : Text}
      (h : Presents hmacSha256 maxAge payload signatureHeader key now ts' nonce') :
      ts' = ts ∧ nonce' = nonce :=
    Prod.mk.inj (Option.some.inj (h.fields.symm.trans hfields))
  split
  · rename_i hfuture
    refine Or.inr ⟨.invalidTimestamp, by decide, rfl, fun ts' nonce' h => ?_⟩
    obtain ⟨rfl, rfl⟩ := hsame h
    exact absurd hfuture (fresh_iff.mp h.fresh).1
  rename_i hfuture
  split
  · rename_i hold
    refine Or.inr ⟨.invalidTimestamp, by decide, rfl, fun ts' nonce' h => ?_⟩
    obtain ⟨rfl, rfl⟩ := hsame h
    exact absurd hold (fresh_iff.mp h.fresh).2
  rename_i hold
  split
  · rename_i hblank
    refine Or.inr ⟨.invalidSignature, by decide, rfl, fun ts' nonce' h => ?_⟩
    obtain ⟨rfl, rfl⟩ := hsame h
    exact absurd hblank h.not_blank
  rename_i hblank
  by_cases hknown : tracker.nonces[nonce]? = none
  · refine Or.inl ⟨ts, nonce, ⟨?_, hfields, fresh_iff.mpr ⟨hfuture, hold⟩, hblank⟩, hknown, ?_⟩
    · exact Bool.of_not_eq_false hsigned
    · rw [checkAndRecord_new hknown]
  · refine Or.inr ⟨.replayDetected, by decide, ?_, fun ts' nonce' h => ?_⟩
    · rw [checkAndRecord_known hknown]
    · obtain ⟨rfl, rfl⟩ := hsame h
      exact hknown

theorem verify_valid_iff :
    (verifyWithReplayProtection hmacSha256 payload signatureHeader key now maxAge tracker).2 =
        .valid ↔
      ∃ ts nonce, Presents hmacSha256 maxAge payload signatureHeader key now ts nonce ∧
        tracker.nonces[nonce]? = none := by
  obtain ⟨ts, nonce, hpresents, hnew, heq⟩ | ⟨result, hresult, heq, hnone⟩ :=
    verify_cases hmacSha256 maxAge now payload signatureHeader key tracker
  · rw [heq]
    exact iff_of_true rfl ⟨ts, nonce, hpresents, hnew⟩
  · rw [heq]
    refine iff_of_false hresult ?_
    rintro ⟨ts, nonce, hpresents, hnew⟩
    exact hnone ts nonce hpresents hnew

end Verify

/-! ### Runs -/

inductive WebhookCall
  | verify (payload signatureHeader : Text) (key : Bytes) (currentTime : UInt64)
  | cleanup (currentTime : UInt64)

def WebhookCall.time : WebhookCall → UInt64
  | verify _ _ _ currentTime => currentTime
  | cleanup currentTime => currentTime

section Runs

variable (hmacSha256 : Bytes → Bytes → BytesN 32) (maxAge : UInt64)

/-- A call on a tracker; no call fails. -/
def trackerStep (tracker : MemoryNonceTracker) : WebhookCall → Except Empty MemoryNonceTracker
  | .verify payload signatureHeader key now => .ok
    (verifyWithReplayProtection hmacSha256 payload signatureHeader key now maxAge tracker).1
  | .cleanup now => .ok (tracker.cleanupExpired now maxAge)

abbrev TrackerTransition := Machine.Transition MemoryNonceTracker WebhookCall

def ReportsValid (t : TrackerTransition) (payload : Text) : Prop :=
  ∃ signatureHeader key now, t.input = .verify payload signatureHeader key now ∧
    (verifyWithReplayProtection hmacSha256 payload signatureHeader key now maxAge t.pre).2 = .valid

def NoneValidTwice (tracker : MemoryNonceTracker) (calls : List WebhookCall) : Prop :=
  (Machine.transitions (trackerStep hmacSha256 maxAge) tracker calls).Pairwise fun t u =>
    ∀ payload, ReportsValid hmacSha256 maxAge t payload → ¬ ReportsValid hmacSha256 maxAge u payload

/-- The call finds no fresh nonce to forget: a delivery with a new nonce finds the tracker below its
capacity or its oldest entry stale, and a cleanup without an age limit no earlier message. -/
def FindsOnlyStale (t : TrackerTransition) : Prop :=
  match t.input with
  | .verify payload signatureHeader key now => ∀ ts nonce,
    Presents hmacSha256 maxAge payload signatureHeader key now ts nonce →
      t.pre.nonces[nonce]? = none → t.pre.maxCapacity ≤ t.pre.nonces.size →
        ∀ e, t.pre.oldest = some e → ¬ Fresh maxAge now e.2
  | .cleanup now => maxAge = 0 → ∀ e ∈ t.pre.nonces.toList, now ≤ e.2

def TimeOrdered (calls : List WebhookCall) : Prop := calls.Pairwise fun c d => c.time ≤ d.time

end Runs

section Steps

variable {hmacSha256 : Bytes → Bytes → BytesN 32} {maxAge : UInt64}
variable {tracker post : MemoryNonceTracker} {c : WebhookCall} {k nonce : Text} {ts v now : UInt64}

theorem stored_step {t : TrackerTransition}
    (hstep : trackerStep hmacSha256 maxAge t.pre t.input = .ok t.post)
    (hk : t.post.nonces[k]? = some v) :
    t.pre.nonces[k]? = some v ∨ ∃ payload signatureHeader key now,
      t.input = .verify payload signatureHeader key now ∧ t.pre.nonces[k]? = none ∧
        Presents hmacSha256 maxAge payload signatureHeader key now v k := by
  obtain ⟨pre, c, post⟩ := t
  cases c with
  | verify payload signatureHeader key now =>
    simp only [trackerStep, Except.ok.injEq] at hstep
    subst hstep
    obtain ⟨ts, nonce, hpresents, hnew, heq⟩ | ⟨result, _, heq, _⟩ :=
      verify_cases hmacSha256 maxAge now payload signatureHeader key pre
    · rw [heq, getElem?_record] at hk
      split at hk
      · rename_i hkey
        obtain rfl := Option.some.inj hk
        rw [← hkey] at hpresents hnew
        exact Or.inr ⟨payload, signatureHeader, key, now, rfl, hnew, hpresents⟩
      · rw [getElem?_makeRoom] at hk
        split at hk
        · cases hk
        · exact Or.inl hk
    · rw [heq] at hk
      exact Or.inl hk
  | cleanup now =>
    simp only [trackerStep, Except.ok.injEq] at hstep
    subst hstep
    rw [getElem?_cleanupExpired, Option.filter_eq_some_iff] at hk
    exact Or.inl hk.1

/-- What was stored is stored with the same timestamp afterwards, or forgotten. -/
theorem getElem?_step {t : TrackerTransition}
    (hstep : trackerStep hmacSha256 maxAge t.pre t.input = .ok t.post)
    (hk : t.pre.nonces[k]? = some v) :
    t.post.nonces[k]? = some v ∨ t.post.nonces[k]? = none := by
  cases hpost : t.post.nonces[k]? with
  | none => exact Or.inr rfl
  | some w =>
    obtain hsame | ⟨_, _, _, _, _, hnew, _⟩ := stored_step hstep hpost
    · rw [hk] at hsame
      exact Or.inl hsame.symm
    · rw [hk] at hnew
      cases hnew

/-- A step that finds only stale nonces to forget is one that keeps every fresh nonce. -/
theorem findsOnlyStale_iff {t : TrackerTransition}
    (hstep : trackerStep hmacSha256 maxAge t.pre t.input = .ok t.post)
    (hpast : ∀ (k : Text) (ts : UInt64), t.pre.nonces[k]? = some ts → ts ≤ t.input.time) :
    FindsOnlyStale hmacSha256 maxAge t ↔ ∀ (k : Text) (ts : UInt64), t.pre.nonces[k]? = some ts →
      Fresh maxAge t.input.time ts → t.post.nonces[k]? = some ts := by
  obtain ⟨pre, c, post⟩ := t
  cases c with
  | verify payload signatureHeader key now =>
    simp only [trackerStep, Except.ok.injEq] at hstep
    subst hstep
    obtain ⟨ts, nonce, hpresents, hnew, heq⟩ | ⟨result, _, heq, hnone⟩ :=
      verify_cases hmacSha256 maxAge now payload signatureHeader key pre
    · simp only [heq, getElem?_record, getElem?_makeRoom]
      constructor
      · intro hstale k ts' hk hfresh
        have hother : k ≠ nonce := by
          rintro rfl
          rw [hnew] at hk
          cases hk
        rw [if_neg hother, if_neg, hk]
        rintro ⟨hfull, hold⟩
        obtain ⟨e, he, rfl⟩ := Option.map_eq_some_iff.mp hold
        have hstored := oldest_stored he
        rw [hk] at hstored
        obtain rfl := Option.some.inj hstored
        exact hstale ts nonce hpresents hnew hfull e he hfresh
      · intro hkeep ts' nonce' _ _ hfull e he hfresh
        have hkept := hkeep e.1 e.2 (oldest_stored he) hfresh
        have hother : e.1 ≠ nonce := by
          intro hsame
          have hstored := oldest_stored he
          rw [hsame, hnew] at hstored
          cases hstored
        rw [if_neg hother, if_pos ⟨hfull, by rw [he]; rfl⟩] at hkept
        cases hkept
    · simp only [heq]
      refine iff_of_true (fun ts nonce hpresents hnew => ?_) (fun k ts hk _ => hk)
      exact absurd hnew (hnone ts nonce hpresents)
  | cleanup now =>
    simp only [trackerStep, Except.ok.injEq] at hstep
    subst hstep
    simp only [getElem?_cleanupExpired, Option.filter_eq_some_iff, decide_eq_true_eq,
      UInt64.le_iff_toNat_le, Word.toNat_saturatingSub64]
    constructor
    · intro hstale k ts hk hfresh
      refine ⟨hk, ?_⟩
      rcases hfresh.2 with hunlimited | hage
      · have hle := UInt64.le_iff_toNat_le.mp (hstale hunlimited (k, ts) (mem_nonces.mpr hk))
        change now.toNat ≤ ts.toNat at hle
        omega
      · change now.toNat - ts.toNat < maxAge.toNat at hage
        omega
    · intro hkeep hunlimited e he
      have hstored := mem_nonces.mp he
      have hkept := (hkeep e.1 e.2 hstored ⟨hpast e.1 e.2 hstored, Or.inl hunlimited⟩).2
      rw [hunlimited, UInt64.toNat_zero] at hkept
      rw [UInt64.le_iff_toNat_le]
      exact hkept

end Steps

section Histories

variable {hmacSha256 : Bytes → Bytes → BytesN 32} {maxAge : UInt64}

def Accepts (hmacSha256 : Bytes → Bytes → BytesN 32) (maxAge : UInt64) (t : TrackerTransition)
    (payload : Text) (ts : UInt64) (nonce : Text) : Prop :=
  ∃ signatureHeader key now, t.input = .verify payload signatureHeader key now ∧
    Presents hmacSha256 maxAge payload signatureHeader key now ts nonce ∧
    t.pre.nonces[nonce]? = none

theorem reportsValid_iff {t : TrackerTransition} {payload : Text} :
    ReportsValid hmacSha256 maxAge t payload ↔
      ∃ ts nonce, Accepts hmacSha256 maxAge t payload ts nonce := by
  simp only [ReportsValid, Accepts, verify_valid_iff]
  constructor
  · rintro ⟨signatureHeader, key, now, hinput, ts, nonce, hpresents, hnew⟩
    exact ⟨ts, nonce, signatureHeader, key, now, hinput, hpresents, hnew⟩
  · rintro ⟨ts, nonce, signatureHeader, key, now, hinput, hpresents, hnew⟩
    exact ⟨signatureHeader, key, now, hinput, ts, nonce, hpresents, hnew⟩

theorem Accepts.recorded {t : TrackerTransition} {payload nonce : Text} {ts : UInt64}
    (hstep : trackerStep hmacSha256 maxAge t.pre t.input = .ok t.post)
    (h : Accepts hmacSha256 maxAge t payload ts nonce) : t.post.nonces[nonce]? = some ts := by
  obtain ⟨signatureHeader, key, now, hinput, hpresents, hnew⟩ := h
  rw [hinput] at hstep
  have hpost := Except.ok.inj hstep
  obtain ⟨ts', nonce', hpresents', _, heq⟩ | ⟨result, _, _, hnone⟩ :=
    verify_cases hmacSha256 maxAge now payload signatureHeader key t.pre
  · obtain ⟨rfl, rfl⟩ := Prod.mk.inj
      (Option.some.inj (hpresents'.fields.symm.trans hpresents.fields))
    rw [← hpost, heq, getElem?_record, if_pos rfl]
  · exact absurd hnew (hnone ts nonce hpresents)

theorem Accepts.le_time {t : TrackerTransition} {payload nonce : Text} {ts : UInt64}
    (h : Accepts hmacSha256 maxAge t payload ts nonce) : ts ≤ t.input.time := by
  obtain ⟨signatureHeader, key, now, hinput, hpresents, _⟩ := h
  rw [hinput]
  exact hpresents.fresh.1

def StoredAccepted (hmacSha256 : Bytes → Bytes → BytesN 32) (maxAge : UInt64)
    (past : List TrackerTransition) (tracker : MemoryNonceTracker) : Prop :=
  ∀ k ts, tracker.nonces[k]? = some ts →
    ∃ t ∈ past, ∃ payload, Accepts hmacSha256 maxAge t payload ts k

def RemembersFresh (hmacSha256 : Bytes → Bytes → BytesN 32) (maxAge : UInt64)
    (past : List TrackerTransition) (tracker : MemoryNonceTracker) : Prop :=
  ∀ t ∈ past, ∀ payload ts nonce, Accepts hmacSha256 maxAge t payload ts nonce →
    ∀ now, (∀ u ∈ past, u.input.time ≤ now) → Fresh maxAge now ts →
      tracker.nonces[nonce]? = some ts

theorem storedAccepted_step {past : List TrackerTransition} {t : TrackerTransition}
    (hstep : trackerStep hmacSha256 maxAge t.pre t.input = .ok t.post)
    (hpast : StoredAccepted hmacSha256 maxAge past t.pre) :
    StoredAccepted hmacSha256 maxAge (past ++ [t]) t.post := by
  intro k ts hk
  obtain hold | ⟨payload, signatureHeader, key, now, hinput, hnew, hpresents⟩ :=
    stored_step hstep hk
  · obtain ⟨u, hu, haccepts⟩ := hpast k ts hold
    exact ⟨u, List.mem_append_left _ hu, haccepts⟩
  · exact ⟨t, List.mem_append_right _ List.mem_cons_self, payload, signatureHeader, key, now,
      hinput, hpresents, hnew⟩

/-- The calls before a step are not later than it, and so is everything stored. -/
theorem StoredAccepted.le_time {past : List TrackerTransition} {tracker : MemoryNonceTracker}
    {now : UInt64} (h : StoredAccepted hmacSha256 maxAge past tracker)
    (hnow : ∀ u ∈ past, u.input.time ≤ now) (k : Text) (ts : UInt64)
    (hk : tracker.nonces[k]? = some ts) : ts ≤ now := by
  obtain ⟨u, hu, payload, haccepts⟩ := h k ts hk
  exact UInt64.le_trans haccepts.le_time (hnow u hu)

theorem remembersFresh_step {past : List TrackerTransition} {t : TrackerTransition}
    (hstep : trackerStep hmacSha256 maxAge t.pre t.input = .ok t.post)
    (hstored : StoredAccepted hmacSha256 maxAge past t.pre)
    (hremembers : RemembersFresh hmacSha256 maxAge past t.pre)
    (htime : ∀ u ∈ past, u.input.time ≤ t.input.time)
    (hstale : FindsOnlyStale hmacSha256 maxAge t) :
    RemembersFresh hmacSha256 maxAge (past ++ [t]) t.post := by
  rw [findsOnlyStale_iff hstep (hstored.le_time htime)] at hstale
  intro u hu payload ts nonce haccepts now hnow hfresh
  rcases Machine.mem_snoc.mp hu with hu | rfl
  · have hthen : Fresh maxAge t.input.time ts :=
      hfresh.earlier (UInt64.le_trans haccepts.le_time (htime u hu))
        (hnow t (List.mem_append_right _ List.mem_cons_self))
    exact hstale nonce ts (hremembers u hu payload ts nonce haccepts _ htime hthen) hthen
  · exact haccepts.recorded hstep

theorem storedAccepted_run {tracker : MemoryNonceTracker} (hempty : tracker.nonces = ∅)
    (calls : List WebhookCall) :
    StoredAccepted hmacSha256 maxAge
      (Machine.transitions (trackerStep hmacSha256 maxAge) tracker calls)
      (Machine.run (trackerStep hmacSha256 maxAge) tracker calls) := by
  apply Machine.history_invariant _ _ fun _ => True
  · intro k ts hk
    rw [hempty, Std.TreeMap.getElem?_emptyc] at hk
    cases hk
  · exact fun past t hstep hpast _ => storedAccepted_step hstep hpast
  · exact fun _ _ => trivial

theorem remembersFresh_run {tracker : MemoryNonceTracker} (hempty : tracker.nonces = ∅)
    {calls : List WebhookCall} (htime : TimeOrdered calls)
    (hstale : ∀ t ∈ Machine.transitions (trackerStep hmacSha256 maxAge) tracker calls,
      FindsOnlyStale hmacSha256 maxAge t) :
    RemembersFresh hmacSha256 maxAge
      (Machine.transitions (trackerStep hmacSha256 maxAge) tracker calls)
      (Machine.run (trackerStep hmacSha256 maxAge) tracker calls) := by
  have hboth := Machine.guarded_history_invariant (trackerStep hmacSha256 maxAge)
    (fun past s => StoredAccepted hmacSha256 maxAge past s ∧ RemembersFresh hmacSha256 maxAge past s)
    (fun past t => (∀ u ∈ past, u.input.time ≤ t.input.time) ∧ FindsOnlyStale hmacSha256 maxAge t)
    (s := tracker)
    ⟨storedAccepted_run hempty [], fun t ht => absurd ht List.not_mem_nil⟩
    (fun past t hstep hpre hgood => ⟨storedAccepted_step hstep hpre.1,
      remembersFresh_step hstep hpre.1 hpre.2 hgood.1 hgood.2⟩) calls ?_
  · exact hboth.2
  · intro before t after heq
    refine ⟨Machine.atEachStep_of_pairwise _ htime before t after heq, hstale t ?_⟩
    rw [heq]
    exact List.mem_append_right _ List.mem_cons_self

/-- A message that is remembered is not accepted again while it is fresh. -/
theorem RemembersFresh.not_again {past : List TrackerTransition} {t u : TrackerTransition}
    {payload : Text} (h : RemembersFresh hmacSha256 maxAge past u.pre) (ht : t ∈ past)
    (htime : ∀ w ∈ past, w.input.time ≤ u.input.time)
    (hfirst : ReportsValid hmacSha256 maxAge t payload) :
    ¬ ReportsValid hmacSha256 maxAge u payload := by
  intro hagain
  obtain ⟨ts, nonce, haccepts⟩ := reportsValid_iff.mp hfirst
  obtain ⟨ts', nonce', hagain⟩ := reportsValid_iff.mp hagain
  obtain ⟨_, _, _, _, hpresents, _⟩ := haccepts
  obtain ⟨_, _, now, hinput, hpresents', hnew⟩ := hagain
  obtain ⟨rfl, rfl⟩ := Prod.mk.inj (Option.some.inj (hpresents'.fields.symm.trans hpresents.fields))
  have hfresh : Fresh maxAge u.input.time ts' := by
    rw [hinput]
    exact hpresents'.fresh
  have hstored := h t ht payload ts' nonce' ⟨_, _, _, ‹_›, hpresents, ‹_›⟩ _ htime hfresh
  rw [hnew] at hstored
  cases hstored

theorem noneValidTwice_snoc {tracker : MemoryNonceTracker} (hempty : tracker.nonces = ∅)
    {calls : List WebhookCall} {again : WebhookCall} (htime : TimeOrdered (calls ++ [again]))
    (hstale : ∀ t ∈ Machine.transitions (trackerStep hmacSha256 maxAge) tracker calls,
      FindsOnlyStale hmacSha256 maxAge t) :
    NoneValidTwice hmacSha256 maxAge tracker (calls ++ [again]) := by
  rw [NoneValidTwice, ← Machine.atEachStep_forall_mem]
  intro before u after heq t ht payload hfirst
  have hpast := Machine.atEachStep_of_pairwise _ htime before u after heq
  obtain ⟨earlier, later, hcalls, hrun, hbefore⟩ := Machine.exists_prefix_of_transitions_eq _ heq
  have hearlier : earlier <+: calls := by
    rcases Machine.snoc_eq_split hcalls with ⟨_, rfl, _⟩ | ⟨rest, _, rfl⟩
    · exact List.prefix_rfl
    · exact List.prefix_append _ _
  have hordered : TimeOrdered earlier :=
    htime.sublist (hearlier.sublist.trans (List.sublist_append_left _ _))
  have hremembers := remembersFresh_run hempty hordered fun w hw =>
    hstale w ((Machine.transitions_mono _ hearlier).subset hw)
  rw [hrun, hbefore] at hremembers
  exact hremembers.not_again ht hpast hfirst

/-- A run that forgets a fresh nonce can go on with the message that it belongs to. -/
theorem findsOnlyStale_of_noneValidTwice {tracker : MemoryNonceTracker}
    (hempty : tracker.nonces = ∅) {calls : List WebhookCall} (htime : TimeOrdered calls)
    (hnone : ∀ js again, js <+: calls → TimeOrdered (js ++ [again]) →
      NoneValidTwice hmacSha256 maxAge tracker (js ++ [again])) :
    ∀ t ∈ Machine.transitions (trackerStep hmacSha256 maxAge) tracker calls,
      FindsOnlyStale hmacSha256 maxAge t := by
  intro t ht
  have hstep := Machine.step_of_mem_transitions _ ht
  obtain ⟨js, ks, rfl, hrun⟩ := Machine.exists_prefix_of_mem_transitions _ ht
  have hstored : StoredAccepted hmacSha256 maxAge
      (Machine.transitions (trackerStep hmacSha256 maxAge) tracker js)
      (Machine.run (trackerStep hmacSha256 maxAge) tracker js) := storedAccepted_run hempty js
  rw [hrun] at hstored
  have hupto : (js ++ [t.input]) <+: js ++ t.input :: ks := by simp
  have hordered : TimeOrdered (js ++ [t.input]) := htime.sublist hupto.sublist
  have hpast : ∀ u ∈ Machine.transitions (trackerStep hmacSha256 maxAge) tracker js,
      u.input.time ≤ t.input.time := by
    intro u hu
    have hmem := (Machine.map_input_sublist _ tracker js).subset (List.mem_map_of_mem hu)
    exact (List.pairwise_append.mp hordered).2.2 _ hmem _ List.mem_cons_self
  rw [findsOnlyStale_iff hstep (hstored.le_time hpast)]
  intro k ts hk hfresh
  refine (getElem?_step hstep hk).resolve_right fun hforgotten => ?_
  obtain ⟨u, hu, payload, haccepts⟩ := hstored k ts hk
  obtain ⟨signatureHeader, key, now, _, hpresents, _⟩ := id haccepts
  -- the message once more, at the time of the step that forgot its nonce
  let again : WebhookCall := .verify payload signatureHeader key t.input.time
  have hagain : TimeOrdered ((js ++ [t.input]) ++ [again]) := by
    refine List.pairwise_append.mpr ⟨hordered, List.pairwise_singleton _ _, fun c hc d hd => ?_⟩
    obtain rfl := List.mem_singleton.mp hd
    rcases Machine.mem_snoc.mp hc with hc | rfl
    · exact (List.pairwise_append.mp hordered).2.2 c hc t.input List.mem_cons_self
    · exact UInt64.le_refl _
  have htwice := hnone _ again hupto hagain
  have hpost : Machine.run (trackerStep hmacSha256 maxAge) tracker (js ++ [t.input]) = t.post := by
    rw [Machine.run_snoc, hrun, Machine.commit_ok _ hstep]
  rw [NoneValidTwice, Machine.transitions_snoc, hpost, Machine.transitions_append] at htwice
  have hlast := (List.pairwise_append.mp htwice).2.2 u (List.mem_append_left _ hu)
    ⟨t.post, again, _⟩ List.mem_cons_self payload (reportsValid_iff.mpr ⟨ts, k, haccepts⟩)
  apply hlast
  refine reportsValid_iff.mpr ⟨ts, k, signatureHeader, key, t.input.time, rfl, ?_, hforgotten⟩
  exact ⟨hpresents.signed, hpresents.fields, hfresh, hpresents.not_blank⟩

end Histories

def IsNew (tracker : MemoryNonceTracker) : Prop :=
  tracker = .new ∨ ∃ maxCapacity, MemoryNonceTracker.withCapacity maxCapacity = .ok tracker

theorem IsNew.nonces_eq {tracker : MemoryNonceTracker} (h : IsNew tracker) : tracker.nonces = ∅ := by
  obtain rfl | ⟨maxCapacity, h⟩ := h
  · rfl
  · unfold MemoryNonceTracker.withCapacity at h
    split at h
    · cases h
    · obtain rfl := Except.ok.inj h
      rfl

end Webhook

/-- On a new tracker and at non-decreasing times, no body is reported valid twice by any part of the
calls followed by one more exactly when no call finds a fresh nonce to forget. -/
theorem noneValidTwice_iff (hmacSha256 : Bytes → Bytes → BytesN 32) (maxAge : UInt64)
    {tracker : Webhook.MemoryNonceTracker} (hnew : Webhook.IsNew tracker)
    {calls : List Webhook.WebhookCall} (htime : Webhook.TimeOrdered calls) :
    (∀ js again, js <+: calls → Webhook.TimeOrdered (js ++ [again]) →
      Webhook.NoneValidTwice hmacSha256 maxAge tracker (js ++ [again])) ↔
    ∀ t ∈ Machine.transitions (Webhook.trackerStep hmacSha256 maxAge) tracker calls,
      Webhook.FindsOnlyStale hmacSha256 maxAge t := by
  constructor
  · exact Webhook.findsOnlyStale_of_noneValidTwice hnew.nonces_eq htime
  · intro hstale js again hjs hordered
    exact Webhook.noneValidTwice_snoc hnew.nonces_eq hordered fun t ht =>
      hstale t ((Machine.transitions_mono _ hjs).subset ht)

namespace Demo

open Webhook

def replayedBody : Text := "\x7b\"timestamp\":50,\"nonce\":\"n1\"\x7d".toList

/-- The delivery of `replayedBody` at a time, as its sender signs it. -/
def replayedDelivery (hmacSha256 : Bytes → Bytes → BytesN 32) (now : UInt64) : WebhookCall :=
  .verify replayedBody (signaturePrefix ++ signPayload hmacSha256 [1] replayedBody) [1] now

theorem presents_replayedBody (hmacSha256 : Bytes → Bytes → BytesN 32) {maxAge now : UInt64}
    (h : Fresh maxAge now 50) :
    Presents hmacSha256 maxAge replayedBody
      (signaturePrefix ++ signPayload hmacSha256 [1] replayedBody) [1] now 50 ['n', '1'] where
  signed := verifyWebhookSignature_signPayload (by decide) (by decide)
  fields := by decide
  fresh := h
  not_blank := by decide

def deliveredAndCleaned (hmacSha256 : Bytes → Bytes → BytesN 32) : List WebhookCall :=
  [replayedDelivery hmacSha256 100, .cleanup 101]

def cleanedRun (hmacSha256 : Bytes → Bytes → BytesN 32) : List WebhookCall :=
  deliveredAndCleaned hmacSha256 ++ [replayedDelivery hmacSha256 101]

theorem timeOrdered_cleanedRun (hmacSha256 : Bytes → Bytes → BytesN 32) :
    TimeOrdered (cleanedRun hmacSha256) := by
  simp only [TimeOrdered, cleanedRun, deliveredAndCleaned, replayedDelivery, List.cons_append,
    List.nil_append, List.pairwise_cons, List.forall_mem_cons, WebhookCall.time]
  decide

end Demo

open Webhook

/-- Without an age limit a cleanup forgets every message, and the next copy of it is accepted. -/
theorem cleanup_without_limit_forgets :
    ¬ ∃ hmacSha256 : Bytes → Bytes → BytesN 32, TimeOrdered (Demo.cleanedRun hmacSha256) →
      NoneValidTwice hmacSha256 0 .new (Demo.cleanedRun hmacSha256) := by
  rintro ⟨hmacSha256, hnone⟩
  have hfresh (now : UInt64) (h : 50 ≤ now) : Fresh 0 now 50 := ⟨h, Or.inl rfl⟩
  have hpairs := List.pairwise_cons.mp (hnone (Demo.timeOrdered_cleanedRun hmacSha256))
  -- the tracker before the cleanup holds at most the nonce of the message
  have hforgotten (tracker : MemoryNonceTracker)
      (h : ∀ ts, tracker.nonces[(['n', '1'] : Text)]? = some ts → ts = 50) :
      (tracker.cleanupExpired 101 0).nonces[(['n', '1'] : Text)]? = none := by
    rw [getElem?_cleanupExpired, Option.filter_eq_none_iff]
    intro ts hts
    rw [h ts hts]
    decide
  refine hpairs.1 _ (List.mem_cons_of_mem _ List.mem_cons_self) Demo.replayedBody ?_ ?_
  · refine reportsValid_iff.mpr ⟨50, ['n', '1'], _, _, _, rfl, ?_, Std.TreeMap.getElem?_emptyc⟩
    exact Demo.presents_replayedBody hmacSha256 (hfresh 100 (by decide))
  · refine reportsValid_iff.mpr ⟨50, ['n', '1'], _, _, _, rfl, ?_, hforgotten _ ?_⟩
    · exact Demo.presents_replayedBody hmacSha256 (hfresh 101 (by decide))
    · intro ts hts
      let first : TrackerTransition := ⟨.new, Demo.replayedDelivery hmacSha256 100,
        Machine.commit (trackerStep hmacSha256 0) .new (Demo.replayedDelivery hmacSha256 100)⟩
      obtain hold | ⟨_, _, _, _, hinput, _, hpresents⟩ := stored_step (t := first) rfl hts
      · cases Std.TreeMap.getElem?_emptyc.symm.trans hold
      · cases hinput
        have hfields := (Demo.presents_replayedBody hmacSha256 (hfresh 100 (by decide))).fields
        exact (Prod.mk.inj (Option.some.inj (hpresents.fields.symm.trans hfields))).1

/-- A message within its age limit, a cleanup and a copy of the message. -/
theorem noneValidTwice_limited : IsNew .new ∧ ∀ hmacSha256 : Bytes → Bytes → BytesN 32,
    NoneValidTwice hmacSha256 300 .new (Demo.cleanedRun hmacSha256) := by
  have hnew : IsNew .new := Or.inl rfl
  refine ⟨hnew, fun hmacSha256 => ?_⟩
  have hordered := Demo.timeOrdered_cleanedRun hmacSha256
  apply (noneValidTwice_iff hmacSha256 300 hnew (hordered.sublist
    (List.sublist_append_left _ _))).mpr _ _ _ List.prefix_rfl hordered
  intro t ht
  rcases List.mem_cons.mp ht with rfl | ht
  · intro ts nonce _ _ hfull
    have hroom : ¬ MemoryNonceTracker.new.maxCapacity ≤ MemoryNonceTracker.new.nonces.size := by
      decide
    exact absurd hfull hroom
  · obtain rfl := List.mem_singleton.mp ht
    intro hunlimited
    exact absurd hunlimited (by decide)

end AnchorKit
