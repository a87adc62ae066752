import AnchorKit.Library.OrderedMap
import AnchorKit.RetryLoops
import AnchorKit.Webhook

/-!
# Delivery of webhooks

A payload is posted until an answer is below 400 or the attempts are used up. What is left of a
failed delivery is an entry in a dead-letter map, put together from the configuration and from what
the last attempt wrote down. A second entry point counts deliveries in a registry of metrics.
-/

namespace AnchorKit

open Fallible

def TraceContext.logFields (ctx : TraceContext) : Text :=
  "trace_id=".toList ++ ctx.traceId.val ++ " span_id=".toList ++ ctx.spanId.val ++
    match ctx.parentSpanId with
    | some parent => " parent_span_id=".toList ++ parent.val
    | none => []

namespace Webhook

open Retry

structure WebhookDeliveryConfig where
  endpointUrl : Text
  retryConfig : Retry.RetryConfig
  deadLetterStorageKey : Text
  signingKey : Option Bytes

structure DlqEntry where
  payload : Text
  failedAtTimestamp : UInt64
  lastStatusCode : UInt16
  attemptsMade : UInt32
  lastError : Text
  traceId : Text
  spanId : Text
  lastAttemptSpanId : Text
deriving DecidableEq, Repr

/-- The dead-letter map: lists of entries under their keys. -/
abbrev DeadLetters := Std.TreeMap Text (List DlqEntry)

/-- What the attempts of a delivery write down, and the world they act on. -/
structure DeliveryCells (W : Type) where
  lastErrorMsg : Text
  lastStatus : UInt16
  lastAttemptSpan : Text
  world : W

def sleepCells {W : Type} (sleepFn : UInt64 → W → W) (delay : UInt64) (cells : DeliveryCells W) :
    DeliveryCells W :=
  { cells with world := sleepFn delay cells.world }

section Model

variable {W : Type} (sha256 : Bytes → BytesN 32) (hmacSha256 : Bytes → Bytes → BytesN 32)

def attemptDelivery (config : WebhookDeliveryConfig) (payload : Text) (sigHeader : Option Text)
    (httpPost : Text → Text → Option Text → TraceContext → W → Except Text UInt16 × W)
    (attemptTrace : TraceContext) (cells : DeliveryCells W) : Except Text Unit × DeliveryCells W :=
  let cells := { cells with lastAttemptSpan := attemptTrace.spanId.val }
  let (answer, world) := httpPost config.endpointUrl payload sigHeader attemptTrace cells.world
  let cells := { cells with world }
  match answer with
  | .ok s =>
    if s < 400 then (.ok (), cells)
    else
      let msg := "HTTP ".toList ++ Nat.toDigits 10 s.toNat
      (.error msg, { cells with lastErrorMsg := msg, lastStatus := s })
  | .error e => (.error e, { cells with lastErrorMsg := e, lastStatus := 0 })

def deliveryError (attemptsMade : UInt32) (e : Text) (status : UInt16) (last : Text)
    (deliverySpan : TraceContext) (lastSpan : Text) : AnchorKitError :=
  .withContext .webhookDeliveryFailed
    (String.ofList ("Webhook delivery failed after ".toList ++ Nat.toDigits 10 attemptsMade.toNat ++
      " attempt(s): ".toList ++ e))
    (String.ofList ("attempts_made=".toList ++ Nat.toDigits 10 attemptsMade.toNat ++
      " last_status=".toList ++ Nat.toDigits 10 status.toNat ++ " last_error=".toList ++ last ++
      ' ' :: deliverySpan.logFields ++ " last_attempt_span_id=".toList ++ lastSpan))

def deliverWebhookTraced (config : WebhookDeliveryConfig) (payload : Text) (trace : TraceContext)
    (dlq : DeadLetters)
    (httpPost : Text → Text → Option Text → TraceContext → W → Except Text UInt16 × W)
    (sleepFn : UInt64 → W → W) (nowFn : W → UInt64) (w : W) :
    Except Panic (Except AnchorKitError Unit × DeadLetters × W) := do
  let sigHeader := config.signingKey.map fun k =>
    signaturePrefix ++ signPayload hmacSha256 k payload
  let deliverySpan := trace.child sha256 "webhook-delivery".toList
  let jitterSource := LedgerJitterSource.new 0 (nowFn w)
  let (result, _, cells) ← retryWithBackoffTraced config.retryConfig (fun _ => true)
    (sleepCells sleepFn) sha256 deliverySpan
    (fun _attempt => attemptDelivery config payload sigHeader httpPost) jitterSource
    ⟨[], 0, deliverySpan.spanId.val, w⟩
  match result with
  | .ok () => return (.ok (), dlq, cells.world)
  | .error e =>
    let attemptsMade := config.retryConfig.maxAttempts
    let entry :=
      { payload, failedAtTimestamp := nowFn cells.world, lastStatusCode := cells.lastStatus,
        attemptsMade, lastError := cells.lastErrorMsg, traceId := deliverySpan.traceId.val,
        spanId := deliverySpan.spanId.val, lastAttemptSpanId := cells.lastAttemptSpan }
    let entries := dlq.getD config.deadLetterStorageKey []
    return (.error (deliveryError attemptsMade e cells.lastStatus cells.lastErrorMsg deliverySpan
        cells.lastAttemptSpan),
      dlq.insert config.deadLetterStorageKey (entries ++ [entry]), cells.world)

def deriveDeliveryTrace (config : WebhookDeliveryConfig) (payload : Text) : TraceContext :=
  .rootFromSeed sha256 ("webhook:".toList ++ config.endpointUrl ++
    ':' :: config.deadLetterStorageKey ++ ':' :: payload)

def deliverWebhook (config : WebhookDeliveryConfig) (payload : Text) (dlq : DeadLetters)
    (httpPost : Text → Text → Option Text → W → Except Text UInt16 × W)
    (sleepFn : UInt64 → W → W) (nowFn : W → UInt64) (w : W) :
    Except Panic (Except AnchorKitError Unit × DeadLetters × W) :=
  let trace := deriveDeliveryTrace sha256 config payload
  deliverWebhookTraced sha256 hmacSha256 config payload trace dlq
    (fun url body sig _trace => httpPost url body sig) sleepFn nowFn w

end Model

/-! ### Metrics -/

structure MetricsRegistry where
  ns : Option Text
  counters : Std.TreeMap Text UInt64
  gauges : Std.TreeMap Text UInt64

namespace MetricsRegistry

def qualify (metrics : MetricsRegistry) (name : Text) : Text :=
  match metrics.ns with
  | some ns => ns ++ '.' :: name
  | none => name

/-- The counters stop at the largest number. -/
def incrBy (metrics : MetricsRegistry) (name : Text) (delta : UInt64) : MetricsRegistry :=
  let key := metrics.qualify name
  { metrics with
    counters :=
      metrics.counters.insert key (Word.saturatingAdd64 (metrics.counters.getD key 0) delta) }

def incr (metrics : MetricsRegistry) (name : Text) : MetricsRegistry := metrics.incrBy name 1

def counter (metrics : MetricsRegistry) (name : Text) : UInt64 :=
  metrics.counters.getD (metrics.qualify name) 0

def setGauge (metrics : MetricsRegistry) (name : Text) (value : UInt64) : MetricsRegistry :=
  { metrics with gauges := metrics.gauges.insert (metrics.qualify name) value }

end MetricsRegistry

def webhookDeliveries : Text := "webhook.deliveries".toList

def webhookAttempts : Text := "webhook.attempts".toList

def webhookSuccesses : Text := "webhook.successes".toList

def webhookFailures : Text := "webhook.failures".toList

def webhookDlqEntries : Text := "webhook.dlq_entries".toList

def webhookDlqDepth : Text := "webhook.dlq_depth".toList

def DeadLetters.total (dlq : DeadLetters) : ℕ := (dlq.toList.map fun e => e.2.length).sum

section Metered

variable {W : Type} (sha256 : Bytes → BytesN 32) (hmacSha256 : Bytes → Bytes → BytesN 32)

def deliverWebhookMetered (config : WebhookDeliveryConfig) (payload : Text) (dlq : DeadLetters)
    (httpPost : Text → Text → Option Text → W → Except Text UInt16 × W)
    (sleepFn : UInt64 → W → W) (nowFn : W → UInt64) (metrics : MetricsRegistry) (w : W) :
    Except Panic (Except AnchorKitError Unit × DeadLetters × MetricsRegistry × W) := do
  let metrics := metrics.incr webhookDeliveries
  let entriesBefore := dlq.total
  let (result, dlq, metrics, w) ← deliverWebhook sha256 hmacSha256 config payload dlq
    (fun url body signature (world : MetricsRegistry × W) =>
      let metrics := world.1.incr webhookAttempts
      let (answer, w) := httpPost url body signature world.2
      (answer, metrics, w))
    (fun delay world => (world.1, sleepFn delay world.2)) (fun world => nowFn world.2) (metrics, w)
  let metrics := match result with
    | .ok () => metrics.incr webhookSuccesses
    | .error _ =>
      let metrics := metrics.incr webhookFailures
      let entriesAfter := dlq.total
      metrics.incrBy webhookDlqEntries (UInt64.ofNat (entriesAfter - entriesBefore))
  let metrics := metrics.setGauge webhookDlqDepth (UInt64.ofNat dlq.total)
  return (result, dlq, metrics, w)

end Metered

/-! ### One delivery -/

/-- The status and the message that are written down for an answer that fails. -/
def recorded : Except Text UInt16 → Option (UInt16 × Text)
  | .ok s => if s < 400 then none else some (s, "HTTP ".toList ++ Nat.toDigits 10 s.toNat)
  | .error e => some (0, e)

theorem recorded_eq_none {answer : Except Text UInt16} :
    recorded answer = none ↔ ∃ s, answer = .ok s ∧ s < 400 := by
  constructor
  · intro h
    cases answer with
    | ok s =>
      dsimp only [recorded] at h
      split at h
      · rename_i hlow
        exact ⟨s, rfl, hlow⟩
      · cases h
    | error e => cases h
  · rintro ⟨s, rfl, hlow⟩
    exact if_pos hlow

def attemptResult (answer : Except Text UInt16) : Except Text Unit :=
  match recorded answer with
  | none => .ok ()
  | some (_, msg) => .error msg

section Delivery

variable {W : Type} (outcomes : ℕ → Except Text UInt16)

def lastFailure : ℕ → UInt16 × Text
  | 0 => (0, [])
  | n + 1 => (recorded (outcomes n)).getD (lastFailure n)

/-- The world shows which posts and sleeps were made, and the posts get the given answers in
turn. -/
structure Answers (post : TraceContext → W → Except Text UInt16 × W) (sleepFn : UInt64 → W → W)
    (ι : List (Retry.Event TraceContext) → W) : Prop where
  post (trace : TraceContext) (log : List (Retry.Event TraceContext)) :
    post trace (ι log) = (outcomes (invocations log).length, ι (log ++ [.invoked trace]))
  sleep (delay : UInt64) (log : List (Retry.Event TraceContext)) :
    sleepFn delay (ι log) = ι (log ++ [.slept delay])

def cellsAt (deliverySpan : TraceContext) (ι : List (Retry.Event TraceContext) → W)
    (log : List (Retry.Event TraceContext)) : DeliveryCells W where
  lastErrorMsg := (lastFailure outcomes (invocations log).length).2
  lastStatus := (lastFailure outcomes (invocations log).length).1
  lastAttemptSpan := ((invocations log).getLast?.getD deliverySpan).spanId.val
  world := ι log

variable {outcomes} {config : WebhookDeliveryConfig} {payload : Text} {sig : Option Text}
  {httpPost : Text → Text → Option Text → TraceContext → W → Except Text UInt16 × W}
  {sleepFn : UInt64 → W → W} {ι : List (Retry.Event TraceContext) → W}

theorem attemptDelivery_cellsAt
    (h : Answers outcomes (httpPost config.endpointUrl payload sig) sleepFn ι)
    (deliverySpan trace : TraceContext) (log : List (Retry.Event TraceContext)) :
    attemptDelivery config payload sig httpPost trace (cellsAt outcomes deliverySpan ι log) =
      (attemptResult (outcomes (invocations log).length),
        cellsAt outcomes deliverySpan ι (log ++ [.invoked trace])) := by
  have hlast : (invocations (log ++ [.invoked trace])).getLast?.getD deliverySpan = trace := by
    simp
  have hcount : (invocations (log ++ [Retry.Event.invoked trace])).length =
      (invocations log).length + 1 := by
    simp
  unfold attemptDelivery
  dsimp only [cellsAt]
  rw [h.post, hcount, hlast, attemptResult, lastFailure]
  cases outcomes (invocations log).length with
  | error e => rfl
  | ok s =>
    dsimp only [recorded]
    split
    · rfl
    · rfl

theorem sleepCells_cellsAt
    (h : Answers outcomes (httpPost config.endpointUrl payload sig) sleepFn ι)
    (deliverySpan : TraceContext) (delay : UInt64) (log : List (Retry.Event TraceContext)) :
    sleepCells sleepFn delay (cellsAt outcomes deliverySpan ι log) =
      cellsAt outcomes deliverySpan ι (sleep delay log) := by
  have hsame : invocations (log ++ [Retry.Event.slept delay]) = invocations log := by simp
  dsimp only [cellsAt, sleepCells, sleep]
  rw [h.sleep, hsame]

/-- The entry of a delivery whose last attempt failed so. -/
def entryFor (config : WebhookDeliveryConfig) (payload : Text) (deliverySpan : TraceContext)
    (failedAt : UInt64) (failure : UInt16 × Text) (lastAttempt : TraceContext) : DlqEntry :=
  { payload, failedAtTimestamp := failedAt, lastStatusCode := failure.1,
    attemptsMade := config.retryConfig.maxAttempts, lastError := failure.2,
    traceId := deliverySpan.traceId.val, spanId := deliverySpan.spanId.val,
    lastAttemptSpanId := lastAttempt.spanId.val }

/-- A delivery posts until an attempt succeeds or is the last one, which there always is. -/
theorem deliverWebhookTraced_eq (sha256 : Bytes → BytesN 32)
    (hmacSha256 : Bytes → Bytes → BytesN 32) (trace : TraceContext) (dlq : DeadLetters)
    (nowFn : W → UInt64)
    (h : Answers outcomes (httpPost config.endpointUrl payload
      (config.signingKey.map fun k => signaturePrefix ++ signPayload hmacSha256 k payload))
      sleepFn ι) :
    let span := trace.child sha256 "webhook-delivery".toList
    ∃ delays log, EndsAt (fun _ => true) (fun i => attemptResult (outcomes i))
        (max 1 config.retryConfig.maxAttempts.toNat) 0 delays.length ∧
      log = paced (fun a => span.childForAttempt sha256 a) 0 delays ∧
      deliverWebhookTraced sha256 hmacSha256 config payload trace dlq httpPost sleepFn nowFn (ι []) =
        .ok (match recorded (outcomes delays.length) with
          | none => (.ok (), dlq, ι log)
          | some failure =>
            let lastAttempt := span.childForAttempt sha256 (UInt32.ofNat delays.length)
            (.error (deliveryError config.retryConfig.maxAttempts failure.2 failure.1 failure.2 span
                lastAttempt.spanId.val),
              dlq.insert config.deadLetterStorageKey (dlq.getD config.deadLetterStorageKey [] ++
                [entryFor config payload span (nowFn (ι log)) failure lastAttempt]),
              ι log)) := by
  intro span
  have hf (a : UInt32) (log : List (Retry.Event TraceContext)) :
      attemptDelivery config payload (config.signingKey.map fun k =>
          signaturePrefix ++ signPayload hmacSha256 k payload) httpPost
        (span.childForAttempt sha256 a) (cellsAt outcomes span ι log) =
      ((Retry.operation (fun i => attemptResult (outcomes i)) (span.childForAttempt sha256 a)
          log).1,
        cellsAt outcomes span ι
          (Retry.operation (fun i => attemptResult (outcomes i)) (span.childForAttempt sha256 a)
            log).2) :=
    attemptDelivery_cellsAt h span _ log
  obtain ⟨delays, source, hends, hrun⟩ := retryWithBackoff_eq_max config.retryConfig
    (fun _ : Text => true) (fun i => attemptResult (outcomes i))
    (fun a => span.childForAttempt sha256 a) (LedgerJitterSource.new 0 (nowFn (ι [])))
  have hloop : retryWithBackoffTraced config.retryConfig (fun _ => true) (sleepCells sleepFn) sha256
      span (fun _attempt => attemptDelivery config payload (config.signingKey.map fun k =>
        signaturePrefix ++ signPayload hmacSha256 k payload) httpPost)
      (LedgerJitterSource.new 0 (nowFn (ι []))) ⟨[], 0, span.spanId.val, ι []⟩ =
        .ok (attemptResult (outcomes delays.length), source,
          cellsAt outcomes span ι (paced (fun a => span.childForAttempt sha256 a) 0 delays)) := by
    have hembed := retryWithBackoff_embed config.retryConfig (fun _ : Text => true) hf
      (sleepCells_cellsAt h span) (LedgerJitterSource.new 0 (nowFn (ι []))) []
    rw [hrun] at hembed
    exact hembed
  have hcalls : (invocations (paced (fun a => span.childForAttempt sha256 a) 0 delays)).length =
      delays.length + 1 := length_invocations_paced _ _
  have hlast : (invocations (paced (fun a => span.childForAttempt sha256 a) 0
      delays)).getLast?.getD span = span.childForAttempt sha256 (UInt32.ofNat delays.length) := by
    rw [getLast?_invocations_paced, Option.getD_some]
  refine ⟨delays, _, hends, rfl, ?_⟩
  rw [deliverWebhookTraced]
  dsimp only
  rw [hloop, attemptResult]
  cases hrecorded : recorded (outcomes delays.length) with
  | none => rfl
  | some failure =>
    have hfailure : lastFailure outcomes (delays.length + 1) = failure := by
      rw [lastFailure, hrecorded, Option.getD_some]
    dsimp only [cellsAt, bind, Except.bind]
    rw [hcalls, hlast, hfailure]
    rfl

end Delivery

/-! ### The counters -/

section Counters

variable {metrics : MetricsRegistry} {name name' : Text} {n : ℕ}

theorem qualify_inj : metrics.qualify name = metrics.qualify name' ↔ name = name' := by
  unfold MetricsRegistry.qualify
  cases metrics.ns with
  | none => exact Iff.rfl
  | some ns => simp

theorem counter_incrBy (delta : UInt64) : (metrics.incrBy name delta).counter name' =
    if name' = name then Word.saturatingAdd64 (metrics.counter name) delta
    else metrics.counter name' := by
  change (metrics.counters.insert (metrics.qualify name) _).getD (metrics.qualify name') 0 = _
  rw [OrderedMap.getD_insert]
  simp only [qualify_inj, eq_comm (a := name)]
  rfl

/-- A counter after so many more events, of which it shows what it can. -/
def GrowsBy (before after : MetricsRegistry) (name : Text) (n : ℕ) : Prop :=
  (after.counter name).toNat = min ((before.counter name).toNat + n) (2 ^ 64 - 1)

theorem growsBy_zero {after : MetricsRegistry} (h : after.counter name = metrics.counter name) :
    GrowsBy metrics after name 0 := by
  have hlt := (metrics.counter name).toNat_lt
  rw [GrowsBy, h]
  omega

theorem GrowsBy.incr {before : MetricsRegistry} (h : GrowsBy before metrics name n) :
    GrowsBy before (metrics.incr name) name (n + 1) := by
  have hone : (1 : UInt64).toNat = 1 := rfl
  unfold GrowsBy MetricsRegistry.incr at *
  rw [counter_incrBy, if_pos rfl, Word.toNat_saturatingAdd64, h, hone]
  omega

theorem counter_incr_of_ne (h : name' ≠ name) :
    (metrics.incr name).counter name' = metrics.counter name' := by
  rw [MetricsRegistry.incr, counter_incrBy, if_neg h]

theorem GrowsBy.incr_of_ne {before : MetricsRegistry} (h : GrowsBy before metrics name n)
    (hne : name ≠ name') : GrowsBy before (metrics.incr name') name n := by
  rw [GrowsBy, counter_incr_of_ne hne]
  exact h

theorem GrowsBy.setGauge {before : MetricsRegistry} (h : GrowsBy before metrics name n)
    (gauge : Text) (value : UInt64) : GrowsBy before (metrics.setGauge gauge value) name n := h

def afterAttempts (metrics : MetricsRegistry) (n : ℕ) : MetricsRegistry :=
  (fun m => m.incr webhookAttempts)^[n] metrics

theorem afterAttempts_succ :
    afterAttempts metrics (n + 1) = (afterAttempts metrics n).incr webhookAttempts :=
  Function.iterate_succ_apply' _ _ _

theorem growsBy_afterAttempts (metrics : MetricsRegistry) (n : ℕ) :
    GrowsBy metrics (afterAttempts metrics n) webhookAttempts n := by
  induction n with
  | zero => exact growsBy_zero rfl
  | succ n ih =>
    rw [afterAttempts_succ]
    exact ih.incr

theorem counter_afterAttempts_of_ne (h : name ≠ webhookAttempts) :
    (afterAttempts metrics n).counter name = metrics.counter name := by
  induction n with
  | zero => rfl
  | succ n ih => rw [afterAttempts_succ, counter_incr_of_ne h, ih]

theorem GrowsBy.afterAttempts {before : MetricsRegistry} {k : ℕ} (h : GrowsBy before metrics name k)
    (hne : name ≠ webhookAttempts) : GrowsBy before (afterAttempts metrics n) name k := by
  rw [GrowsBy, counter_afterAttempts_of_ne hne]
  exact h

theorem total_insert (dlq : DeadLetters) (key : Text) (entry : DlqEntry) :
    DeadLetters.total (dlq.insert key (dlq.getD key [] ++ [entry])) = dlq.total + 1 := by
  have hsum := OrderedMap.sum_toList_insert dlq List.length key (dlq.getD key [] ++ [entry])
  have hlength : dlq[key]?.elim 0 List.length = (dlq.getD key []).length := by
    rw [Std.TreeMap.getD_eq_getD_getElem?]
    cases dlq[key]? with
    | none => rfl
    | some entries => rfl
  rw [hlength, List.length_append, List.length_singleton] at hsum
  unfold DeadLetters.total
  omega

end Counters

/-! ### What is left of a delivery -/

/-- How the transport is called. -/
structure Post where
  url : Text
  body : Text
  signature : Option Text
  trace : TraceContext

/-- The transport that gives the answers in turn and logs its calls. -/
def httpPost (outcomes : ℕ → Except Text UInt16) (url body : Text) (signature : Option Text)
    (trace : TraceContext) (log : List (Retry.Event Post)) :
    Except Text UInt16 × List (Retry.Event Post) :=
  Retry.operation outcomes ⟨url, body, signature, trace⟩ log

def httpPostUntraced (outcomes : ℕ → Except Text UInt16) (url body : Text)
    (signature : Option Text) (log : List (Retry.Event (Text × Text × Option Text))) :
    Except Text UInt16 × List (Retry.Event (Text × Text × Option Text)) :=
  Retry.operation outcomes (url, body, signature) log

/-- The transport with a counter of its calls, as a metered delivery hands it on. -/
def countedPost (outcomes : ℕ → Except Text UInt16) (url body : Text) (signature : Option Text)
    (_trace : TraceContext)
    (world : MetricsRegistry × List (Retry.Event (Text × Text × Option Text))) :
    Except Text UInt16 × MetricsRegistry × List (Retry.Event (Text × Text × Option Text)) :=
  let metrics := world.1.incr webhookAttempts
  let (answer, log) := httpPostUntraced outcomes url body signature world.2
  (answer, metrics, log)

/-- The entry tells how many calls there were and how the last one went. -/
structure DlqEntry.Describes (entry : DlqEntry) (outcomes : ℕ → Except Text UInt16)
    (posts : List Post) : Prop where
  attempts : entry.attemptsMade.toNat = posts.length
  failure : recorded (outcomes (posts.length - 1)) = some (entry.lastStatusCode, entry.lastError)
  span : posts.getLast?.map (fun post => post.trace.spanId.val) = some entry.lastAttemptSpanId

/-- A delivery that had an answer below 400 leaves the map, any other one adds an entry. -/
structure RecordsRightly (outcomes : ℕ → Except Text UInt16) (key : Text) (posts : List Post)
    (dlq dlq' : DeadLetters) (result : Except AnchorKitError Unit) : Prop where
  ok_iff : result = .ok () ↔ ∃ i < posts.length, ∃ s, outcomes i = .ok s ∧ s < 400
  kept : result = .ok () → dlq' = dlq
  appended : result ≠ .ok () → ∃ entry : DlqEntry, entry.Describes outcomes posts ∧
    dlq'[key]? = some (dlq.getD key [] ++ [entry]) ∧ ∀ k, k ≠ key → dlq'[k]? = dlq[k]?

/-- The counters grow by what there was to count. -/
structure CountsRightly (before after : MetricsRegistry) (dlq dlq' : DeadLetters) (calls : ℕ) :
    Prop where
  attempts : GrowsBy before after webhookAttempts calls
  deliveries : ∃ s f, s + f = 1 ∧ GrowsBy before after webhookSuccesses s ∧
    GrowsBy before after webhookFailures f ∧ GrowsBy before after webhookDeliveries (s + f)
  dlqEntries : ∃ n, dlq'.total = dlq.total + n ∧ GrowsBy before after webhookDlqEntries n

/-- Deliveries that were all successes or failures still are, as long as they can be counted. -/
theorem CountsRightly.balanced {before after : MetricsRegistry} {dlq dlq' : DeadLetters} {calls : ℕ}
    (h : CountsRightly before after dlq dlq' calls)
    (hroom : (before.counter webhookDeliveries).toNat < 2 ^ 64 - 1)
    (hbefore : (before.counter webhookDeliveries).toNat =
      (before.counter webhookSuccesses).toNat + (before.counter webhookFailures).toNat) :
    (after.counter webhookDeliveries).toNat =
      (after.counter webhookSuccesses).toNat + (after.counter webhookFailures).toNat := by
  obtain ⟨s, f, hone, hs, hf, hd⟩ := h.deliveries
  unfold GrowsBy at hs hf hd
  omega

section Counted

variable {name : Text}

def attempted (metrics : MetricsRegistry) (calls : ℕ) : MetricsRegistry :=
  afterAttempts (metrics.incr webhookDeliveries) calls

theorem growsBy_attempted_attempts (metrics : MetricsRegistry) (calls : ℕ) :
    GrowsBy metrics (attempted metrics calls) webhookAttempts calls := by
  have hbefore : (metrics.incr webhookDeliveries).counter webhookAttempts =
      metrics.counter webhookAttempts := counter_incr_of_ne (by decide)
  rw [GrowsBy, ← hbefore]
  exact growsBy_afterAttempts _ _

theorem growsBy_attempted_deliveries (metrics : MetricsRegistry) (calls : ℕ) :
    GrowsBy metrics (attempted metrics calls) webhookDeliveries 1 :=
  (growsBy_zero rfl).incr.afterAttempts (by decide)

theorem growsBy_attempted_of_ne (metrics : MetricsRegistry) (calls : ℕ)
    (hdeliveries : name ≠ webhookDeliveries) (hattempts : name ≠ webhookAttempts) :
    GrowsBy metrics (attempted metrics calls) name 0 :=
  ((growsBy_zero rfl).incr_of_ne hdeliveries).afterAttempts hattempts

theorem countsRightly_of_success (metrics : MetricsRegistry) (dlq : DeadLetters) (calls : ℕ)
    (depth : UInt64) :
    CountsRightly metrics
      (((attempted metrics calls).incr webhookSuccesses).setGauge webhookDlqDepth depth) dlq dlq
      calls where
  attempts := ((growsBy_attempted_attempts _ _).incr_of_ne (by decide)).setGauge _ _
  deliveries := by
    refine ⟨1, 0, rfl, ?_, ?_, ?_⟩
    · exact (growsBy_attempted_of_ne _ _ (by decide) (by decide)).incr.setGauge _ _
    · exact ((growsBy_attempted_of_ne _ _ (by decide) (by decide)).incr_of_ne
        (by decide)).setGauge _ _
    · exact ((growsBy_attempted_deliveries _ _).incr_of_ne (by decide)).setGauge _ _
  dlqEntries := ⟨0, rfl, ((growsBy_attempted_of_ne _ _ (by decide) (by decide)).incr_of_ne
    (by decide)).setGauge _ _⟩

theorem countsRightly_of_failure (metrics : MetricsRegistry) {dlq dlq' : DeadLetters} (calls : ℕ)
    (depth : UInt64) (htotal : dlq'.total = dlq.total + 1) :
    CountsRightly metrics
      ((((attempted metrics calls).incr webhookFailures).incr webhookDlqEntries).setGauge
        webhookDlqDepth depth) dlq dlq' calls where
  attempts := (((growsBy_attempted_attempts _ _).incr_of_ne (by decide)).incr_of_ne
    (by decide)).setGauge _ _
  deliveries := by
    refine ⟨0, 1, rfl, ?_, ?_, ?_⟩
    · exact (((growsBy_attempted_of_ne _ _ (by decide) (by decide)).incr_of_ne
        (by decide)).incr_of_ne (by decide)).setGauge _ _
    · exact ((growsBy_attempted_of_ne _ _ (by decide) (by decide)).incr.incr_of_ne
        (by decide)).setGauge _ _
    · exact (((growsBy_attempted_deliveries _ _).incr_of_ne (by decide)).incr_of_ne
        (by decide)).setGauge _ _
  dlqEntries := ⟨1, htotal, ((growsBy_attempted_of_ne _ _ (by decide) (by decide)).incr_of_ne
    (by decide)).incr.setGauge _ _⟩

end Counted

section Left

variable (sha256 : Bytes → BytesN 32) (hmacSha256 : Bytes → Bytes → BytesN 32)
  (config : WebhookDeliveryConfig) (payload : Text) (trace : TraceContext) (dlq : DeadLetters)
  (outcomes : ℕ → Except Text UInt16)

/-- A traced delivery records what it did. -/
def RecordsDelivery (nowFn : List (Retry.Event Post) → UInt64) : Prop :=
  ∃ result dlq' log,
    deliverWebhookTraced sha256 hmacSha256 config payload trace dlq (httpPost outcomes) sleep nowFn
        [] = .ok (result, dlq', log) ∧
      RecordsRightly outcomes config.deadLetterStorageKey (invocations log) dlq dlq' result

/-- A metered delivery counts what it did. -/
def CountsDelivery (nowFn : List (Retry.Event (Text × Text × Option Text)) → UInt64)
    (metrics : MetricsRegistry) : Prop :=
  ∃ result dlq' metrics' log,
    deliverWebhookMetered sha256 hmacSha256 config payload dlq (httpPostUntraced outcomes) sleep
        nowFn metrics [] = .ok (result, dlq', metrics', log) ∧
      CountsRightly metrics metrics' dlq dlq' (invocations log).length

variable {sha256 hmacSha256 config payload trace dlq outcomes}

theorem settles_attemptResult {answer : Except Text UInt16} :
    Settles (fun _ => true) (attemptResult answer) ↔ recorded answer = none := by
  unfold attemptResult
  cases recorded answer with
  | none => simp [Settles]
  | some failure => simp [Settles]

/-- A log that renames the calls shows as much as the log of the calls. -/
theorem answers_map {α : Type} (outcomes : ℕ → Except Text UInt16) (g : TraceContext → α) :
    Answers outcomes (fun trace => Retry.operation outcomes (g trace)) sleep
      (List.map (Retry.Event.map g)) where
  post trace log := by
    rw [Retry.operation, invocations_map, List.length_map, List.map_append]
    rfl
  sleep delay log := by
    rw [sleep, List.map_append]
    rfl

/-- An attempt that fails at the end is the last one allowed, and all others failed before it. -/
theorem failed_of_endsAt {limit n : ℕ} {failure : UInt16 × Text}
    (hends : EndsAt (fun _ => true) (fun i => attemptResult (outcomes i)) limit 0 n)
    (hrecorded : recorded (outcomes n) = some failure) :
    n + 1 = limit ∧ ∀ i < n + 1, ¬ ∃ s, outcomes i = .ok s ∧ s < 400 := by
  have hlast : recorded (outcomes n) ≠ none := by
    rw [hrecorded]
    exact Option.some_ne_none _
  refine ⟨hends.ends.resolve_right fun hsettles => hlast (settles_attemptResult.mp hsettles), ?_⟩
  intro i hi
  rw [← recorded_eq_none]
  rcases Nat.lt_succ_iff_lt_or_eq.mp hi with hlt | rfl
  · exact fun hnone => hends.before i (Nat.zero_le i) hlt (settles_attemptResult.mpr hnone)
  · exact hlast

/-- What a failed delivery leaves is right when the configured number of attempts was made. -/
theorem recordsRightly_of_failed {key : Text} {posts : List Post} {entry : DlqEntry}
    {error : AnchorKitError} (hfailed : ∀ i < posts.length, ¬ ∃ s, outcomes i = .ok s ∧ s < 400)
    (hentry : entry.Describes outcomes posts) :
    RecordsRightly outcomes key posts dlq (dlq.insert key (dlq.getD key [] ++ [entry]))
      (.error error) where
  ok_iff := by
    refine iff_of_false (by simp) ?_
    rintro ⟨i, hi, hok⟩
    exact hfailed i hi hok
  kept := by simp
  appended := by
    intro _
    refine ⟨entry, hentry, Std.TreeMap.getElem?_insert_self, fun k hk => ?_⟩
    rw [OrderedMap.getElem?_insert, if_neg fun h => hk h.symm]

theorem describes_of_recordsRightly {key : Text} {posts : List Post} {entry : DlqEntry}
    {error : AnchorKitError}
    (h : RecordsRightly outcomes key posts dlq (dlq.insert key (dlq.getD key [] ++ [entry]))
      (.error error)) : entry.Describes outcomes posts := by
  obtain ⟨entry', hdescribes, hentry, _⟩ := h.appended (by simp)
  rw [Std.TreeMap.getElem?_insert_self] at hentry
  rwa [List.singleton_inj.mp (List.append_cancel_left (Option.some.inj hentry))]

/-- The entry has the configured number of attempts, which is no number of calls if it is zero. -/
theorem recordsDelivery_iff {nowFn : List (Retry.Event Post) → UInt64} :
    RecordsDelivery sha256 hmacSha256 config payload trace dlq outcomes nowFn ↔
      config.retryConfig.maxAttempts ≠ 0 ∨ ∃ s, outcomes 0 = .ok s ∧ s < 400 := by
  let post (trace : TraceContext) : Post := ⟨config.endpointUrl, payload,
    config.signingKey.map fun k => signaturePrefix ++ signPayload hmacSha256 k payload, trace⟩
  have hanswers : Answers outcomes (httpPost outcomes config.endpointUrl payload
      (config.signingKey.map fun k => signaturePrefix ++ signPayload hmacSha256 k payload)) sleep
      (List.map (Retry.Event.map post)) := answers_map outcomes post
  obtain ⟨delays, log, hends, rfl, hrun⟩ :=
    deliverWebhookTraced_eq sha256 hmacSha256 trace dlq nowFn hanswers
  rw [List.map_nil] at hrun
  set span := trace.child sha256 "webhook-delivery".toList
  set posts := invocations
    ((paced (fun a => span.childForAttempt sha256 a) 0 delays).map (Retry.Event.map post))
    with hposts
  have hlength : posts.length = delays.length + 1 := by
    rw [hposts, invocations_map, List.length_map, length_invocations_paced]
  have hlast : posts.getLast? =
      some (post (span.childForAttempt sha256 (UInt32.ofNat delays.length))) := by
    rw [hposts, invocations_map, List.getLast?_map, getLast?_invocations_paced, Option.map_some]
  cases hrecorded : recorded (outcomes delays.length) with
  | none =>
    rw [hrecorded] at hrun
    obtain ⟨s, hs, hlow⟩ := recorded_eq_none.mp hrecorded
    refine iff_of_true ⟨_, _, _, hrun, ?_, fun _ => rfl, fun hfail => absurd rfl hfail⟩ ?_
    · rw [← hposts, hlength]
      exact iff_of_true rfl ⟨delays.length, Nat.lt_succ_self _, s, hs, hlow⟩
    · by_cases hmax : config.retryConfig.maxAttempts = 0
      · have hone := hends.allowed
        rw [hmax] at hone
        rw [Nat.lt_one_iff.mp hone] at hs
        exact Or.inr ⟨s, hs, hlow⟩
      · exact Or.inl hmax
  | some failure =>
    rw [hrecorded] at hrun
    obtain ⟨hcalls, hfailed⟩ := failed_of_endsAt hends hrecorded
    rw [or_iff_left (hfailed 0 (Nat.succ_pos _))]
    constructor
    · rintro ⟨result, dlq', log', hrun', hrecords⟩ hmax
      rw [hrun] at hrun'
      obtain ⟨rfl, hrest⟩ := Prod.mk.inj (Except.ok.inj hrun')
      obtain ⟨rfl, rfl⟩ := Prod.mk.inj hrest
      have hattempts := (describes_of_recordsRightly hrecords).attempts
      rw [← hposts, hlength, entryFor, hmax] at hattempts
      cases hattempts
    · intro hmax
      have hpositive : 1 ≤ config.retryConfig.maxAttempts.toNat :=
        Nat.pos_of_ne_zero fun h => hmax (UInt32.toNat_inj.mp h)
      refine ⟨_, _, _, hrun, recordsRightly_of_failed ?_ ⟨?_, ?_, ?_⟩⟩
      · rw [← hposts, hlength]
        exact hfailed
      · rw [← hposts, hlength, hcalls, max_eq_right hpositive]
        rfl
      · rw [← hposts, hlength, Nat.add_sub_cancel, hrecorded]
        rfl
      · rw [← hposts, hlast]
        rfl

theorem answers_countedPost (outcomes : ℕ → Except Text UInt16) (metrics : MetricsRegistry)
    (url body : Text) (signature : Option Text) :
    Answers outcomes (countedPost outcomes url body signature)
      (fun delay world => (world.1, sleep delay world.2))
      (fun log => (afterAttempts metrics (invocations log).length,
        log.map (Retry.Event.map fun _ => (url, body, signature)))) where
  post trace log := by
    have hpost := (answers_map outcomes fun _ => (url, body, signature)).post trace log
    have hcount : (invocations (log ++ [Retry.Event.invoked trace])).length =
        (invocations log).length + 1 := by
      simp
    dsimp only [countedPost, httpPostUntraced]
    rw [hpost, hcount, afterAttempts_succ]
  sleep delay log := by
    have hsleep := (answers_map outcomes fun _ => (url, body, signature)).sleep delay log
    have hsame : invocations (log ++ [Retry.Event.slept delay]) = invocations log := by simp
    rw [hsleep, hsame]

/-- The counters do not depend on the configured number of attempts. -/
theorem countsDelivery (nowFn : List (Retry.Event (Text × Text × Option Text)) → UInt64)
    (metrics : MetricsRegistry) :
    CountsDelivery sha256 hmacSha256 config payload dlq outcomes nowFn metrics := by
  have hanswers := answers_countedPost outcomes (metrics.incr webhookDeliveries)
    config.endpointUrl payload
    (config.signingKey.map fun k => signaturePrefix ++ signPayload hmacSha256 k payload)
  obtain ⟨delays, log, -, -, hrun⟩ := deliverWebhookTraced_eq sha256 hmacSha256
    (deriveDeliveryTrace sha256 config payload) dlq (fun world => nowFn world.2) hanswers
  have hcalls : (invocations (log.map (Retry.Event.map fun _ => (config.endpointUrl, payload,
      config.signingKey.map fun k => signaturePrefix ++ signPayload hmacSha256 k payload)))).length =
      (invocations log).length := by
    rw [invocations_map, List.length_map]
  unfold CountsDelivery deliverWebhookMetered deliverWebhook
  change ∃ result dlq' metrics' log,
    (deliverWebhookTraced sha256 hmacSha256 config payload (deriveDeliveryTrace sha256 config payload)
      dlq (countedPost outcomes) (fun delay world => (world.1, sleep delay world.2))
      (fun world => nowFn world.2) (metrics.incr webhookDeliveries, []) >>= _) = _ ∧ _
  change deliverWebhookTraced sha256 hmacSha256 config payload _ dlq _ _ _
    (metrics.incr webhookDeliveries, []) = _ at hrun
  rw [hrun]
  cases recorded (outcomes delays.length) with
  | none =>
    refine ⟨_, _, _, _, rfl, ?_⟩
    rw [hcalls]
    exact countsRightly_of_success _ _ _ _
  | some failure =>
    refine ⟨_, _, _, _, rfl, ?_⟩
    dsimp only
    rw [hcalls, total_insert, Nat.add_sub_cancel_left]
    exact countsRightly_of_failure _ _ _ (total_insert ..)

/-- Deliveries are recorded and counted as they went exactly when the configuration allows an
attempt or the one that is made anyway succeeds. -/
theorem deliveries_told_iff (nowFn : List (Retry.Event Post) → UInt64)
    (nowFn' : List (Retry.Event (Text × Text × Option Text)) → UInt64) (metrics : MetricsRegistry) :
    (RecordsDelivery sha256 hmacSha256 config payload trace dlq outcomes nowFn ∧
      CountsDelivery sha256 hmacSha256 config payload dlq outcomes nowFn' metrics) ↔
      config.retryConfig.maxAttempts ≠ 0 ∨ ∃ s, outcomes 0 = .ok s ∧ s < 400 :=
  (and_iff_left (countsDelivery nowFn' metrics)).trans recordsDelivery_iff

/-- A configuration without attempts posts once, and its entry says that nothing was tried. -/
theorem entry_without_attempts :
    ¬ RecordsDelivery (fun _ => .fill 32 0) (fun _ _ => .fill 32 0)
      ⟨"https://example.com".toList, ⟨0, 0, 0, 1, .exponential, .full⟩, "hooks".toList, none⟩
      "body".toList (.rootFromSeed (fun _ => .fill 32 0) "deposit".toList) ∅
      (fun _ => .error "timeout".toList) (fun _ => 0) := by
  rw [recordsDelivery_iff]
  rintro (hmax | ⟨s, hs, _⟩)
  · exact hmax rfl
  · cases hs

end Left

end Webhook

end AnchorKit
