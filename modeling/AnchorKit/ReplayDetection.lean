import AnchorKit.Storage

/-!
# Replay metrics and request tracing

The bookkeeping around a submission: counters of rejected and accepted submissions, the span of a
traced request and the chain of operations run under it.
-/

namespace AnchorKit

open Fallible

namespace ReplayDetection

def getReplayMetrics (s : Storage) : ReplayMetrics := s.replay.metrics.getD ReplayMetrics.default

def attemptCount (s : Storage) (requestId : Bytes) : UInt32 := (s.replay.attempts.get requestId).getD 0

def recordReplayDetection (env : Env) (s : Storage) (requestId : Bytes) (actor : Address) :
    Except Panic (Storage × UInt32) := do
  let metrics := getReplayMetrics s
  let attempts := Word.saturatingAdd32 (attemptCount s requestId) 1
  let metrics := { metrics with
    totalReplayAttempts := Word.saturatingAdd64 metrics.totalReplayAttempts 1
    uniqueReplayedIds :=
      if attempts = 1 then Word.saturatingAdd64 metrics.uniqueReplayedIds 1
      else metrics.uniqueReplayedIds
    lastReplayAt := env.timestamp
    lastUpdatedLedger := env.sequence }
  let eventId := s.replay.nextEventId
  let next ← add64 eventId 1
  let event : ReplayAttemptRecord :=
    { requestId, actor, attemptNumber := attempts, timestamp := env.timestamp,
      ledgerSequence := env.sequence }
  let s := { s with replay := { s.replay with
    metrics := some metrics
    attempts := s.replay.attempts.set requestId attempts
    nextEventId := next
    events := s.replay.events.set eventId event } }
  return (s, attempts)

def emitReplayDetectionLog (env : Env) (s : Storage) (attempts : UInt32) : Storage :=
  s.publish (.replayDetected env.timestamp attempts env.sequence)

def recordAcceptedEvent (env : Env) (s : Storage) : Storage :=
  let metrics := getReplayMetrics s
  { s with replay := { s.replay with metrics := some { metrics with
    acceptedEvents := Word.saturatingAdd64 metrics.acceptedEvents 1
    lastUpdatedLedger := env.sequence } } }

/-- A replayed submission: the attempt is recorded and logged, and then the call panics, which
rolls the record back. -/
def rejectReplay (env : Env) (s : Storage) (requestId : Bytes) (actor : Address) :
    Except Panic Unit := do
  let (s, attempts) ← recordReplayDetection env s requestId actor
  let _ := emitReplayDetectionLog env s attempts
  throw (.withError .replayAttack)

@[simp] theorem rejectReplay_ne_ok {env : Env} {s : Storage} {requestId : Bytes} {actor : Address}
    {u : Unit} : rejectReplay env s requestId actor ≠ .ok u := by
  intro h
  simp only [rejectReplay, bind_eq_ok] at h
  obtain ⟨_, _, h⟩ := h
  cases h

end ReplayDetection

def storeSpanWithParent (s : Storage) (requestId : RequestId) (operation : String)
    (actor : Address) (now : UInt64) (status : String) (parentRequestIdBytes : Bytes)
    (spanIndex : UInt32) : Storage :=
  let span : TracingSpan :=
    { requestId, operation, actor, startedAt := now, completedAt := now, status,
      parentRequestIdBytes, spanIndex }
  { s with tracing := { s.tracing with span := s.tracing.span.set requestId.id span } }

def storeSpan (s : Storage) (requestId : RequestId) (operation : String) (actor : Address)
    (now : UInt64) (status : String) : Storage :=
  storeSpanWithParent s requestId operation actor now status [] 0

def recordOperationInContext (env : Env) (s : Storage) (rootIdBytes : Bytes)
    (operationName : String) : Storage :=
  let ctx := (s.tracing.context.get rootIdBytes).getD
    { rootRequestId := ⟨rootIdBytes, env.timestamp⟩, operationChain := [], createdAt := env.timestamp }
  let ctx := { ctx with operationChain := ctx.operationChain ++ [operationName] }
  { s with tracing := { s.tracing with context := s.tracing.context.set rootIdBytes ctx } }

end AnchorKit
