import AnchorKit.Access
import AnchorKit.ReplayDetection

/-!
# Trace trees

Child spans are numbered under a root request and read back in that order. The counter of a root
lives in a context of its own, which the first child needs to find.
-/

namespace AnchorKit

open Fallible

/-- Take the next number under the parent and store the child's span with it. -/
def propagateSpan (env : Env) (s : Storage) (parent child : RequestId) (operation : String)
    (actor : Address) : Except Panic Storage := do
  actor.requireAuth env
  require (child.id ≠ parent.id) (.withError .validationError)
  let ctx ← expect (s.tracing.traceContext.get parent.id) (.withError .validationError)
  let spanIndex := ctx.nextSpanIndex
  let next ← expect (Word.checkedAdd32 spanIndex 1) (.withError .sessionOperationLimitExceeded)
  let s := { s with tracing := { s.tracing with
    traceContext := s.tracing.traceContext.set parent.id { ctx with nextSpanIndex := next }
    childId := s.tracing.childId.set (parent.id, spanIndex) child.id } }
  return storeSpanWithParent s child operation actor env.timestamp "success" parent.id spanIndex

def childSpan (st : TracingStore) (rootIdBytes : Bytes) (index : Nat) : Option TracingSpan :=
  (st.childId.get (rootIdBytes, UInt32.ofNat index)).bind st.span.get

/-- The root span, then the children in the order of their numbers. -/
def getTrace (s : Storage) (rootIdBytes : Bytes) : List TracingSpan :=
  let root := (s.tracing.span.get rootIdBytes).toList
  match s.tracing.traceContext.get rootIdBytes with
  | some ctx =>
    root ++ (List.range' 1 (ctx.nextSpanIndex.toNat - 1)).filterMap (childSpan s.tracing rootIdBytes)
  | none => root

theorem propagateSpan_effects {env : Env} {s s' : Storage} {parent child : RequestId}
    {operation : String} {actor : Address}
    (h : propagateSpan env s parent child operation actor = .ok s') :
    ∃ ctx, s.tracing.traceContext.get parent.id = some ctx ∧
      ∃ tracing, s' = { s with tracing := tracing } := by
  simp only [propagateSpan, bind_eq_ok, expect_eq_ok, pure_eq_ok] at h
  obtain ⟨_, _, _, _, ctx, hctx, _, _, rfl⟩ := h
  exact ⟨ctx, hctx, _, rfl⟩

end AnchorKit
