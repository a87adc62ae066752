import AnchorKit.Contract
import AnchorKit.TraceNumbering

/-!
# Traces of submitted requests

A submission stores the root span of its request, but never the context that numbers the children
of a root. In no reachable state is there such a context, so no child ever enters a trace.
-/

namespace AnchorKit

open Fallible

inductive TracingStep (st : TracingStore) : Call → TracingStore → Prop
  | kept {c : Call} : TracingStep st c st
  | spanned {c : Call} {id : Bytes} {span : TracingSpan} {context : KeyedStore Bytes RequestContext} :
      TracingStep st c { st with span := st.span.set id span, context := context }
  | propagated {parent child : RequestId} {operation : String} {actor : Address}
      {ctx : TracingContext} {st' : TracingStore} (hctx : st.traceContext.get parent.id = some ctx) :
      TracingStep st (.propagateSpan parent child operation actor) st'

theorem tracing_step {host : Host} {s s' : Storage} {i : Input} (h : step host s i = .ok s') :
    TracingStep s.tracing i.2 s'.tracing := by
  obtain ⟨env, c⟩ := i
  change invoke host env s c = .ok s' at h
  by_cases hc : .tracing ∈ c.touches
  · cases c with
    | submitWithRequestId requestId input =>
      obtain ⟨_, h⟩ := fst_map_eq_ok.mp h
      obtain ⟨_, _, _, _, _, _, rfl⟩ := submitWithRequestId_effects h
      exact .spanned
    | quoteWithRequestId requestId anchor terms =>
      obtain ⟨_, _, _, _, _, _, _, _, rfl⟩ := quoteWithRequestIdAndReason_effects h
      exact .spanned
    | quoteWithRequestIdAndReason requestId anchor terms routingReason =>
      obtain ⟨_, _, _, _, _, _, _, _, rfl⟩ := quoteWithRequestIdAndReason_effects h
      exact .spanned
    | propagateSpan parent child operation actor =>
      obtain ⟨ctx, hctx, _, rfl⟩ := propagateSpan_effects h
      exact .propagated hctx
    | _ => exact absurd hc (by simp [Call.touches])
  · rw [(invoke_sameOutside h).tracing_eq hc]
    exact .kept

def NoTraceContext (s : Storage) : Prop := ∀ id, s.tracing.traceContext.get id = none

theorem noTraceContext_of_step {host : Host} {s s' : Storage} {i : Input}
    (h : step host s i = .ok s') (hpre : NoTraceContext s) : NoTraceContext s' := by
  have hstep := tracing_step h
  unfold NoTraceContext
  generalize s'.tracing = st' at hstep
  generalize i.2 = c at hstep
  cases hstep with
  | kept | spanned => exact hpre
  | propagated hctx =>
    rw [hpre] at hctx
    cases hctx

theorem noTraceContext_run (host : Host) (is : List Input) : NoTraceContext (run host is) :=
  Machine.invariant (step host) NoTraceContext (fun _ => rfl)
    (fun _ _ _ h hpre => noTraceContext_of_step h hpre) is

/-- A span that was stored once is never missing again. -/
theorem span_has_of_step {host : Host} {s s' : Storage} {i : Input} (h : step host s i = .ok s')
    (hpre : NoTraceContext s) {id : Bytes} (hspan : s.tracing.span.has id = true) :
    s'.tracing.span.has id = true := by
  have hstep := tracing_step h
  generalize s'.tracing = st' at hstep
  generalize i.2 = c at hstep
  cases hstep with
  | kept => exact hspan
  | spanned =>
    rw [KeyedStore.has_set]
    split
    · rfl
    · exact hspan
  | propagated hctx =>
    rw [hpre] at hctx
    cases hctx

def WasSubmitted (past : List Transition) (requestId : RequestId) : Prop :=
  ∃ t ∈ past, ∃ input, t.input.2 = .submitWithRequestId requestId input

def propagationOn (rootIdBytes : Bytes) : Input → Option Propagation
  | (env, .propagateSpan parent child operation actor) =>
    if parent.id = rootIdBytes then some { env, child, operation, actor } else none
  | _ => none

/-- All propagations on the request succeed, and its trace is the root and the children in the
order in which they were created. -/
structure TraceRecorded (host : Host) (before after : List Input) (requestId : RequestId) :
    Prop where
  succeeds : ∀ js i ks, after = js ++ i :: ks → (propagationOn requestId.id i).isSome = true →
    Succeeds (step host (run host (before ++ js)) i)
  trace : ∃ root, (run host (before ++ after)).tracing.span.get requestId.id = some root ∧
    getTrace (run host (before ++ after)) requestId.id =
      root :: numberedSpans requestId.id 1 (after.filterMap (propagationOn requestId.id))

theorem span_has_run {host : Host} {is : List Input} {requestId : RequestId}
    (hsubmitted : WasSubmitted (history host is) requestId) :
    (run host is).tracing.span.has requestId.id = true := by
  have hspanned (past : List Transition) (t : Transition) (ht : step host t.pre t.input = .ok t.post)
      (hpre : NoTraceContext t.pre)
      (hpast : WasSubmitted past requestId → t.pre.tracing.span.has requestId.id = true)
      (hsub : WasSubmitted (past ++ [t]) requestId) : t.post.tracing.span.has requestId.id = true := by
    obtain ⟨u, hu, input, hcall⟩ := hsub
    rcases Machine.mem_snoc.mp hu with hu | rfl
    · exact span_has_of_step ht hpre (hpast ⟨u, hu, input, hcall⟩)
    · have hinput : u.input = (u.input.1, .submitWithRequestId requestId input) :=
        Prod.ext rfl hcall
      rw [hinput] at ht
      obtain ⟨_, h⟩ := fst_map_eq_ok.mp ht
      obtain ⟨_, _, _, _, _, _, hpost⟩ := submitWithRequestId_effects h
      rw [hpost]
      exact KeyedStore.has_iff.mpr ⟨_, KeyedStore.get_set_self _ _ _⟩
  have hinv := Machine.history_invariant (step host)
    (fun past s => NoTraceContext s ∧
      (WasSubmitted past requestId → s.tracing.span.has requestId.id = true)) (fun _ => True)
    (s := Storage.empty) ⟨fun _ => rfl, by rintro ⟨t, ht, _⟩; cases ht⟩
    (fun past t ht hpre _ => ⟨noTraceContext_of_step ht hpre.1, hspanned past t ht hpre.1 hpre.2⟩)
    is (fun _ _ => trivial)
  exact hinv.2 hsubmitted

/-- A propagation finds no context in any reachable state. -/
theorem not_succeeds_propagate {host : Host} {is : List Input} {i : Input} {rootIdBytes : Bytes}
    (hi : (propagationOn rootIdBytes i).isSome = true) :
    ¬ Succeeds (step host (run host is) i) := by
  rintro ⟨s', h⟩
  obtain ⟨env, c⟩ := i
  cases c with
  | propagateSpan parent child operation actor =>
    have hpropagate : propagateSpan env (run host is) parent child operation actor = .ok s' := h
    obtain ⟨ctx, hctx, _⟩ := propagateSpan_effects hpropagate
    rw [noTraceContext_run host is] at hctx
    cases hctx
  | _ => cases hi

/-- The trace of a submitted request is recorded, whatever else is called, exactly when nothing is
propagated on it. -/
theorem traceRecorded_iff (host : Host) (before after : List Input) (requestId : RequestId)
    (hsubmitted : WasSubmitted (history host before) requestId) :
    TraceRecorded host before after requestId ↔
      after.filterMap (propagationOn requestId.id) = [] := by
  rw [List.filterMap_eq_nil_iff]
  constructor
  · intro hrecorded i hi
    obtain ⟨js, ks, hsplit⟩ := List.append_of_mem hi
    by_contra hpropagates
    have hon : (propagationOn requestId.id i).isSome = true :=
      Option.isSome_iff_ne_none.mpr hpropagates
    exact not_succeeds_propagate hon (hrecorded.succeeds js i ks hsplit hon)
  · intro hnone
    refine ⟨fun js i ks hsplit hon => ?_, ?_⟩
    · rw [hnone i (by simp [hsplit])] at hon
      cases hon
    · have hlater : WasSubmitted (history host (before ++ after)) requestId := by
        obtain ⟨t, ht, hcall⟩ := hsubmitted
        exact ⟨t, (Machine.transitions_mono _ (List.prefix_append before after)).subset ht, hcall⟩
      obtain ⟨root, hroot⟩ := KeyedStore.has_iff.mp (span_has_run hlater)
      refine ⟨root, hroot, ?_⟩
      rw [getTrace, noTraceContext_run, hroot, List.filterMap_eq_nil_iff.mpr hnone]
      rfl

namespace Demo

def aliceRequest : RequestId := ⟨[1], 1000⟩

def submittedRequest : List Input :=
  [deploy, openSession, sessionRegister alice 7,
    onLedger 2 (.submitWithRequestId aliceRequest (attestation alice 7 1))]

def propagated : Input :=
  onLedger 3 (.propagateSpan aliceRequest ⟨[2], 1000⟩ "verify_attestation" alice)

end Demo

theorem traceRecorded_of_alice :
    TraceRecorded Demo.host Demo.submittedRequest [Demo.propagated] Demo.aliceRequest ↔
      [Demo.propagated].filterMap (propagationOn Demo.aliceRequest.id) = [] := by
  have hlength : (history Demo.host Demo.submittedRequest).length = 4 := by decide
  apply traceRecorded_iff
  exact ⟨(history Demo.host Demo.submittedRequest)[3], List.getElem_mem _,
    Demo.attestation Demo.alice 7 1, rfl⟩

/-- The first child of a submitted request is refused. -/
theorem first_child_refused :
    ¬ TraceRecorded Demo.host Demo.submittedRequest [Demo.propagated] Demo.aliceRequest := by
  intro h
  have hon : (propagationOn Demo.aliceRequest.id Demo.propagated).isSome = true := rfl
  exact not_succeeds_propagate hon (h.succeeds [] Demo.propagated [] rfl hon)

end AnchorKit
