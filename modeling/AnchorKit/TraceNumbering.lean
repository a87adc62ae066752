import AnchorKit.Tracing
import Mathlib.Data.List.Induction

/-!
# Numbering the children of a trace

Once a root has its context, every propagation of a new child succeeds, and the reader returns the
children in the order in which they were propagated.
-/

namespace AnchorKit

open Fallible

/-- One call of `propagateSpan` under a root. -/
structure Propagation where
  env : Env
  child : RequestId
  operation : String
  actor : Address

def Propagation.span (p : Propagation) (rootIdBytes : Bytes) (spanIndex : UInt32) : TracingSpan where
  requestId := p.child
  operation := p.operation
  actor := p.actor
  startedAt := p.env.timestamp
  completedAt := p.env.timestamp
  status := "success"
  parentRequestIdBytes := rootIdBytes
  spanIndex := spanIndex

def propagateAll (s : Storage) (parent : RequestId) (ps : List Propagation) :
    Except Panic Storage :=
  ps.foldlM (fun s p => propagateSpan p.env s parent p.child p.operation p.actor) s

structure ChildrenHeld (st : TracingStore) (rootIdBytes : Bytes) (children : List TracingSpan) :
    Prop where
  counted : ∃ ctx, st.traceContext.get rootIdBytes = some ctx ∧
    ctx.nextSpanIndex.toNat = children.length + 1
  registered : ∀ n span, children[n]? = some span →
    st.childId.get (rootIdBytes, UInt32.ofNat (n + 1)) = some span.requestId.id ∧
      st.span.get span.requestId.id = some span

theorem filterMap_range'_eq {α : Type} {f : ℕ → Option α} {l : List α}
    (h : ∀ n a, l[n]? = some a → f (n + 1) = some a) :
    (List.range' 1 l.length).filterMap f = l := by
  induction l using List.reverseRecOn with
  | nil => rfl
  | append_singleton l a ih =>
    have hlast : f (1 + l.length) = some a := by
      rw [Nat.add_comm]
      exact h l.length a (by simp)
    have hearlier : ∀ n b, l[n]? = some b → f (n + 1) = some b := by
      intro n b hb
      have hn := (List.getElem?_eq_some_iff.mp hb).1
      exact h n b (by rwa [List.getElem?_append_left hn])
    rw [List.length_append, List.length_singleton, List.range'_concat, List.filterMap_append,
      ih hearlier]
    simp [hlast]

def TracingStore.withChild (st : TracingStore) (rootIdBytes : Bytes) (ctx : TracingContext)
    (next : UInt32) (span : TracingSpan) : TracingStore :=
  { st with
    traceContext := st.traceContext.set rootIdBytes { ctx with nextSpanIndex := next }
    childId := st.childId.set (rootIdBytes, ctx.nextSpanIndex) span.requestId.id
    span := st.span.set span.requestId.id span }

theorem propagateSpan_of_context {s : Storage} {parent : RequestId} {p : Propagation}
    {ctx : TracingContext} {next : UInt32} (hctx : s.tracing.traceContext.get parent.id = some ctx)
    (hsigned : p.actor ∈ p.env.authorized) (hchild : p.child.id ≠ parent.id)
    (hnext : ctx.nextSpanIndex.toNat + 1 = next.toNat) :
    propagateSpan p.env s parent p.child p.operation p.actor = .ok { s with
      tracing := s.tracing.withChild parent.id ctx next (p.span parent.id ctx.nextSpanIndex) } := by
  have hcount : Word.checkedAdd32 ctx.nextSpanIndex 1 = some next :=
    Word.checkedAdd32_eq_some.mpr hnext
  simp only [propagateSpan, bind_eq_ok, requireAuth_eq_ok, require_eq_ok, expect_eq_ok,
    pure_eq_ok]
  exact ⟨(), hsigned, (), hchild, ctx, hctx, next, hcount, rfl⟩

namespace ChildrenHeld

variable {s : Storage} {rootIdBytes : Bytes} {children : List TracingSpan}

theorem getTrace_eq (h : ChildrenHeld s.tracing rootIdBytes children) :
    getTrace s rootIdBytes = (s.tracing.span.get rootIdBytes).toList ++ children := by
  obtain ⟨ctx, hctx, hnext⟩ := h.counted
  have hread : ∀ n span, children[n]? = some span →
      childSpan s.tracing rootIdBytes (n + 1) = some span := by
    intro n span hspan
    obtain ⟨hid, hstored⟩ := h.registered n span hspan
    rw [childSpan, hid]
    exact hstored
  have hcount : ctx.nextSpanIndex.toNat - 1 = children.length := by omega
  simp only [getTrace, hctx, hcount, filterMap_range'_eq hread]

theorem of_fresh {ctx : TracingContext} (hctx : s.tracing.traceContext.get rootIdBytes = some ctx)
    (hnext : ctx.nextSpanIndex = 1) : ChildrenHeld s.tracing rootIdBytes [] where
  counted := ⟨ctx, hctx, by rw [hnext]; rfl⟩
  registered := by
    intro n span hspan
    simp at hspan

theorem next_eq {ctx : TracingContext} (hcount : ctx.nextSpanIndex.toNat = children.length + 1) :
    ctx.nextSpanIndex = UInt32.ofNat (children.length + 1) := by
  rw [← hcount]
  exact UInt32.ofNat_toNat.symm

theorem withChild {ctx : TracingContext} {next : UInt32} {span : TracingSpan} {st : TracingStore}
    (h : ChildrenHeld st rootIdBytes children)
    (hctx : st.traceContext.get rootIdBytes = some ctx)
    (hnext : ctx.nextSpanIndex.toNat + 1 = next.toNat)
    (hnew : span.requestId.id ∉ children.map (·.requestId.id)) :
    ChildrenHeld (st.withChild rootIdBytes ctx next span) rootIdBytes (children ++ [span]) := by
  obtain ⟨found, hfound, hcount⟩ := h.counted
  obtain rfl := Option.some.inj (hctx.symm.trans hfound)
  have hfits := next.toNat_lt
  refine ⟨⟨_, KeyedStore.get_set_self _ _ _, ?_⟩, fun n child hchild => ?_⟩
  · change next.toNat = _
    rw [List.length_append, List.length_singleton]
    omega
  · rcases Nat.lt_or_ge n children.length with hn | hn
    · rw [List.getElem?_append_left hn] at hchild
      obtain ⟨hid, hstored⟩ := h.registered n child hchild
      have hslot : (rootIdBytes, UInt32.ofNat (n + 1)) ≠ (rootIdBytes, ctx.nextSpanIndex) := by
        intro heq
        have hval := congrArg (fun slot => slot.2.toNat) heq
        rw [hcount, UInt32.toNat_ofNat_of_lt' (by change n + 1 < 2 ^ 32; omega)] at hval
        omega
      have hold : child.requestId.id ≠ span.requestId.id := fun heq =>
        hnew (heq ▸ List.mem_map_of_mem (List.mem_of_getElem? hchild))
      exact ⟨(KeyedStore.get_set_of_ne _ _ hslot).trans hid,
        (KeyedStore.get_set_of_ne _ _ hold).trans hstored⟩
    · rw [List.getElem?_append_right hn, List.getElem?_singleton] at hchild
      split at hchild
      · rename_i hlast
        obtain rfl := Option.some.inj hchild
        have hn' : n = children.length := by omega
        rw [hn', ← next_eq hcount]
        exact ⟨KeyedStore.get_set_self _ _ _, KeyedStore.get_set_self _ _ _⟩
      · cases hchild

end ChildrenHeld

def numberedSpans (rootIdBytes : Bytes) (index : ℕ) : List Propagation → List TracingSpan
  | [] => []
  | p :: ps => p.span rootIdBytes (UInt32.ofNat index) :: numberedSpans rootIdBytes (index + 1) ps

/-- Calls that are signed and name new children of the root. -/
structure Propagatable (parent : RequestId) (ps : List Propagation) : Prop where
  signed : ∀ p ∈ ps, p.actor ∈ p.env.authorized
  child_ne : ∀ p ∈ ps, p.child.id ≠ parent.id
  nodup : (ps.map (·.child.id)).Nodup

/-- Under a root with a context, new children are propagated one after the other, and the trace
returns the root and then the children as they came. -/
theorem propagateAll_of_context {s : Storage} {parent : RequestId} {children : List TracingSpan}
    {ps : List Propagation} (h : ChildrenHeld s.tracing parent.id children)
    (hps : Propagatable parent ps)
    (hnew : ∀ p ∈ ps, p.child.id ∉ children.map (·.requestId.id))
    (hroom : children.length + ps.length + 1 < 2 ^ 32) :
    ∃ s', propagateAll s parent ps = .ok s' ∧
      getTrace s' parent.id = (s.tracing.span.get parent.id).toList ++ children ++
        numberedSpans parent.id (children.length + 1) ps := by
  induction ps generalizing s children with
  | nil => exact ⟨s, rfl, by rw [h.getTrace_eq]; simp [numberedSpans]⟩
  | cons p ps ih =>
    obtain ⟨ctx, hctx, hcount⟩ := h.counted
    rw [List.length_cons] at hroom
    obtain ⟨hsigned, hsigned'⟩ := List.forall_mem_cons.mp hps.signed
    obtain ⟨hchild, hchild'⟩ := List.forall_mem_cons.mp hps.child_ne
    obtain ⟨hfresh, hnodup⟩ := List.nodup_cons.mp hps.nodup
    obtain ⟨hnewp, hnew'⟩ := List.forall_mem_cons.mp hnew
    have hnext : ctx.nextSpanIndex.toNat + 1 = (UInt32.ofNat (children.length + 2)).toNat := by
      rw [hcount, UInt32.toNat_ofNat_of_lt' (by change children.length + 2 < 2 ^ 32; omega)]
    have hheld : ChildrenHeld (s.tracing.withChild parent.id ctx
        (UInt32.ofNat (children.length + 2)) (p.span parent.id ctx.nextSpanIndex)) parent.id
        (children ++ [p.span parent.id ctx.nextSpanIndex]) := h.withChild hctx hnext hnewp
    have hrest : ∀ q ∈ ps, q.child.id ∉
        (children ++ [p.span parent.id ctx.nextSpanIndex]).map (·.requestId.id) := by
      intro q hq hmem
      rw [List.map_append, List.mem_append] at hmem
      rcases hmem with hmem | hmem
      · exact hnew' q hq hmem
      · have heq : q.child.id = p.child.id := by simpa [Propagation.span] using hmem
        exact hfresh (List.mem_map.mpr ⟨q, hq, heq⟩)
    obtain ⟨s', hall, htrace⟩ := ih (s := { s with
        tracing := s.tracing.withChild parent.id ctx (UInt32.ofNat (children.length + 2))
          (p.span parent.id ctx.nextSpanIndex) }) hheld ⟨hsigned', hchild', hnodup⟩ hrest
      (by rw [List.length_append, List.length_singleton]; omega)
    refine ⟨s', ?_, ?_⟩
    · rw [propagateAll, List.foldlM_cons, propagateSpan_of_context hctx hsigned hchild hnext]
      exact hall
    · have hroot : (s.tracing.withChild parent.id ctx (UInt32.ofNat (children.length + 2))
          (p.span parent.id ctx.nextSpanIndex)).span.get parent.id =
          s.tracing.span.get parent.id := KeyedStore.get_set_of_ne _ _ (Ne.symm hchild)
      rw [htrace, hroot, ChildrenHeld.next_eq hcount, List.length_append, List.length_singleton,
        numberedSpans]
      simp

theorem propagateAll_of_fresh {s : Storage} {parent : RequestId} {ctx : TracingContext}
    {ps : List Propagation} (hctx : s.tracing.traceContext.get parent.id = some ctx)
    (hnext : ctx.nextSpanIndex = 1) (hps : Propagatable parent ps)
    (hroom : ps.length + 1 < 2 ^ 32) :
    ∃ s', propagateAll s parent ps = .ok s' ∧
      getTrace s' parent.id =
        (s.tracing.span.get parent.id).toList ++ numberedSpans parent.id 1 ps := by
  have hheld := ChildrenHeld.of_fresh hctx hnext
  obtain ⟨s', hall, htrace⟩ := propagateAll_of_context hheld hps (by simp) (by simpa using hroom)
  exact ⟨s', hall, by simpa using htrace⟩

end AnchorKit
