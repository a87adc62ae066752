import AnchorKit.EntryPoints

/-!
# Runs with request contexts and request ids

A context tells the operations recorded under its root since it was created, whoever recorded them
and in whichever way. The ids of requests are hashes of inputs of which no two are equal, so that
two of them can only agree where the truncated hash collides. The host's own expiry of temporary
entries, by which a context can be lost, is left out.
-/

namespace AnchorKit

open Fallible Machine

def operationOn (id : Bytes) (t : ContractState.Transition) : Option String :=
  match t.input.2 with
  | .appendOperation rootRequestIdBytes operationName =>
    if rootRequestIdBytes = id then some operationName else none
  | .core (.submitWithRequestId requestId _) =>
    if requestId.id = id then some "submit_attestation" else none
  | .core (.quoteWithRequestId requestId _ _) =>
    if requestId.id = id then some "submit_quote" else none
  | .core (.quoteWithRequestIdAndReason requestId _ _ routingReason) =>
    if requestId.id = id then
      some (if routingReason.isSome then "submit_quote_with_reason" else "submit_quote")
    else none
  | _ => none

def contextCreated (id : Bytes) (t : ContractState.Transition) : Option RequestContext :=
  match t.input.2 with
  | .createRequestContext rootRequestId =>
    if rootRequestId.id = id then
      some { rootRequestId, operationChain := [], createdAt := t.input.1.timestamp }
    else none
  | _ => none

def contextOpened (id : Bytes) (t : ContractState.Transition) : Option RequestContext :=
  (operationOn id t).map fun _ =>
    { rootRequestId := ⟨id, t.input.1.timestamp⟩, operationChain := [],
      createdAt := t.input.1.timestamp }

def contextTold (id : Bytes) (past : List ContractState.Transition) : Option RequestContext :=
  match sinceLast (contextCreated id) past with
  | some (ctx, after) => some { ctx with operationChain := after.filterMap (operationOn id) }
  | none => (past.findSome? (contextOpened id)).map fun ctx =>
    { ctx with operationChain := past.filterMap (operationOn id) }

section Contexts

variable {host : Host} {sha256 : Bytes → BytesN 32} {env : Env} {s s' : Storage} {id : Bytes}
  {past : List ContractState.Transition} {t : ContractState.Transition}

def recordedContext (env : Env) (id : Bytes) (ctx : Option RequestContext) (name : String) :
    RequestContext :=
  let ctx := ctx.getD
    { rootRequestId := ⟨id, env.timestamp⟩, operationChain := [], createdAt := env.timestamp }
  { ctx with operationChain := ctx.operationChain ++ [name] }

theorem recordOperationInContext_get (rootId : Bytes) (name : String) :
    (recordOperationInContext env s rootId name).tracing.context.get id =
      if id = rootId then some (recordedContext env id (s.tracing.context.get id) name)
      else s.tracing.context.get id := by
  rw [recordOperationInContext, KeyedStore.get_set]
  by_cases hid : id = rootId
  · rw [if_pos hid, if_pos hid, hid]
    rfl
  · rw [if_neg hid, if_neg hid]

theorem submitWithRequestId_context {input : AttestationInput} {requestId : RequestId}
    {attestationId : UInt64}
    (h : submitWithRequestId host env s requestId input = .ok (s', attestationId)) :
    s'.tracing.context =
      (recordOperationInContext env s requestId.id "submit_attestation").tracing.context := by
  simp only [submitWithRequestId, bind_eq_ok, pure_eq_ok] at h
  obtain ⟨_, _, _, _, _, _, t, hlimit, _, _, _, _, ⟨u, _⟩, hacc, h⟩ := h
  obtain ⟨rfl, -⟩ := Prod.mk.inj h
  obtain ⟨_, _, _, rfl⟩ := enforceRateLimit_frame hlimit
  obtain ⟨-, -, rfl⟩ := acceptAttestation_effects hacc
  rfl

theorem quoteWithRequestIdAndReason_context {requestId : RequestId} {anchor : Address}
    {terms : QuoteTerms} {routingReason : Option String}
    (h : quoteWithRequestIdAndReason env s requestId anchor terms routingReason = .ok s') :
    s'.tracing.context = (recordOperationInContext env s requestId.id
      (if routingReason.isSome then "submit_quote_with_reason" else "submit_quote")).tracing.context
      := by
  simp only [quoteWithRequestIdAndReason, bind_eq_ok, pure_eq_ok] at h
  obtain ⟨_, _, _, _, ⟨u, _⟩, hsubmit, rfl⟩ := h
  obtain ⟨_, _, _, _, _, _, _, rfl⟩ := submitQuoteWithReason_effects hsubmit
  rfl

def contextAfter (id : Bytes) (t : ContractState.Transition) (ctx : Option RequestContext) :
    Option RequestContext :=
  match contextCreated id t with
  | some created => some created
  | none => match operationOn id t with
    | some name => some (recordedContext t.input.1 id ctx name)
    | none => ctx

theorem contextAfter_of_created {ctx created : Option RequestContext}
    (h : contextCreated id t = created) (hsome : created.isSome = true) :
    contextAfter id t ctx = created := by
  obtain ⟨c, rfl⟩ := Option.isSome_iff_exists.mp hsome
  rw [contextAfter, h]

theorem contextAfter_of_operation {ctx : Option RequestContext} {name : String}
    (hcreated : contextCreated id t = none) (h : operationOn id t = some name) :
    contextAfter id t ctx = some (recordedContext t.input.1 id ctx name) := by
  rw [contextAfter, hcreated, h]

theorem contextAfter_of_none {ctx : Option RequestContext} (hcreated : contextCreated id t = none)
    (h : operationOn id t = none) : contextAfter id t ctx = ctx := by
  rw [contextAfter, hcreated, h]

theorem contextAfter_of_recorded {pre post : ContractState} {e : EntryPoint} {rootId : Bytes}
    {name : String}
    (hcontext : post.core.tracing.context =
      (recordOperationInContext env pre.core rootId name).tracing.context)
    (hcreated : contextCreated id ⟨pre, (env, e), post⟩ = none)
    (hname : operationOn id ⟨pre, (env, e), post⟩ = if rootId = id then some name else none) :
    getRequestContext post.core id =
      contextAfter id ⟨pre, (env, e), post⟩ (getRequestContext pre.core id) := by
  rw [getRequestContext, hcontext, recordOperationInContext_get]
  by_cases hid : id = rootId
  · rw [if_pos hid.symm] at hname
    rw [if_pos hid, contextAfter_of_operation hcreated hname]
    rfl
  · rw [if_neg (Ne.symm hid)] at hname
    rw [if_neg hid, contextAfter_of_none hcreated hname]
    rfl

theorem core_context {c : Call} {pre post : ContractState}
    (h : invoke host env pre.core c = .ok post.core) :
    getRequestContext post.core id =
      contextAfter id ⟨pre, (env, .core c), post⟩ (getRequestContext pre.core id) := by
  by_cases hc : .tracing ∈ c.touches
  · cases c with
    | submitWithRequestId requestId input =>
      obtain ⟨_, h⟩ := fst_map_eq_ok.mp h
      apply contextAfter_of_recorded
      · exact submitWithRequestId_context h
      · rfl
      · rfl
    | quoteWithRequestId requestId anchor terms =>
      apply contextAfter_of_recorded
      · exact quoteWithRequestIdAndReason_context h
      · rfl
      · rfl
    | quoteWithRequestIdAndReason requestId anchor terms routingReason =>
      apply contextAfter_of_recorded
      · exact quoteWithRequestIdAndReason_context h
      · rfl
      · rfl
    | propagateSpan parent child operation actor =>
      simp only [invoke, propagateSpan, bind_eq_ok, pure_eq_ok] at h
      obtain ⟨_, _, _, _, _, _, _, _, hpost⟩ := h
      rw [contextAfter_of_none rfl rfl, getRequestContext, ← hpost]
      rfl
    | _ => exact absurd hc (by simp [Call.touches])
  · have hnone : operationOn id ⟨pre, (env, .core c), post⟩ = none := by
      cases c with
      | submitWithRequestId | quoteWithRequestId | quoteWithRequestIdAndReason =>
        exact absurd (by simp [Call.touches]) hc
      | _ => rfl
    rw [contextAfter_of_none rfl hnone, getRequestContext, (invoke_sameOutside h).tracing_eq hc]
    rfl

theorem context_step (h : ContractState.step host sha256 t.pre t.input = .ok t.post) :
    getRequestContext t.post.core id = contextAfter id t (getRequestContext t.pre.core id) := by
  obtain ⟨pre, ⟨env, e⟩, post⟩ := t
  have hsame := ContractState.enter_sameOutside h
  cases e with
  | core c =>
    simp only [ContractState.step, ContractState.enter, bind_eq_ok, pure_eq_ok] at h
    obtain ⟨_, hinvoke, rfl⟩ := h
    exact core_context hinvoke
  | createRequestContext rootRequestId =>
    simp only [ContractState.step, ContractState.enter, createRequestContext, bind_eq_ok,
      pure_eq_ok] at h
    obtain ⟨_, ⟨_, _, _, _, rfl⟩, rfl⟩ := h
    rw [getRequestContext, KeyedStore.get_set]
    by_cases hid : id = rootRequestId.id
    · rw [if_pos hid]
      symm
      apply contextAfter_of_created
      · exact if_pos hid.symm
      · rfl
    · rw [if_neg hid]
      symm
      apply contextAfter_of_none
      · exact if_neg (Ne.symm hid)
      · rfl
  | appendOperation rootRequestIdBytes operationName =>
    simp only [ContractState.step, ContractState.enter, appendOperation, bind_eq_ok,
      pure_eq_ok] at h
    obtain ⟨_, ⟨_, _, rfl⟩, rfl⟩ := h
    apply contextAfter_of_recorded
    · rfl
    · rfl
    · rfl
  | setEndpoint attestor endpoint =>
    simp only [ContractState.step, ContractState.enter, bind_eq_ok, pure_eq_ok] at h
    obtain ⟨_, hset, rfl⟩ := h
    obtain ⟨_, _, _, _, _, rfl⟩ := setEndpoint_effects hset
    rfl
  | registerWebhook attestor webhookUrl =>
    simp only [ContractState.step, ContractState.enter, bind_eq_ok, pure_eq_ok] at h
    obtain ⟨_, hset, rfl⟩ := h
    obtain ⟨_, _, _, rfl⟩ := registerWebhook_effects hset
    rfl
  | refreshAnchorInfo anchor tomlData ttlSeconds sourceUri =>
    simp only [ContractState.step, ContractState.enter, AnchorInfo.refreshAnchorInfo, bind_eq_ok,
      pure_eq_ok] at h
    obtain ⟨_, ⟨_, _, _, _, rfl⟩, rfl⟩ := h
    rfl
  | _ =>
    have hcore : post.core = pre.core := hsame .core (by simp [ContractState.writes])
    exact congrArg (fun core => getRequestContext core id) hcore

/-! ### From one call to a run -/

theorem operationChain_of_created {created : RequestContext}
    (h : contextCreated id t = some created) : created.operationChain = [] := by
  unfold contextCreated at h
  split at h
  · obtain ⟨_, hsame⟩ := Option.ite_none_right_eq_some.mp h
    rw [← Option.some.inj hsame]
  · cases h

theorem filterMap_operationOn_of_unopened (h : past.findSome? (contextOpened id) = none) :
    past.filterMap (operationOn id) = [] := by
  rw [List.filterMap_eq_nil_iff]
  intro t ht
  exact Option.map_eq_none_iff.mp (List.findSome?_eq_none_iff.mp h t ht)

theorem contextTold_snoc_of_operation {name : String} (hcreated : contextCreated id t = none)
    (hname : operationOn id t = some name) :
    contextTold id (past ++ [t]) =
      some (recordedContext t.input.1 id (contextTold id past) name) := by
  have hchain (l : List ContractState.Transition) : (l ++ [t]).filterMap (operationOn id) =
      l.filterMap (operationOn id) ++ [name] := by
    rw [List.filterMap_append, List.filterMap_cons_some hname, List.filterMap_nil]
  unfold contextTold
  rw [sinceLast_snoc_of_none hcreated]
  cases sinceLast (contextCreated id) past with
  | some p =>
    simp only [Option.map_some, hchain]
    rfl
  | none =>
    have hopened : contextOpened id t = some
        { rootRequestId := ⟨id, t.input.1.timestamp⟩, operationChain := [],
          createdAt := t.input.1.timestamp } := by rw [contextOpened, hname, Option.map_some]
    simp only [Option.map_none, List.findSome?_append, List.findSome?_singleton, hopened, hchain]
    cases hfirst : past.findSome? (contextOpened id) with
    | some first => rfl
    | none =>
      rw [filterMap_operationOn_of_unopened hfirst]
      rfl

theorem contextTold_snoc_of_none (hcreated : contextCreated id t = none)
    (hname : operationOn id t = none) : contextTold id (past ++ [t]) = contextTold id past := by
  have hchain (l : List ContractState.Transition) : (l ++ [t]).filterMap (operationOn id) =
      l.filterMap (operationOn id) := by
    rw [List.filterMap_append, List.filterMap_cons_none hname, List.filterMap_nil,
      List.append_nil]
  have hopened : contextOpened id t = none := by rw [contextOpened, hname, Option.map_none]
  unfold contextTold
  rw [sinceLast_snoc_of_none hcreated]
  cases sinceLast (contextCreated id) past with
  | some p => simp only [Option.map_some, hchain]
  | none =>
    simp only [Option.map_none, List.findSome?_append, List.findSome?_singleton, hopened,
      Option.or_none, hchain]

theorem contextTold_snoc :
    contextTold id (past ++ [t]) = contextAfter id t (contextTold id past) := by
  cases hcreated : contextCreated id t with
  | some created =>
    rw [contextAfter, hcreated, contextTold, sinceLast_snoc_of_some hcreated]
    have hempty : { created with operationChain := [] } = created := by
      rw [← operationChain_of_created hcreated]
    exact congrArg some hempty
  | none =>
    cases hname : operationOn id t with
    | none => rw [contextTold_snoc_of_none hcreated hname, contextAfter_of_none hcreated hname]
    | some name =>
      rw [contextTold_snoc_of_operation hcreated hname,
        contextAfter_of_operation hcreated hname]

end Contexts

/-! ### The ids of requests -/

def idInput (t : ContractState.Transition) : Option Bytes :=
  match t.input.2 with
  | .generateRequestId => some (requestIdInput t.input.1 t.pre.requestIds)
  | _ => none

/-- What the ids generated in a run, and those of any children, are the hashes of. A root of four
bytes would leave room for the input of a generated id. -/
structure RequestIdsApart (sha256 : Bytes → BytesN 32) (past : List ContractState.Transition)
    (s : ContractState) : Prop where
  counted : s.requestIds.toNat = (past.filterMap idInput).length
  distinct : (past.filterMap idInput).Nodup
  sized : ∀ input ∈ past.filterMap idInput, (truncatedHash sha256 input).length = 16
  child_inj : ∀ root root' env env' nonce nonce',
    childIdInput env root nonce = childIdInput env' root' nonce' →
      root = root' ∧ nonce = nonce' ∧ env.timestamp = env'.timestamp
  child_new : ∀ root, root.length ≠ 4 → ∀ env nonce,
    childIdInput env root nonce ∉ past.filterMap idInput

section Ids

variable {sha256 : Bytes → BytesN 32} {env env' : Env} {counter counter' nonce nonce' : UInt64}
  {root root' : Bytes}

@[simp] theorem length_truncatedHash (input : Bytes) :
    (truncatedHash sha256 input).length = 16 := by
  simp [truncatedHash, (sha256 input).property]

theorem requestIdInput_inj (h : requestIdInput env counter = requestIdInput env' counter') :
    counter = counter' := by
  rw [requestIdInput, requestIdInput] at h
  have htail := (List.append_inj' h (by simp)).2
  exact selfDelimiting_beBytes64.injective trivial trivial htail

/-- Whatever the root, nonce and time are at the end of the input. -/
theorem childIdInput_inj (h : childIdInput env root nonce = childIdInput env' root' nonce') :
    root = root' ∧ nonce = nonce' ∧ env.timestamp = env'.timestamp := by
  rw [childIdInput, childIdInput] at h
  obtain ⟨h, htime⟩ := List.append_inj' h (by simp)
  obtain ⟨hroot, hnonce⟩ := List.append_inj' h (by simp)
  exact ⟨hroot, selfDelimiting_beBytes64.injective trivial trivial hnonce,
    selfDelimiting_beBytes64.injective trivial trivial htime⟩

theorem childIdInput_ne (hlength : root.length ≠ 4) :
    childIdInput env root nonce ≠ requestIdInput env' counter := by
  intro h
  have hsize := congrArg List.length h
  simp only [childIdInput, requestIdInput, List.length_append, length_beBytes64,
    length_beBytes32] at hsize
  omega

end Ids

section Runs

variable (host : Host) (sha256 : Bytes → BytesN 32)

/-- The operations of every root after any run of the contract. -/
theorem contexts_run (is : List ContractState.Input) (id : Bytes) :
    getRequestContext (ContractState.run host sha256 is).core id =
      contextTold id (ContractState.history host sha256 is) := by
  have hempty : getRequestContext ContractState.empty.core id = contextTold id [] := rfl
  refine Machine.history_invariant (ContractState.step host sha256)
    (fun past s => getRequestContext s.core id = contextTold id past) (fun _ => True) hempty ?_ is
    fun _ _ => trivial
  intro past t ht hpre _
  rw [contextTold_snoc, context_step ht, hpre]

/-- The hashed inputs so far come from smaller counters. -/
structure IdsCounted (past : List ContractState.Transition) (s : ContractState) : Prop where
  counted : s.requestIds.toNat = (past.filterMap idInput).length
  below : ∀ input ∈ past.filterMap idInput, ∃ env counter, input = requestIdInput env counter ∧
    counter < s.requestIds
  distinct : (past.filterMap idInput).Nodup

section Steps

variable {host sha256} {env : Env} {past : List ContractState.Transition}
  {t : ContractState.Transition}

theorem IdsCounted.of_kept (hpre : IdsCounted past t.pre) (hinput : idInput t = none)
    (hids : t.post.requestIds = t.pre.requestIds) : IdsCounted (past ++ [t]) t.post := by
  have hinputs : (past ++ [t]).filterMap idInput = past.filterMap idInput := by
    rw [List.filterMap_append, List.filterMap_cons_none hinput, List.filterMap_nil,
      List.append_nil]
  constructor
  · rw [hinputs, hids, hpre.counted]
  · rw [hinputs, hids]
    exact hpre.below
  · rw [hinputs]
    exact hpre.distinct

theorem IdsCounted.of_generated (hpre : IdsCounted past t.pre)
    (hinput : idInput t = some (requestIdInput env t.pre.requestIds))
    (hnext : t.pre.requestIds.toNat + 1 = t.post.requestIds.toNat) :
    IdsCounted (past ++ [t]) t.post := by
  have hlt : t.pre.requestIds < t.post.requestIds := by
    rw [UInt64.lt_iff_toNat_lt, ← hnext]
    exact Nat.lt_succ_self _
  have hinputs : (past ++ [t]).filterMap idInput =
      past.filterMap idInput ++ [requestIdInput env t.pre.requestIds] := by
    rw [List.filterMap_append, List.filterMap_cons_some hinput, List.filterMap_nil]
  constructor
  · rw [hinputs, List.length_append, ← hpre.counted, ← hnext, List.length_singleton]
  · intro input hmem
    rw [hinputs] at hmem
    rcases mem_snoc.mp hmem with hold | rfl
    · obtain ⟨env', counter, rfl, hcounter⟩ := hpre.below input hold
      exact ⟨env', counter, rfl, UInt64.lt_trans hcounter hlt⟩
    · exact ⟨env, t.pre.requestIds, rfl, hlt⟩
  · rw [hinputs, ← List.concat_eq_append]
    refine hpre.distinct.concat fun hold => ?_
    -- the counters of the earlier inputs are smaller
    obtain ⟨env', counter, hsame, hcounter⟩ := hpre.below _ hold
    rw [requestIdInput_inj hsame] at hcounter
    exact UInt64.lt_irrefl _ hcounter

theorem idsCounted_step (h : ContractState.step host sha256 t.pre t.input = .ok t.post)
    (hpre : IdsCounted past t.pre) : IdsCounted (past ++ [t]) t.post := by
  obtain ⟨pre, ⟨env, e⟩, post⟩ := t
  have hsame := ContractState.enter_sameOutside h
  cases e with
  | generateRequestId =>
    simp only [ContractState.step, ContractState.enter, generateRequestId, bind_eq_ok,
      add64_eq_ok, pure_eq_ok] at h
    obtain ⟨_, ⟨next, hnext, rfl⟩, rfl⟩ := h
    exact hpre.of_generated rfl hnext
  | _ => exact hpre.of_kept rfl (hsame .requestIds (by simp [ContractState.writes]))

end Steps

/-- The ids of requests after any run of the contract. -/
theorem request_ids_run (is : List ContractState.Input) :
    RequestIdsApart sha256 (ContractState.history host sha256 is)
      (ContractState.run host sha256 is) := by
  have hrun : IdsCounted (ContractState.history host sha256 is)
      (ContractState.run host sha256 is) :=
    Machine.history_invariant (ContractState.step host sha256) IdsCounted (fun _ => True)
      ⟨rfl, by simp, List.nodup_nil⟩ (fun _ _ ht hpre _ => idsCounted_step ht hpre) is
      fun _ _ => trivial
  refine ⟨hrun.counted, hrun.distinct, fun input _ => length_truncatedHash input,
    fun _ _ _ _ _ _ => childIdInput_inj, ?_⟩
  intro root hlength env nonce hmem
  obtain ⟨env', counter, hsame, _⟩ := hrun.below _ hmem
  exact childIdInput_ne hlength hsame

end Runs

end AnchorKit
