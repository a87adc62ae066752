import AnchorKit.DistributedCorrelation

/-!
# Provenance of requests

Every record names the requests that led to it, the first one first. Over the wire goes only the
last of them, with their number; the reader checks the number and forgets it.
-/

namespace AnchorKit

open Fallible

inductive ProvenanceError
  | emptyActor
  | metadataTooLong (len max : ℕ)
  | invalidId
  | emptyOperation
deriving DecidableEq, Repr

def maxMetadataLen : ℕ := 1024

def maxIdLen : ℕ := 128

def provenanceIdHeader : Text := "X-Request-Provenance-Id".toList

def parentIdHeader : Text := "X-Request-Parent-Id".toList

def depthHeader : Text := "X-Request-Depth".toList

def originHeader : Text := "X-Request-Origin".toList

def operationHeader : Text := "X-Request-Operation".toList

def metadataHeader : Text := "X-Request-Metadata".toList

structure ProvenanceRecord where
  requestId : Text
  parentId : Option Text
  ancestors : List Text
  originService : Text
  operation : Option Text
  metadata : Option Text
  createdAt : UInt64
deriving DecidableEq, Repr

namespace ProvenanceRecord

def isValidRequestId (id : Text) : Bool :=
  Text.byteLen id = 32 && id.utf8.all TraceContext.isLowerHex

def validateCallerId (id : Text) : Except ProvenanceError Unit := do
  require (Text.byteLen id ≤ maxIdLen) .invalidId
  require (¬ id.utf8.any (fun b => b < 0x20 || b = 0x7f)) .invalidId

def deriveRequestId (sha256 : Bytes → BytesN 32) (seed : Text) : Text :=
  ((sha256 seed.utf8).val.take 16).flatMap fun b : UInt8 =>
    [TraceContext.hexNibble (b >>> 4), TraceContext.hexNibble (b &&& 0x0f)]

def isBlank (t : Text) : Prop := Text.trimMatches isWhitespace t = []

instance (t : Text) : Decidable (isBlank t) := inferInstanceAs (Decidable (_ = _))

section Constructors

variable (sha256 : Bytes → BytesN 32)

def root (originService operation : Text) (createdAt : UInt64) :
    Except ProvenanceError ProvenanceRecord := do
  require (¬ isBlank originService) .emptyActor
  require (¬ isBlank operation) .emptyOperation
  return {
    requestId := deriveRequestId sha256 ([':'].intercalate
      ["root".toList, originService, operation, Nat.toDigits 10 createdAt.toNat])
    parentId := none
    ancestors := []
    originService := originService
    operation := some operation
    metadata := none
    createdAt := createdAt }

def rootWithId (requestId originService operation : Text) (createdAt : UInt64) :
    Except ProvenanceError ProvenanceRecord := do
  validateCallerId requestId
  require (¬ isBlank originService) .emptyActor
  require (¬ isBlank operation) .emptyOperation
  return {
    requestId := requestId
    parentId := none
    ancestors := []
    originService := originService
    operation := some operation
    metadata := none
    createdAt := createdAt }

/-- The operation of a child is not checked. -/
def child (r : ProvenanceRecord) (childService operation : Text) (createdAt : UInt64) :
    Except ProvenanceError ProvenanceRecord := do
  require (¬ isBlank childService) .emptyActor
  return {
    requestId := deriveRequestId sha256 ([':'].intercalate
      ["child".toList, r.requestId, childService, operation, Nat.toDigits 10 createdAt.toNat])
    parentId := some r.requestId
    ancestors := r.ancestors ++ [r.requestId]
    originService := childService
    operation := some operation
    metadata := none
    createdAt := createdAt }

def childWithId (r : ProvenanceRecord) (childId childService operation : Text)
    (createdAt : UInt64) : Except ProvenanceError ProvenanceRecord := do
  validateCallerId childId
  require (¬ isBlank childService) .emptyActor
  return {
    requestId := childId
    parentId := some r.requestId
    ancestors := r.ancestors ++ [r.requestId]
    originService := childService
    operation := some operation
    metadata := none
    createdAt := createdAt }

def validateMetadata (metadata : Text) : Except ProvenanceError Unit :=
  require (Text.byteLen metadata ≤ maxMetadataLen)
    (.metadataTooLong (Text.byteLen metadata) maxMetadataLen)

def withMetadata (r : ProvenanceRecord) (metadata : Text) :
    Except ProvenanceError ProvenanceRecord := do
  validateMetadata metadata
  return { r with metadata := some metadata }

/-- The result, and the record after the call. -/
def setMetadata (r : ProvenanceRecord) (metadata : Text) :
    Except ProvenanceError Unit × ProvenanceRecord :=
  match validateMetadata metadata with
  | .error e => (.error e, r)
  | .ok () => (.ok (), { r with metadata := some metadata })

def rootWithMetadata (originService operation metadata : Text) (createdAt : UInt64) :
    Except ProvenanceError ProvenanceRecord := do
  (← root sha256 originService operation createdAt).withMetadata metadata

def childWithMetadata (r : ProvenanceRecord) (childService operation metadata : Text)
    (createdAt : UInt64) : Except ProvenanceError ProvenanceRecord := do
  (← r.child sha256 childService operation createdAt).withMetadata metadata

end Constructors

def depth (r : ProvenanceRecord) : ℕ := r.ancestors.length

def toHeaders (r : ProvenanceRecord) : List (Text × Text) :=
  [(provenanceIdHeader, r.requestId), (parentIdHeader, r.parentId.getD "root".toList),
    (depthHeader, Nat.toDigits 10 r.depth), (originHeader, r.originService)] ++
  r.operation.toList.map (fun op => (operationHeader, op)) ++
  r.metadata.toList.map fun text => (metadataHeader, text)

/-- What the headers so far have said. -/
structure Parsed where
  requestId : Option Text
  parentId : Option Text
  originService : Text
  operation : Option Text
  metadata : Option Text

def readHeader (p : Parsed) (header : Text × Text) : Option Parsed :=
  let (n, value) := header
  if Text.eqIgnoreAsciiCase n provenanceIdHeader then some { p with requestId := some value }
  else if Text.eqIgnoreAsciiCase n parentIdHeader then
    if value = "root".toList then some { p with parentId := none }
    else if isValidRequestId value then some { p with parentId := some value }
    else none
  else if Text.eqIgnoreAsciiCase n depthHeader then
    -- the number of a 64-bit machine; it is read and dropped
    (Text.parseU64 value).map fun _ => p
  else if Text.eqIgnoreAsciiCase n originHeader then some { p with originService := value }
  else if Text.eqIgnoreAsciiCase n operationHeader then some { p with operation := some value }
  else if Text.eqIgnoreAsciiCase n metadataHeader then
    if maxMetadataLen < Text.byteLen value then none else some { p with metadata := some value }
  else some p

def fromHeaders (headers : List (Text × Text)) : Option ProvenanceRecord := do
  let p ← headers.foldlM readHeader ⟨none, none, [], none, none⟩
  let id ← p.requestId
  return {
    requestId := id
    parentId := p.parentId
    ancestors := []
    originService := p.originService
    operation := p.operation
    metadata := p.metadata
    createdAt := 0 }

/-! ### Chains of records -/

/-- A record, with the records of its chain, the first one first. -/
inductive Lineage (sha256 : Bytes → BytesN 32) : List ProvenanceRecord → ProvenanceRecord → Prop
  | root {service operation : Text} {createdAt : UInt64} {r : ProvenanceRecord}
    (h : root sha256 service operation createdAt = .ok r) : Lineage sha256 [] r
  | rootWithId {id service operation : Text} {createdAt : UInt64} {r : ProvenanceRecord}
    (h : rootWithId id service operation createdAt = .ok r) : Lineage sha256 [] r
  | rootWithMetadata {service operation text : Text} {createdAt : UInt64} {r : ProvenanceRecord}
    (h : rootWithMetadata sha256 service operation text createdAt = .ok r) : Lineage sha256 [] r
  | child {chain : List ProvenanceRecord} {p r : ProvenanceRecord} (hp : Lineage sha256 chain p)
    {service operation : Text} {createdAt : UInt64}
    (h : p.child sha256 service operation createdAt = .ok r) : Lineage sha256 (chain ++ [p]) r
  | childWithId {chain : List ProvenanceRecord} {p r : ProvenanceRecord}
    (hp : Lineage sha256 chain p) {id service operation : Text} {createdAt : UInt64}
    (h : p.childWithId id service operation createdAt = .ok r) : Lineage sha256 (chain ++ [p]) r
  | childWithMetadata {chain : List ProvenanceRecord} {p r : ProvenanceRecord}
    (hp : Lineage sha256 chain p) {service operation text : Text} {createdAt : UInt64}
    (h : p.childWithMetadata sha256 service operation text createdAt = .ok r) :
    Lineage sha256 (chain ++ [p]) r
  | withMetadata {chain : List ProvenanceRecord} {p r : ProvenanceRecord}
    (hp : Lineage sha256 chain p) {text : Text} (h : p.withMetadata text = .ok r) :
    Lineage sha256 chain r
  | setMetadata {chain : List ProvenanceRecord} {p : ProvenanceRecord}
    (hp : Lineage sha256 chain p) {text : Text} (h : (p.setMetadata text).1 = .ok ()) :
    Lineage sha256 chain (p.setMetadata text).2

/-- What a record holds of its chain, and what the wire keeps of it. -/
structure Faithful (chain : List ProvenanceRecord) (r : ProvenanceRecord) : Prop where
  ancestors : r.ancestors = chain.map requestId
  parent : r.parentId = chain.getLast?.map requestId
  operation : ∃ op, r.operation = some op ∧ ¬ isBlank op
  decoded : ∃ d, fromHeaders r.toHeaders = some d ∧ d.requestId = r.requestId ∧
    d.parentId = r.parentId ∧ d.depth = r.depth ∧ d.originService = r.originService ∧
    d.operation = r.operation ∧ d.metadata = r.metadata

section Steps

variable {sha256 : Bytes → BytesN 32} {service operation id text : Text} {createdAt : UInt64}
  {p r : ProvenanceRecord}

structure IsRoot (r : ProvenanceRecord) : Prop where
  ancestors : r.ancestors = []
  parent : r.parentId = none
  operation : ∃ op, r.operation = some op ∧ ¬ isBlank op

/-- A record that follows `p` in a chain. -/
structure IsChild (p r : ProvenanceRecord) : Prop where
  ancestors : r.ancestors = p.ancestors ++ [p.requestId]
  parent : r.parentId = some p.requestId

structure SameButMetadata (p r : ProvenanceRecord) : Prop where
  ancestors : r.ancestors = p.ancestors
  parent : r.parentId = p.parentId
  operation : r.operation = p.operation

def Bounded (r : ProvenanceRecord) : Prop := ∀ text ∈ r.metadata, Text.byteLen text ≤ maxMetadataLen

theorem withMetadata_eq_ok (h : p.withMetadata text = .ok r) : SameButMetadata p r ∧ Bounded r := by
  obtain ⟨_, hfits, h⟩ := bind_eq_ok.mp h
  rw [validateMetadata, require_eq_ok] at hfits
  rw [pure_eq_ok] at h
  subst h
  refine ⟨⟨rfl, rfl, rfl⟩, fun t ht => ?_⟩
  obtain rfl := Option.some.inj ht
  exact hfits

/-- Setting the metadata of a record is making one with other metadata. -/
theorem withMetadata_of_setMetadata (h : (p.setMetadata text).1 = .ok ()) :
    p.withMetadata text = .ok (p.setMetadata text).2 := by
  unfold setMetadata at h ⊢
  rw [withMetadata]
  split at h
  · cases h
  · rename_i hfits
    rw [hfits]
    rfl

/-- A refused update leaves the record as it is. -/
theorem setMetadata_of_error {e : ProvenanceError} (h : (p.setMetadata text).1 = .error e) :
    (p.setMetadata text).2 = p := by
  unfold setMetadata at h ⊢
  split at h
  · rfl
  · cases h

theorem root_eq_ok (h : root sha256 service operation createdAt = .ok r) :
    IsRoot r ∧ Bounded r := by
  rw [root, require_bind_eq_ok, require_bind_eq_ok, pure_eq_ok] at h
  obtain ⟨-, hop, rfl⟩ := h
  exact ⟨⟨rfl, rfl, operation, rfl, hop⟩, nofun⟩

theorem rootWithId_eq_ok (h : rootWithId id service operation createdAt = .ok r) :
    IsRoot r ∧ Bounded r := by
  obtain ⟨_, -, h⟩ := bind_eq_ok.mp h
  rw [require_bind_eq_ok, require_bind_eq_ok, pure_eq_ok] at h
  obtain ⟨-, hop, rfl⟩ := h
  exact ⟨⟨rfl, rfl, operation, rfl, hop⟩, nofun⟩

theorem child_eq_ok (h : p.child sha256 service operation createdAt = .ok r) :
    IsChild p r ∧ Bounded r := by
  rw [child, require_bind_eq_ok, pure_eq_ok] at h
  obtain ⟨-, rfl⟩ := h
  exact ⟨⟨rfl, rfl⟩, nofun⟩

theorem childWithId_eq_ok (h : p.childWithId id service operation createdAt = .ok r) :
    IsChild p r ∧ Bounded r := by
  obtain ⟨_, -, h⟩ := bind_eq_ok.mp h
  rw [require_bind_eq_ok, pure_eq_ok] at h
  obtain ⟨-, rfl⟩ := h
  exact ⟨⟨rfl, rfl⟩, nofun⟩

end Steps

section Chains

variable {sha256 : Bytes → BytesN 32} {chain : List ProvenanceRecord} {r : ProvenanceRecord}

/-- A record holds what its chain says, a root has an operation, and the metadata fits. -/
structure Invariant (chain : List ProvenanceRecord) (r : ProvenanceRecord) : Prop where
  ancestors : r.ancestors = chain.map requestId
  parent : r.parentId = chain.getLast?.map requestId
  operation : chain = [] → ∃ op, r.operation = some op ∧ ¬ isBlank op
  bounded : Bounded r

theorem IsRoot.invariant (h : IsRoot r ∧ Bounded r) : Invariant [] r :=
  ⟨h.1.ancestors, h.1.parent, fun _ => h.1.operation, h.2⟩

theorem Invariant.child {p : ProvenanceRecord} (hp : Invariant chain p)
    (h : IsChild p r ∧ Bounded r) : Invariant (chain ++ [p]) r := by
  obtain ⟨hchild, hbounded⟩ := h
  refine ⟨?_, ?_, fun hnil => ?_, hbounded⟩
  · rw [hchild.ancestors, hp.ancestors, List.map_append]
    rfl
  · rw [hchild.parent, List.getLast?_concat]
    rfl
  · exact absurd hnil (List.concat_ne_nil p chain)

theorem Invariant.withMetadata {p : ProvenanceRecord} (hp : Invariant chain p)
    (h : SameButMetadata p r ∧ Bounded r) : Invariant chain r := by
  obtain ⟨hsame, hbounded⟩ := h
  refine ⟨hsame.ancestors.trans hp.ancestors, hsame.parent.trans hp.parent, fun hnil => ?_,
    hbounded⟩
  rw [hsame.operation]
  exact hp.operation hnil

theorem Lineage.invariant (h : Lineage sha256 chain r) : Invariant chain r := by
  induction h with
  | root h => exact IsRoot.invariant (root_eq_ok h)
  | rootWithId h => exact IsRoot.invariant (rootWithId_eq_ok h)
  | rootWithMetadata h =>
    obtain ⟨p, hp, h⟩ := bind_eq_ok.mp h
    exact (IsRoot.invariant (root_eq_ok hp)).withMetadata (withMetadata_eq_ok h)
  | child _ h ih => exact ih.child (child_eq_ok h)
  | childWithId _ h ih => exact ih.child (childWithId_eq_ok h)
  | childWithMetadata _ h ih =>
    obtain ⟨p, hp, h⟩ := bind_eq_ok.mp h
    exact (ih.child (child_eq_ok hp)).withMetadata (withMetadata_eq_ok h)
  | withMetadata _ h ih => exact ih.withMetadata (withMetadata_eq_ok h)
  | setMetadata _ h ih =>
    exact ih.withMetadata (withMetadata_eq_ok (withMetadata_of_setMetadata h))

end Chains

/-! ### The headers -/

section Headers

variable {r : ProvenanceRecord}

theorem readHeader_provenanceId (p : Parsed) (value : Text) :
    readHeader p (provenanceIdHeader, value) = some { p with requestId := some value } := rfl

/-- The parent as it is read: the mark of a root stands for none. -/
def readParent (value : Text) : Option (Option Text) :=
  if value = "root".toList then some none
  else if isValidRequestId value then some (some value)
  else none

theorem readHeader_parentId (p : Parsed) (value : Text) :
    readHeader p (parentIdHeader, value) =
      (readParent value).map fun parent => { p with parentId := parent } := by
  have hid : Text.eqIgnoreAsciiCase parentIdHeader provenanceIdHeader = false := by decide
  have hself : Text.eqIgnoreAsciiCase parentIdHeader parentIdHeader = true := by decide
  rw [readHeader, hid, hself, if_neg Bool.false_ne_true, if_pos rfl, readParent]
  split
  · rfl
  · split <;> rfl

theorem readHeader_depth (p : Parsed) (value : Text) :
    readHeader p (depthHeader, value) = (Text.parseU64 value).map fun _ => p := by
  have hid : Text.eqIgnoreAsciiCase depthHeader provenanceIdHeader = false := by decide
  have hparent : Text.eqIgnoreAsciiCase depthHeader parentIdHeader = false := by decide
  rw [readHeader, hid, hparent]
  rfl

theorem readHeader_origin (p : Parsed) (value : Text) :
    readHeader p (originHeader, value) = some { p with originService := value } := by
  have hid : Text.eqIgnoreAsciiCase originHeader provenanceIdHeader = false := by decide
  have hparent : Text.eqIgnoreAsciiCase originHeader parentIdHeader = false := by decide
  have hdepth : Text.eqIgnoreAsciiCase originHeader depthHeader = false := by decide
  rw [readHeader, hid, hparent, hdepth]
  rfl

theorem readHeader_operation (p : Parsed) (value : Text) :
    readHeader p (operationHeader, value) = some { p with operation := some value } := by
  have hid : Text.eqIgnoreAsciiCase operationHeader provenanceIdHeader = false := by decide
  have hparent : Text.eqIgnoreAsciiCase operationHeader parentIdHeader = false := by decide
  have hdepth : Text.eqIgnoreAsciiCase operationHeader depthHeader = false := by decide
  have horigin : Text.eqIgnoreAsciiCase operationHeader originHeader = false := by decide
  rw [readHeader, hid, hparent, hdepth, horigin]
  rfl

theorem readHeader_metadata (p : Parsed) (value : Text) :
    readHeader p (metadataHeader, value) =
      if maxMetadataLen < Text.byteLen value then none
      else some { p with metadata := some value } := by
  have hid : Text.eqIgnoreAsciiCase metadataHeader provenanceIdHeader = false := by decide
  have hparent : Text.eqIgnoreAsciiCase metadataHeader parentIdHeader = false := by decide
  have hdepth : Text.eqIgnoreAsciiCase metadataHeader depthHeader = false := by decide
  have horigin : Text.eqIgnoreAsciiCase metadataHeader originHeader = false := by decide
  have hoperation : Text.eqIgnoreAsciiCase metadataHeader operationHeader = false := by decide
  rw [readHeader, hid, hparent, hdepth, horigin, hoperation]
  rfl

/-- An identifier that the reader accepts is not the mark of a root. -/
theorem ne_root_of_isValidRequestId {id : Text} (h : isValidRequestId id = true) :
    id ≠ "root".toList := by
  rintro rfl
  exact absurd h (by decide)

theorem readParent_getD {parent : Option Text} :
    readParent (parent.getD "root".toList) = some parent ↔
      ∀ p ∈ parent, isValidRequestId p = true := by
  cases parent with
  | none =>
    rw [Option.getD_none, readParent, if_pos rfl]
    exact iff_of_true rfl nofun
  | some p =>
    simp only [Option.getD_some, readParent, Option.mem_some_iff, forall_eq']
    constructor
    · intro h
      split at h
      · cases h
      · split at h
        · assumption
        · cases h
    · intro h
      rw [if_neg (ne_root_of_isValidRequestId h), if_pos h]

theorem foldlM_operation (p : Parsed) (hp : p.operation = none) (operation : Option Text) :
    (operation.toList.map fun op => (operationHeader, op)).foldlM readHeader p =
      some { p with operation := operation } := by
  obtain ⟨id, parent, origin, _, text⟩ := p
  subst hp
  cases operation with
  | none => rfl
  | some op =>
    rw [Option.toList_some, List.map_singleton, List.foldlM_cons, readHeader_operation]
    rfl

theorem foldlM_metadata (p : Parsed) (hp : p.metadata = none) {metadata : Option Text}
    (hbounded : ∀ text ∈ metadata, Text.byteLen text ≤ maxMetadataLen) :
    (metadata.toList.map fun text => (metadataHeader, text)).foldlM readHeader p =
      some { p with metadata := metadata } := by
  obtain ⟨id, parent, origin, op, _⟩ := p
  subst hp
  cases metadata with
  | none => rfl
  | some text =>
    rw [Option.toList_some, List.map_singleton, List.foldlM_cons, readHeader_metadata,
      if_neg (Nat.not_lt.mpr (hbounded text rfl))]
    rfl

/-- Reading a record from its own headers, up to the check of the parent. -/
theorem fromHeaders_toHeaders (hbounded : Bounded r) (hdepth : r.depth < 2 ^ 64) :
    fromHeaders r.toHeaders = (readParent (r.parentId.getD "root".toList)).map fun parent =>
      { r with parentId := parent, ancestors := [], createdAt := 0 } := by
  have hparse : Text.parseU64 (Nat.toDigits 10 r.depth) = some (UInt64.ofNat r.depth) := by
    have hdigits := Text.parseU64_toDigits (UInt64.ofNat r.depth)
    rwa [UInt64.toNat_ofNat', Nat.mod_eq_of_lt hdepth] at hdigits
  have hread : r.toHeaders.foldlM readHeader ⟨none, none, [], none, none⟩ =
      (readParent (r.parentId.getD "root".toList)).map fun parent =>
        ⟨some r.requestId, parent, r.originService, r.operation, r.metadata⟩ := by
    rw [toHeaders, List.append_assoc, List.cons_append, List.cons_append, List.cons_append,
      List.cons_append, List.nil_append, List.foldlM_cons, readHeader_provenanceId,
      Option.bind_eq_bind, Option.bind_some, List.foldlM_cons, readHeader_parentId,
      Option.bind_eq_bind, Option.bind_map]
    cases readParent (r.parentId.getD "root".toList) with
    | none => rfl
    | some parent =>
      rw [Option.bind_some, Function.comp_apply, List.foldlM_cons, readHeader_depth, hparse,
        Option.map_some, Option.bind_eq_bind, Option.bind_some, List.foldlM_cons, readHeader_origin,
        Option.bind_eq_bind, Option.bind_some, List.foldlM_append, foldlM_operation _ rfl,
        Option.bind_eq_bind, Option.bind_some, foldlM_metadata _ rfl hbounded]
      rfl
  rw [fromHeaders, hread]
  cases readParent (r.parentId.getD "root".toList) <;> rfl

/-- All but the ancestors and the time is read back exactly when the reader takes the parent. -/
theorem fromHeaders_toHeaders_iff (hbounded : Bounded r) (hdepth : r.depth < 2 ^ 64) :
    fromHeaders r.toHeaders = some { r with ancestors := [], createdAt := 0 } ↔
      ∀ p ∈ r.parentId, isValidRequestId p = true := by
  rw [fromHeaders_toHeaders hbounded hdepth, ← readParent_getD, Option.map_eq_some_iff]
  constructor
  · intro h
    obtain ⟨parent, hread, heq⟩ := h
    rw [hread]
    exact congrArg some (congrArg parentId heq)
  · intro hread
    exact ⟨r.parentId, hread, rfl⟩

end Headers

section Carriage

variable {sha256 : Bytes → BytesN 32} {chain : List ProvenanceRecord} {r : ProvenanceRecord}

/-- The depth of what is read is zero. -/
theorem depth_of_fromHeaders {headers : List (Text × Text)} (h : fromHeaders headers = some r) :
    r.depth = 0 := by
  obtain ⟨p, -, h⟩ := Option.bind_eq_some_iff.mp h
  obtain ⟨id, -, h⟩ := Option.bind_eq_some_iff.mp h
  obtain rfl := Option.some.inj h
  rfl

theorem isValidRequestId_deriveRequestId (sha256 : Bytes → BytesN 32) (seed : Text) :
    isValidRequestId (deriveRequestId sha256 seed) = true := by
  have hvalid := CorrelationContext.validate_deriveCorrelationId sha256 seed
  rw [CorrelationContext.validateCorrelationId, require_eq_ok] at hvalid
  rw [isValidRequestId, Bool.and_eq_true, decide_eq_true_eq]
  exact hvalid

/-- A child of a record with a derived identifier is read back. -/
theorem fromHeaders_child {p : ProvenanceRecord} {seed service operation : Text}
    {createdAt : UInt64} (hid : p.requestId = deriveRequestId sha256 seed)
    (h : p.child sha256 service operation createdAt = .ok r) (hdepth : r.depth < 2 ^ 64) :
    fromHeaders r.toHeaders = some { r with ancestors := [], createdAt := 0 } := by
  obtain ⟨hchild, hbounded⟩ := child_eq_ok h
  refine (fromHeaders_toHeaders_iff hbounded hdepth).mpr fun id hmem => ?_
  rw [hchild.parent, hid] at hmem
  obtain rfl := Option.some.inj hmem
  exact isValidRequestId_deriveRequestId sha256 seed

theorem Lineage.depth_eq (h : Lineage sha256 chain r) : r.depth = chain.length := by
  rw [depth, h.invariant.ancestors, List.length_map]

theorem eq_nil_of_faithful (h : Lineage sha256 chain r) (hfaithful : Faithful chain r) :
    chain = [] := by
  obtain ⟨d, hread, -, -, hd, -⟩ := hfaithful.decoded
  rw [depth_of_fromHeaders hread, h.depth_eq] at hd
  exact List.length_eq_zero_iff.mp hd.symm

/-- The wire keeps a record exactly when it starts its chain. -/
theorem faithful_iff (sha256 : Bytes → BytesN 32) (chain : List ProvenanceRecord)
    (r : ProvenanceRecord) (h : Lineage sha256 chain r) : Faithful chain r ↔ chain = [] := by
  constructor
  · exact eq_nil_of_faithful h
  · rintro rfl
    have hinv := h.invariant
    have hparent : r.parentId = none := hinv.parent
    have hzero : r.depth = 0 := h.depth_eq
    have hread := (fromHeaders_toHeaders_iff hinv.bounded (by omega)).mpr (by
      rw [hparent]
      nofun)
    exact ⟨hinv.ancestors, hinv.parent, hinv.operation rfl,
      _, hread, rfl, rfl, hzero.symm, rfl, rfl, rfl⟩

section Demo

def zeroHash : Bytes → BytesN 32 := fun _ => BytesN.fill 32 0

def gateway : ProvenanceRecord where
  requestId := "req-1".toList
  parentId := none
  ancestors := []
  originService := "gateway".toList
  operation := some "deposit".toList
  metadata := none
  createdAt := 1000

def anchor : ProvenanceRecord where
  requestId := "req-2".toList
  parentId := some "req-1".toList
  ancestors := ["req-1".toList]
  originService := "anchor".toList
  operation := some "sep6".toList
  metadata := none
  createdAt := 1001

theorem lineage_gateway : Lineage zeroHash [] gateway :=
  .rootWithId (show rootWithId "req-1".toList "gateway".toList "deposit".toList 1000 = _ by rfl)

theorem lineage_anchor : Lineage zeroHash [gateway] anchor :=
  lineage_gateway.childWithId
    (show gateway.childWithId "req-2".toList "anchor".toList "sep6".toList 1001 = _ by rfl)

end Demo

theorem faithful_gateway : Faithful [] gateway :=
  (faithful_iff zeroHash [] gateway lineage_gateway).mpr rfl

/-- A child is not read back as it was sent. -/
theorem child_loses_depth : ∃ chain r, Lineage zeroHash chain r ∧ ¬ Faithful chain r :=
  ⟨[gateway], anchor, lineage_anchor, fun hfaithful =>
    List.cons_ne_nil _ _ (eq_nil_of_faithful lineage_anchor hfaithful)⟩

end Carriage

end ProvenanceRecord

end AnchorKit
