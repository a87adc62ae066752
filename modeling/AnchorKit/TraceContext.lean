import AnchorKit.Library.Text
import AnchorKit.Types

/-!
# Trace contexts

The identifiers that follow a request through retries and deliveries: they are lowercase hex and
never all zero, and they travel in a `traceparent` header. SHA-256 is a parameter.
-/

namespace AnchorKit

open Fallible

def traceIdHexLen : ℕ := 32

def spanIdHexLen : ℕ := 16

inductive TraceError
  | malformedTraceparent
  | unsupportedVersion
  | invalidTraceId
  | invalidSpanId
  | invalidFlags
deriving DecidableEq, Repr

namespace TraceContext

def isLowerHex (b : UInt8) : Bool := (0x30 ≤ b && b ≤ 0x39) || (0x61 ≤ b && b ≤ 0x66)

def isValidId (id : Text) (len : ℕ) : Bool :=
  id.utf8.length = len && id.utf8.all isLowerHex && id.utf8.any (· ≠ 0x30)

/-- Lowercase hex of a fixed length, not all zero. -/
abbrev HexId (len : ℕ) := { id : Text // isValidId id len = true }

def checkedId (id : Text) (len : ℕ) (e : TraceError) : Except TraceError (HexId len) :=
  if h : isValidId id len = true then .ok ⟨id, h⟩ else .error e

def hexNibble (value : UInt8) : Char :=
  if value ≤ 9 then Char.ofNat (0x30 + value).toNat else Char.ofNat (0x61 + (value - 10)).toNat

def sha256Hex (sha256 : Bytes → BytesN 32) (bytes : Bytes) : Text :=
  (sha256 bytes).val.flatMap fun b : UInt8 => [hexNibble (b >>> 4), hexNibble (b &&& 0x0f)]

def nonZeroId (hex : Text) : Text :=
  if hex.utf8.any (· ≠ 0x30) then hex else '1' :: hex.drop 1

section Ids

variable {id hex : Text} {len : ℕ}

theorem isLowerHex_iff {b : UInt8} : isLowerHex b = true ↔
    (0x30 ≤ b.toNat ∧ b.toNat ≤ 0x39) ∨ (0x61 ≤ b.toNat ∧ b.toNat ≤ 0x66) := by
  simp only [isLowerHex, Bool.or_eq_true, Bool.and_eq_true, decide_eq_true_eq,
    UInt8.le_iff_toNat_le]
  rfl

def IsHexDigit (c : Char) : Prop :=
  (0x30 ≤ c.toNat ∧ c.toNat ≤ 0x39) ∨ (0x61 ≤ c.toNat ∧ c.toNat ≤ 0x66)

theorem all_isLowerHex_iff : id.utf8.all isLowerHex = true ↔ ∀ c ∈ id, IsHexDigit c := by
  rw [List.all_eq_true, Text.forall_utf8_iff]
  · refine forall₂_congr fun c _ => ?_
    simp only [Text.isAscii, decide_eq_true_eq, isLowerHex_iff, IsHexDigit]
    constructor
    · intro h
      obtain ⟨hascii, hhex⟩ := h
      rwa [UInt8.toNat_ofNat', Nat.mod_eq_of_lt (by omega)] at hhex
    · intro hhex
      rw [UInt8.toNat_ofNat', Nat.mod_eq_of_lt (by omega)]
      exact ⟨by omega, hhex⟩
  · intro b hb
    rw [isLowerHex_iff] at hb
    rw [UInt8.lt_iff_toNat_lt]
    change b.toNat < 0x80
    omega

theorem isAscii_of_isHexDigit {c : Char} (h : IsHexDigit c) : Text.isAscii c = true := by
  unfold IsHexDigit at h
  rw [Text.isAscii, decide_eq_true_eq]
  omega

theorem isHexDigit_hexNibble {value : UInt8} (h : value.toNat < 16) :
    IsHexDigit (hexNibble value) := by
  have hall : ∀ n < 16, IsHexDigit (hexNibble (UInt8.ofNat n)) := by
    unfold IsHexDigit
    decide
  have hvalue := hall value.toNat h
  rwa [UInt8.ofNat_toNat] at hvalue

theorem exists_ne_zero_iff (h : ∀ c ∈ id, Text.isAscii c = true) :
    (∃ b ∈ id.utf8, b ≠ 0x30) ↔ ∃ c ∈ id, c ≠ '0' := by
  rw [← not_iff_not]
  push Not
  rw [Text.forall_utf8_iff]
  · refine forall₂_congr fun c hc => ?_
    have hascii : c.toNat < 0x80 := of_decide_eq_true (h c hc)
    rw [and_iff_right (h c hc), ← UInt8.toNat_inj, UInt8.toNat_ofNat',
      Nat.mod_eq_of_lt (by omega)]
    change c.toNat = Char.toNat '0' ↔ c = '0'
    exact Char.toNat_inj
  · intro b hb
    rw [hb]
    decide

theorem isValidId_iff : isValidId id len = true ↔
    id.length = len ∧ (∀ c ∈ id, IsHexDigit c) ∧ ∃ c ∈ id, c ≠ '0' := by
  simp only [isValidId, Bool.and_eq_true, decide_eq_true_eq, all_isLowerHex_iff, and_assoc,
    List.any_eq_true, Text.length_utf8]
  rw [and_left_comm, and_left_comm (a := id.length = len)]
  refine and_congr_right fun hhex => ?_
  have hascii : ∀ c ∈ id, Text.isAscii c = true := fun c hc => isAscii_of_isHexDigit (hhex c hc)
  rw [Text.byteLen_of_isAscii hascii]
  refine and_congr_right fun _ => ?_
  rw [exists_ne_zero_iff hascii]

theorem nonZeroId_of_length (hlength : 0 < hex.length) (hhex : ∀ c ∈ hex, IsHexDigit c) :
    isValidId (nonZeroId hex) hex.length = true := by
  have hascii : ∀ c ∈ hex, Text.isAscii c = true := fun c hc => isAscii_of_isHexDigit (hhex c hc)
  rw [isValidId_iff]
  unfold nonZeroId
  split
  · rename_i hsome
    rw [List.any_eq_true] at hsome
    simp only [decide_eq_true_eq] at hsome
    exact ⟨rfl, hhex, (exists_ne_zero_iff hascii).mp hsome⟩
  · refine ⟨?_, ?_, '1', List.mem_cons_self, by decide⟩
    · rw [List.length_cons, List.length_drop]
      omega
    · intro c hc
      rcases List.mem_cons.mp hc with rfl | hc
      · unfold IsHexDigit
        decide
      · exact hhex c (List.mem_of_mem_drop hc)

theorem length_sha256Hex (sha256 : Bytes → BytesN 32) (bytes : Bytes) :
    (sha256Hex sha256 bytes).length = 64 := by
  simp [sha256Hex, List.length_flatMap, (sha256 bytes).property]

theorem isHexDigit_sha256Hex (sha256 : Bytes → BytesN 32) (bytes : Bytes) :
    ∀ c ∈ sha256Hex sha256 bytes, IsHexDigit c := by
  intro c hc
  obtain ⟨b, _, hc⟩ := List.mem_flatMap.mp hc
  simp only [List.mem_cons, List.not_mem_nil, or_false] at hc
  rcases hc with rfl | rfl
  · apply isHexDigit_hexNibble
    have hb := b.toNat_lt
    rw [UInt8.toNat_shiftRight, Nat.shiftRight_eq_div_pow]
    change b.toNat / 16 < 16
    omega
  · apply isHexDigit_hexNibble
    rw [UInt8.toNat_and]
    exact Nat.and_lt_two_pow b.toNat (n := 4) (by decide)

theorem isValidId_digest (sha256 : Bytes → BytesN 32) (bytes : Bytes) {start len : ℕ}
    (h : 0 < len ∧ start + len ≤ 64) :
    isValidId (nonZeroId (((sha256Hex sha256 bytes).drop start).take len)) len = true := by
  have hlength : (((sha256Hex sha256 bytes).drop start).take len).length = len := by
    rw [List.length_take, List.length_drop, length_sha256Hex]
    omega
  have hvalid := nonZeroId_of_length (hlength.symm ▸ h.1) fun c hc =>
    isHexDigit_sha256Hex sha256 bytes c (List.mem_of_mem_drop (List.mem_of_mem_take hc))
  rwa [hlength] at hvalid

end Ids

def digestId (sha256 : Bytes → BytesN 32) (bytes : Bytes) (start len : ℕ)
    (h : 0 < len ∧ start + len ≤ 64) : HexId len :=
  ⟨nonZeroId (((sha256Hex sha256 bytes).drop start).take len), isValidId_digest sha256 bytes h⟩

theorem traceId_fits : 0 < traceIdHexLen ∧ 0 + traceIdHexLen ≤ 64 := by decide

theorem rootSpanId_fits : 0 < spanIdHexLen ∧ traceIdHexLen + spanIdHexLen ≤ 64 := by decide

theorem spanId_fits : 0 < spanIdHexLen ∧ 0 + spanIdHexLen ≤ 64 := by decide

end TraceContext

/-- The fields are private in the source, so a context has valid identifiers. -/
structure TraceContext where
  traceId : TraceContext.HexId traceIdHexLen
  spanId : TraceContext.HexId spanIdHexLen
  parentSpanId : Option (TraceContext.HexId spanIdHexLen)
  sampled : Bool
deriving DecidableEq

namespace TraceContext

def new (traceId spanId : Text) (parentSpanId : Option Text) (sampled : Bool) :
    Except TraceError TraceContext := do
  let traceId ← checkedId traceId traceIdHexLen .invalidTraceId
  let spanId ← checkedId spanId spanIdHexLen .invalidSpanId
  match parentSpanId with
  | none => return { traceId, spanId, parentSpanId := none, sampled }
  | some parent =>
    let parent ← checkedId parent spanIdHexLen .invalidSpanId
    return { traceId, spanId, parentSpanId := some parent, sampled }

def rootFromSeed (sha256 : Bytes → BytesN 32) (seed : Text) : TraceContext :=
  { traceId := digestId sha256 seed.utf8 0 traceIdHexLen traceId_fits
    spanId := digestId sha256 seed.utf8 traceIdHexLen spanIdHexLen rootSpanId_fits
    parentSpanId := none
    sampled := true }

def withSampled (ctx : TraceContext) (sampled : Bool) : TraceContext := { ctx with sampled }

def child (sha256 : Bytes → BytesN 32) (ctx : TraceContext) (seed : Text) : TraceContext :=
  let material : Text := ctx.traceId.val ++ ':' :: ctx.spanId.val ++ ':' :: seed
  { traceId := ctx.traceId
    spanId := digestId sha256 material.utf8 0 spanIdHexLen spanId_fits
    parentSpanId := some ctx.spanId
    sampled := ctx.sampled }

def childForAttempt (sha256 : Bytes → BytesN 32) (ctx : TraceContext) (attempt : UInt32) :
    TraceContext :=
  ctx.child sha256 ("attempt-".toList ++ Nat.toDigits 10 attempt.toNat)

def toTraceparent (ctx : TraceContext) : Text :=
  "00-".toList ++ ctx.traceId.val ++ '-' :: ctx.spanId.val ++
    (if ctx.sampled then "-01" else "-00").toList

def hexValue (c : Char) : ℕ := if c.toNat ≤ 0x39 then c.toNat - 0x30 else c.toNat - 0x61 + 10

def parseTraceparent (header : Text) : Except TraceError TraceContext :=
  match (Text.trimMatches isWhitespace header).splitOn '-' with
  | [version, traceId, spanId, flags] => do
    require (version = "00".toList) .unsupportedVersion
    require (traceId ≠ []) .invalidTraceId
    let traceId ← checkedId traceId traceIdHexLen .invalidTraceId
    let spanId ← checkedId spanId spanIdHexLen .invalidSpanId
    require ((Text.utf8 flags).length = 2 ∧ (Text.utf8 flags).all isLowerHex = true) .invalidFlags
    let bits := flags.foldl (fun n c => n * 16 + hexValue c) 0
    return { traceId, spanId, parentSpanId := none, sampled := bits % 2 = 1 }
  | _ => .error .malformedTraceparent

def headerPairs (ctx : TraceContext) : List (Text × Text) :=
  [("traceparent".toList, ctx.toTraceparent), ("X-Trace-Id".toList, ctx.traceId.val),
    ("X-Span-Id".toList, ctx.spanId.val)]

section Traceparent

variable {ctx : TraceContext}

theorem isHexDigit_id {len : ℕ} (id : HexId len) : ∀ c ∈ id.val, IsHexDigit c :=
  (isValidId_iff.mp id.property).2.1

theorem not_dash_of_isHexDigit {c : Char} (h : IsHexDigit c) : c ≠ '-' := by
  rintro rfl
  revert h
  unfold IsHexDigit
  decide

theorem dash_not_mem_id {len : ℕ} (id : HexId len) : '-' ∉ id.val :=
  fun h => not_dash_of_isHexDigit (isHexDigit_id id '-' h) rfl

theorem checkedId_val {len : ℕ} (id : HexId len) (e : TraceError) :
    checkedId id.val len e = .ok id := by
  unfold checkedId
  rw [dif_pos id.property]

theorem toTraceparent_eq (ctx : TraceContext) : ctx.toTraceparent =
    "00".toList ++ '-' :: (ctx.traceId.val ++ '-' :: (ctx.spanId.val ++
      '-' :: (if ctx.sampled then "01" else "00").toList)) := by
  unfold toTraceparent
  cases ctx.sampled <;> simp

/-- Neither end of a rendered context is a space. -/
theorem trim_toTraceparent (ctx : TraceContext) :
    Text.trimMatches isWhitespace ctx.toTraceparent = ctx.toTraceparent := by
  have hends : ctx.toTraceparent = '0' :: (('0' :: '-' :: (ctx.traceId.val ++ '-' ::
      (ctx.spanId.val ++ ['-', '0']))) ++ [if ctx.sampled then '1' else '0']) := by
    rw [toTraceparent_eq]
    cases ctx.sampled <;> simp
  rw [hends]
  apply Text.trimMatches_cons_concat (by decide)
  cases ctx.sampled <;> decide

/-- What is rendered is parsed back, except that the parent does not travel. -/
theorem parseTraceparent_toTraceparent (ctx : TraceContext) :
    parseTraceparent ctx.toTraceparent = .ok { ctx with parentSpanId := none } := by
  have hflag : '-' ∉ (if ctx.sampled then "01" else "00").toList := by
    cases ctx.sampled <;> decide
  have hsplit : ctx.toTraceparent.splitOn '-' =
      ["00".toList, ctx.traceId.val, ctx.spanId.val,
        (if ctx.sampled then "01" else "00").toList] := by
    rw [toTraceparent_eq, List.splitOn_append_cons_self_of_not_mem (by decide),
      List.splitOn_append_cons_self_of_not_mem (dash_not_mem_id ctx.traceId),
      List.splitOn_append_cons_self_of_not_mem (dash_not_mem_id ctx.spanId),
      List.splitOn_eq_singleton hflag]
  have hid : ctx.traceId.val ≠ [] := by
    intro hnil
    have hlength := (isValidId_iff.mp ctx.traceId.property).1
    rw [hnil] at hlength
    cases hlength
  have hlower : (Text.utf8 (if ctx.sampled then "01" else "00").toList).length = 2 ∧
      (Text.utf8 (if ctx.sampled then "01" else "00").toList).all isLowerHex = true := by
    cases ctx.sampled <;> decide
  have hbits : decide ((if ctx.sampled then "01" else "00").toList.foldl
      (fun n c => n * 16 + hexValue c) 0 % 2 = 1) = ctx.sampled := by
    cases ctx.sampled <;> decide
  unfold parseTraceparent
  rw [trim_toTraceparent, hsplit]
  simp only [checkedId_val, require, hid, hlower, hbits, ne_eq, not_false_eq_true, and_self, if_true]
  rfl

end Traceparent

end TraceContext

end AnchorKit
