import AnchorKit.TraceContext
import Mathlib.Data.Set.Function

/-!
# Accepted `traceparent` headers and the spans of attempts

A header is accepted exactly when it is four fields between dashes: the version, two valid
identifiers and two hex digits of flags. Rendering what was read keeps all of it but the flag bits
other than the lowest. The spans of two attempts are parts of digests of different inputs; a part
that is all zero is replaced, and only the replacement can make two of them meet.
-/

namespace AnchorKit

open Fallible

namespace TraceContext

/-- Lowercase hex of the given length that is not all zero. -/
structure ValidId (len : ℕ) (id : Text) : Prop where
  length : id.length = len
  hex : ∀ c ∈ id, IsHexDigit c
  nonzero : ∃ c ∈ id, c ≠ '0'

/-- Four fields between dashes, with two valid identifiers and two hex digits of flags. -/
structure IsTraceparent (header traceId spanId flags : Text) : Prop where
  fields : header = "00".toList ++ '-' :: (traceId ++ '-' :: (spanId ++ '-' :: flags))
  traceId : ValidId traceIdHexLen traceId
  spanId : ValidId spanIdHexLen spanId
  length : flags.length = 2
  flags : ∀ c ∈ flags, IsHexDigit c

def sampledBit (flags : Text) : Prop := flags.foldl (fun n c => n * 16 + hexValue c) 0 % 2 = 1

instance (flags : Text) : Decidable (sampledBit flags) :=
  inferInstanceAs (Decidable (_ = _))

def truncated (sha256 : Bytes → BytesN 32) (input : Bytes) : Bytes := (sha256 input).val.take 8

def attemptInput (ctx : TraceContext) (attempt : UInt32) : Bytes :=
  Text.utf8 (ctx.traceId.val ++ ':' :: ctx.spanId.val ++
    ':' :: ("attempt-".toList ++ Nat.toDigits 10 attempt.toNat))

/-- The truncated digest does not collide on the inputs. -/
def NoCollision (sha256 : Bytes → BytesN 32) (inputs : Set Bytes) : Prop :=
  Set.InjOn (truncated sha256) inputs

/-- An all-zero identifier, and the one that replaces it. -/
def ZeroAndSubstitute (a b : Bytes) : Prop :=
  a = List.replicate 8 0 ∧ b = 0x10 :: List.replicate 7 0

/-! ### Headers -/

section Headers

variable {id header : Text} {len : ℕ} {ctx : TraceContext}

theorem validId_iff : ValidId len id ↔ isValidId id len = true := by
  rw [isValidId_iff]
  constructor
  · intro h
    exact ⟨h.length, h.hex, h.nonzero⟩
  · intro h
    obtain ⟨hlength, hhex, hnonzero⟩ := h
    exact ⟨hlength, hhex, hnonzero⟩

theorem HexId.valid (id : HexId len) : ValidId len id.val := validId_iff.mpr id.property

theorem checkedId_eq_ok {e : TraceError} {checked : HexId len} :
    checkedId id len e = .ok checked ↔ id = checked.val := by
  unfold checkedId
  split
  · rw [Except.ok.injEq]
    constructor
    · intro h
      rw [← h]
    · intro h
      exact Subtype.ext h
  · rename_i hnot
    constructor
    · intro h
      cases h
    · intro h
      rw [h] at hnot
      exact absurd checked.property hnot

theorem checkedId_bind_eq_ok {β : Type} {e : TraceError} {f : HexId len → Except TraceError β}
    {b : β} : (checkedId id len e >>= f) = .ok b ↔
      ∃ checked : HexId len, id = checked.val ∧ f checked = .ok b := by
  simp only [bind_eq_ok, checkedId_eq_ok]

theorem ValidId.ne_nil (h : ValidId len id) : id ≠ [] := by
  obtain ⟨c, hc, _⟩ := h.nonzero
  exact List.ne_nil_of_mem hc

theorem ValidId.dash_not_mem (h : ValidId len id) : '-' ∉ id :=
  fun hdash => not_dash_of_isHexDigit (h.hex '-' hdash) rfl

/-- Two hex digits, by their bytes or by their characters. -/
theorem flags_iff {flags : Text} :
    ((Text.utf8 flags).length = 2 ∧ (Text.utf8 flags).all isLowerHex = true) ↔
      flags.length = 2 ∧ ∀ c ∈ flags, IsHexDigit c := by
  rw [all_isLowerHex_iff]
  refine and_congr_left fun hhex => ?_
  rw [Text.length_utf8, Text.byteLen_of_isAscii fun c hc => isAscii_of_isHexDigit (hhex c hc)]

theorem splitOn_fields {version traceId spanId flags : Text} (hversion : '-' ∉ version)
    (htrace : '-' ∉ traceId) (hspan : '-' ∉ spanId) (hflags : '-' ∉ flags) :
    (version ++ '-' :: (traceId ++ '-' :: (spanId ++ '-' :: flags))).splitOn '-' =
      [version, traceId, spanId, flags] := by
  rw [List.splitOn_append_cons_self_of_not_mem hversion,
    List.splitOn_append_cons_self_of_not_mem htrace,
    List.splitOn_append_cons_self_of_not_mem hspan, List.splitOn_eq_singleton hflags]

theorem parseTraceparent_eq_ok : parseTraceparent header = .ok ctx ↔
    ∃ flags, IsTraceparent (Text.trimMatches isWhitespace header) ctx.traceId.val ctx.spanId.val
        flags ∧
      ctx.parentSpanId = none ∧ ctx.sampled = decide (sampledBit flags) := by
  constructor
  · intro h
    unfold parseTraceparent at h
    split at h
    · rename_i version traceId spanId flags hsplit
      have hjoin : List.intercalate ['-'] ((Text.trimMatches isWhitespace header).splitOn '-') =
          Text.trimMatches isWhitespace header :=
        List.intercalate_splitOn '-'
      simp only [require_bind_eq_ok, checkedId_bind_eq_ok, pure_eq_ok] at h
      obtain ⟨rfl, _, trace, rfl, span, rfl, hflags, rfl⟩ := h
      have hfields : Text.trimMatches isWhitespace header = "00".toList ++ '-' :: (trace.val ++
          '-' :: (span.val ++ '-' :: flags)) := by
        rw [← hjoin, hsplit]
        simp [List.intercalate]
      obtain ⟨hlength, hhex⟩ := flags_iff.mp hflags
      exact ⟨flags, ⟨hfields, trace.valid, span.valid, hlength, hhex⟩, rfl, rfl⟩
    · cases h
  · intro h
    obtain ⟨flags, htraceparent, hparent, hsampled⟩ := h
    have hdash : '-' ∉ flags := fun hc => not_dash_of_isHexDigit (htraceparent.flags '-' hc) rfl
    unfold parseTraceparent
    rw [htraceparent.fields, splitOn_fields (by decide) htraceparent.traceId.dash_not_mem
      htraceparent.spanId.dash_not_mem hdash]
    simp only [require_bind_eq_ok, checkedId_bind_eq_ok, pure_eq_ok]
    refine ⟨trivial, htraceparent.traceId.ne_nil, _, rfl, _, rfl,
      flags_iff.mpr ⟨htraceparent.length, htraceparent.flags⟩, ?_⟩
    cases ctx
    cases hparent
    cases hsampled
    rfl

theorem succeeds_parseTraceparent : Succeeds (parseTraceparent header) ↔
    ∃ traceId spanId flags,
      IsTraceparent (Text.trimMatches isWhitespace header) traceId spanId flags := by
  constructor
  · intro h
    obtain ⟨ctx, hctx⟩ := h
    obtain ⟨flags, htraceparent, _⟩ := parseTraceparent_eq_ok.mp hctx
    exact ⟨_, _, flags, htraceparent⟩
  · intro h
    obtain ⟨traceId, spanId, flags, htraceparent⟩ := h
    exact ⟨⟨⟨traceId, validId_iff.mp htraceparent.traceId⟩,
      ⟨spanId, validId_iff.mp htraceparent.spanId⟩, none, decide (sampledBit flags)⟩,
      parseTraceparent_eq_ok.mpr ⟨flags, htraceparent, rfl, rfl⟩⟩

/-- What is rendered again differs in the flags at most, and keeps their lowest bit. -/
theorem toTraceparent_of_parse (h : parseTraceparent header = .ok ctx) :
    ∃ front flags, Text.trimMatches isWhitespace header = front ++ flags ∧ flags.length = 2 ∧
      ctx.toTraceparent = front ++ (if sampledBit flags then "01" else "00").toList := by
  obtain ⟨flags, htraceparent, _, hsampled⟩ := parseTraceparent_eq_ok.mp h
  refine ⟨"00".toList ++ '-' :: (ctx.traceId.val ++ '-' :: (ctx.spanId.val ++ ['-'])), flags, ?_,
    htraceparent.length, ?_⟩
  · rw [htraceparent.fields]
    simp
  · rw [toTraceparent_eq, hsampled]
    by_cases hbit : sampledBit flags
    · simp [hbit]
    · simp [hbit]

end Headers

/-! ### Spans of attempts -/

def hexText (bytes : Bytes) : Text :=
  bytes.flatMap fun b : UInt8 => [hexNibble (b >>> 4), hexNibble (b &&& 0x0f)]

def repaired (a : Bytes) : Bytes :=
  if a = List.replicate 8 0 then 0x10 :: List.replicate 7 0 else a

section Spans

variable {sha256 : Bytes → BytesN 32} {ctx : TraceContext} {a b : Bytes} {i j : UInt32}

theorem hexNibble_inj {m n : ℕ} (hm : m < 16) (hn : n < 16)
    (h : hexNibble (UInt8.ofNat m) = hexNibble (UInt8.ofNat n)) : m = n := by
  have hall : ∀ m < 16, ∀ n < 16, hexNibble (UInt8.ofNat m) = hexNibble (UInt8.ofNat n) →
      m = n := by
    decide
  exact hall m hm n hn h

theorem toNat_highNibble (b : UInt8) : (b >>> 4).toNat = b.toNat / 16 := by
  rw [UInt8.toNat_shiftRight, Nat.shiftRight_eq_div_pow]
  rfl

theorem toNat_lowNibble (b : UInt8) : (b &&& 0x0f).toNat = b.toNat % 16 := by
  rw [UInt8.toNat_and]
  exact Nat.and_two_pow_sub_one_eq_mod b.toNat 4

theorem hexNibble_eq_iff {x y : UInt8} (hx : x.toNat < 16) (hy : y.toNat < 16) :
    hexNibble x = hexNibble y ↔ x = y := by
  constructor
  · intro h
    rw [← UInt8.ofNat_toNat (x := x), ← UInt8.ofNat_toNat (x := y)] at h
    exact UInt8.toNat_inj.mp (hexNibble_inj hx hy h)
  · intro h
    rw [h]

theorem hexText_injective (h : hexText a = hexText b) : a = b := by
  induction a generalizing b with
  | nil =>
    cases b with
    | nil => rfl
    | cons y b => cases h
  | cons x a ih =>
    cases b with
    | nil => cases h
    | cons y b =>
      have hx := x.toNat_lt
      have hy := y.toNat_lt
      simp only [hexText, List.flatMap_cons, List.cons_append, List.nil_append,
        List.cons.injEq] at h
      obtain ⟨hhigh, hlow, hrest⟩ := h
      rw [hexNibble_eq_iff (by rw [toNat_highNibble]; omega) (by rw [toNat_highNibble]; omega),
        ← UInt8.toNat_inj, toNat_highNibble, toNat_highNibble] at hhigh
      rw [hexNibble_eq_iff (by rw [toNat_lowNibble]; omega) (by rw [toNat_lowNibble]; omega),
        ← UInt8.toNat_inj, toNat_lowNibble, toNat_lowNibble] at hlow
      have hbyte : x = y := UInt8.toNat_inj.mp (by omega)
      rw [hbyte, ih hrest]

theorem length_hexText (a : Bytes) : (hexText a).length = 2 * a.length := by
  induction a with
  | nil => rfl
  | cons x a ih =>
    rw [hexText, List.flatMap_cons, List.length_append, ← hexText, ih]
    simp only [List.length_cons, List.length_nil]
    omega

theorem take_sha256Hex (input : Bytes) :
    ((sha256Hex sha256 input).drop 0).take spanIdHexLen = hexText (truncated sha256 input) := by
  have hsplit : sha256Hex sha256 input =
      hexText ((sha256 input).val.take 8) ++ hexText ((sha256 input).val.drop 8) := by
    rw [hexText, hexText, ← List.flatMap_append, List.take_append_drop]
    rfl
  have hlength : (hexText ((sha256 input).val.take 8)).length = spanIdHexLen := by
    rw [length_hexText, List.length_take, (sha256 input).property]
    rfl
  rw [List.drop_zero, hsplit, List.take_left' hlength]
  rfl

theorem isHexDigit_hexText : ∀ c ∈ hexText a, IsHexDigit c := by
  intro c hc
  obtain ⟨x, _, hc⟩ := List.mem_flatMap.mp hc
  have hx := x.toNat_lt
  simp only [List.mem_cons, List.not_mem_nil, or_false] at hc
  rcases hc with rfl | rfl
  · exact isHexDigit_hexNibble (by rw [toNat_highNibble]; omega)
  · exact isHexDigit_hexNibble (by rw [toNat_lowNibble]; omega)

theorem nonZeroId_hexText (hlength : a.length = 8) :
    nonZeroId (hexText a) = hexText (repaired a) := by
  by_cases hzero : a = List.replicate 8 0
  · rw [hzero]
    decide
  · have hsome : (hexText a).utf8.any (· ≠ 0x30) = true := by
      rw [List.any_eq_true]
      simp only [decide_eq_true_eq]
      rw [exists_ne_zero_iff fun c hc => isAscii_of_isHexDigit (isHexDigit_hexText c hc)]
      by_contra hnone
      push Not at hnone
      have hsame : hexText a = hexText (List.replicate 8 0) := by
        rw [List.eq_replicate_of_mem hnone, length_hexText, hlength]
        decide
      exact hzero (hexText_injective hsame)
    rw [nonZeroId, if_pos hsome, repaired, if_neg hzero]

theorem repaired_eq_iff : repaired a = repaired b ↔
    a = b ∨ ZeroAndSubstitute a b ∨ ZeroAndSubstitute b a := by
  unfold repaired ZeroAndSubstitute
  by_cases ha : a = List.replicate 8 0
  · by_cases hb : b = List.replicate 8 0
    · simp [ha, hb]
    · rw [if_pos ha, if_neg hb]
      constructor
      · intro h
        exact Or.inr (Or.inl ⟨ha, h.symm⟩)
      · intro h
        rcases h with h | h | h
        · exact absurd (h.symm.trans ha) hb
        · exact h.2.symm
        · exact absurd h.1 hb
  · by_cases hb : b = List.replicate 8 0
    · rw [if_neg ha, if_pos hb]
      constructor
      · intro h
        exact Or.inr (Or.inr ⟨hb, h⟩)
      · intro h
        rcases h with h | h | h
        · exact absurd (h.trans hb) ha
        · exact absurd h.1 ha
        · exact h.2
    · rw [if_neg ha, if_neg hb]
      constructor
      · intro h
        exact Or.inl h
      · intro h
        rcases h with h | h | h
        · exact h
        · exact absurd h.1 ha
        · exact absurd h.1 hb

theorem spanId_childForAttempt (ctx : TraceContext) (attempt : UInt32) :
    (ctx.childForAttempt sha256 attempt).spanId.val =
      hexText (repaired (truncated sha256 (ctx.attemptInput attempt))) := by
  have hlength : (truncated sha256 (ctx.attemptInput attempt)).length = 8 := by
    rw [truncated, List.length_take, (sha256 _).property]
    rfl
  rw [← nonZeroId_hexText hlength, ← take_sha256Hex]
  rfl

/-- The number of an attempt can be read off its input. -/
theorem attemptInput_injective (h : ctx.attemptInput i = ctx.attemptInput j) : i = j := by
  have htext := Text.utf8_injective h
  rw [List.append_cancel_left_eq, List.cons.injEq, List.append_cancel_left_eq] at htext
  have hvalue := congrArg Text.decimalValue htext.2
  rw [Text.decimalValue_toDigits, Text.decimalValue_toDigits] at hvalue
  exact UInt32.toNat_inj.mp hvalue

/-- Without a collision, only the repair of an all-zero identifier makes two attempts meet. -/
theorem spanId_eq_iff (hcollision : NoCollision sha256 {ctx.attemptInput i, ctx.attemptInput j})
    (hij : i ≠ j) :
    (ctx.childForAttempt sha256 i).spanId = (ctx.childForAttempt sha256 j).spanId ↔
      ZeroAndSubstitute (truncated sha256 (ctx.attemptInput i))
          (truncated sha256 (ctx.attemptInput j)) ∨
        ZeroAndSubstitute (truncated sha256 (ctx.attemptInput j))
          (truncated sha256 (ctx.attemptInput i)) := by
  have hdiffer : truncated sha256 (ctx.attemptInput i) ≠ truncated sha256 (ctx.attemptInput j) :=
    fun h => hij (attemptInput_injective (hcollision (by simp) (by simp) h))
  rw [← Subtype.val_inj, spanId_childForAttempt, spanId_childForAttempt]
  constructor
  · intro h
    exact (repaired_eq_iff.mp (hexText_injective h)).resolve_left hdiffer
  · intro h
    rw [repaired_eq_iff.mpr (Or.inr h)]

end Spans

/-- Contexts are valid and survive their header, headers are accepted by their grammar, and the
spans of two attempts differ unless one was repaired onto the other. -/
theorem traceparents_exact (sha256 : Bytes → BytesN 32) (ctx : TraceContext) (header : Text)
    (i j : UInt32) :
    (ValidId 32 ctx.traceId.val ∧ ValidId 16 ctx.spanId.val ∧
      ∀ parent ∈ ctx.parentSpanId, ValidId 16 parent.val) ∧
    parseTraceparent ctx.toTraceparent = .ok { ctx with parentSpanId := none } ∧
    (Succeeds (parseTraceparent header) ↔ ∃ traceId spanId flags,
      IsTraceparent (Text.trimMatches isWhitespace header) traceId spanId flags) ∧
    (∀ read, parseTraceparent header = .ok read → ∃ front flags,
      Text.trimMatches isWhitespace header = front ++ flags ∧ flags.length = 2 ∧
        read.toTraceparent = front ++ (if sampledBit flags then "01" else "00").toList) ∧
    (NoCollision sha256 {ctx.attemptInput i, ctx.attemptInput j} → i ≠ j →
      ((ctx.childForAttempt sha256 i).spanId = (ctx.childForAttempt sha256 j).spanId ↔
        ZeroAndSubstitute (truncated sha256 (ctx.attemptInput i))
            (truncated sha256 (ctx.attemptInput j)) ∨
          ZeroAndSubstitute (truncated sha256 (ctx.attemptInput j))
            (truncated sha256 (ctx.attemptInput i)))) := by
  refine ⟨⟨ctx.traceId.valid, ctx.spanId.valid, fun parent _ => parent.valid⟩,
    parseTraceparent_toTraceparent ctx, succeeds_parseTraceparent, ?_, ?_⟩
  · intro read hread
    exact toTraceparent_of_parse hread
  · intro hcollision hij
    exact spanId_eq_iff hcollision hij

def exampleRoot : TraceContext :=
  ⟨⟨"4bf92f3577b34da6a3ce929d0e0e4736".toList, by decide⟩, ⟨"00f067aa0ba902b7".toList, by decide⟩,
    none, true⟩

/-- A hash that is all zero where the input ends in the digit zero. -/
def zeroOrSubstitute (input : Bytes) : BytesN 32 :=
  if input.getLast? = some 0x30 then .fill 32 0 else ⟨0x10 :: List.replicate 31 0, rfl⟩

/-- The digest of the first attempt is replaced by that of the second. -/
theorem repaired_span_meets :
    NoCollision zeroOrSubstitute {exampleRoot.attemptInput 0, exampleRoot.attemptInput 1} ∧
    (exampleRoot.childForAttempt zeroOrSubstitute 0).spanId =
      (exampleRoot.childForAttempt zeroOrSubstitute 1).spanId := by
  have hdiffer : truncated zeroOrSubstitute (exampleRoot.attemptInput 0) ≠
      truncated zeroOrSubstitute (exampleRoot.attemptInput 1) := by
    decide
  refine ⟨?_, by decide⟩
  intro a ha b hb heq
  rcases ha with rfl | rfl
  · rcases hb with rfl | rfl
    · rfl
    · exact absurd heq hdiffer
  · rcases hb with rfl | rfl
    · exact absurd heq.symm hdiffer
    · rfl

end TraceContext

end AnchorKit
