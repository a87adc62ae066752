import AnchorKit.Library.Base64
import AnchorKit.Library.Radix
import AnchorKit.Sep10Jwt

/-!
# The base64url decoder

The decoder reads up to the first padding character, and refuses a text only for a character
outside of the alphabet. It drops what does not make up a whole byte, whatever the bits are.
-/

namespace AnchorKit.Sep10Jwt

open Base64

def encodeBase64urlChar (d : ℕ) : UInt8 :=
  if d < 26 then UInt8.ofNat (0x41 + d)
  else if d < 52 then UInt8.ofNat (0x61 + (d - 26))
  else if d < 62 then UInt8.ofNat (0x30 + (d - 52))
  else if d = 62 then 0x2D
  else 0x5F

def base64urlEncode (bs : Bytes) : Bytes := (encode bs).map encodeBase64urlChar

/-- The encoding, filled up to a multiple of four characters. -/
def base64urlEncodePadded (bs : Bytes) : Bytes :=
  base64urlEncode bs ++ List.replicate ((4 - (base64urlEncode bs).length % 4) % 4) 0x3D

def unpadded (input : Bytes) : Bytes := input.takeWhile (· ≠ 0x3D)

def base64urlDigit (c : UInt8) : Option ℕ := (decodeBase64urlChar c).map UInt8.toNat

def base64urlAlphabet : Bytes := (List.range 64).map encodeBase64urlChar

/-- The text is of a length that bytes have, and ends in no bits but zeros. -/
def Canonical (text : Bytes) : Prop :=
  text.length % 4 ≠ 1 ∧ dangling (text.filterMap base64urlDigit) = 0

section Alphabet

theorem base64urlDigit_encode : ∀ d < 64, base64urlDigit (encodeBase64urlChar d) = some d := by
  decide

theorem encode_base64urlDigit {c : UInt8} {d : ℕ} (h : base64urlDigit c = some d) :
    encodeBase64urlChar d = c ∧ d < 64 := by
  have htable : ∀ n < 256, ∀ d ∈ base64urlDigit (UInt8.ofNat n),
      encodeBase64urlChar d = UInt8.ofNat n ∧ d < 64 := by
    decide +kernel
  have hc := htable c.toNat c.toNat_lt d
  rw [UInt8.ofNat_toNat] at hc
  exact hc h

/-- No character of the alphabet is a padding character. -/
theorem encodeBase64urlChar_ne : ∀ d < 64, encodeBase64urlChar d ≠ 0x3D := by
  decide

end Alphabet

section Loop

variable {buffer bits : UInt32}

theorem unpadded_cons_of_ne {c : UInt8} {rest : Bytes} (hc : c ≠ 0x3D) :
    unpadded (c :: rest) = c :: unpadded rest := by
  rw [unpadded, List.takeWhile_cons, if_pos (by simpa using hc)]
  rfl

/-- Only the lowest bits of the buffer are still to be written, and the loop treats them as an
accumulator does. -/
theorem base64urlLoop_eq {out input : Bytes} (hbits : bits.toNat < 8) :
    base64urlLoop buffer bits out input = ((unpadded input).mapM base64urlDigit).map fun ds =>
      out ++ accumulate (buffer.toNat % 2 ^ bits.toNat) bits.toNat ds := by
  induction input generalizing buffer bits out with
  | nil => simp [base64urlLoop, unpadded, accumulate]
  | cons c rest ih =>
    rw [base64urlLoop]
    by_cases hpad : c = 0x3D
    · rw [if_pos hpad, hpad]
      simp [unpadded, accumulate]
    · rw [if_neg hpad, unpadded_cons_of_ne hpad, List.mapM_cons]
      cases hdigit : decodeBase64urlChar c with
      | none => simp [base64urlDigit, hdigit]
      | some d =>
        have hread : base64urlDigit c = some d.toNat := by
          rw [base64urlDigit, hdigit]
          rfl
        have hd := (encode_base64urlDigit hread).2
        have hroom : bits.toNat + 6 ≤ 32 := by omega
        have hsix : (6 : UInt32).toNat = 6 := by decide
        have hsum : (bits + 6).toNat = bits.toNat + 6 := by
          rw [UInt32.toNat_add, hsix, Nat.mod_eq_of_lt (by omega)]
        have height : (8 : UInt32).toNat = 8 := by decide
        rw [hread]
        dsimp only [Option.bind_eq_bind, Option.bind_some]
        by_cases hfull : (8 : UInt32) ≤ bits + 6
        · have hnat := UInt32.le_iff_toNat_le.mp hfull
          rw [height, hsum] at hnat
          have hdiff : (bits + 6 - 8).toNat = bits.toNat + 6 - 8 := by
            rw [UInt32.toNat_sub_of_le _ _ hfull, hsum, height]
          rw [if_pos hfull, ih (by omega), hdiff,
            Radix.byte_shiftIn buffer hsix hd hroom (by decide) hnat hdiff,
            Radix.rest_shiftIn buffer hsix hd hroom (by decide)]
          cases (unpadded rest).mapM base64urlDigit with
          | none => rfl
          | some ds =>
            change some (out ++ [_] ++ _) = some (out ++ accumulate _ _ (d.toNat :: ds))
            rw [accumulate, if_pos hnat, List.append_assoc, List.singleton_append]
            rfl
        · have hnat := mt UInt32.le_iff_toNat_le.mpr hfull
          rw [height, hsum] at hnat
          rw [if_neg hfull, ih (by omega), hsum,
            Radix.pending_shiftIn buffer hsix hd hroom (by decide)]
          cases (unpadded rest).mapM base64urlDigit with
          | none => rfl
          | some ds =>
            change some _ = some (out ++ accumulate _ _ (d.toNat :: ds))
            rw [accumulate, if_neg hnat]
            rfl

end Loop

section Digits

variable {text input : Bytes} {ds : List ℕ} {bs : Bytes}

theorem mapM_digit_eq_some : text.mapM base64urlDigit = some ds ↔
    (∀ d ∈ ds, d < 64) ∧ ds.map encodeBase64urlChar = text :=
  Radix.mapM_eq_some_iff base64urlDigit_encode fun _ _ => encode_base64urlDigit

/-- The decoder reads digits up to the padding and keeps the whole bytes. -/
theorem base64urlDecode_eq (input : Bytes) :
    base64urlDecode input = ((unpadded input).mapM base64urlDigit).map decode := by
  rw [base64urlDecode, base64urlLoop_eq (by decide)]
  cases hdigits : (unpadded input).mapM base64urlDigit with
  | none => rfl
  | some ds =>
    rw [Option.map_some, Option.map_some,
      ← accumulate_eq_decode (mapM_digit_eq_some.mp hdigits).1]
    rfl

theorem base64urlDecode_eq_some : base64urlDecode input = some bs ↔
    ∃ ds, (∀ d ∈ ds, d < 64) ∧ ds.map encodeBase64urlChar = unpadded input ∧ decode ds = bs := by
  simp only [base64urlDecode_eq, Option.map_eq_some_iff, mapM_digit_eq_some, and_assoc]

theorem filterMap_digit (h : ∀ d ∈ ds, d < 64) :
    (ds.map encodeBase64urlChar).filterMap base64urlDigit = ds := by
  rw [List.filterMap_map]
  have hread (d : ℕ) (hd : d ∈ ds) : (base64urlDigit ∘ encodeBase64urlChar) d = some d :=
    base64urlDigit_encode d (h d hd)
  rw [List.filterMap_congr hread, List.filterMap_some]

theorem map_char_injective {es : List ℕ} (hds : ∀ d ∈ ds, d < 64) (hes : ∀ e ∈ es, e < 64)
    (h : ds.map encodeBase64urlChar = es.map encodeBase64urlChar) : ds = es := by
  rw [← filterMap_digit hds, h, filterMap_digit hes]

/-- The text before the padding is the encoding of the result exactly when it is canonical. -/
theorem unpadded_eq_encode_iff (h : base64urlDecode input = some bs) :
    unpadded input = base64urlEncode bs ↔ Canonical (unpadded input) := by
  obtain ⟨ds, hlt, htext, rfl⟩ := base64urlDecode_eq_some.mp h
  rw [Canonical, ← htext, filterMap_digit hlt, List.length_map, ← encode_decode_iff hlt,
    base64urlEncode]
  constructor
  · exact fun heq => (map_char_injective hlt encode_lt heq).symm
  · exact fun heq => by rw [heq]

theorem unpadded_encode_append (pads : ℕ) :
    unpadded (base64urlEncode bs ++ List.replicate pads 0x3D) = base64urlEncode bs := by
  rw [unpadded, List.takeWhile_append_of_pos]
  · cases pads with
    | zero => simp
    | succ n => simp [List.replicate_succ]
  · intro c hc
    obtain ⟨d, hd, rfl⟩ := List.mem_map.mp hc
    exact decide_eq_true (encodeBase64urlChar_ne d (encode_lt d hd))

/-- The encoding of a byte string, with any padding, is decoded to the byte string. -/
theorem base64urlDecode_encode_append (bs : Bytes) (pads : ℕ) :
    base64urlDecode (base64urlEncode bs ++ List.replicate pads 0x3D) = some bs := by
  rw [base64urlDecode_eq_some, unpadded_encode_append]
  exact ⟨encode bs, encode_lt, rfl, decode_encode bs⟩

theorem base64urlDecode_succeeds_iff :
    (∃ bs, base64urlDecode input = some bs) ↔ ∀ c ∈ unpadded input, c ∈ base64urlAlphabet := by
  constructor
  · rintro ⟨bs, h⟩ c hc
    obtain ⟨ds, hlt, htext, -⟩ := base64urlDecode_eq_some.mp h
    rw [← htext] at hc
    obtain ⟨d, hd, rfl⟩ := List.mem_map.mp hc
    exact List.mem_map_of_mem (List.mem_range.mpr (hlt d hd))
  · intro h
    have hdigits : ∃ ds : List ℕ, (∀ d ∈ ds, d < 64) ∧
        ds.map encodeBase64urlChar = unpadded input := by
      generalize unpadded input = text at h
      induction text with
      | nil => exact ⟨[], nofun, rfl⟩
      | cons c rest ih =>
        obtain ⟨hc, hrest⟩ := List.forall_mem_cons.mp h
        obtain ⟨d, hd, rfl⟩ := List.mem_map.mp hc
        obtain ⟨ds, hlt, rfl⟩ := ih hrest
        exact ⟨d :: ds, List.forall_mem_cons.mpr ⟨List.mem_range.mp hd, hlt⟩, rfl⟩
    obtain ⟨ds, hlt, htext⟩ := hdigits
    exact ⟨decode ds, base64urlDecode_eq_some.mpr ⟨ds, hlt, htext, rfl⟩⟩

theorem length_base64urlDecode (h : base64urlDecode input = some bs) :
    bs.length = (unpadded input).length * 6 / 8 := by
  obtain ⟨ds, -, htext, rfl⟩ := base64urlDecode_eq_some.mp h
  rw [length_decode, ← htext, List.length_map]

end Digits

/-- The decoder gets every byte string back from its encoding, with and without padding. It reads
what comes before the first padding character, accepts it exactly when all of it is in the alphabet,
and keeps the whole bytes. The text read is the encoding of the result exactly when it is canonical,
so two different canonical texts are never decoded to the same bytes. -/
theorem base64url_round_trip :
    (∀ bs, base64urlDecode (base64urlEncode bs) = some bs ∧
      base64urlDecode (base64urlEncodePadded bs) = some bs) ∧
    (∀ input, (∃ bs, base64urlDecode input = some bs) ↔
      ∀ c ∈ unpadded input, c ∈ base64urlAlphabet) ∧
    (∀ input bs, base64urlDecode input = some bs →
      bs.length = (unpadded input).length * 6 / 8 ∧
      (unpadded input = base64urlEncode bs ↔ Canonical (unpadded input))) ∧
    ∀ input other bs, base64urlDecode input = some bs → base64urlDecode other = some bs →
      Canonical (unpadded input) → Canonical (unpadded other) →
      unpadded input = unpadded other := by
  refine ⟨fun bs => ⟨?_, base64urlDecode_encode_append bs _⟩, fun _ => base64urlDecode_succeeds_iff,
    fun _ _ h => ⟨length_base64urlDecode h, unpadded_eq_encode_iff h⟩, ?_⟩
  · have hplain := base64urlDecode_encode_append bs 0
    rwa [List.replicate_zero, List.append_nil] at hplain
  · intro input other bs hinput hother hcanonical hcanonical'
    rw [(unpadded_eq_encode_iff hinput).mpr hcanonical,
      (unpadded_eq_encode_iff hother).mpr hcanonical']

/-- `AA` and `AB` differ in bits that no byte takes up. -/
theorem dangling_bits_dropped :
    ¬ ∀ input other bs, 0x3D ∉ input → 0x3D ∉ other → base64urlDecode input = some bs →
      base64urlDecode other = some bs → input = other := by
  intro h
  have hsame := h [0x41, 0x41] [0x41, 0x42] [0] (by decide) (by decide) (by decide) (by decide)
  revert hsame
  decide

end AnchorKit.Sep10Jwt
