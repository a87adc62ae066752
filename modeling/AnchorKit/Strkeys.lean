import AnchorKit.Library.Radix
import AnchorKit.Library.ShiftRegister
import AnchorKit.Library.Text
import AnchorKit.Types

/-!
# Strkeys

The text of an account is the base32 encoding of a version byte, the key and a checksum over both.
The decoder keeps its bits in a word that loses the highest ones, and refuses bits that make up no
whole byte.
-/

namespace AnchorKit

namespace Strkey

def decodeBase32Value (ch : UInt8) : Option UInt8 :=
  if 0x41 ≤ ch ∧ ch ≤ 0x5A then some (ch - 0x41)
  else if 0x32 ≤ ch ∧ ch ≤ 0x37 then some (ch - 0x32 + 26)
  else none

/-- The loop of `decode_base32`, with the bytes that were written and the characters to come. -/
def base32Loop (value bits : UInt32) (buffer : Bytes) : Bytes → Option Bytes
  | [] => if bits ≠ 0 then none else some buffer
  | ch :: rest => do
    let val ← decodeBase32Value ch
    let value := (value <<< 5) ||| val.toUInt32
    let bits := bits + 5
    if 8 ≤ bits then
      let bits := bits - 8
      base32Loop value bits (buffer ++ [((value >>> bits) &&& 0xFF).toUInt8]) rest
    else base32Loop value bits buffer rest

def decodeBase32 (input : Bytes) : Option Bytes := base32Loop 0 0 [] input

def crcShift (crc : BitVec 16) : BitVec 16 :=
  if crc &&& 0x8000#16 ≠ 0#16 then (crc <<< 1) ^^^ 0x1021#16 else crc <<< 1

def crcByte (crc : BitVec 16) (byte : UInt8) : BitVec 16 :=
  crcShift^[8] (crc ^^^ (byte.toBitVec.setWidth 16 <<< 8))

def crc16Xmodem (input : Bytes) : BitVec 16 := input.foldl crcByte 0#16

/-- The check value of this checksum. -/
example : crc16Xmodem (Text.utf8 "123456789".toList) = 0x31C3#16 := by decide +kernel

def accountIdVersionByte : UInt8 := (6 : UInt8) <<< 3

/-- `u16::from_le_bytes`. -/
def fromLeBytes (low high : UInt8) : BitVec 16 :=
  low.toBitVec.setWidth 16 ||| (high.toBitVec.setWidth 16 <<< 8)

def isValidStellarStrkey (accountId : Text) : Bool :=
  match decodeBase32 (Text.utf8 accountId) with
  | none => false
  | some decoded =>
    if decoded.length ≠ 35 then false
    else if decoded.head? ≠ some accountIdVersionByte then false
    else
      match decoded.drop 33 with
      | [low, high] => crc16Xmodem (decoded.take 33) = fromLeBytes low high
      | _ => false

/-! ### The encoding -/

def base32Char (d : ℕ) : Char :=
  if d < 26 then Char.ofNat (0x41 + d) else Char.ofNat (0x32 + (d - 26))

/-- The base32 text of bytes whose bits make up whole digits. -/
def encodeBase32 (bytes : Bytes) : Text :=
  (Radix.digits 32 (bytes.length * 8 / 5) (Radix.value 256 (bytes.map UInt8.toNat))).map base32Char

def toLeBytes (v : BitVec 16) : Bytes :=
  [UInt8.ofBitVec (v.extractLsb' 0 8), UInt8.ofBitVec (v.extractLsb' 8 8)]

def payload (key : BytesN 32) : Bytes :=
  let body := accountIdVersionByte :: key.val
  body ++ toLeBytes (crc16Xmodem body)

def encode (key : BytesN 32) : Text := encodeBase32 (payload key)

/-! ### The decoder -/

def base32Byte (d : ℕ) : UInt8 :=
  if d < 26 then UInt8.ofNat (0x41 + d) else UInt8.ofNat (0x32 + (d - 26))

def base32Digit (ch : UInt8) : Option ℕ := (decodeBase32Value ch).map UInt8.toNat

section Decoder

variable {value bits : UInt32} {ds : List ℕ} {input bs : Bytes} {d : ℕ}

theorem base32Digit_byte : ∀ d < 32, base32Digit (base32Byte d) = some d := by
  decide

theorem byte_base32Digit {ch : UInt8} (h : base32Digit ch = some d) :
    base32Byte d = ch ∧ d < 32 := by
  have htable : ∀ n < 256, ∀ d ∈ base32Digit (UInt8.ofNat n),
      base32Byte d = UInt8.ofNat n ∧ d < 32 := by
    decide +kernel
  have hch := htable ch.toNat ch.toNat_lt d
  rw [UInt8.ofNat_toNat] at hch
  exact hch h

/-- Only the lowest bits of the word are still to be written, and the loop treats them as an
accumulator does. -/
theorem base32Loop_eq {buffer : Bytes} (hbits : bits.toNat < 8) :
    base32Loop value bits buffer input = (input.mapM base32Digit).bind fun ds =>
      if (bits.toNat + 5 * ds.length) % 8 = 0 then
        some (buffer ++ (Radix.regroup 5 8 (value.toNat % 2 ^ bits.toNat) bits.toNat ds).map
          UInt8.ofNat)
      else none := by
  induction input generalizing value bits buffer with
  | nil =>
    have hzero : bits = 0 ↔ bits.toNat = 0 := UInt32.toNat_inj.symm
    simp [base32Loop, Radix.regroup, hzero, Nat.mod_eq_of_lt hbits]
  | cons ch rest ih =>
    rw [base32Loop, List.mapM_cons]
    cases hdigit : decodeBase32Value ch with
    | none => simp [base32Digit, hdigit]
    | some d =>
      have hread : base32Digit ch = some d.toNat := by
        rw [base32Digit, hdigit]
        rfl
      have hd : d.toNat < 2 ^ 5 := (byte_base32Digit hread).2
      have hfive : (5 : UInt32).toNat = 5 := by decide
      have height : (8 : UInt32).toNat = 8 := by decide
      have hroom : bits.toNat + 5 ≤ 32 := by omega
      have hsum : (bits + 5).toNat = bits.toNat + 5 := by
        rw [UInt32.toNat_add, hfive, Nat.mod_eq_of_lt (by omega)]
      have hlonger (ds : List ℕ) : bits.toNat + 5 * (d.toNat :: ds).length =
          bits.toNat + 5 + 5 * ds.length := by
        rw [List.length_cons]
        omega
      rw [hread]
      dsimp only [Option.bind_eq_bind, Option.bind_some]
      by_cases hfull : (8 : UInt32) ≤ bits + 5
      · have hnat := UInt32.le_iff_toNat_le.mp hfull
        rw [height, hsum] at hnat
        have hdiff : (bits + 5 - 8).toNat = bits.toNat + 5 - 8 := by
          rw [UInt32.toNat_sub_of_le _ _ hfull, hsum, height]
        rw [if_pos hfull, ih (by omega), hdiff,
          Radix.byte_shiftIn value hfive hd hroom (by decide) hnat hdiff,
          Radix.rest_shiftIn value hfive hd hroom (by decide)]
        cases rest.mapM base32Digit with
        | none => rfl
        | some ds =>
          have hwhole : (bits.toNat + 5 - 8 + 5 * ds.length) % 8 =
              (bits.toNat + 5 + 5 * ds.length) % 8 := by omega
          change (if _ then some (buffer ++ [_] ++ _) else none) =
            if (bits.toNat + 5 * (d.toNat :: ds).length) % 8 = 0 then
              some (buffer ++ (Radix.regroup 5 8 _ _ (d.toNat :: ds)).map UInt8.ofNat) else none
          rw [hlonger, hwhole, Radix.regroup, if_pos hnat, List.map_cons, List.append_assoc,
            List.singleton_append]
      · have hnat := mt UInt32.le_iff_toNat_le.mpr hfull
        rw [height, hsum] at hnat
        rw [if_neg hfull, ih (by omega), hsum,
          Radix.pending_shiftIn value hfive hd hroom (by decide)]
        cases rest.mapM base32Digit with
        | none => rfl
        | some ds =>
          change (if _ then some _ else none) =
            if (bits.toNat + 5 * (d.toNat :: ds).length) % 8 = 0 then
              some (buffer ++ (Radix.regroup 5 8 _ _ (d.toNat :: ds)).map UInt8.ofNat) else none
          rw [hlonger, Radix.regroup, if_neg hnat]

theorem mapM_base32Digit : input.mapM base32Digit = some ds ↔
    (∀ d ∈ ds, d < 32) ∧ ds.map base32Byte = input :=
  Radix.mapM_eq_some_iff base32Digit_byte fun _ _ => byte_base32Digit

theorem map_toNat_map_ofNat (h : ∀ d ∈ ds, d < 256) :
    (ds.map UInt8.ofNat).map UInt8.toNat = ds := by
  have hsame : ∀ d ∈ ds, UInt8.toNat (UInt8.ofNat d) = d := by
    intro d hd
    rw [UInt8.toNat_ofNat', Nat.mod_eq_of_lt (h d hd)]
  rw [List.map_map]
  exact (List.map_congr_left hsame).trans (List.map_id ds)

theorem toNat_lt_of_mem {n : ℕ} (h : n ∈ bs.map UInt8.toNat) : n < 256 := by
  obtain ⟨byte, _, rfl⟩ := List.mem_map.mp h
  exact byte.toNat_lt

theorem value_lt_pow (bs : Bytes) : Radix.value 256 (bs.map UInt8.toNat) < 256 ^ bs.length := by
  have hlt : ∀ n ∈ bs.map UInt8.toNat, n < 256 := fun _ => toNat_lt_of_mem
  have hvalue := Radix.value_lt (by decide) hlt
  rwa [List.length_map] at hvalue

theorem map_toNat_injective {bs' : Bytes} (h : bs.map UInt8.toNat = bs'.map UInt8.toNat) :
    bs = bs' :=
  List.map_injective_iff.mpr (fun _ _ => UInt8.toNat_inj.mp) h

/-- What is decoded is the number that was written, in whole bytes. -/
theorem decodeBase32_eq_some : decodeBase32 input = some bs ↔
    ∃ ds, (∀ d ∈ ds, d < 32) ∧ ds.map base32Byte = input ∧ 5 * ds.length = 8 * bs.length ∧
      Radix.value 256 (bs.map UInt8.toNat) = Radix.value 32 ds := by
  have hdecode : decodeBase32 input = (input.mapM base32Digit).bind fun ds =>
      if 5 * ds.length % 8 = 0 then some ((Radix.regroup 5 8 0 0 ds).map UInt8.ofNat)
      else none := by
    rw [decodeBase32, base32Loop_eq (by decide)]
    simp
  have hgrouped (ds : List ℕ) (hds : ∀ d ∈ ds, d < 32) (hwhole : 5 * ds.length % 8 = 0) :
      ((Radix.regroup 5 8 0 0 ds).map UInt8.ofNat).map UInt8.toNat = Radix.regroup 5 8 0 0 ds ∧
        8 * (Radix.regroup 5 8 0 0 ds).length = 5 * ds.length ∧
        Radix.value 256 (Radix.regroup 5 8 0 0 ds) = Radix.value 32 ds := by
    have hlength : (Radix.regroup 5 8 0 0 ds).length = (0 + 5 * ds.length) / 8 :=
      Radix.length_regroup (by decide) (by decide)
    exact ⟨map_toNat_map_ofNat (Radix.regroup_lt Nat.one_pos hds), by omega,
      Radix.value_regroup_of_dvd (by decide) (by decide) hds hwhole⟩
  rw [hdecode, Option.bind_eq_some_iff]
  constructor
  · rintro ⟨ds, hread, hds⟩
    obtain ⟨hlt, hmap⟩ := mapM_base32Digit.mp hread
    split at hds
    · rename_i hwhole
      obtain rfl := Option.some.inj hds
      obtain ⟨hbytes, hlength, hvalue⟩ := hgrouped ds hlt hwhole
      refine ⟨ds, hlt, hmap, ?_, ?_⟩
      · rw [List.length_map, hlength]
      · rw [hbytes, hvalue]
    · cases hds
  · rintro ⟨ds, hlt, hmap, hlength, hvalue⟩
    have hwhole : 5 * ds.length % 8 = 0 := by omega
    obtain ⟨hbytes, hcount, hsame⟩ := hgrouped ds hlt hwhole
    refine ⟨ds, mapM_base32Digit.mpr ⟨hlt, hmap⟩, ?_⟩
    rw [if_pos hwhole]
    refine congrArg some (map_toNat_injective ?_)
    refine Radix.value_injective (b := 256) (by decide) ?_ (fun _ => toNat_lt_of_mem)
      (fun _ => toNat_lt_of_mem) ?_
    · rw [hbytes, List.length_map]
      omega
    · rw [hbytes, hsame, hvalue]

end Decoder

/-! ### Texts of keys -/

section Encoding

variable {key key' : BytesN 32} {bs : Bytes} {ds : List ℕ} {text : Text}

theorem base32Char_ascii : ∀ d < 32, Text.isAscii (base32Char d) = true ∧
    UInt8.ofNat (base32Char d).toNat = base32Byte d := by
  decide

theorem utf8_map_base32Char (h : ∀ d ∈ ds, d < 32) :
    Text.utf8 (ds.map base32Char) = ds.map base32Byte := by
  rw [Text.utf8_eq_map, List.map_map]
  · exact List.map_congr_left fun d hd => (base32Char_ascii d (h d hd)).2
  · intro c hc
    obtain ⟨d, hd, rfl⟩ := List.mem_map.mp hc
    exact (base32Char_ascii d (h d hd)).1

theorem map_base32Char_injective {es : List ℕ} (hds : ∀ d ∈ ds, d < 32) (hes : ∀ d ∈ es, d < 32)
    (h : ds.map base32Char = es.map base32Char) : ds = es := by
  have hbytes := congrArg Text.utf8 h
  rw [utf8_map_base32Char hds, utf8_map_base32Char hes] at hbytes
  exact Option.some.inj ((mapM_base32Digit.mpr ⟨hds, hbytes⟩).symm.trans
    (mapM_base32Digit.mpr ⟨hes, rfl⟩))

theorem value_lt_of_groups (h : bs.length % 5 = 0) :
    Radix.value 256 (bs.map UInt8.toNat) < 32 ^ (bs.length * 8 / 5) := by
  have hvalue := value_lt_pow bs
  have hbase : (256 : ℕ) ^ bs.length = 32 ^ (bs.length * 8 / 5) := by
    change (2 ^ 8) ^ bs.length = (2 ^ 5) ^ (bs.length * 8 / 5)
    rw [← Nat.pow_mul, ← Nat.pow_mul]
    congr 1
    omega
  rwa [hbase] at hvalue

/-- Bytes in groups of five are decoded from their encoding alone. -/
theorem decodeBase32_utf8 (h : bs.length % 5 = 0) :
    decodeBase32 (Text.utf8 text) = some bs ↔ text = encodeBase32 bs := by
  rw [decodeBase32_eq_some]
  constructor
  · rintro ⟨ds, hlt, hmap, hlength, hvalue⟩
    rw [← utf8_map_base32Char hlt] at hmap
    obtain rfl := Text.utf8_injective hmap
    refine congrArg (List.map base32Char) (Radix.value_injective (b := 32) (by decide) ?_ hlt
      (Radix.digits_lt (by decide)) ?_)
    · rw [Radix.length_digits]
      omega
    · rw [Radix.value_digits (by decide) (value_lt_of_groups h), hvalue]
  · rintro rfl
    have hdigits : ∀ d ∈ Radix.digits 32 (bs.length * 8 / 5)
        (Radix.value 256 (bs.map UInt8.toNat)), d < 32 := Radix.digits_lt (by decide)
    refine ⟨_, hdigits, (utf8_map_base32Char hdigits).symm, ?_,
      (Radix.value_digits (by decide) (value_lt_of_groups h)).symm⟩
    rw [Radix.length_digits]
    omega

theorem fromLeBytes_eq (low high : UInt8) :
    fromLeBytes low high = high.toBitVec ++ low.toBitVec := by
  have happend : (high.toBitVec ++ low.toBitVec).setWidth 16 =
      (high.toBitVec.setWidth 16 <<< 8) ||| low.toBitVec.setWidth 16 :=
    BitVec.setWidth_append_eq_shiftLeft_setWidth_or
  rw [fromLeBytes, BitVec.or_comm, ← happend]
  exact BitVec.setWidth_eq _

theorem toLeBytes_fromLeBytes (low high : UInt8) :
    toLeBytes (fromLeBytes low high) = [low, high] := by
  have hlow : (high.toBitVec ++ low.toBitVec).extractLsb' 0 8 = low.toBitVec :=
    BitVec.extractLsb'_append_eq_right
  have hhigh : (high.toBitVec ++ low.toBitVec).extractLsb' 8 8 = high.toBitVec :=
    BitVec.extractLsb'_append_eq_left
  rw [fromLeBytes_eq, toLeBytes, hlow, hhigh]

theorem fromLeBytes_toLeBytes (v : BitVec 16) :
    fromLeBytes (UInt8.ofBitVec (v.extractLsb' 0 8)) (UInt8.ofBitVec (v.extractLsb' 8 8)) = v := by
  have hsplit (x : BitVec (8 + 8)) : x.extractLsb' 8 8 ++ x.extractLsb' 0 8 = x :=
    BitVec.extractLsb'_append_extractLsb'
  rw [fromLeBytes_eq]
  exact hsplit v

theorem length_payload (key : BytesN 32) : (payload key).length = 35 := by
  simp [payload, toLeBytes, key.2]

/-- Bytes with the version in front and a checksum that fits are those of a key. -/
theorem exists_key {decoded : Bytes} {low high : UInt8} (hlength : decoded.length = 35)
    (hversion : decoded.head? = some accountIdVersionByte) (hrest : decoded.drop 33 = [low, high])
    (hchecksum : crc16Xmodem (decoded.take 33) = fromLeBytes low high) :
    ∃ key : BytesN 32, decoded = payload key := by
  obtain ⟨rest, rfl⟩ := List.head?_eq_some_iff.mp hversion
  have hcount : (rest.take 32).length = 32 := by
    rw [List.length_cons] at hlength
    rw [List.length_take]
    omega
  refine ⟨⟨rest.take 32, hcount⟩, ?_⟩
  rw [List.take_succ_cons] at hchecksum
  rw [payload, hchecksum, toLeBytes_fromLeBytes, ← hrest, ← List.take_succ_cons,
    List.take_append_drop]

theorem isValidStellarStrkey_iff :
    isValidStellarStrkey text = true ↔ ∃ key, text = encode key := by
  unfold isValidStellarStrkey
  constructor
  · intro h
    split at h
    · cases h
    · rename_i decoded hdecoded
      split_ifs at h with hlength hversion
      split at h
      · rename_i low high hrest
        obtain ⟨key, rfl⟩ := exists_key (not_not.mp hlength) (not_not.mp hversion) hrest
          (of_decide_eq_true h)
        refine ⟨key, (decodeBase32_utf8 ?_).mp hdecoded⟩
        rw [length_payload]
      · cases h
  · rintro ⟨key, rfl⟩
    have hdecoded : decodeBase32 (Text.utf8 (encode key)) = some (payload key) :=
      (decodeBase32_utf8 (by rw [length_payload])).mpr rfl
    have hbody : (accountIdVersionByte :: key.val).length = 33 := by
      rw [List.length_cons, key.2]
    have hdrop : (payload key).drop 33 =
        toLeBytes (crc16Xmodem (accountIdVersionByte :: key.val)) := List.drop_left' hbody
    have htake : (payload key).take 33 = accountIdVersionByte :: key.val := List.take_left' hbody
    have hversion : (payload key).head? = some accountIdVersionByte := rfl
    rw [hdecoded]
    simp only [length_payload, hversion, hdrop, htake, ne_eq, not_true_eq_false, if_false,
      toLeBytes, fromLeBytes_toLeBytes, decide_true]

theorem encode_injective (h : encode key = encode key') : key = key' := by
  have hgroups (key : BytesN 32) : (payload key).length % 5 = 0 := by rw [length_payload]
  have hpayload := (decodeBase32_utf8 (hgroups key)).mpr rfl
  have hpayload' := (decodeBase32_utf8 (hgroups key')).mpr rfl
  change decodeBase32 (Text.utf8 (encode key)) = _ at hpayload
  rw [h] at hpayload
  have hbody := (List.append_inj (Option.some.inj (hpayload.symm.trans hpayload'))
    (by rw [List.length_cons, List.length_cons, key.2, key'.2])).1
  exact Subtype.ext (List.cons.inj hbody).2

structure IsCodeword (ds : List ℕ) (bs : Bytes) : Prop where
  digit (d : ℕ) (hd : d ∈ ds) : d < 32
  length : ds.length = 56
  number : Radix.value 32 ds = Radix.value 256 (bs.map UInt8.toNat)
  payload : ∃ key, bs = Strkey.payload key

theorem exists_codeword (key : BytesN 32) :
    ∃ ds, IsCodeword ds (payload key) ∧ encode key = ds.map base32Char := by
  have hgroups : (payload key).length % 5 = 0 := by rw [length_payload]
  refine ⟨_, ⟨Radix.digits_lt (by decide), ?_,
    Radix.value_digits (by decide) (value_lt_of_groups hgroups), key, rfl⟩, rfl⟩
  rw [Radix.length_digits, length_payload]

/-- The version makes the first digit. -/
theorem IsCodeword.head (h : IsCodeword ds bs) : ds.head? = some 6 := by
  obtain ⟨key, hkey⟩ := h.payload
  obtain ⟨d, rest, rfl⟩ := List.exists_cons_of_length_eq_add_one h.length
  obtain ⟨hd, hrest⟩ := List.forall_mem_cons.mp h.digit
  have hcount : rest.length = 55 := Nat.succ.inj h.length
  have hlow := Radix.value_lt (by decide) hrest
  obtain ⟨tail, htail⟩ : ∃ tail, bs = accountIdVersionByte :: tail := ⟨_, hkey⟩
  have htailCount : tail.length = 34 := by
    have hlength := length_payload key
    rw [← hkey, htail] at hlength
    exact Nat.succ.inj hlength
  have htailLow := value_lt_pow tail
  have hnumber := h.number
  rw [htail, List.map_cons, Radix.value_cons, Radix.value_cons, List.length_map, htailCount,
    hcount] at hnumber
  rw [htailCount] at htailLow
  rw [hcount] at hlow
  change d * 32 ^ 55 + _ = 48 * 256 ^ 34 + _ at hnumber
  rw [List.head?_cons]
  congr 1
  omega

end Encoding

/-! ### The checksum -/

section Checksum

variable {crc : BitVec 16} {byte : UInt8} {input : Bytes}

/-- The feedback word of the checksum. -/
def crcPolynomial : BitVec (8 + 8) := 0x1021#16

theorem crcShift_eq : crcShift crc = ShiftRegister.step crcPolynomial crc := by
  have htop : crc &&& 0x8000#16 ≠ 0#16 ↔ crc.msb = true := by
    change crc &&& BitVec.twoPow 16 15 ≠ 0#16 ↔ _
    rw [BitVec.and_twoPow, BitVec.msb_eq_getLsbD_last]
    cases crc.getLsbD 15 with
    | false => simp
    | true => simp
  unfold crcShift ShiftRegister.step
  simp only [htop]
  rfl

theorem crcByte_eq : crcByte crc byte = ShiftRegister.absorb crcPolynomial crc byte.toBitVec := by
  have happend : byte.toBitVec.setWidth 16 <<< 8 = byte.toBitVec ++ 0#8 := by
    have hword : (byte.toBitVec ++ 0#8).setWidth 16 =
        (byte.toBitVec.setWidth 16 <<< 8) ||| (0#8).setWidth 16 :=
      BitVec.setWidth_append_eq_shiftLeft_setWidth_or
    rw [BitVec.setWidth_zero, BitVec.or_zero, BitVec.setWidth_eq] at hword
    exact hword.symm
  have hsteps (n : ℕ) (crc : BitVec 16) :
      crcShift^[n] crc = ShiftRegister.steps crcPolynomial n crc := by
    induction n generalizing crc with
    | zero => rfl
    | succ n ih => rw [Function.iterate_succ_apply, ih, crcShift_eq]; rfl
  rw [crcByte, happend, hsteps]
  rfl

theorem crc16Xmodem_eq : crc16Xmodem input =
    (input.map UInt8.toBitVec).foldl (ShiftRegister.absorb crcPolynomial) 0#16 := by
  rw [crc16Xmodem, List.foldl_map]
  congr 1
  funext crc byte
  exact crcByte_eq

end Checksum

/-! ### Encodings that differ in one digit -/

section Detection

variable {ds front back : List ℕ} {d d' : ℕ} {bs bs' : Bytes}

theorem crc_two_bytes {s t : Bytes} {x y x' y' : UInt8}
    (h : crc16Xmodem (s ++ x :: y :: t) = crc16Xmodem (s ++ x' :: y' :: t)) : x = x' ∧ y = y' := by
  have hpolynomial : crcPolynomial.getLsbD 0 = true := by decide
  rw [crc16Xmodem_eq, crc16Xmodem_eq] at h
  simp only [List.map_append, List.map_cons] at h
  obtain ⟨hx, hy⟩ := ShiftRegister.foldl_absorb_append_inj hpolynomial h
  exact ⟨UInt8.toBitVec_inj.mp hx, UInt8.toBitVec_inj.mp hy⟩

/-- A change in the lower half of the last byte is seen in the upper byte of the checksum. -/
theorem high_crc_ne {n : ℕ} (hn : n < 16)
    (h : (ShiftRegister.steps crcPolynomial 8 (BitVec.ofNat 8 n ++ 0#8)).extractLsb' 8 8 = 0#8) :
    n = 0 := by
  revert n
  decide +kernel

theorem crc_last_byte {s : Bytes} {x x' low low' high : UInt8}
    (hnibble : x.toNat / 16 = x'.toNat / 16) (h : crc16Xmodem (s ++ [x]) = fromLeBytes low high)
    (h' : crc16Xmodem (s ++ [x']) = fromLeBytes low' high) : x = x' := by
  rw [crc16Xmodem_eq, List.map_append, List.foldl_append, fromLeBytes_eq] at h h'
  simp only [List.map_cons, List.map_nil, List.foldl_cons, List.foldl_nil] at h h'
  generalize (s.map UInt8.toBitVec).foldl (ShiftRegister.absorb crcPolynomial) 0#16 = register
    at h h'
  have hdifference : ShiftRegister.absorb crcPolynomial register x.toBitVec ^^^
      ShiftRegister.absorb crcPolynomial register x'.toBitVec = _ := ShiftRegister.absorb_xor
  rw [h, h', BitVec.xor_append, BitVec.xor_self] at hdifference
  have hsmall : (x.toBitVec ^^^ x'.toBitVec).toNat < 16 := by
    have hdiv : (x.toNat ^^^ x'.toNat) / 2 ^ 4 = 0 := by
      rw [Nat.xor_div_two_pow]
      change x.toNat / 16 ^^^ x'.toNat / 16 = 0
      rw [hnibble, Nat.xor_self]
    rw [BitVec.toNat_xor]
    exact Nat.lt_of_div_eq_zero (by decide) hdiv
  have hzero := high_crc_ne hsmall (by
    rw [BitVec.ofNat_toNat, BitVec.setWidth_eq, ← hdifference]
    exact BitVec.extractLsb'_append_eq_left)
  have hsame := BitVec.eq_of_toNat_eq (hzero.trans (BitVec.toNat_zero (w := 8)).symm)
  exact UInt8.toBitVec_inj.mp (BitVec.xor_eq_zero_iff.mp hsame)

theorem IsCodeword.checksum (h : IsCodeword ds bs) :
    bs.length = 35 ∧ bs.drop 33 = toLeBytes (crc16Xmodem (bs.take 33)) := by
  obtain ⟨key, rfl⟩ := h.payload
  have hbody : (accountIdVersionByte :: key.val).length = 33 := by
    rw [List.length_cons, key.2]
  have htake : (Strkey.payload key).take 33 = accountIdVersionByte :: key.val :=
    List.take_left' hbody
  refine ⟨length_payload key, ?_⟩
  rw [htake]
  exact List.drop_left' hbody

/-- Two bytes with `q` bytes behind them. -/
theorem exists_window {q : ℕ} (hlength : bs.length = 35) (hq : q ≤ 33) :
    ∃ s x y t, bs = s ++ x :: y :: t ∧ s.length = 33 - q ∧ t.length = q := by
  have hrest : (bs.drop (33 - q)).length = q + 1 + 1 := by
    rw [List.length_drop]
    omega
  obtain ⟨x, rest, hx⟩ := List.exists_cons_of_length_eq_add_one hrest
  rw [hx] at hrest
  obtain ⟨y, t, rfl⟩ := List.exists_cons_of_length_eq_add_one (Nat.succ.inj hrest)
  refine ⟨bs.take (33 - q), x, y, t, ?_, ?_, ?_⟩
  · rw [← hx, List.take_append_drop]
  · rw [List.length_take]
    omega
  · exact Nat.succ.inj (Nat.succ.inj hrest)

theorem value_window {s t : Bytes} {x y : UInt8} :
    Radix.value 256 ((s ++ x :: y :: t).map UInt8.toNat) % 2 ^ (8 * t.length) =
        Radix.value 256 (t.map UInt8.toNat) ∧
      Radix.value 256 ((s ++ x :: y :: t).map UInt8.toNat) / 2 ^ (8 * t.length + 12) =
        Radix.value 256 (s.map UInt8.toNat) * 16 + x.toNat / 16 := by
  have hsplit : (s ++ x :: y :: t).map UInt8.toNat =
      s.map UInt8.toNat ++ [x.toNat, y.toNat] ++ t.map UInt8.toNat := by simp
  have hlow := value_lt_pow t
  have hbase : 256 ^ t.length = 2 ^ (8 * t.length) := (Nat.pow_mul 2 8 _).symm
  have hy := y.toNat_lt
  rw [hbase] at hlow
  rw [hsplit, Radix.value_append, List.length_map, hbase]
  refine ⟨?_, ?_⟩
  · rw [Nat.add_comm, Nat.mul_comm, Nat.add_mul_mod_self_left, Nat.mod_eq_of_lt hlow]
  · rw [Nat.pow_add, ← Nat.div_div_eq_div_mul, Nat.mul_comm, Nat.mul_add_div (Nat.two_pow_pos _),
      Nat.div_eq_of_lt hlow, Radix.value_append]
    simp only [Radix.value_cons, Radix.value_nil, List.length_cons, List.length_nil]
    omega

/-- The bytes into which a digit reaches, with what does not depend on it. -/
theorem IsCodeword.exists_window (h : IsCodeword (front ++ d :: back) bs)
    (hback : back.length ≤ 54) :
    ∃ s x y t, bs = s ++ x :: y :: t ∧ s.length = 33 - 5 * back.length / 8 ∧
      t.length = 5 * back.length / 8 ∧
      Radix.value 256 (t.map UInt8.toNat) =
        Radix.value 32 back % 2 ^ (8 * (5 * back.length / 8)) ∧
      Radix.value 256 (s.map UInt8.toNat) * 16 + x.toNat / 16 =
        Radix.value 32 front / 2 ^ (8 * (5 * back.length / 8) + 12 - 5 * (back.length + 1)) := by
  obtain ⟨s, x, y, t, rfl, hs, ht⟩ := Strkey.exists_window h.checksum.1
    (show 5 * back.length / 8 ≤ 33 by omega)
  obtain ⟨hlow, hhigh⟩ := value_window (s := s) (x := x) (y := y) (t := t)
  have hdigits : ∀ e ∈ d :: back, e < 2 ^ 5 :=
    fun e he => h.digit e (List.mem_append_right front he)
  have hmod : Radix.value 32 ((front ++ [d]) ++ back) % 2 ^ (8 * (5 * back.length / 8)) =
      Radix.value 32 back % 2 ^ (8 * (5 * back.length / 8)) :=
    Radix.value_append_mod (k := 5) (by omega)
  have hdiv : Radix.value 32 (front ++ d :: back) / 2 ^ (8 * (5 * back.length / 8) + 12) =
      Radix.value 32 front / 2 ^ (8 * (5 * back.length / 8) + 12 - 5 * (d :: back).length) :=
    Radix.value_append_div (k := 5) (by decide) hdigits (by rw [List.length_cons]; omega)
  rw [List.append_assoc, List.singleton_append] at hmod
  rw [← h.number, ht] at hlow hhigh
  exact ⟨s, x, y, t, rfl, hs, ht, hlow.symm.trans hmod, hhigh.symm.trans hdiv⟩

theorem bytes_eq {s t : Bytes} (hlength : s.length = t.length)
    (h : Radix.value 256 (s.map UInt8.toNat) = Radix.value 256 (t.map UInt8.toNat)) : s = t :=
  map_toNat_injective (Radix.value_injective (b := 256) (by decide) (by simpa using hlength)
    (fun _ => toNat_lt_of_mem) (fun _ => toNat_lt_of_mem) h)

theorem eq_fromLeBytes {v : BitVec 16} {low high : UInt8} (h : [low, high] = toLeBytes v) :
    v = fromLeBytes low high := by
  obtain ⟨rfl, hrest⟩ := List.cons.inj h
  obtain ⟨rfl, _⟩ := List.cons.inj hrest
  exact (fromLeBytes_toLeBytes v).symm

/-- Where the bytes may differ in two places, the checksum tells whether they do. -/
theorem eq_of_checksums {s t : Bytes} {x y x' y' : UInt8}
    (hlength : (s ++ x :: y :: t).length = 35)
    (h : (s ++ x :: y :: t).drop 33 = toLeBytes (crc16Xmodem ((s ++ x :: y :: t).take 33)))
    (h' : (s ++ x' :: y' :: t).drop 33 = toLeBytes (crc16Xmodem ((s ++ x' :: y' :: t).take 33)))
    (hnibble : x.toNat / 16 = x'.toNat / 16) : x = x' ∧ y = y' := by
  simp only [List.length_append, List.length_cons] at hlength
  match t with
  | [] =>
    -- Both bytes are the checksum.
    have hs : s.length = 33 := by simpa using hlength
    rw [List.drop_left' hs, List.take_left' hs] at h h'
    obtain ⟨hx, hrest⟩ := List.cons.inj (h.trans h'.symm)
    exact ⟨hx, (List.cons.inj hrest).1⟩
  | [z] =>
    -- The checksum starts between them.
    have hs (w : UInt8) : (s ++ [w]).length = 33 := by simpa using hlength
    have hsplit (w v : UInt8) : s ++ [w, v, z] = (s ++ [w]) ++ [v, z] := by simp
    rw [hsplit, List.drop_left' (hs _), List.take_left' (hs _)] at h h'
    obtain rfl := crc_last_byte hnibble (eq_fromLeBytes h) (eq_fromLeBytes h')
    exact ⟨rfl, (List.cons.inj (h.trans h'.symm)).1⟩
  | z :: z' :: t =>
    -- The checksum is behind both and does not differ.
    have hs : s.length ≤ 31 := by
      simp only [List.length_cons] at hlength
      omega
    obtain ⟨n, hn⟩ : ∃ n, 33 - s.length = n + 2 := ⟨31 - s.length, by omega⟩
    have htake (w v : UInt8) : (s ++ w :: v :: z :: z' :: t).take 33 =
        s ++ w :: v :: (z :: z' :: t).take n := by
      rw [List.take_append, List.take_of_length_le (by omega), hn]
      rfl
    have hdrop (w v : UInt8) : (s ++ w :: v :: z :: z' :: t).drop 33 = (z :: z' :: t).drop n := by
      rw [List.drop_append, List.drop_of_length_le (by omega), hn]
      rfl
    obtain ⟨low, high, hsum⟩ : ∃ low high, (z :: z' :: t).drop n = [low, high] :=
      ⟨_, _, (hdrop x y).symm.trans h⟩
    rw [htake, hdrop, hsum] at h h'
    exact crc_two_bytes ((eq_fromLeBytes h).trans (eq_fromLeBytes h').symm)

/-- Two encodings of keys do not differ in one digit alone. -/
theorem IsCodeword.eq_of_one (h : IsCodeword (front ++ d :: back) bs)
    (h' : IsCodeword (front ++ d' :: back) bs') : d = d' := by
  cases front with
  | nil =>
    have hhead := h.head
    rw [List.nil_append, List.head?_cons] at hhead
    have hhead' := h'.head
    rw [List.nil_append, List.head?_cons, ← hhead] at hhead'
    exact (Option.some.inj hhead').symm
  | cons first front =>
    have hback : back.length ≤ 54 := by
      have hlength := h.length
      simp only [List.length_append, List.length_cons] at hlength
      omega
    obtain ⟨s, x, y, t, rfl, hs, ht, hlow, hhigh⟩ := h.exists_window hback
    obtain ⟨s', x', y', t', rfl, hs', ht', hlow', hhigh'⟩ := h'.exists_window hback
    obtain rfl : t' = t := bytes_eq (ht'.trans ht.symm) (hlow'.trans hlow.symm)
    have hx := x.toNat_lt
    have hx' := x'.toNat_lt
    obtain rfl : s' = s := bytes_eq (hs'.trans hs.symm) (by omega)
    have hnibble : x.toNat / 16 = x'.toNat / 16 := by omega
    obtain ⟨rfl, rfl⟩ := eq_of_checksums h.checksum.1 h.checksum.2 h'.checksum.2 hnibble
    have hdigits := Radix.value_injective (by decide) (h.length.trans h'.length.symm) h.digit
      h'.digit (h.number.trans h'.number.symm)
    exact (List.cons.inj (List.append_cancel_left hdigits)).1

end Detection

end Strkey

end AnchorKit
