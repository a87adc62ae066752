import Mathlib.Data.UInt

/-!
# Bytes as digits of six bits

Three bytes are four digits. What is left over at the end takes two or three digits, the last of
which is filled up with zero bits. A decoder gets the bytes back and drops what is not a whole byte,
so digits are an encoding exactly when what it drops is zero and shorter than a digit. A decoder
that keeps the bits still to be written in an accumulator computes the same bytes.
-/

namespace Base64

def encode : List UInt8 → List ℕ
  | [] => []
  | [a] => [a.toNat / 4, a.toNat % 4 * 16]
  | [a, b] => [a.toNat / 4, a.toNat % 4 * 16 + b.toNat / 16, b.toNat % 16 * 4]
  | a :: b :: c :: rest =>
    a.toNat / 4 :: (a.toNat % 4 * 16 + b.toNat / 16) :: (b.toNat % 16 * 4 + c.toNat / 64) ::
      c.toNat % 64 :: encode rest

def decode : List ℕ → List UInt8
  | [] => []
  | [_] => []
  | [a, b] => [UInt8.ofNat (a * 4 + b / 16)]
  | [a, b, c] => [UInt8.ofNat (a * 4 + b / 16), UInt8.ofNat (b % 16 * 16 + c / 4)]
  | a :: b :: c :: d :: rest =>
    UInt8.ofNat (a * 4 + b / 16) :: UInt8.ofNat (b % 16 * 16 + c / 4) ::
      UInt8.ofNat (c % 4 * 64 + d) :: decode rest

def dangling : List ℕ → ℕ
  | [] => 0
  | [a] => a
  | [_, b] => b % 16
  | [_, _, c] => c % 4
  | _ :: _ :: _ :: _ :: rest => dangling rest

/-- A decoder with an accumulator: `pending` is the value of `bits` bits still to be written. -/
def accumulate (pending bits : ℕ) : List ℕ → List UInt8
  | [] => []
  | d :: ds =>
    if 8 ≤ bits + 6 then
      UInt8.ofNat ((pending * 64 + d) / 2 ^ (bits - 2)) ::
        accumulate ((pending * 64 + d) % 2 ^ (bits - 2)) (bits - 2) ds
    else accumulate (pending * 64 + d) (bits + 6) ds

variable {bs : List UInt8} {ds : List ℕ}

theorem encode_lt : ∀ d ∈ encode bs, d < 64 := by
  induction bs using encode.induct with
  | case1 => simp [encode]
  | case2 a =>
    have ha := a.toNat_lt
    simp only [encode, List.forall_mem_cons, List.not_mem_nil, false_implies, implies_true,
      and_true]
    omega
  | case3 a b =>
    have ha := a.toNat_lt
    have hb := b.toNat_lt
    simp only [encode, List.forall_mem_cons, List.not_mem_nil, false_implies, implies_true,
      and_true]
    omega
  | case4 a b c rest ih =>
    have ha := a.toNat_lt
    have hb := b.toNat_lt
    have hc := c.toNat_lt
    simp only [encode, List.forall_mem_cons]
    exact ⟨by omega, by omega, by omega, by omega, ih⟩

theorem ofNat_eq {n : ℕ} {a : UInt8} (h : n = a.toNat) : UInt8.ofNat n = a := by
  rw [h, UInt8.ofNat_toNat]

theorem toNat_ofNat {n : ℕ} (h : n < 256) : (UInt8.ofNat n).toNat = n := by
  rw [UInt8.toNat_ofNat', Nat.mod_eq_of_lt h]

theorem decode_encode (bs : List UInt8) : decode (encode bs) = bs := by
  induction bs using encode.induct with
  | case1 => rfl
  | case2 a =>
    have ha := a.toNat_lt
    rw [encode, decode, ofNat_eq (a := a) (by omega)]
  | case3 a b =>
    have ha := a.toNat_lt
    have hb := b.toNat_lt
    rw [encode, decode, ofNat_eq (a := a) (by omega), ofNat_eq (a := b) (by omega)]
  | case4 a b c rest ih =>
    have ha := a.toNat_lt
    have hb := b.toNat_lt
    have hc := c.toNat_lt
    rw [encode, decode, ofNat_eq (a := a) (by omega), ofNat_eq (a := b) (by omega),
      ofNat_eq (a := c) (by omega), ih]

theorem length_decode : (decode ds).length = ds.length * 6 / 8 := by
  induction ds using decode.induct with
  | case1 => rfl
  | case2 a => simp [decode]
  | case3 a b => simp [decode]
  | case4 a b c => simp [decode]
  | case5 a b c d rest ih =>
    simp only [decode, List.length_cons, ih]
    omega

/-- Digits are the encoding of the bytes they make up exactly when nothing is dropped but zeros
that fill up a digit. -/
theorem encode_decode_iff (h : ∀ d ∈ ds, d < 64) :
    encode (decode ds) = ds ↔ ds.length % 4 ≠ 1 ∧ dangling ds = 0 := by
  induction ds using decode.induct with
  | case1 => simp [encode, decode, dangling]
  | case2 a => simp [encode, decode]
  | case3 a b =>
    simp only [List.forall_mem_cons, List.not_mem_nil, false_implies, implies_true, and_true] at h
    simp only [decode, encode, dangling, List.length_cons, List.length_nil, List.cons.injEq,
      and_true]
    rw [toNat_ofNat (by omega)]
    omega
  | case4 a b c =>
    simp only [List.forall_mem_cons, List.not_mem_nil, false_implies, implies_true, and_true] at h
    simp only [decode, encode, dangling, List.length_cons, List.length_nil, List.cons.injEq,
      and_true]
    rw [toNat_ofNat (by omega), toNat_ofNat (by omega)]
    omega
  | case5 a b c d rest ih =>
    simp only [List.forall_mem_cons] at h
    obtain ⟨ha, hb, hc, hd, hrest⟩ := h
    have hlength : (a :: b :: c :: d :: rest).length % 4 = rest.length % 4 := by
      simp only [List.length_cons]
      omega
    rw [hlength, dangling, ← ih hrest, decode, encode, toNat_ofNat (by omega),
      toNat_ofNat (by omega), toNat_ofNat (by omega)]
    simp only [List.cons.injEq]
    exact ⟨fun h => h.2.2.2.2, fun h => ⟨by omega, by omega, by omega, by omega, h⟩⟩

section Accumulator

variable {p d : ℕ}

theorem accumulate_first : accumulate 0 0 (d :: ds) = accumulate d 6 ds := by
  rw [accumulate, if_neg (by decide), Nat.zero_mul, Nat.zero_add]

theorem accumulate_second : accumulate p 6 (d :: ds) =
    UInt8.ofNat ((p * 64 + d) / 16) :: accumulate ((p * 64 + d) % 16) 4 ds := by
  rw [accumulate, if_pos (by decide)]
  rfl

theorem accumulate_third : accumulate p 4 (d :: ds) =
    UInt8.ofNat ((p * 64 + d) / 4) :: accumulate ((p * 64 + d) % 4) 2 ds := by
  rw [accumulate, if_pos (by decide)]
  rfl

theorem accumulate_fourth : accumulate p 2 (d :: ds) =
    UInt8.ofNat (p * 64 + d) :: accumulate 0 0 ds := by
  rw [accumulate, if_pos (by decide), Nat.sub_self, Nat.pow_zero, Nat.div_one, Nat.mod_one]

end Accumulator

/-- The accumulator is empty again after every four digits. -/
theorem accumulate_eq_decode (h : ∀ d ∈ ds, d < 64) : accumulate 0 0 ds = decode ds := by
  have hsecond (a b : ℕ) (hb : b < 64) : (a * 64 + b) / 16 = a * 4 + b / 16 ∧
      (a * 64 + b) % 16 = b % 16 := by
    omega
  have hthird (b c : ℕ) (hc : c < 64) : (b % 16 * 64 + c) / 4 = b % 16 * 16 + c / 4 ∧
      (b % 16 * 64 + c) % 4 = c % 4 := by
    omega
  induction ds using decode.induct with
  | case1 => rfl
  | case2 a => rw [accumulate_first, accumulate, decode]
  | case3 a b =>
    have hb := hsecond a b (h b (by simp))
    rw [accumulate_first, accumulate_second, accumulate, hb.1, decode]
  | case4 a b c =>
    have hb := hsecond a b (h b (by simp))
    have hc := hthird b c (h c (by simp))
    rw [accumulate_first, accumulate_second, accumulate_third, accumulate, hb.1, hb.2, hc.1, decode]
  | case5 a b c d rest ih =>
    have hb := hsecond a b (h b (by simp))
    have hc := hthird b c (h c (by simp))
    rw [accumulate_first, accumulate_second, accumulate_third, accumulate_fourth, hb.1, hb.2, hc.1,
      hc.2, decode, ih fun e he => h e (by simp [he])]

end Base64
