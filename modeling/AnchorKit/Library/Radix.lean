import Mathlib.Data.Nat.Digits.Defs
import Mathlib.Data.UInt

/-!
# Numbers in several bases

A list of digits, the highest first, is a number below a power of the base. Digits of some bits are
turned into digits of more bits through an accumulator, which leaves the number as it is. The
accumulator may be a machine word out of which the highest bits are lost.
-/

namespace Radix

variable {b : ℕ} {ds es : List ℕ}

def value (b : ℕ) (ds : List ℕ) : ℕ := Nat.ofDigits b ds.reverse

/-- The lowest `n` digits of a number. -/
def digits (b : ℕ) : ℕ → ℕ → List ℕ
  | 0, _ => []
  | n + 1, v => digits b n (v / b) ++ [v % b]

@[simp] theorem value_nil : value b [] = 0 := rfl

@[simp] theorem value_concat (d : ℕ) : value b (ds ++ [d]) = value b ds * b + d := by
  rw [value, List.reverse_append, List.reverse_singleton, List.singleton_append, Nat.ofDigits_cons,
    Nat.add_comm, Nat.mul_comm]
  rfl

theorem value_append : value b (ds ++ es) = value b ds * b ^ es.length + value b es := by
  rw [value, List.reverse_append, Nat.ofDigits_append, List.length_reverse, Nat.add_comm,
    Nat.mul_comm]
  rfl

@[simp] theorem value_singleton (d : ℕ) : value b [d] = d := by
  rw [value, List.reverse_singleton, Nat.ofDigits_singleton]

theorem value_cons (d : ℕ) : value b (d :: ds) = d * b ^ ds.length + value b ds := by
  rw [← List.singleton_append, value_append, value_singleton]

theorem value_lt (hb : 1 < b) (h : ∀ d ∈ ds, d < b) : value b ds < b ^ ds.length := by
  rw [← List.length_reverse]
  exact Nat.ofDigits_lt_base_pow_length hb fun d hd => h d (List.mem_reverse.mp hd)

/-- Digits of a known number are determined by their count. -/
theorem value_injective (hb : 1 < b) (hlength : ds.length = es.length) (hds : ∀ d ∈ ds, d < b)
    (hes : ∀ d ∈ es, d < b) (h : value b ds = value b es) : ds = es := by
  have hreverse := Nat.ofDigits_inj_of_len_eq hb
    (by rw [List.length_reverse, List.length_reverse, hlength])
    (fun d hd => hds d (List.mem_reverse.mp hd)) (fun d hd => hes d (List.mem_reverse.mp hd)) h
  exact List.reverse_inj.mp hreverse

@[simp] theorem length_digits (n v : ℕ) : (digits b n v).length = n := by
  induction n generalizing v with
  | zero => rfl
  | succ n ih => rw [digits, List.length_append, ih, List.length_singleton]

theorem digits_lt (hb : 0 < b) {n v : ℕ} : ∀ d ∈ digits b n v, d < b := by
  induction n generalizing v with
  | zero => exact nofun
  | succ n ih =>
    intro d hd
    rcases List.mem_append.mp hd with hd | hd
    · exact ih d hd
    · obtain rfl := List.mem_singleton.mp hd
      exact Nat.mod_lt v hb

theorem value_digits (hb : 0 < b) {n v : ℕ} (h : v < b ^ n) : value b (digits b n v) = v := by
  induction n generalizing v with
  | zero =>
    rw [Nat.pow_zero, Nat.lt_one_iff] at h
    rw [h]
    rfl
  | succ n ih =>
    have hquotient : v / b < b ^ n := by
      rw [Nat.div_lt_iff_lt_mul hb]
      exact h
    rw [digits, value_concat, ih hquotient, Nat.div_add_mod']

/-! ### Digits as characters -/

/-- What is read where each character stands for a digit, and each digit for its character. -/
theorem mapM_eq_some_iff {α β : Type} {read : α → Option β} {write : β → α} {p : β → Prop}
    (hread : ∀ d, p d → read (write d) = some d)
    (hwrite : ∀ c d, read c = some d → write d = c ∧ p d) {text : List α} {ds : List β} :
    text.mapM read = some ds ↔ (∀ d ∈ ds, p d) ∧ ds.map write = text := by
  induction text generalizing ds with
  | nil =>
    constructor
    · intro h
      rw [← Option.some.inj h]
      exact ⟨nofun, rfl⟩
    · rintro ⟨-, hmap⟩
      rw [List.map_eq_nil_iff.mp hmap]
      rfl
  | cons c rest ih =>
    simp only [List.mapM_cons, Option.bind_eq_bind, Option.bind_eq_some_iff, Option.pure_def,
      Option.some.injEq, ih]
    constructor
    · rintro ⟨d, hd, ds, ⟨hds, rfl⟩, rfl⟩
      obtain ⟨rfl, hp⟩ := hwrite c d hd
      exact ⟨List.forall_mem_cons.mpr ⟨hp, hds⟩, rfl⟩
    · rintro ⟨hds, hmap⟩
      cases ds with
      | nil => cases hmap
      | cons d ds =>
        obtain ⟨hp, hds⟩ := List.forall_mem_cons.mp hds
        obtain ⟨rfl, hrest⟩ := List.cons_eq_cons.mp hmap
        exact ⟨d, hread d hp, ds, ⟨hds, hrest⟩, rfl⟩

/-! ### From one power of two to another -/

/-- Digits of `k` bits as digits of `m` bits; `pending` is the value of `bits` bits that come
before. -/
def regroup (k m pending bits : ℕ) : List ℕ → List ℕ
  | [] => []
  | d :: ds =>
    if m ≤ bits + k then
      (pending * 2 ^ k + d) / 2 ^ (bits + k - m) ::
        regroup k m ((pending * 2 ^ k + d) % 2 ^ (bits + k - m)) (bits + k - m) ds
    else regroup k m (pending * 2 ^ k + d) (bits + k) ds

section Regroup

variable {k m pending bits d : ℕ}

theorem shiftIn_lt (hpending : pending < 2 ^ bits) (hd : d < 2 ^ k) :
    pending * 2 ^ k + d < 2 ^ (bits + k) := by
  calc pending * 2 ^ k + d < pending * 2 ^ k + 2 ^ k := Nat.add_lt_add_left hd _
    _ = (pending + 1) * 2 ^ k := (Nat.succ_mul _ _).symm
    _ ≤ 2 ^ bits * 2 ^ k := Nat.mul_le_mul_right _ hpending
    _ = 2 ^ (bits + k) := (Nat.pow_add ..).symm

theorem regroup_lt (hpending : pending < 2 ^ bits) (hds : ∀ d ∈ ds, d < 2 ^ k) :
    ∀ e ∈ regroup k m pending bits ds, e < 2 ^ m := by
  induction ds generalizing pending bits with
  | nil => exact nofun
  | cons d ds ih =>
    obtain ⟨hd, hds⟩ := List.forall_mem_cons.mp hds
    have hsum := shiftIn_lt hpending hd
    rw [regroup]
    split
    · rename_i hfull
      rw [List.forall_mem_cons]
      refine ⟨?_, ih (Nat.mod_lt _ (Nat.two_pow_pos _)) hds⟩
      rw [Nat.div_lt_iff_lt_mul (Nat.two_pow_pos _), ← Nat.pow_add, Nat.add_sub_cancel' hfull]
      exact hsum
    · exact ih hsum hds

theorem length_regroup (hm : k ≤ m) (hbits : bits < m) :
    (regroup k m pending bits ds).length = (bits + k * ds.length) / m := by
  induction ds generalizing pending bits with
  | nil => rw [List.length_nil, Nat.mul_zero, Nat.add_zero, Nat.div_eq_of_lt hbits]; rfl
  | cons d ds ih =>
    have hsplit : bits + k * (ds.length + 1) = bits + k + k * ds.length := by
      rw [Nat.mul_succ]
      omega
    rw [regroup, List.length_cons, hsplit]
    split
    · rename_i hfull
      have hrest : bits + k + k * ds.length = bits + k - m + k * ds.length + m := by omega
      rw [List.length_cons, ih (by omega), hrest, Nat.add_div_right _ (by omega)]
    · rename_i hopen
      exact ih (Nat.lt_of_not_le hopen)

/-- What was pending and the digits make up the new digits and what is left. -/
theorem value_regroup (hm : k ≤ m) (hbits : bits < m) (hpending : pending < 2 ^ bits)
    (hds : ∀ d ∈ ds, d < 2 ^ k) :
    ∃ left < 2 ^ ((bits + k * ds.length) % m),
      value (2 ^ m) (regroup k m pending bits ds) * 2 ^ ((bits + k * ds.length) % m) + left =
        pending * 2 ^ (k * ds.length) + value (2 ^ k) ds := by
  induction ds generalizing pending bits with
  | nil =>
    refine ⟨pending, ?_, ?_⟩
    · rwa [List.length_nil, Nat.mul_zero, Nat.add_zero, Nat.mod_eq_of_lt hbits]
    · simp [regroup]
  | cons d ds ih =>
    obtain ⟨hd, hds⟩ := List.forall_mem_cons.mp hds
    have hsum := shiftIn_lt hpending hd
    have hsplit : bits + k * (ds.length + 1) = bits + k + k * ds.length := by
      rw [Nat.mul_succ]
      omega
    have hnumber : pending * 2 ^ (k * (ds.length + 1)) + value (2 ^ k) (d :: ds) =
        (pending * 2 ^ k + d) * 2 ^ (k * ds.length) + value (2 ^ k) ds := by
      rw [value_cons, ← Nat.pow_mul, Nat.mul_succ, Nat.pow_add]
      ring
    rw [regroup, List.length_cons, hsplit, hnumber]
    split
    · rename_i hfull
      generalize hs : bits + k - m = s
      have hrest : bits + k + k * ds.length = s + k * ds.length + m := by omega
      rw [hrest, Nat.add_mod_right]
      generalize pending * 2 ^ k + d = p
      have hshort : s < m := by omega
      obtain ⟨left, hleft, hvalue⟩ := ih hshort (Nat.mod_lt p (Nat.two_pow_pos s)) hds
      have hplace : (2 ^ m) ^ (regroup k m (p % 2 ^ s) s ds).length *
          2 ^ ((s + k * ds.length) % m) = 2 ^ s * 2 ^ (k * ds.length) := by
        rw [length_regroup hm hshort, ← Nat.pow_mul, ← Nat.pow_add, Nat.div_add_mod, Nat.pow_add]
      refine ⟨left, hleft, ?_⟩
      rw [value_cons, Nat.add_mul, Nat.mul_assoc, hplace, Nat.add_assoc, hvalue, ← Nat.mul_assoc,
        ← Nat.add_assoc, ← Nat.add_mul, Nat.div_add_mod']
    · rename_i hopen
      exact ih (Nat.lt_of_not_le hopen) hsum hds

/-- Where nothing is left the number stays the same. -/
theorem value_regroup_of_dvd (hm : k ≤ m) (hpos : 0 < m) (hds : ∀ d ∈ ds, d < 2 ^ k)
    (hwhole : k * ds.length % m = 0) :
    value (2 ^ m) (regroup k m 0 0 ds) = value (2 ^ k) ds := by
  obtain ⟨left, hleft, hvalue⟩ := value_regroup hm hpos (Nat.one_pos : 0 < 2 ^ 0) hds
  rw [Nat.zero_add, hwhole, Nat.pow_zero, Nat.lt_one_iff] at hleft
  rw [Nat.zero_add, hwhole, hleft, Nat.pow_zero, Nat.mul_one, Nat.add_zero, Nat.zero_mul,
    Nat.zero_add] at hvalue
  exact hvalue

end Regroup

section Cut

variable {k n : ℕ}

/-- Above a digit the number is that of the digits before it. -/
theorem value_append_div (hk : 0 < k) (hes : ∀ d ∈ es, d < 2 ^ k) (hn : k * es.length ≤ n) :
    value (2 ^ k) (ds ++ es) / 2 ^ n = value (2 ^ k) ds / 2 ^ (n - k * es.length) := by
  have hlt : value (2 ^ k) es < 2 ^ (k * es.length) := by
    rw [Nat.pow_mul]
    exact value_lt (Nat.one_lt_two_pow hk.ne') hes
  have hsplit : 2 ^ n = 2 ^ (k * es.length) * 2 ^ (n - k * es.length) := by
    rw [← Nat.pow_add, Nat.add_sub_cancel' hn]
  rw [value_append, ← Nat.pow_mul, hsplit, ← Nat.div_div_eq_div_mul,
    Nat.mul_comm (value (2 ^ k) ds), Nat.mul_add_div (Nat.two_pow_pos _), Nat.div_eq_of_lt hlt,
    Nat.add_zero]

/-- Below a digit the number is that of the digits behind it. -/
theorem value_append_mod (hn : n ≤ k * es.length) :
    value (2 ^ k) (ds ++ es) % 2 ^ n = value (2 ^ k) es % 2 ^ n := by
  have hdvd : 2 ^ n ∣ value (2 ^ k) ds * (2 ^ k) ^ es.length := by
    rw [← Nat.pow_mul]
    exact (Nat.pow_dvd_pow 2 hn).mul_left _
  rw [value_append, Nat.add_mod, Nat.mod_eq_zero_of_dvd hdvd, Nat.zero_add, Nat.mod_mod]

end Cut

/-! ### The accumulator in a machine word -/

section Word

variable {buffer bits shift : UInt32} {d : UInt8} {j k : ℕ}

theorem toNat_shiftIn (hshift : shift.toNat = k) (hk : k < 32) (hd : d.toNat < 2 ^ k) :
    ((buffer <<< shift) ||| d.toUInt32).toNat =
      buffer.toNat % 2 ^ (32 - k) * 2 ^ k + d.toNat := by
  have hword : (buffer <<< shift).toNat = buffer.toNat % 2 ^ (32 - k) * 2 ^ k := by
    rw [UInt32.toNat_shiftLeft, hshift, Nat.mod_eq_of_lt hk, Nat.shiftLeft_eq]
    have hsplit : 2 ^ 32 = 2 ^ (32 - k) * 2 ^ k := by
      rw [← Nat.pow_add, Nat.sub_add_cancel hk.le]
    rw [hsplit, Nat.mul_mod_mul_right]
  rw [UInt32.toNat_or, hword, UInt8.toNat_toUInt32, ← Nat.shiftLeft_eq,
    ← Nat.shiftLeft_add_eq_or_of_lt hd, Nat.shiftLeft_eq]

theorem mod_shiftIn {x v : ℕ} (hv : v < 2 ^ k) :
    (x * 2 ^ k + v) % 2 ^ (j + k) = x % 2 ^ j * 2 ^ k + v := by
  have hlt := shiftIn_lt (Nat.mod_lt x (Nat.two_pow_pos j)) hv
  have hsplit : x * 2 ^ k + v = 2 ^ (j + k) * (x / 2 ^ j) + (x % 2 ^ j * 2 ^ k + v) := by
    calc x * 2 ^ k + v = (2 ^ j * (x / 2 ^ j) + x % 2 ^ j) * 2 ^ k + v := by rw [Nat.div_add_mod]
      _ = 2 ^ (j + k) * (x / 2 ^ j) + (x % 2 ^ j * 2 ^ k + v) := by
        rw [Nat.add_mul, Nat.add_assoc, Nat.mul_right_comm, Nat.pow_add]
  rw [hsplit, Nat.mul_add_mod, Nat.mod_eq_of_lt hlt]

/-- The bits still to be written, after a digit. -/
theorem pending_shiftIn (buffer : UInt32) (hshift : shift.toNat = k) (hd : d.toNat < 2 ^ k)
    (hj : j + k ≤ 32) (hk : k < 32) :
    ((buffer <<< shift) ||| d.toUInt32).toNat % 2 ^ (j + k) =
      buffer.toNat % 2 ^ j * 2 ^ k + d.toNat := by
  have hdvd : (2 : ℕ) ^ j ∣ 2 ^ (32 - k) := Nat.pow_dvd_pow 2 (by omega)
  rw [toNat_shiftIn hshift hk hd, mod_shiftIn hd, Nat.mod_mod_of_dvd _ hdvd]

/-- The byte above the lowest `k` bits. -/
theorem byteAt (hk : bits.toNat = k) (hsmall : k < 32) :
    ((buffer >>> bits) &&& 0xFF).toUInt8 =
      UInt8.ofNat (buffer.toNat % 2 ^ (k + 8) / 2 ^ k) := by
  have hmask : (0xFF : UInt32).toNat = 2 ^ 8 - 1 := by decide
  have hbyte : ((buffer >>> bits) &&& 0xFF).toNat = buffer.toNat / 2 ^ k % 2 ^ 8 := by
    rw [UInt32.toNat_and, UInt32.toNat_shiftRight, hk, Nat.mod_eq_of_lt hsmall, hmask,
      Nat.and_two_pow_sub_one_eq_mod, Nat.shiftRight_eq_div_pow]
  rw [← UInt8.toNat_inj, UInt32.toNat_toUInt8, hbyte, Nat.pow_add, Nat.mod_mul_right_div_self,
    UInt8.toNat_ofNat']

theorem byte_shiftIn (buffer : UInt32) (hshift : shift.toNat = k) (hd : d.toNat < 2 ^ k)
    (hj : j + k ≤ 32) (hk : k < 32) (hfull : 8 ≤ j + k) (hbits : bits.toNat = j + k - 8) :
    ((((buffer <<< shift) ||| d.toUInt32) >>> bits) &&& 0xFF).toUInt8 =
      UInt8.ofNat ((buffer.toNat % 2 ^ j * 2 ^ k + d.toNat) / 2 ^ (j + k - 8)) := by
  rw [byteAt hbits (by omega), Nat.sub_add_cancel hfull, pending_shiftIn buffer hshift hd hj hk]

/-- What is left of a digit that fills a byte. -/
theorem rest_shiftIn (buffer : UInt32) (hshift : shift.toNat = k) (hd : d.toNat < 2 ^ k)
    (hj : j + k ≤ 32) (hk : k < 32) :
    ((buffer <<< shift) ||| d.toUInt32).toNat % 2 ^ (j + k - 8) =
      (buffer.toNat % 2 ^ j * 2 ^ k + d.toNat) % 2 ^ (j + k - 8) := by
  have hdvd : (2 : ℕ) ^ (j + k - 8) ∣ 2 ^ (j + k) := Nat.pow_dvd_pow 2 (Nat.sub_le ..)
  rw [← Nat.mod_mod_of_dvd _ hdvd, pending_shiftIn buffer hshift hd hj hk]

end Word

end Radix
