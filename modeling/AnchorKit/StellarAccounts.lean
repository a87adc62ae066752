import AnchorKit.Strkeys
import AnchorKit.Library.Fallible

/-!
# Account ids

An account id is accepted with whitespace around it and in any case, and its normal form is the
strkey text of its key. Normal forms are as far apart as the checksum keeps them.
-/

namespace AnchorKit

open Fallible Strkey

def isValidStellarAccountChar (c : Char) : Bool := ('A' ≤ c && c ≤ 'Z') || ('2' ≤ c && c ≤ '7')

/-- `char::is_ascii_whitespace`. -/
def isAsciiSpace (c : Char) : Bool := ['\t', '\n', '\x0c', '\r', ' '].contains c

def normalizeStellarAccountId (accountId : Text) : Except AnchorKitError Text := do
  let trimmed := Text.trimMatches isWhitespace accountId
  require (trimmed ≠ []) (.validationError "account_id is empty")
  require (trimmed.any isAsciiSpace = false)
    (.validationError "account_id must not contain whitespace")
  let normalized := Text.asciiUpper trimmed
  require (Text.byteLen normalized = 56) (.validationError "account_id must be 56 characters")
  require (normalized.head? = some 'G') (.validationError "account_id must start with G")
  require (normalized.all isValidStellarAccountChar = true)
    (.validationError "account_id contains invalid characters")
  require (isValidStellarStrkey normalized = true)
    (.validationError "account_id checksum is invalid")
  return normalized

def validateStellarAccountId (accountId : Text) : Except AnchorKitError Unit := do
  let _ ← normalizeStellarAccountId accountId
  return ()

def Encodes (accountId : Text) (key : BytesN 32) : Prop :=
  Text.asciiUpper (Text.trimMatches isWhitespace accountId) = encode key

section Alphabet

variable {key : BytesN 32} {c : Char}

theorem base32Char_account : ∀ d < 32, isValidStellarAccountChar (base32Char d) = true ∧
    isWhitespace (base32Char d) = false ∧ isAsciiSpace (base32Char d) = false ∧
      (base32Char d).toUpper = base32Char d := by
  decide

theorem exists_digit (h : isValidStellarAccountChar c = true) : ∃ d < 32, c = base32Char d := by
  have hcode {a b : Char} (h : (decide (a ≤ c) && decide (c ≤ b)) = true) :
      a.toNat ≤ c.toNat ∧ c.toNat ≤ b.toNat := by
    rw [Bool.and_eq_true, decide_eq_true_iff, decide_eq_true_iff] at h
    exact h
  rcases Bool.or_eq_true_iff.mp h with h | h
  · obtain ⟨hlow, hhigh⟩ : 0x41 ≤ c.toNat ∧ c.toNat ≤ 0x5a := hcode h
    refine ⟨c.toNat - 0x41, by omega, ?_⟩
    rw [base32Char, if_pos (by omega), Nat.add_sub_cancel' hlow, Char.ofNat_toNat]
  · obtain ⟨hlow, hhigh⟩ : 0x32 ≤ c.toNat ∧ c.toNat ≤ 0x37 := hcode h
    refine ⟨c.toNat - 0x32 + 26, by omega, ?_⟩
    rw [base32Char, if_neg (by omega), Nat.add_sub_cancel, Nat.add_sub_cancel' hlow,
      Char.ofNat_toNat]

theorem exists_digit_of_mem (h : c ∈ encode key) : ∃ d < 32, c = base32Char d := by
  obtain ⟨ds, hcodeword, htext⟩ := exists_codeword key
  rw [htext] at h
  obtain ⟨d, hd, rfl⟩ := List.mem_map.mp h
  exact ⟨d, hcodeword.digit d hd, rfl⟩

theorem length_encode (key : BytesN 32) : (encode key).length = 56 := by
  obtain ⟨ds, hcodeword, htext⟩ := exists_codeword key
  rw [htext, List.length_map, hcodeword.length]

theorem head_encode (key : BytesN 32) : (encode key).head? = some 'G' := by
  obtain ⟨ds, hcodeword, htext⟩ := exists_codeword key
  rw [htext, List.head?_map, hcodeword.head]
  rfl

/-- A text in the alphabet is its own upper-case form and has nothing to trim. -/
theorem upper_trim_eq {t : Text} (h : ∀ c ∈ t, ∃ d < 32, c = base32Char d) :
    Text.asciiUpper (Text.trimMatches isWhitespace t) = t := by
  have hblank : ∀ c ∈ t, isWhitespace c = false := by
    intro c hc
    obtain ⟨d, hd, rfl⟩ := h c hc
    exact (base32Char_account d hd).2.1
  have hupper : ∀ c ∈ t, c.toUpper = c := by
    intro c hc
    obtain ⟨d, hd, rfl⟩ := h c hc
    exact (base32Char_account d hd).2.2.2
  rw [Text.trimMatches_of_forall hblank]
  exact (List.map_congr_left hupper).trans (List.map_id t)

end Alphabet

section Normalization

variable {s t n m : Text} {key : BytesN 32}

/-- Everything that is checked before the checksum follows from it. -/
theorem normalizeStellarAccountId_eq_ok :
    normalizeStellarAccountId s = .ok n ↔ ∃ key, Encodes s key ∧ n = encode key := by
  simp only [normalizeStellarAccountId, require_bind_eq_ok, isValidStellarStrkey_iff, Encodes]
  constructor
  · rintro ⟨_, _, _, _, _, ⟨key, hkey⟩, hn⟩
    exact ⟨key, hkey, (Except.ok.inj hn).symm.trans hkey⟩
  · rintro ⟨key, hkey, rfl⟩
    rw [hkey]
    refine ⟨?_, ?_, ?_, head_encode key, ?_, ⟨key, rfl⟩, rfl⟩
    · intro hnil
      rw [hnil] at hkey
      exact absurd (congrArg List.length hkey).symm (by rw [length_encode]; decide)
    · rw [List.any_eq_false]
      intro c hc hspace
      have hupper : ∀ c ∈ ['\t', '\n', '\x0c', '\r', ' '], c.toUpper = c := by decide
      have hmem : c ∈ encode key := by
        rw [← hkey, ← hupper c (List.contains_iff_mem.mp hspace)]
        exact List.mem_map_of_mem hc
      obtain ⟨d, hd, rfl⟩ := exists_digit_of_mem hmem
      rw [(base32Char_account d hd).2.2.1] at hspace
      cases hspace
    · rw [Text.byteLen_of_isAscii, length_encode]
      intro c hc
      obtain ⟨d, hd, rfl⟩ := exists_digit_of_mem hc
      exact (base32Char_ascii d hd).1
    · rw [List.all_eq_true]
      intro c hc
      obtain ⟨d, hd, rfl⟩ := exists_digit_of_mem hc
      exact (base32Char_account d hd).1

theorem encodes_encode (key : BytesN 32) : Encodes (encode key) key :=
  upper_trim_eq fun _ => exists_digit_of_mem

/-- Two encodings that differ in one character at most are the same. -/
theorem eq_of_one {key key' : BytesN 32} {u v : Text} {old c : Char}
    (h : encode key = u ++ old :: v) (h' : encode key' = u ++ c :: v) : c = old := by
  obtain ⟨ds, hcodeword, htext⟩ := exists_codeword key
  obtain ⟨ds', hcodeword', htext'⟩ := exists_codeword key'
  rw [h] at htext
  rw [h'] at htext'
  obtain ⟨front, rest, rfl, hfront, hrest⟩ := List.map_eq_append_iff.mp htext.symm
  obtain ⟨d, back, rfl, rfl, hback⟩ := List.map_eq_cons_iff.mp hrest
  obtain ⟨front', rest', rfl, hfront', hrest'⟩ := List.map_eq_append_iff.mp htext'.symm
  obtain ⟨d', back', rfl, rfl, hback'⟩ := List.map_eq_cons_iff.mp hrest'
  obtain rfl : front' = front := map_base32Char_injective
    (fun e he => hcodeword'.digit e (List.mem_append_left _ he))
    (fun e he => hcodeword.digit e (List.mem_append_left _ he)) (hfront'.trans hfront.symm)
  obtain rfl : back' = back := map_base32Char_injective
    (fun e he => hcodeword'.digit e (List.mem_append_right _ (List.mem_cons_of_mem _ he)))
    (fun e he => hcodeword.digit e (List.mem_append_right _ (List.mem_cons_of_mem _ he)))
    (hback'.trans hback.symm)
  rw [hcodeword'.eq_of_one hcodeword]

end Normalization

/-- Normal forms are the encodings of keys, each one of one key, and a single character that is
not the right one is found out. -/
structure NormalizesKeys : Prop where
  accepts (s n : Text) :
    normalizeStellarAccountId s = .ok n ↔ ∃ key, Encodes s key ∧ n = encode key
  idempotent (s n : Text) (h : normalizeStellarAccountId s = .ok n) :
    normalizeStellarAccountId n = .ok n
  same_iff (s t n m : Text) (hs : normalizeStellarAccountId s = .ok n)
    (ht : normalizeStellarAccountId t = .ok m) : n = m ↔ ∃ key, Encodes s key ∧ Encodes t key
  one_form (key : BytesN 32) : ∃! n, ∃ s, Encodes s key ∧ normalizeStellarAccountId s = .ok n
  detects (s n : Text) (h : normalizeStellarAccountId s = .ok n) (i : ℕ) (old c : Char)
    (hold : n[i]? = some old) (hnew : c ≠ old) (hc : isValidStellarAccountChar c = true)
    (m : Text) : normalizeStellarAccountId (n.set i c) ≠ .ok m

theorem normalizes_keys : NormalizesKeys where
  accepts s n := normalizeStellarAccountId_eq_ok
  idempotent := by
    intro s n h
    obtain ⟨key, _, rfl⟩ := normalizeStellarAccountId_eq_ok.mp h
    exact normalizeStellarAccountId_eq_ok.mpr ⟨key, encodes_encode key, rfl⟩
  same_iff := by
    intro s t n m hs ht
    obtain ⟨key, hkey, rfl⟩ := normalizeStellarAccountId_eq_ok.mp hs
    obtain ⟨key', hkey', rfl⟩ := normalizeStellarAccountId_eq_ok.mp ht
    constructor
    · intro hsame
      obtain rfl := encode_injective hsame
      exact ⟨key, hkey, hkey'⟩
    · rintro ⟨both, hs, ht⟩
      exact hkey.symm.trans (hs.trans (ht.symm.trans hkey'))
  one_form := by
    intro key
    refine ⟨encode key, ⟨encode key, encodes_encode key,
      normalizeStellarAccountId_eq_ok.mpr ⟨key, encodes_encode key, rfl⟩⟩, ?_⟩
    rintro n ⟨s, hs, hn⟩
    obtain ⟨key', hkey', rfl⟩ := normalizeStellarAccountId_eq_ok.mp hn
    exact hkey'.symm.trans hs
  detects := by
    intro s n h i old c hold hnew hc m hm
    obtain ⟨key, _, rfl⟩ := normalizeStellarAccountId_eq_ok.mp h
    obtain ⟨key', hkey', rfl⟩ := normalizeStellarAccountId_eq_ok.mp hm
    have hchars : ∀ d ∈ (encode key).set i c, ∃ n < 32, d = base32Char n := by
      intro d hd
      rcases List.mem_or_eq_of_mem_set hd with hd | rfl
      · exact exists_digit_of_mem hd
      · exact exists_digit hc
    unfold Encodes at hkey'
    rw [upper_trim_eq hchars] at hkey'
    obtain ⟨hi, hget⟩ := List.getElem?_eq_some_iff.mp hold
    have hsame : (encode key).set i old = encode key := by
      rw [← hget, List.set_getElem_self]
    rw [List.set_eq_take_append_cons_drop, if_pos hi] at hsame hkey'
    exact hnew (eq_of_one hsame.symm hkey'.symm)

/-- The key of zeros, in lower case and with whitespace around it. -/
example : normalizeStellarAccountId (" g".toList ++ List.replicate 52 'a' ++ "whf\n".toList) =
    .ok ('G' :: List.replicate 52 'A' ++ "WHF".toList) := by decide +kernel

end AnchorKit
