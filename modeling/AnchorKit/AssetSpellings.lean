import AnchorKit.ResponseValidator
import Mathlib.Data.Set.Basic

/-!
# How the assets of a response are spelled

The issuer of an asset is checked by the validator of account ids, which takes blanks around an id
and lower-case letters. The asset itself is kept as it came, so that one asset can have several
spellings.
-/

namespace AnchorKit

open Strkey

namespace ResponseValidator

/-- The documented assets. -/
inductive IsStellarAsset : Text → Prop
  | native : IsStellarAsset "native".toList
  | issued {code : Text} (hcode : IsAssetCode code) (key : BytesN 32) :
    IsStellarAsset (code ++ ':' :: encode key)

inductive Stored : Text → Prop
  | quote {id status asset : Text} {amount fee : UInt64} {version : SchemaVersion}
      {response : QuoteResponse}
      (h : validateQuoteWithVersion id status amount asset fee version = .ok response) :
      Stored response.asset
  | anchorInfo {name : Text} {assets : List Text} {version : SchemaVersion}
      {response : AnchorInfoResponse} {asset : Text}
      (h : validateAnchorInfoWithVersion name assets version = .ok response)
      (hasset : asset ∈ response.supportedAssets) : Stored asset

/-- The same code before the first colon, and the same issuer behind it. -/
def SameAsset (a b : Text) : Prop :=
  ∃ code issuer issuer' key, Text.cutAt [':'] a = some (code, issuer) ∧
    Text.cutAt [':'] b = some (code, issuer') ∧ Encodes issuer key ∧ Encodes issuer' key

/-- Only the documented assets are accepted, and of two spellings of one asset only one is kept. -/
structure AssetsRight (offered : Set Text) : Prop where
  accepts (asset : Text) (hasset : asset ∈ offered) :
    validateStellarAsset asset = .ok () ↔ IsStellarAsset asset
  canonical (a b : Text) (ha : a ∈ offered) (hb : b ∈ offered) (hstored : Stored a)
    (hstored' : Stored b) (hsame : SameAsset a b) : a = b

/-- An issuer that is an account id has no blanks around it and no lower-case letters. -/
def PlainIssuer (asset : Text) : Prop :=
  ∀ code issuer key, Text.cutAt [':'] asset = some (code, issuer) → IsAssetCode code →
    Encodes issuer key → Text.asciiUpper (Text.trimMatches isWhitespace issuer) = issuer

section Spellings

variable {asset a b code issuer : Text}

theorem accepted_of_stored (h : Stored asset) : validateStellarAsset asset = .ok () := by
  cases h with
  | quote h =>
    obtain ⟨_, _, _, _, _, _, hasset, rfl⟩ := validateQuote_eq_ok.mp h
    exact hasset
  | anchorInfo h hasset =>
    obtain ⟨_, _, _, hassets, rfl⟩ := validateAnchorInfo_eq_ok.mp h
    exact hassets _ hasset

theorem accepts_documented (h : IsStellarAsset asset) : validateStellarAsset asset = .ok () := by
  cases h with
  | native => exact validateStellarAsset_eq_ok.mpr (Or.inl rfl)
  | issued hcode key =>
    exact validateStellarAsset_eq_ok.mpr
      (Or.inr ⟨_, _, key, rfl, hcode, encodes_encode key⟩)

theorem code_of_accepted (h : validateStellarAsset asset = .ok ())
    (hcut : Text.cutAt [':'] asset = some (code, issuer)) : IsAssetCode code := by
  rcases validateStellarAsset_eq_ok.mp h with rfl | ⟨code', issuer', key, rfl, hcode, _⟩
  · cases hcut
  · rw [Text.cutAt_singleton (colon_not_mem_code hcode)] at hcut
    obtain ⟨rfl, _⟩ := Prod.mk.inj (Option.some.inj hcut)
    exact hcode

theorem documented_iff_plain (h : validateStellarAsset asset = .ok ()) :
    IsStellarAsset asset ↔ PlainIssuer asset := by
  constructor
  · rintro hdocumented code issuer key hcut _ _
    cases hdocumented with
    | native => cases hcut
    | issued hcode key' =>
      rw [Text.cutAt_singleton (colon_not_mem_code hcode)] at hcut
      obtain ⟨rfl, rfl⟩ := Prod.mk.inj (Option.some.inj hcut)
      exact encodes_encode key'
  · intro hplain
    rcases validateStellarAsset_eq_ok.mp h with rfl | ⟨code, issuer, key, rfl, hcode, hkey⟩
    · exact .native
    · have hissuer := hplain code issuer key (Text.cutAt_singleton (colon_not_mem_code hcode) _)
        hcode hkey
      rw [← hissuer, hkey]
      exact .issued hcode key

theorem plain_of_refused (h : validateStellarAsset asset ≠ .ok ()) : PlainIssuer asset := by
  intro code issuer key hcut hcode hkey
  exact absurd (validateStellarAsset_eq_ok.mpr
    (Or.inr ⟨code, issuer, key, Text.eq_of_cutAt hcut, hcode, hkey⟩)) h

theorem accepts_iff_plain :
    (validateStellarAsset asset = .ok () ↔ IsStellarAsset asset) ↔ PlainIssuer asset := by
  by_cases h : validateStellarAsset asset = .ok ()
  · rw [iff_true_left h, documented_iff_plain h]
  · exact iff_of_true ⟨fun h' => absurd h' h, accepts_documented⟩ (plain_of_refused h)

theorem eq_of_plain (ha : PlainIssuer a) (hb : PlainIssuer b) (hstored : Stored a)
    (h : SameAsset a b) : a = b := by
  obtain ⟨code, issuer, issuer', key, hcut, hcut', hkey, hkey'⟩ := h
  have hcode := code_of_accepted (accepted_of_stored hstored) hcut
  have hissuer : encode key = issuer := hkey.symm.trans (ha code issuer key hcut hcode hkey)
  have hissuer' : encode key = issuer' := hkey'.symm.trans (hb code issuer' key hcut' hcode hkey')
  rw [Text.eq_of_cutAt hcut, Text.eq_of_cutAt hcut', ← hissuer, ← hissuer']

end Spellings

/-- The assets are right exactly when all that are offered are in plain spelling. -/
theorem assets_right_iff (offered : Set Text) :
    AssetsRight offered ↔ ∀ asset ∈ offered, PlainIssuer asset := by
  constructor
  · intro h asset hasset
    exact accepts_iff_plain.mp (h.accepts asset hasset)
  · intro h
    exact ⟨fun asset hasset => accepts_iff_plain.mpr (h asset hasset),
      fun a b ha hb hstored _ => eq_of_plain (h a ha) (h b hb) hstored⟩

/-- Two spellings of one asset are accepted and kept, of which one is not documented. -/
theorem lower_case_issuer_kept :
    let lower := "USDC:g".toList ++ List.replicate 52 'a' ++ "whf".toList
    let upper := "USDC:G".toList ++ List.replicate 52 'A' ++ "WHF".toList
    validateQuoteWithVersion "q1".toList "quoted".toList 100 lower 1 .latest =
        .ok ⟨"q1".toList, "quoted".toList, 100, lower, 1, .v1⟩ ∧
      validateQuoteWithVersion "q2".toList "quoted".toList 100 upper 1 .latest =
        .ok ⟨"q2".toList, "quoted".toList, 100, upper, 1, .v1⟩ ∧
      SameAsset lower upper ∧ lower ≠ upper ∧ ¬ IsStellarAsset lower ∧
      ¬ AssetsRight {lower, upper} := by
  intro lower upper
  have hcut : Text.cutAt [':'] lower =
      some ("USDC".toList, 'g' :: List.replicate 52 'a' ++ "whf".toList) := by rfl
  have hkey : Encodes ('g' :: List.replicate 52 'a' ++ "whf".toList) (BytesN.fill 32 0) := by
    unfold Encodes
    decide +kernel
  have hkey' : Encodes ('G' :: List.replicate 52 'A' ++ "WHF".toList) (BytesN.fill 32 0) := by
    unfold Encodes
    decide +kernel
  have hcode : IsAssetCode "USDC".toList := isAssetCode_iff.mp (by decide)
  have hnotPlain : ¬ PlainIssuer lower := by
    intro hplain
    have hupper := congrArg List.head? (hplain _ _ _ hcut hcode hkey)
    rw [hkey, head_encode] at hupper
    cases hupper
  have haccepted : validateStellarAsset lower = .ok () :=
    validateStellarAsset_eq_ok.mpr (Or.inr ⟨_, _, _, Text.eq_of_cutAt hcut, hcode, hkey⟩)
  refine ⟨by decide +kernel, by decide +kernel, ?_, by decide, ?_, ?_⟩
  · exact ⟨_, _, _, _, hcut, rfl, hkey, hkey'⟩
  · exact fun h => hnotPlain ((documented_iff_plain haccepted).mp h)
  · exact fun h => hnotPlain (accepts_iff_plain.mp (h.accepts lower (Or.inl rfl)))

end ResponseValidator

end AnchorKit
