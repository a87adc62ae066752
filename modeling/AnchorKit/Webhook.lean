import AnchorKit.TraceContext
import Mathlib.Data.List.MinMax
import Mathlib.Tactic.Linarith

/-!
# Verification of webhooks

A delivery is accepted when it is signed, recent, and carries a nonce that the tracker does not
know. HMAC-SHA256 is a parameter; the body is searched for its two fields.
-/

namespace AnchorKit

open Fallible

namespace Webhook

def maxWebhookBodyBytes : ℕ := 1024 * 1024

def hexByte (b : UInt8) : Text :=
  [TraceContext.hexNibble (b >>> 4), TraceContext.hexNibble (b &&& 0x0f)]

def signPayload (hmacSha256 : Bytes → Bytes → BytesN 32) (key : Bytes) (payload : Text) : Text :=
  (hmacSha256 key payload.utf8).val.flatMap hexByte

/-- `char::to_digit(16)`. -/
def toDigit16 (c : Char) : Option UInt8 :=
  if c.isDigit then some (UInt8.ofNat (c.toNat - 0x30))
  else if 'a' ≤ c ∧ c ≤ 'f' then some (UInt8.ofNat (c.toNat - 0x61 + 10))
  else if 'A' ≤ c ∧ c ≤ 'F' then some (UInt8.ofNat (c.toNat - 0x41 + 10))
  else none

def decodeDigest : Text → Option Bytes
  | [] => some []
  | [_] => none
  | a :: b :: rest => do
    let hi ← toDigit16 a
    let lo ← toDigit16 b
    let bytes ← decodeDigest rest
    return (hi <<< 4 ||| lo) :: bytes

def signaturePrefix : Text := "sha256=".toList

def verifyWebhookSignature (hmacSha256 : Bytes → Bytes → BytesN 32) (payload signatureHeader : Text)
    (key : Bytes) : Bool :=
  if maxWebhookBodyBytes < Text.byteLen payload then false
  else if key = [] then false
  else if signaturePrefix.isPrefixOf signatureHeader then
    let hexDigest : Text := signatureHeader.drop signaturePrefix.length
    if Text.byteLen hexDigest % 2 ≠ 0 then false
    else
      match decodeDigest hexDigest with
      | some received => received = (hmacSha256 key payload.utf8).val
      | none => false
  else false

inductive VerificationResult
  | valid
  | invalidSignature
  | invalidTimestamp
  | replayDetected
deriving DecidableEq, Repr

def timestampKey : Text := "\"timestamp\":".toList

def nonceKey : Text := "\"nonce\":".toList

def nextQuoted (t : Text) : Option Text := do
  let (_, afterQuote) ← Text.cutAt ['"'] t
  let (nonce, _) ← Text.cutAt ['"'] afterQuote
  return nonce

def extractTimestampAndNonce (payload : Text) : Option (UInt64 × Text) := do
  let (_, tsStr) ← Text.cutAt timestampKey payload
  let (_, nonceStr) ← Text.cutAt nonceKey payload
  let timestamp ← Text.parseU64 (tsStr.takeWhile Char.isDigit)
  let nonce ← nextQuoted nonceStr
  return (timestamp, nonce)

/-- The nonces that were seen, each with the timestamp of its message. -/
structure MemoryNonceTracker where
  nonces : Std.TreeMap Text UInt64
  maxCapacity : ℕ

namespace MemoryNonceTracker

def usizeMax : ℕ := 2 ^ 64 - 1

def new : MemoryNonceTracker := ⟨∅, usizeMax⟩

def withCapacity (maxCapacity : ℕ) : Except AnchorKitError MemoryNonceTracker :=
  if maxCapacity = 0 then
    .error ⟨.validationError, "MemoryNonceTracker capacity must be at least 1", none⟩
  else .ok ⟨∅, maxCapacity⟩

/-- The entry with the least timestamp, the first of them in the order of the nonces. -/
def oldest (tracker : MemoryNonceTracker) : Option (Text × UInt64) :=
  tracker.nonces.toList.argmin fun e => e.2.toNat

def evictOldest (tracker : MemoryNonceTracker) : MemoryNonceTracker :=
  match tracker.oldest with
  | some e => { tracker with nonces := tracker.nonces.erase e.1 }
  | none => tracker

def checkAndRecord (tracker : MemoryNonceTracker) (nonce : Text) (timestamp : UInt64) :
    MemoryNonceTracker × Bool :=
  if tracker.nonces.contains nonce then (tracker, false)
  else
    let tracker :=
      if tracker.maxCapacity ≤ tracker.nonces.size then tracker.evictOldest else tracker
    ({ tracker with nonces := tracker.nonces.insert nonce timestamp }, true)

def cleanupExpired (tracker : MemoryNonceTracker) (currentTime maxAgeSeconds : UInt64) :
    MemoryNonceTracker :=
  let cutoff := Word.saturatingSub64 currentTime maxAgeSeconds
  { tracker with nonces := tracker.nonces.filter fun _ ts => cutoff ≤ ts }

end MemoryNonceTracker

def verifyWithReplayProtection (hmacSha256 : Bytes → Bytes → BytesN 32)
    (payload signatureHeader : Text) (key : Bytes) (currentTime maxAgeSeconds : UInt64)
    (nonceTracker : MemoryNonceTracker) : MemoryNonceTracker × VerificationResult :=
  if verifyWebhookSignature hmacSha256 payload signatureHeader key = false then
    (nonceTracker, .invalidSignature)
  else
    match extractTimestampAndNonce payload with
    | none => (nonceTracker, .invalidTimestamp)
    | some (timestamp, nonce) =>
      if currentTime < timestamp then (nonceTracker, .invalidTimestamp)
      -- an age of zero stands for no limit
      else if 0 < maxAgeSeconds ∧ maxAgeSeconds ≤ Word.saturatingSub64 currentTime timestamp then
        (nonceTracker, .invalidTimestamp)
      else if Text.trimMatches isWhitespace nonce = [] then (nonceTracker, .invalidSignature)
      else
        match nonceTracker.checkAndRecord nonce timestamp with
        | (nonceTracker, true) => (nonceTracker, .valid)
        | (nonceTracker, false) => (nonceTracker, .replayDetected)

section Signatures

variable {hmacSha256 : Bytes → Bytes → BytesN 32} {payload : Text} {key : Bytes}

/-- Two digits stand for the byte that they were written for. -/
theorem decodeDigest_hexByte (b : UInt8) (rest : Text) :
    decodeDigest (hexByte b ++ rest) = (decodeDigest rest).map (b :: ·) := by
  have hall : ∀ n < 256, ∃ hi lo, toDigit16 (TraceContext.hexNibble (UInt8.ofNat n >>> 4)) = some hi ∧
      toDigit16 (TraceContext.hexNibble (UInt8.ofNat n &&& 0x0f)) = some lo ∧
      hi <<< 4 ||| lo = UInt8.ofNat n := by
    intro n hn
    refine ⟨UInt8.ofNat n >>> 4, UInt8.ofNat n &&& 0x0f, ?_⟩
    revert n
    decide +kernel
  obtain ⟨hi, lo, hhi, hlo, hbyte⟩ := hall b.toNat b.toNat_lt
  rw [UInt8.ofNat_toNat] at hhi hlo hbyte
  rw [hexByte, List.cons_append, List.cons_append, List.nil_append, decodeDigest, hhi, hlo]
  cases decodeDigest rest with
  | none => rfl
  | some bytes => exact congrArg (fun b => some (b :: bytes)) hbyte

theorem decodeDigest_flatMap (bytes : Bytes) : decodeDigest (bytes.flatMap hexByte) = some bytes := by
  induction bytes with
  | nil => rfl
  | cons b bytes ih => rw [List.flatMap_cons, decodeDigest_hexByte, ih, Option.map_some]

theorem byteLen_flatMap_hexByte (bytes : Bytes) :
    Text.byteLen (bytes.flatMap hexByte) = 2 * bytes.length := by
  have hbyte : ∀ n < 256, Text.byteLen (hexByte (UInt8.ofNat n)) = 2 := by decide +kernel
  induction bytes with
  | nil => rfl
  | cons b bytes ih =>
    have hb := hbyte b.toNat b.toNat_lt
    rw [UInt8.ofNat_toNat] at hb
    rw [List.flatMap_cons, Text.byteLen_append, hb, ih, List.length_cons]
    omega

theorem verifyWebhookSignature_signPayload (hlen : Text.byteLen payload ≤ maxWebhookBodyBytes)
    (hkey : key ≠ []) :
    verifyWebhookSignature hmacSha256 payload
      (signaturePrefix ++ signPayload hmacSha256 key payload) key = true := by
  have hprefix : signaturePrefix.isPrefixOf
      (signaturePrefix ++ signPayload hmacSha256 key payload) = true :=
    List.isPrefixOf_iff_prefix.mpr (List.prefix_append _ _)
  have heven : ¬ Text.byteLen (signPayload hmacSha256 key payload) % 2 ≠ 0 := by
    rw [signPayload, byteLen_flatMap_hexByte]
    omega
  rw [verifyWebhookSignature, if_neg (Nat.not_lt.mpr hlen), if_neg hkey, if_pos hprefix]
  dsimp only
  rw [List.drop_left, if_neg heven, signPayload, decodeDigest_flatMap]
  exact decide_eq_true rfl

end Signatures

end Webhook

end AnchorKit
