import AnchorKit.Library.SelfDelimiting
import AnchorKit.Types

/-!
# Deterministic hashing

The byte strings that are fed to SHA-256: storage keys from length-prefixed segments, attestation
payloads behind a domain tag, and canonical field lists with a type tag and a length in front of
every field. The hash function and the XDR encoding of addresses are the host's.
-/

namespace AnchorKit

open Fallible

/-- A byte string held by the host; its length is a `u32`. -/
structure HostBytes where
  bytes : Bytes
  length_lt : bytes.length < 2 ^ 32
deriving DecidableEq

namespace HostBytes

def empty : HostBytes := ⟨[], by decide⟩

def len (b : HostBytes) : UInt32 := UInt32.ofNat b.bytes.length

theorem toNat_len (b : HostBytes) : b.len.toNat = b.bytes.length := by
  simp only [len, UInt32.toNat_ofNat']
  exact Nat.mod_eq_of_lt b.length_lt

end HostBytes

def beBytes32 (v : UInt32) : Bytes := beBytes 4 v.toNat

def beBytes64 (v : UInt64) : Bytes := beBytes 8 v.toNat

/-- `u32::try_from(n)`. -/
def tryU32 (n : ℕ) : Option UInt32 := if n < 2 ^ 32 then some (UInt32.ofNat n) else none

/-- The bytes `anchorkit_attestation_v1`. -/
def attestationPayloadDomain : Bytes :=
  [0x61, 0x6e, 0x63, 0x68, 0x6f, 0x72, 0x6b, 0x69, 0x74, 0x5f, 0x61, 0x74, 0x74, 0x65, 0x73, 0x74,
    0x61, 0x74, 0x69, 0x6f, 0x6e, 0x5f, 0x76, 0x31]

def maxPayloadSize : UInt32 := 4096

def validatePayloadData (data : HostBytes) : Except Panic Unit :=
  require (data.len ≠ 0 ∧ data.len ≤ maxPayloadSize) (.withError .validationError)

/-- One round of the loop of `make_storage_key`. -/
def writeSegment (input part : Bytes) : Except Panic Bytes := do
  let len ← expect (tryU32 part.length) (.withError .validationError)
  return input ++ beBytes32 len ++ part

def storageKeyInput (parts : List Bytes) : Except Panic Bytes := parts.foldlM writeSegment []

def makeStorageKey (sha256 : Bytes → BytesN 32) (parts : List Bytes) : Except Panic (BytesN 32) := do
  let input ← storageKeyInput parts
  return sha256 input

def payloadInput (toXdr : Address → Bytes) (subject : Address) (timestamp : UInt64)
    (data : HostBytes) : Except Panic Bytes := do
  validatePayloadData data
  return attestationPayloadDomain ++ toXdr subject ++ beBytes64 timestamp ++ data.bytes

def computePayloadHash (sha256 : Bytes → BytesN 32) (toXdr : Address → Bytes) (subject : Address)
    (timestamp : UInt64) (data : HostBytes) : Except Panic (BytesN 32) := do
  let input ← payloadInput toXdr subject timestamp data
  return sha256 input

inductive CanonicalTag
  | bytes
  | u64
  | u32
  | bool
  | optionNone
  | optionSome
  | list
deriving DecidableEq, Repr

def CanonicalTag.toU8 : CanonicalTag → UInt8
  | .bytes => 0
  | .u64 => 1
  | .u32 => 2
  | .bool => 3
  | .optionNone => 4
  | .optionSome => 5
  | .list => 6

inductive CanonicalField
  | bytes (data : HostBytes)
  | u64 (v : UInt64)
  | u32 (v : UInt32)
  | bool (v : Bool)
  | option (data : Option HostBytes)
  | list (items : List HostBytes)
deriving DecidableEq

def writeLengthPrefixed (buf : Bytes) (data : HostBytes) : Bytes :=
  buf ++ beBytes32 data.len ++ data.bytes

/-- One round of the loop of `compute_canonical_hash`. -/
def writeField (input : Bytes) : CanonicalField → Except Panic Bytes
  | .bytes data => return writeLengthPrefixed (input ++ [CanonicalTag.bytes.toU8]) data
  | .u64 v =>
    return writeLengthPrefixed (input ++ [CanonicalTag.u64.toU8]) ⟨beBytes64 v, by simp [beBytes64]⟩
  | .u32 v =>
    return writeLengthPrefixed (input ++ [CanonicalTag.u32.toU8]) ⟨beBytes32 v, by simp [beBytes32]⟩
  | .bool v =>
    return input ++ [CanonicalTag.bool.toU8] ++ beBytes32 1 ++ [if v then 1 else 0]
  | .option none => return input ++ [CanonicalTag.optionNone.toU8]
  | .option (some data) =>
    return writeLengthPrefixed (input ++ [CanonicalTag.optionSome.toU8]) data
  | .list items => do
    let count ← expect (tryU32 items.length) (.withError .validationError)
    return items.foldl writeLengthPrefixed (input ++ [CanonicalTag.list.toU8] ++ beBytes32 count)

def canonicalInput (fields : List CanonicalField) : Except Panic Bytes := fields.foldlM writeField []

def computeCanonicalHash (sha256 : Bytes → BytesN 32) (fields : List CanonicalField) :
    Except Panic (BytesN 32) := do
  let input ← canonicalInput fields
  return sha256 input

/-! ### What the loops append -/

theorem tryU32_eq_some {n : ℕ} {v : UInt32} :
    tryU32 n = some v ↔ n < 2 ^ 32 ∧ UInt32.ofNat n = v := by
  unfold tryU32
  split
  · rename_i h
    rw [Option.some.injEq]
    exact ⟨fun hv => ⟨h, hv⟩, fun hv => hv.2⟩
  · rename_i h
    exact ⟨nofun, fun hv => absurd hv.1 h⟩

/-- A loop whose rounds append to the input appends the whole list. -/
theorem foldlM_eq_ok {α : Type} {write : Bytes → α → Except Panic Bytes} {enc : α → Bytes}
    {S : Set α} (hwrite : ∀ input a out, write input a = .ok out ↔ a ∈ S ∧ out = input ++ enc a)
    {l : List α} {input out : Bytes} :
    l.foldlM write input = .ok out ↔ (∀ a ∈ l, a ∈ S) ∧ out = input ++ l.flatMap enc := by
  induction l generalizing input with
  | nil =>
    rw [List.foldlM_nil, pure_eq_ok, List.flatMap_nil, List.append_nil]
    exact ⟨fun h => ⟨nofun, h.symm⟩, fun h => h.2.symm⟩
  | cons a l ih =>
    simp only [List.foldlM_cons, bind_eq_ok, hwrite, ih, List.forall_mem_cons, List.flatMap_cons]
    constructor
    · rintro ⟨_, ⟨ha, rfl⟩, hl, rfl⟩
      exact ⟨⟨ha, hl⟩, List.append_assoc _ _ _⟩
    · rintro ⟨⟨ha, hl⟩, rfl⟩
      exact ⟨_, ⟨ha, rfl⟩, hl, (List.append_assoc _ _ _).symm⟩

theorem selfDelimiting_beBytes32 : SelfDelimiting Set.univ beBytes32 := by
  intro a _ b _ x y h
  obtain ⟨hab, rfl⟩ := selfDelimiting_beBytes 4 _ a.toNat_lt _ b.toNat_lt _ _ h
  exact ⟨UInt32.toNat_inj.mp hab, rfl⟩

theorem selfDelimiting_beBytes64 : SelfDelimiting Set.univ beBytes64 := by
  intro a _ b _ x y h
  obtain ⟨hab, rfl⟩ := selfDelimiting_beBytes 8 _ a.toNat_lt _ b.toNat_lt _ _ h
  exact ⟨UInt64.toNat_inj.mp hab, rfl⟩

@[simp] theorem length_beBytes32 (v : UInt32) : (beBytes32 v).length = 4 := length_beBytes _ _

@[simp] theorem length_beBytes64 (v : UInt64) : (beBytes64 v).length = 8 := length_beBytes _ _

/-! ### Storage keys -/

def encodeSegment (part : Bytes) : Bytes := beBytes32 (UInt32.ofNat part.length) ++ part

def segments : Set Bytes := {part | part.length < 2 ^ 32}

theorem writeSegment_eq_ok (input part out : Bytes) :
    writeSegment input part = .ok out ↔ part ∈ segments ∧ out = input ++ encodeSegment part := by
  simp only [writeSegment, expect_bind_eq_ok, pure_eq_ok, tryU32_eq_some]
  constructor
  · rintro ⟨_, ⟨hlen, rfl⟩, rfl⟩
    exact ⟨hlen, List.append_assoc _ _ _⟩
  · rintro ⟨hlen, rfl⟩
    exact ⟨_, ⟨hlen, rfl⟩, List.append_assoc _ _ _⟩

theorem storageKeyInput_eq_ok {parts : List Bytes} {out : Bytes} :
    storageKeyInput parts = .ok out ↔
      (∀ part ∈ parts, part ∈ segments) ∧ out = parts.flatMap encodeSegment := by
  rw [storageKeyInput, foldlM_eq_ok writeSegment_eq_ok, List.nil_append]

theorem selfDelimiting_encodeSegment : SelfDelimiting segments encodeSegment := by
  refine .headed (fun part : Bytes => UInt32.ofNat part.length) selfDelimiting_beBytes32
    (fun _ _ => Set.mem_univ _) ?_ (fun _ _ _ _ h => h)
  intro a ha b hb h
  rw [← Word.toNat_ofNat32 ha, h, Word.toNat_ofNat32 hb]

theorem storageKeyInput_injective {parts parts' : List Bytes} {out : Bytes}
    (h : storageKeyInput parts = .ok out) (h' : storageKeyInput parts' = .ok out) :
    parts = parts' := by
  obtain ⟨hparts, rfl⟩ := storageKeyInput_eq_ok.mp h
  obtain ⟨hparts', heq⟩ := storageKeyInput_eq_ok.mp h'
  refine selfDelimiting_encodeSegment.list ?_ hparts hparts' heq
  intro part hnil
  simpa [encodeSegment] using congrArg List.length hnil

/-! ### Attestation payloads -/

theorem payloadInput_eq_ok {toXdr : Address → Bytes} {subject : Address} {timestamp : UInt64}
    {data : HostBytes} {out : Bytes} :
    payloadInput toXdr subject timestamp data = .ok out ↔
      (data.len ≠ 0 ∧ data.len ≤ maxPayloadSize) ∧
      out = attestationPayloadDomain ++ toXdr subject ++ beBytes64 timestamp ++ data.bytes := by
  rw [payloadInput, validatePayloadData, require_bind_eq_ok, pure_eq_ok]
  exact and_congr_right fun _ => eq_comm

theorem payloadInput_injective {toXdr : Address → Bytes} (hxdr : SelfDelimiting Set.univ toXdr)
    {subject subject' : Address} {timestamp timestamp' : UInt64} {data data' : HostBytes}
    {out : Bytes} (h : payloadInput toXdr subject timestamp data = .ok out)
    (h' : payloadInput toXdr subject' timestamp' data' = .ok out) :
    (subject, timestamp, data) = (subject', timestamp', data') := by
  obtain ⟨_, rfl⟩ := payloadInput_eq_ok.mp h
  obtain ⟨_, heq⟩ := payloadInput_eq_ok.mp h'
  simp only [List.append_assoc, List.append_cancel_left_eq] at heq
  obtain ⟨rfl, heq'⟩ := hxdr _ trivial _ trivial _ _ heq
  obtain ⟨rfl, hdata⟩ := selfDelimiting_beBytes64 _ trivial _ trivial _ _ heq'
  cases data
  cases data'
  cases hdata
  rfl

/-! ### Canonical fields -/

def CanonicalField.tag : CanonicalField → CanonicalTag
  | .bytes _ => .bytes
  | .u64 _ => .u64
  | .u32 _ => .u32
  | .bool _ => .bool
  | .option none => .optionNone
  | .option (some _) => .optionSome
  | .list _ => .list

def lengthPrefixed (data : HostBytes) : Bytes := beBytes32 data.len ++ data.bytes

def CanonicalField.content : CanonicalField → Bytes
  | .bytes data => lengthPrefixed data
  | .u64 v => lengthPrefixed ⟨beBytes64 v, by simp⟩
  | .u32 v => lengthPrefixed ⟨beBytes32 v, by simp⟩
  | .bool v => beBytes32 1 ++ [if v then 1 else 0]
  | .option none => []
  | .option (some data) => lengthPrefixed data
  | .list items => beBytes32 (UInt32.ofNat items.length) ++ items.flatMap lengthPrefixed

def encodeField (f : CanonicalField) : Bytes := f.tag.toU8 :: f.content

/-- Only a list may be too long to be written. -/
def encodableFields : Set CanonicalField :=
  {f | ∀ items, f = .list items → items.length < 2 ^ 32}

theorem foldl_writeLengthPrefixed (items : List HostBytes) (buf : Bytes) :
    items.foldl writeLengthPrefixed buf = buf ++ items.flatMap lengthPrefixed := by
  induction items generalizing buf with
  | nil => simp
  | cons item items ih =>
    rw [List.foldl_cons, ih, List.flatMap_cons, writeLengthPrefixed, lengthPrefixed]
    simp only [List.append_assoc]

theorem writeField_eq_ok (input : Bytes) (f : CanonicalField) (out : Bytes) :
    writeField input f = .ok out ↔ f ∈ encodableFields ∧ out = input ++ encodeField f := by
  have hplain {out' : Bytes} (hf : ∀ items, f ≠ .list items)
      (hout : out' = input ++ encodeField f) :
      (pure out' : Except Panic Bytes) = .ok out ↔ f ∈ encodableFields ∧ out = input ++ encodeField f := by
    rw [pure_eq_ok, hout]
    exact ⟨fun h => ⟨fun items hitems => absurd hitems (hf items), h.symm⟩, fun h => h.2.symm⟩
  cases f with
  | bytes data =>
    apply hplain nofun
    simp [writeLengthPrefixed, encodeField, CanonicalField.tag, CanonicalField.content, lengthPrefixed]
  | u64 v =>
    apply hplain nofun
    simp [writeLengthPrefixed, encodeField, CanonicalField.tag, CanonicalField.content, lengthPrefixed]
  | u32 v =>
    apply hplain nofun
    simp [writeLengthPrefixed, encodeField, CanonicalField.tag, CanonicalField.content, lengthPrefixed]
  | bool v =>
    apply hplain nofun
    simp [encodeField, CanonicalField.tag, CanonicalField.content]
  | option data =>
    cases data with
    | none =>
      apply hplain nofun
      simp [encodeField, CanonicalField.tag, CanonicalField.content]
    | some data =>
      apply hplain nofun
      simp [writeLengthPrefixed, encodeField, CanonicalField.tag, CanonicalField.content,
        lengthPrefixed]
  | list items =>
    have hmem : .list items ∈ encodableFields ↔ items.length < 2 ^ 32 :=
      ⟨fun h => h items rfl, fun h items' heq => CanonicalField.list.inj heq ▸ h⟩
    simp only [writeField, expect_bind_eq_ok, pure_eq_ok, tryU32_eq_some, hmem,
      foldl_writeLengthPrefixed]
    constructor
    · rintro ⟨_, ⟨hcount, rfl⟩, rfl⟩
      exact ⟨hcount, by simp [encodeField, CanonicalField.tag, CanonicalField.content]⟩
    · rintro ⟨hcount, rfl⟩
      exact ⟨_, ⟨hcount, rfl⟩, by simp [encodeField, CanonicalField.tag, CanonicalField.content]⟩

theorem canonicalInput_eq_ok {fields : List CanonicalField} {out : Bytes} :
    canonicalInput fields = .ok out ↔
      (∀ f ∈ fields, f ∈ encodableFields) ∧ out = fields.flatMap encodeField := by
  rw [canonicalInput, foldlM_eq_ok writeField_eq_ok, List.nil_append]

theorem CanonicalTag.toU8_injective : Function.Injective CanonicalTag.toU8 := by
  intro a b h
  cases a <;> cases b <;> first | rfl | cases h

theorem selfDelimiting_lengthPrefixed : SelfDelimiting Set.univ lengthPrefixed := by
  refine .headed HostBytes.len selfDelimiting_beBytes32 (fun _ _ => trivial) ?_ ?_
  · intro a _ b _ h
    rw [← a.toNat_len, h, b.toNat_len]
  · intro a _ b _ h
    cases a
    cases b
    cases h
    rfl

theorem selfDelimiting_encodeField : SelfDelimiting encodableFields encodeField := by
  intro f hf g hg x y h
  obtain ⟨htag, hrest⟩ := List.cons.inj h
  have htag := CanonicalTag.toU8_injective htag
  -- equal tags leave the seven pairs of fields of one kind
  rcases f with data | v | v | v | (_ | data) | items <;>
    rcases g with data' | v' | v' | v' | (_ | data') | items' <;> cases htag
  case bytes.bytes =>
    obtain ⟨rfl, rfl⟩ := selfDelimiting_lengthPrefixed _ trivial _ trivial _ _ hrest
    exact ⟨rfl, rfl⟩
  case u64.u64 =>
    obtain ⟨hv, rfl⟩ := selfDelimiting_lengthPrefixed _ trivial _ trivial _ _ hrest
    rw [selfDelimiting_beBytes64.injective trivial trivial (HostBytes.mk.inj hv)]
    exact ⟨rfl, rfl⟩
  case u32.u32 =>
    obtain ⟨hv, rfl⟩ := selfDelimiting_lengthPrefixed _ trivial _ trivial _ _ hrest
    rw [selfDelimiting_beBytes32.injective trivial trivial (HostBytes.mk.inj hv)]
    exact ⟨rfl, rfl⟩
  case bool.bool =>
    obtain ⟨hbyte, rfl⟩ := List.append_inj hrest rfl
    have hv : v = v' := by
      cases v <;> cases v' <;> first | rfl | simp [CanonicalField.content] at hbyte
    exact ⟨by rw [hv], rfl⟩
  case option.none.option.none => exact ⟨rfl, hrest⟩
  case option.some.option.some =>
    obtain ⟨rfl, rfl⟩ := selfDelimiting_lengthPrefixed _ trivial _ trivial _ _ hrest
    exact ⟨rfl, rfl⟩
  case list.list =>
    simp only [CanonicalField.content] at hrest
    obtain ⟨hcount, hitems⟩ := selfDelimiting_beBytes32 _ trivial _ trivial _ _ hrest
    have hlength : items.length = items'.length := by
      rw [← Word.toNat_ofNat32 (hf items rfl), hcount, Word.toNat_ofNat32 (hg items' rfl)]
    obtain ⟨rfl, rfl⟩ := selfDelimiting_lengthPrefixed.counted (fun _ _ => trivial)
      (fun _ _ => trivial) hlength hitems
    exact ⟨rfl, rfl⟩

theorem canonicalInput_injective {fields fields' : List CanonicalField} {out : Bytes}
    (h : canonicalInput fields = .ok out) (h' : canonicalInput fields' = .ok out) :
    fields = fields' := by
  obtain ⟨hfields, rfl⟩ := canonicalInput_eq_ok.mp h
  obtain ⟨hfields', heq⟩ := canonicalInput_eq_ok.mp h'
  exact selfDelimiting_encodeField.list (fun _ => List.cons_ne_nil _ _) hfields hfields' heq

/-! ### Separation of the three inputs -/

theorem payloadInput_ne_canonicalInput {toXdr : Address → Bytes} {subject : Address}
    {timestamp : UInt64} {data : HostBytes} {out : Bytes}
    (h : payloadInput toXdr subject timestamp data = .ok out) (fields : List CanonicalField) :
    canonicalInput fields ≠ .ok out := by
  intro h'
  obtain ⟨_, rfl⟩ := payloadInput_eq_ok.mp h
  obtain ⟨_, heq⟩ := canonicalInput_eq_ok.mp h'
  cases fields with
  | nil => cases heq
  | cons f fields =>
    obtain ⟨htag, _⟩ := List.cons.inj heq
    generalize f.tag = tag at htag
    cases tag <;> cases htag

/-- The length of the first segment that would start an attestation is that of a segment longer
than any attestation. -/
theorem payloadInput_ne_storageKeyInput {toXdr : Address → Bytes} {subject : Address}
    {timestamp : UInt64} {data : HostBytes} {out : Bytes}
    (hxdr : (toXdr subject).length ≤ 64)
    (h : payloadInput toXdr subject timestamp data = .ok out) (parts : List Bytes) :
    storageKeyInput parts ≠ .ok out := by
  intro h'
  obtain ⟨⟨_, hsize⟩, rfl⟩ := payloadInput_eq_ok.mp h
  obtain ⟨hparts, heq⟩ := storageKeyInput_eq_ok.mp h'
  cases parts with
  | nil => cases heq
  | cons part parts =>
    have hpart := hparts part List.mem_cons_self
    have hprefix : beBytes32 (UInt32.ofNat part.length) = beBytes32 0x616e6368 := by
      have hdomain : attestationPayloadDomain =
          beBytes32 0x616e6368 ++ attestationPayloadDomain.drop 4 := rfl
      rw [List.flatMap_cons, encodeSegment, hdomain] at heq
      simp only [List.append_assoc] at heq
      exact (List.append_inj heq.symm (by simp)).1
    have hlength : part.length = 0x616e6368 := by
      rw [← Word.toNat_ofNat32 hpart, selfDelimiting_beBytes32.injective trivial trivial hprefix]
      rfl
    have htotal := congrArg List.length heq
    simp only [List.flatMap_cons, encodeSegment, List.length_append, length_beBytes32,
      length_beBytes64, hlength] at htotal
    rw [UInt32.le_iff_toNat_le, data.toNat_len] at hsize
    have hdomain : attestationPayloadDomain.length = 24 := rfl
    have hmax : maxPayloadSize.toNat = 4096 := rfl
    omega

/-- Each of the three inputs determines what it was made from, and an attestation payload is
neither a canonical field list nor a storage key. -/
theorem hash_inputs_separated (toXdr : Address → Bytes) (hxdr : SelfDelimiting Set.univ toXdr) :
    (∀ fields fields' out, canonicalInput fields = .ok out → canonicalInput fields' = .ok out →
      fields = fields') ∧
    (∀ parts parts' out, storageKeyInput parts = .ok out → storageKeyInput parts' = .ok out →
      parts = parts') ∧
    (∀ subject subject' timestamp timestamp' data data' out,
      payloadInput toXdr subject timestamp data = .ok out →
      payloadInput toXdr subject' timestamp' data' = .ok out →
      (subject, timestamp, data) = (subject', timestamp', data')) ∧
    ∀ subject timestamp data out, payloadInput toXdr subject timestamp data = .ok out →
      (∀ fields, canonicalInput fields ≠ .ok out) ∧
      ((toXdr subject).length ≤ 64 → ∀ parts, storageKeyInput parts ≠ .ok out) :=
  ⟨fun _ _ _ => canonicalInput_injective, fun _ _ _ => storageKeyInput_injective,
    fun _ _ _ _ _ _ _ => payloadInput_injective hxdr,
    fun _ _ _ _ h => ⟨payloadInput_ne_canonicalInput h,
      fun hlength => payloadInput_ne_storageKeyInput hlength h⟩⟩

namespace Demo

def zeroAccount : Address := ⟨"GAAAAAAAAAAAAAAAAAAAAAAAAAAAAAAAAAAAAAAAAAAAAAAAAAAAAWHF"⟩

def kycApproved : HostBytes := ⟨"kyc_approved".toList.map fun c => c.toNat.toUInt8, by decide⟩

def spell : List Char → Bytes
  | [] => [0]
  | c :: l => 1 :: (beBytes 4 c.toNat ++ spell l)

/-- The XDR of `zeroAccount` as the host writes it; a spelled-out text for every other address. -/
def toXdr (a : Address) : Bytes :=
  if a = zeroAccount then beBytes 4 18 ++ beBytes 4 0 ++ beBytes 4 0 ++ List.replicate 32 0
  else 1 :: spell a.strkey.toList

theorem selfDelimiting_spell : SelfDelimiting Set.univ spell := by
  intro l _ m _ x y h
  induction l generalizing m with
  | nil =>
    cases m with
    | nil => exact ⟨rfl, (List.cons.inj h).2⟩
    | cons c m => cases (List.cons.inj h).1
  | cons c l ih =>
    cases m with
    | nil => cases (List.cons.inj h).1
    | cons c' m =>
      have hrest : beBytes 4 c.toNat ++ (spell l ++ x) = beBytes 4 c'.toNat ++ (spell m ++ y) := by
        simpa [spell] using h
      have hsmall (c : Char) : c.toNat < 256 ^ 4 := c.val.toNat_lt
      obtain ⟨hc, hlm⟩ := selfDelimiting_beBytes 4 _ (hsmall c) _ (hsmall c') _ _ hrest
      obtain ⟨rfl, rfl⟩ := ih trivial m trivial hlm
      rw [Char.toNat_inj.mp hc]
      exact ⟨rfl, rfl⟩

theorem selfDelimiting_toXdr : SelfDelimiting Set.univ toXdr := by
  intro a _ b _ x y h
  unfold toXdr at h
  split at h <;> split at h
  · rename_i ha hb
    exact ⟨ha.trans hb.symm, List.append_cancel_left h⟩
  · cases (List.cons.inj h).1
  · cases (List.cons.inj h).1
  · obtain ⟨htext, rfl⟩ := selfDelimiting_spell _ trivial _ trivial _ _ (List.cons.inj h).2
    exact ⟨congrArg Address.mk (String.toList_inj.mp htext), rfl⟩

end Demo

theorem hash_inputs_separated_of_zero_account : ¬ ∃ parts,
    storageKeyInput parts = payloadInput Demo.toXdr Demo.zeroAccount 5 Demo.kycApproved := by
  have hinput := hash_inputs_separated Demo.toXdr Demo.selfDelimiting_toXdr
  have hseparated := hinput.2.2.2 Demo.zeroAccount 5 Demo.kycApproved _ rfl
  rintro ⟨parts, hparts⟩
  exact hseparated.2 (by decide) parts hparts

/-- Nothing tells a field list from a storage key: no fields from no segments, four empty byte
fields from five empty segments. -/
theorem canonical_and_storage_inputs_meet :
    (canonicalInput [] = .ok [] ∧ storageKeyInput [] = .ok []) ∧
      canonicalInput (List.replicate 4 (.bytes .empty)) = .ok (List.replicate 20 0) ∧
      storageKeyInput (List.replicate 5 []) = .ok (List.replicate 20 0) :=
  ⟨⟨rfl, rfl⟩, rfl, rfl⟩

end AnchorKit
