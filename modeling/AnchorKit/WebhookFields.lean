import AnchorKit.Library.JsonReading
import AnchorKit.Webhook

/-!
# Fields of a webhook body

The body is searched for its two fields. On a body that is a JSON object the search ends at the
first members, at any depth, that are spelled as the fields; what is read there is compared with
what the object's own members say.
-/

namespace AnchorKit
namespace Webhook

open JsonText

def timestampName : List Char := ['t', 'i', 'm', 'e', 's', 't', 'a', 'm', 'p']

def nonceName : List Char := ['n', 'o', 'n', 'c', 'e']

/-- The digits right behind the colon of the first `timestamp` that is found. -/
def foundTimestamp (doc : ObjectText) : Option UInt64 :=
  (doc.found (nameBytes timestampName)).bind fun f =>
    if f.afterColon = [] then integerPart f.value else none

/-- The next string behind the colon of the first `nonce` that is found. -/
def foundNonce (doc : ObjectText) : Option Bytes :=
  (doc.found (nameBytes nonceName)).bind Found.quoted

/-! ### What is read -/

section Reading

variable {payload : Text} {doc : ObjectText}

theorem plainName_timestamp : PlainName (nameBytes timestampName) :=
  ⟨by decide, by decide, _, rfl, by decide⟩

theorem plainName_nonce : PlainName (nameBytes nonceName) :=
  ⟨by decide, by decide, _, rfl, by decide⟩

theorem isAscii_timestampKey : ∀ c ∈ timestampKey, Text.isAscii c = true := by
  have hall : timestampKey.all Text.isAscii = true := by decide
  simpa using hall

theorem isAscii_nonceKey : ∀ c ∈ nonceKey, Text.isAscii c = true := by
  have hall : nonceKey.all Text.isAscii = true := by decide
  simpa using hall

theorem utf8_timestampKey : Text.utf8 timestampKey = keyOf (nameBytes timestampName) := by decide

theorem utf8_nonceKey : Text.utf8 nonceKey = keyOf (nameBytes nonceName) := by decide

/-- A value starts with a digit only if it is a number without a sign. -/
theorem value_head (v : Value) :
    (∃ k, v = .number k ∧ k.negative = false) ∨
      integerPart v = none ∧ ∃ b rest, v.bytes = b :: rest ∧ ∀ d, b ≠ digitByte d := by
  have hother {b : UInt8} {rest : Bytes} (hv : integerPart v = none) (hbytes : v.bytes = b :: rest)
      (hb : ∀ d, b ≠ digitByte d) : (∃ k, v = .number k ∧ k.negative = false) ∨
        integerPart v = none ∧ ∃ b rest, v.bytes = b :: rest ∧ ∀ d, b ≠ digitByte d :=
    Or.inr ⟨hv, b, rest, hbytes, hb⟩
  cases v with
  | literal l => cases l <;> exact hother rfl rfl (by decide)
  | number k =>
    cases hsign : k.negative with
    | false => exact Or.inl ⟨k, rfl, hsign⟩
    | true =>
      obtain ⟨b, rest, hbytes, ⟨rfl, _⟩ | ⟨_, hunsigned⟩⟩ := number_head k
      · refine hother ?_ hbytes (by decide)
        rw [integerPart, if_neg]
        rw [hsign]
        exact fun h => Bool.noConfusion h.1
      · rw [hsign] at hunsigned
        cases hunsigned
  | string s => exact hother rfl rfl (by decide)
  | emptyArray inner => exact hother rfl rfl (by decide)
  | array elements => exact hother rfl rfl (by decide)
  | emptyObject inner => exact hother rfl rfl (by decide)
  | object members => exact hother rfl rfl (by decide)

theorem takeWhile_isDigit_nil {text : Text} {b : UInt8} {rest : Bytes} (htext : text.utf8 = b :: rest)
    (hb : ∀ d, b ≠ digitByte d) : text.takeWhile Char.isDigit = [] := by
  apply takeWhile_isDigit [] _ htext
  intro c hc
  obtain rfl := Option.some.inj hc
  exact hb

/-- Digits are read at the start of a number without a sign and nowhere else. -/
theorem parseU64_value {text : Text} (ws : List Space) (v : Value) {tail : Bytes}
    (htail : Stops tail) (htext : text.utf8 = spaces ws ++ v.bytes ++ tail) :
    Text.parseU64 (text.takeWhile Char.isDigit) = if ws = [] then integerPart v else none := by
  have hnone : Text.parseU64 [] = none := rfl
  cases ws with
  | cons w ws =>
    have hspace : ∀ d, w.byte ≠ digitByte d := by cases w <;> decide
    rw [if_neg (List.cons_ne_nil w ws), ← hnone]
    exact congrArg _ (takeWhile_isDigit_nil htext hspace)
  | nil =>
    rw [if_pos rfl]
    obtain ⟨k, rfl, hsign⟩ | ⟨hpart, b, rest, hbytes, hb⟩ := value_head v
    · have hdigits : text.utf8 = k.integer.map digitByte ++
          (k.fractionBytes ++ k.exponentBytes ++ tail) := by
        rw [htext]
        simp [Value.bytes, Number.bytes, hsign, spaces]
      have hstops : ∀ b ∈ (k.fractionBytes ++ k.exponentBytes ++ tail).head?, ∀ d,
          b ≠ digitByte d := fun b hb => ne_digitByte (number_tail k htail b hb)
      rw [takeWhile_isDigit k.integer hstops hdigits,
        parseU64_digits k.integer_ne_nil, integerPart]
      simp only [hsign, true_and]
    · rw [hpart, ← hnone]
      have hhead : text.utf8 = b :: (rest ++ tail) := by
        rw [htext, hbytes]
        rfl
      exact congrArg _ (takeWhile_isDigit_nil hhead hb)

theorem timestamp_read (hdoc : payload.utf8 = doc.bytes) :
    ((Text.cutAt timestampKey payload).bind fun parts =>
      Text.parseU64 (parts.2.takeWhile Char.isDigit)) = foundTimestamp doc := by
  have hcut := cutAt_found plainName_timestamp (by decide) isAscii_timestampKey utf8_timestampKey hdoc
  rw [foundTimestamp]
  cases hend : doc.found (nameBytes timestampName) with
  | none =>
    rw [hend] at hcut
    rw [hcut]
    rfl
  | some f =>
    rw [hend] at hcut
    obtain ⟨parts, tail, hparts, htail, _, hbytes⟩ := hcut
    rw [hparts, Option.bind_some, Option.bind_some]
    exact parseU64_value f.afterColon f.value htail hbytes

theorem nonce_read (hdoc : payload.utf8 = doc.bytes) :
    ((Text.cutAt nonceKey payload).bind fun parts => nextQuoted parts.2).map Text.utf8 =
      foundNonce doc := by
  have hquoted (text : Text) :
      (Webhook.nextQuoted text).map Text.utf8 = JsonText.nextQuoted text.utf8 := by
    rw [nextQuoted_utf8, Webhook.nextQuoted]
    cases Text.cutAt ['"'] text with
    | none => rfl
    | some parts =>
      obtain ⟨front, back⟩ := parts
      cases hback : Text.cutAt ['"'] back with
      | none => simp [hback]
      | some parts => simp [hback]
  have hcut := cutAt_found plainName_nonce (by decide) isAscii_nonceKey utf8_nonceKey hdoc
  rw [foundNonce]
  cases hend : doc.found (nameBytes nonceName) with
  | none =>
    rw [hend] at hcut
    rw [hcut]
    rfl
  | some f =>
    rw [hend] at hcut
    obtain ⟨parts, tail, hparts, _, hnext, hbytes⟩ := hcut
    rw [hparts, Option.bind_some, Option.bind_some, hquoted, hbytes, List.append_assoc,
      nextQuoted_append (no_quote_spaces _), Value.nextQuoted_bytes, hnext]

theorem extract_eq_some_iff {ts : UInt64} {nonce : Text} :
    extractTimestampAndNonce payload = some (ts, nonce) ↔
      ((Text.cutAt timestampKey payload).bind fun parts =>
        Text.parseU64 (parts.2.takeWhile Char.isDigit)) = some ts ∧
      ((Text.cutAt nonceKey payload).bind fun parts => nextQuoted parts.2) = some nonce := by
  simp only [extractTimestampAndNonce, Option.bind_eq_bind, Option.bind_eq_some_iff, Option.pure_def,
    Option.some.injEq, Prod.mk.injEq]
  constructor
  · rintro ⟨p, hp, q, hq, _, hts, _, hnonce, rfl, rfl⟩
    exact ⟨⟨p, hp, hts⟩, q, hq, hnonce⟩
  · rintro ⟨⟨p, hp, hts⟩, q, hq, hnonce⟩
    exact ⟨p, hp, q, hq, ts, hts, nonce, hnonce, rfl, rfl⟩

/-- The fields of a body are those found in the document that it spells. -/
theorem extract_eq_some_found (hdoc : payload.utf8 = doc.bytes) {ts : UInt64} {nonce : Text} :
    extractTimestampAndNonce payload = some (ts, nonce) ↔
      foundTimestamp doc = some ts ∧ foundNonce doc = some nonce.utf8 := by
  rw [extract_eq_some_iff, timestamp_read hdoc, ← nonce_read hdoc, Option.map_eq_some_iff]
  refine and_congr_right fun _ => ?_
  constructor
  · intro hnonce
    exact ⟨nonce, hnonce, rfl⟩
  · rintro ⟨nonce', hnonce, hsame⟩
    rw [hnonce, Text.utf8_injective hsame]

end Reading

/-! ### What the object says -/

def IsString (v : Value) (text : Text) : Prop :=
  ∃ s, v = .string s ∧ codePoints s = text.map Char.toNat

/-- The object's own members are such a timestamp and such a nonce. -/
structure States (doc : ObjectText) (ts : UInt64) (nonce : Text) : Prop where
  timestamp : Denotes IsNumber (topLevel doc timestampName) (some ts)
  nonce : Denotes IsString (topLevel doc nonceName) (some nonce)

/-- The body yields the timestamp and the nonce that the object states, and nothing when it does
not state both. -/
def ReadsFields (payload : Text) (doc : ObjectText) : Prop :=
  ∀ ts nonce, extractTimestampAndNonce payload = some (ts, nonce) ↔ States doc ts nonce

/-- Where the object states both fields, the first members found have the digits of the one right
behind the colon and the characters of the other in the next quotes; where it does not, no digits
or no quotes are found. -/
structure SpelledFirst (doc : ObjectText) : Prop where
  stated : ∀ ts nonce, States doc ts nonce →
    foundTimestamp doc = some ts ∧ foundNonce doc = some nonce.utf8
  unstated : (∀ ts nonce, ¬ States doc ts nonce) →
    foundTimestamp doc = none ∨ foundNonce doc = none

section States

variable {doc : ObjectText} {v : Value}

theorem IsString.unique {s t : Text} (h : IsString v s) (h' : IsString v t) : s = t := by
  obtain ⟨items, rfl, hs⟩ := h
  obtain ⟨items', hitems, ht⟩ := h'
  cases hitems
  rw [hs] at ht
  exact List.map_injective_iff.mpr (fun c d heq => Char.toNat_inj.mp heq) ht

theorem States.unique {ts ts' : UInt64} {nonce nonce' : Text} (h : States doc ts nonce)
    (h' : States doc ts' nonce') : ts = ts' ∧ nonce = nonce' :=
  ⟨h.timestamp.unique (fun _ _ _ hn hm => hn.unique hm) h'.timestamp,
    h.nonce.unique (fun _ _ _ hs ht => hs.unique ht) h'.nonce⟩

/-- Fields that are spelled out in the object itself, the one a number right behind its colon and
the other a string without escapes. -/
theorem spelledFirst_of_plain {timestamp nonce : Found} {s : List StringItem} {ts : UInt64}
    {text : Text} (htimestamp : doc.found (nameBytes timestampName) = some timestamp)
    (hspace : timestamp.afterColon = []) (htop : topLevel doc timestampName = [timestamp.value])
    (hnumber : integerPart timestamp.value = some ts ∧ IsNumber timestamp.value ts)
    (hnonce : doc.found (nameBytes nonceName) = some nonce)
    (htop' : topLevel doc nonceName = [.string s])
    (hstring : nonce.quoted = some text.utf8 ∧ codePoints s = text.map Char.toNat) :
    SpelledFirst doc := by
  have hstates : States doc ts text := by
    constructor
    · rw [htop]
      refine ⟨List.cons_ne_nil _ _, fun v hv => ?_⟩
      rw [List.mem_singleton.mp hv]
      exact hnumber.2
    · rw [htop']
      refine ⟨List.cons_ne_nil _ _, fun v hv => ?_⟩
      exact ⟨s, List.mem_singleton.mp hv, hstring.2⟩
  have hfound : foundTimestamp doc = some ts ∧ foundNonce doc = some text.utf8 := by
    rw [foundTimestamp, foundNonce, htimestamp, hnonce]
    exact ⟨(if_pos hspace).trans hnumber.1, hstring.1⟩
  constructor
  · intro ts' nonce' h
    obtain ⟨rfl, rfl⟩ := h.unique hstates
    exact hfound
  · intro hnone
    exact absurd hstates (hnone ts text)

end States

end Webhook

/-- The two fields are read as a JSON object states them exactly when they are spelled first. -/
theorem readsFields_iff {payload : Text} {doc : JsonText.ObjectText}
    (hdoc : payload.utf8 = doc.bytes) :
    Webhook.ReadsFields payload doc ↔ Webhook.SpelledFirst doc := by
  constructor
  · intro h
    constructor
    · intro ts nonce hstates
      exact (Webhook.extract_eq_some_found hdoc).mp ((h ts nonce).mpr hstates)
    · intro hnone
      by_contra hboth
      rw [not_or] at hboth
      obtain ⟨ts, hts⟩ := Option.ne_none_iff_exists'.mp hboth.1
      obtain ⟨bytes, hbytes⟩ := Option.ne_none_iff_exists'.mp hboth.2
      rw [← Webhook.nonce_read hdoc] at hbytes
      obtain ⟨nonce, hnonce, _⟩ := Option.map_eq_some_iff.mp hbytes
      rw [← Webhook.timestamp_read hdoc] at hts
      exact hnone ts nonce ((h ts nonce).mp (Webhook.extract_eq_some_iff.mpr ⟨hts, hnonce⟩))
  · intro h ts nonce
    rw [Webhook.extract_eq_some_found hdoc]
    constructor
    · intro hfound
      by_cases hstated : ∃ ts nonce, Webhook.States doc ts nonce
      · obtain ⟨ts', nonce', hstates⟩ := hstated
        have hfound' := h.stated ts' nonce' hstates
        have hts := Option.some.inj (hfound.1.symm.trans hfound'.1)
        have hnonce := Text.utf8_injective (Option.some.inj (hfound.2.symm.trans hfound'.2))
        rw [hts, hnonce]
        exact hstates
      · rcases h.unstated (fun ts nonce hstates => hstated ⟨ts, nonce, hstates⟩) with hnone | hnone
        · rw [hnone] at hfound
          cases hfound.1
        · rw [hnone] at hfound
          cases hfound.2
    · exact h.stated ts nonce

namespace Demo

open JsonText Webhook

/-- A body with spaces behind the first colon. -/
def webhookDocument (afterColon : List Space) : ObjectText where
  before := []
  body := .object <|
    .more [] (jsonText timestampName) [] afterColon (jsonNumber 5 [0] (by decide)) [] <|
    .last [] (jsonText nonceName) [] [] (.string (jsonText ['n', '1'])) []
  after := []
  isObject := .inr ⟨_, rfl⟩

def spacedBody : Text := "\x7b\"timestamp\": 50,\"nonce\":\"n1\"\x7d".toList

def plainBody : Text := "\x7b\"timestamp\":50,\"nonce\":\"n1\"\x7d".toList

theorem isNumber_timestamp : IsNumber (jsonNumber 5 [0] (by decide)) 50 := by
  refine ⟨_, rfl, ?_⟩
  rw [Number.value_of_integer rfl rfl rfl]
  exact congrArg Nat.cast (by decide)

theorem webhookDocument_states (afterColon : List Space) :
    States (webhookDocument afterColon) 50 ['n', '1'] := by
  constructor
  · refine ⟨List.cons_ne_nil _ _, fun v hv => ?_⟩
    obtain rfl := List.mem_singleton.mp hv
    exact isNumber_timestamp
  · refine ⟨List.cons_ne_nil _ _, fun v hv => ?_⟩
    exact ⟨_, List.mem_singleton.mp hv, by decide⟩

end Demo

open JsonText Webhook

/-- Nothing is read from a body with a space behind the first colon. -/
theorem spaced_timestamp_refused : Demo.spacedBody.utf8 = (Demo.webhookDocument [.space]).bytes ∧
    ¬ ReadsFields Demo.spacedBody (Demo.webhookDocument [.space]) := by
  refine ⟨by decide, fun h => ?_⟩
  have hread := (h 50 ['n', '1']).mpr (Demo.webhookDocument_states [.space])
  exact absurd hread (by decide)

theorem readsFields_plain : ReadsFields Demo.plainBody (Demo.webhookDocument []) := by
  have hdoc : Demo.plainBody.utf8 = (Demo.webhookDocument []).bytes := by decide
  apply (readsFields_iff hdoc).mpr
  apply @spelledFirst_of_plain _ _ _ _ 50 ['n', '1'] rfl rfl rfl ⟨rfl, Demo.isNumber_timestamp⟩
    rfl rfl
  exact ⟨by decide, by decide⟩

end AnchorKit
