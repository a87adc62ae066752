import AnchorKit.Library.JsonReading
import AnchorKit.Sep10Rejections

/-!
# Claims of a JSON payload

The scanners on payloads that are well-formed JSON objects: which member they end up at, what they
read there, and when this is what the object's own members say.
-/

namespace AnchorKit
namespace Sep10Jwt

open JsonText Fallible Procedure

/-! ### Finding the value -/

theorem claimKey_eq (name : List Char) : claimKey name = keyOf (nameBytes name) := rfl

theorem afterFirst_eq (key text : Bytes) :
    afterFirst key text = (findFrom key text).map fun pos => text.drop (pos + key.length) := by
  induction text with
  | nil => rfl
  | cons b text ih =>
    rw [afterFirst, findFrom]
    split
    · rw [Option.map_some, Nat.zero_add]
    · rw [ih, Option.map_map]
      congr 1
      funext pos
      rw [Function.comp_apply, Nat.add_right_comm, List.drop_succ_cons]

theorem claimValue_eq (payload : Bytes) (name : List Char) : claimValue payload name =
    (afterFirst (keyOf (nameBytes name)) payload).map (List.dropWhile isAsciiWhitespace) := by
  have hkey : claimKey name ≠ [] := List.cons_ne_nil _ _
  rw [claimValue, findBytes, if_neg hkey, afterFirst_eq, ← claimKey_eq]
  cases findFrom (claimKey name) payload <;> rfl

theorem dropWhile_spaces (ws : List Space) (rest : Bytes) :
    (spaces ws ++ rest).dropWhile isAsciiWhitespace = rest.dropWhile isAsciiWhitespace := by
  induction ws with
  | nil => rfl
  | cons w ws ih =>
    have hw : isAsciiWhitespace w.byte = true := by cases w <;> decide
    rw [← ih]
    exact List.dropWhile_cons_of_pos hw

theorem digitByte_isAsciiDigit : ∀ d : Fin 10, isAsciiDigit (digitByte d) = true := by decide

theorem digitByte_not_whitespace : ∀ d : Fin 10, isAsciiWhitespace (digitByte d) = false := by
  decide

theorem dropWhile_value (v : Value) (rest : Bytes) :
    (v.bytes ++ rest).dropWhile isAsciiWhitespace = v.bytes ++ rest := by
  have hcons {b : UInt8} {text : Bytes} (h : v.bytes = b :: text)
      (hb : isAsciiWhitespace b = false) :
      (v.bytes ++ rest).dropWhile isAsciiWhitespace = v.bytes ++ rest := by
    rw [h, List.cons_append, List.dropWhile_cons_of_neg (by rw [hb]; exact Bool.false_ne_true)]
  cases v with
  | literal l => cases l <;> exact hcons rfl (by decide)
  | number k =>
    obtain ⟨b, text, htext, ⟨rfl, _⟩ | ⟨⟨d, rfl⟩, _⟩⟩ := number_head k
    · exact hcons htext (by decide)
    · exact hcons htext (digitByte_not_whitespace d)
  | string s => exact hcons rfl (by decide)
  | emptyArray inner => exact hcons rfl (by decide)
  | array elements => exact hcons rfl (by decide)
  | emptyObject inner => exact hcons rfl (by decide)
  | object members => exact hcons rfl (by decide)

theorem claimValue_objectText {name : List Char} (hname : PlainName (nameBytes name))
    (doc : ObjectText) :
    (firstSpelled doc name = none ∧ claimValue doc.bytes name = none) ∨
      ∃ v tail, firstSpelled doc name = some v ∧ Stops tail ∧
        claimValue doc.bytes name = some (v.bytes ++ tail) := by
  have hfound := afterFirst_found hname doc
  rw [claimValue_eq, head?_spelled]
  cases hend : doc.found (nameBytes name) with
  | none =>
    rw [hend] at hfound
    exact .inl ⟨rfl, by rw [hfound]; rfl⟩
  | some f =>
    rw [hend] at hfound
    obtain ⟨tail, htail, _, hfound⟩ := hfound
    refine .inr ⟨f.value, tail, rfl, htail, ?_⟩
    rw [hfound, Option.map_some, List.append_assoc, dropWhile_spaces, dropWhile_value]

/-! ### Reading a number -/

theorem digitsLoop_stop {n : UInt64} {any : Bool} {rest : Bytes}
    (hrest : ∀ b, rest.head? = some b → isAsciiDigit b = false) :
    digitsLoop n any rest = some (n, any) := by
  cases rest with
  | nil => rfl
  | cons b rest =>
    rw [digitsLoop, hrest b rfl]
    rfl

theorem digitByte_value : ∀ d : Fin 10, (digitByte d - 0x30).toUInt64.toNat = d := by decide

/-- The loop over a run of digits: an intermediate value overflows only if the last one does. -/
theorem digitsLoop_digits {rest : Bytes}
    (hrest : ∀ b, rest.head? = some b → isAsciiDigit b = false) (ds : List (Fin 10))
    {n m : UInt64} {any any' : Bool} :
    digitsLoop n any (ds.map digitByte ++ rest) = some (m, any') ↔
      ds.foldl appendDigit n.toNat = m.toNat ∧ (any || !ds.isEmpty) = any' := by
  induction ds generalizing n any with
  | nil =>
    rw [List.map_nil, List.nil_append, digitsLoop_stop hrest]
    simp [UInt64.toNat_inj]
  | cons d ds ih =>
    have hm := m.toNat_lt
    have hten : (10 : UInt64).toNat = 10 := rfl
    rw [List.map_cons, List.cons_append, digitsLoop, if_pos (digitByte_isAsciiDigit d)]
    simp only [Option.bind_eq_bind, Option.bind_eq_some_iff, Word.checkedMul64_eq_some,
      Word.checkedAdd64_eq_some, ih, digitByte_value, hten, List.foldl_cons, appendDigit]
    constructor
    · rintro ⟨x, hx, y, hy, hfold, hany⟩
      rw [show 10 * n.toNat + d = y.toNat by omega]
      exact ⟨hfold, by simpa using hany⟩
    · rintro ⟨hfold, hany⟩
      have hle := le_foldl_appendDigit ds (10 * n.toNat + d)
      rw [hfold] at hle
      have hx : 10 * n.toNat < 2 ^ 64 := by omega
      have hy : 10 * n.toNat + d < 2 ^ 64 := by omega
      refine ⟨UInt64.ofNat (10 * n.toNat), ?_, UInt64.ofNat (10 * n.toNat + d), ?_, ?_⟩
      · rw [Word.toNat_ofNat64 hx, Nat.mul_comm]
      · rw [Word.toNat_ofNat64 hx, Word.toNat_ofNat64 hy]
      · rw [Word.toNat_ofNat64 hy]
        exact ⟨hfold, by simpa using hany⟩

theorem isAsciiDigit_eq_false {b : UInt8} (h : b < 0x30 ∨ 0x39 < b) : isAsciiDigit b = false := by
  rw [isAsciiDigit, Bool.and_eq_false_iff, decide_eq_false_iff_not, decide_eq_false_iff_not,
    UInt8.not_le, UInt8.not_le]
  exact h

theorem digitsLoop_value (v : Value) {tail : Bytes} (htail : Stops tail) :
    (digitsLoop 0 false (v.bytes ++ tail)).bind
      (fun r => if r.2 then some r.1 else none) = integerPart v := by
  -- a text that does not start with a digit
  have hnone {b : UInt8} {text : Bytes} (h : v.bytes = b :: text) (hb : isAsciiDigit b = false) :
      (digitsLoop 0 false (v.bytes ++ tail)).bind
        (fun r => if r.2 then some r.1 else none) = none := by
    rw [h, List.cons_append, digitsLoop_stop]
    · rfl
    · intro c hc
      obtain rfl := Option.some.inj hc
      exact hb
  cases v with
  | literal l => cases l <;> exact hnone rfl (by decide)
  | number k =>
    cases hsign : k.negative with
    | true =>
      obtain ⟨b, text, htext, ⟨rfl, _⟩ | ⟨_, hunsigned⟩⟩ := number_head k
      · rw [hnone htext (by decide), integerPart, if_neg]
        rw [hsign]
        exact fun h => Bool.noConfusion h.1
      · rw [hsign] at hunsigned
        cases hunsigned
    | false =>
      have hbytes : k.bytes ++ tail = k.integer.map digitByte ++
          (k.fractionBytes ++ k.exponentBytes ++ tail) := by
        simp [Number.bytes, hsign]
      have hnonempty : k.integer.isEmpty = false := List.isEmpty_eq_false_iff.mpr k.integer_ne_nil
      have hstops (b : UInt8) (hb : (k.fractionBytes ++ k.exponentBytes ++ tail).head? = some b) :
          isAsciiDigit b = false := isAsciiDigit_eq_false (number_tail k htail b hb)
      apply Option.ext
      intro n
      rw [Value.bytes, hbytes, integerPart_number, Option.bind_eq_some_iff, and_iff_right hsign]
      simp only [Prod.exists, digitsLoop_digits hstops, UInt64.toNat_zero, hnonempty]
      constructor
      · rintro ⟨m, any, ⟨hvalue, rfl⟩, hn⟩
        obtain rfl := Option.some.inj hn
        exact hvalue
      · intro hvalue
        exact ⟨n, true, ⟨hvalue, rfl⟩, rfl⟩
  | string s => exact hnone rfl (by decide)
  | emptyArray inner => exact hnone rfl (by decide)
  | array elements => exact hnone rfl (by decide)
  | emptyObject inner => exact hnone rfl (by decide)
  | object members => exact hnone rfl (by decide)

theorem parseJsonNumber_objectText {name : List Char} (hname : PlainName (nameBytes name))
    (doc : ObjectText) :
    parseJsonNumber name doc.bytes = (firstSpelled doc name).bind integerPart := by
  rw [parseJsonNumber]
  obtain ⟨hnone, hvalue⟩ | ⟨v, tail, hfirst, htail, hvalue⟩ := claimValue_objectText hname doc
  · rw [hnone, hvalue]
    rfl
  · rw [hfirst, hvalue, Option.bind_some, ← digitsLoop_value v htail]
    rfl

/-! ### Reading a text -/

theorem textScan_value (v : Value) (tail : Bytes) :
    (match v.bytes ++ tail with
      | [] => none
      | q :: rest =>
        if q = 0x22 ∧ 0x22 ∈ rest then some (rest.takeWhile (· ≠ 0x22)) else none) =
      plainText v := by
  have hnone {b : UInt8} {text : Bytes} (h : v.bytes = b :: text) (hb : b ≠ 0x22) :
      (match v.bytes ++ tail with
        | [] => none
        | q :: rest =>
          if q = 0x22 ∧ 0x22 ∈ rest then some (rest.takeWhile (· ≠ 0x22)) else none) = none := by
    rw [h]
    exact if_neg fun hquote => hb hquote.1
  cases v with
  | literal l => cases l <;> exact hnone rfl (by decide)
  | number k =>
    have hdigit : ∀ d : Fin 10, digitByte d ≠ 0x22 := by decide
    obtain ⟨b, text, htext, ⟨rfl, _⟩ | ⟨⟨d, rfl⟩, _⟩⟩ := number_head k
    · exact hnone htext (by decide)
    · exact hnone htext (hdigit d)
  | string s =>
    have hbytes : quoted s ++ tail = 0x22 :: (rawText s ++ 0x22 :: tail) := by
      simp [quoted]
    have hquote : 0x22 ∈ rawText s ++ 0x22 :: tail := by simp
    rw [Value.bytes, hbytes]
    dsimp only
    rw [if_pos ⟨rfl, hquote⟩, takeWhile_to_quote]
    rfl
  | emptyArray inner => exact hnone rfl (by decide)
  | array elements => exact hnone rfl (by decide)
  | emptyObject inner => exact hnone rfl (by decide)
  | object members => exact hnone rfl (by decide)

theorem parseJsonText_objectText {name : List Char} (hname : PlainName (nameBytes name))
    (doc : ObjectText) :
    parseJsonText name doc.bytes = (firstSpelled doc name).bind plainText := by
  rw [parseJsonText]
  obtain ⟨hnone, hvalue⟩ | ⟨v, tail, hfirst, htail, hvalue⟩ := claimValue_objectText hname doc
  · rw [hnone, hvalue]
    rfl
  · rw [hfirst, hvalue, Option.bind_some, ← textScan_value v tail]
    rfl

/-! ### What the object says -/

/-- Every claim that was used is what the object's own members of its name say. -/
structure Claims.FromTopLevel (c : Claims) (doc : ObjectText) : Prop where
  exp : Denotes IsNumber (topLevel doc ['e', 'x', 'p']) (some c.exp)
  iat : Denotes IsNumber (topLevel doc ['i', 'a', 't']) (some c.iat)
  nbf : Denotes IsNumber (topLevel doc ['n', 'b', 'f']) c.nbf
  jti : Denotes IsText (topLevel doc ['j', 't', 'i']) c.jti
  iss : Denotes IsText (topLevel doc ['i', 's', 's']) (some c.iss)
  sub : Denotes IsText (topLevel doc ['s', 'u', 'b']) (some c.sub)

def numberNames : List (List Char) := [['e', 'x', 'p'], ['i', 'a', 't'], ['n', 'b', 'f']]

def textNames : List (List Char) := [['j', 't', 'i'], ['i', 's', 's'], ['s', 'u', 'b']]

/-- For every claim, the first member that is spelled as it says plainly what the object's own
members of that name say. -/
structure SpelledPlainly (doc : ObjectText) : Prop where
  numbers : ∀ name ∈ numberNames,
    Denotes IsNumber (topLevel doc name) ((firstSpelled doc name).bind integerPart)
  texts : ∀ name ∈ textNames,
    Denotes IsText (topLevel doc name) ((firstSpelled doc name).bind plainText)

theorem plainName_claim {name : List Char} (h : name ∈ numberNames ++ textNames) :
    PlainName (nameBytes name) := by
  simp only [numberNames, textNames, List.cons_append, List.nil_append, List.mem_cons,
    List.not_mem_nil, or_false] at h
  obtain rfl | rfl | rfl | rfl | rfl | rfl := h <;>
    exact ⟨by decide, by decide, _, rfl, by decide⟩

theorem spelledPlainly_iff {doc : ObjectText} : SpelledPlainly doc ↔
    (∀ name ∈ numberNames, Denotes IsNumber (topLevel doc name) (parseJsonNumber name doc.bytes)) ∧
      ∀ name ∈ textNames, Denotes IsText (topLevel doc name) (parseJsonText name doc.bytes) := by
  have hnumber (name : List Char) (h : name ∈ numberNames) :=
    parseJsonNumber_objectText (plainName_claim (List.mem_append_left _ h)) doc
  have htext (name : List Char) (h : name ∈ textNames) :=
    parseJsonText_objectText (plainName_claim (List.mem_append_right _ h)) doc
  constructor
  · intro h
    exact ⟨fun name hname => hnumber name hname ▸ h.numbers name hname,
      fun name hname => htext name hname ▸ h.texts name hname⟩
  · rintro ⟨hnumbers, htexts⟩
    exact ⟨fun name hname => hnumber name hname ▸ hnumbers name hname,
      fun name hname => htext name hname ▸ htexts name hname⟩

theorem fromTopLevel_iff {doc : ObjectText} {c : Claims} (hclaims : readClaims doc.bytes = some c) :
    c.FromTopLevel doc ↔ SpelledPlainly doc := by
  obtain ⟨hexp, hiat, hiss, hsub, hnbf, hjti⟩ := readClaims_eq_some.mp hclaims
  rw [parseJsonExp] at hexp
  rw [parseJsonIat] at hiat
  rw [parseJsonIss] at hiss
  rw [parseJsonSub] at hsub
  rw [parseJsonNbf] at hnbf
  rw [parseJsonJti] at hjti
  rw [spelledPlainly_iff]
  simp only [numberNames, textNames, List.forall_mem_cons, hexp, hiat, hnbf, hjti, hiss, hsub]
  constructor
  · intro h
    exact ⟨⟨h.exp, h.iat, h.nbf, nofun⟩, h.jti, h.iss, h.sub, nofun⟩
  · rintro ⟨⟨hexp, hiat, hnbf, _⟩, hjti, hiss, hsub, _⟩
    exact ⟨hexp, hiat, hnbf, hjti, hiss, hsub⟩

/-- Members that are spelled out, at most once and nowhere but in the object itself, with a number
or a text that is read as what it is. -/
theorem spelledPlainly_of_plain {doc : ObjectText}
    (hspelled : ∀ name ∈ numberNames ++ textNames,
      doc.body.spelled (nameBytes name) = topLevel doc name ∧ (topLevel doc name).length ≤ 1)
    (hnumbers : ∀ name ∈ numberNames, ∀ v ∈ topLevel doc name,
      ∃ n, integerPart v = some n ∧ IsNumber v n)
    (htexts : ∀ name ∈ textNames, ∀ v ∈ topLevel doc name,
      ∃ text, plainText v = some text ∧ IsText v text) : SpelledPlainly doc := by
  have hdenotes {α : Type} {Stands : Value → α → Prop} {reading : Value → Option α}
      {name : List Char} (hmem : name ∈ numberNames ++ textNames)
      (hread : ∀ v ∈ topLevel doc name, ∃ a, reading v = some a ∧ Stands v a) :
      Denotes Stands (topLevel doc name) ((firstSpelled doc name).bind reading) := by
    obtain ⟨hsame, hlength⟩ := hspelled name hmem
    rw [firstSpelled, hsame]
    cases hvalues : topLevel doc name with
    | nil => exact Eq.refl []
    | cons v vs =>
      rw [hvalues] at hlength hread
      obtain rfl : vs = [] := List.length_eq_zero_iff.mp (by simpa using hlength)
      obtain ⟨a, ha, hstands⟩ := hread v List.mem_cons_self
      rw [List.head?_cons, Option.bind_some, ha]
      refine ⟨List.cons_ne_nil _ _, fun w hw => ?_⟩
      obtain rfl := List.mem_singleton.mp hw
      exact hstands
  exact ⟨fun name hname => hdenotes (List.mem_append_left _ hname) (hnumbers name hname),
    fun name hname => hdenotes (List.mem_append_right _ hname) (htexts name hname)⟩

/-- A token whose payload is a JSON object is accepted for the claims its members state exactly when
those are spelled plainly. -/
theorem claims_fromTopLevel_iff {host : Host} {env : Env} {st st' : Sep10Store}
    {token anchorPublicKey : Bytes} {expectedSub : Option String} {doc : ObjectText}
    (hsigned : SignedPayload host st token anchorPublicKey doc.bytes)
    (haccepted : Returns (verifySep10Jwt host env token anchorPublicKey expectedSub) st () st') :
    (∃ c, readClaims doc.bytes = some c ∧ c.Accepted env st expectedSub ∧ c.commit env st = st' ∧
      c.FromTopLevel doc) ↔ SpelledPlainly doc := by
  obtain ⟨payload, c, hpayload, hclaims, hc, hcommit⟩ := returns_verifySep10Jwt.mp haccepted
  obtain rfl := hpayload.unique hsigned
  constructor
  · rintro ⟨c', hclaims', _, _, htop⟩
    exact (fromTopLevel_iff hclaims').mp htop
  · intro h
    exact ⟨c, hclaims, hc, hcommit, (fromTopLevel_iff hclaims).mpr h⟩

end Sep10Jwt

namespace Demo

open JsonText

/-- The payload of `sep10Token`. -/
def plainPayload : ObjectText where
  before := []
  body := .object <|
    jsonMember ['e', 'x', 'p'] (jsonNumber 1 [0, 6, 0] (by decide)) <|
    jsonMember ['i', 'a', 't'] (jsonNumber 1 [0, 0, 0] (by decide)) <|
    jsonMember ['j', 't', 'i'] (.string (jsonText ['n', '1'])) <|
    jsonMember ['i', 's', 's'] (.string (jsonText ['a'])) <|
    .last [] (jsonText ['s', 'u', 'b']) [] [] (.string (jsonText ['b'])) []
  after := []
  isObject := .inr ⟨_, rfl⟩

/-- A payload with an `nbf` far in the future, and a space before its colon. -/
def spacedPayload : ObjectText where
  before := []
  body := .object <|
    jsonMember ['e', 'x', 'p'] (jsonNumber 1 [0, 6, 0] (by decide)) <|
    jsonMember ['i', 'a', 't'] (jsonNumber 1 [0, 0, 0] (by decide)) <|
    .more [] (jsonText ['n', 'b', 'f']) [.space] [] (jsonNumber 9 (List.replicate 10 9) (by decide))
      [] <|
    jsonMember ['i', 's', 's'] (.string (jsonText ['a'])) <|
    .last [] (jsonText ['s', 'u', 'b']) [] [] (.string (jsonText ['b'])) []
  after := []
  isObject := .inr ⟨_, rfl⟩

def spacedToken : Bytes :=
  ("eyJhbGciOiJFZERTQSJ9." ++
    "eyJleHAiOjEwNjAsImlhdCI6MTAwMCwibmJmIiA6OTk5OTk5OTk5OTksImlzcyI6ImEiLCJzdWIiOiJiIn0." ++
    "AAAAAAAAAAAAAAAAAAAAAAAAAAAAAAAAAAAAAAAAAAAAAAAAAAAAAAAAAAAAAAAAAAAAAAAAAAAAAAAAAAAAAA"
    ).toUTF8.toList

/-- The token has the header and the signature of `sep10Token`, and the payload. -/
def CompactOf (d1 : ℕ) (token payload : Bytes) : Prop :=
  token.length ≤ 2048 ∧ 21 < d1 ∧ d1 + 1 < token.length ∧ Sep10Jwt.dots token = [20, d1] ∧
    token.take 20 = sep10Token.take 20 ∧ token.drop (d1 + 1) = sep10Token.drop 94 ∧
    Sep10Jwt.base64urlDecode ((token.take d1).drop 21) = some payload

instance (d1 : ℕ) (token payload : Bytes) : Decidable (CompactOf d1 token payload) :=
  inferInstanceAs (Decidable (_ ∧ _))

theorem CompactOf.signedPayload {d1 : ℕ} {token payload : Bytes} (h : CompactOf d1 token payload) :
    Sep10Jwt.SignedPayload trustingHost sep10Store token (List.replicate 32 0) payload := by
  obtain ⟨hlength, hd1, hend, hdots, hheader, hsig, hpayload⟩ := h
  have hnonempty : token ≠ [] := by
    rintro rfl
    exact absurd hend (by simp)
  refine ⟨rfl, hnonempty, hlength, 20, d1, hdots, by decide, hd1, hend, ?_, ?_, hpayload⟩
  · rw [hheader]
    exact ⟨[0x7B, 0x22, 0x61, 0x6C, 0x67, 0x22, 0x3A, 0x22, 0x45, 0x64, 0x44, 0x53, 0x41, 0x22, 0x7D],
      by decide +kernel, by decide +kernel⟩
  · rw [hsig]
    exact ⟨List.replicate 64 0, ⟨_, rfl⟩, ⟨_, rfl⟩, by decide +kernel, rfl, rfl, rfl⟩

theorem jsonText_reads {cs : List Char} (text : Bytes)
    (hpoints : codePoints (jsonText cs) = cs.map Char.toNat)
    (hread : (rawText (jsonText cs)).takeWhile (· ≠ 0x22) = text)
    (htext : cs.flatMap String.utf8EncodeChar = text) :
    ∃ text, plainText (.string (jsonText cs)) = some text ∧
      IsText (.string (jsonText cs)) text :=
  ⟨text, congrArg some hread, _, cs, rfl, hpoints, htext⟩

theorem plainPayload_spelledPlainly : Sep10Jwt.SpelledPlainly plainPayload := by
  apply Sep10Jwt.spelledPlainly_of_plain
  · simp only [Sep10Jwt.numberNames, Sep10Jwt.textNames, List.cons_append, List.nil_append,
      List.forall_mem_cons]
    exact ⟨⟨rfl, by decide⟩, ⟨rfl, by decide⟩, ⟨rfl, by decide⟩, ⟨rfl, by decide⟩, ⟨rfl, by decide⟩,
      ⟨rfl, by decide⟩, nofun⟩
  · simp only [Sep10Jwt.numberNames, List.forall_mem_cons]
    refine ⟨?_, ?_, nofun, nofun⟩
    · exact List.forall_mem_singleton.mpr (jsonNumber_reads (by decide) 1060 (by decide))
    · exact List.forall_mem_singleton.mpr (jsonNumber_reads (by decide) 1000 (by decide))
  · simp only [Sep10Jwt.textNames, List.forall_mem_cons]
    refine ⟨?_, ?_, ?_, nofun⟩
    · exact List.forall_mem_singleton.mpr
        (jsonText_reads [0x6E, 0x31] (by decide) (by decide) (by decide))
    · exact List.forall_mem_singleton.mpr
        (jsonText_reads [0x61] (by decide) (by decide) (by decide))
    · exact List.forall_mem_singleton.mpr
        (jsonText_reads [0x62] (by decide) (by decide) (by decide))

end Demo

open Fallible Procedure

/-- The token with an `nbf` that lies ahead is accepted, and no value is used for its `nbf`. -/
theorem spaced_nbf_dropped :
    Sep10Jwt.SignedPayload Demo.trustingHost Demo.sep10Store Demo.spacedToken (List.replicate 32 0)
        Demo.spacedPayload.bytes ∧
      Returns (Sep10Jwt.verifySep10Jwt Demo.trustingHost ⟨1000, 0, []⟩ Demo.spacedToken
        (List.replicate 32 0) none) Demo.sep10Store () Demo.sep10Store ∧
      ¬ ∃ c, Sep10Jwt.readClaims Demo.spacedPayload.bytes = some c ∧
        c.FromTopLevel Demo.spacedPayload := by
  have hcompact : Demo.CompactOf 104 Demo.spacedToken Demo.spacedPayload.bytes := by decide +kernel
  have hsigned := hcompact.signedPayload
  have hclaims : Sep10Jwt.readClaims Demo.spacedPayload.bytes =
      some ⟨1060, 1000, none, none, [0x61], [0x62]⟩ := by decide +kernel
  refine ⟨hsigned, ?_, ?_⟩
  · refine Sep10Jwt.returns_verifySep10Jwt.mpr ⟨_, _, hsigned, hclaims, ?_, rfl⟩
    exact ⟨by decide, by decide, by decide, ⟨60, by decide, by decide⟩, nofun, nofun, by decide,
      by decide, nofun⟩
  · rintro ⟨c, hc, htop⟩
    obtain rfl := Option.some.inj (hclaims.symm.trans hc)
    have hnbf : JsonText.topLevel Demo.spacedPayload ['n', 'b', 'f'] = [] := htop.nbf
    cases hnbf

theorem claims_fromTopLevel_of_plain : ∃ c,
    Sep10Jwt.readClaims Demo.plainPayload.bytes = some c ∧
      c.Accepted ⟨1000, 0, []⟩ Demo.sep10Store none ∧
      c.commit ⟨1000, 0, []⟩ Demo.sep10Store =
        { Demo.sep10Store with jtis := Demo.sep10Store.jtis.set [0x6E, 0x31] 132 } ∧
      c.FromTopLevel Demo.plainPayload := by
  have hcompact : Demo.CompactOf 93 Demo.sep10Token Demo.plainPayload.bytes := by decide +kernel
  have hsigned := hcompact.signedPayload
  have hclaims : Sep10Jwt.readClaims Demo.plainPayload.bytes =
      some ⟨1060, 1000, none, some [0x6E, 0x31], [0x61], [0x62]⟩ := by decide +kernel
  have haccepted : Returns (Sep10Jwt.verifySep10Jwt Demo.trustingHost ⟨1000, 0, []⟩ Demo.sep10Token
      (List.replicate 32 0) none) Demo.sep10Store ()
        { Demo.sep10Store with jtis := Demo.sep10Store.jtis.set [0x6E, 0x31] 132 } := by
    refine Sep10Jwt.returns_verifySep10Jwt.mpr ⟨_, _, hsigned, hclaims, ?_, rfl⟩
    refine ⟨by decide, by decide, by decide, ⟨60, by decide, by decide⟩, nofun, ?_, by decide,
      by decide, nofun⟩
    intro jti hjti
    obtain rfl := Option.some.inj hjti
    exact ⟨by decide, rfl⟩
  exact (Sep10Jwt.claims_fromTopLevel_iff hsigned haccepted).mpr Demo.plainPayload_spelledPlainly

end AnchorKit
