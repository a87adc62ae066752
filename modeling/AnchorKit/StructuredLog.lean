import AnchorKit.AlertDedup
import AnchorKit.Library.JsonData
import AnchorKit.Library.Text
import AnchorKit.Types

/-!
# Structured logging

Records are numbered as they are accepted and wait in a buffer, the oldest making room when it is
full. Every accepted record leaves the buffer once, drained, cleared or evicted, unless it is still
there; and its line is JSON that says exactly what was recorded.
-/

namespace AnchorKit

inductive LogLevel
  | debug
  | info
  | warn
  | error
deriving DecidableEq, Repr

namespace LogLevel

def rank : LogLevel → ℕ
  | debug => 0
  | info => 1
  | warn => 2
  | error => 3

def asStr : LogLevel → Text
  | debug => "debug".toList
  | info => "info".toList
  | warn => "warn".toList
  | error => "error".toList

end LogLevel

inductive FieldValue
  | str (s : Text)
  | u64 (n : UInt64)
  | i64 (n : Int64)
  | bool (b : Bool)
deriving DecidableEq

structure LogRecord where
  timestamp : UInt64
  seq : UInt64
  level : LogLevel
  event : Text
  fields : List (Text × FieldValue)
deriving DecidableEq

def displayU64 (n : UInt64) : Text := Nat.toDigits 10 n.toNat

def displayI64 (n : Int64) : Text :=
  if n.toInt < 0 then '-' :: Nat.toDigits 10 n.toInt.natAbs else Nat.toDigits 10 n.toInt.natAbs

def displayBool : Bool → Text
  | true => "true".toList
  | false => "false".toList

def FieldValue.write (out : Text) : FieldValue → Text
  | .str s => writeJsonString out s
  | .u64 n => out ++ displayU64 n
  | .i64 n => out ++ displayI64 n
  | .bool b => out ++ displayBool b

def LogRecord.writeField (out : Text) (i : ℕ) (field : Text × FieldValue) : Text :=
  let out := if 0 < i then out ++ [','] else out
  field.2.write (writeJsonString out field.1 ++ [':'])

def LogRecord.toJsonLine (r : LogRecord) : Text :=
  let out := "\x7b\"ts\":".toList ++ displayU64 r.timestamp ++ ",\"seq\":".toList ++
    displayU64 r.seq ++ ",\"level\":\"".toList ++ r.level.asStr ++ "\",\"event\":".toList
  let out := writeJsonString out r.event ++ ",\"fields\":\x7b".toList
  r.fields.zipIdx.foldl (fun out field => LogRecord.writeField out field.2 field.1) out ++
    "\x7d\x7d".toList

def defaultLogCapacity : ℕ := 1024

def maxLogAttributes : ℕ := 16

structure StructuredLogger where
  minLevel : LogLevel
  capacity : ℕ
  seq : UInt64
  dropped : UInt64
  buffer : List LogRecord

namespace StructuredLogger

def new : StructuredLogger := ⟨.info, defaultLogCapacity, 0, 0, []⟩

def withMinLevel (l : StructuredLogger) (level : LogLevel) : StructuredLogger :=
  { l with minLevel := level }

def withCapacity (l : StructuredLogger) (capacity : ℕ) : StructuredLogger :=
  { l with capacity }

def makeRoom (l : StructuredLogger) : StructuredLogger :=
  if 0 < l.capacity ∧ l.capacity ≤ l.buffer.length then
    { l with buffer := l.buffer.tail, dropped := l.dropped + 1 }
  else l

def log (l : StructuredLogger) (level : LogLevel) (event : Text) (timestamp : UInt64)
    (fields : List (Text × FieldValue)) : Bool × StructuredLogger :=
  if level.rank < l.minLevel.rank ∨ Text.trimMatches isWhitespace event = [] then (false, l)
  else
    let record := ⟨timestamp, l.seq, level, event, fields.take maxLogAttributes⟩
    let room := { l with seq := l.seq + 1 }.makeRoom
    (true, { room with buffer := room.buffer ++ [record] })

def jsonLines (l : StructuredLogger) : List Text := l.buffer.map LogRecord.toJsonLine

def drainJsonLines (l : StructuredLogger) : List Text × StructuredLogger :=
  (l.jsonLines, { l with buffer := [] })

def clear (l : StructuredLogger) : StructuredLogger := { l with buffer := [] }

/-! ### Runs -/

inductive Configured : StructuredLogger → Prop
  | new : Configured new
  | withMinLevel {l : StructuredLogger} (h : Configured l) (level : LogLevel) :
    Configured (l.withMinLevel level)
  | withCapacity {l : StructuredLogger} (h : Configured l) (capacity : ℕ) :
    Configured (l.withCapacity capacity)

inductive Call
  | log (level : LogLevel) (event : Text) (timestamp : UInt64) (fields : List (Text × FieldValue))
  | drainJsonLines
  | clear

/-- What became of the records so far, and the lines that were emitted. -/
structure Ledger where
  accepted : List LogRecord
  evicted : List LogRecord
  drained : List LogRecord
  cleared : List LogRecord
  lines : List Text

def Ledger.empty : Ledger := ⟨[], [], [], [], []⟩

/-- One call. The record that was accepted is the last one in the buffer; the records that are in
the buffer no more have left it by this call. -/
def step (s : StructuredLogger × Ledger) : Call → StructuredLogger × Ledger
  | .log level event timestamp fields =>
    match s.1.log level event timestamp fields with
    | (true, after) => (after, { s.2 with
        accepted := s.2.accepted ++ after.buffer.getLast?.toList
        evicted := s.2.evicted ++ s.1.buffer.filter fun r => r ∉ after.buffer })
    | (false, after) => (after, s.2)
  | .drainJsonLines =>
    let (lines, after) := s.1.drainJsonLines
    (after, { s.2 with
      drained := s.2.drained ++ s.1.buffer.filter fun r => r ∉ after.buffer
      lines := s.2.lines ++ lines })
  | .clear =>
    (s.1.clear, { s.2 with
      cleared := s.2.cleared ++ s.1.buffer.filter fun r => r ∉ s.1.clear.buffer })

def run (l : StructuredLogger) (calls : List Call) : StructuredLogger × Ledger :=
  calls.foldl step (l, .empty)

/-- The record that a call asks for, but for its number; blank events and low levels are refused. -/
def offered (minLevel : LogLevel) : Call → Option (UInt64 → LogRecord)
  | .log level event timestamp fields =>
    if level.rank < minLevel.rank ∨ Text.trimMatches isWhitespace event = [] then none
    else some fun seq => ⟨timestamp, seq, level, event, fields.take 16⟩
  | .drainJsonLines | .clear => none

def numbered (minLevel : LogLevel) (calls : List Call) : List LogRecord :=
  (calls.filterMap (offered minLevel)).zipIdx.map fun record => record.1 (UInt64.ofNat record.2)

end StructuredLogger

/-! ### What a line says -/

open JsonText (Data)

def FieldValue.data : FieldValue → Data
  | .str s => .string (s.map Char.toNat)
  | .u64 n => .number n.toNat
  | .i64 n => .number n.toInt
  | .bool b => .bool b

def LogRecord.data (r : LogRecord) : Data :=
  .object [("ts".toList.map Char.toNat, .number r.timestamp.toNat),
    ("seq".toList.map Char.toNat, .number r.seq.toNat),
    ("level".toList.map Char.toNat, .string (r.level.asStr.map Char.toNat)),
    ("event".toList.map Char.toNat, .string (r.event.map Char.toNat)),
    ("fields".toList.map Char.toNat,
      .object (r.fields.map fun field => (field.1.map Char.toNat, field.2.data)))]

/-- A single line of JSON that says the record. -/
structure LogRecord.ToldBy (r : LogRecord) (line : Text) : Prop where
  single : ∀ c ∈ line, c ≠ '\n' ∧ c ≠ '\r'
  described : JsonText.Describes line.utf8 r.data

structure StructuredLogger.Conserves (l : StructuredLogger) (calls : List StructuredLogger.Call) :
    Prop where
  numbered : (l.run calls).2.accepted = numbered l.minLevel calls
  newest : (l.run calls).1.buffer <:+ (l.run calls).2.accepted
  bounded : 0 < l.capacity → (l.run calls).1.buffer.length ≤ l.capacity
  dropped : (l.run calls).1.dropped.toNat = (l.run calls).2.evicted.length
  conserved : (l.run calls).2.accepted.Perm ((l.run calls).2.drained ++ (l.run calls).2.cleared ++
    (l.run calls).2.evicted ++ (l.run calls).1.buffer)
  once : ((l.run calls).2.drained ++ (l.run calls).2.cleared ++ (l.run calls).2.evicted ++
    (l.run calls).1.buffer).Nodup
  emitted : (l.run calls).2.lines = (l.run calls).2.drained.map LogRecord.toJsonLine
  told : ∀ r ∈ (l.run calls).2.accepted, r.ToldBy r.toJsonLine

/-! ### The text of a line -/

section Line

open JsonText (StringItem Value HexDigit ObjectText Literal quoted rawText codePoints
  compactMember compactObject integerNumber)

variable {out : Text} {r : LogRecord} {v : FieldValue} {field : Text × FieldValue}

def lowerDigit (n : ℕ) : HexDigit := ⟨⟨n % 16, Nat.mod_lt n (by decide)⟩, false⟩

def logItem (c : Char) : StringItem :=
  if hquote : c = '"' then .escape .quote
  else if hbackslash : c = '\\' then .escape .backslash
  else if c = '\n' then .escape .lineFeed
  else if c = '\r' then .escape .carriageReturn
  else if c = '\t' then .escape .tab
  else if hlow : c.toNat < 0x20 then
    .codeUnit (lowerDigit 0) (lowerDigit 0) (lowerDigit (c.toNat / 16)) (lowerDigit (c.toNat % 16))
  else
    .char c ⟨not_lt.mp hlow, fun h => hquote (Char.toNat_inj.mp h),
      fun h => hbackslash (Char.toNat_inj.mp h)⟩

/-- What is said of a character holds when it holds of the control characters, the characters with
an escape of their own, and those that stand for themselves. -/
theorem logItem_cases {P : Char → StringItem → Text → Prop}
    (hcontrol : ∀ n < 0x20,
      P (Char.ofNat n) (logItem (Char.ofNat n)) (escapeLogChar (Char.ofNat n)))
    (hquote : P '"' (.escape .quote) ['\\', '"'])
    (hbackslash : P '\\' (.escape .backslash) ['\\', '\\'])
    (hplain : ∀ c hc, P c (.char c hc) [c]) (c : Char) : P c (logItem c) (escapeLogChar c) := by
  by_cases hlow : c.toNat < 0x20
  · have hc := hcontrol c.toNat hlow
    rwa [Char.ofNat_toNat] at hc
  · have hne {d : Char} (hd : d.toNat < 0x20) : c ≠ d := by
      rintro rfl
      exact hlow hd
    unfold logItem escapeLogChar
    by_cases hc : c = '"'
    · subst hc
      exact hquote
    rw [dif_neg hc, if_neg hc]
    by_cases hc' : c = '\\'
    · subst hc'
      exact hbackslash
    rw [dif_neg hc', if_neg hc', if_neg (hne (by decide)), if_neg (hne (by decide)),
      if_neg (hne (by decide)), if_neg (hne (by decide)), if_neg (hne (by decide)),
      if_neg (hne (by decide)), dif_neg hlow, if_neg hlow]
    exact hplain c _

theorem bytes_logItem (c : Char) : (logItem c).bytes = Text.utf8 (escapeLogChar c) := by
  refine logItem_cases (P := fun _ item t => item.bytes = Text.utf8 t) ?_ rfl rfl ?_ c
  · decide
  · intro c hc
    exact (List.append_nil _).symm

theorem codePoint_logItem (c : Char) : (logItem c).codePoint = c.toNat := by
  refine logItem_cases (P := fun c item _ => item.codePoint = c.toNat) ?_ rfl rfl ?_ c
  · decide
  · intro c hc
    rfl

theorem highSurrogate_logItem (c : Char) : (logItem c).highSurrogate = none := by
  refine logItem_cases (P := fun _ item _ => item.highSurrogate = none) ?_ rfl rfl ?_ c
  · decide
  · intro c hc
    rfl

theorem escapeLogChar_printable (c : Char) : ∀ d ∈ escapeLogChar c, 0x20 ≤ d.toNat := by
  refine logItem_cases (P := fun _ _ t => ∀ d ∈ t, 0x20 ≤ d.toNat) ?_ (by decide) (by decide) ?_ c
  · decide
  · intro c hc d hd
    obtain rfl := List.mem_singleton.mp hd
    exact hc.1

theorem quoted_logItem (s : Text) : quoted (s.map logItem) =
    Text.utf8 ('"' :: s.flatMap escapeLogChar ++ ['"']) := by
  have hraw : rawText (s.map logItem) = Text.utf8 (s.flatMap escapeLogChar) := by
    rw [rawText, List.flatMap_map, Text.utf8, List.flatMap_assoc]
    exact congrArg (s.flatMap ·) (funext bytes_logItem)
  rw [quoted, hraw, Text.utf8_append, Text.utf8_cons]
  rfl

theorem codePoints_logItem (s : Text) : codePoints (s.map logItem) = s.map Char.toNat := by
  have hnone : ∀ i ∈ s.map logItem, i.highSurrogate = none := by
    intro i hi
    obtain ⟨c, _, rfl⟩ := List.mem_map.mp hi
    exact highSurrogate_logItem c
  rw [JsonText.codePoints_of_forall hnone, List.map_map]
  exact congrArg (s.map ·) (funext codePoint_logItem)

def FieldValue.tree : FieldValue → Value
  | .str s => .string (s.map logItem)
  | .u64 n => .number (integerNumber false n.toNat)
  | .i64 n => .number (integerNumber (decide (n.toInt < 0)) n.toInt.natAbs)
  | .bool b => .literal (if b then .true else .false)

theorem FieldValue.data_tree (v : FieldValue) : v.tree.data = v.data := by
  cases v with
  | str s => exact congrArg _ (codePoints_logItem s)
  | u64 n => exact congrArg _ (JsonText.value_integerNumber false n.toNat)
  | i64 n =>
    refine congrArg _ ((JsonText.value_integerNumber _ _).trans ?_)
    by_cases hn : n.toInt < 0
    · rw [if_pos (decide_eq_true hn)]
      have habs : (n.toInt.natAbs : ℤ) = -n.toInt := by omega
      rw [← Int.cast_natCast, habs, Int.cast_neg, neg_neg]
    · rw [if_neg (by simpa using hn)]
      have habs : (n.toInt.natAbs : ℤ) = n.toInt := by omega
      rw [← Int.cast_natCast, habs]
  | bool b => cases b <;> rfl

def FieldValue.text (v : FieldValue) : Text := v.write []

theorem FieldValue.write_eq (out : Text) (v : FieldValue) : v.write out = out ++ v.text := by
  cases v with
  | str s => simp [FieldValue.write, FieldValue.text, writeJsonString]
  | _ => rfl

theorem FieldValue.bytes_tree (v : FieldValue) : v.tree.bytes = Text.utf8 v.text := by
  cases v with
  | str s => exact quoted_logItem s
  | u64 n => exact JsonText.bytes_integerNumber false n.toNat
  | i64 n =>
    refine (JsonText.bytes_integerNumber _ _).trans ?_
    change _ = Text.utf8 (displayI64 n)
    unfold displayI64
    by_cases hn : n.toInt < 0
    · rw [if_pos hn, if_pos (decide_eq_true hn)]
      rfl
    · rw [if_neg hn, if_neg (by simpa using hn)]
      rfl
  | bool b => cases b <;> rfl

/-- What is written of a field, but for the comma in front. -/
def fieldText (field : Text × FieldValue) : Text :=
  '"' :: field.1.flatMap escapeLogChar ++ ['"'] ++ ':' :: field.2.text

def fieldTree (field : Text × FieldValue) : List StringItem × Value :=
  (field.1.map logItem, field.2.tree)

theorem compactMember_fieldTree (field : Text × FieldValue) :
    compactMember (fieldTree field) = Text.utf8 (fieldText field) := by
  have hcolon : Text.utf8 (':' :: field.2.text) = 0x3A :: field.2.text.utf8 := rfl
  rw [compactMember, fieldTree, quoted_logItem, FieldValue.bytes_tree, ← hcolon, ← Text.utf8_append,
    fieldText]

theorem writeField_eq (out : Text) (i : ℕ) (field : Text × FieldValue) :
    LogRecord.writeField out i field =
      out ++ ((if 0 < i then [','] else []) ++ fieldText field) := by
  unfold LogRecord.writeField
  rw [FieldValue.write_eq]
  split <;> simp [writeJsonString, fieldText]

theorem foldl_writeField (fields : List (Text × FieldValue)) (k : ℕ) (out : Text) :
    (fields.zipIdx (k + 1)).foldl (fun out field => LogRecord.writeField out field.2 field.1) out =
      out ++ fields.flatMap fun field => ',' :: fieldText field := by
  induction fields generalizing k out with
  | nil => simp
  | cons field fields ih =>
    rw [List.zipIdx_cons, List.foldl_cons, ih, writeField_eq, if_pos (Nat.succ_pos k)]
    simp

/-- The fields between their braces. -/
theorem bytes_fields (fields : List (Text × FieldValue)) :
    (compactObject (fields.map fieldTree)).bytes = Text.utf8 ('\x7b' ::
      fields.zipIdx.foldl (fun out field => LogRecord.writeField out field.2 field.1) [] ++
        ['\x7d']) := by
  cases fields with
  | nil => rfl
  | cons field fields =>
    rw [List.zipIdx_cons, List.foldl_cons, foldl_writeField, writeField_eq, if_neg (lt_irrefl 0),
      List.map_cons, compactObject, JsonText.Value.bytes, JsonText.bytes_compactMembers,
      compactMember_fieldTree, List.flatMap_map]
    have hmore : (fields.flatMap fun next => 0x2C :: compactMember (fieldTree next)) =
        Text.utf8 (fields.flatMap fun next => ',' :: fieldText next) := by
      rw [Text.utf8, List.flatMap_assoc]
      refine congrArg (fields.flatMap ·) (funext fun next => ?_)
      rw [compactMember_fieldTree]
      rfl
    rw [hmore, List.nil_append, List.nil_append, Text.utf8_append, Text.utf8_cons, Text.utf8_append]
    rfl

theorem data_fieldTree (field : Text × FieldValue) :
    (codePoints (fieldTree field).1, (fieldTree field).2.data) =
      (field.1.map Char.toNat, field.2.data) :=
  Prod.ext (codePoints_logItem field.1) field.2.data_tree

def LogRecord.header (r : LogRecord) : List (Text × FieldValue) :=
  [("ts".toList, .u64 r.timestamp), ("seq".toList, .u64 r.seq),
    ("level".toList, .str r.level.asStr), ("event".toList, .str r.event)]

def LogRecord.tree (r : LogRecord) : Value :=
  compactObject (r.header.map fieldTree ++
    [("fields".toList.map logItem, compactObject (r.fields.map fieldTree))])

theorem LogRecord.data_tree (r : LogRecord) : r.tree.data = r.data := by
  have hfields : (compactObject (r.fields.map fieldTree)).data =
      .object (r.fields.map fun field => (field.1.map Char.toNat, field.2.data)) := by
    rw [JsonText.data_compactObject, List.map_map]
    exact congrArg _ (List.map_congr_left fun field _ => data_fieldTree field)
  rw [LogRecord.tree, JsonText.data_compactObject, List.map_append, List.map_map]
  simp only [List.map_cons, List.map_nil, hfields, codePoints_logItem]
  have hheader : r.header.map ((fun m => (codePoints m.1, m.2.data)) ∘ fieldTree) =
      r.header.map fun field => (field.1.map Char.toNat, field.2.data) :=
    List.map_congr_left fun field _ => data_fieldTree field
  rw [hheader]
  rfl

/-- What is written of the fields does not depend on what stands in front of them. -/
theorem foldl_writeField_zero (fields : List (Text × FieldValue)) (out : Text) :
    fields.zipIdx.foldl (fun out field => LogRecord.writeField out field.2 field.1) out = out ++
      fields.zipIdx.foldl (fun out field => LogRecord.writeField out field.2 field.1) [] := by
  cases fields with
  | nil => simp
  | cons field fields =>
    rw [List.zipIdx_cons, List.foldl_cons, List.foldl_cons, foldl_writeField, foldl_writeField,
      writeField_eq, writeField_eq]
    simp

theorem LogRecord.toJsonLine_eq (r : LogRecord) : r.toJsonLine = '\x7b' ::
    (fieldText ("ts".toList, .u64 r.timestamp) ++ ',' :: (fieldText ("seq".toList, .u64 r.seq) ++
      ',' :: (fieldText ("level".toList, .str r.level.asStr) ++
        ',' :: (fieldText ("event".toList, .str r.event) ++ ',' :: ("\"fields\":".toList ++
          ('\x7b' :: r.fields.zipIdx.foldl
            (fun out field => LogRecord.writeField out field.2 field.1) [] ++ ['\x7d'])))))) ++
    ['\x7d'] := by
  have hts : fieldText ("ts".toList, .u64 r.timestamp) =
      "\"ts\":".toList ++ displayU64 r.timestamp := rfl
  have hseq : fieldText ("seq".toList, .u64 r.seq) = "\"seq\":".toList ++ displayU64 r.seq := rfl
  have hlevel : fieldText ("level".toList, .str r.level.asStr) =
      "\"level\":\"".toList ++ (r.level.asStr ++ ['"']) := by
    cases r.level <;> rfl
  have hevent : fieldText ("event".toList, .str r.event) =
      "\"event\":".toList ++ ('"' :: r.event.flatMap escapeLogChar ++ ['"']) := rfl
  rw [hts, hseq, hlevel, hevent, LogRecord.toJsonLine]
  rw [foldl_writeField_zero]
  simp [writeJsonString]

theorem LogRecord.bytes_tree (r : LogRecord) : r.tree.bytes = Text.utf8 r.toJsonLine := by
  have hname : quoted ("fields".toList.map logItem) ++ [0x3A] =
      Text.utf8 "\"fields\":".toList := rfl
  have hfields : compactMember ("fields".toList.map logItem,
      compactObject (r.fields.map fieldTree)) = Text.utf8 ("\"fields\":".toList ++
        ('\x7b' :: r.fields.zipIdx.foldl
          (fun out field => LogRecord.writeField out field.2 field.1) [] ++ ['\x7d'])) := by
    rw [Text.utf8_append, ← hname, ← bytes_fields, compactMember, List.append_assoc]
    rfl
  have hmore (s t : Text) : Text.utf8 (s ++ ',' :: t) = s.utf8 ++ 0x2C :: t.utf8 :=
    Text.utf8_append
  have hopen : String.utf8EncodeChar '\x7b' = [0x7B] := rfl
  have hclose : Text.utf8 ['\x7d'] = [0x7D] := rfl
  rw [LogRecord.toJsonLine_eq, LogRecord.tree, LogRecord.header, List.map_cons, List.cons_append,
    JsonText.bytes_compactObject_cons, Text.utf8_append, Text.utf8_cons, hopen, hclose]
  simp only [List.map_cons, List.map_nil, List.cons_append, List.nil_append, List.append_nil,
    List.flatMap_cons, List.flatMap_nil, compactMember_fieldTree, hfields]
  simp only [hmore]

def Printable (t : Text) : Prop := ∀ c ∈ t, 0x20 ≤ c.toNat

instance decidablePrintable (t : Text) : Decidable (Printable t) :=
  inferInstanceAs (Decidable (∀ c ∈ t, 0x20 ≤ c.toNat))

theorem Printable.append {s t : Text} (hs : Printable s) (ht : Printable t) :
    Printable (s ++ t) :=
  List.forall_mem_append.mpr ⟨hs, ht⟩

theorem Printable.cons {c : Char} {t : Text} (hc : 0x20 ≤ c.toNat) (ht : Printable t) :
    Printable (c :: t) :=
  List.forall_mem_cons.mpr ⟨hc, ht⟩

theorem Printable.flatMap {α : Type} {l : List α} {f : α → Text} (h : ∀ a ∈ l, Printable (f a)) :
    Printable (l.flatMap f) := by
  intro c hc
  obtain ⟨a, ha, hc⟩ := List.mem_flatMap.mp hc
  exact h a ha c hc

theorem printable_quote : Printable ['"'] := by decide

theorem printable_escaped (s : Text) : Printable (s.flatMap escapeLogChar) :=
  .flatMap fun c _ => escapeLogChar_printable c

theorem printable_toDigits (n : ℕ) : Printable (Nat.toDigits 10 n) := by
  intro c hc
  have hcode := Text.isDigit_iff.mp (Text.isDigit_toDigits c hc)
  omega

theorem FieldValue.printable_text (v : FieldValue) : Printable v.text := by
  cases v with
  | str s => exact .append (.cons (by decide) (printable_escaped s)) printable_quote
  | u64 n => exact printable_toDigits _
  | i64 n =>
    change Printable (displayI64 n)
    unfold displayI64
    split
    · exact .cons (by decide) (printable_toDigits _)
    · exact printable_toDigits _
  | bool b => cases b <;> exact by decide

theorem printable_fieldText (field : Text × FieldValue) : Printable (fieldText field) :=
  .append (.append (.cons (by decide) (printable_escaped field.1)) printable_quote)
    (.cons (by decide) field.2.printable_text)

theorem printable_fields (fields : List (Text × FieldValue)) : Printable
    (fields.zipIdx.foldl (fun out field => LogRecord.writeField out field.2 field.1) []) := by
  cases fields with
  | nil => exact nofun
  | cons field fields =>
    rw [List.zipIdx_cons, List.foldl_cons, foldl_writeField, writeField_eq, if_neg (lt_irrefl 0)]
    exact .append (printable_fieldText field)
      (.flatMap fun next _ => .cons (by decide) (printable_fieldText next))

theorem LogRecord.printable_toJsonLine (r : LogRecord) : Printable r.toJsonLine := by
  have hfields : Printable ("\"fields\":".toList ++ ('\x7b' :: r.fields.zipIdx.foldl
      (fun out field => LogRecord.writeField out field.2 field.1) [] ++ ['\x7d'])) :=
    .append (by decide) (.append (.cons (by decide) (printable_fields r.fields)) (by decide))
  rw [LogRecord.toJsonLine_eq]
  refine .append (.cons (by decide) ?_) (by decide)
  refine .append (printable_fieldText _) (.cons (by decide) ?_)
  refine .append (printable_fieldText _) (.cons (by decide) ?_)
  refine .append (printable_fieldText _) (.cons (by decide) ?_)
  exact .append (printable_fieldText _) (.cons (by decide) hfields)

theorem LogRecord.toldBy_toJsonLine (r : LogRecord) : r.ToldBy r.toJsonLine where
  single c hc := by
    have hcode := r.printable_toJsonLine c hc
    constructor
    · rintro rfl
      exact absurd hcode (by decide)
    · rintro rfl
      exact absurd hcode (by decide)
  described := by
    have hobject : ∃ members, r.tree = .object members := ⟨_, rfl⟩
    refine JsonText.describes_of_doc ⟨[], r.tree, [], .inr hobject⟩ ?_ r.data_tree
    rw [ObjectText.bytes, r.bytes_tree]
    exact List.append_nil _

end Line

/-! ### Where the records go -/

namespace StructuredLogger

section Runs

variable {l : StructuredLogger} {s : StructuredLogger × Ledger} {c : Call} {level : LogLevel}
  {event : Text} {timestamp : UInt64} {fields : List (Text × FieldValue)}

def recordOf (l : StructuredLogger) (level : LogLevel) (event : Text) (timestamp : UInt64)
    (fields : List (Text × FieldValue)) : LogRecord :=
  ⟨timestamp, l.seq, level, event, fields.take maxLogAttributes⟩

def oldest (l : StructuredLogger) : List LogRecord :=
  if 0 < l.capacity ∧ l.capacity ≤ l.buffer.length then l.buffer.take 1 else []

theorem oldest_append_makeRoom (l : StructuredLogger) :
    l.buffer = l.oldest ++ l.makeRoom.buffer := by
  unfold oldest makeRoom
  split
  · rw [← List.drop_one]
    exact (List.take_append_drop 1 l.buffer).symm
  · rfl

theorem dropped_makeRoom (hbound : l.dropped.toNat + 1 < 2 ^ 64) :
    l.makeRoom.dropped.toNat = l.dropped.toNat + l.oldest.length := by
  unfold oldest makeRoom
  split
  · rename_i hfull
    have hone : (l.buffer.take 1).length = 1 := by
      rw [List.length_take, min_eq_left (hfull.1.trans_le hfull.2)]
    rw [hone, UInt64.toNat_add]
    exact Nat.mod_eq_of_lt hbound
  · rfl

theorem length_makeRoom (hcapacity : 0 < l.capacity) (h : l.buffer.length ≤ l.capacity) :
    l.makeRoom.buffer.length + 1 ≤ l.capacity := by
  unfold makeRoom
  split
  · rw [List.length_tail]
    omega
  · rename_i hnot
    have hlt : ¬ l.capacity ≤ l.buffer.length := fun hle => hnot ⟨hcapacity, hle⟩
    omega

theorem filter_not_mem_append {α : Type} [DecidableEq α] {front back : List α} {a : α}
    (hnodup : (front ++ back).Nodup) (ha : a ∉ front ++ back) :
    (front ++ back).filter (fun x => x ∉ back ++ [a]) = front := by
  obtain ⟨_, _, hdisjoint⟩ := List.nodup_append'.mp hnodup
  rw [List.mem_append, not_or] at ha
  rw [List.filter_append, List.filter_eq_self.mpr, List.filter_eq_nil_iff.mpr, List.append_nil]
  · intro x hx
    simp [hx]
  · intro x hx
    have hne : x ≠ a := fun heq => ha.1 (heq ▸ hx)
    simp only [List.mem_append, List.mem_singleton, not_or, decide_eq_true_eq]
    exact ⟨fun hb => hdisjoint hx hb, hne⟩

/-- What holds of a logger and what became of its records. -/
structure Accounted (s : StructuredLogger × Ledger) : Prop where
  next : s.1.seq.toNat = s.2.accepted.length
  seqs : s.2.accepted.map (fun r => r.seq.toNat) = List.range s.2.accepted.length
  newest : s.1.buffer <:+ s.2.accepted
  bounded : 0 < s.1.capacity → s.1.buffer.length ≤ s.1.capacity
  dropped : s.1.dropped.toNat = s.2.evicted.length
  conserved : s.2.accepted.Perm
    (s.2.drained ++ s.2.cleared ++ s.2.evicted ++ s.1.buffer)
  emitted : s.2.lines = s.2.drained.map LogRecord.toJsonLine

theorem Accounted.nodup (h : Accounted s) : s.2.accepted.Nodup :=
  List.Nodup.of_map _ (h.seqs ▸ List.nodup_range)

theorem step_log_refused
    (h : level.rank < s.1.minLevel.rank ∨ Text.trimMatches isWhitespace event = []) :
    step s (.log level event timestamp fields) = s := by
  rw [step, log, if_pos h]

theorem step_log_accepted
    (h : ¬ (level.rank < s.1.minLevel.rank ∨ Text.trimMatches isWhitespace event = [])) :
    step s (.log level event timestamp fields) =
      ({ s.1.makeRoom with
          seq := s.1.seq + 1
          buffer := s.1.makeRoom.buffer ++ [s.1.recordOf level event timestamp fields] },
        { s.2 with
          accepted := s.2.accepted ++ [s.1.recordOf level event timestamp fields]
          evicted := s.2.evicted ++ s.1.buffer.filter fun r =>
            r ∉ s.1.makeRoom.buffer ++ [s.1.recordOf level event timestamp fields] }) := by
  have hroom : { s.1 with seq := s.1.seq + 1 }.makeRoom =
      { s.1.makeRoom with seq := s.1.seq + 1 } := by
    unfold makeRoom
    split <;> rfl
  rw [step, log, if_neg h]
  dsimp only
  rw [hroom, List.getLast?_concat]
  rfl

theorem capacity_makeRoom (l : StructuredLogger) : l.makeRoom.capacity = l.capacity := by
  unfold makeRoom
  split <;> rfl

theorem minLevel_makeRoom (l : StructuredLogger) : l.makeRoom.minLevel = l.minLevel := by
  unfold makeRoom
  split <;> rfl

theorem Accounted.log_accepted (h : Accounted s) (hfew : s.2.accepted.length + 1 < 2 ^ 64)
    (haccepted : ¬ (level.rank < s.1.minLevel.rank ∨ Text.trimMatches isWhitespace event = [])) :
    Accounted (step s (.log level event timestamp fields)) := by
  obtain ⟨l, g⟩ := s
  have hsplit := l.oldest_append_makeRoom
  have hfresh : l.recordOf level event timestamp fields ∉ g.accepted := by
    intro hmem
    have hseq : l.seq.toNat ∈ List.range g.accepted.length := by
      rw [← h.seqs]
      exact List.mem_map.mpr ⟨_, hmem, rfl⟩
    rw [List.mem_range, h.next] at hseq
    exact lt_irrefl _ hseq
  have hnodup : l.buffer.Nodup := h.nodup.sublist h.newest.sublist
  have hleft : (l.buffer.filter fun r =>
      r ∉ l.makeRoom.buffer ++ [l.recordOf level event timestamp fields]) = l.oldest := by
    rw [hsplit] at hnodup
    conv_lhs => rw [hsplit]
    refine filter_not_mem_append hnodup ?_
    rw [← hsplit]
    exact fun hmem => hfresh (h.newest.subset hmem)
  have hlength := h.conserved.length_eq
  simp only [List.length_append] at hlength
  rw [step_log_accepted haccepted]
  dsimp only
  rw [hleft]
  constructor
  · rw [List.length_append, UInt64.toNat_add, h.next]
    exact Nat.mod_eq_of_lt hfew
  · dsimp only
    rw [List.map_append, h.seqs, List.length_append, List.length_singleton, List.range_succ]
    exact congrArg (List.range _ ++ [·]) h.next
  · have hsuffix : l.makeRoom.buffer <:+ g.accepted :=
      List.IsSuffix.trans ⟨l.oldest, hsplit.symm⟩ h.newest
    obtain ⟨front, hfront⟩ := hsuffix
    exact ⟨front, by rw [← hfront, List.append_assoc]⟩
  · intro hcapacity
    rw [capacity_makeRoom] at hcapacity
    dsimp only
    rw [List.length_append, capacity_makeRoom]
    exact length_makeRoom hcapacity (h.bounded hcapacity)
  · dsimp only
    rw [List.length_append, dropped_makeRoom, h.dropped]
    have hdropped := h.dropped
    dsimp only at hdropped hlength hfew
    omega
  · have hconserved := h.conserved.append_right [l.recordOf level event timestamp fields]
    dsimp only at hconserved
    rw [hsplit] at hconserved
    simpa only [List.append_assoc] using hconserved
  · exact h.emitted

theorem filter_not_mem_nil (l : List LogRecord) :
    (l.filter fun r => r ∉ ([] : List LogRecord)) = l := by
  simp

theorem step_drainJsonLines (s : StructuredLogger × Ledger) : step s .drainJsonLines =
    ({ s.1 with buffer := [] }, { s.2 with
      drained := s.2.drained ++ s.1.buffer
      lines := s.2.lines ++ s.1.jsonLines }) := by
  conv_rhs => rw [← filter_not_mem_nil s.1.buffer]
  rfl

theorem step_clear (s : StructuredLogger × Ledger) : step s .clear =
    ({ s.1 with buffer := [] }, { s.2 with cleared := s.2.cleared ++ s.1.buffer }) := by
  conv_rhs => rw [← filter_not_mem_nil s.1.buffer]
  rfl

theorem Accounted.drained (h : Accounted s) : Accounted (step s .drainJsonLines) := by
  rw [step_drainJsonLines]
  constructor
  · exact h.next
  · exact h.seqs
  · exact List.nil_suffix
  · exact fun _ => Nat.zero_le _
  · exact h.dropped
  · refine h.conserved.trans (List.perm_iff_count.mpr fun r => ?_)
    simp only [List.count_append, List.count_nil]
    omega
  · dsimp only
    rw [List.map_append, ← h.emitted]
    rfl

theorem Accounted.cleared (h : Accounted s) : Accounted (step s .clear) := by
  rw [step_clear]
  constructor
  · exact h.next
  · exact h.seqs
  · exact List.nil_suffix
  · exact fun _ => Nat.zero_le _
  · exact h.dropped
  · refine h.conserved.trans (List.perm_iff_count.mpr fun r => ?_)
    simp only [List.count_append, List.count_nil]
    omega
  · exact h.emitted

theorem accepted_step (s : StructuredLogger × Ledger) (c : Call) :
    (step s c).2.accepted = s.2.accepted ++
      ((offered s.1.minLevel c).map fun record => record s.1.seq).toList := by
  cases c with
  | log level event timestamp fields =>
    by_cases hrefused : level.rank < s.1.minLevel.rank ∨ Text.trimMatches isWhitespace event = []
    · rw [step_log_refused hrefused, offered, if_pos hrefused]
      exact (List.append_nil _).symm
    · rw [step_log_accepted hrefused, offered, if_neg hrefused]
      rfl
  | drainJsonLines => exact (List.append_nil _).symm
  | clear => exact (List.append_nil _).symm

theorem settings_step (s : StructuredLogger × Ledger) (c : Call) :
    (step s c).1.minLevel = s.1.minLevel ∧ (step s c).1.capacity = s.1.capacity := by
  cases c with
  | log level event timestamp fields =>
    by_cases hrefused : level.rank < s.1.minLevel.rank ∨ Text.trimMatches isWhitespace event = []
    · rw [step_log_refused hrefused]
      exact ⟨rfl, rfl⟩
    · rw [step_log_accepted hrefused]
      exact ⟨minLevel_makeRoom s.1, capacity_makeRoom s.1⟩
  | drainJsonLines => exact ⟨rfl, rfl⟩
  | clear => exact ⟨rfl, rfl⟩

theorem Accounted.of_step (h : Accounted s) (hfew : (step s c).2.accepted.length < 2 ^ 64) :
    Accounted (step s c) := by
  cases c with
  | log level event timestamp fields =>
    by_cases hrefused : level.rank < s.1.minLevel.rank ∨ Text.trimMatches isWhitespace event = []
    · rwa [step_log_refused hrefused]
    · refine h.log_accepted ?_ hrefused
      rw [step_log_accepted hrefused] at hfew
      simpa using hfew
  | drainJsonLines => exact h.drained
  | clear => exact h.cleared

theorem run_snoc (l : StructuredLogger) (calls : List Call) (c : Call) :
    l.run (calls ++ [c]) = step (l.run calls) c := by
  rw [run, List.foldl_concat, run]

theorem settings_run (l : StructuredLogger) (calls : List Call) :
    (l.run calls).1.minLevel = l.minLevel ∧ (l.run calls).1.capacity = l.capacity := by
  induction calls using List.reverseRecOn with
  | nil => exact ⟨rfl, rfl⟩
  | append_singleton calls c ih =>
    have hstep := settings_step (l.run calls) c
    rw [run_snoc]
    exact ⟨hstep.1.trans ih.1, hstep.2.trans ih.2⟩

theorem numbered_snoc (minLevel : LogLevel) (calls : List Call) (c : Call) :
    numbered minLevel (calls ++ [c]) = numbered minLevel calls ++
      ((offered minLevel c).map fun record =>
        record (UInt64.ofNat (numbered minLevel calls).length)).toList := by
  have hlength : (numbered minLevel calls).length =
      (calls.filterMap (offered minLevel)).length := by
    rw [numbered, List.length_map, List.length_zipIdx]
  rw [hlength, numbered, List.filterMap_append, List.zipIdx_append, List.map_append, Nat.zero_add]
  congr 1
  cases hoffered : offered minLevel c with
  | none => rw [List.filterMap_cons_none hoffered]; rfl
  | some record => rw [List.filterMap_cons_some hoffered]; rfl

/-- A logger as configured has nothing to account for. -/
theorem Configured.fresh (h : Configured l) : l.seq = 0 ∧ l.dropped = 0 ∧ l.buffer = [] := by
  induction h with
  | new => exact ⟨rfl, rfl, rfl⟩
  | withMinLevel _ _ ih => exact ih
  | withCapacity _ _ ih => exact ih

theorem Configured.accounted (h : Configured l) : Accounted (l, .empty) := by
  obtain ⟨hseq, hdropped, hbuffer⟩ := h.fresh
  constructor
  · rw [hseq]
    rfl
  · rfl
  · rw [hbuffer]
    exact List.nil_suffix
  · intro _
    rw [hbuffer]
    exact Nat.zero_le _
  · rw [hdropped]
    rfl
  · rw [hbuffer]
    exact .nil
  · rfl

theorem accounted_run (hl : Configured l) (calls : List Call)
    (hfew : (numbered l.minLevel calls).length < 2 ^ 64) :
    Accounted (l.run calls) ∧ (l.run calls).2.accepted = numbered l.minLevel calls := by
  induction calls using List.reverseRecOn with
  | nil => exact ⟨hl.accounted, rfl⟩
  | append_singleton calls c ih =>
    have hsnoc := numbered_snoc l.minLevel calls c
    have hrest : (numbered l.minLevel calls).length ≤
        (numbered l.minLevel (calls ++ [c])).length := by
      rw [hsnoc, List.length_append]
      exact Nat.le_add_right _ _
    obtain ⟨haccounted, hnumbered⟩ := ih (hrest.trans_lt hfew)
    have hseq : UInt64.ofNat (numbered l.minLevel calls).length = (l.run calls).1.seq := by
      rw [← hnumbered, ← haccounted.next, UInt64.ofNat_toNat]
    have haccepted : (l.run (calls ++ [c])).2.accepted = numbered l.minLevel (calls ++ [c]) := by
      rw [run_snoc, accepted_step, (settings_run l calls).1, hnumbered, hsnoc, hseq]
    refine ⟨?_, haccepted⟩
    rw [run_snoc]
    refine haccounted.of_step ?_
    rwa [← run_snoc, haccepted]

end Runs

/-- Records are numbered in order and kept while there is room, each accepted one is in exactly one
place, and lines say what was recorded. -/
theorem log_conserved {l : StructuredLogger} (hl : Configured l) (calls : List Call)
    (hfew : (calls.filterMap (offered l.minLevel)).length < 2 ^ 64) : l.Conserves calls := by
  have hlength : (StructuredLogger.numbered l.minLevel calls).length =
      (calls.filterMap (offered l.minLevel)).length := by
    rw [StructuredLogger.numbered, List.length_map, List.length_zipIdx]
  obtain ⟨haccounted, hnumbered⟩ := accounted_run hl calls (hlength ▸ hfew)
  constructor
  · exact hnumbered
  · exact haccounted.newest
  · rw [← (settings_run l calls).2]
    exact haccounted.bounded
  · exact haccounted.dropped
  · exact haccounted.conserved
  · exact haccounted.conserved.nodup_iff.mp haccounted.nodup
  · exact haccounted.emitted
  · exact fun r _ => r.toldBy_toJsonLine

/-- Two records in a buffer for one. -/
theorem two_records_conserved : (new.withCapacity 1).Conserves
    [.log .info "first \"event\"".toList 10 [("key\n".toList, .i64 (-1))],
      .log .debug "refused".toList 11 [], .log .error "second".toList 12 [], .drainJsonLines] :=
  log_conserved (.withCapacity .new 1) _ (by decide)

end StructuredLogger

end AnchorKit
