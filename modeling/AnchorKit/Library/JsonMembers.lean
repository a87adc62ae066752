import AnchorKit.Library.JsonScan

/-!
# Members found in a JSON text

The members that a byte search for a name comes upon in a well-formed text, in the order of the
text, and the strings that stand behind them.
-/

namespace JsonText

/-! ### Searching values -/

def spelledMember (name : Bytes) (s : List StringItem) (beforeColon : List Space) (v : Value) :
    List Value :=
  if Spells s name ∧ beforeColon = [] then [v] else []

mutual

/-- The values of the members, at any depth and in the order of the text, whose colon stands right
behind the name spelled out. -/
def Value.spelled (name : Bytes) : Value → List Value
  | .array elements => elements.spelled name
  | .object members => members.spelled name
  | .literal _ | .number _ | .string _ | .emptyArray _ | .emptyObject _ => []

def Elements.spelled (name : Bytes) : Elements → List Value
  | .last _ v _ => v.spelled name
  | .more _ v _ rest => v.spelled name ++ rest.spelled name

def Members.spelled (name : Bytes) : Members → List Value
  | .last _ s beforeColon _ v _ => spelledMember name s beforeColon v ++ v.spelled name
  | .more _ s beforeColon _ v _ rest =>
    spelledMember name s beforeColon v ++ v.spelled name ++ rest.spelled name

end

def nextQuoted (text : Bytes) : Option Bytes :=
  match text.dropWhile (· ≠ 0x22) with
  | [] => none
  | _ :: rest => if 0x22 ∈ rest then some (rest.takeWhile (· ≠ 0x22)) else none

def cutText (s : List StringItem) : Bytes := (rawText s).takeWhile (· ≠ 0x22)

mutual

def Value.firstQuoted : Value → Option Bytes
  | .string s => some (cutText s)
  | .array elements => elements.firstQuoted
  | .object members => members.firstQuoted
  | .literal _ | .number _ | .emptyArray _ | .emptyObject _ => none

def Elements.firstQuoted : Elements → Option Bytes
  | .last _ v _ => v.firstQuoted
  | .more _ v _ rest => v.firstQuoted.or rest.firstQuoted

def Members.firstQuoted : Members → Option Bytes
  | .last _ s _ _ _ _ => some (cutText s)
  | .more _ s _ _ _ _ _ => some (cutText s)

end

/-- Where a search ends: what stands between the colon and the value, the value, and the first
string from there on. -/
structure Found where
  afterColon : List Space
  value : Value
  quoted : Option Bytes

/-- What the search finds at a member, given the first string behind the member's value. -/
def foundMember (name : Bytes) (s : List StringItem) (beforeColon afterColon : List Space)
    (v : Value) (next : Option Bytes) : List Found :=
  if Spells s name ∧ beforeColon = [] then [⟨afterColon, v, v.firstQuoted.or next⟩] else []

mutual

/-- The members of `spelled` with their surroundings, given the first string behind the value. -/
def Value.found (name : Bytes) : Value → Option Bytes → List Found
  | .array elements, next => elements.found name next
  | .object members, next => members.found name next
  | .literal _, _ | .number _, _ | .string _, _ | .emptyArray _, _ | .emptyObject _, _ => []

def Elements.found (name : Bytes) : Elements → Option Bytes → List Found
  | .last _ v _, next => v.found name next
  | .more _ v _ rest, next => v.found name (rest.firstQuoted.or next) ++ rest.found name next

def Members.found (name : Bytes) : Members → Option Bytes → List Found
  | .last _ s beforeColon afterColon v _, next =>
    foundMember name s beforeColon afterColon v next ++ v.found name next
  | .more _ s beforeColon afterColon v _ rest, next =>
    foundMember name s beforeColon afterColon v (rest.firstQuoted.or next) ++
      v.found name (rest.firstQuoted.or next) ++ rest.found name next

end

section Found

variable {name : Bytes}

theorem map_value_foundMember (s : List StringItem) (beforeColon afterColon : List Space) (v : Value)
    (next : Option Bytes) : (foundMember name s beforeColon afterColon v next).map Found.value =
      spelledMember name s beforeColon v := by
  unfold foundMember spelledMember
  split
  · rfl
  · rfl

mutual

theorem Value.map_value_found (v : Value) (next : Option Bytes) :
    (v.found name next).map Found.value = v.spelled name := by
  cases v with
  | array elements => exact elements.map_value_found next
  | object members => exact members.map_value_found next
  | literal l => rfl
  | number n => rfl
  | string s => rfl
  | emptyArray inner => rfl
  | emptyObject inner => rfl

theorem Elements.map_value_found (elements : Elements) (next : Option Bytes) :
    (elements.found name next).map Found.value = elements.spelled name := by
  cases elements with
  | last before v after => exact v.map_value_found next
  | more before v after rest =>
    rw [Elements.found, Elements.spelled, List.map_append, v.map_value_found, rest.map_value_found]

theorem Members.map_value_found (members : Members) (next : Option Bytes) :
    (members.found name next).map Found.value = members.spelled name := by
  cases members with
  | last before s beforeColon afterColon v after =>
    rw [Members.found, Members.spelled, List.map_append, map_value_foundMember, v.map_value_found]
  | more before s beforeColon afterColon v after rest =>
    rw [Members.found, Members.spelled, List.map_append, List.map_append, map_value_foundMember,
      v.map_value_found, rest.map_value_found]

end

end Found

/-! ### The next string -/

section Quoted

theorem nextQuoted_append {skipped : Bytes} (h : 0x22 ∉ skipped) (rest : Bytes) :
    nextQuoted (skipped ++ rest) = nextQuoted rest := by
  have hall : ∀ b ∈ skipped, decide (b ≠ 0x22) = true := by
    intro b hb
    exact decide_eq_true fun heq => h (heq ▸ hb)
  rw [nextQuoted, List.dropWhile_append_of_pos hall]
  rfl

theorem takeWhile_to_quote (raw tail : Bytes) :
    (raw ++ 0x22 :: tail).takeWhile (· ≠ 0x22) = raw.takeWhile (· ≠ 0x22) := by
  induction raw with
  | nil => rfl
  | cons b raw ih =>
    rw [List.cons_append, List.takeWhile_cons, List.takeWhile_cons, ih]

theorem nextQuoted_quoted (s : List StringItem) (rest : Bytes) :
    nextQuoted (quoted s ++ rest) = some (cutText s) := by
  have hbytes : quoted s ++ rest = 0x22 :: (rawText s ++ 0x22 :: rest) := by simp [quoted]
  have hquote : 0x22 ∈ rawText s ++ 0x22 :: rest := by simp
  rw [nextQuoted, hbytes, List.dropWhile_cons_of_neg (by simp)]
  dsimp only
  rw [if_pos hquote, takeWhile_to_quote]
  rfl

theorem no_quote_spaces (ws : List Space) : 0x22 ∉ spaces ws := by
  simp only [spaces, List.mem_map, not_exists, not_and]
  intro w _
  cases w <;> decide

theorem no_quote_digits (ds : List (Fin 10)) : 0x22 ∉ ds.map digitByte := by
  have hdigit : ∀ d : Fin 10, digitByte d ≠ 0x22 := by decide
  simp only [List.mem_map, not_exists, not_and]
  exact fun d _ => hdigit d

theorem no_quote_number (n : Number) : 0x22 ∉ n.bytes := by
  have hsign : 0x22 ∉ (if n.negative then [0x2D] else [] : Bytes) := by
    split <;> decide
  have hfraction : 0x22 ∉ n.fractionBytes := by
    unfold Number.fractionBytes
    split
    · exact List.not_mem_nil
    · rw [List.mem_cons, not_or]
      exact ⟨by decide, no_quote_digits _⟩
  have hexponent : 0x22 ∉ n.exponentBytes := by
    unfold Number.exponentBytes
    cases n.exponent with
    | none => exact List.not_mem_nil
    | some e =>
      have hmark : (0x22 : UInt8) ≠ if e.upper then 0x45 else 0x65 := by split <;> decide
      have hsign : 0x22 ∉ e.sign.bytes := by cases e.sign <;> decide
      simp only [Option.elim_some, Exponent.bytes, List.cons_append, List.mem_cons,
        List.mem_append, not_or]
      exact ⟨hmark, hsign, no_quote_digits _⟩
  simp only [Number.bytes, List.mem_append, not_or]
  exact ⟨⟨⟨hsign, no_quote_digits _⟩, hfraction⟩, hexponent⟩

theorem no_quote_bracketed {opening closing : UInt8} (hopening : opening ≠ 0x22)
    (hclosing : closing ≠ 0x22) (inner : List Space) :
    0x22 ∉ opening :: spaces inner ++ [closing] := by
  simp only [List.mem_append, List.mem_cons, not_or]
  exact ⟨⟨hopening.symm, no_quote_spaces inner⟩, hclosing.symm, List.not_mem_nil⟩

mutual

theorem Value.nextQuoted_bytes (v : Value) (rest : Bytes) :
    nextQuoted (v.bytes ++ rest) = v.firstQuoted.or (nextQuoted rest) := by
  cases v with
  | literal l => exact nextQuoted_append (by cases l <;> decide) rest
  | number n => exact nextQuoted_append (no_quote_number n) rest
  | string s => exact nextQuoted_quoted s rest
  | emptyArray inner =>
    exact nextQuoted_append (no_quote_bracketed (by decide) (by decide) inner) rest
  | emptyObject inner =>
    exact nextQuoted_append (no_quote_bracketed (by decide) (by decide) inner) rest
  | array elements =>
    have hopen : 0x22 ∉ ([0x5B] : Bytes) := by decide
    have hclose : 0x22 ∉ ([0x5D] : Bytes) := by decide
    have helements := elements.nextQuoted_bytes ([0x5D] ++ rest)
    rw [nextQuoted_append hclose, ← nextQuoted_append hopen] at helements
    rw [Value.bytes, Value.firstQuoted, ← helements]
    simp
  | object members =>
    have hopen : 0x22 ∉ ([0x7B] : Bytes) := by decide
    have hclose : 0x22 ∉ ([0x7D] : Bytes) := by decide
    have hmembers := members.nextQuoted_bytes ([0x7D] ++ rest)
    rw [nextQuoted_append hclose, ← nextQuoted_append hopen] at hmembers
    rw [Value.bytes, Value.firstQuoted, ← hmembers]
    simp

theorem Elements.nextQuoted_bytes (elements : Elements) (rest : Bytes) :
    nextQuoted (elements.bytes ++ rest) = elements.firstQuoted.or (nextQuoted rest) := by
  cases elements with
  | last before v after =>
    have hv := v.nextQuoted_bytes (spaces after ++ rest)
    rw [nextQuoted_append (no_quote_spaces after), ← nextQuoted_append (no_quote_spaces before)] at hv
    rw [Elements.bytes, Elements.firstQuoted, ← hv]
    simp
  | more before v after others =>
    have hcomma : 0x22 ∉ spaces after ++ [0x2C] := by simp [no_quote_spaces after]
    have hv := v.nextQuoted_bytes (spaces after ++ [0x2C] ++ (others.bytes ++ rest))
    rw [nextQuoted_append hcomma, others.nextQuoted_bytes rest,
      ← nextQuoted_append (no_quote_spaces before)] at hv
    rw [Elements.bytes, Elements.firstQuoted, Option.or_assoc, ← hv]
    simp

theorem Members.nextQuoted_bytes (members : Members) (rest : Bytes) :
    nextQuoted (members.bytes ++ rest) = members.firstQuoted.or (nextQuoted rest) := by
  cases members with
  | last before s beforeColon afterColon v after =>
    have hname := nextQuoted_quoted s (spaces beforeColon ++ 0x3A :: spaces afterColon ++ v.bytes ++
      spaces after ++ rest)
    rw [← nextQuoted_append (no_quote_spaces before)] at hname
    rw [Members.bytes, Members.firstQuoted, Option.some_or, ← hname]
    simp
  | more before s beforeColon afterColon v after others =>
    have hname := nextQuoted_quoted s (spaces beforeColon ++ 0x3A :: spaces afterColon ++ v.bytes ++
      spaces after ++ 0x2C :: others.bytes ++ rest)
    rw [← nextQuoted_append (no_quote_spaces before)] at hname
    rw [Members.bytes, Members.firstQuoted, Option.some_or, ← hname]
    simp

end

end Quoted

/-! ### The first member found -/

/-- The search through `text` ends at the first of the members or, when there is none, goes on with
what comes after. -/
def Leads (name : Bytes) (fs : List Found) (text rest : Bytes) : Prop :=
  match fs with
  | [] => afterFirst (keyOf name) text = afterFirst (keyOf name) rest
  | f :: _ => ∃ tail, Stops tail ∧ f.value.firstQuoted.or (nextQuoted tail) = f.quoted ∧
      afterFirst (keyOf name) text = some (spaces f.afterColon ++ f.value.bytes ++ tail)

section Leads

variable {name : Bytes}

theorem Leads.append {fs gs : List Found} {text middle rest : Bytes}
    (h : Leads name fs text middle) (h' : Leads name gs middle rest) :
    Leads name (fs ++ gs) text rest := by
  cases fs with
  | nil =>
    cases gs with
    | nil => exact Eq.trans h h'
    | cons g gs =>
      obtain ⟨tail, htail, hquoted, hfound⟩ := h'
      exact ⟨tail, htail, hquoted, Eq.trans h hfound⟩
  | cons f fs => exact h

theorem leads_skip {skipped rest : Bytes} (h : 0x22 ∉ skipped) :
    Leads name [] (skipped ++ rest) rest := afterFirst_append h

theorem Leads.skip {fs : List Found} {skipped text rest : Bytes} (h : 0x22 ∉ skipped)
    (htext : Leads name fs text rest) : Leads name fs (skipped ++ text) rest :=
  (leads_skip h).append htext

theorem Stops.spaces {rest : Bytes} (h : Stops rest) (ws : List Space) :
    Stops (spaces ws ++ rest) := by
  cases ws with
  | nil => exact h
  | cons w ws =>
    intro b hb
    obtain rfl := Option.some.inj hb
    cases w <;> decide

theorem stops_cons {b : UInt8} (rest : Bytes)
    (h : b ∈ ([0x20, 0x09, 0x0A, 0x0D, 0x2C, 0x5D, 0x7D] : Bytes)) : Stops (b :: rest) := by
  intro c hc
  obtain rfl := Option.some.inj hc
  exact h

/-- A name is followed by whitespace or its colon, which do not start a plain name. -/
theorem PlainName.ne_of_mem (hname : PlainName name) {b : UInt8}
    (hb : b ∈ ([0x20, 0x09, 0x0A, 0x0D, 0x2C, 0x3A, 0x5D, 0x7D] : Bytes)) :
    name.head? ≠ some b := by
  obtain ⟨c, hc, hstart⟩ := hname.starts
  rw [hc]
  rintro heq
  exact hstart (Option.some.inj heq ▸ hb)

theorem leads_string (hname : PlainName name) (s : List StringItem) {rest : Bytes}
    (hrest : Stops rest) : Leads name [] (quoted s ++ rest) rest := by
  have hcolon : rest.head? ≠ some 0x3A := fun h => absurd (hrest _ h) (by decide)
  change afterFirst _ _ = _
  rw [afterFirst_quoted s hname, if_neg fun h => hcolon h.2]
  intro b hb
  apply hname.ne_of_mem
  have hmem := hrest b hb
  simp only [List.mem_cons] at hmem ⊢
  tauto

theorem leads_member (hname : PlainName name) (s : List StringItem)
    (before beforeColon afterColon : List Space) {v : Value} {rest : Bytes} (hrest : Stops rest)
    (hv : Leads name (v.found name (nextQuoted rest)) (v.bytes ++ rest) rest) :
    Leads name (foundMember name s beforeColon afterColon v (nextQuoted rest) ++
        v.found name (nextQuoted rest))
      (spaces before ++ (quoted s ++ (spaces beforeColon ++ 0x3A :: (spaces afterColon ++
        (v.bytes ++ rest))))) rest := by
  apply Leads.skip (no_quote_spaces before)
  have hcolon : 0x22 ∉ spaces beforeColon ++ [0x3A] ++ spaces afterColon := by
    simp only [List.mem_append, not_or]
    exact ⟨⟨no_quote_spaces _, by decide⟩, no_quote_spaces _⟩
  have hvalue : Leads name (v.found name (nextQuoted rest))
      (spaces beforeColon ++ 0x3A :: (spaces afterColon ++ (v.bytes ++ rest))) rest := by
    have hskip := hv.skip hcolon
    simpa using hskip
  have hhead (b : UInt8) (hb : (spaces beforeColon ++ 0x3A :: (spaces afterColon ++
      (v.bytes ++ rest))).head? = some b) :
      b ∈ ([0x20, 0x09, 0x0A, 0x0D, 0x2C, 0x3A, 0x5D, 0x7D] : Bytes) := by
    cases beforeColon with
    | nil =>
      obtain rfl := Option.some.inj hb
      decide
    | cons w ws =>
      obtain rfl := Option.some.inj hb
      cases w <;> decide
  have hquoted := afterFirst_quoted s hname fun b hb => hname.ne_of_mem (hhead b hb)
  unfold foundMember
  by_cases hs : Spells s name ∧ beforeColon = []
  · obtain ⟨hspells, rfl⟩ := hs
    rw [if_pos ⟨hspells, rfl⟩]
    rw [if_pos ⟨hspells, rfl⟩] at hquoted
    refine ⟨rest, hrest, rfl, ?_⟩
    rw [hquoted, List.append_assoc]
    rfl
  · rw [if_neg hs, List.nil_append]
    have hcolon : ¬ (Spells s name ∧ (spaces beforeColon ++ 0x3A :: (spaces afterColon ++
        (v.bytes ++ rest))).head? = some 0x3A) := by
      rintro ⟨hspells, hcolon⟩
      cases beforeColon with
      | nil => exact hs ⟨hspells, rfl⟩
      | cons w ws => cases w <;> exact absurd (Option.some.inj hcolon) (by decide)
    rw [if_neg hcolon] at hquoted
    exact Leads.append (show Leads name [] _ _ from hquoted) hvalue

/-- A list in brackets, given how the search goes through the list. -/
theorem Leads.enclosed {fs : List Found} {opening closing : UInt8} {inner rest : Bytes}
    (hopening : opening ≠ 0x22) (hclosing : closing ≠ 0x22)
    (h : Leads name fs (inner ++ closing :: rest) (closing :: rest)) :
    Leads name fs (opening :: inner ++ [closing] ++ rest) rest := by
  have hopen : 0x22 ∉ [opening] := by simpa using hopening.symm
  have hclose : Leads name [] ([closing] ++ rest) rest :=
    leads_skip (by simpa using hclosing.symm)
  have hall := (h.skip hopen).append hclose
  simpa using hall

theorem nextQuoted_comma (after : List Space) (rest : Bytes) :
    nextQuoted (spaces after ++ 0x2C :: rest) = nextQuoted rest := by
  have hcomma : 0x22 ∉ spaces after ++ [0x2C] := by simp [no_quote_spaces after]
  have hskip := nextQuoted_append hcomma rest
  rwa [List.append_assoc, List.singleton_append] at hskip

mutual

theorem leads_value (hname : PlainName name) (v : Value) {rest : Bytes} (hrest : Stops rest) :
    Leads name (v.found name (nextQuoted rest)) (v.bytes ++ rest) rest := by
  cases v with
  | literal l => exact leads_skip (by cases l <;> decide)
  | number n => exact leads_skip (no_quote_number n)
  | string s => exact leads_string hname s hrest
  | emptyArray inner =>
    apply leads_skip
    simp only [Value.bytes, List.mem_append, List.mem_cons, not_or]
    exact ⟨⟨by decide, no_quote_spaces inner⟩, by decide, List.not_mem_nil⟩
  | array elements =>
    have hclose : 0x22 ∉ ([0x5D] : Bytes) := by decide
    have hinner := leads_elements hname elements (stops_cons (b := 0x5D) rest (by decide))
    rw [← List.singleton_append, nextQuoted_append hclose] at hinner
    exact hinner.enclosed (by decide) (by decide)
  | emptyObject inner =>
    apply leads_skip
    simp only [Value.bytes, List.mem_append, List.mem_cons, not_or]
    exact ⟨⟨by decide, no_quote_spaces inner⟩, by decide, List.not_mem_nil⟩
  | object members =>
    have hclose : 0x22 ∉ ([0x7D] : Bytes) := by decide
    have hinner := leads_members hname members (stops_cons (b := 0x7D) rest (by decide))
    rw [← List.singleton_append, nextQuoted_append hclose] at hinner
    exact hinner.enclosed (by decide) (by decide)

theorem leads_elements (hname : PlainName name) (elements : Elements) {rest : Bytes}
    (hrest : Stops rest) :
    Leads name (elements.found name (nextQuoted rest)) (elements.bytes ++ rest) rest := by
  cases elements with
  | last before v after =>
    have hv := leads_value hname v (hrest.spaces after)
    rw [nextQuoted_append (no_quote_spaces after)] at hv
    have hall := (hv.skip (no_quote_spaces before)).append (leads_skip (no_quote_spaces after))
    simpa [Elements.found, Elements.bytes] using hall
  | more before v after others =>
    have hothers := leads_elements hname others hrest
    have hcomma : 0x22 ∉ spaces after ++ [0x2C] := by
      simp [no_quote_spaces after]
    have hv := leads_value hname v
      ((stops_cons (b := 0x2C) (others.bytes ++ rest) (by decide)).spaces after)
    rw [nextQuoted_comma, others.nextQuoted_bytes] at hv
    have hbetween : Leads name (others.found name (nextQuoted rest))
        (spaces after ++ 0x2C :: (others.bytes ++ rest)) rest := by
      have hskip := hothers.skip hcomma
      simpa using hskip
    have hall := (hv.skip (no_quote_spaces before)).append hbetween
    simpa [Elements.found, Elements.bytes] using hall

theorem leads_members (hname : PlainName name) (members : Members) {rest : Bytes}
    (hrest : Stops rest) :
    Leads name (members.found name (nextQuoted rest)) (members.bytes ++ rest) rest := by
  cases members with
  | last before s beforeColon afterColon v after =>
    have hafter := hrest.spaces after
    have hv := leads_value hname v hafter
    have hmember := leads_member hname s before beforeColon afterColon hafter hv
    rw [nextQuoted_append (no_quote_spaces after)] at hmember
    have hall := hmember.append (leads_skip (no_quote_spaces after))
    simpa [Members.found, Members.bytes] using hall
  | more before s beforeColon afterColon v after others =>
    have hothers := leads_members hname others hrest
    have hcomma : 0x22 ∉ spaces after ++ [0x2C] := by
      simp [no_quote_spaces after]
    have hafter := (stops_cons (b := 0x2C) (others.bytes ++ rest) (by decide)).spaces after
    have hv := leads_value hname v hafter
    have hmember := leads_member hname s before beforeColon afterColon hafter hv
    rw [nextQuoted_comma, others.nextQuoted_bytes] at hmember
    have hbetween : Leads name (others.found name (nextQuoted rest))
        (spaces after ++ 0x2C :: (others.bytes ++ rest)) rest := by
      have hskip := hothers.skip hcomma
      simpa using hskip
    have hall := hmember.append hbetween
    simpa [Members.found, Members.bytes] using hall

end

def ObjectText.found (doc : ObjectText) (name : Bytes) : Option Found :=
  (doc.body.found name none).head?

/-- Searching a whole text finds the first member spelled as the name, and nothing when there is
none. -/
theorem afterFirst_found (hname : PlainName name) (doc : ObjectText) :
    match doc.found name with
    | none => afterFirst (keyOf name) doc.bytes = none
    | some f => ∃ tail, Stops tail ∧ f.value.firstQuoted.or (nextQuoted tail) = f.quoted ∧
        afterFirst (keyOf name) doc.bytes = some (spaces f.afterColon ++ f.value.bytes ++ tail) := by
  have hnil : Stops [] := fun _ hb => absurd hb (by simp)
  have hend := hnil.spaces doc.after
  have hbody := leads_value hname doc.body hend
  have hspaces : nextQuoted (spaces doc.after) = none := by
    have hskip := nextQuoted_append (no_quote_spaces doc.after) []
    rwa [List.append_nil] at hskip
  have hall := (hbody.skip (no_quote_spaces doc.before)).append
    (leads_skip (no_quote_spaces doc.after))
  rw [List.append_nil, List.append_nil, ← List.append_assoc, hspaces] at hall
  unfold ObjectText.found
  cases hfound : doc.body.found name none with
  | nil =>
    rw [hfound] at hall
    exact hall
  | cons f fs =>
    rw [hfound] at hall
    exact hall

theorem map_value_found (doc : ObjectText) :
    (doc.found name).map Found.value = (doc.body.spelled name).head? := by
  rw [← doc.body.map_value_found none, List.head?_map]
  rfl

end Leads

end JsonText
