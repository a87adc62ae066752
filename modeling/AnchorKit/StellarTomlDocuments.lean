import AnchorKit.StellarTomlLines

/-!
# Reading stellar.toml documents

What the parser makes of a whole document: the fields assigned outside of the currency blocks that it
sees, and the blocks themselves. Compared with what the document says, where a field counts
wherever it is assigned.
-/

namespace AnchorKit

open Fallible

namespace StellarToml

def assignments : List Item → List (Text × Text)
  | [] => []
  | .header _ :: l => assignments l
  | .entry key value :: l => (key, value) :: assignments l

def outside : Bool → List Item → List (Text × Text)
  | _, [] => []
  | _, .header isCurrencies :: l => outside isCurrencies l
  | inBlock, .entry key value :: l =>
    if inBlock then outside inBlock l else (key, value) :: outside inBlock l

def body : List Item → List (Text × Text)
  | .entry key value :: l => (key, value) :: body l
  | _ => []

def blocks : List Item → List (List (Text × Text))
  | [] => []
  | .header isCurrencies :: l => if isCurrencies then body l :: blocks l else blocks l
  | .entry _ _ :: l => blocks l

def lastValue (key : Text) (assigned : List (Text × Text)) : Option Text :=
  ((assigned.filter fun kv => kv.1 = key).getLast?).map Prod.snd

def currencyOf (block : List (Text × Text)) : ParsedCurrency where
  code := (lastValue "code".toList block).getD []
  issuer := lastValue "issuer".toList block
  status := lastValue "status".toList block

/-- Some field has no anchor domain where it should, or some currency no code or an empty issuer. -/
def Refused (assigned : List (Text × Text)) (currencyBlocks : List (List (Text × Text))) : Prop :=
  (∃ field : Field, field.isUrl = true ∧ ∃ value, (field.key, value) ∈ assigned ∧
    validateAnchorDomain value ≠ .ok ()) ∨
  (∃ block ∈ currencyBlocks, (currencyOf block).code = []) ∨
  ∃ block ∈ currencyBlocks, ("issuer".toList, []) ∈ block

/-- The codes without repetition, each at its first occurrence. -/
def firstOccurrences : List Text → List Text
  | [] => []
  | code :: l => code :: (firstOccurrences l).filter fun other => other ≠ code

section Steps

variable {p q : Parser} {cur : ParsedCurrency} {key value : Text}

theorem Field.ofKey_eq_some {field : Field} : Field.ofKey key = some field ↔ field.key = key := by
  constructor
  · intro h
    simpa using List.find?_some h
  · rintro rfl
    cases field <;> decide

@[simp] theorem Endpoints.get_set (e : Endpoints) (field other : Field) :
    (e.set value field).get other = if other = field then some value else e.get other := by
  cases field <;> cases other <;> rfl

def Endpoints.record (e : Endpoints) (kv : Text × Text) : Endpoints :=
  match Field.ofKey kv.1 with
  | some field => e.set kv.2 field
  | none => e

def ParsedCurrency.record (cur : ParsedCurrency) (kv : Text × Text) : ParsedCurrency :=
  if kv.1 = "code".toList then { cur with code := kv.2 }
  else if kv.1 = "issuer".toList then { cur with issuer := some kv.2 }
  else if kv.1 = "status".toList then { cur with status := some kv.2 }
  else cur

def FieldOk (kv : Text × Text) : Prop :=
  ∀ field : Field, field.key = kv.1 → field.isUrl = true → validateAnchorDomain kv.2 = .ok ()

def IssuerOk (kv : Text × Text) : Prop := kv.1 = "issuer".toList → trimmed kv.2 ≠ []

theorem ok_eq_ok {α : Type} {a b : α} : (Except.ok a : Except AnchorKitError α) = .ok b ↔ b = a :=
  ⟨fun h => (Except.ok.inj h).symm, fun h => congrArg _ h.symm⟩

theorem ParsedCurrency.assign_eq_ok {next : ParsedCurrency} :
    cur.assign key value = .ok next ↔ IssuerOk (key, value) ∧ next = cur.record (key, value) := by
  have hcode_issuer : "code".toList ≠ "issuer".toList := by decide
  unfold ParsedCurrency.assign ParsedCurrency.record IssuerOk
  dsimp only
  by_cases hcode : key = "code".toList
  · rw [if_pos hcode, if_pos hcode, ok_eq_ok]
    exact ⟨fun h => ⟨fun hissuer => absurd (hcode.symm.trans hissuer) hcode_issuer, h⟩, And.right⟩
  · rw [if_neg hcode, if_neg hcode]
    by_cases hissuer : key = "issuer".toList
    · rw [if_pos hissuer, if_pos hissuer, require_bind_eq_ok, pure_eq_ok, eq_comm (a := next)]
      exact and_congr_left' ⟨fun h _ => h, fun h => h hissuer⟩
    · rw [if_neg hissuer, if_neg hissuer]
      have hnone : key = "issuer".toList → trimmed value ≠ [] := fun h => absurd h hissuer
      split
      · rw [ok_eq_ok]
        exact ⟨fun h => ⟨hnone, h⟩, And.right⟩
      · rw [ok_eq_ok]
        exact ⟨fun h => ⟨hnone, h⟩, And.right⟩

theorem assign_in_block (hp : p.table = .currencies) (hcur : p.current = some cur) :
    p.assign key value = .ok q ↔
      IssuerOk (key, value) ∧ q = { p with current := some (cur.record (key, value)) } := by
  simp only [Parser.assign, hp, hcur, Option.getD_some, bind_eq_ok, pure_eq_ok,
    ParsedCurrency.assign_eq_ok]
  constructor
  · rintro ⟨_, ⟨hissuer, rfl⟩, rfl⟩
    exact ⟨hissuer, rfl⟩
  · rintro ⟨hissuer, rfl⟩
    exact ⟨_, ⟨hissuer, rfl⟩, rfl⟩

theorem assign_outside (hp : p.table = .other) :
    p.assign key value = .ok q ↔
      FieldOk (key, value) ∧ q = { p with endpoints := p.endpoints.record (key, value) } := by
  have hfield (field : Field) : field.key = key ↔ Field.ofKey key = some field :=
    Field.ofKey_eq_some.symm
  rcases p with ⟨endpoints, currencies, table, current⟩
  obtain rfl : table = .other := hp
  unfold Parser.assign FieldOk Endpoints.record
  simp only [hfield]
  cases Field.ofKey key with
  | none =>
    rw [ok_eq_ok]
    constructor
    · rintro rfl
      exact ⟨by simp, rfl⟩
    · exact And.right
  | some field =>
    simp only [Option.some.injEq, forall_eq']
    cases hurl : field.isUrl with
    | false =>
      simp only [Bool.false_eq_true, if_false, false_implies, true_and, pure_eq_ok,
        eq_comm (a := q)]
    | true =>
      simp only [if_true, bind_eq_ok, pure_eq_ok, true_implies, eq_comm (a := q)]
      constructor
      · intro h
        obtain ⟨_, hvalid, hpost⟩ := h
        exact ⟨hvalid, hpost⟩
      · intro h
        exact ⟨(), h.1, h.2⟩

theorem flushCurrency_eq_ok {current : Option ParsedCurrency}
    {currencies flushed : List ParsedCurrency} :
    flushCurrency current currencies = .ok flushed ↔
      (∀ c ∈ current, c.code ≠ []) ∧ flushed = currencies ++ current.toList := by
  cases current with
  | none => simp [flushCurrency, eq_comm (a := flushed)]
  | some c =>
    by_cases hcode : c.code = []
    · simp [flushCurrency, hcode]
    · simp [flushCurrency, hcode, eq_comm (a := flushed)]

def resultOf (endpoints : Endpoints) (currencies : List ParsedCurrency) : ParsedStellarToml :=
  { endpoints with
    supportedAssets := currencies.foldl (fun assets c => Roster.pushIfAbsent assets c.code) []
    currencies }

theorem finish_eq_ok {r : ParsedStellarToml} : p.finish = .ok r ↔
    (∀ c ∈ p.current, c.code ≠ []) ∧
      r = resultOf p.endpoints (p.currencies ++ p.current.toList) := by
  simp only [Parser.finish, bind_eq_ok, flushCurrency_eq_ok, pure_eq_ok]
  constructor
  · rintro ⟨_, ⟨hcode, rfl⟩, rfl⟩
    exact ⟨hcode, rfl⟩
  · rintro ⟨hcode, rfl⟩
    exact ⟨_, ⟨hcode, rfl⟩, rfl⟩

theorem openTable_eq_ok {isCurrencies : Bool} : p.openTable isCurrencies = .ok q ↔
    (∀ c ∈ p.current, c.code ≠ []) ∧
      q = { p with
        currencies := p.currencies ++ p.current.toList
        table := if isCurrencies then .currencies else .other
        current := if isCurrencies then some .empty else none } := by
  simp only [Parser.openTable, bind_eq_ok, flushCurrency_eq_ok]
  constructor
  · rintro ⟨_, ⟨hcode, rfl⟩, hpost⟩
    refine ⟨hcode, ?_⟩
    cases isCurrencies <;> exact (pure_eq_ok.mp hpost).symm
  · rintro ⟨hcode, rfl⟩
    refine ⟨_, ⟨hcode, rfl⟩, ?_⟩
    cases isCurrencies <;> rfl

end Steps

section Runs

variable {p : Parser} {cur : ParsedCurrency} {kv : Text × Text} {block : List (Text × Text)}
  {l : List Item}

/-- The blocks that are still to be put down, the open one first. -/
def openBlocks (current : Option ParsedCurrency) (l : List Item) :
    List (ParsedCurrency × List (Text × Text)) :=
  (current.map fun cur => (cur, body l)).toList ++ (blocks l).map fun block => (.empty, block)

def declared (b : ParsedCurrency × List (Text × Text)) : ParsedCurrency :=
  b.2.foldl ParsedCurrency.record b.1

structure BlockOk (b : ParsedCurrency × List (Text × Text)) : Prop where
  code : (declared b).code ≠ []
  issuer : ∀ kv ∈ b.2, IssuerOk kv

theorem blockOk_nil : BlockOk (cur, []) ↔ cur.code ≠ [] :=
  ⟨BlockOk.code, fun hcode => ⟨hcode, by simp⟩⟩

theorem blockOk_cons : BlockOk (cur, kv :: block) ↔ IssuerOk kv ∧ BlockOk (cur.record kv, block) := by
  constructor
  · intro h
    exact ⟨h.issuer kv List.mem_cons_self, h.code,
      fun other hother => h.issuer other (List.mem_cons_of_mem _ hother)⟩
  · intro h
    exact ⟨h.2.code, List.forall_mem_cons.mpr ⟨h.1, h.2.issuer⟩⟩

theorem openBlocks_header {isCurrencies : Bool} (current : Option ParsedCurrency) :
    openBlocks current (.header isCurrencies :: l) =
      (current.map fun cur => (cur, [])).toList ++
        openBlocks (if isCurrencies then some .empty else none) l := by
  cases isCurrencies <;> rfl

/-- The parser is inside of a block when it has a currency at hand. -/
def Parser.InStep (p : Parser) : Prop :=
  p.table = if p.current.isSome then .currencies else .other

/-- The rest of a document is read from `p` on, and it becomes `r`. -/
def Becomes (p : Parser) (l : List Item) (r : ParsedStellarToml) : Prop :=
  (∀ kv ∈ outside p.current.isSome l, FieldOk kv) ∧
  (∀ b ∈ openBlocks p.current l, BlockOk b) ∧
  r = resultOf ((outside p.current.isSome l).foldl Endpoints.record p.endpoints)
    (p.currencies ++ (openBlocks p.current l).map declared)

theorem becomes_header {r : ParsedStellarToml} {isCurrencies : Bool} :
    Becomes p (.header isCurrencies :: l) r ↔ (∀ c ∈ p.current, c.code ≠ []) ∧
      Becomes { p with
        currencies := p.currencies ++ p.current.toList
        table := if isCurrencies then .currencies else .other
        current := if isCurrencies then some .empty else none } l r := by
  have hsome : (if isCurrencies then some ParsedCurrency.empty else none).isSome = isCurrencies := by
    cases isCurrencies <;> rfl
  have hflushed : (∀ b ∈ (p.current.map fun cur => (cur, [])).toList, BlockOk b) ↔
      ∀ c ∈ p.current, c.code ≠ [] := by
    cases p.current with
    | none => simp
    | some cur => simp [blockOk_nil]
  have hdeclared : (p.current.map fun cur => (cur, [])).toList.map declared = p.current.toList := by
    cases p.current <;> rfl
  unfold Becomes
  rw [openBlocks_header, hsome, List.forall_mem_append, hflushed, List.map_append, hdeclared,
    ← List.append_assoc]
  change (∀ kv ∈ outside isCurrencies l, FieldOk kv) ∧ _ ↔ _
  constructor
  · intro h
    obtain ⟨hfields, ⟨hcode, hblocks⟩, hresult⟩ := h
    exact ⟨hcode, hfields, hblocks, hresult⟩
  · intro h
    obtain ⟨hcode, hfields, hblocks, hresult⟩ := h
    exact ⟨hfields, ⟨hcode, hblocks⟩, hresult⟩

theorem becomes_entry_in_block {r : ParsedStellarToml} {key value : Text}
    (hcur : p.current = some cur) :
    Becomes p (.entry key value :: l) r ↔ IssuerOk (key, value) ∧
      Becomes { p with current := some (cur.record (key, value)) } l r := by
  unfold Becomes
  rw [hcur]
  change _ ∧ (∀ b ∈ (cur, (key, value) :: body l) :: _, BlockOk b) ∧ _ ↔
    _ ∧ _ ∧ (∀ b ∈ (cur.record (key, value), body l) :: _, BlockOk b) ∧ _
  rw [List.forall_mem_cons, List.forall_mem_cons, blockOk_cons]
  constructor
  · intro h
    obtain ⟨hfields, ⟨⟨hissuer, hblock⟩, hblocks⟩, hresult⟩ := h
    exact ⟨hissuer, hfields, ⟨hblock, hblocks⟩, hresult⟩
  · intro h
    obtain ⟨hissuer, hfields, ⟨hblock, hblocks⟩, hresult⟩ := h
    exact ⟨hfields, ⟨⟨hissuer, hblock⟩, hblocks⟩, hresult⟩

theorem becomes_entry_outside {r : ParsedStellarToml} {key value : Text}
    (hcur : p.current = none) :
    Becomes p (.entry key value :: l) r ↔ FieldOk (key, value) ∧
      Becomes { p with endpoints := p.endpoints.record (key, value) } l r := by
  unfold Becomes
  rw [hcur]
  change (∀ kv ∈ (key, value) :: outside false l, FieldOk kv) ∧ _ ↔ _
  rw [List.forall_mem_cons, and_assoc]
  rfl

/-- The parser goes through with the rest of a document when all assignments are accepted and every
block gets a code. -/
theorem visits_eq_ok {r : ParsedStellarToml} (hp : p.InStep) :
    (l.foldlM Parser.visit p >>= Parser.finish) = .ok r ↔ Becomes p l r := by
  induction l generalizing p with
  | nil =>
    rw [List.foldlM_nil, pure_bind, finish_eq_ok]
    unfold Becomes
    cases hcur : p.current with
    | none => simp [outside, openBlocks, blocks]
    | some cur => simp [outside, openBlocks, blocks, body, blockOk_nil, declared]
  | cons item l ih =>
    rw [List.foldlM_cons, bind_assoc, bind_eq_ok]
    cases item with
    | header isCurrencies =>
      rw [becomes_header, ← ih (by cases isCurrencies <;> rfl)]
      simp only [Parser.visit, openTable_eq_ok, and_assoc, exists_and_left, exists_eq_left]
    | entry key value =>
      cases hcur : p.current with
      | none =>
        have htable : p.table = .other := by simpa [Parser.InStep, hcur] using hp
        rw [becomes_entry_outside hcur, ← ih (by simpa [Parser.InStep, hcur] using htable)]
        simp only [Parser.visit, assign_outside htable, and_assoc, exists_and_left, exists_eq_left]
      | some cur =>
        have htable : p.table = .currencies := by simpa [Parser.InStep, hcur] using hp
        rw [becomes_entry_in_block hcur, ← ih (by simpa [Parser.InStep] using htable)]
        simp only [Parser.visit, assign_in_block htable hcur, and_assoc, exists_and_left,
          exists_eq_left]

end Runs

section Outcome

variable {kv : Text × Text} {assigned : List (Text × Text)} {key : Text} {l : List Item}

@[simp] theorem lastValue_nil : lastValue key [] = none := rfl

theorem lastValue_snoc : lastValue key (assigned ++ [kv]) =
    if kv.1 = key then some kv.2 else lastValue key assigned := by
  unfold lastValue
  rw [List.filter_append]
  by_cases h : kv.1 = key
  · simp [h]
  · simp [h]

theorem foldl_record_field (field : Field) :
    (assigned.foldl Endpoints.record .empty).get field = lastValue field.key assigned := by
  induction assigned using List.reverseRecOn with
  | nil => cases field <;> rfl
  | append_singleton assigned kv ih =>
    rw [List.foldl_append, List.foldl_cons, List.foldl_nil, lastValue_snoc, ← ih, Endpoints.record]
    cases hkey : Field.ofKey kv.1 with
    | none =>
      rw [if_neg]
      intro h
      rw [Field.ofKey_eq_some.mpr h.symm] at hkey
      cases hkey
    | some other =>
      have hother := Field.ofKey_eq_some.mp hkey
      dsimp only
      rw [Endpoints.get_set]
      by_cases h : field = other
      · rw [if_pos h, if_pos (by rw [h, hother])]
      · rw [if_neg h, if_neg]
        intro heq
        rw [Field.ofKey_eq_some.mpr heq.symm] at hkey
        exact h (Option.some.inj hkey)

theorem foldl_record_currency : assigned.foldl ParsedCurrency.record .empty = currencyOf assigned := by
  induction assigned using List.reverseRecOn with
  | nil => rfl
  | append_singleton assigned kv ih =>
    rw [List.foldl_append, List.foldl_cons, List.foldl_nil, ih]
    unfold ParsedCurrency.record currencyOf
    simp only [lastValue_snoc]
    by_cases hcode : kv.1 = "code".toList
    · simp [hcode]
    · by_cases hissuer : kv.1 = "issuer".toList
      · simp [hissuer]
      · by_cases hstatus : kv.1 = "status".toList
        · simp [hstatus]
        · simp only [if_neg hcode, if_neg hissuer, if_neg hstatus]

theorem pushIfAbsent_fold (codes acc : List Text) :
    codes.foldl Roster.pushIfAbsent acc =
      acc ++ (firstOccurrences codes).filter fun code => code ∉ acc := by
  induction codes generalizing acc with
  | nil => simp [firstOccurrences]
  | cons code codes ih =>
    rw [List.foldl_cons, ih, firstOccurrences]
    unfold Roster.pushIfAbsent
    by_cases hmem : code ∈ acc
    · rw [if_pos hmem, List.filter_cons_of_neg (by simpa using hmem), List.filter_filter]
      congr 1
      apply List.filter_congr
      intro other _
      by_cases hother : other = code
      · simp [hother, hmem]
      · simp [hother]
    · rw [if_neg hmem, List.filter_cons_of_pos (by simpa using hmem), List.filter_filter,
        List.append_assoc, List.singleton_append]
      congr 2
      apply List.filter_congr
      intro other _
      rw [← Bool.decide_and, decide_eq_decide, List.mem_append, List.mem_singleton, not_or]

/-- The assets of a document are the codes of its currencies. -/
theorem supportedAssets_eq (endpoints : Endpoints) (currencies : List ParsedCurrency) :
    (resultOf endpoints currencies).supportedAssets =
      firstOccurrences (currencies.map ParsedCurrency.code) := by
  have hfold := pushIfAbsent_fold (currencies.map ParsedCurrency.code) []
  rw [List.foldl_map, List.nil_append] at hfold
  exact hfold.trans (by simp)

theorem not_refused_iff {currencyBlocks : List (List (Text × Text))} :
    ¬ Refused assigned currencyBlocks ↔ (∀ kv ∈ assigned, FieldOk kv) ∧
      (∀ block ∈ currencyBlocks, (currencyOf block).code ≠ []) ∧
      ∀ block ∈ currencyBlocks, ("issuer".toList, []) ∉ block := by
  have hfields : (¬ ∃ field : Field, field.isUrl = true ∧ ∃ value, (field.key, value) ∈ assigned ∧
      validateAnchorDomain value ≠ .ok ()) ↔ ∀ kv ∈ assigned, FieldOk kv := by
    constructor
    · intro h kv hkv field hfield hurl
      by_contra hinvalid
      exact h ⟨field, hurl, kv.2, hfield ▸ hkv, hinvalid⟩
    · intro h hbad
      obtain ⟨field, hurl, value, hmem, hinvalid⟩ := hbad
      exact hinvalid (h _ hmem field rfl hurl)
  unfold Refused
  rw [not_or, not_or, hfields]
  simp only [not_exists, not_and, ne_eq]

theorem mem_assignments_of_body (hkv : kv ∈ body l) : kv ∈ assignments l := by
  induction l with
  | nil => cases hkv
  | cons item l ih =>
    cases item with
    | header _ => cases hkv
    | entry key value =>
      rcases List.mem_cons.mp hkv with rfl | hkv
      · exact List.mem_cons_self
      · exact List.mem_cons_of_mem _ (ih hkv)

theorem mem_assignments_of_block {block : List (Text × Text)} (hblock : block ∈ blocks l)
    (hkv : kv ∈ block) : kv ∈ assignments l := by
  induction l with
  | nil => cases hblock
  | cons item l ih =>
    cases item with
    | header isCurrencies =>
      cases isCurrencies with
      | false => exact ih hblock
      | true =>
        rcases List.mem_cons.mp hblock with rfl | hblock
        · have hmem : kv ∈ assignments l := mem_assignments_of_body hkv
          exact hmem
        · exact ih hblock
    | entry key value => exact List.mem_cons_of_mem _ (ih hblock)

/-- What a document becomes from the start, when its values have no spaces around them. -/
theorem becomes_start {r : ParsedStellarToml}
    (htrimmed : ∀ kv ∈ assignments l, trimmed kv.2 = kv.2) :
    Becomes .start l r ↔ ¬ Refused (outside false l) (blocks l) ∧
      r = resultOf ((outside false l).foldl Endpoints.record .empty)
        ((blocks l).map currencyOf) := by
  have hissuer (block : List (Text × Text)) (hblock : block ∈ blocks l) :
      (∀ kv ∈ block, IssuerOk kv) ↔ ("issuer".toList, []) ∉ block := by
    constructor
    · intro h hmem
      exact h _ hmem rfl rfl
    · intro h kv hkv hkey hvalue
      rw [htrimmed kv (mem_assignments_of_block hblock hkv)] at hvalue
      exact h (by rw [← hkey, ← hvalue]; exact hkv)
  have hdeclared : declared ∘ (fun block => (ParsedCurrency.empty, block)) = currencyOf := by
    funext block
    exact foldl_record_currency
  have hblocks : (∀ b ∈ openBlocks none l, BlockOk b) ↔
      (∀ block ∈ blocks l, (currencyOf block).code ≠ []) ∧
        ∀ block ∈ blocks l, ("issuer".toList, []) ∉ block := by
    have hopen : openBlocks none l = (blocks l).map fun block => (.empty, block) := rfl
    rw [hopen, List.forall_mem_map, ← forall₂_and]
    apply forall₂_congr
    intro block hblock
    rw [← hissuer block hblock, ← foldl_record_currency]
    exact ⟨fun h => ⟨h.code, h.issuer⟩, fun h => ⟨h.1, h.2⟩⟩
  rw [not_refused_iff, and_assoc, ← hblocks, ← hdeclared, ← List.map_map]
  rfl

end Outcome

end StellarToml

end AnchorKit
