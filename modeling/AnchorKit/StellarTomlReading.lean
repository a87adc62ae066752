import AnchorKit.StellarTomlDocuments

/-!
# What the parser makes of a stellar.toml document

The parser is right about a document when it refuses what is to be refused, and otherwise takes from
each field and each currency block what was last assigned. It goes wrong on fields inside of
currency blocks and on values that it does not read as they are written.
-/

namespace AnchorKit

open Fallible

namespace StellarToml

abbrev Document := List Line

def Line.entry? : Line → Option Entry
  | .entry e => some e
  | _ => none

def Line.itemAs (value : Entry → Text) : Line → Option Item
  | .header h => some (.header h.opensCurrency)
  | .entry e => some (.entry e.key (value e))
  | _ => none

def currencyKeys : List Text := ["code".toList, "issuer".toList, "status".toList]

namespace Document

def text (d : Document) : Text := List.intercalate ['\n'] (d.map Line.text)

def WellFormed (d : Document) : Prop := ∀ line ∈ d, line.WellFormed

def written (d : Document) : List Item := d.filterMap Line.written

def seen (d : Document) : List Item := d.filterMap Line.seen

def entries (d : Document) : List Entry := d.filterMap Line.entry?

def below : Document → List Entry
  | [] => []
  | .header _ :: _ => []
  | .entry e :: d => e :: below d
  | .comment _ _ :: d => below d
  | .blank _ :: d => below d

def currencyBlocks : Document → List (List Entry)
  | [] => []
  | .header h :: d => if h.opensCurrency then below d :: currencyBlocks d else currencyBlocks d
  | .entry _ :: d => currencyBlocks d
  | .comment _ _ :: d => currencyBlocks d
  | .blank _ :: d => currencyBlocks d

/-- The entries in no currency block, from inside of one or not. -/
def loose : Bool → Document → List Entry
  | _, [] => []
  | _, .header h :: d => loose h.opensCurrency d
  | inBlock, .entry e :: d => if inBlock then loose inBlock d else e :: loose inBlock d
  | inBlock, .comment _ _ :: d => loose inBlock d
  | inBlock, .blank _ :: d => loose inBlock d

/-- No line that counts is misread: other spellings of the header of a currency block do not occur,
the fields are assigned outside of the blocks, and the values of the fields and of the currencies
stand alone on their lines. -/
structure Plain (d : Document) : Prop where
  headers : ∀ h, Line.header h ∈ d → h.readsAsCurrency = true → h.opensCurrency = true
  outside : ∀ block ∈ d.currencyBlocks, ∀ e ∈ block, ∀ field : Field, e.key ≠ field.key
  fields : ∀ e ∈ d.entries, ∀ field : Field, e.key = field.key → e.Plain
  currencies : ∀ block ∈ d.currencyBlocks, ∀ e ∈ block, e.key ∈ currencyKeys → e.Plain

/-- No field is assigned twice, and no key of a currency twice in a block. -/
structure AssignsOnce (d : Document) : Prop where
  fields : ∀ field : Field, d.entries.countP (fun e => e.key = field.key) ≤ 1
  currencies : ∀ block ∈ d.currencyBlocks, ∀ key ∈ currencyKeys,
    block.countP (fun e => e.key = key) ≤ 1

end Document

/-- The parser does what the document asks for. -/
structure ReadsFaithfully (d : Document) : Prop where
  fields : ∀ r, parseStellarToml d.text = .ok r → ∀ field : Field,
    r.get field = lastValue field.key (assignments d.written)
  currencies : ∀ r, parseStellarToml d.text = .ok r →
    r.currencies = (blocks d.written).map currencyOf
  assets : ∀ r, parseStellarToml d.text = .ok r →
    r.supportedAssets =
      firstOccurrences ((blocks d.written).map fun block => (currencyOf block).code)
  fails : ¬ Succeeds (parseStellarToml d.text) ↔
    Refused (assignments d.written) (blocks d.written)

/-- The misreadings of the parser do not matter: fields inside of the blocks that it sees, values
that it does not read as written and headers that it takes for another kind neither change what is
refused nor what is assigned last. -/
structure SeenAlike (d : Document) : Prop where
  refused : Refused (outside false d.seen) (blocks d.seen) ↔
    Refused (assignments d.written) (blocks d.written)
  fields : ¬ Refused (assignments d.written) (blocks d.written) → ∀ field : Field,
    lastValue field.key (outside false d.seen) = lastValue field.key (assignments d.written)
  currencies : ¬ Refused (assignments d.written) (blocks d.written) →
    (blocks d.seen).map currencyOf = (blocks d.written).map currencyOf

section Reading

variable {d : Document} {p : Parser} {t : Text} {r : ParsedStellarToml}

theorem trimmed_line (t : Text) : trimmed ((stripEnding ['\r'] t).getD t) = trimmed t := by
  unfold stripEnding
  split
  · rename_i hsuffix
    obtain ⟨front, rfl⟩ := List.isSuffixOf_iff_suffix.mp hsuffix
    have hreturn : ∀ c ∈ ['\r'], isWhitespace c = true := by decide
    rw [List.length_append, Nat.add_sub_cancel, List.take_left, Option.getD_some]
    exact (Text.trimMatches_append_right hreturn front).symm
  · rfl

/-- The parser looks at a line without the spaces around it. -/
theorem parseLine_congr {s : Text} (h : trimmed s = trimmed t) : p.parseLine s = p.parseLine t := by
  unfold Parser.parseLine
  rw [h]

theorem foldlM_lines (hwf : d.WellFormed) :
    (d.map Line.text).foldlM (fun p t => Parser.parseLine p ((stripEnding ['\r'] t).getD t)) p =
      d.seen.foldlM Parser.visit p := by
  induction d generalizing p with
  | nil => rfl
  | cons line d ih =>
    have hline := parseLine_text (p := p) (hwf line List.mem_cons_self)
    have hrest : Document.WellFormed d :=
      fun other hother => hwf other (List.mem_cons_of_mem _ hother)
    rw [List.map_cons, List.foldlM_cons, parseLine_congr (trimmed_line _), hline]
    cases hseen : line.seen with
    | none =>
      have hskip : Document.seen (line :: d) = Document.seen d := List.filterMap_cons_none hseen
      rw [hskip, ← ih hrest]
      rfl
    | some item =>
      have hkeep : Document.seen (line :: d) = item :: Document.seen d :=
        List.filterMap_cons_some hseen
      rw [hkeep, List.foldlM_cons, Option.elim_some]
      exact bind_congr fun q => ih hrest

theorem lines_text (hwf : d.WellFormed) :
    (lines d.text).foldlM Parser.parseLine p = d.seen.foldlM Parser.visit p := by
  cases d with
  | nil => rfl
  | cons line d =>
    have hsplit : (Document.text (line :: d)).splitOn '\n' = (line :: d).map Line.text := by
      apply List.splitOn_intercalate
      · intro t ht
        obtain ⟨other, hother, rfl⟩ := List.mem_map.mp ht
        exact no_break_line (hwf other hother)
      · exact List.cons_ne_nil _ _
    rw [lines, hsplit, List.foldlM_map]
    exact foldlM_lines hwf

theorem mem_assignments {kv : Text × Text} {l : List Item} :
    kv ∈ assignments l ↔ Item.entry kv.1 kv.2 ∈ l := by
  induction l with
  | nil => simp [assignments]
  | cons item l ih =>
    cases item with
    | header _ => simp [assignments, ih]
    | entry key value => simp [assignments, ih, Prod.ext_iff]

theorem trimmed_of_seen : ∀ kv ∈ assignments d.seen, trimmed kv.2 = kv.2 := by
  intro kv hkv
  obtain ⟨line, _, hline⟩ := List.mem_filterMap.mp (mem_assignments.mp hkv)
  cases line with
  | entry e =>
    obtain ⟨_, hvalue⟩ := Item.entry.inj (Option.some.inj hline)
    rw [← hvalue]
    exact Text.trimMatches_trimMatches _ _
  | _ => cases hline

theorem parse_document (hwf : d.WellFormed) : parseStellarToml d.text = .ok r ↔
    ¬ Refused (outside false d.seen) (blocks d.seen) ∧
      r = resultOf ((outside false d.seen).foldl Endpoints.record .empty)
        ((blocks d.seen).map currencyOf) := by
  rw [parseStellarToml, lines_text hwf, ← becomes_start trimmed_of_seen]
  exact visits_eq_ok rfl

theorem succeeds_document (hwf : d.WellFormed) : Succeeds (parseStellarToml d.text) ↔
    ¬ Refused (outside false d.seen) (blocks d.seen) := by
  constructor
  · intro h
    obtain ⟨r, hr⟩ := h
    exact ((parse_document hwf).mp hr).1
  · intro h
    exact ⟨_, (parse_document hwf).mpr ⟨h, rfl⟩⟩

end Reading

section Plain

variable {d : Document} {e : Entry} {key : Text} {value : Entry → Text} {l : List Item}
  {block : List Entry}

/-! ### The entries of a document -/

theorem assignments_itemAs : assignments (d.filterMap (Line.itemAs value)) =
    d.entries.map fun e => (e.key, value e) := by
  induction d with
  | nil => rfl
  | cons line d ih =>
    cases line with
    | entry e => exact congrArg (List.cons (e.key, value e)) ih
    | header | comment | blank => exact ih

theorem body_itemAs : body (d.filterMap (Line.itemAs value)) =
    d.below.map fun e => (e.key, value e) := by
  induction d with
  | nil => rfl
  | cons line d ih =>
    cases line with
    | header h => rfl
    | entry e => exact congrArg (List.cons (e.key, value e)) ih
    | comment | blank => exact ih

theorem blocks_itemAs : blocks (d.filterMap (Line.itemAs value)) =
    d.currencyBlocks.map fun block => block.map fun e => (e.key, value e) := by
  induction d with
  | nil => rfl
  | cons line d ih =>
    cases line with
    | header h =>
      have hcons : blocks ((Line.header h :: d).filterMap (Line.itemAs value)) =
          if h.opensCurrency then body (d.filterMap (Line.itemAs value)) ::
            blocks (d.filterMap (Line.itemAs value))
          else blocks (d.filterMap (Line.itemAs value)) := rfl
      rw [hcons, Document.currencyBlocks, body_itemAs, ih]
      split
      · rfl
      · rfl
    | entry | comment | blank => exact ih

theorem outside_itemAs (inBlock : Bool) : outside inBlock (d.filterMap (Line.itemAs value)) =
    (d.loose inBlock).map fun e => (e.key, value e) := by
  induction d generalizing inBlock with
  | nil => rfl
  | cons line d ih =>
    cases line with
    | header h => exact ih h.opensCurrency
    | entry e =>
      cases inBlock with
      | false => exact congrArg (List.cons (e.key, value e)) (ih false)
      | true => exact ih true
    | comment | blank => exact ih inBlock

theorem loose_sublist (inBlock : Bool) : (d.loose inBlock).Sublist d.entries := by
  induction d generalizing inBlock with
  | nil => exact List.Sublist.refl []
  | cons line d ih =>
    cases line with
    | header h => exact ih h.opensCurrency
    | entry e =>
      cases inBlock with
      | false => exact (ih false).cons_cons e
      | true => exact (ih true).cons e
    | comment | blank => exact ih inBlock

/-- Every entry is in a block or in none. -/
theorem countP_entries (p : Entry → Bool) (inBlock : Bool) :
    (d.loose inBlock).countP p + (if inBlock then d.below.countP p else 0) +
      d.currencyBlocks.flatten.countP p = d.entries.countP p := by
  induction d generalizing inBlock with
  | nil => cases inBlock <;> rfl
  | cons line d ih =>
    cases line with
    | header h =>
      have hrest := ih h.opensCurrency
      have hbelow : Document.below (.header h :: d) = [] := rfl
      have hentries : Document.entries (.header h :: d) = Document.entries d := rfl
      rw [hbelow, hentries, ← hrest, List.countP_nil, ite_self, Nat.add_zero, Document.loose,
        Document.currencyBlocks, Nat.add_assoc]
      cases h.opensCurrency with
      | false => simp
      | true => simp
    | entry e =>
      have hrest := ih inBlock
      have hentries : Document.entries (.entry e :: d) = e :: Document.entries d := rfl
      rw [hentries, List.countP_cons, ← hrest, Document.loose, Document.below,
        Document.currencyBlocks]
      cases inBlock with
      | false =>
        simp only [Bool.false_eq_true, if_false, List.countP_cons]
        omega
      | true =>
        simp only [if_true, List.countP_cons]
        omega
    | comment | blank => exact ih inBlock

theorem filter_map_key : (block.map fun e => (e.key, value e)).filter (fun kv => kv.1 = key) =
    (block.filter fun e => e.key = key).map fun e => (e.key, value e) := by
  rw [List.filter_map]
  rfl

/-- A key that no currency block assigns is assigned outside of them only. -/
theorem filter_loose (h : ∀ block ∈ d.currencyBlocks, ∀ e ∈ block, e.key ≠ key) :
    (d.loose false).filter (fun e => e.key = key) = d.entries.filter fun e => e.key = key := by
  have hcount := countP_entries (d := d) (fun e => e.key = key) false
  have hnone : d.currencyBlocks.flatten.countP (fun e => e.key = key) = 0 := by
    rw [List.countP_eq_zero]
    intro e he
    obtain ⟨block, hblock, he⟩ := List.mem_flatten.mp he
    simpa using h block hblock e he
  rw [hnone, if_neg Bool.false_ne_true, Nat.add_zero, List.countP_eq_length_filter,
    List.countP_eq_length_filter] at hcount
  exact ((loose_sublist false).filter _).eq_of_length hcount

/-! ### Documents whose lines are not misread -/

theorem written_eq : d.written = d.filterMap (Line.itemAs Entry.value) := by
  apply List.filterMap_congr
  intro line _
  cases line <;> rfl

theorem readsAsCurrency_of_opens {h : Header} (hopens : h.opensCurrency = true) :
    h.readsAsCurrency = true := by
  obtain ⟨-, hname⟩ := Bool.and_eq_true_iff.mp hopens
  rw [Header.readsAsCurrency, of_decide_eq_true hname]
  decide

theorem seen_of_headers
    (h : ∀ h, Line.header h ∈ d → h.readsAsCurrency = true → h.opensCurrency = true) :
    d.seen = d.filterMap (Line.itemAs Entry.read) := by
  apply List.filterMap_congr
  intro line hline
  cases line with
  | header header =>
    have hsame : header.readsAsCurrency = header.opensCurrency :=
      Bool.eq_iff_iff.mpr ⟨h header hline, readsAsCurrency_of_opens⟩
    exact congrArg (fun b => some (Item.header b)) hsame
  | _ => rfl

theorem mem_entries : e ∈ d.entries ↔ Line.entry e ∈ d := by
  rw [Document.entries, List.mem_filterMap]
  constructor
  · rintro ⟨line, hline, hentry⟩
    cases line with
    | entry e' =>
      obtain rfl := Option.some.inj hentry
      exact hline
    | _ => cases hentry
  · exact fun h => ⟨_, h, rfl⟩

theorem mem_entries_of_block (hblock : block ∈ d.currencyBlocks) (he : e ∈ block) :
    e ∈ d.entries := by
  by_contra hnot
  have hcount := countP_entries (d := d) (fun other => other = e) false
  have hnone : d.entries.countP (fun other => other = e) = 0 := by
    rw [List.countP_eq_zero]
    rintro other hother heq
    exact hnot (of_decide_eq_true heq ▸ hother)
  have hsome : 0 < d.currencyBlocks.flatten.countP fun other => other = e :=
    List.countP_pos_iff.mpr ⟨e, List.mem_flatten.mpr ⟨block, hblock, he⟩, decide_eq_true rfl⟩
  omega

theorem wellFormed_of_mem (hwf : d.WellFormed) (he : e ∈ d.entries) : e.WellFormed :=
  hwf _ (mem_entries.mp he)

/-- Entries with plain values are read as they are written. -/
theorem map_read (hwf : ∀ e ∈ block, e.WellFormed) (hplain : ∀ e ∈ block, e.key = key → e.Plain) :
    ((block.map fun e => (e.key, e.read)).filter fun kv => kv.1 = key) =
      (block.map fun e => (e.key, e.value)).filter fun kv => kv.1 = key := by
  rw [filter_map_key, filter_map_key]
  refine List.map_congr_left fun e he => ?_
  obtain ⟨he, hkey⟩ := List.mem_filter.mp he
  rw [(read_eq_value_iff (hwf e he)).mpr (hplain e he (of_decide_eq_true hkey))]

/-- The misreadings do not matter where no line that counts is misread. -/
theorem SeenAlike.of_plain (hwf : d.WellFormed) (h : d.Plain) : SeenAlike d := by
  have hseen := seen_of_headers h.headers
  have hfield (field : Field) : (outside false d.seen).filter (fun kv => kv.1 = field.key) =
      (assignments d.written).filter fun kv => kv.1 = field.key := by
    rw [hseen, written_eq, outside_itemAs, assignments_itemAs, filter_map_key,
      filter_loose fun block hblock e he => h.outside block hblock e he field, ← filter_map_key]
    exact map_read (fun e he => wellFormed_of_mem hwf he) fun e he => h.fields e he field
  have hblock (block : List Entry) (hmem : block ∈ d.currencyBlocks) (key : Text)
      (hkey : key ∈ currencyKeys) :
      ((block.map fun e => (e.key, e.read)).filter fun kv => kv.1 = key) =
        (block.map fun e => (e.key, e.value)).filter fun kv => kv.1 = key :=
    map_read (fun e he => wellFormed_of_mem hwf (mem_entries_of_block hmem he))
      fun e he heq => h.currencies block hmem e he (heq ▸ hkey)
  have hcurrencies : (blocks d.seen).map currencyOf = (blocks d.written).map currencyOf := by
    rw [hseen, written_eq, blocks_itemAs, blocks_itemAs, List.map_map, List.map_map]
    refine List.map_congr_left fun block hmem => ?_
    simp only [Function.comp_apply, currencyOf, lastValue]
    rw [hblock block hmem _ (by simp [currencyKeys]), hblock block hmem _ (by simp [currencyKeys]),
      hblock block hmem _ (by simp [currencyKeys])]
  have hmem (field : Field) (value : Text) : (field.key, value) ∈ outside false d.seen ↔
      (field.key, value) ∈ assignments d.written := by
    have hiff := congrArg ((field.key, value) ∈ ·) (hfield field)
    simpa using hiff
  have hcodes : (∃ block ∈ blocks d.seen, (currencyOf block).code = []) ↔
      ∃ block ∈ blocks d.written, (currencyOf block).code = [] := by
    have hmapped (bs : List (List (Text × Text))) : (∃ block ∈ bs, (currencyOf block).code = []) ↔
        ∃ c ∈ bs.map currencyOf, c.code = [] := by simp
    rw [hmapped, hmapped, hcurrencies]
  have hissuers : (∃ block ∈ blocks d.seen, ("issuer".toList, []) ∈ block) ↔
      ∃ block ∈ blocks d.written, ("issuer".toList, []) ∈ block := by
    rw [hseen, written_eq, blocks_itemAs, blocks_itemAs]
    simp only [List.mem_map, exists_exists_and_eq_and]
    refine exists_congr fun block => and_congr_right fun hmem => ?_
    have hiff := congrArg (("issuer".toList, ([] : Text)) ∈ ·)
      (hblock block hmem "issuer".toList (by simp [currencyKeys]))
    simpa using hiff
  constructor
  · unfold Refused
    rw [hcodes, hissuers]
    simp only [hmem]
  · intro _ field
    rw [lastValue, hfield]
    rfl
  · exact fun _ => hcurrencies

/-! ### Documents that assign nothing twice -/

/-- Two entries with one key are the same where the key is assigned once. -/
theorem filter_of_once (honce : block.countP (fun e => e.key = key) ≤ 1) (he : e ∈ block)
    (hkey : e.key = key) : block.filter (fun e => e.key = key) = [e] := by
  rw [List.countP_eq_length_filter] at honce
  have hmem : e ∈ block.filter fun e => e.key = key :=
    List.mem_filter.mpr ⟨he, decide_eq_true hkey⟩
  cases hfilter : block.filter fun e => e.key = key with
  | nil =>
    rw [hfilter] at hmem
    cases hmem
  | cons other rest =>
    rw [hfilter, List.length_cons] at honce
    rw [hfilter] at hmem
    have hrest : rest = [] := List.length_eq_zero_iff.mp (by omega)
    rw [hrest] at hmem ⊢
    rw [List.mem_singleton.mp hmem]

theorem lastValue_of_once (honce : block.countP (fun e => e.key = key) ≤ 1) (he : e ∈ block)
    (hkey : e.key = key) :
    lastValue key (block.map fun e => (e.key, value e)) = some (value e) := by
  rw [lastValue, filter_map_key, filter_of_once honce he hkey]
  rfl

theorem eq_of_once {other : Entry} (honce : block.countP (fun e => e.key = key) ≤ 1)
    (he : e ∈ block) (hkey : e.key = key) (hother : other ∈ block) (hotherKey : other.key = key) :
    other = e :=
  List.singleton_inj.mp ((filter_of_once honce hother hotherKey).symm.trans
    (filter_of_once honce he hkey))

theorem mem_of_lastValue {v : Text}
    (h : lastValue key (block.map fun e => (e.key, value e)) = some v) :
    ∃ e ∈ block, e.key = key := by
  rw [lastValue, filter_map_key] at h
  obtain ⟨kv, hlast, -⟩ := Option.map_eq_some_iff.mp h
  obtain ⟨e, he, -⟩ := List.mem_map.mp (List.mem_of_getLast? hlast)
  obtain ⟨he, hkey⟩ := List.mem_filter.mp he
  exact ⟨e, he, of_decide_eq_true hkey⟩

theorem length_blocks_filterMap (f : Line → Option Item) (d : Document) :
    (blocks (d.filterMap f)).length = d.countP fun line => f line = some (.header true) := by
  induction d with
  | nil => rfl
  | cons line d ih =>
    cases hline : f line with
    | none =>
      rw [List.filterMap_cons_none hline, List.countP_cons_of_neg (by simp [hline]), ih]
    | some item =>
      rw [List.filterMap_cons_some hline]
      cases item with
      | header isCurrencies =>
        cases isCurrencies with
        | false => rw [List.countP_cons_of_neg (by simp [hline]), ← ih]; rfl
        | true => rw [List.countP_cons_of_pos (by simp [hline]), ← ih]; rfl
      | entry key value => rw [List.countP_cons_of_neg (by simp [hline]), ← ih]; rfl

/-- Where as many lines are taken for headers of currency blocks as there are, they are the same. -/
theorem headers_of_length (hlength : (blocks d.seen).length = (blocks d.written).length) :
    ∀ h, Line.header h ∈ d → h.readsAsCurrency = true → h.opensCurrency = true := by
  rw [Document.seen, Document.written, length_blocks_filterMap, length_blocks_filterMap,
    List.countP_eq_length_filter, List.countP_eq_length_filter] at hlength
  have hopens : (fun line : Line => decide (line.written = some (.header true))) ≤
      fun line => decide (line.seen = some (.header true)) := by
    intro line hline
    cases line with
    | header h =>
      have hopens : h.opensCurrency = true := by simpa [Line.written] using hline
      simpa [Line.seen] using readsAsCurrency_of_opens hopens
    | _ => simp [Line.written] at hline
  have hsame := (List.monotone_filter_right d hopens).eq_of_length hlength.symm
  intro h hmem hreads
  have hseen : Line.header h ∈ d.filter fun line => line.seen = some (.header true) :=
    List.mem_filter.mpr ⟨hmem, by simp [Line.seen, hreads]⟩
  rw [← hsame] at hseen
  simpa [Line.written] using (List.mem_filter.mp hseen).2

/-- A field that is assigned once is read where the assignment is in no block and read as
written. -/
theorem loose_of_lastValue (honce : d.entries.countP (fun e => e.key = key) ≤ 1)
    (he : e ∈ d.entries) (hkey : e.key = key)
    (hlast : lastValue key ((d.loose false).map fun e => (e.key, e.read)) =
      lastValue key (d.entries.map fun e => (e.key, e.value))) :
    e ∈ d.loose false ∧ e.read = e.value := by
  rw [lastValue_of_once honce he hkey] at hlast
  obtain ⟨other, hother, hotherKey⟩ := mem_of_lastValue hlast
  have hsame := eq_of_once honce he hkey ((loose_sublist false).subset hother) hotherKey
  rw [hsame] at hother
  have hloose : (d.loose false).countP (fun e => e.key = key) ≤ 1 :=
    (loose_sublist false).countP_le.trans honce
  rw [lastValue_of_once hloose hother hkey] at hlast
  exact ⟨hother, Option.some.inj hlast⟩

theorem not_mem_block_of_loose (honce : d.entries.countP (fun e => e.key = key) ≤ 1)
    (hloose : e ∈ d.loose false) (hkey : e.key = key) (hblock : block ∈ d.currencyBlocks) :
    e ∉ block := by
  intro he
  have hcount := countP_entries (d := d) (fun e => e.key = key) false
  have hinside : 0 < d.currencyBlocks.flatten.countP fun e => e.key = key :=
    List.countP_pos_iff.mpr ⟨e, List.mem_flatten.mpr ⟨block, hblock, he⟩, decide_eq_true hkey⟩
  have houtside : 0 < (d.loose false).countP fun e => e.key = key :=
    List.countP_pos_iff.mpr ⟨e, hloose, decide_eq_true hkey⟩
  omega

/-- Two readings of a block whose keys are assigned once agree on the currency only if they agree on
the value of every key. -/
theorem value_eq_of_currencyOf {value' : Entry → Text}
    (honce : ∀ key ∈ currencyKeys, block.countP (fun e => e.key = key) ≤ 1) (he : e ∈ block)
    (hkey : e.key ∈ currencyKeys) (hsame : currencyOf (block.map fun e => (e.key, value e)) =
      currencyOf (block.map fun e => (e.key, value' e))) : value e = value' e := by
  have hlast (v : Entry → Text) :
      lastValue e.key (block.map fun e => (e.key, v e)) = some (v e) :=
    lastValue_of_once (honce e.key hkey) he rfl
  simp only [currencyOf, ParsedCurrency.mk.injEq] at hsame
  obtain ⟨hcode, hissuer, hstatus⟩ := hsame
  simp only [currencyKeys, List.mem_cons, List.not_mem_nil, or_false] at hkey
  rcases hkey with hkey | hkey | hkey
  · rw [← hkey, hlast, hlast] at hcode
    exact hcode
  · rw [← hkey, hlast, hlast] at hissuer
    exact Option.some.inj hissuer
  · rw [← hkey, hlast, hlast] at hstatus
    exact Option.some.inj hstatus

/-- Where nothing is assigned twice, every misread line that counts changes what is read. -/
theorem SeenAlike.plain (hwf : d.WellFormed) (honce : d.AssignsOnce)
    (hnot : ¬ Refused (assignments d.written) (blocks d.written)) (h : SeenAlike d) : d.Plain := by
  have hcurrencies := h.currencies hnot
  have hlength := congrArg List.length hcurrencies
  rw [List.length_map, List.length_map] at hlength
  have hheaders := headers_of_length hlength
  have hseen := seen_of_headers hheaders
  rw [hseen, written_eq, blocks_itemAs, blocks_itemAs, List.map_map, List.map_map] at hcurrencies
  have hblock := List.map_inj_left.mp hcurrencies
  have hfield (field : Field) (e : Entry) (he : e ∈ d.entries) (hkey : e.key = field.key) :
      e ∈ d.loose false ∧ e.read = e.value := by
    have hlast := h.fields hnot field
    rw [hseen, written_eq, outside_itemAs, assignments_itemAs] at hlast
    exact loose_of_lastValue (honce.fields field) he hkey hlast
  constructor
  · exact hheaders
  · intro block hmem e he field hkey
    obtain ⟨hloose, -⟩ := hfield field e (mem_entries_of_block hmem he) hkey
    exact not_mem_block_of_loose (honce.fields field) hloose hkey hmem he
  · intro e he field hkey
    exact (read_eq_value_iff (wellFormed_of_mem hwf he)).mp (hfield field e he hkey).2
  · intro block hmem e he hkey
    exact (read_eq_value_iff (wellFormed_of_mem hwf (mem_entries_of_block hmem he))).mp
      (value_eq_of_currencyOf (honce.currencies block hmem) he hkey (hblock block hmem))

end Plain

/-- The parser does what a document asks for exactly when its misreadings do not matter. -/
theorem readsFaithfully_iff_seenAlike {d : Document} (hwf : d.WellFormed) :
    ReadsFaithfully d ↔ SeenAlike d := by
  constructor
  · intro h
    have hrefused : Refused (outside false d.seen) (blocks d.seen) ↔
        Refused (assignments d.written) (blocks d.written) := by
      rw [← h.fails, succeeds_document hwf, not_not]
    have hparse (hnot : ¬ Refused (assignments d.written) (blocks d.written)) :=
      (parse_document (r := resultOf _ _) hwf).mpr ⟨fun hseen => hnot (hrefused.mp hseen), rfl⟩
    refine ⟨hrefused, ?_, ?_⟩
    · intro hnot field
      rw [← foldl_record_field]
      exact h.fields _ (hparse hnot) field
    · intro hnot
      exact h.currencies _ (hparse hnot)
  · intro h
    have hresult (r : ParsedStellarToml) (hr : parseStellarToml d.text = .ok r) :
        ¬ Refused (assignments d.written) (blocks d.written) ∧
          r = resultOf ((outside false d.seen).foldl Endpoints.record .empty)
            ((blocks d.written).map currencyOf) := by
      obtain ⟨hseen, hr⟩ := (parse_document hwf).mp hr
      have hnot := fun hrefused => hseen (h.refused.mpr hrefused)
      exact ⟨hnot, by rw [hr, h.currencies hnot]⟩
    constructor
    · intro r hr field
      obtain ⟨hnot, rfl⟩ := hresult r hr
      rw [← h.fields hnot field]
      exact foldl_record_field field
    · intro r hr
      obtain ⟨_, rfl⟩ := hresult r hr
      rfl
    · intro r hr
      obtain ⟨_, rfl⟩ := hresult r hr
      rw [supportedAssets_eq, List.map_map]
      rfl
    · rw [succeeds_document hwf, not_not]
      exact h.refused

/-- The parser does what a document asks for where no line that counts is misread. Where nothing is
assigned twice and nothing is to be refused, it does so only there. -/
theorem plain_reads_faithfully (d : Document) (hwf : d.WellFormed) :
    (d.Plain → ReadsFaithfully d) ∧
      (d.AssignsOnce → ¬ Refused (assignments d.written) (blocks d.written) →
        ReadsFaithfully d → d.Plain) := by
  rw [readsFaithfully_iff_seenAlike hwf]
  exact ⟨SeenAlike.of_plain hwf, fun honce hnot h => h.plain hwf honce hnot⟩

namespace Demo

def entry (key value : String) : Line :=
  .entry { indent := [], key := key.toList, beforeEq := [' '], afterEq := [' '],
           value := value.toList, gap := [], comment := none }

def currencyHeader : Line :=
  .header { indent := [], double := true, before := [], name := "CURRENCIES".toList, after := [],
            trailing := [] }

theorem wellFormed_entry {key value : String} (hkey : key.toList ≠ [])
    (hchars : ∀ c ∈ key.toList, isKeyChar c = true)
    (hvalue : '"' ∉ value.toList ∧ '\n' ∉ value.toList) : (entry key value).WellFormed := by
  have hnone : IsSpace [] := by decide
  have hone : IsSpace [' '] := by decide
  exact ⟨hnone, hkey, hchars, hone, hone, hvalue, hnone, by simp⟩

theorem wellFormed_header : currencyHeader.WellFormed :=
  ⟨by decide, by decide, by decide, by decide, by decide⟩

/-- A currency, and behind it the server for authentication. -/
def tableFirst : Document :=
  [currencyHeader, entry "code" "USDC", entry "WEB_AUTH_ENDPOINT" "https://auth.example.com"]

/-- The same the other way round. -/
def tableLast : Document :=
  [entry "WEB_AUTH_ENDPOINT" "https://auth.example.com", currencyHeader, entry "code" "USDC"]

theorem wellFormed_code : (entry "code" "USDC").WellFormed :=
  wellFormed_entry (by decide) (by decide) (by decide)

theorem wellFormed_server : (entry "WEB_AUTH_ENDPOINT" "https://auth.example.com").WellFormed :=
  wellFormed_entry (by decide) (by decide) (by decide)

theorem wellFormed_tableFirst : tableFirst.WellFormed :=
  List.forall_mem_cons.mpr ⟨wellFormed_header,
    List.forall_mem_cons.mpr ⟨wellFormed_code, List.forall_mem_singleton.mpr wellFormed_server⟩⟩

theorem wellFormed_tableLast : tableLast.WellFormed :=
  List.forall_mem_cons.mpr ⟨wellFormed_server,
    List.forall_mem_cons.mpr ⟨wellFormed_header, List.forall_mem_singleton.mpr wellFormed_code⟩⟩

theorem plain_entry {key value : String} {e : Entry} (hline : .entry e = entry key value)
    (hsign : '#' ∉ value.toList) (hspace : trimmed value.toList = value.toList) : e.Plain := by
  obtain rfl := Line.entry.inj hline
  exact ⟨rfl, hsign, hspace⟩

theorem plain_tableLast : tableLast.Plain := by
  have hentries : ∀ e ∈ tableLast.entries, e.Plain := by
    intro e he
    have hmem := mem_entries.mp he
    rw [tableLast, List.mem_cons, List.mem_cons, List.mem_singleton] at hmem
    rcases hmem with hline | hline | hline
    · exact plain_entry hline (by decide) (by decide)
    · cases hline
    · exact plain_entry hline (by decide) (by decide)
  have houtside (field : Field) : ∀ block ∈ tableLast.currencyBlocks, ∀ e ∈ block,
      e.key ≠ field.key := by
    cases field <;> decide
  constructor
  · intro h hmem _
    rw [tableLast, List.mem_cons, List.mem_cons, List.mem_singleton] at hmem
    rcases hmem with hline | hline | hline
    · cases hline
    · rw [Line.header.inj hline]
      decide
    · cases hline
  · exact fun block hblock e he field => houtside field block hblock e he
  · exact fun e he _ _ => hentries e he
  · exact fun block hblock e he _ => hentries e (mem_entries_of_block hblock he)

end Demo

theorem table_last_read : ReadsFaithfully Demo.tableLast :=
  (plain_reads_faithfully Demo.tableLast Demo.wellFormed_tableLast).1 Demo.plain_tableLast

/-- The server that is named behind the currency gets lost. -/
theorem field_after_table_lost : ¬ ∀ d : Document, d.WellFormed → ReadsFaithfully d := by
  intro h
  have hread := h Demo.tableFirst Demo.wellFormed_tableFirst
  have houtside : outside false Demo.tableFirst.seen = [] := by decide
  have hnot : ¬ Refused (outside false Demo.tableFirst.seen) (blocks Demo.tableFirst.seen) :=
    not_refused_iff.mpr ⟨by simp [houtside], by decide, by decide⟩
  have hparse := (parse_document Demo.wellFormed_tableFirst).mpr ⟨hnot, rfl⟩
  have hlost := hread.fields _ hparse .webAuthEndpoint
  revert hlost
  decide

end StellarToml

end AnchorKit
