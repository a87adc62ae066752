import AnchorKit.Library.BatchCursor
import AnchorKit.Migration

/-!
# Batches of the quote migration

The loop of the migration is a resumable walk over the quote index. What a number of batches has
done to the quotes is described by the list of ids they went through.
-/

namespace AnchorKit

open Fallible BatchCursor

def upgradeStored : StoredQuote → StoredQuote
  | .current quote =>
    if schemaV2 ≤ quote.schemaVersion then .current quote
    else .current { quote with routingReason := none, schemaVersion := schemaV2 }
  | .legacy quote => .legacy quote

@[simp] theorem upgradeStored_twice (stored : StoredQuote) :
    upgradeStored (upgradeStored stored) = upgradeStored stored := by
  rcases stored with legacy | quote
  · rfl
  · by_cases hversion : schemaV2 ≤ quote.schemaVersion
    · simp [upgradeStored, hversion]
    · simp [upgradeStored, hversion]

theorem upgradeStored_current (quote : Quote) :
    ∃ upgraded, upgradeStored (.current quote) = .current upgraded := by
  by_cases hversion : schemaV2 ≤ quote.schemaVersion
  · exact ⟨quote, if_pos hversion⟩
  · exact ⟨_, if_neg hversion⟩

theorem version_of_upgradeStored {stored : StoredQuote} {quote : Quote}
    (h : upgradeStored stored = .current quote) : schemaV2 ≤ quote.schemaVersion := by
  rcases stored with legacy | old
  · cases h
  · dsimp only [upgradeStored] at h
    split at h
    · rename_i hold
      obtain rfl := StoredQuote.current.inj h
      exact hold
    · obtain rfl := StoredQuote.current.inj h
      exact UInt32.le_refl _

namespace QuoteStore

variable {st : QuoteStore} {anchor : Address} {id : UInt64} {ids xs ys : List UInt64}

def Refers (st : QuoteStore) (id : UInt64) (anchor : Address) : Prop :=
  st.anchorRef.get id = some anchor

instance : Decidable (st.Refers id anchor) := inferInstanceAs (Decidable (_ = _))

/-- The quotes after a migration went through `ids`. -/
def upgradeAll (st : QuoteStore) (ids : List UInt64) : QuoteStore :=
  { st with record := st.record.mapKeyed fun key stored =>
      if key.2 ∈ ids ∧ st.Refers key.2 key.1 then upgradeStored stored else stored }

/-- The quote at the index entry is still to be rewritten. -/
def Pending (st : QuoteStore) (anchor : Address) (id : UInt64) : Prop :=
  st.Refers id anchor ∧ ∃ quote, st.record.get (anchor, id) = some (.current quote) ∧
    ¬ schemaV2 ≤ quote.schemaVersion

theorem Pending.has (h : st.Pending anchor id) : st.record.has (anchor, id) = true := by
  obtain ⟨_, quote, hget, _⟩ := h
  exact KeyedStore.has_iff.mpr ⟨_, hget⟩

/-- The quote at the index entry is stored in the old layout. -/
def LegacyAt (st : QuoteStore) (id : UInt64) : Prop :=
  ∃ anchor quote, st.Refers id anchor ∧ st.record.get (anchor, id) = some (.legacy quote)

theorem get_upgradeAll (st : QuoteStore) (ids : List UInt64) (anchor : Address) (id : UInt64) :
    (st.upgradeAll ids).record.get (anchor, id) = (st.record.get (anchor, id)).map
      fun stored => if id ∈ ids ∧ st.Refers id anchor then upgradeStored stored else stored := rfl

@[simp] theorem upgradeAll_nil (st : QuoteStore) : st.upgradeAll [] = st := by
  have hrecord : st.record.mapKeyed (fun _ stored => stored) = st.record :=
    KeyedStore.ext fun key => by simp
  simp [upgradeAll, hrecord]

theorem upgradeAll_append (st : QuoteStore) (xs ys : List UInt64) :
    (st.upgradeAll xs).upgradeAll ys = st.upgradeAll (xs ++ ys) := by
  have hrecord : ((st.upgradeAll xs).upgradeAll ys).record = (st.upgradeAll (xs ++ ys)).record := by
    apply KeyedStore.ext
    rintro ⟨anchor, id⟩
    rw [get_upgradeAll, get_upgradeAll, get_upgradeAll, Option.map_map]
    congr 1
    funext stored
    change (if id ∈ ys ∧ st.Refers id anchor then upgradeStored _ else _) = _
    by_cases href : st.Refers id anchor
    · by_cases hxs : id ∈ xs <;> by_cases hys : id ∈ ys <;> simp [href, hxs, hys]
    · simp [href]
  exact congrArg (fun record => { st with record := record }) hrecord

/-- Only which ids were gone through counts. -/
theorem upgradeAll_congr (h : ∀ id, id ∈ xs ↔ id ∈ ys) : st.upgradeAll xs = st.upgradeAll ys := by
  unfold upgradeAll
  simp only [h]

theorem legacyAt_upgradeAll : (st.upgradeAll xs).LegacyAt id ↔ st.LegacyAt id := by
  unfold LegacyAt
  apply exists_congr
  intro anchor
  apply exists_congr
  intro quote
  apply and_congr_right
  intro _
  rw [get_upgradeAll]
  rcases st.record.get (anchor, id) with _ | (legacy | current)
  · simp
  · simp [upgradeStored]
  · by_cases hin : id ∈ xs ∧ st.Refers id anchor
    · by_cases hversion : schemaV2 ≤ current.schemaVersion <;> simp [hin, upgradeStored, hversion]
    · simp [hin]

/-- Going through ids with nothing pending changes nothing. -/
theorem upgradeAll_eq_self (h : ∀ id ∈ ids, ∀ anchor, ¬ st.Pending anchor id) :
    st.upgradeAll ids = st := by
  have hrecord : (st.upgradeAll ids).record = st.record := by
    apply KeyedStore.ext
    rintro ⟨anchor, id⟩
    rw [get_upgradeAll]
    by_cases hin : id ∈ ids ∧ st.Refers id anchor
    · rcases hget : st.record.get (anchor, id) with _ | (legacy | quote)
      · rfl
      · simp [upgradeStored]
      · have hversion : schemaV2 ≤ quote.schemaVersion := by
          by_contra hold
          exact h id hin.1 anchor ⟨hin.2, quote, hget, hold⟩
        simp [upgradeStored, hversion]
    · simp [hin]
  exact congrArg (fun record => { st with record := record }) hrecord

theorem upgradeAll_singleton {quote : Quote} (href : st.Refers id anchor)
    (hget : st.record.get (anchor, id) = some (.current quote)) :
    st.upgradeAll [id] =
      { st with record := st.record.set (anchor, id) (upgradeStored (.current quote)) } := by
  have hrecord : (st.upgradeAll [id]).record =
      st.record.set (anchor, id) (upgradeStored (.current quote)) := by
    apply KeyedStore.ext
    rintro ⟨anchor', id'⟩
    rw [get_upgradeAll, KeyedStore.get_set]
    by_cases hkey : anchor' = anchor ∧ id' = id
    · obtain ⟨rfl, rfl⟩ := hkey
      simp [hget, href]
    · have hother : ¬ (id' ∈ [id] ∧ st.Refers id' anchor') := by
        rintro ⟨hid, href'⟩
        obtain rfl := List.mem_singleton.mp hid
        exact hkey ⟨Option.some.inj (href'.symm.trans href), rfl⟩
      have hne : (anchor', id') ≠ (anchor, id) := by simpa using hkey
      simp only [if_neg hother, if_neg hne, Option.map_id']
  exact congrArg (fun record => { st with record := record }) hrecord

/-- Going through other ids leaves a pending quote pending. -/
theorem pending_upgradeAll : (st.upgradeAll xs).Pending anchor id ↔
    st.Pending anchor id ∧ id ∉ xs := by
  unfold Pending
  rw [and_assoc]
  apply and_congr_right
  intro href
  change st.Refers id anchor at href
  rw [get_upgradeAll]
  by_cases hin : id ∈ xs
  · simp only [hin, href, and_self, if_true, not_true_eq_false, and_false, iff_false]
    rintro ⟨quote, hget, hversion⟩
    obtain ⟨old, _, hupgraded⟩ := Option.map_eq_some_iff.mp hget
    exact hversion (version_of_upgradeStored hupgraded)
  · simp [hin]

end QuoteStore

/-- What the migration does at one id of the index. -/
def rewriteQuote (s : Storage) (id : UInt64) : Except Panic (Option Storage) :=
  match s.quotes.anchorRef.get id with
  | none => .ok none
  | some anchor => do
    match ← readQuote (s.quotes.record.get (anchor, id)) with
    | none => return none
    | some quote =>
      if schemaV2 ≤ quote.schemaVersion then return none
      return some (upgradeQuote s anchor id quote)

section Rewrite

variable {s t : Storage} {anchor : Address} {id : UInt64} {ids r : List UInt64}

theorem rewriteQuote_unreferenced (href : s.quotes.anchorRef.get id = none) :
    rewriteQuote s id = .ok none := by
  simp [rewriteQuote, href]

theorem rewriteQuote_absent (href : s.quotes.Refers id anchor)
    (hget : s.quotes.record.get (anchor, id) = none) : rewriteQuote s id = .ok none := by
  unfold QuoteStore.Refers at href
  simp [rewriteQuote, href, hget, bind_eq_ok]

theorem rewriteQuote_legacy {quote : QuoteV1} (href : s.quotes.Refers id anchor)
    (hget : s.quotes.record.get (anchor, id) = some (.legacy quote)) (found : Option Storage) :
    rewriteQuote s id ≠ .ok found := by
  unfold QuoteStore.Refers at href
  simp [rewriteQuote, href, hget, bind_eq_ok]

theorem rewriteQuote_current {quote : Quote} (href : s.quotes.Refers id anchor)
    (hget : s.quotes.record.get (anchor, id) = some (.current quote)) :
    rewriteQuote s id = .ok (if schemaV2 ≤ quote.schemaVersion then none
      else some (upgradeQuote s anchor id quote)) := by
  unfold QuoteStore.Refers at href
  simp only [rewriteQuote, href, hget, bind_eq_ok, readQuote, Except.ok.injEq, exists_eq_left']
  split
  · rfl
  · rfl

theorem upgradeQuote_eq {quote : Quote} (href : s.quotes.Refers id anchor)
    (hget : s.quotes.record.get (anchor, id) = some (.current quote))
    (hversion : ¬ schemaV2 ≤ quote.schemaVersion) :
    upgradeQuote s anchor id quote = { s with quotes := s.quotes.upgradeAll [id] } := by
  rw [QuoteStore.upgradeAll_singleton href hget, upgradeStored, if_neg hversion]
  rfl

/-- An id is passed over when its quote can be read and needs no rewriting. -/
theorem rewriteQuote_eq_none : rewriteQuote s id = .ok none ↔
    ¬ s.quotes.LegacyAt id ∧ ∀ anchor, ¬ s.quotes.Pending anchor id := by
  rcases href : s.quotes.anchorRef.get id with _ | anchor
  · rw [rewriteQuote_unreferenced href]
    simp [QuoteStore.LegacyAt, QuoteStore.Pending, QuoteStore.Refers, href]
  · rcases hget : s.quotes.record.get (anchor, id) with _ | (legacy | quote)
    · rw [rewriteQuote_absent href hget]
      simp [QuoteStore.LegacyAt, QuoteStore.Pending, QuoteStore.Refers, href, hget]
    · have hfails := rewriteQuote_legacy href hget none
      simp [QuoteStore.LegacyAt, QuoteStore.Refers, href, hget, hfails]
    · rw [rewriteQuote_current href hget]
      by_cases hversion : schemaV2 ≤ quote.schemaVersion
      · simp [QuoteStore.LegacyAt, QuoteStore.Pending, QuoteStore.Refers, href, hget, hversion]
      · simp [QuoteStore.LegacyAt, QuoteStore.Pending, QuoteStore.Refers, href, hget, hversion]

theorem rewriteQuote_eq_some : rewriteQuote s id = .ok (some t) ↔
    (∃ anchor, s.quotes.Pending anchor id) ∧
      t = { s with quotes := s.quotes.upgradeAll [id] } := by
  rcases href : s.quotes.anchorRef.get id with _ | anchor
  · rw [rewriteQuote_unreferenced href]
    simp [QuoteStore.Pending, QuoteStore.Refers, href]
  · rcases hget : s.quotes.record.get (anchor, id) with _ | (legacy | quote)
    · rw [rewriteQuote_absent href hget]
      simp [QuoteStore.Pending, QuoteStore.Refers, href, hget]
    · have hfails := rewriteQuote_legacy href hget (some t)
      simp [QuoteStore.Pending, QuoteStore.Refers, href, hget, hfails]
    · rw [rewriteQuote_current href hget]
      by_cases hversion : schemaV2 ≤ quote.schemaVersion
      · simp [QuoteStore.Pending, QuoteStore.Refers, href, hget, hversion]
      · rw [if_neg hversion, upgradeQuote_eq href hget hversion, Except.ok.injEq,
          Option.some.injEq, eq_comm]
        have hpending : ∃ anchor, s.quotes.Pending anchor id := ⟨anchor, href, quote, hget, hversion⟩
        exact (and_iff_right hpending).symm

theorem sweep_succeeds (h : ∀ id ∈ ids, ¬ s.quotes.LegacyAt id) :
    Succeeds (sweep rewriteQuote s ids) := by
  induction ids generalizing s with
  | nil => exact ⟨_, rfl⟩
  | cons id ids ih =>
    have htail : ∀ id ∈ ids, ¬ s.quotes.LegacyAt id := fun x hx => h x (List.mem_cons_of_mem _ hx)
    by_cases hpending : ∃ anchor, s.quotes.Pending anchor id
    · obtain ⟨⟨t, r⟩, hrest⟩ := @ih { s with quotes := s.quotes.upgradeAll [id] } fun x hx hlegacy =>
        htail x hx (QuoteStore.legacyAt_upgradeAll.mp hlegacy)
      exact ⟨_, sweep_cons.mpr (Or.inr ⟨_, r, rewriteQuote_eq_some.mpr ⟨hpending, rfl⟩, hrest, rfl⟩)⟩
    · obtain ⟨⟨t, r⟩, hrest⟩ := ih htail
      have hskip := rewriteQuote_eq_none.mpr ⟨h id List.mem_cons_self, not_exists.mp hpending⟩
      exact ⟨_, sweep_cons.mpr (Or.inl ⟨hskip, hrest⟩)⟩

theorem sweep_effects (h : sweep rewriteQuote s ids = .ok (t, r)) :
    t = { s with quotes := s.quotes.upgradeAll ids } ∧ (∀ id ∈ ids, ¬ s.quotes.LegacyAt id) ∧
      ∀ anchor, ∀ id ∈ ids, s.quotes.Pending anchor id → id ∈ r := by
  induction ids generalizing s r with
  | nil =>
    obtain ⟨rfl, rfl⟩ := Prod.mk.inj (Except.ok.inj h)
    simp
  | cons id ids ih =>
    rcases sweep_cons.mp h with ⟨hact, hrest⟩ | ⟨u, rest, hact, hrest, rfl⟩
    · obtain ⟨hlegacy, hnone⟩ := rewriteQuote_eq_none.mp hact
      obtain ⟨rfl, hreadable, hrewrites⟩ := ih hrest
      have hskip : s.quotes.upgradeAll [id] = s.quotes :=
        QuoteStore.upgradeAll_eq_self fun x hx => (List.mem_singleton.mp hx) ▸ hnone
      have hall : s.quotes.upgradeAll (id :: ids) = s.quotes.upgradeAll ids := by
        rw [← List.singleton_append, ← QuoteStore.upgradeAll_append, hskip]
      refine ⟨by rw [hall], List.forall_mem_cons.mpr ⟨hlegacy, hreadable⟩, ?_⟩
      intro anchor
      rw [List.forall_mem_cons]
      exact ⟨fun hpending => absurd hpending (hnone anchor), hrewrites anchor⟩
    · obtain ⟨⟨anchor, hpending⟩, rfl⟩ := rewriteQuote_eq_some.mp hact
      obtain ⟨rfl, hreadable, hrewrites⟩ := ih hrest
      have hlegacy : ¬ s.quotes.LegacyAt id := by
        rintro ⟨other, legacy, href, hget⟩
        obtain rfl : anchor = other := Option.some.inj (hpending.1.symm.trans href)
        obtain ⟨_, quote, hcurrent, _⟩ := hpending
        rw [hget] at hcurrent
        cases hcurrent
      refine ⟨?_, List.forall_mem_cons.mpr ⟨hlegacy, ?_⟩, ?_⟩
      · dsimp only
        rw [QuoteStore.upgradeAll_append, List.singleton_append]
      · intro x hx hlegacy'
        exact hreadable x hx (QuoteStore.legacyAt_upgradeAll.mpr hlegacy')
      · intro other x hx hpending'
        by_cases heq : x = id
        · exact heq ▸ List.mem_cons_self
        · have htail : x ∈ ids := (List.mem_cons.mp hx).resolve_left heq
          apply List.mem_cons_of_mem
          apply hrewrites other x htail
          exact QuoteStore.pending_upgradeAll.mpr ⟨hpending', by simpa using heq⟩

end Rewrite

theorem migrateQuotesLoop_eq {batchSize migrated : UInt32} (hle : migrated ≤ batchSize)
    (resume last : UInt64) (s : Storage) (ids : List UInt64) :
    migrateQuotesLoop batchSize resume s migrated last ids =
      (fun w : Storage × Option UInt64 × ℕ => (setCursor w.1 w.2.1, UInt32.ofNat w.2.2)) <$>
        walk rewriteQuote batchSize.toNat resume s migrated.toNat last ids := by
  induction ids generalizing s migrated last with
  | nil => simp [migrateQuotesLoop, walk, Functor.map, Except.map]
  | cons id ids ih =>
    rw [migrateQuotesLoop, walk]
    by_cases hbehind : id ≤ resume
    · rw [if_pos hbehind, if_pos hbehind, ih hle]
    · rw [if_neg hbehind, if_neg hbehind]
      by_cases hfull : batchSize ≤ migrated
      · rw [if_pos hfull, if_pos (UInt32.le_iff_toNat_le.mp hfull)]
        simp [Functor.map, Except.map]
      · have hroom : migrated.toNat < batchSize.toNat := by
          rw [UInt32.le_iff_toNat_le] at hfull
          omega
        rw [if_neg hfull, if_neg (by omega), rewriteQuote]
        -- the counter stays below the batch size, so adding one does not overflow
        have hnext : (migrated + 1).toNat = migrated.toNat + 1 := by
          have hlt := batchSize.toNat_lt
          rw [UInt32.toNat_add, UInt32.toNat_one]
          exact Nat.mod_eq_of_lt (by omega)
        have hadd : add32 migrated 1 = .ok (migrated + 1) := add32_eq_ok.mpr hnext.symm
        have hle' : migrated + 1 ≤ batchSize := by
          rw [UInt32.le_iff_toNat_le, hnext]
          omega
        rcases href : s.quotes.anchorRef.get id with _ | anchor
        · exact ih hle id s
        · dsimp only
          cases hread : readQuote (s.quotes.record.get (anchor, id)) with
          | error e => rfl
          | ok found =>
            cases found with
            | none => exact ih hle id s
            | some quote =>
              by_cases hversion : schemaV2 ≤ quote.schemaVersion
              · simp only [bind, Except.bind, if_pos hversion, pure, Except.pure]
                exact ih hle id s
              · simp only [bind, Except.bind, if_neg hversion, hadd, pure, Except.pure]
                rw [ih hle', hnext]

/-- What one batch did: it went through the first of the ids behind the cursor, and either reached
the end and advanced the version or left a cursor for the rest. -/
structure MigrationBatch (s t : Storage) (batchSize : UInt32) (now later rewritten : List UInt64) :
    Prop where
  from_v1 : s.access.schemaVersion = 1
  split : behind (s.upgrades.cursor.getD 0) s.quotes.index = now ++ later
  quotes_eq : t.quotes = s.quotes.upgradeAll now
  readable : ∀ id ∈ now, ¬ s.quotes.LegacyAt id
  rewrites : ∀ anchor, ∀ id ∈ now, s.quotes.Pending anchor id → id ∈ rewritten
  listed : rewritten.Sublist now
  within : rewritten.length ≤ batchSize.toNat
  audit_config : t.adminAudit.config = s.adminAudit.config
  audit_counter : t.adminAudit.counter.toNat ≤ s.adminAudit.counter.toNat + now.length
  access_eq : t.access = { s.access with schemaVersion := t.access.schemaVersion }
  outcome : (later = [] ∧ t.upgrades.cursor = none ∧ t.access.schemaVersion = schemaV2) ∨
    (later ≠ [] ∧ t.access.schemaVersion = 1 ∧ batchSize.toNat ≤ rewritten.length ∧
      t.upgrades.migrationCount = s.upgrades.migrationCount ∧
      ∃ before c, now = before ++ [c] ∧ t.upgrades.cursor = some c)

section Batch

variable {env : Env} {s t : Storage} {batchSize n newVersion : UInt32}

theorem migrateQuotesToV2_effects (h : migrateQuotesToV2 s batchSize = .ok (t, n)) :
    ∃ now later rewritten : List UInt64, ∃ cursor : Option UInt64,
      behind (s.upgrades.cursor.getD 0) s.quotes.index = now ++ later ∧
      t = setCursor { s with quotes := s.quotes.upgradeAll now } cursor ∧
      (∀ id ∈ now, ¬ s.quotes.LegacyAt id) ∧
      (∀ anchor, ∀ id ∈ now, s.quotes.Pending anchor id → id ∈ rewritten) ∧
      rewritten.Sublist now ∧ rewritten.length ≤ batchSize.toNat ∧
      n = UInt32.ofNat rewritten.length ∧
      ((cursor = none ∧ later = []) ∨
        (later ≠ [] ∧ batchSize.toNat ≤ rewritten.length ∧
          ∃ before c, now = before ++ [c] ∧ cursor = some c)) := by
  simp only [migrateQuotesToV2, require_bind_eq_ok] at h
  obtain ⟨hpositive, h⟩ := h
  rw [migrateQuotesLoop_eq UInt32.zero_le, map_eq_ok] at h
  obtain ⟨⟨u, cursor, m⟩, hwalk, heq⟩ := h
  obtain ⟨now, later, rewritten, hw⟩ := walk_ok hwalk
  obtain ⟨rfl, hreadable, hrewrites⟩ := sweep_effects hw.swept
  obtain ⟨rfl, hn⟩ := Prod.mk.inj heq
  have hcount : m = rewritten.length := by
    have hm := hw.count
    rw [show (0 : UInt32).toNat = 0 from rfl] at hm
    omega
  refine ⟨now, later, rewritten, cursor, hw.split, rfl, hreadable, hrewrites,
    rewritten_sublist hw.swept, hcount ▸ hw.within (Nat.zero_le _), by rw [← hn, hcount], ?_⟩
  rcases hw.stopped with hend | ⟨hcursor, hlater, hfull⟩
  · exact Or.inl hend
  · refine Or.inr ⟨hlater, hcount ▸ hfull, ?_⟩
    -- a full batch went through at least one id
    have hsome : now ≠ [] := by
      rintro rfl
      have hnone := (rewritten_sublist hw.swept).length_le
      have hpos : 0 < batchSize.toNat := by
        rcases Nat.eq_zero_or_pos batchSize.toNat with hzero | hpos
        · exact absurd (UInt32.toNat_inj.mp hzero) hpositive
        · exact hpos
      rw [List.length_nil] at hnone
      omega
    obtain ⟨before, c, rfl⟩ := (List.eq_nil_or_concat now).resolve_left hsome
    exact ⟨before, c, by simp, by simpa using hcursor⟩

/-- A batch that rewrote nothing leaves no entry in the audit ring. -/
theorem logMigrated_counter {ids : List UInt64}
    (h : logMigrated env s (UInt32.ofNat ids.length) = .ok t) :
    t.adminAudit.config = s.adminAudit.config ∧
      t.adminAudit.counter.toNat ≤ s.adminAudit.counter.toNat + ids.length := by
  unfold logMigrated at h
  split at h
  · rename_i hsome
    have hlength : 0 < ids.length := by
      rcases Nat.eq_zero_or_pos ids.length with hzero | hpos
      · rw [hzero] at hsome
        exact absurd hsome (by decide)
      · exact hpos
    obtain ⟨_, _, hlog⟩ := bind_eq_ok.mp h
    obtain ⟨hconfig, hcounter⟩ := AdminAuditLog.logAction_counter hlog
    exact ⟨hconfig, by omega⟩
  · obtain rfl := Except.ok.inj h
    exact ⟨rfl, Nat.le_add_right _ _⟩

/-- Committing a version leaves the cursor alone. -/
theorem commitOrPanic_effects {fromVersion toVersion : UInt32} {label : String}
    (h : commitOrPanic env s fromVersion toVersion label = .ok t) :
    ∃ migration count, t = { s with
      access := { s.access with schemaVersion := toVersion }
      upgrades := { s.upgrades with migration := migration, migrationCount := count } } := by
  unfold commitOrPanic at h
  split at h
  · rename_i u hu
    obtain rfl := Except.ok.inj h
    simp only [commitVersion, expect_bind_eq_ok, pure_eq_ok] at hu
    obtain ⟨_, _, rfl⟩ := hu
    exact ⟨_, _, rfl⟩
  · cases h

theorem logMigrated_kept (h : logMigrated env s n = .ok t) :
    t.quotes = s.quotes ∧ t.upgrades = s.upgrades ∧ t.access = s.access := by
  obtain ⟨_, _, rfl⟩ := logMigrated_frame h
  exact ⟨rfl, rfl, rfl⟩

theorem validateMigration_eq_ok {step : MigrationStep}
    (h : validateMigration s newVersion = .ok step) :
    newVersion = schemaV2 ∧ s.access.schemaVersion = 1 ∧ step = .toV2 := by
  simp only [validateMigration, require_bind_eq_ok, expect_eq_ok] at h
  obtain ⟨_, _, _, hfind⟩ := h
  cases step with
  | toV2 =>
    have hsteps := List.find?_some hfind
    rw [decide_eq_true_eq] at hsteps
    exact ⟨hsteps.2.symm, hsteps.1.symm, rfl⟩

/-- Before the second version, a migration to it starts with the quotes. -/
theorem quotes_come_first (hv1 : s.access.schemaVersion = 1) : schemaV2 ≤ schemaV2 ∧
    (currentVersion s < schemaV2 ∨ s.upgrades.cursor.isSome = true) := by
  refine ⟨UInt32.le_refl _, Or.inl ?_⟩
  rw [currentVersion, hv1]
  decide

theorem migrate_batch (h : migrate env s newVersion batchSize = .ok t) :
    newVersion = schemaV2 ∧ ∃ now later rewritten,
      MigrationBatch s t batchSize now later rewritten := by
  simp only [migrate, bind_eq_ok] at h
  obtain ⟨_, _, _, _, h⟩ := h
  cases hvalid : validateMigration s newVersion with
  | error e => rw [hvalid] at h; cases h
  | ok step =>
    obtain ⟨rfl, hv1, rfl⟩ := validateMigration_eq_ok hvalid
    rw [hvalid] at h
    refine ⟨rfl, ?_⟩
    dsimp only [runMigration] at h
    rw [if_pos (quotes_come_first hv1)] at h
    simp only [bind_eq_ok] at h
    obtain ⟨⟨u, n⟩, hquotes, v, hlog, h⟩ := h
    obtain ⟨now, later, rewritten, cursor, hsplit, rfl, hreadable, hrewrites, hlisted, hwithin,
      rfl, hstop⟩ := migrateQuotesToV2_effects hquotes
    obtain ⟨hvquotes, hvupgrades, hvaccess⟩ := logMigrated_kept hlog
    obtain ⟨hconfig, hcounter⟩ := logMigrated_counter hlog
    have haudit : v.adminAudit.counter.toNat ≤ s.adminAudit.counter.toNat + now.length :=
      hcounter.trans (Nat.add_le_add_left hlisted.length_le _)
    have hcursor : v.upgrades.cursor = cursor := congrArg UpgradeStore.cursor hvupgrades
    refine ⟨now, later, rewritten, ?_⟩
    rcases hstop with ⟨rfl, rfl⟩ | ⟨hlater, hfull, before, c, rfl, rfl⟩
    · rw [if_neg (by simp [hcursor])] at h
      obtain ⟨_, _, rfl⟩ := commitOrPanic_effects h
      exact ⟨hv1, hsplit, hvquotes, hreadable, hrewrites, hlisted, hwithin, hconfig, haudit,
        by rw [hvaccess]; rfl, Or.inl ⟨rfl, hcursor, rfl⟩⟩
    · rw [if_pos (by simp [hcursor])] at h
      obtain rfl := pure_eq_ok.mp h
      have hv1' : v.access.schemaVersion = 1 := by rw [hvaccess]; exact hv1
      have hcount : v.upgrades.migrationCount = s.upgrades.migrationCount := by rw [hvupgrades]; rfl
      exact ⟨hv1, hsplit, hvquotes, hreadable, hrewrites, hlisted, hwithin, hconfig, haudit,
        by rw [hvaccess]; rfl, Or.inr ⟨hlater, hv1', hfull, hcount, before, c, rfl, hcursor⟩⟩

end Batch

/-- The migration is over, or its cursor has passed the id. -/
def Handled (s : Storage) (id : UInt64) : Prop :=
  s.access.schemaVersion = schemaV2 ∨ id ≤ s.upgrades.cursor.getD 0

instance {s : Storage} {id : UInt64} : Decidable (Handled s id) :=
  inferInstanceAs (Decidable (_ ∨ _))

/-- The ids that the migration still has before it. -/
def remaining (s : Storage) : List UInt64 := s.quotes.index.filter fun id => !decide (Handled s id)

@[simp] theorem mem_remaining {s : Storage} {id : UInt64} :
    id ∈ remaining s ↔ id ∈ s.quotes.index ∧ ¬ Handled s id := by
  simp [remaining]

theorem handled_iff_of_v1 {s : Storage} (hv1 : s.access.schemaVersion = 1) {id : UInt64} :
    Handled s id ↔ id ≤ s.upgrades.cursor.getD 0 := by
  apply or_iff_right
  rw [hv1]
  decide

theorem remaining_of_v1 {s : Storage} (hv1 : s.access.schemaVersion = 1) :
    remaining s = behind (s.upgrades.cursor.getD 0) s.quotes.index := by
  apply List.filter_congr
  intro id _
  rw [decide_eq_decide.mpr (handled_iff_of_v1 hv1)]

namespace MigrationBatch

variable {s t : Storage} {batchSize : UInt32} {now later rewritten : List UInt64} {id : UInt64}

theorem remaining_before (h : MigrationBatch s t batchSize now later rewritten) :
    remaining s = now ++ later := by
  rw [remaining_of_v1 h.from_v1, h.split]

theorem remaining_after (h : MigrationBatch s t batchSize now later rewritten)
    (hascending : s.quotes.index.Pairwise (· < ·)) : remaining t = later := by
  have hindex : t.quotes.index = s.quotes.index := by
    rw [h.quotes_eq]
    rfl
  rw [remaining, hindex]
  rcases h.outcome with ⟨rfl, _, hversion⟩ | ⟨_, hversion, _, _, before, c, rfl, hcursor⟩
  · apply List.filter_eq_nil_iff.mpr
    intro id _
    have hhandled : Handled t id := Or.inl hversion
    simp [hhandled]
  · have hsorted : s.quotes.index.Pairwise fun a b => ¬ b ≤ a :=
      hascending.imp fun hlt => UInt64.not_le.mpr hlt
    have hsplit : behind (s.upgrades.cursor.getD 0) s.quotes.index = before ++ c :: later := by
      rw [h.split, List.append_assoc, List.singleton_append]
    rw [← behind_last hsorted hsplit]
    apply List.filter_congr
    intro id _
    have hhandled : Handled t id ↔ id ≤ c := by
      rw [Handled, hversion, hcursor, Option.getD_some]
      exact or_iff_right (by decide)
    rw [decide_eq_decide.mpr hhandled]

/-- A batch goes through the ids that are handled after it and were not before. -/
theorem mem_now_iff (h : MigrationBatch s t batchSize now later rewritten)
    (hascending : s.quotes.index.Pairwise (· < ·)) :
    id ∈ now ↔ id ∈ s.quotes.index ∧ ¬ Handled s id ∧ Handled t id := by
  have hindex : t.quotes.index = s.quotes.index := by
    rw [h.quotes_eq]
    rfl
  have hbefore : id ∈ now ++ later ↔ id ∈ s.quotes.index ∧ ¬ Handled s id := by
    rw [← h.remaining_before, mem_remaining]
  have hafter : id ∈ later ↔ id ∈ s.quotes.index ∧ ¬ Handled t id := by
    rw [← h.remaining_after hascending, mem_remaining, hindex]
  have hdisjoint : id ∈ now → id ∉ later := by
    have hpair : (now ++ later).Pairwise (· < ·) := h.split ▸ hascending.filter _
    intro hnow hlater
    exact UInt64.lt_irrefl id ((List.pairwise_append.mp hpair).2.2 id hnow id hlater)
  constructor
  · intro hnow
    obtain ⟨hmem, hnew⟩ := hbefore.mp (List.mem_append_left _ hnow)
    refine ⟨hmem, hnew, ?_⟩
    by_contra hleft
    exact hdisjoint hnow (hafter.mpr ⟨hmem, hleft⟩)
  · rintro ⟨hmem, hnew, hdone⟩
    rcases List.mem_append.mp (hbefore.mpr ⟨hmem, hnew⟩) with hnow | hlater
    · exact hnow
    · exact absurd hdone (hafter.mp hlater).2

/-- What was handled stays handled. -/
theorem handled_mono (h : MigrationBatch s t batchSize now later rewritten)
    (hid : Handled s id) : Handled t id := by
  rcases h.outcome with ⟨_, _, hversion⟩ | ⟨_, _, _, _, before, c, rfl, hcursor⟩
  · exact Or.inl hversion
  · have hc : ¬ c ≤ s.upgrades.cursor.getD 0 := by
      have hmem : c ∈ behind (s.upgrades.cursor.getD 0) s.quotes.index := by simp [h.split]
      simpa [behind] using (List.mem_filter.mp hmem).2
    have hle := (handled_iff_of_v1 h.from_v1).mp hid
    refine Or.inr ?_
    rw [hcursor, Option.getD_some]
    exact UInt64.le_trans hle (UInt64.le_of_lt (UInt64.not_le.mp hc))

end MigrationBatch

end AnchorKit
