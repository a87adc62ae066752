import AnchorKit.MigrationRuns

/-!
# Batch independence of the quote migration

Repeating a migration with any positive batch sizes comes to an end, and leaves the quotes that
one large batch leaves. What can stop it are the records of the old layout.
-/

namespace AnchorKit

open Fallible BatchCursor

section Succeeds

variable {env : Env} {s t : Storage} {batchSize n : UInt32}

theorem validateMigration_of_v1 (hv1 : s.access.schemaVersion = 1) :
    validateMigration s schemaV2 = .ok .toV2 := by
  unfold validateMigration currentVersion
  rw [hv1]
  rfl

/-- Reading is the only thing that can fail in a batch. -/
theorem migrateQuotesToV2_succeeds (hbatch : batchSize ≠ 0)
    (hreadable : ∀ id ∈ s.quotes.index, ¬ s.quotes.LegacyAt id) :
    Succeeds (migrateQuotesToV2 s batchSize) := by
  unfold migrateQuotesToV2
  rw [succeeds_require_bind]
  refine ⟨hbatch, ?_⟩
  dsimp only
  rw [migrateQuotesLoop_eq UInt32.zero_le, succeeds_map]
  apply walk_succeeds
  apply sweep_succeeds
  intro id hid
  exact hreadable id (List.mem_of_mem_filter hid)

theorem commitOrPanic_succeeds {fromVersion toVersion : UInt32} {label : String}
    (hcount : s.upgrades.migrationCount.toNat + 1 < 2 ^ 32) :
    Succeeds (commitOrPanic env s fromVersion toVersion label) := by
  have hnext : Word.checkedAdd32 s.upgrades.migrationCount 1 =
      some (s.upgrades.migrationCount + 1) := if_pos hcount
  obtain ⟨t, ht⟩ : Succeeds (commitVersion env s fromVersion toVersion label) := by
    dsimp only [commitVersion]
    rw [hnext]
    exact ⟨_, rfl⟩
  unfold commitOrPanic
  rw [ht]
  exact succeeds_ok t

theorem logMigrated_succeeds (hadmin : s.access.admin.isSome = true)
    (hroom : 0 < n → AdminAuditLog.Writable s) : Succeeds (logMigrated env s n) := by
  unfold logMigrated
  split
  · rename_i hsome
    obtain ⟨admin, hadmin⟩ := Option.isSome_iff_exists.mp hadmin
    rw [succeeds_bind]
    refine ⟨admin, expect_eq_ok.mpr hadmin, ?_⟩
    exact AdminAuditLog.succeeds_logAction.mpr (hroom hsome)
  · exact succeeds_ok _

structure CallReady (env : Env) (s : Storage) (batchSize : UInt32) : Prop where
  initialized : s.access.initialized = true
  admin : requireAdmin env s = .ok ()
  batch : batchSize ≠ 0
  room : remaining s ≠ [] → AdminAuditLog.Writable s
  count : s.upgrades.migrationCount.toNat + 1 < 2 ^ 32

theorem migrate_succeeds (hready : CallReady env s batchSize) (hv1 : s.access.schemaVersion = 1)
    (hreadable : ∀ id ∈ s.quotes.index, ¬ s.quotes.LegacyAt id) :
    Succeeds (migrate env s schemaV2 batchSize) := by
  have hsome : s.access.admin.isSome = true := by
    have hadmin := hready.admin
    simp only [requireAdmin, expect_bind_eq_ok] at hadmin
    obtain ⟨admin, hadmin, _⟩ := hadmin
    rw [hadmin, Option.isSome_some]
  unfold migrate
  rw [succeeds_require_bind]
  refine ⟨hready.initialized, ?_⟩
  rw [succeeds_bind]
  refine ⟨(), hready.admin, ?_⟩
  rw [validateMigration_of_v1 hv1]
  dsimp only [runMigration]
  rw [if_pos (quotes_come_first hv1), succeeds_bind]
  obtain ⟨⟨u, n⟩, hquotes⟩ := migrateQuotesToV2_succeeds hready.batch hreadable
  refine ⟨(u, n), hquotes, ?_⟩
  obtain ⟨now, later, rewritten, cursor, hsplit, rfl, _, _, hlisted, _, rfl, _⟩ :=
    migrateQuotesToV2_effects hquotes
  have hroom : 0 < UInt32.ofNat rewritten.length → AdminAuditLog.Writable s := by
    intro hpos
    apply hready.room
    -- something was rewritten, so something was left to go through
    intro hnone
    rw [← remaining_of_v1 hv1, hnone] at hsplit
    obtain ⟨rfl, _⟩ := List.append_eq_nil_iff.mp hsplit.symm
    obtain rfl := List.sublist_nil.mp hlisted
    exact absurd hpos (by decide)
  let migrated := setCursor { s with quotes := s.quotes.upgradeAll now } cursor
  obtain ⟨v, hlog⟩ : Succeeds (logMigrated env migrated (UInt32.ofNat rewritten.length)) :=
    logMigrated_succeeds hsome hroom
  rw [succeeds_bind]
  refine ⟨v, hlog, ?_⟩
  obtain ⟨_, hupgrades, _⟩ := logMigrated_kept hlog
  split
  · exact succeeds_pure _
  · apply commitOrPanic_succeeds
    rw [hupgrades]
    exact hready.count

end Succeeds

/-- One migration call; a call that panics is reverted. -/
def migrateOnce (s : Storage) (call : Env × UInt32) : Storage :=
  Machine.commit (fun s call => migrate call.1 s schemaV2 call.2) s call

/-- The storage before call number `k`, with no other calls in between. -/
def stateBefore (s : Storage) (calls : ℕ → Env × UInt32) : ℕ → Storage
  | 0 => s
  | k + 1 => migrateOnce (stateBefore s calls k) (calls k)

/-- A state `u` that migration calls have led to from `s`. -/
structure Underway (s u : Storage) : Prop where
  quotes_eq : u.quotes = s.quotes.upgradeAll (s.quotes.index.filter fun id => Handled u id)
  access_eq : u.access = { s.access with schemaVersion := u.access.schemaVersion }
  version : u.access.schemaVersion = 1 ∨ u.access.schemaVersion = schemaV2
  finished : u.access.schemaVersion = schemaV2 → u.upgrades.cursor = none
  audit_config : u.adminAudit.config = s.adminAudit.config
  audit_counter : u.adminAudit.counter.toNat + (remaining u).length ≤
    s.adminAudit.counter.toNat + s.quotes.index.length
  count : u.access.schemaVersion = 1 → u.upgrades.migrationCount = s.upgrades.migrationCount

namespace Underway

variable {s u t : Storage} {anchor : Address} {id : UInt64}

theorem index_eq (h : Underway s u) : u.quotes.index = s.quotes.index := by
  rw [h.quotes_eq]
  rfl

theorem ascending (h : Underway s u) (hwf : s.quotes.WellFormed) :
    u.quotes.index.Pairwise (· < ·) := by
  rw [h.index_eq]
  exact hwf.ascending

/-- Before any call, nothing is handled. -/
theorem start (hwf : s.quotes.WellFormed) (hv1 : s.access.schemaVersion = 1)
    (hcursor : s.upgrades.cursor = none) : Underway s s := by
  have hnone : s.quotes.index.filter (fun id => Handled s id) = [] := by
    apply List.filter_eq_nil_iff.mpr
    intro id hid
    simpa using not_handled_of_fresh hwf hv1 hcursor hid
  exact {
    quotes_eq := by rw [hnone, QuoteStore.upgradeAll_nil]
    access_eq := rfl
    version := Or.inl hv1
    finished := fun _ => hcursor
    audit_config := rfl
    audit_counter := Nat.add_le_add_left (List.length_filter_le _ _) _
    count := fun _ => rfl }

theorem of_batch {batchSize : UInt32} {now later rewritten : List UInt64} (h : Underway s u)
    (hbatch : MigrationBatch u t batchSize now later rewritten) (hwf : s.quotes.WellFormed) :
    Underway s t := by
  have hsorted := h.ascending hwf
  -- the ids that are handled now are those handled before and those of the batch
  have hmem (id : UInt64) : id ∈ s.quotes.index.filter (fun id => Handled u id) ++ now ↔
      id ∈ s.quotes.index.filter fun id => Handled t id := by
    rw [List.mem_append, hbatch.mem_now_iff hsorted, h.index_eq, List.mem_filter, List.mem_filter,
      decide_eq_true_eq, decide_eq_true_eq]
    have hmono : Handled u id → Handled t id := hbatch.handled_mono
    tauto
  refine ⟨?_, ?_, ?_, ?_, ?_, ?_, ?_⟩
  · rw [hbatch.quotes_eq, h.quotes_eq, QuoteStore.upgradeAll_append]
    exact QuoteStore.upgradeAll_congr hmem
  · rw [hbatch.access_eq, h.access_eq]
  · rcases hbatch.outcome with ⟨_, _, hversion⟩ | ⟨_, hversion, _⟩
    · exact Or.inr hversion
    · exact Or.inl hversion
  · intro hv2
    rcases hbatch.outcome with ⟨_, hcursor, _⟩ | ⟨_, hversion, _⟩
    · exact hcursor
    · rw [hversion] at hv2
      exact absurd hv2 (by decide)
  · rw [hbatch.audit_config, h.audit_config]
  · have hbefore := h.audit_counter
    have hcounter := hbatch.audit_counter
    rw [hbatch.remaining_before, List.length_append] at hbefore
    rw [hbatch.remaining_after hsorted]
    omega
  · intro hv1
    rcases hbatch.outcome with ⟨_, _, hversion⟩ | ⟨_, _, _, hcount, _⟩
    · rw [hversion] at hv1
      exact absurd hv1 (by decide)
    · rw [hcount, h.count hbatch.from_v1]

theorem legacyAt_iff (h : Underway s u) : u.quotes.LegacyAt id ↔ s.quotes.LegacyAt id := by
  rw [h.quotes_eq, QuoteStore.legacyAt_upgradeAll]

/-- The record of a quote changes exactly when it is pending and comes to be handled. -/
theorem get_eq_iff (hu : Underway s u) (ht : Underway s t) (hwf : s.quotes.WellFormed) :
    t.quotes.record.get (anchor, id) = u.quotes.record.get (anchor, id) ↔
      (s.quotes.Pending anchor id → (Handled u id ↔ Handled t id)) := by
  rw [ht.quotes_eq, hu.quotes_eq, QuoteStore.get_upgradeAll, QuoteStore.get_upgradeAll]
  rcases hget : s.quotes.record.get (anchor, id) with _ | (legacy | quote)
  · simp [QuoteStore.Pending, hget]
  · simp [QuoteStore.Pending, hget, upgradeStored]
  · obtain ⟨hindex, href⟩ := hwf.listed anchor id (KeyedStore.has_iff.mpr ⟨_, hget⟩)
    by_cases hversion : schemaV2 ≤ quote.schemaVersion
    · simp [QuoteStore.Pending, hget, upgradeStored, hversion]
    · have hpending : s.quotes.Pending anchor id := ⟨href, quote, hget, hversion⟩
      have hne : upgradeStored (.current quote) ≠ .current quote := by
        intro heq
        exact hversion (version_of_upgradeStored heq)
      by_cases hbefore : Handled u id <;> by_cases hafter : Handled t id <;>
        simp [hpending, hindex, href, hbefore, hafter, hne, hne.symm]

end Underway

structure ReadyToMigrate (s : Storage) (calls : ℕ → Env × UInt32) : Prop where
  initialized : s.access.initialized = true
  version : s.access.schemaVersion = schemaV1
  cursor : s.upgrades.cursor = none
  wellFormed : s.quotes.WellFormed
  admin : ∀ k, requireAdmin (calls k).1 s = .ok ()
  batch : ∀ k, (calls k).2 ≠ 0
  room : (AdminAuditLog.getConfig s).enabled = false ∨
    (AdminAuditLog.getConfig s).ttlSeconds.toNat < 2 ^ 32 ∧
      s.adminAudit.counter.toNat + s.quotes.index.length < 2 ^ 64
  count : s.upgrades.migrationCount.toNat + 1 < 2 ^ 32

/-- Call number `k` changes the record under the key. -/
def Rewrites (s : Storage) (calls : ℕ → Env × UInt32) (k : ℕ) (key : Address × UInt64) : Prop :=
  (stateBefore s calls (k + 1)).quotes.record.get key ≠
    (stateBefore s calls k).quotes.record.get key

/-- The first `n` calls are the migration. -/
structure MigratesInBatches (s : Storage) (calls : ℕ → Env × UInt32) (n : ℕ) : Prop where
  succeeds : ∀ k < n, Succeeds (migrate (calls k).1 (stateBefore s calls k) schemaV2 (calls k).2)
  version : ∀ k, (stateBefore s calls k).access.schemaVersion = schemaV2 ↔ n ≤ k
  within : ∀ k < n, ∃ keys : List (Address × UInt64), keys.length ≤ (calls k).2.toNat ∧
    ∀ key, Rewrites s calls k key → key ∈ keys
  once : ∀ anchor id, s.quotes.Pending anchor id → ∃! k, k < n ∧ Rewrites s calls k (anchor, id)
  pending : ∀ k anchor id, Rewrites s calls k (anchor, id) → s.quotes.Pending anchor id
  one_batch : ∀ env batchSize, requireAdmin env s = .ok () → batchSize ≠ 0 →
    s.quotes.index.length ≤ batchSize.toNat → ∃ t, migrate env s schemaV2 batchSize = .ok t ∧
      t.quotes = (stateBefore s calls n).quotes ∧ t.access = (stateBefore s calls n).access ∧
      t.upgrades.cursor = (stateBefore s calls n).upgrades.cursor

section Run

variable {s : Storage} {calls : ℕ → Env × UInt32} {k n : ℕ} {anchor : Address} {id : UInt64}

theorem migrateOnce_cases (s : Storage) (call : Env × UInt32) :
    (∃ now later rewritten, migrate call.1 s schemaV2 call.2 = .ok (migrateOnce s call) ∧
      MigrationBatch s (migrateOnce s call) call.2 now later rewritten) ∨
    (∃ e, migrate call.1 s schemaV2 call.2 = .error e) ∧ migrateOnce s call = s := by
  cases hcall : migrate call.1 s schemaV2 call.2 with
  | error e => exact Or.inr ⟨⟨e, rfl⟩, Machine.commit_error _ hcall⟩
  | ok t =>
    have ht : migrateOnce s call = t := Machine.commit_ok _ hcall
    obtain ⟨_, now, later, rewritten, hbatch⟩ := migrate_batch hcall
    exact Or.inl ⟨now, later, rewritten, by rw [ht], by rw [ht]; exact hbatch⟩

theorem underway (h : ReadyToMigrate s calls) (k : ℕ) : Underway s (stateBefore s calls k) := by
  induction k with
  | zero => exact Underway.start h.wellFormed h.version h.cursor
  | succ k ih =>
    rcases migrateOnce_cases (stateBefore s calls k) (calls k) with
      ⟨_, _, _, _, hbatch⟩ | ⟨_, hsame⟩
    · exact ih.of_batch hbatch h.wellFormed
    · rw [stateBefore, hsame]
      exact ih

theorem handled_succ (h : Handled (stateBefore s calls k) id) :
    Handled (stateBefore s calls (k + 1)) id := by
  rcases migrateOnce_cases (stateBefore s calls k) (calls k) with ⟨_, _, _, _, hbatch⟩ | ⟨_, hsame⟩
  · exact hbatch.handled_mono h
  · rwa [stateBefore, hsame]

/-- Nothing is migrated any more once the version is committed. -/
theorem finished_succ (h : (stateBefore s calls k).access.schemaVersion = schemaV2) :
    (stateBefore s calls (k + 1)).access.schemaVersion = schemaV2 := by
  rcases migrateOnce_cases (stateBefore s calls k) (calls k) with ⟨_, _, _, _, hbatch⟩ | ⟨_, hsame⟩
  · have hv1 := hbatch.from_v1
    rw [h] at hv1
    exact absurd hv1 (by decide)
  · rwa [stateBefore, hsame]

theorem finished_mono {m : ℕ} (h : (stateBefore s calls k).access.schemaVersion = schemaV2)
    (hle : k ≤ m) : (stateBefore s calls m).access.schemaVersion = schemaV2 := by
  induction m, hle using Nat.le_induction with
  | base => exact h
  | succ m _ ih => exact finished_succ ih

theorem not_handled_start (h : ReadyToMigrate s calls) (hid : id ∈ s.quotes.index) :
    ¬ Handled s id := not_handled_of_fresh h.wellFormed h.version h.cursor hid

/-- A quote that the cursor has passed could be read. -/
theorem readable_of_handled (h : ReadyToMigrate s calls) (hid : id ∈ s.quotes.index)
    (hhandled : Handled (stateBefore s calls k) id) : ¬ s.quotes.LegacyAt id := by
  induction k with
  | zero => exact absurd hhandled (not_handled_start h hid)
  | succ k ih =>
    have hunder := underway h k
    by_cases hbefore : Handled (stateBefore s calls k) id
    · exact ih hbefore
    · rcases migrateOnce_cases (stateBefore s calls k) (calls k) with
        ⟨now, _, _, _, hbatch⟩ | ⟨_, hsame⟩
      · have hnow : id ∈ now := by
          apply (hbatch.mem_now_iff (hunder.ascending h.wellFormed)).mpr
          exact ⟨by rwa [hunder.index_eq], hbefore, hhandled⟩
        rw [← hunder.legacyAt_iff]
        exact hbatch.readable id hnow
      · rw [stateBefore, hsame] at hhandled
        exact absurd hhandled hbefore

theorem callReady {env : Env} {batchSize : UInt32} (h : ReadyToMigrate s calls)
    (hauthorized : requireAdmin env s = .ok ()) (hbatch : batchSize ≠ 0)
    (hv1 : (stateBefore s calls k).access.schemaVersion = 1) :
    CallReady env (stateBefore s calls k) batchSize := by
  have hunder := underway h k
  have hconfig : AdminAuditLog.getConfig (stateBefore s calls k) = AdminAuditLog.getConfig s := by
    unfold AdminAuditLog.getConfig
    rw [hunder.audit_config]
  refine ⟨?_, ?_, hbatch, ?_, ?_⟩
  · rw [hunder.access_eq]
    exact h.initialized
  · unfold requireAdmin at hauthorized ⊢
    rw [hunder.access_eq]
    exact hauthorized
  · intro hsome
    have hlength := List.length_pos_iff.mpr hsome
    have hcounter := hunder.audit_counter
    unfold AdminAuditLog.Writable
    rw [hconfig]
    rcases h.room with hdisabled | ⟨httl, hroom⟩
    · exact Or.inl hdisabled
    · exact Or.inr ⟨httl, by omega⟩
  · rw [hunder.count hv1]
    exact h.count

theorem call_succeeds (h : ReadyToMigrate s calls)
    (hreadable : ∀ id ∈ s.quotes.index, ¬ s.quotes.LegacyAt id)
    (hv1 : (stateBefore s calls k).access.schemaVersion = 1) :
    Succeeds (migrate (calls k).1 (stateBefore s calls k) schemaV2 (calls k).2) := by
  have hunder := underway h k
  apply migrate_succeeds (callReady h (h.admin k) (h.batch k) hv1) hv1
  intro id hid
  rw [hunder.index_eq] at hid
  rw [hunder.legacyAt_iff]
  exact hreadable id hid

/-- Each call of a migration that goes on has gone through one more quote at least. -/
theorem finished_or_remaining (h : ReadyToMigrate s calls)
    (hreadable : ∀ id ∈ s.quotes.index, ¬ s.quotes.LegacyAt id) (k : ℕ) :
    (stateBefore s calls k).access.schemaVersion = schemaV2 ∨
      (remaining (stateBefore s calls k)).length + k ≤ s.quotes.index.length := by
  induction k with
  | zero => exact Or.inr (List.length_filter_le _ _)
  | succ k ih =>
    have hunder := underway h k
    rcases hunder.version with hv1 | hv2
    · obtain ⟨u, hcall⟩ := call_succeeds h hreadable hv1
      rcases migrateOnce_cases (stateBefore s calls k) (calls k) with
        ⟨now, later, _, _, hbatch⟩ | ⟨⟨e, herror⟩, _⟩
      · rcases hbatch.outcome with ⟨_, _, hversion⟩ | ⟨_, _, _, _, before, c, rfl, _⟩
        · exact Or.inl hversion
        · have hleft := ih.resolve_left (by rw [hv1]; decide)
          rw [hbatch.remaining_before, List.length_append, List.length_append,
            List.length_singleton] at hleft
          refine Or.inr ?_
          rw [stateBefore, hbatch.remaining_after (hunder.ascending h.wellFormed)]
          omega
      · rw [hcall] at herror
        cases herror
    · exact Or.inl (finished_succ hv2)

theorem rewrites_iff (h : ReadyToMigrate s calls) : Rewrites s calls k (anchor, id) ↔
    s.quotes.Pending anchor id ∧
      ¬ (Handled (stateBefore s calls k) id ↔ Handled (stateBefore s calls (k + 1)) id) := by
  unfold Rewrites
  rw [Ne, (underway h k).get_eq_iff (underway h (k + 1)) h.wellFormed, Classical.not_imp]

/-- A call changes the records of the ids it counts. -/
theorem rewrites_within (h : ReadyToMigrate s calls) (k : ℕ) :
    ∃ keys : List (Address × UInt64), keys.length ≤ (calls k).2.toNat ∧
      ∀ key, Rewrites s calls k key → key ∈ keys := by
  have hunder := underway h k
  rcases migrateOnce_cases (stateBefore s calls k) (calls k) with
    ⟨now, _, rewritten, _, hbatch⟩ | ⟨_, hsame⟩
  · refine ⟨rewritten.filterMap fun id =>
      (s.quotes.anchorRef.get id).map fun anchor => (anchor, id),
      (List.length_filterMap_le _ _).trans hbatch.within, ?_⟩
    rintro ⟨anchor, id⟩ hchanged
    obtain ⟨hpending, hgain⟩ := (rewrites_iff h).mp hchanged
    have hindex := (h.wellFormed.listed anchor id hpending.has).1
    have hbefore : ¬ Handled (stateBefore s calls k) id := by
      intro hhandled
      exact hgain (iff_of_true hhandled (handled_succ hhandled))
    have hafter : Handled (stateBefore s calls (k + 1)) id := by
      by_contra hunhandled
      exact hgain (iff_of_false hbefore hunhandled)
    have hnow : id ∈ now := by
      apply (hbatch.mem_now_iff (hunder.ascending h.wellFormed)).mpr
      exact ⟨by rwa [hunder.index_eq], hbefore, hafter⟩
    have hstill : (stateBefore s calls k).quotes.Pending anchor id := by
      rw [hunder.quotes_eq, QuoteStore.pending_upgradeAll]
      exact ⟨hpending, by simp [hbefore]⟩
    have href : s.quotes.anchorRef.get id = some anchor := hpending.1
    rw [List.mem_filterMap]
    exact ⟨id, hbatch.rewrites anchor id hnow hstill, by rw [href]; rfl⟩
  · refine ⟨[], Nat.zero_le _, ?_⟩
    intro key hchanged
    exact absurd (by rw [stateBefore, hsame]) hchanged

/-- A batch with room for the whole index is the only one. -/
theorem one_batch_suffices {env : Env} {batchSize : UInt32} (h : ReadyToMigrate s calls)
    (hreadable : ∀ id ∈ s.quotes.index, ¬ s.quotes.LegacyAt id)
    (hauthorized : requireAdmin env s = .ok ()) (hbatch : batchSize ≠ 0)
    (hlarge : s.quotes.index.length ≤ batchSize.toNat) :
    ∃ t, migrate env s schemaV2 batchSize = .ok t ∧ Underway s t ∧
      t.access.schemaVersion = schemaV2 := by
  have hready : CallReady env s batchSize := callReady (k := 0) h hauthorized hbatch h.version
  obtain ⟨t, ht⟩ := migrate_succeeds hready h.version hreadable
  obtain ⟨_, now, later, rewritten, hstep⟩ := migrate_batch ht
  refine ⟨t, ht, (underway h 0).of_batch hstep h.wellFormed, ?_⟩
  rcases hstep.outcome with ⟨_, _, hversion⟩ | ⟨hlater, _, hfull, _⟩
  · exact hversion
  · exfalso
    have hlength := List.length_pos_iff.mpr hlater
    have hlisted := hstep.listed.length_le
    have hall : (now ++ later).length ≤ s.quotes.index.length :=
      hstep.split ▸ List.length_filter_le _ _
    rw [List.length_append] at hall
    omega

/-- What a finished migration leaves does not depend on the calls that made it up. -/
theorem Underway.eq_of_finished {t u : Storage} (ht : Underway s t) (hu : Underway s u)
    (htv2 : t.access.schemaVersion = schemaV2) (huv2 : u.access.schemaVersion = schemaV2) :
    t.quotes = u.quotes ∧ t.access = u.access ∧ t.upgrades.cursor = u.upgrades.cursor := by
  refine ⟨?_, ?_, ?_⟩
  · rw [ht.quotes_eq, hu.quotes_eq]
    apply QuoteStore.upgradeAll_congr
    intro id
    have hthandled : Handled t id := Or.inl htv2
    have huhandled : Handled u id := Or.inl huv2
    simp [hthandled, huhandled]
  · rw [ht.access_eq, hu.access_eq, htv2, huv2]
  · rw [ht.finished htv2, hu.finished huv2]

end Run

/-- A property that, once gained, is kept is gained at one point only. -/
theorem existsUnique_gain {P : ℕ → Prop} {n : ℕ} (hstart : ¬ P 0) (hend : P n)
    (hkeep : ∀ k, P k → P (k + 1)) : ∃! k, k < n ∧ ¬ (P k ↔ P (k + 1)) := by
  have hmono : Monotone P := monotone_nat_of_le_succ hkeep
  induction n with
  | zero => exact absurd hend hstart
  | succ n ih =>
    by_cases hn : P n
    · obtain ⟨k, ⟨hk, hgain⟩, hunique⟩ := ih hn
      refine ⟨k, ⟨by omega, hgain⟩, ?_⟩
      rintro m ⟨hm, hm'⟩
      apply hunique
      refine ⟨?_, hm'⟩
      by_contra hle
      obtain rfl : m = n := by omega
      exact hm' (iff_of_true hn hend)
    · refine ⟨n, ⟨by omega, fun hiff => hn (hiff.mpr hend)⟩, ?_⟩
      rintro m ⟨hm, hm'⟩
      by_contra hne
      have hlt : m + 1 ≤ n := by omega
      have hbefore : ¬ P m := fun hP => hn (hmono (by omega) hP)
      have hafter : ¬ P (m + 1) := fun hP => hn (hmono hlt hP)
      exact hm' (iff_of_false hbefore hafter)

/-- A migration goes through its store batch by batch, whatever the batch sizes are, exactly when
the index refers to no quote in the old layout. -/
theorem migratesInBatches_iff {s : Storage} {calls : ℕ → Env × UInt32}
    (h : ReadyToMigrate s calls) :
    (∃ n, MigratesInBatches s calls n) ↔ ∀ id ∈ s.quotes.index, ¬ s.quotes.LegacyAt id := by
  constructor
  · rintro ⟨n, hbatches⟩ id hid
    have hfinished := (hbatches.version n).mpr le_rfl
    exact readable_of_handled h hid (Or.inl hfinished)
  · intro hreadable
    have hfinishes : ∃ n, (stateBefore s calls n).access.schemaVersion = schemaV2 := by
      refine ⟨s.quotes.index.length + 1, ?_⟩
      apply (finished_or_remaining h hreadable _).resolve_right
      omega
    obtain ⟨n, hfinished, hleast⟩ : ∃ n, (stateBefore s calls n).access.schemaVersion = schemaV2 ∧
        ∀ k < n, (stateBefore s calls k).access.schemaVersion ≠ schemaV2 :=
      ⟨Nat.find hfinishes, Nat.find_spec hfinishes, fun k hk => Nat.find_min hfinishes hk⟩
    refine ⟨n, ?_, ?_, fun k _ => rewrites_within h k, ?_, ?_, ?_⟩
    · intro k hk
      have hv1 := (underway h k).version.resolve_right (hleast k hk)
      exact call_succeeds h hreadable hv1
    · intro k
      constructor
      · intro hv2
        by_contra hlt
        exact hleast k (by omega) hv2
      · exact finished_mono hfinished
    · intro anchor id hpending
      have hindex := (h.wellFormed.listed anchor id hpending.has).1
      have hend : Handled (stateBefore s calls n) id := Or.inl hfinished
      have hgain := existsUnique_gain (P := fun k => Handled (stateBefore s calls k) id)
        (not_handled_start h hindex) hend (fun k => handled_succ)
      simpa only [rewrites_iff h, hpending, true_and] using hgain
    · intro k anchor id hchanged
      exact ((rewrites_iff h).mp hchanged).1
    · intro env batchSize hauthorized hbatch hlarge
      obtain ⟨t, ht, hunder, hv2⟩ := one_batch_suffices h hreadable hauthorized hbatch hlarge
      exact ⟨t, ht, hunder.eq_of_finished (underway h n) hv2 hfinished⟩

namespace Demo

def oneByOne : ℕ → Env × UInt32 := fun _ => (⟨1000, 1, [admin]⟩, 1)

/-- The admin migrates two quotes with the second call and one with every other call. -/
def mixedBatches : ℕ → Env × UInt32 := fun k => (⟨1000, 1, [admin]⟩, if k = 1 then 2 else 1)

def fourOffers : List Input :=
  offered none ++ [makeOffer none, makeOffer none, makeOffer none]

/-- One quote, stored as a contract of the first version stored it. -/
def legacyOffer : Storage :=
  let s := run host (offered none)
  { s with quotes := { s.quotes with
    record := s.quotes.record.set (alice, 1) (.legacy (offer none).toQuoteV1) } }

end Demo

theorem offers_migrate_in_batches :
    ∃ n, MigratesInBatches (run Demo.host Demo.fourOffers) Demo.mixedBatches n := by
  have hadmin : requireAdmin (Demo.mixedBatches 0).1 (run Demo.host Demo.fourOffers) = .ok () := by
    decide
  have hbatch (k : ℕ) : (Demo.mixedBatches k).2 ≠ 0 := by
    unfold Demo.mixedBatches
    dsimp only
    split
    · decide
    · decide
  have hready : ReadyToMigrate (run Demo.host Demo.fourOffers) Demo.mixedBatches :=
    { initialized := by decide
      version := by decide
      cursor := by decide
      wellFormed := wellFormed_run Demo.host Demo.fourOffers
      admin := fun _ => hadmin
      batch := hbatch
      room := Or.inr ⟨by decide, by decide⟩
      count := by decide }
  apply (migratesInBatches_iff hready).mpr
  rintro id hid ⟨anchor, quote, href, hget⟩
  obtain ⟨current, hcurrent⟩ := current_run Demo.host Demo.fourOffers _ _ hget
  cases hcurrent

/-- A record of the old layout stops every call that gets to it. -/
theorem legacy_offer_stops_migration :
    ¬ ∃ n, MigratesInBatches Demo.legacyOffer Demo.oneByOne n := by
  rintro ⟨n, hbatches⟩
  rcases Nat.eq_zero_or_pos n with rfl | hpos
  · have hfinished := (hbatches.version 0).mpr le_rfl
    revert hfinished
    decide
  · obtain ⟨t, ht⟩ := hbatches.succeeds 0 hpos
    have hfails : migrate ⟨1000, 1, [Demo.admin]⟩ Demo.legacyOffer schemaV2 1
        = .error .conversionFailed := rfl
    cases hfails.symm.trans ht

end AnchorKit
