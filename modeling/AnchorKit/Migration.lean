import AnchorKit.Quotes

/-!
# Upgrades and schema migration

An upgrade replaces the code and stamps a new patch version. A migration moves the schema version
along registered steps; the step to the second version rewrites the stored quotes in batches and
keeps a cursor between them.
-/

namespace AnchorKit

open Fallible

def latestSchemaVersion : UInt32 := schemaV2

inductive MigrationStep
  | toV2
deriving DecidableEq, Repr

namespace MigrationStep

def requiredFrom : MigrationStep → UInt32
  | .toV2 => 1

def produces : MigrationStep → UInt32
  | .toV2 => schemaV2

def label : MigrationStep → String
  | .toV2 => "quotes_v1_to_v2"

def allSteps : List MigrationStep := [.toV2]

end MigrationStep

inductive MigrationError
  | invalidTargetVersion
  | versionTooNew
  | versionNotAdvancing
  | noStepFound
  | historyCounterExhausted
deriving DecidableEq, Repr

def MigrationError.errorCode : MigrationError → ErrorCode
  | .invalidTargetVersion => .validationError
  | .versionTooNew => .unsupportedCapabilityVersion
  | .versionNotAdvancing => .illegalTransition
  | .noStepFound | .historyCounterExhausted => .validationError

def currentVersion (s : Storage) : UInt32 := s.access.schemaVersion

def validateMigration (s : Storage) (targetVersion : UInt32) :
    Except MigrationError MigrationStep := do
  require (targetVersion ≠ 0) .invalidTargetVersion
  require (targetVersion ≤ latestSchemaVersion) .versionTooNew
  require (currentVersion s < targetVersion) .versionNotAdvancing
  expect (MigrationStep.allSteps.find? fun step =>
    step.requiredFrom = currentVersion s ∧ step.produces = targetVersion) .noStepFound

def commitVersion (env : Env) (s : Storage) (fromVersion toVersion : UInt32) (label : String) :
    Except MigrationError Storage := do
  let idx := s.upgrades.migrationCount
  let nextIdx ← expect (Word.checkedAdd32 idx 1) .historyCounterExhausted
  let record : MigrationRecord :=
    { fromVersion, toVersion, appliedAt := env.timestamp, appliedAtLedger := env.sequence, label }
  return { s with
    access := { s.access with schemaVersion := toVersion }
    upgrades := { s.upgrades with
      migration := s.upgrades.migration.set idx record, migrationCount := nextIdx } }

def setCursor (s : Storage) (cursor : Option UInt64) : Storage :=
  { s with upgrades := { s.upgrades with cursor := cursor } }

def upgradeQuote (s : Storage) (anchor : Address) (id : UInt64) (quote : Quote) : Storage :=
  let updated := { quote with routingReason := none, schemaVersion := schemaV2 }
  { s with quotes := { s.quotes with
    record := s.quotes.record.set (anchor, id) (.current updated) } }

/-- Walk the quote index behind the cursor. A full batch leaves a cursor, the end removes it. -/
def migrateQuotesLoop (batchSize : UInt32) (resumeAfter : UInt64) (s : Storage)
    (migrated : UInt32) (lastProcessed : UInt64) : List UInt64 → Except Panic (Storage × UInt32)
  | [] => .ok (setCursor s none, migrated)
  | id :: ids =>
    if id ≤ resumeAfter then migrateQuotesLoop batchSize resumeAfter s migrated lastProcessed ids
    else if batchSize ≤ migrated then .ok (setCursor s (some lastProcessed), migrated)
    else
      match s.quotes.anchorRef.get id with
      | none => migrateQuotesLoop batchSize resumeAfter s migrated id ids
      | some anchor => do
        match ← readQuote (s.quotes.record.get (anchor, id)) with
        | none => migrateQuotesLoop batchSize resumeAfter s migrated id ids
        | some quote =>
          if schemaV2 ≤ quote.schemaVersion then
            migrateQuotesLoop batchSize resumeAfter s migrated id ids
          else
            let migrated ← add32 migrated 1
            migrateQuotesLoop batchSize resumeAfter (upgradeQuote s anchor id quote) migrated id ids

def migrateQuotesToV2 (s : Storage) (batchSize : UInt32) : Except Panic (Storage × UInt32) := do
  require (batchSize ≠ 0) (.withError .validationError)
  let resumeAfter := s.upgrades.cursor.getD 0
  migrateQuotesLoop batchSize resumeAfter s 0 resumeAfter s.quotes.index

def commitOrPanic (env : Env) (s : Storage) (fromVersion toVersion : UInt32) (label : String) :
    Except Panic Storage :=
  match commitVersion env s fromVersion toVersion label with
  | .ok s => .ok s
  | .error _ => .error (.withError .validationError)

def logMigrated (env : Env) (s : Storage) (migrated : UInt32) : Except Panic Storage :=
  if 0 < migrated then do
    let admin ← getAdminInternal s
    AdminAuditLog.logAction env s admin "schema_migration" "quotes" "v1"
      ("v2 (" ++ toString migrated ++ ")")
  else .ok s

/-- The part of `migrate` behind its checks. A batch that leaves a cursor keeps the version. -/
def runMigration (env : Env) (s : Storage) (step : MigrationStep)
    (newSchemaVersion batchSize : UInt32) : Except Panic Storage := do
  let current := currentVersion s
  if schemaV2 ≤ newSchemaVersion ∧ (current < schemaV2 ∨ s.upgrades.cursor.isSome = true) then
    let (s, migrated) ← migrateQuotesToV2 s batchSize
    let s ← logMigrated env s migrated
    if s.upgrades.cursor.isSome then
      return s
    commitOrPanic env s current newSchemaVersion step.label
  else
    commitOrPanic env s current newSchemaVersion step.label

def migrate (env : Env) (s : Storage) (newSchemaVersion batchSize : UInt32) :
    Except Panic Storage := do
  require (s.access.initialized = true) (.withError .notInitialized)
  requireAdmin env s
  match validateMigration s newSchemaVersion with
  | .error e => throw (.withError e.errorCode)
  | .ok step => runMigration env s step newSchemaVersion batchSize

def getVersionInternal (s : Storage) : ContractVersion :=
  s.upgrades.version.getD ⟨0, 1, 0, 0⟩

def ContractVersion.bumpPatch (version : ContractVersion) (upgradedAt : UInt64) :
    Except Panic ContractVersion := do
  let patch ← add32 version.patch 1
  return { version with patch, upgradedAt }

def upgrade (host : Host) (env : Env) (s : Storage) (newWasmHash : BytesN 32) :
    Except Panic Storage := do
  require (s.access.initialized = true) (.withError .notInitialized)
  requireAdmin env s
  require (newWasmHash ≠ .fill 32 0) (.withError .validationError)
  let oldWasmHash := s.upgrades.oldHash.getD (.fill 32 0)
  require (host.wasmUploaded newWasmHash = true) .missingWasm
  let newVersion ← (getVersionInternal s).bumpPatch env.timestamp
  let s := { s with upgrades := { s.upgrades with
    version := some newVersion, oldHash := some newWasmHash } }
  let admin ← getAdminInternal s
  let s ← AdminAuditLog.logAction env s admin "upgrade" "contract" "" "wasm_updated"
  return s.publish (.contractUpgraded oldWasmHash newWasmHash newVersion)

section Frames

variable {host : Host} {env : Env} {s s' : Storage}

theorem migrateQuotesLoop_frame {batchSize migrated n : UInt32} {resumeAfter last : UInt64}
    {ids : List UInt64}
    (h : migrateQuotesLoop batchSize resumeAfter s migrated last ids = .ok (s', n)) :
    ∃ quotes upgrades, s' = { s with quotes := quotes, upgrades := upgrades } := by
  induction ids generalizing s migrated last with
  | nil =>
    obtain ⟨rfl, _⟩ := Prod.mk.inj (Except.ok.inj h)
    exact ⟨_, _, rfl⟩
  | cons id ids ih =>
    unfold migrateQuotesLoop at h
    split at h
    · exact ih h
    · split at h
      · obtain ⟨rfl, _⟩ := Prod.mk.inj (Except.ok.inj h)
        exact ⟨_, _, rfl⟩
      · split at h
        · exact ih h
        · obtain ⟨read, _, h⟩ := bind_eq_ok.mp h
          cases read with
          | none => exact ih h
          | some quote =>
            dsimp only at h
            split at h
            · exact ih h
            · obtain ⟨_, _, h⟩ := bind_eq_ok.mp h
              obtain ⟨_, _, rfl⟩ := ih h
              exact ⟨_, _, rfl⟩

theorem migrateQuotesToV2_frame {batchSize n : UInt32}
    (h : migrateQuotesToV2 s batchSize = .ok (s', n)) :
    ∃ quotes upgrades, s' = { s with quotes := quotes, upgrades := upgrades } := by
  simp only [migrateQuotesToV2, require_bind_eq_ok] at h
  exact migrateQuotesLoop_frame h.2

theorem commitOrPanic_frame {fromVersion toVersion : UInt32} {label : String}
    (h : commitOrPanic env s fromVersion toVersion label = .ok s') :
    ∃ upgrades, s' = { s with
      access := { s.access with schemaVersion := toVersion }, upgrades := upgrades } := by
  unfold commitOrPanic at h
  split at h
  · rename_i t ht
    obtain rfl := Except.ok.inj h
    simp only [commitVersion, expect_bind_eq_ok, pure_eq_ok] at ht
    obtain ⟨_, _, rfl⟩ := ht
    exact ⟨_, rfl⟩
  · cases h

theorem logMigrated_frame {migrated : UInt32} (h : logMigrated env s migrated = .ok s') :
    ∃ ring events, s' = { s with adminAudit := ring, events := events } := by
  unfold logMigrated at h
  split at h
  · obtain ⟨_, _, hlog⟩ := bind_eq_ok.mp h
    exact AdminAuditLog.logAction_frame hlog
  · obtain rfl := Except.ok.inj h
    exact ⟨_, _, rfl⟩

theorem runMigration_frame {step : MigrationStep} {newVersion batchSize : UInt32}
    (h : runMigration env s step newVersion batchSize = .ok s') :
    ∃ version ring quotes upgrades events, s' = { s with
      access := { s.access with schemaVersion := version }
      adminAudit := ring, quotes := quotes, upgrades := upgrades, events := events } := by
  dsimp only [runMigration] at h
  split at h
  · simp only [bind_eq_ok] at h
    obtain ⟨⟨t, n⟩, hquotes, u, hlog, h⟩ := h
    obtain ⟨_, _, rfl⟩ := migrateQuotesToV2_frame hquotes
    obtain ⟨_, _, rfl⟩ := logMigrated_frame hlog
    split at h
    · obtain rfl := pure_eq_ok.mp h
      exact ⟨_, _, _, _, _, rfl⟩
    · obtain ⟨_, rfl⟩ := commitOrPanic_frame h
      exact ⟨_, _, _, _, _, rfl⟩
  · obtain ⟨_, rfl⟩ := commitOrPanic_frame h
    exact ⟨_, _, _, _, _, rfl⟩

/-- A migration changes the schema version and nothing else of who may do what. -/
theorem migrate_frame {newVersion batchSize : UInt32}
    (h : migrate env s newVersion batchSize = .ok s') :
    ∃ version ring quotes upgrades events, s' = { s with
      access := { s.access with schemaVersion := version }
      adminAudit := ring, quotes := quotes, upgrades := upgrades, events := events } := by
  simp only [migrate, bind_eq_ok] at h
  obtain ⟨_, _, _, _, h⟩ := h
  split at h
  · cases h
  · exact runMigration_frame h

theorem upgrade_effects {newWasmHash : BytesN 32} (h : upgrade host env s newWasmHash = .ok s') :
    ∃ ring version hash events, s' = { s with
      adminAudit := ring
      upgrades := { s.upgrades with version := version, oldHash := hash }
      events := events } := by
  simp only [upgrade, bind_eq_ok, pure_eq_ok] at h
  obtain ⟨_, _, _, _, _, _, _, _, _, _, _, _, _, hlog, rfl⟩ := h
  obtain ⟨_, _, rfl⟩ := AdminAuditLog.logAction_frame hlog
  exact ⟨_, _, _, _, rfl⟩

theorem upgrade_frame {newWasmHash : BytesN 32} (h : upgrade host env s newWasmHash = .ok s') :
    ∃ ring upgrades events, s' =
      { s with adminAudit := ring, upgrades := upgrades, events := events } := by
  obtain ⟨_, _, _, _, rfl⟩ := upgrade_effects h
  exact ⟨_, _, _, rfl⟩

end Frames

end AnchorKit
