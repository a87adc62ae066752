import AnchorKit.Library.KeyedList
import AnchorKit.Library.Machine
import AnchorKit.StellarAccounts

/-!
# Provenance of artifacts

Records of artifacts are numbered as they come in, and filled in later. After any run a record
tells what it was made with and, field by field, what the last update that knew it said.
-/

namespace AnchorKit

open Fallible Machine
open KeyedList (lookup rewrite)

structure ArtifactProvenance where
  provenanceId : ℕ
  artifactName : Text
  contentHash : Text
  sourceRevision : Option Text
  sourceRepository : Option Text
  buildCommand : Option Text
  buildEnv : List (Text × Text)
  recordedAt : UInt64
  signature : Option Text
deriving DecidableEq

def ArtifactProvenance.isComplete (record : ArtifactProvenance) : Bool :=
  record.sourceRevision.isSome && record.sourceRepository.isSome && record.buildCommand.isSome

/-! ### Verification -/

inductive FieldVerdict
  | matched
  | mismatch (expected actual : Text)
  | missing
  | notChecked
deriving DecidableEq

structure VerificationReport where
  provenanceId : ℕ
  artifactName : Text
  contentHash : FieldVerdict
  sourceRevision : FieldVerdict
  buildCommand : FieldVerdict
  passed : Bool
deriving DecidableEq

structure ProvenanceVerifier where
  record : ArtifactProvenance
  expectedHash : Option Text
  expectedRevision : Option Text
  expectedBuildCommand : Option Text

def checkField : Option Text → Option Text → FieldVerdict
  | none, _ => .notChecked
  | some _, none => .missing
  | some exp, some act => if exp = act then .matched else .mismatch exp act

def isPassing (v : FieldVerdict) : Bool := v = .matched || v = .notChecked

namespace ProvenanceVerifier

def new (record : ArtifactProvenance) : ProvenanceVerifier := ⟨record, none, none, none⟩

def expectContentHash (v : ProvenanceVerifier) (hash : Text) : ProvenanceVerifier :=
  { v with expectedHash := some hash }

def expectSourceRevision (v : ProvenanceVerifier) (rev : Text) : ProvenanceVerifier :=
  { v with expectedRevision := some rev }

def expectBuildCommand (v : ProvenanceVerifier) (cmd : Text) : ProvenanceVerifier :=
  { v with expectedBuildCommand := some cmd }

def verify (v : ProvenanceVerifier) : VerificationReport :=
  let hashVerdict := checkField v.expectedHash (some v.record.contentHash)
  let revVerdict := checkField v.expectedRevision v.record.sourceRevision
  let cmdVerdict := checkField v.expectedBuildCommand v.record.buildCommand
  { provenanceId := v.record.provenanceId, artifactName := v.record.artifactName,
    contentHash := hashVerdict, sourceRevision := revVerdict, buildCommand := cmdVerdict,
    passed := isPassing hashVerdict && isPassing revVerdict && isPassing cmdVerdict }

end ProvenanceVerifier

/-- An `@` between the scheme and the first slash behind it. -/
def urlHasCredentials (url : Text) : Bool :=
  match Text.cutAt "://".toList url with
  | some (_, rest) => (rest.takeWhile fun c => c ≠ '/').contains '@'
  | none => false

/-! ### The store -/

structure ProvenanceStore where
  records : List ArtifactProvenance
  nextId : ℕ

namespace ProvenanceStore

def new : ProvenanceStore := ⟨[], 0⟩

def record (store : ProvenanceStore) (artifactName contentHash : Text) (recordedAt : UInt64) :
    Except AnchorKitError ProvenanceStore := do
  require (artifactName ≠ []) (.validationError "artifact_name must not be empty")
  require (contentHash ≠ []) (.validationError "content_hash must not be empty")
  require (contentHash.any isAsciiSpace = false)
    (.validationError "content_hash must not contain whitespace")
  let provenance : ArtifactProvenance := {
    provenanceId := store.nextId, artifactName, contentHash, sourceRevision := none,
    sourceRepository := none, buildCommand := none, buildEnv := [], recordedAt, signature := none }
  return { records := store.records ++ [provenance], nextId := store.nextId + 1 }

/-- What is not given leaves the record as it is. -/
def update (store : ProvenanceStore) (provenanceId : ℕ)
    (sourceRevision sourceRepository buildCommand : Option Text)
    (buildEnv : Option (List (Text × Text))) (signature : Option Text) :
    Except AnchorKitError ProvenanceStore := do
  require (∀ repo ∈ sourceRepository, urlHasCredentials repo = false)
    (.validationError "source_repository must not contain URL credentials")
  let record ← expect (lookup ArtifactProvenance.provenanceId provenanceId store.records)
    ⟨.transactionNotFound, "provenance record not found", none⟩
  let record := { record with
    sourceRevision := sourceRevision.or record.sourceRevision
    sourceRepository := sourceRepository.or record.sourceRepository
    buildCommand := buildCommand.or record.buildCommand
    buildEnv := buildEnv.getD record.buildEnv
    signature := signature.or record.signature }
  return { store with
    records := rewrite ArtifactProvenance.provenanceId provenanceId record store.records }

def getById (store : ProvenanceStore) (provenanceId : ℕ) : Option ArtifactProvenance :=
  lookup ArtifactProvenance.provenanceId provenanceId store.records

def getByName (store : ProvenanceStore) (artifactName : Text) : List ArtifactProvenance :=
  store.records.filter fun r => r.artifactName = artifactName

def getByHash (store : ProvenanceStore) (contentHash : Text) : Option ArtifactProvenance :=
  store.records.find? fun r => r.contentHash = contentHash

def count (store : ProvenanceStore) : ℕ := store.records.length

def list (store : ProvenanceStore) : List ArtifactProvenance := store.records

end ProvenanceStore

/-! ### Runs -/

inductive ProvenanceCall
  | record (artifactName contentHash : Text) (recordedAt : UInt64)
  | update (provenanceId : ℕ) (sourceRevision sourceRepository buildCommand : Option Text)
    (buildEnv : Option (List (Text × Text))) (signature : Option Text)

namespace ProvenanceStore

def step (store : ProvenanceStore) : ProvenanceCall → Except AnchorKitError ProvenanceStore
  | .record artifactName contentHash recordedAt => store.record artifactName contentHash recordedAt
  | .update id sourceRevision sourceRepository buildCommand buildEnv signature =>
    store.update id sourceRevision sourceRepository buildCommand buildEnv signature

abbrev Transition := Machine.Transition ProvenanceStore ProvenanceCall

def run (calls : List ProvenanceCall) : ProvenanceStore := Machine.run step new calls

def history (calls : List ProvenanceCall) : List Transition := transitions step new calls

end ProvenanceStore

open ProvenanceStore (Transition)

def artifactRecorded (t : Transition) : Option (Text × Text × UInt64) :=
  match t.input with
  | .record artifactName contentHash recordedAt => some (artifactName, contentHash, recordedAt)
  | .update .. => none

/-- What an update gives for a record: its revision, repository, command, environment and
signature. -/
structure Given where
  sourceRevision : Option Text
  sourceRepository : Option Text
  buildCommand : Option Text
  buildEnv : Option (List (Text × Text))
  signature : Option Text

def Given.nothing : Given := ⟨none, none, none, none, none⟩

def givenFor (id : ℕ) (t : Transition) : Given :=
  match t.input with
  | .record .. => .nothing
  | .update provenanceId sourceRevision sourceRepository buildCommand buildEnv signature =>
    if provenanceId = id then
      ⟨sourceRevision, sourceRepository, buildCommand, buildEnv, signature⟩
    else .nothing

def recordTold (past : List Transition) (id : ℕ) (artifact : Text × Text × UInt64) :
    ArtifactProvenance where
  provenanceId := id
  artifactName := artifact.1
  contentHash := artifact.2.1
  recordedAt := artifact.2.2
  sourceRevision := lastSome (fun t => (givenFor id t).sourceRevision) past
  sourceRepository := lastSome (fun t => (givenFor id t).sourceRepository) past
  buildCommand := lastSome (fun t => (givenFor id t).buildCommand) past
  buildEnv := (lastSome (fun t => (givenFor id t).buildEnv) past).getD []
  signature := lastSome (fun t => (givenFor id t).signature) past

def recordsTold (past : List Transition) : List ArtifactProvenance :=
  (past.filterMap artifactRecorded).mapIdx (recordTold past)

/-- What a run leaves in the store, which calls it allows next and what a verification says. -/
structure ProvenanceTold (past : List Transition) (store : ProvenanceStore) : Prop where
  listed : store.list = recordsTold past
  found : ∀ id, store.getById id = (recordsTold past)[id]?
  clean : ∀ record ∈ store.list, ∀ scheme userinfo host,
    record.sourceRepository = some (scheme ++ "://".toList ++ (userinfo ++ '@' :: host)) →
      ':' ∈ scheme ∨ '/' ∈ userinfo
  complete : ∀ record ∈ store.list, record.isComplete = true ↔
    (∃ t ∈ past, (givenFor record.provenanceId t).sourceRevision.isSome = true) ∧
    (∃ t ∈ past, (givenFor record.provenanceId t).sourceRepository.isSome = true) ∧
    ∃ t ∈ past, (givenFor record.provenanceId t).buildCommand.isSome = true
  records : ∀ artifactName contentHash recordedAt,
    Succeeds (store.record artifactName contentHash recordedAt) ↔
      artifactName ≠ [] ∧ contentHash ≠ [] ∧ ∀ c ∈ contentHash, isAsciiSpace c = false
  updates : ∀ id sourceRevision sourceRepository buildCommand buildEnv signature,
    Succeeds (store.update id sourceRevision sourceRepository buildCommand buildEnv signature) ↔
      id < (past.filterMap artifactRecorded).length ∧
        ∀ repo ∈ sourceRepository, urlHasCredentials repo = false
  verified : ∀ record ∈ store.list, ∀ hash revision command : Option Text,
    (ProvenanceVerifier.mk record hash revision command).verify.passed = true ↔
      (∀ h ∈ hash, h = record.contentHash) ∧
      (∀ r ∈ revision,
        lastSome (fun t => (givenFor record.provenanceId t).sourceRevision) past = some r) ∧
      ∀ c ∈ command,
        lastSome (fun t => (givenFor record.provenanceId t).buildCommand) past = some c

section Runs

variable {past : List Transition} {t : Transition} {store store' : ProvenanceStore} {id : ℕ}
  {artifact : Text × Text × UInt64} {artifactName contentHash : Text} {recordedAt : UInt64}
  {sourceRevision sourceRepository buildCommand signature : Option Text}
  {buildEnv : Option (List (Text × Text))}

theorem record_eq_ok : store.record artifactName contentHash recordedAt = .ok store' ↔
    (artifactName ≠ [] ∧ contentHash ≠ [] ∧ ∀ c ∈ contentHash, isAsciiSpace c = false) ∧
      store' = ⟨store.records ++ [⟨store.nextId, artifactName, contentHash, none, none, none, [],
        recordedAt, none⟩], store.nextId + 1⟩ := by
  have hblank : contentHash.any isAsciiSpace = false ↔
      ∀ c ∈ contentHash, isAsciiSpace c = false := by
    simp [List.any_eq_false]
  simp only [ProvenanceStore.record, require_bind_eq_ok, pure_eq_ok, hblank]
  constructor
  · rintro ⟨hname, hhash, hspace, rfl⟩
    exact ⟨⟨hname, hhash, hspace⟩, rfl⟩
  · rintro ⟨⟨hname, hhash, hspace⟩, rfl⟩
    exact ⟨hname, hhash, hspace, rfl⟩

def ArtifactProvenance.filled (record : ArtifactProvenance) (given : Given) : ArtifactProvenance :=
  { record with
    sourceRevision := given.sourceRevision.or record.sourceRevision
    sourceRepository := given.sourceRepository.or record.sourceRepository
    buildCommand := given.buildCommand.or record.buildCommand
    buildEnv := given.buildEnv.getD record.buildEnv
    signature := given.signature.or record.signature }

theorem update_eq_ok : store.update id sourceRevision sourceRepository buildCommand buildEnv
      signature = .ok store' ↔
    (∀ repo ∈ sourceRepository, urlHasCredentials repo = false) ∧
      ∃ record, lookup ArtifactProvenance.provenanceId id store.records = some record ∧
        store' = ⟨rewrite ArtifactProvenance.provenanceId id
          (record.filled ⟨sourceRevision, sourceRepository, buildCommand, buildEnv, signature⟩)
          store.records, store.nextId⟩ := by
  simp only [ProvenanceStore.update, require_bind_eq_ok, expect_bind_eq_ok, pure_eq_ok,
    eq_comm (b := store')]
  rfl

@[simp] theorem filled_nothing (record : ArtifactProvenance) : record.filled .nothing = record :=
  rfl

theorem recordTold_snoc (past : List Transition) (t : Transition) (id : ℕ)
    (artifact : Text × Text × UInt64) : recordTold (past ++ [t]) id artifact =
      (recordTold past id artifact).filled (givenFor id t) := by
  simp only [recordTold, lastSome_snoc, Option.getD_or]
  rfl

theorem lastSome_of_nothing {α : Type} (read : Given → Option α) (hread : read .nothing = none)
    (h : ∀ t ∈ past, givenFor id t = .nothing) :
    lastSome (fun t => read (givenFor id t)) past = none := by
  cases hlast : lastSome (fun t => read (givenFor id t)) past with
  | none => rfl
  | some b =>
    obtain ⟨t, ht, hgiven⟩ := exists_mem_of_lastSome hlast
    rw [h t ht, hread] at hgiven
    cases hgiven

/-- A record that nothing was given for is as it was made. -/
theorem recordTold_of_nothing (h : ∀ t ∈ past, givenFor id t = .nothing) :
    recordTold past id artifact =
      ⟨id, artifact.1, artifact.2.1, none, none, none, [], artifact.2.2, none⟩ := by
  have hrevision := lastSome_of_nothing Given.sourceRevision rfl h
  have hrepository := lastSome_of_nothing Given.sourceRepository rfl h
  have hcommand := lastSome_of_nothing Given.buildCommand rfl h
  have henv := lastSome_of_nothing Given.buildEnv rfl h
  have hsignature := lastSome_of_nothing Given.signature rfl h
  rw [recordTold, hrevision, hrepository, hcommand, henv, hsignature]
  rfl

/-- The store holds the records that the calls tell; nothing was given for other numbers. -/
structure HoldsTold (past : List Transition) (store : ProvenanceStore) : Prop where
  get : ∀ id, store.records[id]? = (past.filterMap artifactRecorded)[id]?.map (recordTold past id)
  nextId : store.nextId = (past.filterMap artifactRecorded).length
  known : ∀ t ∈ past, ∀ id, (past.filterMap artifactRecorded).length ≤ id →
    givenFor id t = .nothing
  clean : ∀ t ∈ past, ∀ id, ∀ repo ∈ (givenFor id t).sourceRepository,
    urlHasCredentials repo = false

theorem HoldsTold.numbered (h : HoldsTold past store) :
    KeyedList.Numbered ArtifactProvenance.provenanceId store.records := by
  intro id record hget
  rw [h.get] at hget
  obtain ⟨artifact, _, rfl⟩ := Option.map_eq_some_iff.mp hget
  rfl

theorem HoldsTold.length (h : HoldsTold past store) :
    store.records.length = (past.filterMap artifactRecorded).length := by
  have hnone (id : ℕ) : store.records.length ≤ id ↔
      (past.filterMap artifactRecorded).length ≤ id := by
    rw [← List.getElem?_eq_none_iff, ← List.getElem?_eq_none_iff, h.get, Option.map_eq_none_iff]
  exact Nat.le_antisymm ((hnone _).mpr le_rfl) ((hnone _).mp le_rfl)

theorem HoldsTold.of_record (hpre : HoldsTold past t.pre)
    (hinput : t.input = .record artifactName contentHash recordedAt)
    (h : t.pre.record artifactName contentHash recordedAt = .ok t.post) :
    HoldsTold (past ++ [t]) t.post := by
  obtain ⟨_, hpost⟩ := record_eq_ok.mp h
  have hrecorded : artifactRecorded t = some (artifactName, contentHash, recordedAt) := by
    rw [artifactRecorded, hinput]
  have hgiven (id : ℕ) : givenFor id t = .nothing := by rw [givenFor, hinput]
  have htold : (past ++ [t]).filterMap artifactRecorded =
      past.filterMap artifactRecorded ++ [(artifactName, contentHash, recordedAt)] := by
    rw [List.filterMap_append, List.filterMap_cons_some hrecorded, List.filterMap_nil]
  have hsame (id : ℕ) (artifact : Text × Text × UInt64) :
      recordTold (past ++ [t]) id artifact = recordTold past id artifact := by
    rw [recordTold_snoc, hgiven, filled_nothing]
  have hlength := hpre.length
  refine ⟨fun id => ?_, ?_, ?_, ?_⟩
  · rw [hpost, htold]
    rcases Nat.lt_trichotomy id t.pre.records.length with hlt | rfl | hgt
    · rw [List.getElem?_append_left hlt, List.getElem?_append_left (hlength ▸ hlt), hpre.get]
      exact Option.map_congr fun artifact _ => (hsame id artifact).symm
    · have hknown : recordTold past t.pre.records.length (artifactName, contentHash, recordedAt) =
          ⟨t.pre.records.length, artifactName, contentHash, none, none, none, [], recordedAt,
            none⟩ := recordTold_of_nothing fun t ht => hpre.known t ht _ hlength.ge
      rw [List.getElem?_concat_length, hlength, List.getElem?_concat_length, Option.map_some, hsame,
        ← hlength, hknown, hpre.nextId, hlength]
    · rw [List.getElem?_eq_none (by simp; omega), List.getElem?_eq_none (by simp; omega)]
      rfl
  · rw [hpost, htold, List.length_append, hpre.nextId]
    rfl
  · rw [htold, forall_mem_snoc]
    refine ⟨fun u hu id hid => hpre.known u hu id ?_, fun id _ => hgiven id⟩
    rw [List.length_append] at hid
    omega
  · rw [forall_mem_snoc]
    refine ⟨hpre.clean, fun id repo hrepo => ?_⟩
    rw [hgiven] at hrepo
    cases hrepo

theorem HoldsTold.of_update (hpre : HoldsTold past t.pre) (hinput : t.input =
      .update id sourceRevision sourceRepository buildCommand buildEnv signature)
    (h : t.pre.update id sourceRevision sourceRepository buildCommand buildEnv signature =
      .ok t.post) : HoldsTold (past ++ [t]) t.post := by
  obtain ⟨hclean, record, hfound, hpost⟩ := update_eq_ok.mp h
  rw [hpre.numbered.lookup_eq] at hfound
  have hgiven (i : ℕ) : givenFor i t = if id = i then
      ⟨sourceRevision, sourceRepository, buildCommand, buildEnv, signature⟩ else .nothing := by
    rw [givenFor, hinput]
  have htold : (past ++ [t]).filterMap artifactRecorded = past.filterMap artifactRecorded := by
    have hnone : artifactRecorded t = none := by rw [artifactRecorded, hinput]
    rw [List.filterMap_append, List.filterMap_cons_none hnone, List.filterMap_nil, List.append_nil]
  refine ⟨fun i => ?_, ?_, ?_, ?_⟩
  · rw [hpost, htold, hpre.numbered.getElem?_rewrite hfound]
    by_cases hi : i = id
    · subst hi
      rw [hpre.get] at hfound
      obtain ⟨artifact, hartifact, rfl⟩ := Option.map_eq_some_iff.mp hfound
      rw [if_pos rfl, hartifact, Option.map_some, recordTold_snoc, hgiven, if_pos rfl]
    · rw [if_neg hi, hpre.get]
      refine Option.map_congr fun artifact _ => ?_
      rw [recordTold_snoc, hgiven, if_neg (Ne.symm hi), filled_nothing]
  · rw [hpost, htold, hpre.nextId]
  · rw [htold, forall_mem_snoc]
    refine ⟨hpre.known, fun i hi => ?_⟩
    have hlt := (List.getElem?_eq_some_iff.mp hfound).1
    rw [hpre.length] at hlt
    rw [hgiven, if_neg (by omega)]
  · rw [forall_mem_snoc]
    refine ⟨hpre.clean, fun i repo hrepo => ?_⟩
    rw [hgiven] at hrepo
    split_ifs at hrepo
    · exact hclean repo hrepo
    · cases hrepo

theorem holdsTold_step (h : ProvenanceStore.step t.pre t.input = .ok t.post)
    (hpre : HoldsTold past t.pre) : HoldsTold (past ++ [t]) t.post := by
  cases hinput : t.input with
  | record artifactName contentHash recordedAt =>
    rw [hinput] at h
    exact hpre.of_record hinput h
  | update id sourceRevision sourceRepository buildCommand buildEnv signature =>
    rw [hinput] at h
    exact hpre.of_update hinput h

theorem holdsTold_run (calls : List ProvenanceCall) :
    HoldsTold (ProvenanceStore.history calls) (ProvenanceStore.run calls) := by
  refine history_invariant ProvenanceStore.step HoldsTold (fun _ => True) ⟨?_, rfl, ?_, ?_⟩ ?_ calls
    fun _ _ => trivial
  · exact fun _ => rfl
  · exact fun _ ht => absurd ht List.not_mem_nil
  · exact fun _ ht => absurd ht List.not_mem_nil
  · intro past t ht hpre _
    exact holdsTold_step ht hpre

theorem isPassing_checkField {expected actual : Option Text} :
    isPassing (checkField expected actual) = true ↔ ∀ e ∈ expected, actual = some e := by
  cases expected with
  | none => simp [checkField, isPassing]
  | some e =>
    cases actual with
    | none => simp [checkField, isPassing]
    | some a =>
      by_cases hsame : e = a
      · simp [checkField, isPassing, hsame]
      · simp [checkField, isPassing, hsame, Ne.symm hsame]

theorem verify_passed {record : ArtifactProvenance} {hash revision command : Option Text} :
    (ProvenanceVerifier.mk record hash revision command).verify.passed = true ↔
      (∀ h ∈ hash, some record.contentHash = some h) ∧
        (∀ r ∈ revision, record.sourceRevision = some r) ∧
        ∀ c ∈ command, record.buildCommand = some c := by
  simp only [ProvenanceVerifier.verify, Bool.and_eq_true, isPassing_checkField, and_assoc]

theorem urlHasCredentials_of_userinfo {scheme userinfo host : Text} (hscheme : ':' ∉ scheme)
    (huserinfo : '/' ∉ userinfo) :
    urlHasCredentials (scheme ++ "://".toList ++ (userinfo ++ '@' :: host)) = true := by
  have hcut : Text.cutAt "://".toList (scheme ++ ("://".toList ++ (userinfo ++ '@' :: host))) =
      some (scheme, userinfo ++ '@' :: host) := Text.cutAt_append hscheme _
  have htake : (userinfo ++ '@' :: host).takeWhile (fun c => c ≠ '/') =
      userinfo ++ ('@' :: host).takeWhile fun c => c ≠ '/' := by
    refine List.takeWhile_append_of_pos fun c hc => ?_
    simp only [decide_eq_true_eq]
    rintro rfl
    exact huserinfo hc
  rw [urlHasCredentials, List.append_assoc, hcut]
  simp only
  rw [htake, List.takeWhile_cons_of_pos (by decide)]
  simp

theorem HoldsTold.list_eq (h : HoldsTold past store) : store.list = recordsTold past := by
  apply List.ext_getElem?
  intro id
  rw [ProvenanceStore.list, h.get, recordsTold, List.getElem?_mapIdx]

/-- A stored record is the one that the calls tell for its number. -/
theorem HoldsTold.mem_list (h : HoldsTold past store) {record : ArtifactProvenance}
    (hmem : record ∈ store.list) : ∃ id artifact, record = recordTold past id artifact := by
  obtain ⟨id, hget⟩ := List.mem_iff_getElem?.mp hmem
  rw [ProvenanceStore.list, h.get] at hget
  obtain ⟨artifact, _, rfl⟩ := Option.map_eq_some_iff.mp hget
  exact ⟨id, artifact, rfl⟩

theorem provenance_run (calls : List ProvenanceCall) :
    ProvenanceTold (ProvenanceStore.history calls) (ProvenanceStore.run calls) := by
  have hrun := holdsTold_run calls
  refine ⟨hrun.list_eq, fun id => ?_, ?_, ?_, fun _ _ _ => ?_, fun id _ repository _ _ _ => ?_, ?_⟩
  · rw [ProvenanceStore.getById, hrun.numbered.lookup_eq, ← hrun.list_eq]
    rfl
  · intro record hmem scheme userinfo host hrepository
    obtain ⟨id, artifact, rfl⟩ := hrun.mem_list hmem
    obtain ⟨t, ht, hgiven⟩ := exists_mem_of_lastSome hrepository
    by_contra hplain
    rw [not_or] at hplain
    have hclean := hrun.clean t ht id _ hgiven
    rw [urlHasCredentials_of_userinfo hplain.1 hplain.2] at hclean
    cases hclean
  · intro record hmem
    obtain ⟨id, artifact, rfl⟩ := hrun.mem_list hmem
    simp only [ArtifactProvenance.isComplete, Bool.and_eq_true, and_assoc, recordTold,
      isSome_lastSome]
  · simp only [Succeeds, record_eq_ok, exists_and_left, exists_eq, and_true]
  · have hfound : (∃ record, lookup ArtifactProvenance.provenanceId id
        (ProvenanceStore.run calls).records = some record) ↔
        id < ((ProvenanceStore.history calls).filterMap artifactRecorded).length := by
      rw [hrun.numbered.lookup_eq, ← hrun.length]
      constructor
      · rintro ⟨record, hget⟩
        exact (List.getElem?_eq_some_iff.mp hget).1
      · intro hlt
        exact ⟨_, List.getElem?_eq_getElem hlt⟩
    rw [← hfound]
    simp only [Succeeds, update_eq_ok]
    constructor
    · rintro ⟨_, hclean, record, hrecord, _⟩
      exact ⟨⟨record, hrecord⟩, hclean⟩
    · rintro ⟨⟨record, hrecord⟩, hclean⟩
      exact ⟨_, hclean, record, hrecord, rfl⟩
  · intro record hmem hash revision command
    obtain ⟨id, artifact, rfl⟩ := hrun.mem_list hmem
    rw [verify_passed]
    simp only [Option.some.injEq, eq_comm (a := (recordTold _ _ _).contentHash)]
    rfl

end Runs

end AnchorKit
