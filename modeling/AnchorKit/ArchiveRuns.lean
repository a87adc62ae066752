import AnchorKit.Library.KeyedList
import AnchorKit.Library.Machine
import AnchorKit.TransactionArchive

/-!
# What an archive manager keeps

Archives are numbered in the order in which they are made and stay as they were, up to their
retrieval URI. The URI is checked when the archive is made but not when it is set later.
-/

namespace AnchorKit

open Fallible

namespace TransactionArchiveManager

inductive ArchiveRetrievalStatus
  | found (archive : TransactionArchive)
  | pendingUri (archive : TransactionArchive)
  | notFound

def get (manager : TransactionArchiveManager) (archiveId : UInt64) : ArchiveRetrievalStatus :=
  match KeyedList.lookup TransactionArchive.archiveId archiveId manager.archives with
  | none => .notFound
  | some a => if a.retrievalUri.isSome then .found a else .pendingUri a

/-- The flag tells whether the archive was found. -/
def setRetrievalUri (manager : TransactionArchiveManager) (archiveId : UInt64) (uri : Text) :
    TransactionArchiveManager × Bool :=
  match KeyedList.lookup TransactionArchive.archiveId archiveId manager.archives with
  | some a =>
    ({ manager with
        archives := KeyedList.rewrite TransactionArchive.archiveId archiveId
          { a with retrievalUri := some uri } manager.archives }, true)
  | none => (manager, false)

section Runs

variable (sha256 : Bytes → BytesN 32)

/-- `archive` on a manager that it writes in place: an error keeps what was written before it. -/
def archiveInPlace (transactionIds : List Text) (archivedAt : UInt64) (label : Text)
    (retrievalUri : Option Text) :
    ExceptT AnchorKitError (StateM TransactionArchiveManager) TransactionArchive := do
  ofExcept (require (transactionIds ≠ []) (.validationError "transaction_ids must not be empty"))
  ofExcept (require (transactionIds.any isBlank = false)
    (.validationError "transaction_ids must not contain blank IDs"))
  ofExcept (require (isBlank label = false) (.validationError "label must not be blank"))
  ofExcept (checkRetrievalUri retrievalUri)
  let manager ← MonadState.get
  let nextNextId ← ofExcept
    (expect (Word.checkedAdd64 manager.nextId 1) (.fromCode .archiveCapacityExceeded))
  let recordCount ← ofExcept (checkBatchLen transactionIds.length)
  let commitment := computeArchiveCommitment sha256 transactionIds
  let archive : TransactionArchive :=
    { archiveId := manager.nextId, archivedAt, recordCount, commitment, label, retrievalUri }
  modify fun manager => { manager with nextId := nextNextId }
  modify fun manager => { manager with archives := manager.archives ++ [archive] }
  return archive

inductive Call
  | archive (transactionIds : List Text) (archivedAt : UInt64) (label : Text)
      (retrievalUri : Option Text)
  | setRetrievalUri (archiveId : UInt64) (uri : Text)
deriving DecidableEq, Repr

def perform (manager : TransactionArchiveManager) : Call → TransactionArchiveManager
  | .archive transactionIds archivedAt label retrievalUri =>
    ((archiveInPlace sha256 transactionIds archivedAt label retrievalUri).run manager).2
  | .setRetrievalUri archiveId uri => (manager.setRetrievalUri archiveId uri).1

def step (manager : TransactionArchiveManager) (c : Call) : Except Empty TransactionArchiveManager :=
  .ok (perform sha256 manager c)

def after (calls : List Call) : TransactionArchiveManager := Machine.run (step sha256) new calls

/-- All of an archive but its URI. -/
def metadata (a : TransactionArchive) : TransactionArchive := { a with retrievalUri := none }

def Retrievable (manager : TransactionArchiveManager) : Prop :=
  ∀ a ∈ manager.archives, ∀ uri ∈ a.retrievalUri, Succeeds (normalizeUrl uri)

/-- What a manager keeps in a run, at each of its points. -/
structure KeepsArchives (calls : List Call) : Prop where
  numbered (js : List Call) (hjs : js <+: calls) :
    (after sha256 js).archives.map (fun a => a.archiveId.toNat) =
      List.range (after sha256 js).archives.length
  unchanged (js : List Call) (ids : List Text) (time : UInt64) (label : Text) (uri : Option Text)
    (hjs : js ++ [.archive ids time label uri] <+: calls) (e : AnchorKitError)
    (manager : TransactionArchiveManager)
    (h : (archiveInPlace sha256 ids time label uri).run (after sha256 js) = (.error e, manager)) :
    manager = after sha256 js
  lasting (js ks : List Call) (hjs : js <+: ks) (hks : ks <+: calls) :
    (after sha256 js).archives.map metadata <+: (after sha256 ks).archives.map metadata
  retrievable (js : List Call) (hjs : js <+: calls) : Retrievable (after sha256 js)

variable {sha256}

section Steps

variable {manager : TransactionArchiveManager} {ids : List Text} {time : UInt64} {label : Text}
  {retrievalUri : Option Text} {archiveId : UInt64} {uri : Text}

/-- The outcome of a call that replaces the manager only when it succeeds. -/
def settle {α : Type} (manager : TransactionArchiveManager) :
    Except AnchorKitError (α × TransactionArchiveManager) →
      Except AnchorKitError α × TransactionArchiveManager
  | .ok (a, manager') => (.ok a, manager')
  | .error e => (.error e, manager)

theorem run_ofExcept_bind {α β : Type} {x : Except AnchorKitError α}
    {f : α → ExceptT AnchorKitError (StateM TransactionArchiveManager) β}
    {g : α → Except AnchorKitError (β × TransactionArchiveManager)}
    (h : ∀ a, (f a).run manager = settle manager (g a)) :
    (ofExcept x >>= f).run manager = settle manager (x >>= g) := by
  cases x with
  | ok a => exact h a
  | error e => rfl

theorem run_get_bind {β : Type} {f : TransactionArchiveManager →
    ExceptT AnchorKitError (StateM TransactionArchiveManager) β} :
    (MonadState.get >>= f).run manager = (f manager).run manager := rfl

/-- Written in place or not, the outcome is the same, and an error leaves the manager alone. -/
theorem run_archiveInPlace :
    (archiveInPlace sha256 ids time label retrievalUri).run manager =
      settle manager (archive sha256 manager ids time label retrievalUri) := by
  refine run_ofExcept_bind fun _ => ?_
  refine run_ofExcept_bind fun _ => ?_
  refine run_ofExcept_bind fun _ => ?_
  refine run_ofExcept_bind fun _ => ?_
  rw [run_get_bind]
  refine run_ofExcept_bind fun nextNextId => ?_
  exact run_ofExcept_bind fun recordCount => rfl

/-- Everything an `archive` call can do to the manager. -/
theorem perform_archive (sha256 : Bytes → BytesN 32) (manager : TransactionArchiveManager)
    (ids : List Text) (time : UInt64) (label : Text) (retrievalUri : Option Text) :
    perform sha256 manager (.archive ids time label retrievalUri) = manager ∨
      ∃ a nextNextId, a.archiveId = manager.nextId ∧ a.retrievalUri = retrievalUri ∧
        checkRetrievalUri retrievalUri = .ok () ∧
        manager.nextId.toNat + 1 = nextNextId.toNat ∧
        perform sha256 manager (.archive ids time label retrievalUri) =
          ⟨manager.archives ++ [a], nextNextId⟩ := by
  rw [perform, run_archiveInPlace]
  cases h : archive sha256 manager ids time label retrievalUri with
  | error e => exact Or.inl rfl
  | ok result =>
    simp only [archive, require_bind_eq_ok] at h
    obtain ⟨_, _, _, h⟩ := h
    obtain ⟨_, huri, h⟩ := bind_eq_ok.mp h
    obtain ⟨nextNextId, hnext, h⟩ := expect_bind_eq_ok.mp h
    obtain ⟨_, _, h⟩ := bind_eq_ok.mp h
    obtain rfl := pure_eq_ok.mp h
    exact Or.inr ⟨_, nextNextId, rfl, rfl, huri, Word.checkedAdd64_one_eq_some.mp hnext, rfl⟩

/-- Everything a `set_retrieval_uri` call can do to the manager. -/
theorem perform_setRetrievalUri (sha256 : Bytes → BytesN 32) (manager : TransactionArchiveManager)
    (archiveId : UInt64) (uri : Text) :
    (perform sha256 manager (.setRetrievalUri archiveId uri) = manager ∧
      ∀ a ∈ manager.archives, a.archiveId ≠ archiveId) ∨
    ∃ a, KeyedList.lookup TransactionArchive.archiveId archiveId manager.archives = some a ∧
      perform sha256 manager (.setRetrievalUri archiveId uri) =
        { manager with
          archives := KeyedList.rewrite TransactionArchive.archiveId archiveId
            { a with retrievalUri := some uri } manager.archives } := by
  rw [perform, setRetrievalUri]
  cases h : KeyedList.lookup TransactionArchive.archiveId archiveId manager.archives with
  | none =>
    refine Or.inl ⟨rfl, fun a ha heq => ?_⟩
    exact KeyedList.lookup_eq_none.mp h (List.mem_map.mpr ⟨a, ha, heq⟩)
  | some a => exact Or.inr ⟨a, rfl, rfl⟩

theorem checkRetrievalUri_eq_ok :
    checkRetrievalUri retrievalUri = .ok () ↔ ∀ uri ∈ retrievalUri, Succeeds (normalizeUrl uri) := by
  cases retrievalUri with
  | none => simp [checkRetrievalUri]
  | some uri =>
    simp only [checkRetrievalUri, Option.mem_def, Option.some.injEq, forall_eq']
    cases h : normalizeUrl uri with
    | ok v => simp
    | error e => simp

/-- The ids are the positions, and the counter is the next one. -/
structure Numbered (manager : TransactionArchiveManager) : Prop where
  nextId_eq : manager.nextId.toNat = manager.archives.length
  ids_eq : manager.archives.map (fun a => a.archiveId.toNat) = List.range manager.archives.length

theorem Numbered.perform (h : Numbered manager) (c : Call) : Numbered (perform sha256 manager c) := by
  cases c with
  | archive ids time label retrievalUri =>
    rcases perform_archive sha256 manager ids time label retrievalUri with
      hsame | ⟨a, nextNextId, hid, _, _, hnext, hpost⟩
    · rwa [hsame]
    · rw [hpost]
      refine ⟨?_, ?_⟩
      · rw [List.length_append, ← hnext, h.nextId_eq]
        rfl
      · rw [List.map_append, h.ids_eq, List.length_append, List.map_singleton, hid, h.nextId_eq]
        exact List.range_succ.symm
  | setRetrievalUri archiveId uri =>
    rcases perform_setRetrievalUri sha256 manager archiveId uri with ⟨hsame, _⟩ | ⟨a, hfound, hpost⟩
    · rwa [hsame]
    · have hids := KeyedList.map_rewrite_of_lookup
        (v := { a with retrievalUri := some uri })
        (f := fun a : TransactionArchive => a.archiveId.toNat) hfound rfl
      have hlength := congrArg List.length hids
      simp only [List.length_map] at hlength
      rw [hpost]
      refine ⟨?_, ?_⟩
      · exact h.nextId_eq.trans hlength.symm
      · rw [hids, h.ids_eq, hlength]

theorem Numbered.lookup_eq (h : Numbered manager) (archiveId : UInt64) :
    KeyedList.lookup TransactionArchive.archiveId archiveId manager.archives =
      manager.archives[archiveId.toNat]? := by
  have hids (i : ℕ) (a : TransactionArchive) (ha : manager.archives[i]? = some a) :
      a.archiveId.toNat = i := by
    have hi := congrArg (fun ids => ids[i]?) h.ids_eq
    obtain ⟨hlt, rfl⟩ := List.getElem?_eq_some_iff.mp ha
    simpa [hlt] using hi
  cases hget : manager.archives[archiveId.toNat]? with
  | none =>
    rw [KeyedList.lookup_eq_none]
    intro hmem
    obtain ⟨a, ha, rfl⟩ := List.mem_map.mp hmem
    obtain ⟨i, hi⟩ := List.mem_iff_getElem?.mp ha
    rw [hids i a hi, hi] at hget
    cases hget
  | some a =>
    have hnodup : (manager.archives.map TransactionArchive.archiveId).Nodup := by
      apply List.Nodup.of_map UInt64.toNat
      rw [List.map_map]
      exact h.ids_eq ▸ List.nodup_range
    rw [KeyedList.lookup_eq_some hnodup]
    exact ⟨List.mem_of_getElem? hget, UInt64.toNat_inj.mp (hids _ a hget)⟩

/-- What is known of an archive but its URI stays known. -/
theorem metadata_prefix_perform (c : Call) :
    manager.archives.map metadata <+: (perform sha256 manager c).archives.map metadata := by
  cases c with
  | archive ids time label retrievalUri =>
    rcases perform_archive sha256 manager ids time label retrievalUri with
      hsame | ⟨a, _, _, _, _, _, hpost⟩
    · rw [hsame]
    · rw [hpost, List.map_append]
      exact List.prefix_append _ _
  | setRetrievalUri archiveId uri =>
    rcases perform_setRetrievalUri sha256 manager archiveId uri with ⟨hsame, _⟩ | ⟨a, hfound, hpost⟩
    · rw [hsame]
    · have hkept := KeyedList.map_rewrite_of_lookup (v := { a with retrievalUri := some uri })
        (f := metadata) hfound rfl
      rw [hpost]
      dsimp only
      rw [hkept]

theorem Retrievable.perform_archive (h : Retrievable manager) :
    Retrievable (perform sha256 manager (.archive ids time label retrievalUri)) := by
  rcases TransactionArchiveManager.perform_archive sha256 manager ids time label retrievalUri with
    hsame | ⟨a, _, _, huri, hcheck, _, hpost⟩
  · rwa [hsame]
  · rw [hpost]
    intro b hb
    rcases Machine.mem_snoc.mp hb with hb | rfl
    · exact h b hb
    · rw [huri]
      exact checkRetrievalUri_eq_ok.mp hcheck

theorem retrievable_perform_setRetrievalUri (h : Retrievable manager) :
    Retrievable (perform sha256 manager (.setRetrievalUri archiveId uri)) ↔
      Succeeds (normalizeUrl uri) ∨ ∀ a ∈ manager.archives, a.archiveId ≠ archiveId := by
  rcases perform_setRetrievalUri sha256 manager archiveId uri with
    ⟨hsame, habsent⟩ | ⟨a, hfound, hpost⟩
  · rw [hsame]
    exact iff_of_true h (Or.inr habsent)
  · have hid := KeyedList.key_of_lookup hfound
    have hpresent : ¬ ∀ a ∈ manager.archives, a.archiveId ≠ archiveId := fun habsent =>
      habsent a (KeyedList.mem_of_lookup hfound) hid
    rw [hpost, or_iff_left hpresent]
    constructor
    · intro hall
      exact hall { a with retrievalUri := some uri } (KeyedList.mem_rewrite_self hid hfound) uri rfl
    · intro huri b hb
      rcases KeyedList.mem_of_mem_rewrite hb with rfl | hb
      · rintro _ ⟨⟩
        exact huri
      · exact h b hb

end Steps

theorem after_snoc (js : List Call) (c : Call) :
    after sha256 (js ++ [c]) = perform sha256 (after sha256 js) c := Machine.run_snoc _ _ _ _

theorem numbered_after (js : List Call) : Numbered (after sha256 js) := by
  induction js using List.reverseRecOn with
  | nil => exact ⟨rfl, rfl⟩
  | append_singleton js c ih =>
    rw [after_snoc]
    exact ih.perform c

theorem metadata_prefix_after {js ks : List Call} (h : js <+: ks) :
    (after sha256 js).archives.map metadata <+: (after sha256 ks).archives.map metadata := by
  obtain ⟨more, rfl⟩ := h
  induction more using List.reverseRecOn with
  | nil => rw [List.append_nil]
  | append_singleton more c ih =>
    rw [← List.append_assoc, after_snoc]
    exact ih.trans (metadata_prefix_perform c)

variable (sha256)

/-- Every URI that is set for an archive of the manager can be normalized. -/
def SetsRetrievable (calls : List Call) : Prop :=
  ∀ js archiveId uri, js ++ [.setRetrievalUri archiveId uri] <+: calls →
    Succeeds (normalizeUrl uri) ∨ ∀ a ∈ (after sha256 js).archives, a.archiveId ≠ archiveId

variable {sha256}

theorem SetsRetrievable.retrievable {calls : List Call} (h : SetsRetrievable sha256 calls)
    {js : List Call} (hjs : js <+: calls) : Retrievable (after sha256 js) := by
  induction js using List.reverseRecOn with
  | nil =>
    intro a ha
    cases ha
  | append_singleton js c ih =>
    have hpre := ih ((List.prefix_append js [c]).trans hjs)
    rw [after_snoc]
    cases c with
    | archive ids time label retrievalUri => exact hpre.perform_archive
    | setRetrievalUri archiveId uri =>
      exact (retrievable_perform_setRetrievalUri hpre).mpr (h js archiveId uri hjs)

variable (sha256)

/-- A run keeps its archives, with URIs that lead somewhere, exactly when every URI that it sets for
an archive can be normalized. -/
theorem keeps_archives_iff (calls : List Call) :
    KeepsArchives sha256 calls ↔ SetsRetrievable sha256 calls := by
  constructor
  · intro h js archiveId uri hjs
    have hpre := h.retrievable js ((List.prefix_append js _).trans hjs)
    have hpost := h.retrievable _ hjs
    rw [after_snoc] at hpost
    exact (retrievable_perform_setRetrievalUri hpre).mp hpost
  · intro h
    refine ⟨?_, ?_, ?_, fun js hjs => h.retrievable hjs⟩
    · exact fun js _ => (numbered_after js).ids_eq
    · intro js ids time label uri _ e manager hrun
      rw [run_archiveInPlace] at hrun
      cases harchive : archive sha256 (after sha256 js) ids time label uri with
      | ok result =>
        rw [harchive] at hrun
        cases hrun
      | error e' =>
        rw [harchive] at hrun
        exact (Prod.mk.inj hrun).2.symm
    · exact fun js ks hjs _ => metadata_prefix_after hjs

end Runs

/-- A URI without a scheme is refused with the archive but not afterwards. -/
theorem malformed_uri_stored : ¬ ∀ (sha256 : Bytes → BytesN 32) (calls : List Call),
    KeepsArchives sha256 calls := by
  intro h
  let sha256 : Bytes → BytesN 32 := fun _ => BytesN.fill 32 0
  let made : Call := .archive ["txn-001".toList] 0 "2025-Q1".toList none
  let set : Call := .setRetrievalUri 0 "archive".toList
  have harchives : (after sha256 [made, set]).archives =
      [⟨0, 0, 1, BytesN.fill 32 0, "2025-Q1".toList, some "archive".toList⟩] := rfl
  obtain ⟨v, hv⟩ := (h sha256 [made, set]).retrievable _ List.prefix_rfl _
    (harchives ▸ List.mem_singleton_self _) "archive".toList rfl
  have hrefused : normalizeUrl "archive".toList = .error .invalidEndpointFormat := rfl
  rw [hrefused] at hv
  cases hv

end TransactionArchiveManager

end AnchorKit
