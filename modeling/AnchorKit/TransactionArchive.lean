import AnchorKit.Library.SelfDelimiting
import AnchorKit.SignatureVerifiers
import AnchorKit.UrlNormalizer

/-!
# Archived transaction histories

An archive is an envelope with a commitment to the ids of the archived transactions: a hash of the
ids, each followed by a line feed. The archive refuses blank ids but not line feeds in them, so what
it commits to are the lines of the ids.
-/

namespace AnchorKit

open Fallible

structure TransactionArchive where
  archiveId : UInt64
  archivedAt : UInt64
  recordCount : UInt32
  commitment : BytesN 32
  label : Text
  retrievalUri : Option Text

structure TransactionArchiveManager where
  archives : List TransactionArchive
  nextId : UInt64

namespace TransactionArchiveManager

section Operations

variable (sha256 : Bytes → BytesN 32)

def commitmentInput (transactionIds : List Text) : Bytes :=
  transactionIds.flatMap fun id => id.utf8 ++ [0x0a]

def computeArchiveCommitment (transactionIds : List Text) : BytesN 32 :=
  sha256 (commitmentInput transactionIds)

def verifyArchiveCommitment (stored : BytesN 32) (transactionIds : List Text) : Bool :=
  let expected := computeArchiveCommitment sha256 transactionIds
  xorFold stored.val expected.val = 0

def checkBatchLen (len : ℕ) : Except AnchorKitError UInt32 := do
  require (len < 2 ^ 32) (.validationError "transaction_ids length exceeds u32::MAX")
  return UInt32.ofNat len

def new : TransactionArchiveManager := ⟨[], 0⟩

def isBlank (t : Text) : Bool := Text.trimMatches isWhitespace t = []

def checkRetrievalUri (retrievalUri : Option Text) : Except AnchorKitError Unit :=
  match retrievalUri with
  | none => .ok ()
  | some uri =>
    match normalizeUrl uri with
    | .ok _ => .ok ()
    | .error _ => .error (.validationError "retrieval_uri: invalid URL shape")

def archive (manager : TransactionArchiveManager) (transactionIds : List Text)
    (archivedAt : UInt64) (label : Text) (retrievalUri : Option Text) :
    Except AnchorKitError (TransactionArchive × TransactionArchiveManager) := do
  require (transactionIds ≠ []) (.validationError "transaction_ids must not be empty")
  require (transactionIds.any isBlank = false)
    (.validationError "transaction_ids must not contain blank IDs")
  require (isBlank label = false) (.validationError "label must not be blank")
  checkRetrievalUri retrievalUri
  let nextNextId ← expect (Word.checkedAdd64 manager.nextId 1) (.fromCode .archiveCapacityExceeded)
  let recordCount ← checkBatchLen transactionIds.length
  let commitment := computeArchiveCommitment sha256 transactionIds
  let archive : TransactionArchive :=
    { archiveId := manager.nextId, archivedAt, recordCount, commitment, label, retrievalUri }
  return (archive, { archives := manager.archives ++ [archive], nextId := nextNextId })

def Accepts (transactionIds : List Text) : Prop :=
  ∃ manager archivedAt label retrievalUri,
    Succeeds (archive sha256 manager transactionIds archivedAt label retrievalUri)

variable {sha256}

/-- Which batches are taken does not depend on what is inside an id that is not blank. -/
theorem accepts_iff {transactionIds : List Text} :
    Accepts sha256 transactionIds ↔
      transactionIds ≠ [] ∧ (∀ id ∈ transactionIds, isBlank id = false) ∧
        transactionIds.length < 2 ^ 32 := by
  constructor
  · rintro ⟨manager, archivedAt, label, retrievalUri, _, h⟩
    simp only [archive, require_bind_eq_ok] at h
    obtain ⟨hne, hblank, _, h⟩ := h
    obtain ⟨_, _, h⟩ := bind_eq_ok.mp h
    obtain ⟨_, _, h⟩ := expect_bind_eq_ok.mp h
    obtain ⟨_, hlen, _⟩ := bind_eq_ok.mp h
    simp only [checkBatchLen, require_bind_eq_ok] at hlen
    exact ⟨hne, by simpa using hblank, hlen.1⟩
  · rintro ⟨hne, hblank, hlen⟩
    have hany : transactionIds.any isBlank = false := by simpa using hblank
    refine ⟨new, 0, ['q'], none, ?_⟩
    have hcheck : checkBatchLen transactionIds.length = .ok (UInt32.ofNat transactionIds.length) := by
      simp only [checkBatchLen, require_bind_eq_ok]
      exact ⟨hlen, rfl⟩
    simp only [archive, succeeds_require_bind]
    refine ⟨hne, hany, by decide, ?_⟩
    refine succeeds_bind.mpr ⟨(), rfl, succeeds_bind.mpr ⟨1, rfl, ?_⟩⟩
    exact succeeds_bind.mpr ⟨_, hcheck, succeeds_pure _⟩

/-! ### The lines of a batch -/

def lines (transactionIds : List Text) : List Text := transactionIds.flatMap (List.splitOn '\n')

theorem flatMap_splitOn (t : Text) :
    (t.splitOn '\n').flatMap (fun line : Text => line.utf8 ++ [0x0a]) = t.utf8 ++ [0x0a] := by
  induction t with
  | nil => rfl
  | cons c t ih =>
    obtain ⟨first, others, hparts⟩ := List.exists_cons_of_ne_nil (List.splitOn_ne_nil '\n' t)
    rw [hparts, List.flatMap_cons] at ih
    rw [List.splitOn_cons_eq_if_modifyHead, hparts]
    by_cases hc : c = '\n'
    · rw [if_pos (beq_iff_eq.mpr hc), List.flatMap_cons, List.flatMap_cons, ih, hc]
      rfl
    · rw [if_neg (by simpa using hc), List.modifyHead_cons, List.flatMap_cons, Text.utf8_cons,
        Text.utf8_cons, List.append_assoc, List.append_assoc, ← List.append_assoc (Text.utf8 first),
        ih, List.append_assoc]

theorem commitmentInput_lines (transactionIds : List Text) :
    commitmentInput (lines transactionIds) = commitmentInput transactionIds := by
  simp only [commitmentInput, lines, List.flatMap_assoc, flatMap_splitOn]

theorem not_mem_of_mem_lines {transactionIds : List Text} {line : Text}
    (h : line ∈ lines transactionIds) : '\n' ∉ line := by
  obtain ⟨_, _, hline⟩ := List.mem_flatMap.mp h
  exact Text.not_mem_of_mem_splitOn hline

/-- A batch is hashed by its lines. -/
theorem commitmentInput_eq_iff {l m : List Text} :
    commitmentInput l = commitmentInput m ↔ lines l = lines m := by
  constructor
  · intro h
    have hline : SelfDelimiting {t : Text | '\n' ∉ t} fun t => t.utf8 ++ [0x0a] := by
      apply SelfDelimiting.terminated
      · intro t ht hmem
        exact ht ((Text.mem_utf8_iff (c := '\n') (by decide)).mp hmem)
      · intro s _ t _ hst
        exact Text.utf8_injective hst
    rw [← commitmentInput_lines l, ← commitmentInput_lines m] at h
    exact hline.list (by simp) (fun _ => not_mem_of_mem_lines) (fun _ => not_mem_of_mem_lines) h
  · intro h
    rw [← commitmentInput_lines l, h, commitmentInput_lines]

theorem lines_of_not_mem {transactionIds : List Text} (h : ∀ id ∈ transactionIds, '\n' ∉ id) :
    lines transactionIds = transactionIds := by
  have hline : transactionIds.map (List.splitOn '\n') = transactionIds.map fun id => [id] :=
    List.map_congr_left fun id hid => List.splitOn_eq_singleton (h id hid)
  rw [lines, List.flatMap_def, hline, ← List.flatMap_def, List.flatMap_singleton']

theorem verify_iff {stored : BytesN 32} {transactionIds : List Text} :
    verifyArchiveCommitment sha256 stored transactionIds = true ↔
      stored = computeArchiveCommitment sha256 transactionIds := by
  rw [verifyArchiveCommitment, decide_eq_true_iff,
    xorFold_eq_zero (stored.2.trans (computeArchiveCommitment sha256 transactionIds).2.symm)]
  exact Subtype.ext_iff.symm

/-- A hash that tells the inputs of two batches apart tells their lines apart. -/
theorem verify_compute_iff {l m : List Text}
    (hcollisionFree : Set.InjOn sha256 {commitmentInput l, commitmentInput m}) :
    verifyArchiveCommitment sha256 (computeArchiveCommitment sha256 l) m = true ↔
      lines l = lines m := by
  rw [verify_iff, ← commitmentInput_eq_iff]
  exact hcollisionFree.eq_iff (by simp) (by simp)

/-- Ids without line feeds are committed to as they stand. -/
theorem verify_compute_of_not_mem {l m : List Text}
    (hcollisionFree : Set.InjOn sha256 {commitmentInput l, commitmentInput m})
    (hl : ∀ id ∈ l, '\n' ∉ id) (hm : ∀ id ∈ m, '\n' ∉ id) :
    verifyArchiveCommitment sha256 (computeArchiveCommitment sha256 l) m = true ↔ l = m := by
  rw [verify_compute_iff hcollisionFree, lines_of_not_mem hl, lines_of_not_mem hm]

/-- A commitment verifies no other batch exactly where no other batch has the same lines. -/
theorem verifies_only_itself_iff (l m : List Text)
    (hcollisionFree : Set.InjOn sha256 {commitmentInput l, commitmentInput m}) :
    (verifyArchiveCommitment sha256 (computeArchiveCommitment sha256 l) m = true ↔ l = m) ↔
      l = m ∨ lines l ≠ lines m := by
  rw [verify_compute_iff hcollisionFree]
  constructor
  · intro h
    rw [← h, or_iff_not_imp_right, not_not]
    exact id
  · rintro (rfl | hne)
    · exact iff_of_true rfl rfl
    · refine iff_of_false hne ?_
      rintro rfl
      exact hne rfl

end Operations

/-- The digests of two batches, as the hasher computes them. -/
def digestOf (bytes : Bytes) : BytesN 32 :=
  if bytes = commitmentInput ["txn-001".toList] then
    ⟨[42, 138, 234, 200, 162, 151, 96, 24, 212, 122, 196, 20, 30, 119, 17, 102, 67, 177, 228, 67,
      30, 122, 81, 55, 45, 100, 98, 189, 112, 121, 112, 211], rfl⟩
  else
    ⟨[45, 246, 87, 150, 16, 166, 3, 79, 68, 137, 100, 186, 85, 15, 63, 11, 243, 186, 129, 244, 220,
      184, 239, 197, 50, 49, 228, 87, 255, 51, 111, 28], rfl⟩

theorem verifies_only_itself_one_id :
    (verifyArchiveCommitment digestOf (computeArchiveCommitment digestOf ["txn-001".toList])
        ["txn-002".toList] = true ↔ ["txn-001".toList] = ["txn-002".toList]) ↔
      ["txn-001".toList] = ["txn-002".toList] ∨
        lines ["txn-001".toList] ≠ lines ["txn-002".toList] :=
  verifies_only_itself_iff _ _ (Set.injOn_pair.mpr fun h => absurd h (by decide))

/-- One id of two lines passes for two ids of one line. -/
theorem line_feed_verifies_other_batch :
    ¬ ∀ (sha256 : Bytes → BytesN 32) (l m : List Text), Accepts sha256 l → Accepts sha256 m →
      Set.InjOn sha256 {commitmentInput l, commitmentInput m} →
        (verifyArchiveCommitment sha256 (computeArchiveCommitment sha256 l) m = true ↔ l = m) := by
  intro h
  have hsame : commitmentInput ["a\nb".toList] = commitmentInput ["a".toList, "b".toList] := by decide
  have hinj : Set.InjOn digestOf
      {commitmentInput ["a\nb".toList], commitmentInput ["a".toList, "b".toList]} :=
    Set.injOn_pair.mpr fun _ => hsame
  have hverify := (h digestOf ["a\nb".toList] ["a".toList, "b".toList]
    (accepts_iff.mpr (by decide)) (accepts_iff.mpr (by decide)) hinj).mp
    (verify_iff.mpr (congrArg digestOf hsame))
  exact absurd hverify (by decide)

end TransactionArchiveManager

end AnchorKit
