import AnchorKit.Library.Text
import AnchorKit.Types
import Mathlib.Data.List.Chain

/-!
# Compaction of transaction histories

A history in the order of its timestamps is reduced to one summary for each window of time. The
rates of the aggregate are quotients of floats; in their place stand the counts they divide.
-/

namespace AnchorKit

namespace TransactionCompaction

structure CompactionConfig where
  windowSeconds : UInt64
  retainBoundaryIds : Bool
deriving DecidableEq, Repr

def CompactionConfig.default : CompactionConfig := ⟨3600, true⟩

structure RawTransactionRecord where
  id : Text
  timestamp : UInt64
  status : Text
  amount : UInt64
deriving DecidableEq, Repr

structure TransactionSummaryRecord where
  windowStart : UInt64
  windowEnd : UInt64
  totalCount : UInt32
  completedCount : UInt32
  pendingCount : UInt32
  errorCount : UInt32
  totalVolume : UInt64
  maxAmount : UInt64
  minAmount : UInt64
  avgAmount : UInt64
  firstId : Option Text
  lastId : Option Text
deriving DecidableEq, Repr

structure CompactionAggregate where
  totalCount : UInt64
  totalVolume : UInt64
  completedCount : UInt64
  errorCount : UInt64
  earliestTimestamp : UInt64
  latestTimestamp : UInt64
  windowCount : ℕ
deriving DecidableEq, Repr

structure CompactionResult where
  windows : List TransactionSummaryRecord
  aggregate : CompactionAggregate
deriving DecidableEq, Repr

def isCompleted (status : Text) : Bool :=
  let s := status.asciiLower
  s = "completed".toList || s = "complete".toList

def isPending (status : Text) : Bool :=
  let s := status.asciiLower
  s = "pending".toList || "pending_".toList.isPrefixOf s

def isError (status : Text) : Bool :=
  let s := status.asciiLower
  s = "error".toList || s = "failed".toList || s = "failure".toList

def classifyStatus (status : Text) : Bool × Bool × Bool :=
  (isCompleted status, isPending status, isError status)

/-- What is kept of the records of the window being built. -/
structure Scratch where
  totalCount : UInt32
  completedCount : UInt32
  pendingCount : UInt32
  errorCount : UInt32
  totalVolume : UInt64
  maxAmount : UInt64
  minAmount : UInt64
  firstId : Option Text
  lastId : Option Text
deriving DecidableEq, Repr

namespace Scratch

def empty : Scratch := ⟨0, 0, 0, 0, 0, 0, UInt64.ofNat (2 ^ 64 - 1), none, none⟩

def add (retain : Bool) (s : Scratch) (rec : RawTransactionRecord) : Scratch :=
  let (completed, pending, error) := classifyStatus rec.status
  { totalCount := Word.saturatingAdd32 s.totalCount 1
    completedCount :=
      if completed then Word.saturatingAdd32 s.completedCount 1 else s.completedCount
    pendingCount := if pending then Word.saturatingAdd32 s.pendingCount 1 else s.pendingCount
    errorCount := if error then Word.saturatingAdd32 s.errorCount 1 else s.errorCount
    totalVolume := Word.saturatingAdd64 s.totalVolume rec.amount
    maxAmount := if s.maxAmount < rec.amount then rec.amount else s.maxAmount
    minAmount := if rec.amount < s.minAmount then rec.amount else s.minAmount
    firstId := if retain then (if s.firstId.isNone then some rec.id else s.firstId) else s.firstId
    lastId := if retain then some rec.id else s.lastId }

def flush (retain : Bool) (windowStart windowEnd : UInt64) (s : Scratch) :
    TransactionSummaryRecord where
  windowStart
  windowEnd
  totalCount := s.totalCount
  completedCount := s.completedCount
  pendingCount := s.pendingCount
  errorCount := s.errorCount
  totalVolume := s.totalVolume
  maxAmount := s.maxAmount
  minAmount := if 0 < s.totalCount then s.minAmount else 0
  avgAmount := if 0 < s.totalCount then s.totalVolume / s.totalCount.toUInt64 else 0
  firstId := if retain then s.firstId else none
  lastId := if retain then s.lastId else none

end Scratch

/-- The loop over the records: the finished windows, the bounds of the current one and its scratch
state. -/
structure Progress where
  windows : List TransactionSummaryRecord
  currentWindowStart : UInt64
  currentWindowEnd : UInt64
  scratch : Scratch
deriving DecidableEq, Repr

namespace Progress

def flushed (retain : Bool) (p : Progress) : List TransactionSummaryRecord :=
  if 0 < p.scratch.totalCount then
    p.windows ++ [p.scratch.flush retain p.currentWindowStart p.currentWindowEnd]
  else p.windows

/-- A window size that passed the check. -/
abbrev WindowSize : Type := { ws : UInt64 // ws ≠ 0 }

variable (ws : WindowSize) (retain : Bool)

def advance (timestamp : UInt64) (p : Progress) : Except AnchorKitError Progress :=
  if timestamp < p.currentWindowEnd then .ok p
  else
    match _hadd : Word.checkedAdd64 p.currentWindowEnd ws with
    | none => .error (.validationError "timestamp window overflows u64")
    | some windowEnd => advance timestamp ⟨p.flushed retain, p.currentWindowEnd, windowEnd, .empty⟩
termination_by 2 ^ 64 - p.currentWindowEnd.toNat
decreasing_by
  have hadd := Word.checkedAdd64_eq_some.mp _hadd
  have hpos : ws.val.toNat ≠ 0 := fun hzero => ws.property (UInt64.toNat_inj.mp hzero)
  have hlt := p.currentWindowEnd.toNat_lt
  change 2 ^ 64 - windowEnd.toNat < _
  omega

def addRecord (p : Progress) (rec : RawTransactionRecord) : Except AnchorKitError Progress := do
  let p ← p.advance ws retain rec.timestamp
  return { p with scratch := p.scratch.add retain rec }

def start (firstTs : UInt64) : Except AnchorKitError Progress := do
  let windowStart := firstTs / ws * ws
  let windowEnd ← Fallible.expect (Word.checkedAdd64 windowStart ws)
    (.validationError "timestamp window overflows u64")
  return ⟨[], windowStart, windowEnd, .empty⟩

def walk (firstTs : UInt64) (records : List RawTransactionRecord) :
    Except AnchorKitError Progress := do
  let p ← start ws firstTs
  records.foldlM (addRecord ws retain) p

end Progress

/-- The sum of an iterator, which aborts when it overflows. -/
def sum64 (l : List UInt64) : Except Panic UInt64 := l.foldlM add64 0

def aggregateOf (records : List RawTransactionRecord) (windows : List TransactionSummaryRecord) :
    Except Panic CompactionAggregate := do
  let totalCount ← sum64 (windows.map fun w => w.totalCount.toUInt64)
  let completedCount ← sum64 (windows.map fun w => w.completedCount.toUInt64)
  let errorCount ← sum64 (windows.map fun w => w.errorCount.toUInt64)
  let totalVolume ← sum64 (windows.map TransactionSummaryRecord.totalVolume)
  return {
    totalCount, totalVolume, completedCount, errorCount
    earliestTimestamp := (records.head?.map RawTransactionRecord.timestamp).getD 0
    latestTimestamp := (records.getLast?.map RawTransactionRecord.timestamp).getD 0
    windowCount := windows.length }

def compactHistory (records : List RawTransactionRecord) (config : CompactionConfig) :
    Except Panic (Except AnchorKitError CompactionResult) :=
  if hws : config.windowSeconds = 0 then
    .ok (.error (.validationError "window_seconds must be greater than zero"))
  else if ¬ records.IsChain fun prev rec => prev.timestamp ≤ rec.timestamp then
    .ok (.error (.validationError "records must be in ascending timestamp order"))
  else
    match records with
    | [] => .ok (.ok ⟨[], ⟨0, 0, 0, 0, 0, 0, 0⟩⟩)
    | first :: _ =>
      match Progress.walk ⟨config.windowSeconds, hws⟩ config.retainBoundaryIds first.timestamp
        records with
      | .error e => .ok (.error e)
      | .ok p => do
        let windows := p.flushed config.retainBoundaryIds
        let aggregate ← aggregateOf records windows
        return .ok ⟨windows, aggregate⟩

end TransactionCompaction

end AnchorKit
