import AnchorKit.Library.JsonQuoting
import AnchorKit.Library.OrderedMap
import AnchorKit.Library.Text
import AnchorKit.Library.Word
import Mathlib.Data.List.MinMax

/-!
# Deduplication and suppression of alerts

An alert is withheld while its fingerprint is suppressed, or shortly after it was delivered. The
deduplicator knows a limited number of fingerprints and forgets the one that was delivered first.
-/

namespace AnchorKit

def escapeLogChar (c : Char) : Text :=
  if c = '"' then ['\\', '"']
  else if c = '\\' then ['\\', '\\']
  else if c = '\n' then ['\\', 'n']
  else if c = '\r' then ['\\', 'r']
  else if c = '\t' then ['\\', 't']
  else if c.toNat < 0x20 then
    ['\\', 'u', '0', '0', JsonQuoting.hexDigit (c.toNat / 16), JsonQuoting.hexDigit (c.toNat % 16)]
  else [c]

def writeJsonString (out s : Text) : Text := out ++ '"' :: s.flatMap escapeLogChar ++ ['"']

structure DedupConfig where
  windowSeconds : UInt64
  maxKeys : ℕ
deriving DecidableEq, Repr

/-- For each fingerprint the time of the last delivery and the number of alerts withheld since. -/
structure AlertDeduplicator where
  config : DedupConfig
  lastFired : Std.TreeMap Text (UInt64 × UInt64)
  suppressionLog : List Text

namespace AlertDeduplicator

def new (config : DedupConfig) : AlertDeduplicator := ⟨config, ∅, []⟩

def pushSuppressionDiagnostic (dedup : AlertDeduplicator) (fingerprint : Text) :
    AlertDeduplicator :=
  let diagnostic := writeJsonString "\x7b\"alert_key\":".toList fingerprint ++ ['\x7d']
  let log :=
    if 0 < dedup.config.maxKeys ∧ dedup.config.maxKeys ≤ dedup.suppressionLog.length then
      let overflow := dedup.suppressionLog.length - dedup.config.maxKeys + 1
      dedup.suppressionLog.drop overflow
    else dedup.suppressionLog
  { dedup with suppressionLog := log ++ [diagnostic] }

/-- The entry with the least time, the first of them in the order of the fingerprints. -/
def leastRecentlyFired (dedup : AlertDeduplicator) : Option (Text × UInt64 × UInt64) :=
  dedup.lastFired.toList.argmin fun e => e.2.1.toNat

def makeRoom (dedup : AlertDeduplicator) : AlertDeduplicator :=
  if 0 < dedup.config.maxKeys ∧ dedup.config.maxKeys ≤ dedup.lastFired.size then
    match dedup.leastRecentlyFired with
    | some e => { dedup with lastFired := dedup.lastFired.erase e.1 }
    | none => dedup
  else dedup

def shouldFire (dedup : AlertDeduplicator) (fingerprint : Text) (now : UInt64) :
    Bool × AlertDeduplicator :=
  if dedup.config.windowSeconds = 0 then (true, dedup)
  else
    match dedup.lastFired[fingerprint]? with
    | some (firedAt, count) =>
      if Word.saturatingSub64 now firedAt < dedup.config.windowSeconds then
        let lastFired := dedup.lastFired.insert fingerprint (firedAt, Word.saturatingAdd64 count 1)
        (false, { dedup with lastFired }.pushSuppressionDiagnostic fingerprint)
      else (true, { dedup with lastFired := dedup.lastFired.insert fingerprint (now, 0) })
    | none =>
      let dedup := dedup.makeRoom
      (true, { dedup with lastFired := dedup.lastFired.insert fingerprint (now, 0) })

def lastFiredAt (dedup : AlertDeduplicator) (fingerprint : Text) : Option UInt64 :=
  dedup.lastFired[fingerprint]?.map Prod.fst

end AlertDeduplicator

structure SuppressedEntry where
  fingerprint : Text
  expiresAt : UInt64
  reason : Text
deriving DecidableEq, Repr

structure AlertSuppressor where
  entries : Std.TreeMap Text SuppressedEntry

namespace AlertSuppressor

def new : AlertSuppressor := ⟨∅⟩

def suppress (suppressor : AlertSuppressor) (fingerprint : Text) (now expiresAt : UInt64)
    (reason : Text) : AlertSuppressor :=
  if expiresAt ≤ now then suppressor
  else ⟨suppressor.entries.insert fingerprint { fingerprint, expiresAt, reason }⟩

/-- An expired entry goes when it is met. -/
def isSuppressed (suppressor : AlertSuppressor) (fingerprint : Text) (now : UInt64) :
    Bool × AlertSuppressor :=
  match suppressor.entries[fingerprint]? with
  | none => (false, suppressor)
  | some entry =>
    if entry.expiresAt ≤ now then (false, ⟨suppressor.entries.erase entry.fingerprint⟩)
    else (true, suppressor)

def unsuppress (suppressor : AlertSuppressor) (fingerprint : Text) : AlertSuppressor :=
  ⟨suppressor.entries.erase fingerprint⟩

def purgeExpired (suppressor : AlertSuppressor) (now : UInt64) : AlertSuppressor :=
  ⟨suppressor.entries.filter fun _ e => now < e.expiresAt⟩

end AlertSuppressor

structure AlertFilter where
  dedup : AlertDeduplicator
  suppressor : AlertSuppressor

namespace AlertFilter

def new (dedupConfig : DedupConfig) : AlertFilter := ⟨.new dedupConfig, .new⟩

def shouldDeliver (filter : AlertFilter) (fingerprint : Text) (now : UInt64) : Bool × AlertFilter :=
  match filter.suppressor.isSuppressed fingerprint now with
  | (true, suppressor) => (false, { filter with suppressor })
  | (false, suppressor) =>
    let (fires, dedup) := filter.dedup.shouldFire fingerprint now
    (fires, { dedup, suppressor })

end AlertFilter

/-! ### The deduplicator -/

namespace AlertDeduplicator

variable {dedup : AlertDeduplicator} {fingerprint k : Text} {now : UInt64} {e : UInt64 × UInt64}

theorem length_pushSuppressionDiagnostic_le (hmax : 0 < dedup.config.maxKeys)
    (h : dedup.suppressionLog.length ≤ dedup.config.maxKeys) :
    (dedup.pushSuppressionDiagnostic fingerprint).suppressionLog.length ≤ dedup.config.maxKeys := by
  unfold pushSuppressionDiagnostic
  dsimp only
  rw [List.length_append, List.length_singleton]
  split
  · rw [List.length_drop]
    omega
  · rename_i hroom
    omega

theorem leastRecentlyFired_mem {e : Text × UInt64 × UInt64}
    (h : dedup.leastRecentlyFired = some e) :
    dedup.lastFired[e.1]? = some e.2 :=
  Std.TreeMap.mem_toList_iff_getElem?_eq_some.mp (List.argmin_mem h)

theorem leastRecentlyFired_le {e : Text × UInt64 × UInt64}
    (h : dedup.leastRecentlyFired = some e) {e' : UInt64 × UInt64}
    (hget : dedup.lastFired[k]? = some e') : e.2.1 ≤ e'.1 := by
  have hmem : (k, e') ∈ dedup.lastFired.toList :=
    Std.TreeMap.mem_toList_iff_getElem?_eq_some.mpr hget
  exact UInt64.le_iff_toNat_le.mpr
    (List.le_of_mem_argmin (f := fun e : Text × UInt64 × UInt64 => e.2.1.toNat) hmem h)

theorem getElem?_makeRoom : dedup.makeRoom.lastFired[k]? =
    if (0 < dedup.config.maxKeys ∧ dedup.config.maxKeys ≤ dedup.lastFired.size) ∧
      dedup.leastRecentlyFired.map Prod.fst = some k then none
    else dedup.lastFired[k]? := by
  unfold makeRoom
  by_cases hfull : 0 < dedup.config.maxKeys ∧ dedup.config.maxKeys ≤ dedup.lastFired.size
  · simp only [if_pos hfull, and_iff_right hfull]
    cases hleast : dedup.leastRecentlyFired with
    | none => simp
    | some e =>
      simp only [Option.map_some, Option.some.injEq, OrderedMap.getElem?_erase]
  · rw [if_neg hfull, if_neg fun h => hfull h.1]

theorem size_makeRoom_lt (hmax : 0 < dedup.config.maxKeys)
    (hsize : dedup.lastFired.size ≤ dedup.config.maxKeys) :
    dedup.makeRoom.lastFired.size < dedup.config.maxKeys := by
  unfold makeRoom
  split
  · rename_i hfull
    cases hleast : dedup.leastRecentlyFired with
    | none =>
      have hnil := List.argmin_eq_none.mp hleast
      have hempty : dedup.lastFired.size = 0 := by
        rw [← Std.TreeMap.length_toList, hnil]
        rfl
      omega
    | some e =>
      have hmem : e.1 ∈ dedup.lastFired := by
        rw [Std.TreeMap.mem_iff_isSome_getElem?, leastRecentlyFired_mem hleast]
        rfl
      dsimp only
      rw [Std.TreeMap.size_erase, if_pos (Std.TreeMap.contains_iff_mem.mpr hmem)]
      omega
  · omega

theorem makeRoom_of_maxKeys (h : dedup.config.maxKeys = 0) : dedup.makeRoom = dedup := by
  unfold makeRoom
  rw [if_neg (by omega)]

@[simp] theorem makeRoom_config : dedup.makeRoom.config = dedup.config := by
  unfold makeRoom
  split
  · split
    · rfl
    · rfl
  · rfl

@[simp] theorem makeRoom_suppressionLog : dedup.makeRoom.suppressionLog = dedup.suppressionLog := by
  unfold makeRoom
  split
  · split
    · rfl
    · rfl
  · rfl

/-- What is left of the tracked fingerprints when one of them, or a new one, is delivered. -/
def roomFor (dedup : AlertDeduplicator) (fingerprint : Text) :
    Std.TreeMap Text (UInt64 × UInt64) :=
  if fingerprint ∈ dedup.lastFired then dedup.lastFired else dedup.makeRoom.lastFired

theorem roomFor_sub (h : (dedup.roomFor fingerprint)[k]? = some e) :
    dedup.lastFired[k]? = some e := by
  unfold roomFor at h
  split at h
  · exact h
  · rw [getElem?_makeRoom] at h
    split at h
    · cases h
    · exact h

theorem oldest_of_roomFor (hpre : dedup.lastFired[k]? = some e)
    (hroom : (dedup.roomFor fingerprint)[k]? = none) {k' : Text} {e' : UInt64 × UInt64}
    (h : dedup.lastFired[k']? = some e') : 0 < dedup.config.maxKeys ∧ e.1 ≤ e'.1 := by
  unfold roomFor at hroom
  split at hroom
  · rw [hpre] at hroom
    cases hroom
  · rw [getElem?_makeRoom] at hroom
    split at hroom
    · rename_i hgone
      obtain ⟨⟨hmax, _⟩, hleast⟩ := hgone
      obtain ⟨least, hfirst, rfl⟩ := Option.map_eq_some_iff.mp hleast
      rw [leastRecentlyFired_mem hfirst] at hpre
      obtain rfl := Option.some.inj hpre
      exact ⟨hmax, leastRecentlyFired_le hfirst h⟩
    · rw [hpre] at hroom
      cases hroom

theorem size_insert_roomFor_le (hmax : 0 < dedup.config.maxKeys)
    (hsize : dedup.lastFired.size ≤ dedup.config.maxKeys) :
    ((dedup.roomFor fingerprint).insert fingerprint e).size ≤ dedup.config.maxKeys := by
  unfold roomFor
  split
  · rename_i htracked
    rw [Std.TreeMap.size_insert, if_pos (Std.TreeMap.contains_iff_mem.mpr htracked)]
    exact hsize
  · exact Std.TreeMap.size_insert_le.trans (size_makeRoom_lt hmax hsize)

/-- Everything `should_fire` can do. -/
theorem shouldFire_cases (dedup : AlertDeduplicator) (fingerprint : Text) (now : UInt64) :
    (dedup.config.windowSeconds = 0 ∧ dedup.shouldFire fingerprint now = (true, dedup)) ∨
    (∃ firedAt count suppressionLog, dedup.lastFired[fingerprint]? = some (firedAt, count) ∧
      now.toNat - firedAt.toNat < dedup.config.windowSeconds.toNat ∧
      dedup.shouldFire fingerprint now = (false, { dedup with
        lastFired := dedup.lastFired.insert fingerprint (firedAt, Word.saturatingAdd64 count 1)
        suppressionLog })) ∨
    dedup.config.windowSeconds ≠ 0 ∧
      (∀ e, dedup.lastFired[fingerprint]? = some e →
        dedup.config.windowSeconds.toNat ≤ now.toNat - e.1.toNat) ∧
      dedup.shouldFire fingerprint now = (true, { dedup with
        lastFired := (dedup.roomFor fingerprint).insert fingerprint (now, 0) }) := by
  unfold shouldFire
  by_cases hwindow : dedup.config.windowSeconds = 0
  · exact Or.inl ⟨hwindow, if_pos hwindow⟩
  rw [if_neg hwindow]
  right
  cases hget : dedup.lastFired[fingerprint]? with
  | none =>
    have hnew : ¬ fingerprint ∈ dedup.lastFired := by
      rw [Std.TreeMap.mem_iff_isSome_getElem?, hget]
      simp
    have hroom : dedup.roomFor fingerprint = dedup.makeRoom.lastFired := if_neg hnew
    refine Or.inr ⟨hwindow, by simp, ?_⟩
    simp only [hroom, makeRoom_config, makeRoom_suppressionLog]
  | some e =>
    obtain ⟨firedAt, count⟩ := e
    have htracked : fingerprint ∈ dedup.lastFired := by
      rw [Std.TreeMap.mem_iff_isSome_getElem?, hget]
      rfl
    dsimp only
    by_cases hrecent : Word.saturatingSub64 now firedAt < dedup.config.windowSeconds
    · rw [if_pos hrecent]
      rw [UInt64.lt_iff_toNat_lt, Word.toNat_saturatingSub64] at hrecent
      exact Or.inl ⟨firedAt, count, _, rfl, hrecent, rfl⟩
    · rw [if_neg hrecent]
      rw [UInt64.lt_iff_toNat_lt, Word.toNat_saturatingSub64, not_lt] at hrecent
      refine Or.inr ⟨hwindow, ?_, ?_⟩
      · rintro _ ⟨⟩
        exact hrecent
      · rw [roomFor, if_pos htracked]

/-- An alert is held back while its last delivery is remembered and within the window. -/
theorem shouldFire_eq_false_iff : (dedup.shouldFire fingerprint now).1 = false ↔
    ∃ t₀, dedup.lastFiredAt fingerprint = some t₀ ∧
      now.toNat - t₀.toNat < dedup.config.windowSeconds.toNat := by
  constructor
  · intro hheld
    rcases dedup.shouldFire_cases fingerprint now with
      ⟨_, hresult⟩ | ⟨firedAt, count, _, hget, hrecent, _⟩ | ⟨_, _, hresult⟩
    · rw [hresult] at hheld
      cases hheld
    · refine ⟨firedAt, ?_, hrecent⟩
      rw [lastFiredAt, hget]
      rfl
    · rw [hresult] at hheld
      cases hheld
  · rintro ⟨t₀, hlast, hrecent⟩
    obtain ⟨e, hget, rfl⟩ := Option.map_eq_some_iff.mp hlast
    rcases dedup.shouldFire_cases fingerprint now with
      ⟨hzero, _⟩ | ⟨_, _, _, _, _, hresult⟩ | ⟨_, hlate, _⟩
    · rw [hzero] at hrecent
      exact absurd hrecent (Nat.not_lt_zero _)
    · rw [hresult]
    · have hwait := hlate e hget
      omega

end AlertDeduplicator

end AnchorKit
