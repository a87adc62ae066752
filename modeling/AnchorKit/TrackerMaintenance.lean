import AnchorKit.TrackerEffects
import AnchorKit.Library.Machine

/-!
# Maintenance of the tracker

Calls that go over all records at once: emptying the cache, dropping what has expired, and sweeping
recovery metadata. In production mode the ledger takes expired records away, and the cleanup takes
their ids off the list; in development mode expired ids are given and the cleanup does both.
-/

namespace AnchorKit

open Fallible Machine

namespace TransactionStateTracker

def clearCache (t : TransactionStateTracker) : Except String Unit × TransactionStateTracker :=
  if t.isDevMode then (.ok (), { t with cache := [] })
  else (.error "Cannot clear cache in production mode", t)

/-- The loop of the sweep, with the number of records processed so far. -/
def sweepIds (env : Env) (policy : RecoveryRetentionPolicy) (archive : Bool) :
    List UInt64 → UInt32 → TransactionStateTracker →
      Except Panic (UInt32 × TransactionStateTracker)
  | [], processed, t => .ok (processed, t)
  | id :: ids, processed, t =>
    let (didProcess, t) :=
      if archive then t.archiveRecoveryMetadata env id policy
      else t.pruneRecoveryMetadata env id policy
    if didProcess then
      match Word.checkedAdd32 processed 1 with
      | none => .error .arithmeticOverflow
      | some processed => sweepIds env policy archive ids processed t
    else sweepIds env policy archive ids processed t

def sweepRecoveryMetadata (env : Env) (t : TransactionStateTracker)
    (policy : RecoveryRetentionPolicy) (archive : Bool) :
    Except Panic (UInt32 × TransactionStateTracker) :=
  sweepIds env policy archive (if t.isDevMode then t.knownIds else t.txids) 0 t

section Sweep

variable {host : Host} {decode : String → Except String ImportedRecovery} {env : Env}
  {policy : RecoveryRetentionPolicy} {archive : Bool} {processed : UInt32}
  {t t' : TransactionStateTracker}

def sweepOperation (policy : RecoveryRetentionPolicy) (archive : Bool) (id : UInt64) : Operation :=
  if archive then .archiveRecoveryMetadata id policy else .pruneRecoveryMetadata id policy

theorem sweepIds_invariant (Inv : TransactionStateTracker → Prop)
    (hstep : ∀ u v id, u.step host decode ⟨env, sweepOperation policy archive id⟩ = .ok v →
      Inv u → Inv v) {ids : List UInt64} {count : UInt32}
    (h : sweepIds env policy archive ids count t = .ok (processed, t')) (hpre : Inv t) :
    Inv t' := by
  induction ids generalizing count t with
  | nil =>
    obtain ⟨_, rfl⟩ := Prod.mk.inj (Except.ok.inj h)
    exact hpre
  | cons id ids ih =>
    have hnext : Inv (if archive then t.archiveRecoveryMetadata env id policy
        else t.pruneRecoveryMetadata env id policy).2 := by
      apply hstep t _ id _ hpre
      cases archive <;> rfl
    rw [sweepIds] at h
    generalize (if archive then t.archiveRecoveryMetadata env id policy
      else t.pruneRecoveryMetadata env id policy) = outcome at h hnext
    obtain ⟨didProcess, u⟩ := outcome
    dsimp only at h
    split at h
    · split at h
      · cases h
      · exact ih h hnext
    · exact ih h hnext

/-- What every pruning and every archiving keeps, a sweep keeps. -/
theorem sweep_invariant (Inv : TransactionStateTracker → Prop)
    (hstep : ∀ u v id, u.step host decode ⟨env, sweepOperation policy archive id⟩ = .ok v →
      Inv u → Inv v)
    (h : t.sweepRecoveryMetadata env policy archive = .ok (processed, t')) (hpre : Inv t) :
    Inv t' :=
  sweepIds_invariant Inv hstep h hpre

theorem target_of_sweepOperation {id x : UInt64} {e : Effect} {record : TransactionStateRecord}
    (heffect : effect decode env t.getTransactionState (sweepOperation policy archive id) = .ok e)
    (htarget : e.target = some (x, record)) : ∃ old, t.Holds old ∧ old.cleared = record := by
  have hacts := effect_acts heffect
  cases archive with
  | true =>
    cases hacts with
    | rejected => cases htarget
    | kept => cases htarget
    | updated hrequested _ _ => cases hrequested
    | archived hfound _ =>
      cases htarget
      exact ⟨_, holds_of_find hfound, rfl⟩
  | false =>
    cases hacts with
    | rejected => cases htarget
    | kept => cases htarget
    | updated hrequested _ _ => cases hrequested
    | pruned _ hfound =>
      cases htarget
      exact ⟨_, holds_of_find hfound, rfl⟩

theorem holds_of_sweep (host : Host) (decode : String → Except String ImportedRecovery)
    {record : TransactionStateRecord}
    (h : t.sweepRecoveryMetadata env policy archive = .ok (processed, t'))
    (hheld : t'.Holds record) :
    t.Holds record ∨ ∃ old, t.Holds old ∧ old.cleared = record := by
  refine @sweep_invariant host decode env policy archive processed t t'
    (fun u => ∀ record, u.Holds record → t.Holds record ∨ ∃ old, t.Holds old ∧ old.cleared = record)
    ?_ h (fun _ => Or.inl) record hheld
  intro u v id hstep hpre record hheld
  obtain ⟨e, heffect, hstate⟩ := step_eq_ok hstep
  rcases holds_of_apply ((holds_congr hstate).mp hheld) with hold | ⟨x, htarget⟩
  · exact hpre record hold
  · obtain ⟨old, hold, rfl⟩ := target_of_sweepOperation heffect htarget
    rcases hpre old hold with hfirst | ⟨first, hfirst, rfl⟩
    · exact Or.inr ⟨old, hfirst, rfl⟩
    · exact Or.inr ⟨first, hfirst, rfl⟩

end Sweep

end TransactionStateTracker

/-- The tracker with the ids that are taken for expired in development mode. -/
structure MaintainedTracker where
  tracker : TransactionStateTracker
  expiredIds : List UInt64

namespace MaintainedTracker

def new (isDevMode : Bool) : MaintainedTracker := ⟨.new isDevMode, []⟩

/-- The number of entries removed, and what is left. -/
def cleanupExpired (m : MaintainedTracker) : UInt64 × MaintainedTracker :=
  let t := m.tracker
  if t.isDevMode then
    let expired (id : UInt64) : Bool := m.expiredIds.contains id
    let t' := { t with
      cache := t.cache.filter fun record => !expired record.transactionId
      knownIds := t.knownIds.filter fun id => !expired id }
    (UInt64.ofNat (t.cache.countP fun record => expired record.transactionId), ⟨t', []⟩)
  else
    let liveIds := t.txids.filter t.txstate.has
    (UInt64.ofNat (t.txids.length - liveIds.length), { m with tracker := { t with txids := liveIds } })

/-- The operations of the tracker and its maintenance. The expired ids are a public field, and
`expireEntry` is the ledger, which drops a persistent record. -/
inductive Operation
  | tracked (operation : TransactionStateTracker.Operation)
  | setExpiredIds (ids : List UInt64)
  | expireEntry (transactionId : UInt64)
  | clearCache
  | cleanupExpired
  | sweepRecoveryMetadata (policy : RecoveryRetentionPolicy) (archive : Bool)

structure Call where
  env : Env
  operation : Operation

def withTracker (m : MaintainedTracker) (t : TransactionStateTracker) : MaintainedTracker :=
  { m with tracker := t }

def step (host : Host) (decode : String → Except String ImportedRecovery) (m : MaintainedTracker)
    (c : Call) : Except Panic MaintainedTracker :=
  match c.operation with
  | .tracked operation => m.withTracker <$> m.tracker.step host decode ⟨c.env, operation⟩
  | .setExpiredIds ids => .ok { m with expiredIds := ids }
  | .expireEntry id =>
    .ok (m.withTracker { m.tracker with txstate := m.tracker.txstate.remove id })
  | .clearCache => .ok (m.withTracker m.tracker.clearCache.2)
  | .cleanupExpired => .ok m.cleanupExpired.2
  | .sweepRecoveryMetadata policy archive =>
    (m.withTracker ∘ Prod.snd) <$> m.tracker.sweepRecoveryMetadata c.env policy archive

section Steps

variable {host : Host} {decode : String → Except String ImportedRecovery}
  {m m' : MaintainedTracker} {c : Call} {record : TransactionStateRecord}

theorem holds_of_clearCache {t : TransactionStateTracker} (h : t.clearCache.2.Holds record) :
    t.Holds record := by
  unfold TransactionStateTracker.clearCache at h
  split at h
  · rename_i hdev
    simp [TransactionStateTracker.Holds, hdev] at h
  · exact h

theorem holds_of_cleanupExpired (h : m.cleanupExpired.2.tracker.Holds record) :
    m.tracker.Holds record := by
  unfold cleanupExpired at h
  dsimp only at h
  split at h
  · rename_i hdev
    simp only [TransactionStateTracker.Holds, hdev, if_true] at h ⊢
    exact List.mem_of_mem_filter h
  · exact h

theorem holds_of_expireEntry {t : TransactionStateTracker} {id : UInt64}
    (h : TransactionStateTracker.Holds { t with txstate := t.txstate.remove id } record) :
    t.Holds record := by
  cases hdev : t.isDevMode with
  | true =>
    simp only [TransactionStateTracker.Holds, hdev, if_true] at h ⊢
    exact h
  | false =>
    simp only [TransactionStateTracker.Holds, hdev, Bool.false_eq_true, if_false,
      KeyedStore.get_remove] at h ⊢
    obtain ⟨x, hx⟩ := h
    split at hx
    · cases hx
    · exact ⟨x, hx⟩

/-- Maintenance adds no record: what is held afterwards was held before, if with its recovery
metadata, or is what an operation of the tracker leaves. -/
theorem holds_of_step (h : m.step host decode c = .ok m') (hheld : m'.tracker.Holds record) :
    m.tracker.Holds record ∨ (∃ old, m.tracker.Holds old ∧ old.cleared = record) ∨
      ∃ operation e id, c.operation = .tracked operation ∧
        TransactionStateTracker.effect decode c.env m.tracker.getTransactionState operation = .ok e ∧
        e.target = some (id, record) := by
  obtain ⟨env, operation⟩ := c
  cases operation with
  | tracked operation =>
    obtain ⟨t', hstep, rfl⟩ := map_eq_ok.mp h
    obtain ⟨e, heffect, hstate⟩ := TransactionStateTracker.step_eq_ok hstep
    have happly := (TransactionStateTracker.holds_congr hstate).mp hheld
    rcases TransactionStateTracker.holds_of_apply happly with hold | ⟨id, htarget⟩
    · exact Or.inl hold
    · exact Or.inr (Or.inr ⟨operation, e, id, rfl, heffect, htarget⟩)
  | setExpiredIds ids =>
    obtain rfl := Except.ok.inj h
    exact Or.inl hheld
  | expireEntry id =>
    obtain rfl := Except.ok.inj h
    exact Or.inl (holds_of_expireEntry hheld)
  | clearCache =>
    obtain rfl := Except.ok.inj h
    exact Or.inl (holds_of_clearCache hheld)
  | cleanupExpired =>
    obtain rfl := Except.ok.inj h
    exact Or.inl (holds_of_cleanupExpired hheld)
  | sweepRecoveryMetadata policy archive =>
    obtain ⟨⟨processed, t'⟩, hsweep, rfl⟩ := map_eq_ok.mp h
    rcases TransactionStateTracker.holds_of_sweep host decode hsweep hheld with hold | hcleared
    · exact Or.inl hold
    · exact Or.inr (Or.inl hcleared)

end Steps

end MaintainedTracker

end AnchorKit
