import AnchorKit.Library.KeyedList
import AnchorKit.Library.Machine
import AnchorKit.Types

/-!
# The replay guard of the host

The guard remembers the request ids it has accepted for a window of seconds and reports a request
with a remembered id as a replay. An id is let go when its window is over or when it is forgotten
on demand.
-/

namespace AnchorKit

open Fallible Machine

inductive CheckResult
  | accepted
  | replay (firstSeenAt : UInt64)
deriving DecidableEq, Repr

structure SeenEntry where
  requestId : String
  actor : String
  firstSeenAt : UInt64
deriving DecidableEq, Repr

/-- A window of zero seconds never ends. -/
structure HostReplayGuard where
  windowSecs : UInt64
  entries : List SeenEntry
  replayCount : UInt64
  acceptedCount : UInt64
deriving DecidableEq, Repr

namespace HostReplayGuard

def new (windowSecs : UInt64) : HostReplayGuard := ⟨windowSecs, [], 0, 0⟩

def pruneExpired (guard : HostReplayGuard) (nowSecs : UInt64) : HostReplayGuard :=
  if guard.windowSecs = 0 then guard
  else
    let cutoff := Word.saturatingSub64 nowSecs guard.windowSecs
    { guard with entries := guard.entries.filter fun e => cutoff ≤ e.firstSeenAt }

def check (guard : HostReplayGuard) (requestId actor : String) (nowSecs : UInt64) :
    Except Panic (CheckResult × HostReplayGuard) :=
  let guard := guard.pruneExpired nowSecs
  match KeyedList.lookup SeenEntry.requestId requestId guard.entries with
  | some entry => do
    let replayCount ← add64 guard.replayCount 1
    return (.replay entry.firstSeenAt, { guard with replayCount })
  | none => do
    let acceptedCount ← add64 guard.acceptedCount 1
    return (.accepted,
      { guard with entries := guard.entries ++ [⟨requestId, actor, nowSecs⟩], acceptedCount })

def forget (guard : HostReplayGuard) (requestId : String) : Bool × HostReplayGuard :=
  let kept := guard.entries.filter fun e => e.requestId ≠ requestId
  (kept.length < guard.entries.length, { guard with entries := kept })

/-! ### Runs -/

inductive Call
  | check (requestId actor : String) (nowSecs : UInt64)
  | forget (requestId : String)
  | pruneExpired (nowSecs : UInt64)
deriving DecidableEq, Repr

def Call.time : Call → Option UInt64
  | .check _ _ nowSecs | .pruneExpired nowSecs => some nowSecs
  | .forget _ => none

def Call.isCheck : Call → Bool
  | .check _ _ _ => true
  | _ => false

def perform (guard : HostReplayGuard) : Call → Except Panic (Option CheckResult × HostReplayGuard)
  | .check requestId actor nowSecs => Prod.map some id <$> guard.check requestId actor nowSecs
  | .forget requestId => .ok (none, (guard.forget requestId).2)
  | .pruneExpired nowSecs => .ok (none, guard.pruneExpired nowSecs)

def step (guard : HostReplayGuard) (c : Call) : Except Panic HostReplayGuard :=
  Prod.snd <$> guard.perform c

abbrev Transition := Machine.Transition HostReplayGuard Call

def Answers (u : Transition) (result : CheckResult) : Prop :=
  u.pre.perform u.input = .ok (some result, u.post)

def Accepts (u : Transition) (requestId : String) (t₀ : UInt64) : Prop :=
  (∃ actor, u.input = .check requestId actor t₀) ∧ Answers u .accepted

/-- The id was accepted at `t₀` and has not been forgotten since. -/
def AcceptedSince (past : List Transition) (requestId : String) (t₀ : UInt64) : Prop :=
  ∃ before u after, past = before ++ u :: after ∧ Accepts u requestId t₀ ∧
    ∀ v ∈ after, v.input ≠ .forget requestId

def InWindow (windowSecs t₀ nowSecs : UInt64) : Prop :=
  windowSecs = 0 ∨ nowSecs.toNat - t₀.toNat ≤ windowSecs.toNat

structure AnswersExactly (windowSecs : UInt64) (past : List Transition) (u : Transition)
    (requestId : String) (nowSecs : UInt64) : Prop where
  accepted : Answers u .accepted ↔
    ¬ ∃ t₀, AcceptedSince past requestId t₀ ∧ InWindow windowSecs t₀ nowSecs
  replay (t₀ : UInt64) : Answers u (.replay t₀) ↔
    AcceptedSince past requestId t₀ ∧ InWindow windowSecs t₀ nowSecs

section Steps

variable {guard guard' : HostReplayGuard} {requestId actor : String} {nowSecs t₀ : UInt64}
  {result : CheckResult} {past : List Transition} {u : Transition}

theorem mem_pruneExpired {e : SeenEntry} :
    e ∈ (guard.pruneExpired nowSecs).entries ↔
      e ∈ guard.entries ∧ InWindow guard.windowSecs e.firstSeenAt nowSecs := by
  unfold pruneExpired InWindow
  by_cases hw : guard.windowSecs = 0
  · simp [hw]
  · rw [if_neg hw]
    have hcut := Word.toNat_saturatingSub64 nowSecs guard.windowSecs
    simp only [List.mem_filter, decide_eq_true_eq, UInt64.le_iff_toNat_le, hcut, hw, false_or]
    apply and_congr_right
    intro _
    omega

@[simp] theorem pruneExpired_windowSecs :
    (guard.pruneExpired nowSecs).windowSecs = guard.windowSecs := by
  unfold pruneExpired
  split <;> rfl

@[simp] theorem pruneExpired_acceptedCount :
    (guard.pruneExpired nowSecs).acceptedCount = guard.acceptedCount := by
  unfold pruneExpired
  split <;> rfl

@[simp] theorem pruneExpired_replayCount :
    (guard.pruneExpired nowSecs).replayCount = guard.replayCount := by
  unfold pruneExpired
  split <;> rfl

theorem pruneExpired_sublist :
    ((guard.pruneExpired nowSecs).entries).Sublist guard.entries := by
  unfold pruneExpired
  split
  · exact List.Sublist.refl _
  · exact List.filter_sublist

theorem nodup_pruneExpired (h : (guard.entries.map SeenEntry.requestId).Nodup)
    (nowSecs : UInt64) :
    ((guard.pruneExpired nowSecs).entries.map SeenEntry.requestId).Nodup :=
  h.sublist (pruneExpired_sublist.map SeenEntry.requestId)

theorem check_eq_ok : guard.check requestId actor nowSecs = .ok (result, guard') ↔
    (∃ entry, KeyedList.lookup SeenEntry.requestId requestId (guard.pruneExpired nowSecs).entries =
        some entry ∧ result = .replay entry.firstSeenAt ∧
      ∃ replayCount : UInt64, guard.replayCount.toNat + 1 = replayCount.toNat ∧
        guard' = { guard.pruneExpired nowSecs with replayCount }) ∨
    KeyedList.lookup SeenEntry.requestId requestId (guard.pruneExpired nowSecs).entries = none ∧
      result = .accepted ∧
      ∃ acceptedCount : UInt64, guard.acceptedCount.toNat + 1 = acceptedCount.toNat ∧
        guard' = { guard.pruneExpired nowSecs with
          entries := (guard.pruneExpired nowSecs).entries ++ [⟨requestId, actor, nowSecs⟩]
          acceptedCount } := by
  unfold check
  dsimp only
  cases KeyedList.lookup SeenEntry.requestId requestId (guard.pruneExpired nowSecs).entries with
  | some entry =>
    simp only [bind_eq_ok, add64_eq_ok, pure_eq_ok, Prod.mk.injEq, pruneExpired_replayCount,
      Option.some.injEq, reduceCtorEq, false_and, or_false, exists_eq_left']
    constructor
    · rintro ⟨count, hcount, rfl, rfl⟩
      exact ⟨rfl, count, hcount, rfl⟩
    · rintro ⟨rfl, count, hcount, rfl⟩
      exact ⟨count, hcount, rfl, rfl⟩
  | none =>
    simp only [bind_eq_ok, add64_eq_ok, pure_eq_ok, Prod.mk.injEq, pruneExpired_acceptedCount,
      reduceCtorEq, false_and, exists_false, false_or, true_and]
    constructor
    · rintro ⟨count, hcount, rfl, rfl⟩
      exact ⟨rfl, count, hcount, rfl⟩
    · rintro ⟨rfl, count, hcount, rfl⟩
      exact ⟨count, hcount, rfl, rfl⟩

theorem answers_iff (hinput : u.input = .check requestId actor nowSecs) :
    Answers u result ↔ u.pre.check requestId actor nowSecs = .ok (result, u.post) := by
  unfold Answers
  rw [hinput, perform, map_eq_ok]
  constructor
  · rintro ⟨⟨r, g⟩, hcheck, heq⟩
    obtain ⟨hr, rfl⟩ := Prod.mk.inj heq
    obtain rfl := Option.some.inj hr
    exact hcheck
  · exact fun hcheck => ⟨_, hcheck, rfl⟩

theorem check_of_step (hstep : step u.pre u.input = .ok u.post)
    (hinput : u.input = .check requestId actor nowSecs) :
    ∃ result, u.pre.check requestId actor nowSecs = .ok (result, u.post) := by
  rw [hinput] at hstep
  obtain ⟨_, hperform, hpost⟩ := map_eq_ok.mp hstep
  obtain ⟨⟨result, g⟩, hcheck, rfl⟩ := map_eq_ok.mp hperform
  obtain rfl : g = u.post := hpost
  exact ⟨result, hcheck⟩

theorem acceptedSince_snoc : AcceptedSince (past ++ [u]) requestId t₀ ↔
    Accepts u requestId t₀ ∨ AcceptedSince past requestId t₀ ∧ u.input ≠ .forget requestId :=
  Machine.holdsSince_snoc

def UpTo (past : List Transition) (nowSecs : UInt64) : Prop :=
  ∀ v ∈ past, ∀ t ∈ v.input.time, t ≤ nowSecs

/-- The entries are the accepted ids, up to those whose window is over. -/
structure Traced (windowSecs : UInt64) (past : List Transition) (guard : HostReplayGuard) :
    Prop where
  windowSecs_eq : guard.windowSecs = windowSecs
  nodup : (guard.entries.map SeenEntry.requestId).Nodup
  counted : guard.acceptedCount.toNat + guard.replayCount.toNat =
    past.countP fun u => u.input.isCheck
  sound (e : SeenEntry) (he : e ∈ guard.entries) : AcceptedSince past e.requestId e.firstSeenAt
  complete (requestId : String) (t₀ nowSecs : UInt64) (h : AcceptedSince past requestId t₀)
    (hnow : UpTo past nowSecs) (hwindow : InWindow windowSecs t₀ nowSecs) :
    ∃ e ∈ guard.entries, e.requestId = requestId ∧ e.firstSeenAt = t₀

theorem traced_new (windowSecs : UInt64) : Traced windowSecs [] (new windowSecs) where
  windowSecs_eq := rfl
  nodup := List.nodup_nil
  counted := rfl
  sound := nofun
  complete := by
    rintro _ _ _ ⟨before, v, after, hsplit, _⟩
    simp at hsplit

/-- A longer window contains the shorter one that ends earlier. -/
theorem InWindow.mono {windowSecs t : UInt64} (h : InWindow windowSecs t₀ nowSecs)
    (ht : t ≤ nowSecs) : InWindow windowSecs t₀ t := by
  rcases h with hzero | hle
  · exact Or.inl hzero
  · rw [UInt64.le_iff_toNat_le] at ht
    exact Or.inr (by omega)

section Traced

variable {windowSecs : UInt64} (h : Traced windowSecs past guard)
include h

/-- After pruning at the current time the guard knows exactly the ids accepted in the window. -/
theorem Traced.lookup_pruned (hnow : UpTo past nowSecs) :
    (∃ e, KeyedList.lookup SeenEntry.requestId requestId (guard.pruneExpired nowSecs).entries =
        some e ∧ e.firstSeenAt = t₀) ↔
      AcceptedSince past requestId t₀ ∧ InWindow windowSecs t₀ nowSecs := by
  have hnodup := nodup_pruneExpired h.nodup nowSecs
  constructor
  · rintro ⟨e, he, rfl⟩
    obtain ⟨hmem, rfl⟩ := (KeyedList.lookup_eq_some hnodup).mp he
    obtain ⟨hmem, hwindow⟩ := mem_pruneExpired.mp hmem
    exact ⟨h.sound e hmem, h.windowSecs_eq ▸ hwindow⟩
  · rintro ⟨haccepted, hwindow⟩
    obtain ⟨e, hmem, hid, rfl⟩ := h.complete _ _ _ haccepted hnow hwindow
    refine ⟨e, (KeyedList.lookup_eq_some hnodup).mpr ⟨?_, hid⟩, rfl⟩
    exact mem_pruneExpired.mpr ⟨hmem, h.windowSecs_eq ▸ hwindow⟩

theorem Traced.answersExactly (hinput : u.input = .check requestId actor nowSecs)
    (hstep : step u.pre u.input = .ok u.post) (hpre : guard = u.pre) (hnow : UpTo past nowSecs) :
    AnswersExactly windowSecs past u requestId nowSecs := by
  subst hpre
  obtain ⟨result, hcheck⟩ := check_of_step hstep hinput
  have hanswer (r : CheckResult) : Answers u r ↔ result = r := by
    rw [answers_iff hinput, hcheck]
    simp
  rcases check_eq_ok.mp hcheck with ⟨entry, hfound, rfl, _⟩ | ⟨hfound, rfl, _⟩
  · have hwithin := (h.lookup_pruned hnow).mp ⟨entry, hfound, rfl⟩
    refine ⟨?_, fun t₀ => ?_⟩
    · rw [hanswer]
      exact iff_of_false nofun fun hnone => hnone ⟨_, hwithin⟩
    · rw [hanswer, ← h.lookup_pruned hnow, hfound]
      simp
  · refine ⟨?_, fun t₀ => ?_⟩
    · rw [hanswer, eq_self_iff_true, true_iff]
      rintro ⟨t₀, hwithin⟩
      obtain ⟨e, he, _⟩ := (h.lookup_pruned hnow).mpr hwithin
      rw [hfound] at he
      cases he
    · rw [hanswer, ← h.lookup_pruned hnow, hfound]
      simp

end Traced

/-- Nothing that a later check may ask for is pruned. -/
theorem mem_pruneExpired_of_inWindow {e : SeenEntry} {t : UInt64} (he : e ∈ guard.entries)
    (hwindow : InWindow guard.windowSecs e.firstSeenAt t) (ht : nowSecs ≤ t) :
    e ∈ (guard.pruneExpired nowSecs).entries :=
  mem_pruneExpired.mpr ⟨he, hwindow.mono ht⟩

theorem not_accepts (hinput : u.input.isCheck = false) : ¬ Accepts u requestId t₀ := by
  rintro ⟨⟨_, hcheck⟩, _⟩
  rw [hcheck] at hinput
  cases hinput

theorem accepts_iff_answers (hinput : u.input = .check requestId actor nowSecs)
    {id : String} {t : UInt64} :
    Accepts u id t ↔ requestId = id ∧ nowSecs = t ∧ Answers u .accepted := by
  unfold Accepts
  rw [hinput]
  constructor
  · rintro ⟨⟨_, heq⟩, hanswer⟩
    obtain ⟨rfl, _, rfl⟩ := Call.check.inj heq
    exact ⟨rfl, rfl, hanswer⟩
  · rintro ⟨rfl, rfl, hanswer⟩
    exact ⟨⟨actor, rfl⟩, hanswer⟩

theorem upTo_snoc : UpTo (past ++ [u]) nowSecs ↔
    UpTo past nowSecs ∧ ∀ t ∈ u.input.time, t ≤ nowSecs := forall_mem_snoc

/-- The entries that a pruning leaves were accepted, unless the call forgets them. -/
theorem Traced.pruned_sound {windowSecs : UInt64} (h : Traced windowSecs past u.pre)
    (hkept : ∀ id, u.input ≠ .forget id) {e : SeenEntry}
    (he : e ∈ (u.pre.pruneExpired nowSecs).entries) :
    AcceptedSince (past ++ [u]) e.requestId e.firstSeenAt :=
  acceptedSince_snoc.mpr (Or.inr ⟨h.sound e (mem_pruneExpired.mp he).1, hkept _⟩)

/-- A pruning leaves what is still in its window. -/
theorem Traced.pruned_complete {windowSecs : UInt64} (h : Traced windowSecs past u.pre)
    (htime : u.input.time = some nowSecs) {id : String} {t₀ now : UInt64}
    (haccepted : AcceptedSince past id t₀) (hnow : UpTo (past ++ [u]) now)
    (hwindow : InWindow windowSecs t₀ now) :
    ∃ e ∈ (u.pre.pruneExpired nowSecs).entries, e.requestId = id ∧ e.firstSeenAt = t₀ := by
  obtain ⟨hpast, hlast⟩ := upTo_snoc.mp hnow
  obtain ⟨e, he, rfl, rfl⟩ := h.complete _ _ _ haccepted hpast hwindow
  have hin := h.windowSecs_eq ▸ hwindow
  exact ⟨e, mem_pruneExpired_of_inWindow he hin (hlast nowSecs htime), rfl, rfl⟩

theorem traced_of_check {windowSecs : UInt64} (h : Traced windowSecs past u.pre)
    (hinput : u.input = .check requestId actor nowSecs)
    (hcheck : u.pre.check requestId actor nowSecs = .ok (result, u.post)) :
    Traced windowSecs (past ++ [u]) u.post := by
  have hnodup := nodup_pruneExpired h.nodup nowSecs
  have hcounted : (past ++ [u]).countP (fun v => v.input.isCheck) =
      u.pre.acceptedCount.toNat + u.pre.replayCount.toNat + 1 := by
    rw [List.countP_append, List.countP_singleton, hinput, h.counted]
    rfl
  have hkept (id : String) : u.input ≠ .forget id := by
    rw [hinput]
    nofun
  have htime : u.input.time = some nowSecs := by rw [hinput]; rfl
  have hanswer (r : CheckResult) : Answers u r ↔ result = r := by
    rw [answers_iff hinput, hcheck]
    simp
  rcases check_eq_ok.mp hcheck with
    ⟨entry, _, rfl, count, hcount, hpost⟩ | ⟨hnone, rfl, count, hcount, hpost⟩
  · have hrejected (id : String) (t : UInt64) : ¬ Accepts u id t := by
      rw [accepts_iff_answers hinput, hanswer]
      rintro ⟨_, _, hne⟩
      cases hne
    rw [hpost]
    refine ⟨by simpa using h.windowSecs_eq, hnodup, ?_, fun e he => h.pruned_sound hkept he, ?_⟩
    · rw [hcounted]
      dsimp only
      rw [pruneExpired_acceptedCount]
      omega
    · intro id t₀ now haccepted hnow hwindow
      rcases acceptedSince_snoc.mp haccepted with haccepts | ⟨haccepted, _⟩
      · exact absurd haccepts (hrejected id t₀)
      · exact h.pruned_complete htime haccepted hnow hwindow
  · rw [hpost]
    refine ⟨by simpa using h.windowSecs_eq, ?_, ?_, ?_, ?_⟩
    · rw [List.map_append, List.map_singleton]
      refine hnodup.append (List.nodup_singleton _) ?_
      rw [List.disjoint_singleton]
      exact KeyedList.lookup_eq_none.mp hnone
    · rw [hcounted]
      dsimp only
      rw [pruneExpired_replayCount]
      omega
    · intro e he
      rcases mem_snoc.mp he with he | rfl
      · exact h.pruned_sound hkept he
      · apply acceptedSince_snoc.mpr
        exact Or.inl ((accepts_iff_answers hinput).mpr ⟨rfl, rfl, (hanswer _).mpr rfl⟩)
    · intro id t₀ now haccepted hnow hwindow
      rcases acceptedSince_snoc.mp haccepted with haccepts | ⟨haccepted, _⟩
      · obtain ⟨rfl, rfl, _⟩ := (accepts_iff_answers hinput).mp haccepts
        exact ⟨_, mem_snoc.mpr (Or.inr rfl), rfl, rfl⟩
      · obtain ⟨e, he, hid, ht⟩ := h.pruned_complete htime haccepted hnow hwindow
        exact ⟨e, mem_snoc.mpr (Or.inl he), hid, ht⟩

theorem traced_of_forget {windowSecs : UInt64} (h : Traced windowSecs past u.pre)
    (hinput : u.input = .forget requestId) (hpost : (u.pre.forget requestId).2 = u.post) :
    Traced windowSecs (past ++ [u]) u.post := by
  have hrejected (id : String) (t : UInt64) : ¬ Accepts u id t := not_accepts (by rw [hinput]; rfl)
  rw [← hpost]
  refine ⟨h.windowSecs_eq, ?_, ?_, ?_, ?_⟩
  · exact h.nodup.sublist (List.filter_sublist.map SeenEntry.requestId)
  · rw [List.countP_append, List.countP_singleton, hinput]
    exact h.counted
  · intro e he
    obtain ⟨he, hother⟩ := List.mem_filter.mp he
    refine acceptedSince_snoc.mpr (Or.inr ⟨h.sound e he, ?_⟩)
    rw [hinput]
    intro heq
    simp [Call.forget.inj heq] at hother
  · intro id t₀ now haccepted hnow hwindow
    rcases acceptedSince_snoc.mp haccepted with haccepts | ⟨haccepted, hother⟩
    · exact absurd haccepts (hrejected id t₀)
    · obtain ⟨e, he, rfl, rfl⟩ := h.complete _ _ _ haccepted (upTo_snoc.mp hnow).1 hwindow
      refine ⟨e, List.mem_filter.mpr ⟨he, ?_⟩, rfl, rfl⟩
      rw [hinput] at hother
      simpa using fun heq => hother (by rw [heq])

theorem traced_of_pruneExpired {windowSecs : UInt64} (h : Traced windowSecs past u.pre)
    (hinput : u.input = .pruneExpired nowSecs) (hpost : u.pre.pruneExpired nowSecs = u.post) :
    Traced windowSecs (past ++ [u]) u.post := by
  have hrejected (id : String) (t : UInt64) : ¬ Accepts u id t := not_accepts (by rw [hinput]; rfl)
  have hkept (id : String) : u.input ≠ .forget id := by
    rw [hinput]
    nofun
  have htime : u.input.time = some nowSecs := by rw [hinput]; rfl
  rw [← hpost]
  refine ⟨by simpa using h.windowSecs_eq, nodup_pruneExpired h.nodup nowSecs, ?_,
    fun e he => h.pruned_sound hkept he, ?_⟩
  · rw [List.countP_append, List.countP_singleton, hinput, pruneExpired_acceptedCount,
      pruneExpired_replayCount]
    exact h.counted
  · intro id t₀ now haccepted hnow hwindow
    rcases acceptedSince_snoc.mp haccepted with haccepts | ⟨haccepted, _⟩
    · exact absurd haccepts (hrejected id t₀)
    · exact h.pruned_complete htime haccepted hnow hwindow

theorem traced_of_step {windowSecs : UInt64} (h : Traced windowSecs past u.pre)
    (hstep : step u.pre u.input = .ok u.post) : Traced windowSecs (past ++ [u]) u.post := by
  cases hinput : u.input with
  | check requestId actor nowSecs =>
    obtain ⟨_, hcheck⟩ := check_of_step hstep hinput
    exact traced_of_check h hinput hcheck
  | forget requestId =>
    rw [hinput] at hstep
    exact traced_of_forget h hinput (Except.ok.inj hstep)
  | pruneExpired nowSecs =>
    rw [hinput] at hstep
    exact traced_of_pruneExpired h hinput (Except.ok.inj hstep)

end Steps

theorem traced_run (windowSecs : UInt64) (calls : List Call) :
    Traced windowSecs (transitions step (new windowSecs) calls)
      (Machine.run step (new windowSecs) calls) :=
  history_invariant step (Traced windowSecs) (fun _ => True) (traced_new windowSecs)
    (fun _ _ hstep hpre _ => traced_of_step hpre hstep) calls (fun _ _ => trivial)

/-- Under a non-decreasing clock an id is accepted exactly when it was not accepted in the window
since it was last forgotten, a replay names the time when it was, no id is stored twice, and every
check is counted. -/
theorem replays_detected (windowSecs : UInt64) (calls : List Call)
    (hclock : (calls.filterMap Call.time).Pairwise (· ≤ ·)) :
    AtEachStep (fun past u => ∀ requestId actor nowSecs, u.input = .check requestId actor nowSecs →
        AnswersExactly windowSecs past u requestId nowSecs)
      (transitions step (new windowSecs) calls) ∧
    ((Machine.run step (new windowSecs) calls).entries.map SeenEntry.requestId).Nodup ∧
    (Machine.run step (new windowSecs) calls).acceptedCount.toNat +
        (Machine.run step (new windowSecs) calls).replayCount.toNat =
      (transitions step (new windowSecs) calls).countP fun u => u.input.isCheck := by
  have htraced := traced_run windowSecs calls
  refine ⟨?_, htraced.nodup, htraced.counted⟩
  intro past u after hsplit requestId actor nowSecs hinput
  obtain ⟨js, ks, _, hpre, hpast⟩ := exists_prefix_of_transitions_eq _ hsplit
  have htraced := traced_run windowSecs js
  rw [hpre, hpast] at htraced
  have hu : u ∈ transitions step (new windowSecs) calls := by simp [hsplit]
  apply htraced.answersExactly hinput (step_of_mem_transitions step hu) rfl
  intro v hv t ht
  have horder := atEachStep_of_pairwise step (s := new windowSecs)
    (List.pairwise_filterMap.mp hclock) past u after hsplit v hv t ht nowSecs
  apply horder
  rw [hinput]
  rfl

/-- A request repeated at the end of its window and again after it. -/
theorem replays_detected_at_window_end :
    AtEachStep (fun past u => ∀ requestId actor nowSecs, u.input = .check requestId actor nowSecs →
        AnswersExactly 300 past u requestId nowSecs)
      (transitions step (new 300)
        [.check "req-001" "GXXX" 1000, .check "req-001" "GYYY" 1300, .forget "req-002",
          .check "req-001" "GXXX" 1301]) :=
  (replays_detected 300 _ (by decide)).1

end HostReplayGuard

end AnchorKit
