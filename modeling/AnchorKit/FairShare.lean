import AnchorKit.RateLimiterRuns

/-!
# The fair share of the shared window

The fairness gate compares the count of an attestor's own window with the total of the window
all attestors share. The comparison bounds the attestor's share as long as its own window does
not start over while the shared window is running.
-/

namespace AnchorKit.RateLimiter

open Machine (since AtEachStep)

def opensShared (configOf : Address → RateLimitConfig) (t : Attempt) : Bool :=
  match t.pre.rateLimits.globalWindow with
  | none => true
  | some shared =>
    isWindowExpired t.input.1.sequence shared.windowStartLedger (configOf t.input.2).windowLength

def sharedPart (configOf : Address → RateLimitConfig) (past : List Attempt) : List Attempt :=
  since (opensShared configOf) past

def countOf (attestor : Address) (part : List Attempt) : Nat :=
  part.countP fun t => t.input.2 = attestor

/-- Right after `t` was accepted its attestor has at most the configured share of the shared
window, once that window is large enough to tell. -/
def FairAt (fairness : FairnessConfig) (configOf : Address → RateLimitConfig) (past : List Attempt)
    (t : Attempt) : Prop :=
  let part := sharedPart configOf (past ++ [t])
  fairness.minTotalForEnforcement.toNat ≤ part.length →
    countOf t.input.2 part * 100 ≤ fairness.maxSharePercent.toNat * part.length

/-- The attestor's own window does not start over in the middle of a shared window that already
holds calls of the attestor. -/
def KeepsOwnWindow (configOf : Address → RateLimitConfig) (past : List Attempt) (t : Attempt) :
    Prop :=
  opensShared configOf t = false → opensWindow (configOf t.input.2) t = true →
    countOf t.input.2 (sharedPart configOf past) = 0

instance (fairness : FairnessConfig) (configOf : Address → RateLimitConfig) (past : List Attempt)
    (t : Attempt) : Decidable (FairAt fairness configOf past t) :=
  inferInstanceAs (Decidable (_ ≤ _ → _ ≤ _))

instance (configOf : Address → RateLimitConfig) (past : List Attempt) (t : Attempt) :
    Decidable (KeepsOwnWindow configOf past t) :=
  inferInstanceAs (Decidable (_ = _ → _ = _ → _ = _))

def storedCount (s : Storage) (attestor : Address) : Nat :=
  match s.rateLimits.state.get attestor with
  | none => 0
  | some state => state.submissionCount.toNat

/-- The shared window counts every accepted call, and no attestor has more calls in it than its
own window counts. -/
structure SharedTracked (configOf : Address → RateLimitConfig) (past : List Attempt) (s : Storage) :
    Prop where
  total_eq : ∀ shared, s.rateLimits.globalWindow = some shared →
    shared.totalCount.toNat = (sharedPart configOf past).length
  own_le : ∀ attestor, countOf attestor (sharedPart configOf past) ≤ storedCount s attestor

section Step

variable {configOf : Address → RateLimitConfig} {past : List Attempt} {t : Attempt}

theorem sharedPart_snoc (configOf : Address → RateLimitConfig) (past : List Attempt) (t : Attempt) :
    sharedPart configOf (past ++ [t]) =
      if opensShared configOf t then [t] else sharedPart configOf past ++ [t] :=
  Machine.since_snoc _ past t

theorem countOf_snoc (attestor : Address) (part : List Attempt) (t : Attempt) :
    countOf attestor (part ++ [t]) =
      countOf attestor part + if t.input.2 = attestor then 1 else 0 := by
  simp [countOf, List.countP_append, List.countP_singleton]

theorem shared_total (h : SharedTracked configOf past t.pre) :
    (getGlobalWindowState t.pre (configOf t.input.2).windowLength
      t.input.1.sequence).totalCount.toNat =
      if opensShared configOf t then 0 else (sharedPart configOf past).length := by
  unfold getGlobalWindowState opensShared
  cases hget : t.pre.rateLimits.globalWindow with
  | none =>
    simp only [Option.getD_none]
    split
    · rfl
    · rfl
  | some shared =>
    simp only [Option.getD_some]
    split
    · rfl
    · exact h.total_eq shared hget

theorem own_count (t : Attempt) :
    (openWindow t.input.1 t.pre t.input.2 (configOf t.input.2)).submissionCount.toNat =
      if opensWindow (configOf t.input.2) t then 0 else storedCount t.pre t.input.2 := by
  unfold openWindow storedState rollWindow opensWindow storedCount
  cases hget : t.pre.rateLimits.state.get t.input.2 with
  | none =>
    simp only [Option.getD_none]
    split
    · rfl
    · rfl
  | some state =>
    simp only [Option.getD_some]
    split
    · rfl
    · rfl

/-- What the gate has compared, as natural numbers. -/
theorem share_of_not_exceeds {fairness : FairnessConfig} {count total : UInt32}
    (h : exceedsShare fairness count total = false)
    (hmin : fairness.minTotalForEnforcement.toNat ≤ total.toNat) :
    count.toNat * 100 ≤ fairness.maxSharePercent.toNat * total.toNat := by
  have hle : fairness.minTotalForEnforcement ≤ total := UInt32.le_iff_toNat_le.mpr hmin
  simp only [exceedsShare, hle, decide_true, Bool.true_and, decide_eq_false_iff_not,
    UInt64.not_lt] at h
  have hcount := count.toNat_lt
  have htotal := total.toNat_lt
  have hpercent := fairness.maxSharePercent.toNat_lt
  have hproduct : fairness.maxSharePercent.toNat * total.toNat < 2 ^ 64 := by
    calc fairness.maxSharePercent.toNat * total.toNat
        < 2 ^ 32 * 2 ^ 32 := Nat.mul_lt_mul'' hpercent htotal
      _ = 2 ^ 64 := by decide
  rw [UInt64.le_iff_toNat_le, UInt64.toNat_mul, UInt64.toNat_mul, UInt32.toNat_toUInt64,
    UInt32.toNat_toUInt64, UInt32.toNat_toUInt64, Nat.mod_eq_of_lt hproduct] at h
  have hhundred : (100 : UInt64).toNat = 100 := rfl
  rw [hhundred, Nat.mod_eq_of_lt (by omega)] at h
  exact h

/-- What an accepted call of a non-admin has done to the two windows. -/
theorem submit_shared {fairness : FairnessConfig}
    (ht : submit configOf t.pre t.input = .ok t.post)
    (hadmin : t.pre.access.admin ≠ some t.input.2)
    (hfair : t.pre.rateLimits.fairnessConfig = some fairness)
    (h : SharedTracked configOf past t.pre) :
    ∃ total count shared, t.post.rateLimits.globalWindow = some shared ∧
      shared.totalCount = total ∧ total.toNat = (sharedPart configOf (past ++ [t])).length ∧
      count.toNat = (if opensWindow (configOf t.input.2) t then 0
        else storedCount t.pre t.input.2) + 1 ∧
      exceedsShare fairness count total = false ∧ storedCount t.post t.input.2 = count.toNat := by
  rw [submit_eq_ok] at ht
  obtain ⟨hroom, burst, window, hcounted, hpost⟩ := checkAndIncrement_accepted hadmin ht
  rw [CountedInShared, hfair] at hcounted
  obtain ⟨total, count, htotal, hcount, hshare, hwindow⟩ := hcounted
  rw [shared_total h] at htotal
  rw [own_count] at hcount
  have hglobal : t.post.rateLimits.globalWindow = window := by rw [hpost]
  refine ⟨total, count, _, hglobal.trans hwindow, rfl, ?_, hcount.symm, hshare, ?_⟩
  · rw [← htotal, sharedPart_snoc]
    split
    · rfl
    · rw [List.length_append, List.length_singleton]
  · have hlt := UInt32.lt_iff_toNat_lt.mp hroom
    have hmax := (configOf t.input.2).maxSubmissions.toNat_lt
    have hsat := Word.toNat_saturatingAdd32
      (openWindow t.input.1 t.pre t.input.2 (configOf t.input.2)).submissionCount 1
    rw [show (1 : UInt32).toNat = 1 from rfl, Nat.min_eq_left (by omega), own_count, hcount] at hsat
    rw [hpost, storedCount, KeyedStore.get_set_self]
    exact hsat

theorem countOf_part_snoc_le (configOf : Address → RateLimitConfig) (past : List Attempt)
    (t : Attempt) (attestor : Address) :
    countOf attestor (sharedPart configOf (past ++ [t])) ≤
      (if opensShared configOf t then 0 else countOf attestor (sharedPart configOf past)) +
        if t.input.2 = attestor then 1 else 0 := by
  rw [sharedPart_snoc]
  split
  · have hone := countOf_snoc attestor [] t
    rw [List.nil_append] at hone
    rw [hone]
    exact Nat.le_refl _
  · rw [countOf_snoc]

/-- The caller's calls in the shared window are among those its own window counts. -/
theorem countOf_caller_le (h : SharedTracked configOf past t.pre)
    (hkeeps : KeepsOwnWindow configOf past t) :
    countOf t.input.2 (sharedPart configOf (past ++ [t])) ≤
      (if opensWindow (configOf t.input.2) t then 0 else storedCount t.pre t.input.2) + 1 := by
  have hle := countOf_part_snoc_le configOf past t t.input.2
  rw [if_pos rfl] at hle
  by_cases hshared : opensShared configOf t = true
  · rw [if_pos hshared] at hle
    omega
  · rw [if_neg hshared] at hle
    by_cases hown : opensWindow (configOf t.input.2) t = true
    · have hnone := hkeeps (Bool.eq_false_iff.mpr hshared) hown
      omega
    · rw [if_neg hown]
      have hcount := h.own_le t.input.2
      omega

theorem storedCount_other (ht : submit configOf t.pre t.input = .ok t.post) {attestor : Address}
    (hother : attestor ≠ t.input.2) : storedCount t.post attestor = storedCount t.pre attestor := by
  obtain ⟨_, _, hothers⟩ := submit_frame ht
  rw [storedCount, hothers attestor hother, storedCount]

theorem sharedTracked_step {fairness : FairnessConfig}
    (ht : submit configOf t.pre t.input = .ok t.post)
    (hadmin : t.pre.access.admin ≠ some t.input.2)
    (hfair : t.pre.rateLimits.fairnessConfig = some fairness)
    (h : SharedTracked configOf past t.pre) (hkeeps : KeepsOwnWindow configOf past t) :
    SharedTracked configOf (past ++ [t]) t.post := by
  obtain ⟨total, count, shared, hwindow, hshared, htotal, hcount, _, hstored⟩ :=
    submit_shared ht hadmin hfair h
  refine ⟨fun shared' hget => ?_, fun attestor => ?_⟩
  · rw [hwindow] at hget
    obtain rfl := Option.some.inj hget
    rw [hshared, htotal]
  · by_cases hself : attestor = t.input.2
    · rw [hself, hstored, hcount]
      exact countOf_caller_le h hkeeps
    · rw [storedCount_other ht hself]
      have hle := countOf_part_snoc_le configOf past t attestor
      rw [if_neg (show ¬ t.input.2 = attestor from fun heq => hself heq.symm)] at hle
      have hown := h.own_le attestor
      split at hle
      · omega
      · omega

theorem fairAt_of_step {fairness : FairnessConfig}
    (ht : submit configOf t.pre t.input = .ok t.post)
    (hadmin : t.pre.access.admin ≠ some t.input.2)
    (hfair : t.pre.rateLimits.fairnessConfig = some fairness)
    (h : SharedTracked configOf past t.pre) (hkeeps : KeepsOwnWindow configOf past t) :
    FairAt fairness configOf past t := by
  obtain ⟨total, count, _, _, _, htotal, hcount, hshare, _⟩ := submit_shared ht hadmin hfair h
  unfold FairAt
  intro part hmin
  have hcaller := countOf_caller_le h hkeeps
  rw [← hcount] at hcaller
  rw [← htotal] at hmin
  have hshared := share_of_not_exceeds hshare hmin
  rw [htotal] at hshared
  calc countOf t.input.2 part * 100
      ≤ count.toNat * 100 := Nat.mul_le_mul_right 100 hcaller
    _ ≤ fairness.maxSharePercent.toNat * part.length := hshared

end Step

/-- The parts of the state that no call changes. -/
theorem submit_fixed {configOf : Address → RateLimitConfig} {s s' : Storage} {i : Env × Address}
    (h : submit configOf s i = .ok s') :
    s'.access = s.access ∧ s'.rateLimits.fairnessConfig = s.rateLimits.fairnessConfig := by
  rw [submit_eq_ok] at h
  by_cases hadmin : s.access.admin = some i.2
  · obtain ⟨_, _, rfl⟩ := checkAndIncrement_admin hadmin h
    exact ⟨rfl, rfl⟩
  · obtain ⟨_, _, _, _, rfl⟩ := checkAndIncrement_accepted hadmin h
    exact ⟨rfl, rfl⟩

section Run

variable {configOf : Address → RateLimitConfig} {fairness : FairnessConfig} {s : Storage}
  {is : List (Env × Address)}

theorem sharedTracked_run (hfair : s.rateLimits.fairnessConfig = some fairness)
    (hfresh : s.rateLimits.globalWindow = none) (hadmin : ∀ i ∈ is, s.access.admin ≠ some i.2)
    (hkeeps : AtEachStep (KeepsOwnWindow configOf) (Machine.transitions (submit configOf) s is)) :
    let s' := Machine.run (submit configOf) s is
    s'.access = s.access ∧ s'.rateLimits.fairnessConfig = some fairness ∧
      SharedTracked configOf (Machine.transitions (submit configOf) s is) s' := by
  refine Machine.guarded_history_invariant (submit configOf)
    (fun past u => u.access = s.access ∧ u.rateLimits.fairnessConfig = some fairness ∧
      SharedTracked configOf past u)
    (fun past t => KeepsOwnWindow configOf past t ∧ s.access.admin ≠ some t.input.2)
    ⟨rfl, hfair, ?_⟩ ?_ is ?_
  · refine ⟨fun shared hget => ?_, fun attestor => Nat.zero_le _⟩
    rw [hfresh] at hget
    cases hget
  · rintro past t ht ⟨haccess, hsame, htracked⟩ ⟨hkept, hcaller⟩
    obtain ⟨haccess', hsame'⟩ := submit_fixed ht
    rw [← haccess] at hcaller
    exact ⟨haccess'.trans haccess, hsame'.trans hsame,
      sharedTracked_step ht hcaller hsame htracked hkept⟩
  · intro before t after hsplit
    refine ⟨hkeeps before t after hsplit, hadmin t.input ?_⟩
    apply (Machine.map_input_sublist (submit configOf) s is).subset
    rw [hsplit]
    exact List.mem_map_of_mem (List.mem_append_right _ List.mem_cons_self)

/-- In every run of non-admin calls under a fairness configuration, whatever their order and the
attestors' own configurations, every accepted call leaves its attestor within its share, as long
as no accepted call starts its own window over in the middle of a shared window that already
holds calls of the same attestor. -/
theorem fair_share_of_kept_windows (hfair : s.rateLimits.fairnessConfig = some fairness)
    (hfresh : s.rateLimits.globalWindow = none) (hadmin : ∀ i ∈ is, s.access.admin ≠ some i.2)
    (hkeeps : AtEachStep (KeepsOwnWindow configOf) (Machine.transitions (submit configOf) s is)) :
    AtEachStep (FairAt fairness configOf) (Machine.transitions (submit configOf) s is) := by
  intro before t after hsplit
  obtain ⟨js, ks, rfl, hpre, rfl⟩ :=
    Machine.exists_prefix_of_transitions_eq (submit configOf) hsplit
  have hkeepsJs : AtEachStep (KeepsOwnWindow configOf)
      (Machine.transitions (submit configOf) s js) := by
    rw [hsplit] at hkeeps
    exact hkeeps.of_append
  have hadminJs (i : Env × Address) (hi : i ∈ js) : s.access.admin ≠ some i.2 :=
    hadmin i (List.mem_append_left _ hi)
  obtain ⟨haccess, hsame, htracked⟩ := sharedTracked_run hfair hfresh hadminJs hkeepsJs
  rw [hpre] at haccess hsame htracked
  have hmem : t ∈ Machine.transitions (submit configOf) s (js ++ t.input :: ks) := by
    rw [hsplit]
    exact List.mem_append_right _ List.mem_cons_self
  have hcaller : t.pre.access.admin ≠ some t.input.2 := by
    rw [haccess]
    exact hadmin t.input (by simp)
  exact fairAt_of_step (Machine.step_of_mem_transitions (submit configOf) hmem) hcaller hsame
    htracked (hkeeps _ t after hsplit)

end Run

namespace Demo

/-- At most half of the shared window for each attestor, once it holds four calls. -/
def halves : FairnessConfig := ⟨50, 4⟩

def sharedHalves : Storage :=
  { Storage.empty with
    rateLimits := { Storage.empty.rateLimits with fairnessConfig := some halves } }

/-- Two attestors that take turns, the last of whose calls would be one too many. -/
def turns : List (Env × Address) :=
  [call 1 alice, call 2 bob, call 3 alice, call 4 bob, call 5 alice]

/-- `alice`'s own window ends in the middle of a shared window. -/
def overlapping : List (Env × Address) :=
  [call 0 bob, call 5 alice, call 10 bob, call 12 alice, call 13 alice, call 15 alice]

end Demo

/-- Four calls are accepted, and the share of the last of them is compared. -/
theorem fair_share_of_two_callers :
    (Machine.transitions (submit fun _ => ⟨9, 10⟩) Demo.sharedHalves Demo.turns).length = 4 ∧
      AtEachStep (FairAt Demo.halves fun _ => ⟨9, 10⟩)
        (Machine.transitions (submit fun _ => ⟨9, 10⟩) Demo.sharedHalves Demo.turns) :=
  ⟨by decide, fair_share_of_kept_windows rfl rfl (by decide) (by decide)⟩

/-- `alice` reaches three of four calls because her own window has started over. -/
theorem share_exceeded_after_reset :
    ¬ AtEachStep (FairAt Demo.halves fun _ => ⟨9, 10⟩)
      (Machine.transitions (submit fun _ => ⟨9, 10⟩) Demo.sharedHalves Demo.overlapping) := by
  decide

end AnchorKit.RateLimiter
