import AnchorKit.CacheFreshness

/-!
# The freshness score

A cached entry is scored by the share of its time to live that is left. The share is scaled before
it is divided, halved once the entry is stale, and lowered when a refresh is due.
-/

namespace AnchorKit

open Fallible

structure MetadataFreshnessReport where
  anchor : Address
  state : MetadataCacheState
  ageSeconds : UInt64
  needsRefresh : Bool
  freshnessScore : UInt32
deriving DecidableEq, Repr

/-- The length of the stale window plays no part. -/
def computeFreshnessScore (ageSeconds ttlSeconds _staleTtlSeconds : UInt64)
    (state : MetadataCacheState) (needsRefreshFlag : Bool) : Except Panic UInt32 :=
  match state with
  | .missing | .expired => .ok 0
  | .fresh | .stale => do
    let ageScore ←
      if ttlSeconds = 0 then pure 100
      else if ttlSeconds ≤ ageSeconds then pure 0
      else do
        let remaining := Word.saturatingSub64 ttlSeconds ageSeconds
        let scaled ← mul64 remaining 100
        pure (scaled / ttlSeconds).toUInt32
    let afterState := if state = .stale then ageScore / 2 else ageScore
    let penalty := if needsRefreshFlag then 10 else 0
    return min (Word.saturatingSub32 afterState penalty) 100

def getMetadataFreshness (env : Env) (s : Storage) (anchor : Address) :
    Except Panic MetadataFreshnessReport :=
  match s.cache.metadata.get anchor with
  | none => .ok {
      anchor, state := .missing, ageSeconds := 0, needsRefresh := false, freshnessScore := 0 }
  | some entry => do
    let age := Word.saturatingSub64 env.timestamp entry.cachedAt
    let state :=
      if age ≤ entry.ttlSeconds then MetadataCacheState.fresh
      else if age ≤ Word.saturatingAdd64 entry.ttlSeconds entry.staleTtlSeconds then .stale
      else .expired
    let needsRefresh := entry.needsRefresh || state ≠ .fresh
    let freshnessScore ← computeFreshnessScore age entry.ttlSeconds entry.staleTtlSeconds state
      entry.needsRefresh
    return { anchor, state, ageSeconds := age, needsRefresh, freshnessScore }

namespace MetadataCache

def ageAt (entry : MetadataCache) (now : UInt64) : ℕ := now.toNat - entry.cachedAt.toNat

def penalty (entry : MetadataCache) : ℕ := if entry.needsRefresh then 10 else 0

def stateAt (entry : MetadataCache) (now : UInt64) : MetadataCacheState :=
  let age := Word.saturatingSub64 now entry.cachedAt
  if age ≤ entry.ttlSeconds then .fresh
  else if age ≤ Word.saturatingAdd64 entry.ttlSeconds entry.staleTtlSeconds then .stale
  else .expired

def scoreAt (entry : MetadataCache) (now : UInt64) : Except Panic UInt32 :=
  computeFreshnessScore (Word.saturatingSub64 now entry.cachedAt) entry.ttlSeconds
    entry.staleTtlSeconds (entry.stateAt now) entry.needsRefresh

section Score

variable {entry : MetadataCache} {now earlier later : UInt64}

theorem freshAt_iff_ageAt : entry.FreshAt now ↔ entry.ageAt now ≤ entry.ttlSeconds.toNat := by
  rw [FreshAt, UInt64.le_iff_toNat_le, Word.toNat_saturatingSub64, ageAt]

theorem usableAt_iff_ageAt : entry.UsableAt now ↔
    entry.ageAt now ≤ min (entry.ttlSeconds.toNat + entry.staleTtlSeconds.toNat) (2 ^ 64 - 1) := by
  rw [UsableAt, UInt64.le_iff_toNat_le, Word.toNat_saturatingSub64, Word.toNat_saturatingAdd64,
    ageAt]

theorem ageAt_mono (entry : MetadataCache) (h : earlier ≤ later) : entry.ageAt earlier ≤ entry.ageAt later := by
  rw [UInt64.le_iff_toNat_le] at h
  unfold ageAt
  omega

theorem toNat_penalized (score : UInt32) :
    (min (Word.saturatingSub32 score (if entry.needsRefresh then 10 else 0)) 100).toNat =
      min (score.toNat - entry.penalty) 100 := by
  have hpenalty : (if entry.needsRefresh then (10 : UInt32) else 0).toNat = entry.penalty := by
    unfold penalty
    split <;> rfl
  rw [Word.toNat_min32, Word.toNat_saturatingSub32, hpenalty]
  rfl

theorem stateAt_fresh (h : entry.FreshAt now) : entry.stateAt now = .fresh := if_pos h

theorem stateAt_stale (hfresh : ¬ entry.FreshAt now) (h : entry.UsableAt now) :
    entry.stateAt now = .stale :=
  (if_neg hfresh).trans (if_pos h)

theorem stateAt_expired (h : ¬ entry.UsableAt now) : entry.stateAt now = .expired :=
  (if_neg fun hfresh : entry.FreshAt now => h hfresh.usable).trans (if_neg h)

theorem scoreAt_expired (h : ¬ entry.UsableAt now) : entry.scoreAt now = .ok 0 := by
  rw [scoreAt, stateAt_expired h]
  rfl

/-- Without a time to live the score is full, or half of it in the stale window. -/
theorem scoreAt_unlimited (httl : entry.ttlSeconds = 0) (h : entry.UsableAt now) :
    ∃ score, entry.scoreAt now = .ok score ∧
      (entry.FreshAt now → score.toNat = 100 - entry.penalty) ∧
      (¬ entry.FreshAt now → score.toNat = 50 - entry.penalty) := by
  by_cases hfresh : entry.FreshAt now
  · refine ⟨min (Word.saturatingSub32 100 (if entry.needsRefresh then 10 else 0)) 100, ?_, ?_, ?_⟩
    · rw [scoreAt, stateAt_fresh hfresh, httl]
      rfl
    · intro _
      rw [toNat_penalized]
      exact min_eq_left (Nat.sub_le _ _)
    · exact fun hstale => absurd hfresh hstale
  · refine ⟨min (Word.saturatingSub32 50 (if entry.needsRefresh then 10 else 0)) 100, ?_, ?_, ?_⟩
    · rw [scoreAt, stateAt_stale hfresh h, httl]
      rfl
    · exact fun hyes => absurd hyes hfresh
    · intro _
      rw [toNat_penalized]
      change min (50 - entry.penalty) 100 = 50 - entry.penalty
      omega

/-- From the end of its time to live on, nothing is left of the score. -/
theorem scoreAt_outlived (httl : entry.ttlSeconds ≠ 0)
    (hage : entry.ttlSeconds.toNat ≤ entry.ageAt now) : entry.scoreAt now = .ok 0 := by
  have hle : entry.ttlSeconds ≤ Word.saturatingSub64 now entry.cachedAt := by
    rw [UInt64.le_iff_toNat_le, Word.toNat_saturatingSub64]
    exact hage
  have hscore : min (Word.saturatingSub32 0 (if entry.needsRefresh then 10 else 0)) 100 = 0 := by
    rw [← UInt32.toNat_inj, toNat_penalized]
    change min (0 - entry.penalty) 100 = 0
    omega
  unfold scoreAt computeFreshnessScore
  cases entry.stateAt now with
  | missing => rfl
  | expired => rfl
  | fresh =>
    dsimp only
    rw [if_neg httl, if_pos hle]
    exact congrArg Except.ok hscore
  | stale =>
    dsimp only
    rw [if_neg httl, if_pos hle]
    exact congrArg Except.ok hscore

theorem share_le (ttl age : ℕ) : (ttl - age) * 100 / ttl ≤ 100 := by
  apply Nat.div_le_of_le_mul
  omega

/-- Before that, the score is the share that is left, if the scaled share is a word. -/
theorem scoreAt_young (hage : entry.ageAt now < entry.ttlSeconds.toNat) :
    ((entry.ttlSeconds.toNat - entry.ageAt now) * 100 < 2 ^ 64 →
      ∃ score, entry.scoreAt now = .ok score ∧ score.toNat =
        (entry.ttlSeconds.toNat - entry.ageAt now) * 100 / entry.ttlSeconds.toNat -
          entry.penalty) ∧
    (¬ (entry.ttlSeconds.toNat - entry.ageAt now) * 100 < 2 ^ 64 →
      ¬ Succeeds (entry.scoreAt now)) := by
  have hfresh : entry.FreshAt now := freshAt_iff_ageAt.mpr (Nat.le_of_lt hage)
  have httl : entry.ttlSeconds ≠ 0 := by
    intro hzero
    rw [hzero] at hage
    exact Nat.not_lt_zero _ hage
  have hnotle : ¬ entry.ttlSeconds ≤ Word.saturatingSub64 now entry.cachedAt := by
    rw [UInt64.le_iff_toNat_le, Word.toNat_saturatingSub64]
    exact Nat.not_le.mpr hage
  have hremaining : (Word.saturatingSub64 entry.ttlSeconds
      (Word.saturatingSub64 now entry.cachedAt)).toNat =
      entry.ttlSeconds.toNat - entry.ageAt now := by
    rw [Word.toNat_saturatingSub64, Word.toNat_saturatingSub64, ageAt]
  have hhundred : (100 : UInt64).toNat = 100 := by decide
  have hscore : entry.scoreAt now = (mul64 (Word.saturatingSub64 entry.ttlSeconds
      (Word.saturatingSub64 now entry.cachedAt)) 100 >>= fun scaled =>
        .ok (min (Word.saturatingSub32 (scaled / entry.ttlSeconds).toUInt32
          (if entry.needsRefresh then 10 else 0)) 100)) := by
    rw [scoreAt, stateAt_fresh hfresh, computeFreshnessScore, if_neg httl, if_neg hnotle]
    rfl
  rw [hscore]
  constructor
  · intro hfits
    rw [← hremaining, ← hhundred, ← succeeds_mul64] at hfits
    obtain ⟨scaled, hscaled⟩ := hfits
    have hvalue := mul64_eq_ok.mp hscaled
    rw [hremaining, hhundred] at hvalue
    rw [hscaled]
    refine ⟨_, rfl, ?_⟩
    have hshare := share_le entry.ttlSeconds.toNat (entry.ageAt now)
    rw [hvalue] at hshare
    rw [toNat_penalized, UInt64.toNat_toUInt32, UInt64.toNat_div, hvalue,
      Nat.mod_eq_of_lt (by omega)]
    omega
  · rintro hover ⟨score, h⟩
    obtain ⟨scaled, hscaled, -⟩ := bind_eq_ok.mp h
    have hfits := succeeds_mul64.mp ⟨scaled, hscaled⟩
    rw [hremaining, hhundred] at hfits
    exact hover hfits

end Score

/-- At a time, the score can be computed, is a percentage, and is positive exactly while the entry
may be served. -/
def WellScoredAt (entry : MetadataCache) (now : UInt64) : Prop :=
  ∃ score, entry.scoreAt now = .ok score ∧ score.toNat ≤ 100 ∧
    (0 < score.toNat ↔ entry.UsableAt now)

/-- The entry is expired, or has no time to live, or has enough of it left for a point that no
penalty takes away, and little enough for the scaled rest to be a word. -/
def ScorableAt (entry : MetadataCache) (now : UInt64) : Prop :=
  ¬ entry.UsableAt now ∨ entry.ttlSeconds = 0 ∨
    entry.ageAt now < entry.ttlSeconds.toNat ∧
      (entry.ttlSeconds.toNat - entry.ageAt now) * 100 < 2 ^ 64 ∧
      (entry.penalty + 1) * entry.ttlSeconds.toNat ≤
        (entry.ttlSeconds.toNat - entry.ageAt now) * 100

section Scorable

variable {entry : MetadataCache} {now earlier later : UInt64}

theorem penalty_le (entry : MetadataCache) : entry.penalty ≤ 10 := by
  unfold penalty
  split <;> decide

/-- Without a time to live at least forty points are left while the entry may be served. -/
theorem wellScoredAt_unlimited (httl : entry.ttlSeconds = 0) (husable : entry.UsableAt now) :
    entry.WellScoredAt now := by
  have hpenalty := entry.penalty_le
  obtain ⟨score, hscore, hfresh, hstale⟩ := scoreAt_unlimited httl husable
  refine ⟨score, hscore, ?_⟩
  by_cases h : entry.FreshAt now
  · rw [hfresh h]
    exact ⟨Nat.sub_le _ _, iff_of_true (by omega) husable⟩
  · rw [hstale h]
    exact ⟨by omega, iff_of_true (by omega) husable⟩

/-- Past its time to live an entry has no points, whether it may be served or not. -/
theorem wellScoredAt_outlived (httl : entry.ttlSeconds ≠ 0)
    (hage : entry.ttlSeconds.toNat ≤ entry.ageAt now) (husable : entry.UsableAt now) :
    ¬ entry.WellScoredAt now := by
  rintro ⟨score, hscore, -, hserved⟩
  rw [scoreAt_outlived httl hage] at hscore
  obtain rfl := Except.ok.inj hscore
  exact absurd (hserved.mpr husable) (by decide)

theorem wellScoredAt_young (hage : entry.ageAt now < entry.ttlSeconds.toNat) :
    entry.WellScoredAt now ↔ (entry.ttlSeconds.toNat - entry.ageAt now) * 100 < 2 ^ 64 ∧
      (entry.penalty + 1) * entry.ttlSeconds.toNat ≤
        (entry.ttlSeconds.toNat - entry.ageAt now) * 100 := by
  have husable : entry.UsableAt now := (freshAt_iff_ageAt.mpr (Nat.le_of_lt hage)).usable
  obtain ⟨hscaled, hover⟩ := scoreAt_young hage
  by_cases hfits : (entry.ttlSeconds.toNat - entry.ageAt now) * 100 < 2 ^ 64
  · obtain ⟨score, hscore, hvalue⟩ := hscaled hfits
    have hshare := share_le entry.ttlSeconds.toNat (entry.ageAt now)
    have hpoint : 0 < score.toNat ↔ (entry.penalty + 1) * entry.ttlSeconds.toNat ≤
        (entry.ttlSeconds.toNat - entry.ageAt now) * 100 := by
      rw [← Nat.le_div_iff_mul_le (by omega), hvalue]
      omega
    have hrange : score.toNat ≤ 100 := by omega
    constructor
    · rintro ⟨found, hfound, -, hserved⟩
      rw [hscore] at hfound
      obtain rfl := Except.ok.inj hfound
      exact ⟨hfits, hpoint.mp (hserved.mpr husable)⟩
    · rintro ⟨-, h⟩
      exact ⟨score, hscore, hrange, iff_of_true (hpoint.mpr h) husable⟩
  · apply iff_of_false
    · rintro ⟨score, hscore, -⟩
      exact hover hfits ⟨score, hscore⟩
    · exact fun h => hfits h.1

theorem wellScoredAt_iff : entry.WellScoredAt now ↔ entry.ScorableAt now := by
  by_cases husable : entry.UsableAt now
  · rw [ScorableAt, or_iff_right (not_not.mpr husable)]
    by_cases httl : entry.ttlSeconds = 0
    · exact iff_of_true (wellScoredAt_unlimited httl husable) (Or.inl httl)
    · rw [or_iff_right httl]
      by_cases hage : entry.ageAt now < entry.ttlSeconds.toNat
      · rw [wellScoredAt_young hage, and_iff_right hage]
      · exact iff_of_false (wellScoredAt_outlived httl (Nat.not_lt.mp hage) husable)
          fun h => hage h.1
  · refine iff_of_true ⟨0, scoreAt_expired husable, by decide, ?_⟩ (Or.inl husable)
    exact iff_of_false (by decide) husable

theorem UsableAt.of_le (h : entry.UsableAt later) (hle : earlier ≤ later) :
    entry.UsableAt earlier :=
  usableAt_iff_ageAt.mpr ((entry.ageAt_mono hle).trans (usableAt_iff_ageAt.mp h))

theorem FreshAt.of_le (h : entry.FreshAt later) (hle : earlier ≤ later) : entry.FreshAt earlier :=
  freshAt_iff_ageAt.mpr ((entry.ageAt_mono hle).trans (freshAt_iff_ageAt.mp h))

theorem scoreAt_mono_unlimited (hle : earlier ≤ later) (httl : entry.ttlSeconds = 0)
    (husable : entry.UsableAt later) {first second : UInt32}
    (hfirst : entry.scoreAt earlier = .ok first) (hsecond : entry.scoreAt later = .ok second) :
    second.toNat ≤ first.toNat := by
  obtain ⟨before, hbefore, hbeforeFresh, hbeforeStale⟩ :=
    scoreAt_unlimited httl (husable.of_le hle)
  obtain ⟨after, hafter, hafterFresh, hafterStale⟩ := scoreAt_unlimited httl husable
  rw [hbefore] at hfirst
  rw [hafter] at hsecond
  obtain rfl := Except.ok.inj hfirst
  obtain rfl := Except.ok.inj hsecond
  by_cases hfresh : entry.FreshAt later
  · rw [hafterFresh hfresh, hbeforeFresh (hfresh.of_le hle)]
  · rw [hafterStale hfresh]
    by_cases hearlierFresh : entry.FreshAt earlier
    · rw [hbeforeFresh hearlierFresh]
      omega
    · rw [hbeforeStale hearlierFresh]

/-- The entry was younger still, so more of its time was left. -/
theorem scoreAt_mono_young (hle : earlier ≤ later)
    (hyoung : entry.ageAt later < entry.ttlSeconds.toNat)
    (hfits : (entry.ttlSeconds.toNat - entry.ageAt later) * 100 < 2 ^ 64) {first second : UInt32}
    (hfirst : entry.scoreAt earlier = .ok first) (hsecond : entry.scoreAt later = .ok second) :
    second.toNat ≤ first.toNat := by
  have hage := entry.ageAt_mono hle
  have hyounger : entry.ageAt earlier < entry.ttlSeconds.toNat := by omega
  obtain ⟨after, hafter, hafterValue⟩ := (scoreAt_young hyoung).1 hfits
  obtain ⟨hscaled, hover⟩ := scoreAt_young hyounger
  by_cases hfitted : (entry.ttlSeconds.toNat - entry.ageAt earlier) * 100 < 2 ^ 64
  · obtain ⟨before, hbefore, hbeforeValue⟩ := hscaled hfitted
    rw [hbefore] at hfirst
    rw [hafter] at hsecond
    obtain rfl := Except.ok.inj hfirst
    obtain rfl := Except.ok.inj hsecond
    rw [hafterValue, hbeforeValue]
    apply Nat.sub_le_sub_right
    apply Nat.div_le_div_right
    exact Nat.mul_le_mul_right 100 (Nat.sub_le_sub_left hage _)
  · exact absurd ⟨first, hfirst⟩ (hover hfitted)

theorem scoreAt_mono (hle : earlier ≤ later) (hlater : entry.ScorableAt later) {first second : UInt32}
    (hfirst : entry.scoreAt earlier = .ok first) (hsecond : entry.scoreAt later = .ok second) :
    second.toNat ≤ first.toNat := by
  by_cases husable : entry.UsableAt later
  · rcases hlater with hexpired | httl | ⟨hyoung, hfits, -⟩
    · exact absurd husable hexpired
    · exact scoreAt_mono_unlimited hle httl husable hfirst hsecond
    · exact scoreAt_mono_young hle hyoung hfits hfirst hsecond
  · rw [scoreAt_expired husable] at hsecond
    obtain rfl := Except.ok.inj hsecond
    exact Nat.zero_le _

end Scorable

end MetadataCache

/-- What the freshness table promises of an entry at two times, wherever it is stored. -/
def ScoresWell (entry : MetadataCache) (earlier later : UInt64) : Prop :=
  ∀ env env' s anchor, env.timestamp = earlier → env'.timestamp = later →
    s.cache.metadata.get anchor = some entry →
    ∃ report report', getMetadataFreshness env s anchor = .ok report ∧
      getMetadataFreshness env' s anchor = .ok report' ∧
      report.freshnessScore ≤ 100 ∧ report'.freshnessScore ≤ report.freshnessScore ∧
      (0 < report.freshnessScore ↔
        getMetadataCacheState env s anchor = .fresh ∨ getMetadataCacheState env s anchor = .stale) ∧
      (0 < report'.freshnessScore ↔
        getMetadataCacheState env' s anchor = .fresh ∨
          getMetadataCacheState env' s anchor = .stale)

section Reports

variable {env : Env} {s : Storage} {anchor : Address} {entry : MetadataCache}

theorem score_getMetadataFreshness (env : Env)
    (hfile : s.cache.metadata.get anchor = some entry) :
    MetadataFreshnessReport.freshnessScore <$> getMetadataFreshness env s anchor =
      entry.scoreAt env.timestamp := by
  rw [getMetadataFreshness, hfile]
  change MetadataFreshnessReport.freshnessScore <$> (entry.scoreAt env.timestamp >>= _) = _
  cases entry.scoreAt env.timestamp with
  | error e => rfl
  | ok score => rfl

theorem servable_iff (hfile : s.cache.metadata.get anchor = some entry) :
    (getMetadataCacheState env s anchor = .fresh ∨ getMetadataCacheState env s anchor = .stale) ↔
      entry.UsableAt env.timestamp := by
  rw [cacheState_fresh_iff hfile, cacheState_stale_iff hfile]
  constructor
  · rintro (hfresh | ⟨-, husable⟩)
    · exact hfresh.usable
    · exact husable
  · intro husable
    by_cases hfresh : entry.FreshAt env.timestamp
    · exact Or.inl hfresh
    · exact Or.inr ⟨hfresh, husable⟩

end Reports

/-- The table is right about an entry at two times exactly when the entry is scorable at both. -/
theorem scoresWell_iff (entry : MetadataCache) {earlier later : UInt64} (hle : earlier ≤ later) :
    ScoresWell entry earlier later ↔ entry.ScorableAt earlier ∧ entry.ScorableAt later := by
  have hhundred : (100 : UInt32).toNat = 100 := by decide
  have hzero : (0 : UInt32).toNat = 0 := by decide
  constructor
  · intro h
    have hfile := get_holding entry
    obtain ⟨report, report', hreport, hreport', hrange, hmono, hserved, hserved'⟩ :=
      h ⟨earlier, 0, []⟩ ⟨later, 0, []⟩ (Storage.holding entry) Demo.alice rfl rfl hfile
    have hscore := score_getMetadataFreshness ⟨earlier, 0, []⟩ hfile
    have hscore' := score_getMetadataFreshness ⟨later, 0, []⟩ hfile
    rw [hreport] at hscore
    rw [hreport'] at hscore'
    rw [servable_iff hfile, UInt32.lt_iff_toNat_lt] at hserved hserved'
    rw [UInt32.le_iff_toNat_le] at hrange hmono
    rw [← MetadataCache.wellScoredAt_iff, ← MetadataCache.wellScoredAt_iff]
    exact ⟨⟨_, hscore.symm, hrange, hserved⟩, ⟨_, hscore'.symm, hmono.trans hrange, hserved'⟩⟩
  · rintro ⟨hearlier, hlater⟩ env env' s anchor rfl rfl hfile
    obtain ⟨first, hfirst, hrange, hserved⟩ := MetadataCache.wellScoredAt_iff.mpr hearlier
    obtain ⟨second, hsecond, -, hserved'⟩ := MetadataCache.wellScoredAt_iff.mpr hlater
    have hmono := MetadataCache.scoreAt_mono hle hlater hfirst hsecond
    rw [← score_getMetadataFreshness _ hfile] at hfirst hsecond
    obtain ⟨report, hreport, rfl⟩ := map_eq_ok.mp hfirst
    obtain ⟨report', hreport', rfl⟩ := map_eq_ok.mp hsecond
    refine ⟨report, report', hreport, hreport', UInt32.le_iff_toNat_le.mpr hrange,
      UInt32.le_iff_toNat_le.mpr hmono, ?_, ?_⟩
    · rw [servable_iff hfile, UInt32.lt_iff_toNat_lt]
      exact hserved
    · rw [servable_iff hfile, UInt32.lt_iff_toNat_lt]
      exact hserved'

/-- An entry that is new at the first time and expired at the second is scored as documented. -/
theorem new_entry_scored : (1000 : UInt64) ≤ 1400 ∧
    ScoresWell ⟨Demo.aliceMetadata, 1000, 60, 300, false⟩ 1000 1400 := by
  refine ⟨by decide, (scoresWell_iff _ (by decide)).mpr ⟨Or.inr (Or.inr (by decide)), Or.inl ?_⟩⟩
  rw [MetadataCache.usableAt_iff_ageAt]
  decide

/-- In its stale window an entry has the score of one that must not be served. -/
theorem stale_entry_unscored :
    ¬ ∀ entry earlier later, earlier ≤ later → ScoresWell entry earlier later := by
  intro h
  obtain ⟨_, report, _, hreport, _, _, _, hserved⟩ :=
    h ⟨Demo.aliceMetadata, 1000, 60, 300, false⟩ 1000 1100 (by decide) ⟨1000, 0, []⟩ ⟨1100, 0, []⟩
      (Storage.holding ⟨Demo.aliceMetadata, 1000, 60, 300, false⟩) Demo.alice rfl rfl
      (get_holding _)
  have hscore : report.freshnessScore = 0 := by
    have hstale : getMetadataFreshness ⟨1100, 0, []⟩
        (Storage.holding ⟨Demo.aliceMetadata, 1000, 60, 300, false⟩) Demo.alice =
        .ok ⟨Demo.alice, .stale, 100, true, 0⟩ := by decide
    rw [hstale] at hreport
    rw [← Except.ok.inj hreport]
  rw [hscore] at hserved
  exact absurd (hserved.mpr (Or.inr (by decide))) (by decide)

end AnchorKit
