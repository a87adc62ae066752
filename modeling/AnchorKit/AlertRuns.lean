import AnchorKit.AlertDedup
import AnchorKit.Library.Machine

/-!
# Which alerts are withheld

Suppressions and deliveries are remembered as long as they matter: a suppression until it expires or
is lifted, a delivery until its fingerprint has to make room for another one.
-/

namespace AnchorKit

open Machine

namespace AlertFilter

inductive Call
  | shouldDeliver (fingerprint : Text) (now : UInt64)
  | suppress (fingerprint : Text) (now expiresAt : UInt64) (reason : Text)
  | unsuppress (fingerprint : Text)
  | purgeExpired (now : UInt64)
deriving DecidableEq, Repr

def Call.time : Call → Option UInt64
  | .shouldDeliver _ now | .suppress _ now _ _ | .purgeExpired now => some now
  | .unsuppress _ => none

def perform (filter : AlertFilter) : Call → AlertFilter
  | .shouldDeliver fingerprint now => (filter.shouldDeliver fingerprint now).2
  | .suppress fingerprint now expiresAt reason =>
    { filter with suppressor := filter.suppressor.suppress fingerprint now expiresAt reason }
  | .unsuppress fingerprint =>
    { filter with suppressor := filter.suppressor.unsuppress fingerprint }
  | .purgeExpired now => { filter with suppressor := filter.suppressor.purgeExpired now }

def step (filter : AlertFilter) (c : Call) : Except Empty AlertFilter := .ok (filter.perform c)

abbrev Transition := Machine.Transition AlertFilter Call

def Delivers (u : Transition) (fingerprint : Text) (t₀ : UInt64) : Prop :=
  u.input = .shouldDeliver fingerprint t₀ ∧ (u.pre.shouldDeliver fingerprint t₀).1 = true

def Withholds (u : Transition) (fingerprint : Text) (now : UInt64) : Prop :=
  u.input = .shouldDeliver fingerprint now ∧ (u.pre.shouldDeliver fingerprint now).1 = false

/-- A suppression that would have expired by now is not made. -/
def Silences (u : Transition) (fingerprint : Text) (expiresAt : UInt64) : Prop :=
  ∃ now reason, u.input = .suppress fingerprint now expiresAt reason ∧ now < expiresAt

/-- The suppression that there was ends or is replaced. -/
def Lifts (u : Transition) (fingerprint : Text) : Prop :=
  u.input = .unsuppress fingerprint ∨ ∃ expiresAt, Silences u fingerprint expiresAt

def SuppressedUntil (past : List Transition) (fingerprint : Text) (expiresAt : UInt64) : Prop :=
  HoldsSince (Silences · fingerprint expiresAt) (Lifts · fingerprint) past

def LastDelivered (past : List Transition) (fingerprint : Text) (t₀ : UInt64) : Prop :=
  HoldsSince (Delivers · fingerprint t₀) (fun u => ∃ t, Delivers u fingerprint t) past

/-- An explicit suppression of the fingerprint has not expired. -/
def Suppressed (past : List Transition) (fingerprint : Text) (now : UInt64) : Prop :=
  ∃ expiresAt, SuppressedUntil past fingerprint expiresAt ∧ now < expiresAt

/-- The fingerprint was delivered less than a window before. -/
def RecentlyDelivered (windowSeconds : UInt64) (past : List Transition) (fingerprint : Text)
    (now : UInt64) : Prop :=
  ∃ u ∈ past, ∃ t₀, Delivers u fingerprint t₀ ∧ t₀ ≤ now ∧
    now.toNat - t₀.toNat < windowSeconds.toNat

/-- Alerts are withheld for a reason, always while the delivery is tracked, and of the tracked
fingerprints only the one that was delivered first is forgotten. -/
structure WithholdsRightly (config : DedupConfig) (past : List Transition) (u : Transition) :
    Prop where
  reason (fingerprint : Text) (now : UInt64) (h : Withholds u fingerprint now) :
    Suppressed past fingerprint now ∨
      RecentlyDelivered config.windowSeconds past fingerprint now
  exact (hmax : config.maxKeys = 0) (fingerprint : Text) (now : UInt64)
    (h : u.input = .shouldDeliver fingerprint now) :
    Withholds u fingerprint now ↔ Suppressed past fingerprint now ∨
      RecentlyDelivered config.windowSeconds past fingerprint now
  tracked (fingerprint : Text) (now : UInt64) (h : u.input = .shouldDeliver fingerprint now) :
    Withholds u fingerprint now ↔ Suppressed past fingerprint now ∨
      ∃ t₀, u.pre.dedup.lastFiredAt fingerprint = some t₀ ∧
        now.toNat - t₀.toNat < config.windowSeconds.toNat
  remembered (hwindow : config.windowSeconds ≠ 0) (fingerprint : Text) (now : UInt64)
    (h : Delivers u fingerprint now) : u.post.dedup.lastFiredAt fingerprint = some now
  tracked_le (hmax : 0 < config.maxKeys) : u.post.dedup.lastFired.size ≤ config.maxKeys
  dated (fingerprint : Text) (t₀ : UInt64) (h : u.pre.dedup.lastFiredAt fingerprint = some t₀) :
    LastDelivered past fingerprint t₀
  oldest (fingerprint fingerprint' : Text) (t₀ t₁ : UInt64)
    (hpre : u.pre.dedup.lastFiredAt fingerprint = some t₀)
    (hpost : u.post.dedup.lastFiredAt fingerprint = none)
    (h : u.pre.dedup.lastFiredAt fingerprint' = some t₁) : t₀ ≤ t₁

/-! ### Suppressions -/

section Steps

variable {filter : AlertFilter} {past : List Transition} {u : Transition} {fingerprint : Text}
  {now t₀ expiresAt : UInt64} {config : DedupConfig}

def UpTo (past : List Transition) (now : UInt64) : Prop := ∀ v ∈ past, ∀ t ∈ v.input.time, t ≤ now

theorem upTo_snoc : UpTo (past ++ [u]) now ↔ UpTo past now ∧ ∀ t ∈ u.input.time, t ≤ now :=
  forall_mem_snoc

/-- The entries are the suppressions, up to those that have expired. -/
structure Silenced (past : List Transition) (suppressor : AlertSuppressor) : Prop where
  sound (fingerprint : Text) (e : SuppressedEntry) (h : suppressor.entries[fingerprint]? = some e) :
    e.fingerprint = fingerprint ∧ SuppressedUntil past fingerprint e.expiresAt
  complete (fingerprint : Text) (expiresAt now : UInt64)
    (h : SuppressedUntil past fingerprint expiresAt) (hnow : UpTo past now)
    (hlive : now < expiresAt) :
    ∃ e, suppressor.entries[fingerprint]? = some e ∧ e.expiresAt = expiresAt

theorem silenced_new : Silenced [] .new where
  sound := by
    intro fingerprint e h
    simp [AlertSuppressor.new] at h
  complete := fun _ _ _ h => absurd h not_holdsSince_nil

/-- A call that lifts nothing may let expired entries go. -/
theorem Silenced.of_sheds {suppressor suppressor' : AlertSuppressor} (h : Silenced past suppressor)
    (hlifts : ∀ fingerprint, ¬ Lifts u fingerprint)
    (hsub : ∀ (fingerprint : Text) e, suppressor'.entries[fingerprint]? = some e →
      suppressor.entries[fingerprint]? = some e)
    (hlive : ∀ (fingerprint : Text) e, suppressor.entries[fingerprint]? = some e →
      (∀ t ∈ u.input.time, t < e.expiresAt) → suppressor'.entries[fingerprint]? = some e) :
    Silenced (past ++ [u]) suppressor' where
  sound := by
    intro fingerprint e hget
    obtain ⟨hkey, huntil⟩ := h.sound fingerprint e (hsub fingerprint e hget)
    exact ⟨hkey, holdsSince_snoc.mpr (Or.inr ⟨huntil, hlifts fingerprint⟩)⟩
  complete := by
    intro fingerprint expiresAt now huntil hnow hexpires
    obtain ⟨hpast, hlast⟩ := upTo_snoc.mp hnow
    rcases holdsSince_snoc.mp huntil with hsilences | ⟨huntil, _⟩
    · exact absurd (Or.inr ⟨expiresAt, hsilences⟩) (hlifts fingerprint)
    · obtain ⟨e, hget, rfl⟩ := h.complete fingerprint expiresAt now huntil hpast hexpires
      refine ⟨e, hlive fingerprint e hget fun t ht => ?_, rfl⟩
      exact UInt64.lt_of_le_of_lt (hlast t ht) hexpires

theorem Silenced.isSuppressed_iff {suppressor : AlertSuppressor} (h : Silenced past suppressor)
    (hnow : UpTo past now) :
    (suppressor.isSuppressed fingerprint now).1 = true ↔ Suppressed past fingerprint now := by
  unfold AlertSuppressor.isSuppressed
  constructor
  · intro hsuppressed
    cases hget : suppressor.entries[fingerprint]? with
    | none =>
      rw [hget] at hsuppressed
      cases hsuppressed
    | some e =>
      rw [hget] at hsuppressed
      dsimp only at hsuppressed
      split at hsuppressed
      · cases hsuppressed
      · rename_i hlive
        exact ⟨e.expiresAt, (h.sound fingerprint e hget).2, UInt64.not_le.mp hlive⟩
  · rintro ⟨expiresAt, huntil, hlive⟩
    obtain ⟨e, hget, rfl⟩ := h.complete fingerprint expiresAt now huntil hnow hlive
    rw [hget]
    dsimp only
    rw [if_neg (UInt64.not_le.mpr hlive)]

theorem Silenced.isSuppressed {suppressor : AlertSuppressor} (h : Silenced past suppressor)
    (hinput : u.input = .shouldDeliver fingerprint now) :
    Silenced (past ++ [u]) (suppressor.isSuppressed fingerprint now).2 := by
  have hlifts (fingerprint : Text) : ¬ Lifts u fingerprint := by simp [Lifts, Silences, hinput]
  unfold AlertSuppressor.isSuppressed
  cases hget : suppressor.entries[fingerprint]? with
  | none => exact h.of_sheds hlifts (fun _ _ h => h) (fun _ _ h _ => h)
  | some e =>
    dsimp only
    split
    · rename_i hexpired
      have hkey := (h.sound fingerprint e hget).1
      refine h.of_sheds hlifts ?_ ?_
      · intro k e' hk
        rw [OrderedMap.getElem?_erase] at hk
        split at hk
        · cases hk
        · exact hk
      · intro k e' hk hlive
        rw [OrderedMap.getElem?_erase, if_neg]
        · exact hk
        · rw [hkey]
          rintro rfl
          obtain rfl := Option.some.inj (hget.symm.trans hk)
          have htime := hlive now (by rw [hinput]; rfl)
          exact absurd hexpired (UInt64.not_le.mpr htime)
    · exact h.of_sheds hlifts (fun _ _ h => h) (fun _ _ h _ => h)

theorem Silenced.purgeExpired {suppressor : AlertSuppressor} (h : Silenced past suppressor)
    (hinput : u.input = .purgeExpired now) :
    Silenced (past ++ [u]) (suppressor.purgeExpired now) := by
  have hlifts (fingerprint : Text) : ¬ Lifts u fingerprint := by simp [Lifts, Silences, hinput]
  unfold AlertSuppressor.purgeExpired
  refine h.of_sheds hlifts ?_ ?_
  · intro k e hk
    rw [Std.TreeMap.getElem?_filter', Option.filter_eq_some_iff] at hk
    exact hk.1
  · intro k e hk hlive
    rw [Std.TreeMap.getElem?_filter', Option.filter_eq_some_iff]
    exact ⟨hk, decide_eq_true (hlive now (by rw [hinput]; rfl))⟩

theorem Silenced.suppress {suppressor : AlertSuppressor} {reason : Text}
    (h : Silenced past suppressor)
    (hinput : u.input = .suppress fingerprint now expiresAt reason) :
    Silenced (past ++ [u]) (suppressor.suppress fingerprint now expiresAt reason) := by
  have hsilences (k : Text) (deadline : UInt64) :
      Silences u k deadline ↔ fingerprint = k ∧ expiresAt = deadline ∧ now < expiresAt := by
    unfold Silences
    rw [hinput]
    constructor
    · rintro ⟨_, _, heq, hlt⟩
      obtain ⟨rfl, rfl, rfl, rfl⟩ := Call.suppress.inj heq
      exact ⟨rfl, rfl, hlt⟩
    · rintro ⟨rfl, rfl, hlt⟩
      exact ⟨_, _, rfl, hlt⟩
  have hlifts (k : Text) : Lifts u k ↔ fingerprint = k ∧ now < expiresAt := by
    simp [Lifts, hinput, hsilences]
  unfold AlertSuppressor.suppress
  split
  · rename_i hexpired
    refine h.of_sheds (fun k hk => ?_) (fun _ _ h => h) (fun _ _ h _ => h)
    exact absurd hexpired (UInt64.not_le.mpr ((hlifts k).mp hk).2)
  · rename_i hlive
    have hlt := UInt64.not_le.mp hlive
    refine ⟨?_, ?_⟩
    · intro k e hget
      rw [OrderedMap.getElem?_insert] at hget
      split at hget
      · rename_i hkey
        obtain rfl := hkey
        obtain rfl := Option.some.inj hget
        exact ⟨rfl, holdsSince_snoc.mpr (Or.inl ((hsilences _ _).mpr ⟨rfl, rfl, hlt⟩))⟩
      · rename_i hkey
        obtain ⟨hsame, huntil⟩ := h.sound k e hget
        refine ⟨hsame, holdsSince_snoc.mpr (Or.inr ⟨huntil, ?_⟩)⟩
        exact fun hk => hkey ((hlifts k).mp hk).1
    · intro k deadline now' huntil hnow hexpires
      rw [OrderedMap.getElem?_insert]
      rcases holdsSince_snoc.mp huntil with hk | ⟨huntil, hk⟩
      · obtain ⟨rfl, rfl, _⟩ := (hsilences _ _).mp hk
        rw [if_pos rfl]
        exact ⟨_, rfl, rfl⟩
      · rw [if_neg]
        · exact h.complete k deadline now' huntil (upTo_snoc.mp hnow).1 hexpires
        · exact fun heq => hk ((hlifts k).mpr ⟨heq, hlt⟩)

theorem Silenced.unsuppress {suppressor : AlertSuppressor} (h : Silenced past suppressor)
    (hinput : u.input = .unsuppress fingerprint) :
    Silenced (past ++ [u]) (suppressor.unsuppress fingerprint) := by
  have hsilences (k : Text) (deadline : UInt64) : ¬ Silences u k deadline := by
    simp [Silences, hinput]
  have hlifts (k : Text) : Lifts u k ↔ fingerprint = k := by simp [Lifts, hinput, hsilences]
  unfold AlertSuppressor.unsuppress
  refine ⟨?_, ?_⟩
  · intro k e hget
    rw [OrderedMap.getElem?_erase] at hget
    split at hget
    · cases hget
    · rename_i hkey
      rw [← hlifts] at hkey
      obtain ⟨hsame, huntil⟩ := h.sound k e hget
      exact ⟨hsame, holdsSince_snoc.mpr (Or.inr ⟨huntil, hkey⟩)⟩
  · intro k deadline now' huntil hnow hexpires
    rcases holdsSince_snoc.mp huntil with hk | ⟨huntil, hk⟩
    · exact absurd hk (hsilences k deadline)
    · rw [OrderedMap.getElem?_erase, if_neg]
      · exact h.complete k deadline now' huntil (upTo_snoc.mp hnow).1 hexpires
      · rwa [← hlifts]

/-! ### Deliveries -/

theorem shouldDeliver_eq : filter.shouldDeliver fingerprint now =
    if (filter.suppressor.isSuppressed fingerprint now).1 then
      (false, { filter with suppressor := (filter.suppressor.isSuppressed fingerprint now).2 })
    else
      ((filter.dedup.shouldFire fingerprint now).1,
        ⟨(filter.dedup.shouldFire fingerprint now).2,
          (filter.suppressor.isSuppressed fingerprint now).2⟩) := by
  unfold shouldDeliver
  cases filter.suppressor.isSuppressed fingerprint now with
  | mk suppressed suppressor =>
    cases suppressed with
    | true => rfl
    | false => rfl

/-- The fingerprints are tracked with their last deliveries; without a limit all of them are. -/
structure Fired (config : DedupConfig) (past : List Transition) (dedup : AlertDeduplicator) :
    Prop where
  config_eq : dedup.config = config
  idle (hwindow : config.windowSeconds = 0) (fingerprint : Text) :
    dedup.lastFiredAt fingerprint = none
  dated (fingerprint : Text) (t₀ : UInt64) (h : dedup.lastFiredAt fingerprint = some t₀) :
    LastDelivered past fingerprint t₀
  complete (hmax : config.maxKeys = 0) (hwindow : config.windowSeconds ≠ 0) (u : Transition)
    (hu : u ∈ past) (fingerprint : Text) (t : UInt64) (h : Delivers u fingerprint t) :
    ∃ t₀, dedup.lastFiredAt fingerprint = some t₀ ∧ t ≤ t₀
  size_le (hmax : 0 < config.maxKeys) : dedup.lastFired.size ≤ config.maxKeys

theorem fired_new (config : DedupConfig) : Fired config [] (.new config) where
  config_eq := rfl
  idle := by
    intro _ fingerprint
    simp [AlertDeduplicator.new, AlertDeduplicator.lastFiredAt]
  dated := by
    intro fingerprint t₀ h
    simp [AlertDeduplicator.new, AlertDeduplicator.lastFiredAt] at h
  complete := by
    intro _ _ u hu
    cases hu
  size_le _ := Nat.zero_le _

section Dedup

variable {dedup dedup' : AlertDeduplicator}

/-- A call that delivers nothing changes no time of a delivery. -/
theorem Fired.of_silent (h : Fired config past dedup) (hnot : ∀ k t, ¬ Delivers u k t)
    (hconfig : dedup'.config = dedup.config)
    (hsame : ∀ k, dedup'.lastFiredAt k = dedup.lastFiredAt k)
    (hsize : dedup'.lastFired.size ≤ dedup.lastFired.size) : Fired config (past ++ [u]) dedup' where
  config_eq := hconfig.trans h.config_eq
  idle hwindow k := (hsame k).trans (h.idle hwindow k)
  dated := by
    intro k t₀ hk
    rw [hsame] at hk
    exact holdsSince_snoc.mpr (Or.inr ⟨h.dated k t₀ hk, fun ⟨t, ht⟩ => hnot k t ht⟩)
  complete := by
    intro hmax hwindow v hv k t hdelivers
    rw [hsame]
    rcases mem_snoc.mp hv with hv | rfl
    · exact h.complete hmax hwindow v hv k t hdelivers
    · exact absurd hdelivers (hnot k t)
  size_le hmax := hsize.trans (h.size_le hmax)

/-- A delivery is tracked from then on, in the place of what had to make room for it. -/
theorem Fired.of_fires (h : Fired config past dedup)
    (hdelivers : ∀ k t, Delivers u k t ↔ fingerprint = k ∧ now = t)
    (hwindow : config.windowSeconds ≠ 0)
    (hlate : ∀ t, dedup.lastFiredAt fingerprint = some t → t < now) :
    Fired config (past ++ [u]) { dedup with
      lastFired := (dedup.roomFor fingerprint).insert fingerprint (now, 0) } where
  config_eq := h.config_eq
  idle := fun hzero => absurd hzero hwindow
  dated := by
    intro k t₀ hk
    rw [AlertDeduplicator.lastFiredAt, OrderedMap.getElem?_insert] at hk
    split at hk
    · rename_i heq
      obtain rfl := heq
      obtain rfl := Option.some.inj hk
      exact holdsSince_snoc.mpr (Or.inl ((hdelivers _ _).mpr ⟨rfl, rfl⟩))
    · rename_i hne
      obtain ⟨e, he, rfl⟩ := Option.map_eq_some_iff.mp hk
      have hpre : dedup.lastFiredAt k = some e.1 := by
        rw [AlertDeduplicator.lastFiredAt, AlertDeduplicator.roomFor_sub he]
        rfl
      refine holdsSince_snoc.mpr (Or.inr ⟨h.dated k _ hpre, ?_⟩)
      rintro ⟨t, ht⟩
      exact hne ((hdelivers _ _).mp ht).1
  complete := by
    intro hmax _ v hv k t hv'
    have hroom : dedup.roomFor fingerprint = dedup.lastFired := by
      rw [AlertDeduplicator.roomFor, AlertDeduplicator.makeRoom_of_maxKeys (h.config_eq ▸ hmax),
        ite_self]
    rw [AlertDeduplicator.lastFiredAt, OrderedMap.getElem?_insert]
    split
    · rename_i heq
      obtain rfl := heq
      refine ⟨now, rfl, ?_⟩
      rcases mem_snoc.mp hv with hv | rfl
      · obtain ⟨t₀, ht₀, hle⟩ := h.complete hmax hwindow v hv _ t hv'
        exact UInt64.le_trans hle (UInt64.le_of_lt (hlate t₀ ht₀))
      · rw [((hdelivers _ _).mp hv').2]
        exact UInt64.le_refl _
    · rename_i hne
      rcases mem_snoc.mp hv with hv | rfl
      · rw [hroom]
        exact h.complete hmax hwindow v hv k t hv'
      · exact absurd ((hdelivers _ _).mp hv').1 hne
  size_le := by
    intro hmax
    rw [← h.config_eq] at hmax
    have hsize := h.size_le (h.config_eq ▸ hmax)
    rw [← h.config_eq] at hsize ⊢
    exact AlertDeduplicator.size_insert_roomFor_le hmax hsize

/-- What `should_fire` leaves tracks the delivery, if there was one. -/
theorem Fired.shouldFire (h : Fired config past dedup)
    (hdelivers : ∀ k t, Delivers u k t ↔
      (dedup.shouldFire fingerprint now).1 = true ∧ fingerprint = k ∧ now = t) :
    Fired config (past ++ [u]) (dedup.shouldFire fingerprint now).2 := by
  rcases dedup.shouldFire_cases fingerprint now with
    ⟨hwindow, hresult⟩ | ⟨firedAt, count, log, hget, _, hresult⟩ | ⟨hwindow, hlate, hresult⟩
  · rw [hresult]
    rw [h.config_eq] at hwindow
    have hidle := h.idle hwindow
    refine ⟨h.config_eq, h.idle, ?_, fun _ hpos => absurd hwindow hpos, h.size_le⟩
    intro k t₀ hk
    rw [hidle] at hk
    cases hk
  · rw [hresult]
    have hnot (k : Text) (t : UInt64) : ¬ Delivers u k t := by
      rw [hdelivers, hresult]
      simp
    refine h.of_silent hnot rfl ?_ ?_
    · intro k
      simp only [AlertDeduplicator.lastFiredAt, OrderedMap.getElem?_insert]
      split
      · rename_i heq
        obtain rfl := heq
        rw [hget]
        rfl
      · rfl
    · have htracked : fingerprint ∈ dedup.lastFired := by
        rw [Std.TreeMap.mem_iff_isSome_getElem?, hget]
        rfl
      dsimp only
      rw [Std.TreeMap.size_insert, if_pos (Std.TreeMap.contains_iff_mem.mpr htracked)]
  · rw [h.config_eq] at hwindow hlate
    have hpositive : 0 < config.windowSeconds.toNat :=
      Nat.pos_of_ne_zero fun hzero => hwindow (UInt64.toNat_inj.mp hzero)
    have honly (k : Text) (t : UInt64) : Delivers u k t ↔ fingerprint = k ∧ now = t := by
      rw [hdelivers, hresult, and_iff_right rfl]
    rw [hresult]
    refine h.of_fires honly hwindow fun t ht => ?_
    obtain ⟨e, he, rfl⟩ := Option.map_eq_some_iff.mp ht
    have hle := hlate e he
    rw [UInt64.lt_iff_toNat_lt]
    omega

end Dedup

/-! ### The filter -/

structure Tracks (config : DedupConfig) (past : List Transition) (filter : AlertFilter) : Prop where
  silenced : Silenced past filter.suppressor
  fired : Fired config past filter.dedup

theorem tracks_of_step (hstep : step u.pre u.input = .ok u.post) (h : Tracks config past u.pre) :
    Tracks config (past ++ [u]) u.post := by
  obtain ⟨hsilenced, hfired⟩ := h
  have hpost := Except.ok.inj hstep
  rw [← hpost]
  have hquiet (hother : ∀ k t, u.input ≠ .shouldDeliver k t) :
      Fired config (past ++ [u]) u.pre.dedup :=
    hfired.of_silent (fun k t hdelivers => hother k t hdelivers.1) rfl (fun _ => rfl) le_rfl
  cases hinput : u.input with
  | suppress fingerprint now expiresAt reason =>
    exact ⟨hsilenced.suppress hinput, hquiet (by simp [hinput])⟩
  | unsuppress fingerprint => exact ⟨hsilenced.unsuppress hinput, hquiet (by simp [hinput])⟩
  | purgeExpired now => exact ⟨hsilenced.purgeExpired hinput, hquiet (by simp [hinput])⟩
  | shouldDeliver fingerprint now =>
    have hdelivers (k : Text) (t : UInt64) : Delivers u k t ↔
        (u.pre.shouldDeliver fingerprint now).1 = true ∧ fingerprint = k ∧ now = t := by
      unfold Delivers
      rw [hinput]
      constructor
      · rintro ⟨heq, htrue⟩
        obtain ⟨rfl, rfl⟩ := Call.shouldDeliver.inj heq
        exact ⟨htrue, rfl, rfl⟩
      · rintro ⟨htrue, rfl, rfl⟩
        exact ⟨rfl, htrue⟩
    rw [perform, shouldDeliver_eq]
    rw [shouldDeliver_eq] at hdelivers
    cases hsuppressed : (u.pre.suppressor.isSuppressed fingerprint now).1 with
    | true =>
      rw [hsuppressed] at hdelivers
      refine ⟨hsilenced.isSuppressed hinput, hfired.of_silent ?_ rfl (fun _ => rfl) le_rfl⟩
      intro k t
      rw [hdelivers]
      simp
    | false =>
      rw [hsuppressed] at hdelivers
      exact ⟨hsilenced.isSuppressed hinput, hfired.shouldFire hdelivers⟩

theorem withholds_iff (hinput : u.input = .shouldDeliver fingerprint now) :
    Withholds u fingerprint now ↔
      (u.pre.suppressor.isSuppressed fingerprint now).1 = true ∨
        (u.pre.dedup.shouldFire fingerprint now).1 = false := by
  rw [Withholds, and_iff_right hinput, shouldDeliver_eq]
  cases (u.pre.suppressor.isSuppressed fingerprint now).1 with
  | true => simp
  | false => simp

/-- An alert that is not fired was delivered a short time before. -/
theorem Fired.recentlyDelivered {dedup : AlertDeduplicator} (h : Fired config past dedup)
    (hnow : UpTo past now) (hwithheld : (dedup.shouldFire fingerprint now).1 = false) :
    RecentlyDelivered config.windowSeconds past fingerprint now := by
  obtain ⟨firedAt, hlast, hrecent⟩ := AlertDeduplicator.shouldFire_eq_false_iff.mp hwithheld
  obtain ⟨u, hu, hdelivers⟩ := (h.dated fingerprint firedAt hlast).exists_mem
  refine ⟨u, hu, firedAt, hdelivers, hnow u hu firedAt ?_, h.config_eq ▸ hrecent⟩
  rw [hdelivers.1]
  rfl

/-- Without a limit no delivery is forgotten within its window. -/
theorem Fired.not_fires {dedup : AlertDeduplicator} (h : Fired config past dedup)
    (hmax : config.maxKeys = 0)
    (hrecent : RecentlyDelivered config.windowSeconds past fingerprint now) :
    (dedup.shouldFire fingerprint now).1 = false := by
  obtain ⟨u, hu, t, hdelivers, _, hlt⟩ := hrecent
  have hwindow : config.windowSeconds ≠ 0 := by
    intro hzero
    rw [hzero] at hlt
    exact Nat.not_lt_zero _ hlt
  obtain ⟨t₀, hlast, hle⟩ := h.complete hmax hwindow u hu fingerprint t hdelivers
  refine AlertDeduplicator.shouldFire_eq_false_iff.mpr ⟨t₀, hlast, ?_⟩
  rw [h.config_eq]
  rw [UInt64.le_iff_toNat_le] at hle
  omega

theorem lastFiredAt_of_shouldFire {dedup : AlertDeduplicator}
    (hwindow : dedup.config.windowSeconds ≠ 0)
    (hfires : (dedup.shouldFire fingerprint now).1 = true) :
    (dedup.shouldFire fingerprint now).2.lastFiredAt fingerprint = some now := by
  rcases dedup.shouldFire_cases fingerprint now with
    ⟨hzero, _⟩ | ⟨_, _, _, _, _, hresult⟩ | ⟨_, _, hresult⟩
  · exact absurd hzero hwindow
  · rw [hresult] at hfires
    cases hfires
  · rw [hresult, AlertDeduplicator.lastFiredAt, OrderedMap.getElem?_insert, if_pos rfl]
    rfl

theorem remembered_of_step (hstep : step u.pre u.input = .ok u.post)
    (hwindow : u.pre.dedup.config.windowSeconds ≠ 0) (h : Delivers u fingerprint now) :
    u.post.dedup.lastFiredAt fingerprint = some now := by
  obtain ⟨hinput, hdelivers⟩ := h
  rw [← Except.ok.inj hstep, hinput, perform]
  rw [shouldDeliver_eq] at hdelivers ⊢
  split at hdelivers
  · cases hdelivers
  · rename_i hsuppressed
    rw [if_neg hsuppressed]
    exact lastFiredAt_of_shouldFire hwindow hdelivers

/-- A fingerprint that is no longer tracked made room for a new one. -/
theorem oldest_of_step (hstep : step u.pre u.input = .ok u.post)
    {k k' : Text} {t t' : UInt64} (hpre : u.pre.dedup.lastFiredAt k = some t)
    (hpost : u.post.dedup.lastFiredAt k = none) (h : u.pre.dedup.lastFiredAt k' = some t') :
    t ≤ t' := by
  rw [← Except.ok.inj hstep] at hpost
  have hkept : u.pre.dedup.lastFiredAt k ≠ none := by
    rw [hpre]
    simp
  cases hinput : u.input with
  | suppress fingerprint now expiresAt reason =>
    rw [hinput] at hpost
    exact absurd hpost hkept
  | unsuppress fingerprint =>
    rw [hinput] at hpost
    exact absurd hpost hkept
  | purgeExpired now =>
    rw [hinput] at hpost
    exact absurd hpost hkept
  | shouldDeliver fingerprint now =>
    rw [hinput, perform, shouldDeliver_eq] at hpost
    split at hpost
    · exact absurd hpost hkept
    · obtain ⟨e, he, rfl⟩ := Option.map_eq_some_iff.mp hpre
      obtain ⟨e', he', rfl⟩ := Option.map_eq_some_iff.mp h
      rw [AlertDeduplicator.lastFiredAt, Option.map_eq_none_iff] at hpost
      rcases u.pre.dedup.shouldFire_cases fingerprint now with
        ⟨_, hresult⟩ | ⟨_, _, _, _, _, hresult⟩ | ⟨_, _, hresult⟩
      · rw [hresult, he] at hpost
        cases hpost
      · rw [hresult, OrderedMap.getElem?_insert] at hpost
        split at hpost
        · cases hpost
        · rw [he] at hpost
          cases hpost
      · rw [hresult, OrderedMap.getElem?_insert] at hpost
        split at hpost
        · cases hpost
        · exact (AlertDeduplicator.oldest_of_roomFor he hpost he').2

end Steps

theorem tracks_run (config : DedupConfig) (calls : List Call) :
    Tracks config (transitions step (new config) calls) (Machine.run step (new config) calls) :=
  history_invariant step (Tracks config) (fun _ => True) ⟨silenced_new, fired_new config⟩
    (fun _ _ hstep hpre _ => tracks_of_step hstep hpre) calls (fun _ _ => trivial)

/-- Under a non-decreasing clock no alert is withheld but for a suppression that has not expired or
a delivery within the window, without a limit each of these withholds it, and a limit is kept by
forgetting the fingerprint that was delivered first. -/
theorem withholds_rightly (config : DedupConfig) (calls : List Call)
    (hclock : (calls.filterMap Call.time).Pairwise (· ≤ ·)) :
    AtEachStep (WithholdsRightly config) (transitions step (new config) calls) := by
  intro past u after hsplit
  obtain ⟨js, ks, _, hpre, hpast⟩ := exists_prefix_of_transitions_eq _ hsplit
  have htracks := tracks_run config js
  rw [hpre, hpast] at htracks
  have hu : u ∈ transitions step (new config) calls := by simp [hsplit]
  have hstep := step_of_mem_transitions step hu
  have hupTo (now : UInt64) (hnow : u.input.time = some now) : UpTo past now := by
    intro v hv t ht
    exact atEachStep_of_pairwise step (s := new config) (List.pairwise_filterMap.mp hclock) past u
      after hsplit v hv t ht now hnow
  refine ⟨?_, ?_, ?_, ?_, (tracks_of_step hstep htracks).fired.size_le, htracks.fired.dated, ?_⟩
  · intro fingerprint now hwithholds
    have hnow := hupTo now (by rw [hwithholds.1]; rfl)
    rcases (withholds_iff hwithholds.1).mp hwithholds with hsuppressed | hwithheld
    · exact Or.inl ((htracks.silenced.isSuppressed_iff hnow).mp hsuppressed)
    · exact Or.inr (htracks.fired.recentlyDelivered hnow hwithheld)
  · intro hmax fingerprint now hinput
    have hnow := hupTo now (by rw [hinput]; rfl)
    rw [withholds_iff hinput, htracks.silenced.isSuppressed_iff hnow]
    exact or_congr_right ⟨htracks.fired.recentlyDelivered hnow, htracks.fired.not_fires hmax⟩
  · intro fingerprint now hinput
    rw [withholds_iff hinput, htracks.silenced.isSuppressed_iff (hupTo now (by rw [hinput]; rfl)),
      AlertDeduplicator.shouldFire_eq_false_iff, htracks.fired.config_eq]
  · intro hwindow fingerprint now
    exact remembered_of_step hstep (htracks.fired.config_eq.symm ▸ hwindow)
  · exact fun fingerprint fingerprint' t₀ t₁ => oldest_of_step hstep

/-- The first delivery is withheld within its window. Then `k2` takes its place, a suppression ends,
and `k1` is delivered before its window is over. -/
theorem withholds_rightly_two_deliveries :
    AtEachStep (WithholdsRightly ⟨300, 1⟩)
      (transitions step (new ⟨300, 1⟩)
        [.shouldDeliver "k1".toList 1000, .suppress "k2".toList 1000 1200 "maintenance".toList,
          .shouldDeliver "k2".toList 1100, .shouldDeliver "k1".toList 1150,
          .shouldDeliver "k2".toList 1200, .shouldDeliver "k1".toList 1250]) :=
  withholds_rightly _ _ (by decide)

end AlertFilter

end AnchorKit
