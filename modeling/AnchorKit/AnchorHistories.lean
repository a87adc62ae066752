import AnchorKit.RoutingGates

/-!
# Histories of anchor metadata

Setting the metadata of an anchor appends a version to its history and makes it active; the two
switches of its activity write the current record only. The history therefore tells the current
metadata, and which anchors are active, unless a deactivation was the last thing to happen to an
anchor.
-/

namespace AnchorKit

open Fallible

/-!
## Activity of anchors

A deactivated anchor is out of routing until its metadata is set or it is reactivated.
-/

def AnchorStore.activity (st : AnchorStore) (anchor : Address) : Option Bool :=
  (st.routing.get anchor).map RoutingAnchorMeta.isActive

/-- The anchor is reported inactive, and no routing call returns a quote of it. -/
structure Inactive (host : Host) (s : Storage) (anchor : Address) : Prop where
  reported : ∃ routing, getAnchorMetadata s anchor = .ok routing ∧ routing.isActive = false
  unlisted : anchor ∉ listActiveAnchors s
  unrouted : ∀ env c, ∀ quote ∈ routedQuotes host env s c, quote.anchor ≠ anchor

section Activity

variable {host : Host} {s : Storage} {st st' : AnchorStore} {c : Call} {anchor : Address}

theorem activity_eq_some {flag : Bool} : st.activity anchor = some flag ↔
    ∃ routing, st.routing.get anchor = some routing ∧ routing.isActive = flag := by
  rw [AnchorStore.activity, Option.map_eq_some_iff]

/-- A call changes the flag of the anchor it writes, and no other. -/
theorem activity_of_step (anchor : Address) (hstep : AnchorStep st st' c) :
    (∃ flag, c.switchesActivity = some (anchor, flag) ∧ st'.activity anchor = some flag) ∨
      st'.activity anchor = st.activity anchor := by
  cases hstep with
  | keep _ hrouting _ =>
    refine Or.inr ?_
    rw [AnchorStore.activity, hrouting, AnchorStore.activity]
  | @write written routing hc hrouting _ _ =>
    unfold AnchorStore.activity
    rw [hrouting]
    by_cases heq : anchor = written
    · subst heq
      rw [KeyedStore.get_set_self, Option.map_some]
      exact Or.inl ⟨routing.isActive, hc, rfl⟩
    · rw [KeyedStore.get_set_of_ne _ _ heq]
      exact Or.inr rfl

theorem activity_of_switch {flag : Bool} (hstep : AnchorStep st st' c)
    (hc : c.switchesActivity = some (anchor, flag)) : st'.activity anchor = some flag := by
  cases hstep with
  | keep hnone _ _ =>
    rw [hnone] at hc
    cases hc
  | @write written routing hwrites hrouting _ _ =>
    rw [hwrites] at hc
    obtain ⟨rfl, rfl⟩ := Prod.mk.inj (Option.some.inj hc)
    rw [AnchorStore.activity, hrouting, KeyedStore.get_set_self, Option.map_some]

theorem inactive_of_activity (hwf : s.quotes.WellFormed)
    (h : s.anchors.activity anchor = some false) : Inactive host s anchor := by
  obtain ⟨routing, hget, hinactive⟩ := activity_eq_some.mp h
  refine ⟨⟨routing, expect_eq_ok.mpr hget, hinactive⟩, ?_, ?_⟩
  · intro hmem
    rw [listActiveAnchors, List.mem_filter, hget] at hmem
    have hactive : routing.isActive = true := hmem.2
    rw [hinactive] at hactive
    cases hactive
  · rintro env c quote hmem rfl
    obtain ⟨found, hfound, hactive⟩ := (routed_of_mem hwf hmem).active hwf
    obtain rfl : routing = found := Option.some.inj (hget.symm.trans hfound)
    rw [hinactive] at hactive
    cases hactive

/-- The anchor was deactivated, and nothing has activated it since. -/
def DeactivatedLast (anchor : Address) (past : List Transition) : Prop :=
  ∃ before t after, past = before ++ t :: after ∧ t.input.2 = .deactivateAnchor anchor ∧
    ∀ u ∈ after, u.input.2.switchesActivity ≠ some (anchor, true)

theorem activity_of_deactivated (host : Host) (is : List Input) (anchor : Address) :
    DeactivatedLast anchor (history host is) → (run host is).anchors.activity anchor = some false := by
  refine Machine.history_invariant (step host)
    (fun past s => DeactivatedLast anchor past → s.anchors.activity anchor = some false)
    (fun _ => True) (s := .empty) ?_ ?_ is (fun _ _ => trivial)
  · rintro ⟨before, t, after, hsplit, _⟩
    simp at hsplit
  · rintro past t ht ih _ ⟨before, u, after, hsplit, hu, hafter⟩
    have hstep := anchor_step ht
    rcases Machine.snoc_eq_split hsplit with ⟨rfl, rfl, rfl⟩ | ⟨rest, rfl, hpast⟩
    · -- the last call is the deactivation
      exact activity_of_switch hstep (by rw [hu]; rfl)
    · have hrest : ∀ w ∈ rest, w.input.2.switchesActivity ≠ some (anchor, true) := by
        intro w hw
        exact hafter w (List.mem_append_left _ hw)
      have hpre := ih ⟨before, u, rest, hpast, hu, hrest⟩
      rcases activity_of_step anchor hstep with ⟨flag, hc, hflag⟩ | hsame
      · cases flag with
        | false => exact hflag
        | true => exact absurd hc (hafter t (List.mem_append_right _ List.mem_cons_self))
      · rw [hsame, hpre]

end Activity

/-- A deactivated anchor stays inactive until a call sets its metadata or reactivates it, and
every change of an anchor's flag is due to such a call or to a deactivation. -/
theorem deactivated_until_activated (host : Host) (is : List Input) (anchor : Address) :
    (DeactivatedLast anchor (history host is) → Inactive host (run host is) anchor) ∧
      ∀ t ∈ history host is, t.post.anchors.activity anchor ≠ t.pre.anchors.activity anchor →
        ∃ flag, t.input.2.switchesActivity = some (anchor, flag) := by
  constructor
  · intro hlast
    exact inactive_of_activity (wellFormed_run host is) (activity_of_deactivated host is anchor hlast)
  · intro t ht hchanged
    have hstep := anchor_step (Machine.step_of_mem_transitions (step host) ht)
    rcases activity_of_step anchor hstep with ⟨flag, hc, _⟩ | hsame
    · exact ⟨flag, hc⟩
    · exact absurd hsame hchanged

namespace Demo

def deactivateAlice : Input := onLedger 1 (.deactivateAnchor alice)

end Demo

theorem deactivated_alice_inactive :
    Inactive Demo.host (run Demo.host [Demo.deploy, Demo.rateAlice, Demo.deactivateAlice])
      Demo.alice := by
  apply (deactivated_until_activated Demo.host _ Demo.alice).1
  exact ⟨[⟨.empty, Demo.deploy, run Demo.host [Demo.deploy]⟩,
      ⟨run Demo.host [Demo.deploy], Demo.rateAlice, run Demo.host [Demo.deploy, Demo.rateAlice]⟩],
    ⟨run Demo.host [Demo.deploy, Demo.rateAlice], Demo.deactivateAlice,
      run Demo.host [Demo.deploy, Demo.rateAlice, Demo.deactivateAlice]⟩, [], rfl, rfl, by simp⟩

/-- Setting the metadata of a deactivated anchor makes it active again. -/
theorem rated_anchor_active_again :
    ¬ ∀ is : List Input, (∀ i ∈ is, i.2 ≠ .reactivateAnchor Demo.alice) →
      Inactive Demo.host (Machine.run (step Demo.host)
        (run Demo.host [Demo.deploy, Demo.rateAlice, Demo.deactivateAlice]) is) Demo.alice := by
  intro h
  have hinactive := h [Demo.rateAlice] (by decide)
  have hunlisted := hinactive.unlisted
  revert hunlisted
  decide

/-!
## Versions of metadata

The history of an anchor holds one version for each setting of its metadata.
-/

open Roster (pushIfAbsent mem_pushIfAbsent nodup_pushIfAbsent)

def maxHistory : UInt32 := 50

def getAnchorMetaVersionCount (s : Storage) (anchor : Address) : UInt32 :=
  (s.anchors.versionCount.get anchor).getD 0

def getAnchorMetadataAtVersion (s : Storage) (anchor : Address) (version : UInt32) :
    Except Panic AnchorMetadataVersion :=
  expect (s.anchors.history.get (anchor, version)) (.withError .attestorNotRegistered)

def versionsFrom (start total : UInt32) : List UInt32 :=
  (List.range' start.toNat (total.toNat + 1 - start.toNat)).map UInt32.ofNat

def getAnchorMetadataHistory (s : Storage) (anchor : Address) : List AnchorMetadataVersion :=
  let total := getAnchorMetaVersionCount s anchor
  let start := if maxHistory < total then total - maxHistory + 1 else 1
  (versionsFrom start total).filterMap fun v => s.anchors.history.get (anchor, v)

def lastVersions (total : ℕ) : List UInt32 :=
  (List.range' (total - min 50 total + 1) (min 50 total)).map UInt32.ofNat

/-- The entry has the values of the current record, its activity included. -/
structure AnchorMetadataVersion.Agrees (entry : AnchorMetadataVersion)
    (routing : RoutingAnchorMeta) : Prop where
  reputation : entry.reputationScore = routing.reputationScore
  settlement : entry.averageSettlementTime = routing.averageSettlementTime
  liquidity : entry.liquidityScore = routing.liquidityScore
  uptime : entry.uptimePercentage = routing.uptimePercentage
  volume : entry.totalVolume = routing.totalVolume
  activity : entry.isActive = routing.isActive

/-- What the history of every anchor says about its metadata and its activity. -/
structure TellsMetadata (s : Storage) : Prop where
  versions : ∀ anchor v, Succeeds (getAnchorMetadataAtVersion s anchor v) ↔
    1 ≤ v ∧ v ≤ getAnchorMetaVersionCount s anchor
  numbered : ∀ anchor v entry, getAnchorMetadataAtVersion s anchor v = .ok entry → entry.version = v
  latest : ∀ anchor, (getAnchorMetadataHistory s anchor).map Except.ok =
    (lastVersions (getAnchorMetaVersionCount s anchor).toNat).map
      (getAnchorMetadataAtVersion s anchor)
  newest : ∀ anchor routing, getAnchorMetadata s anchor = .ok routing →
    ∃ entry, (getAnchorMetadataHistory s anchor).getLast? = some entry ∧ entry.Agrees routing
  listed : ∀ anchor, Succeeds (getAnchorMetadata s anchor) → s.anchors.list.count anchor = 1
  active : ∀ anchor, anchor ∈ listActiveAnchors s ↔
    ∃ entry, (getAnchorMetadataHistory s anchor).getLast? = some entry ∧ entry.isActive = true

/-- The history tells the metadata after a run, and no later call changes a version of it. -/
structure HistoryTold (host : Host) (is : List Input) : Prop where
  tells : TellsMetadata (run host is)
  kept : ∀ later anchor v entry,
    getAnchorMetadataAtVersion (run host is) anchor v = .ok entry →
      getAnchorMetadataAtVersion (run host (is ++ later)) anchor v = .ok entry

/-! ### What a call does to the histories -/

def AnchorStore.versions (st : AnchorStore) (anchor : Address) : UInt32 :=
  (st.versionCount.get anchor).getD 0

inductive HistoryStep (st st' : AnchorStore) (c : Call) : Prop
  | keep (hrouting : st'.routing = st.routing) (hcount : st'.versionCount = st.versionCount)
      (hhistory : st'.history = st.history) (hlist : st'.list = st.list)
  | write {anchor : Address} {routing : RoutingAnchorMeta} {entry : AnchorMetadataVersion}
      (hversion : entry.version.toNat = (st.versions anchor).toNat + 1)
      (hagrees : entry.Agrees routing) (hactive : routing.isActive = true)
      (hrouting : st'.routing = st.routing.set anchor routing)
      (hcount : st'.versionCount = st.versionCount.set anchor entry.version)
      (hhistory : st'.history = st.history.set (anchor, entry.version) entry)
      (hlist : st'.list = pushIfAbsent st.list anchor)
  | switch {anchor : Address} {routing : RoutingAnchorMeta} (isActive : Bool)
      (hknown : st.routing.get anchor = some routing)
      (hrouting : st'.routing = st.routing.set anchor { routing with isActive })
      (hcount : st'.versionCount = st.versionCount) (hhistory : st'.history = st.history)
      (hlist : st'.list = st.list)

section Steps

variable {host : Host} {env : Env} {s s' : Storage} {st st' : AnchorStore} {c : Call}
  {anchor : Address}

theorem anchors_invalidateCacheInternal (env : Env) (s : Storage) (anchor : Address) :
    (invalidateCacheInternal env s anchor).1.anchors = s.anchors := by
  obtain ⟨_, hdropped⟩ := invalidateCacheInternal_effects env s anchor
  rw [hdropped]

theorem setAnchorMetadata_historyStep {reputationScore liquidityScore uptimePercentage : UInt32}
    {averageSettlementTime totalVolume : UInt64}
    (h : setAnchorMetadata env s anchor reputationScore averageSettlementTime liquidityScore
      uptimePercentage totalVolume = .ok s') : HistoryStep s.anchors s'.anchors c := by
  simp only [setAnchorMetadata, bind_eq_ok, pure_eq_ok, add32_eq_ok] at h
  obtain ⟨_, _, version, hversion, rfl⟩ := h
  rw [anchors_invalidateCacheInternal]
  exact @HistoryStep.write _ _ _ anchor
    ⟨anchor, reputationScore, averageSettlementTime, liquidityScore, uptimePercentage, totalVolume,
      true⟩
    ⟨version, env.timestamp, reputationScore, averageSettlementTime, liquidityScore,
      uptimePercentage, totalVolume, true⟩
    hversion.symm ⟨rfl, rfl, rfl, rfl, rfl, rfl⟩ rfl rfl rfl rfl rfl

theorem switchAnchor_historyStep {isActive : Bool}
    (h : switchAnchor env s anchor isActive = .ok s') : HistoryStep s.anchors s'.anchors c := by
  obtain ⟨routing, hknown, rfl⟩ := switchAnchor_effects h
  exact .switch isActive hknown rfl rfl rfl rfl

theorem history_step {i : Input} (h : step host s i = .ok s') :
    HistoryStep s.anchors s'.anchors i.2 := by
  obtain ⟨env, c⟩ := i
  change invoke host env s c = .ok s' at h
  by_cases hc : .anchors ∈ c.touches
  · cases c with
    | setAnchorMetadata anchor _ _ _ _ _ => exact setAnchorMetadata_historyStep h
    | deactivateAnchor anchor => exact switchAnchor_historyStep h
    | reactivateAnchor anchor => exact switchAnchor_historyStep h
    | blacklistAnchor anchor reason =>
      obtain ⟨_, _, _, _, rfl⟩ := blacklistAnchor_effects h
      exact .keep rfl rfl rfl rfl
    | removeFromBlacklist anchor =>
      obtain ⟨_, _, _, _, rfl⟩ := removeFromBlacklist_effects h
      exact .keep rfl rfl rfl rfl
    | _ => exact absurd hc (by simp [Call.touches])
  · rw [(invoke_sameOutside h).anchors_eq hc]
    exact .keep rfl rfl rfl rfl

/-- What is recorded of the anchors at any time, whether or not they are active. -/
structure AnchorStore.Recorded (st : AnchorStore) : Prop where
  versions : ∀ anchor v, st.history.has (anchor, v) = true ↔
    1 ≤ v.toNat ∧ v.toNat ≤ (st.versions anchor).toNat
  numbered : ∀ anchor v entry, st.history.get (anchor, v) = some entry → entry.version = v
  newest : ∀ anchor routing, st.routing.get anchor = some routing →
    ∃ entry, st.history.get (anchor, st.versions anchor) = some entry ∧
      entry.Agrees { routing with isActive := true }
  known : ∀ anchor, 1 ≤ (st.versions anchor).toNat → st.routing.has anchor = true
  listed : ∀ anchor, st.routing.has anchor = true → anchor ∈ st.list
  nodup : st.list.Nodup

theorem recorded_empty : Storage.empty.anchors.Recorded where
  versions anchor v := by
    constructor
    · intro h
      cases h
    · intro h
      exact absurd (h.1.trans h.2) (Nat.not_succ_le_zero 0)
  numbered := nofun
  newest := nofun
  known _ h := absurd h (Nat.not_succ_le_zero 0)
  listed := nofun
  nodup := List.nodup_nil

theorem AnchorStore.Recorded.history_kept (hstep : HistoryStep st st' c) (h : st.Recorded)
    {v : UInt32} {entry : AnchorMetadataVersion} (hget : st.history.get (anchor, v) = some entry) :
    st'.history.get (anchor, v) = some entry := by
  cases hstep with
  | keep _ _ hhistory _ => rwa [hhistory]
  | switch _ _ _ _ hhistory _ => rwa [hhistory]
  | @write written _ added hversion _ _ _ _ hhistory _ =>
    have hbounds := (h.versions anchor v).mp (KeyedStore.has_iff.mpr ⟨_, hget⟩)
    have hne : (anchor, v) ≠ (written, added.version) := by
      intro heq
      obtain ⟨rfl, rfl⟩ := Prod.mk.inj heq
      omega
    rw [hhistory, KeyedStore.get_set_of_ne _ _ hne, hget]

theorem versions_congr (hcount : st'.versionCount = st.versionCount) (anchor : Address) :
    st'.versions anchor = st.versions anchor := by
  rw [AnchorStore.versions, hcount, AnchorStore.versions]

theorem AnchorStore.Recorded.of_switch (h : st.Recorded) {switched : Address}
    {routing : RoutingAnchorMeta} {isActive : Bool}
    (hknown : st.routing.get switched = some routing)
    (hrouting : st'.routing = st.routing.set switched { routing with isActive })
    (hcount : st'.versionCount = st.versionCount) (hhistory : st'.history = st.history)
    (hlist : st'.list = st.list) : st'.Recorded := by
  have hversions := versions_congr hcount
  have hhas (a : Address) : st'.routing.has a = st.routing.has a := by
    rw [hrouting, KeyedStore.has_set]
    split
    · rename_i heq
      rw [heq, KeyedStore.has_iff.mpr ⟨_, hknown⟩]
    · rfl
  constructor
  · simpa only [hhistory, hversions] using h.versions
  · simpa only [hhistory] using h.numbered
  · intro a current hget
    rw [hhistory, hversions]
    rw [hrouting] at hget
    rcases KeyedStore.get_set_cases hget with ⟨rfl, rfl⟩ | hold
    · exact h.newest a routing hknown
    · exact h.newest a current hold
  · simpa only [hhas, hversions] using h.known
  · simpa only [hhas, hlist] using h.listed
  · simpa only [hlist] using h.nodup

section Written

variable {written : Address} {routing : RoutingAnchorMeta} {entry : AnchorMetadataVersion}

theorem versions_write (hcount : st'.versionCount = st.versionCount.set written entry.version)
    (anchor : Address) :
    st'.versions anchor = if anchor = written then entry.version else st.versions anchor := by
  unfold AnchorStore.versions
  rw [hcount, KeyedStore.get_set]
  split <;> rfl

theorem has_write (h : st.Recorded)
    (hversion : entry.version.toNat = (st.versions written).toNat + 1)
    (hcount : st'.versionCount = st.versionCount.set written entry.version) (anchor : Address)
    (v : UInt32) :
    (st.history.set (written, entry.version) entry).has (anchor, v) = true ↔
      1 ≤ v.toNat ∧ v.toNat ≤ (st'.versions anchor).toNat := by
  rw [KeyedStore.has_set, versions_write hcount]
  by_cases ha : anchor = written
  · subst ha
    have hv : v = entry.version ↔ v.toNat = entry.version.toNat := UInt32.toNat_inj.symm
    rw [if_pos rfl]
    by_cases heq : v = entry.version
    · rw [if_pos (by rw [heq]), heq, hversion]
      simp
    · rw [if_neg fun h => heq (Prod.mk.inj h).2, h.versions]
      rw [hv] at heq
      omega
  · rw [if_neg fun h => ha (Prod.mk.inj h).1, if_neg ha, h.versions]

theorem AnchorStore.Recorded.of_write (h : st.Recorded)
    (hversion : entry.version.toNat = (st.versions written).toNat + 1)
    (hagrees : entry.Agrees routing) (hactive : routing.isActive = true)
    (hrouting : st'.routing = st.routing.set written routing)
    (hcount : st'.versionCount = st.versionCount.set written entry.version)
    (hhistory : st'.history = st.history.set (written, entry.version) entry)
    (hlist : st'.list = pushIfAbsent st.list written) : st'.Recorded := by
  have hversions := versions_write hcount
  constructor
  · rw [hhistory]
    exact has_write h hversion hcount
  · intro a v found hget
    rw [hhistory] at hget
    rcases KeyedStore.get_set_cases hget with ⟨heq, rfl⟩ | hold
    · exact (Prod.mk.inj heq).2.symm
    · exact h.numbered _ _ _ hold
  · intro a current hget
    rw [hhistory, hversions]
    rw [hrouting, KeyedStore.get_set] at hget
    by_cases ha : a = written
    · rw [if_pos ha] at hget
      obtain rfl := Option.some.inj hget
      have hcurrent : { routing with isActive := true } = routing := by
        rw [← hactive]
      rw [if_pos ha, ha, KeyedStore.get_set_self, hcurrent]
      exact ⟨entry, rfl, hagrees⟩
    · rw [if_neg ha] at hget
      rw [if_neg ha, KeyedStore.get_set_of_ne _ _ fun heq => ha (Prod.mk.inj heq).1]
      exact h.newest _ _ hget
  · intro a hpositive
    rw [hrouting, KeyedStore.has_set]
    by_cases ha : a = written
    · rw [if_pos ha]
    · rw [hversions, if_neg ha] at hpositive
      rw [if_neg ha]
      exact h.known a hpositive
  · intro a hhas
    rw [hlist, mem_pushIfAbsent]
    rw [hrouting, KeyedStore.has_set] at hhas
    by_cases ha : a = written
    · exact Or.inl ha
    · rw [if_neg ha] at hhas
      exact Or.inr (h.listed a hhas)
  · rw [hlist]
    exact nodup_pushIfAbsent h.nodup

end Written

theorem AnchorStore.Recorded.of_step (hstep : HistoryStep st st' c) (h : st.Recorded) :
    st'.Recorded := by
  cases hstep with
  | keep hrouting hcount hhistory hlist =>
    have hversions := versions_congr hcount
    constructor
    · simpa only [hhistory, hversions] using h.versions
    · simpa only [hhistory] using h.numbered
    · simpa only [hrouting, hhistory, hversions] using h.newest
    · simpa only [hrouting, hversions] using h.known
    · simpa only [hrouting, hlist] using h.listed
    · simpa only [hlist] using h.nodup
  | switch _ hknown hrouting hcount hhistory hlist =>
    exact h.of_switch hknown hrouting hcount hhistory hlist
  | write hversion hagrees hactive hrouting hcount hhistory hlist =>
    exact h.of_write hversion hagrees hactive hrouting hcount hhistory hlist

theorem recorded_run (host : Host) (is : List Input) : (run host is).anchors.Recorded :=
  Machine.invariant (step host) (fun s => s.anchors.Recorded) recorded_empty
    (fun _ _ _ hstep hpre => hpre.of_step (history_step hstep)) is

theorem deactivates_of_switch (hc : c.switchesActivity = some (anchor, false)) :
    c = .deactivateAnchor anchor := by
  cases c with
  | deactivateAnchor a =>
    obtain ⟨rfl, _⟩ := Prod.mk.inj (Option.some.inj hc)
    rfl
  | setAnchorMetadata _ _ _ _ _ _ => cases hc
  | reactivateAnchor _ => cases hc
  | _ => cases hc

/-- The inactive anchors are those whose last switch was a deactivation. -/
theorem deactivatedLast_of_activity (host : Host) (is : List Input) (anchor : Address) :
    (run host is).anchors.activity anchor = some false →
      DeactivatedLast anchor (history host is) := by
  refine Machine.history_invariant (step host)
    (fun past s => s.anchors.activity anchor = some false → DeactivatedLast anchor past)
    (fun _ => True) (s := .empty) nofun ?_ is (fun _ _ => trivial)
  intro past t ht ih _ hinactive
  rcases activity_of_step anchor (anchor_step ht) with ⟨flag, hc, hflag⟩ | hsame
  · obtain rfl : flag = false := Option.some.inj (hflag.symm.trans hinactive)
    refine ⟨past, t, [], rfl, ?_, by simp⟩
    exact deactivates_of_switch hc
  · obtain ⟨before, u, after, rfl, hu, hafter⟩ := ih (hsame.symm.trans hinactive)
    refine ⟨before, u, after ++ [t], by simp, hu, ?_⟩
    intro v hv
    rcases Machine.mem_snoc.mp hv with hv | rfl
    · exact hafter v hv
    · intro hactivates
      have hactive := activity_of_switch (anchor_step ht) hactivates
      rw [hinactive] at hactive
      cases hactive

end Steps

/-! ### What the entry points read -/

section Reads

variable {host : Host} {s : Storage} {anchor : Address} {is : List Input}

theorem getAnchorMetadataAtVersion_eq_ok {v : UInt32} {entry : AnchorMetadataVersion} :
    getAnchorMetadataAtVersion s anchor v = .ok entry ↔
      s.anchors.history.get (anchor, v) = some entry :=
  expect_eq_ok

theorem versionsFrom_eq (total : UInt32) :
    versionsFrom (if maxHistory < total then total - maxHistory + 1 else 1) total =
      lastVersions total.toNat := by
  have htotal := total.toNat_lt
  have hmax : maxHistory.toNat = 50 := rfl
  have hstart : (if maxHistory < total then total - maxHistory + 1 else 1).toNat =
      total.toNat - min 50 total.toNat + 1 := by
    split
    · rename_i hlt
      have hle : maxHistory ≤ total := UInt32.le_of_lt hlt
      rw [UInt32.lt_iff_toNat_lt, hmax] at hlt
      rw [UInt32.toNat_add, UInt32.toNat_sub_of_le _ _ hle, hmax, min_eq_left hlt.le]
      exact Nat.mod_eq_of_lt (by change total.toNat - 50 + 1 < 2 ^ 32; omega)
    · rename_i hle
      rw [UInt32.not_lt, UInt32.le_iff_toNat_le, hmax] at hle
      rw [min_eq_right hle, Nat.sub_self]
      rfl
  have hlength : total.toNat + 1 - (total.toNat - min 50 total.toNat + 1) = min 50 total.toNat := by
    omega
  rw [versionsFrom, hstart, hlength]
  rfl

theorem mem_lastVersions {n : ℕ} (hn : n < 2 ^ 32) {v : UInt32} (h : v ∈ lastVersions n) :
    1 ≤ v.toNat ∧ v.toNat ≤ n := by
  obtain ⟨m, hm, rfl⟩ := List.mem_map.mp h
  rw [List.mem_range'_1] at hm
  rw [UInt32.toNat_ofNat', Nat.mod_eq_of_lt (by omega)]
  omega

theorem map_ok_filterMap {α β ε : Type} {f : α → Option β} (e : ε) {l : List α}
    (h : ∀ a ∈ l, (f a).isSome = true) :
    (l.filterMap f).map Except.ok = l.map fun a => expect (f a) e := by
  induction l with
  | nil => rfl
  | cons a l ih =>
    obtain ⟨b, hb⟩ := Option.isSome_iff_exists.mp (h a List.mem_cons_self)
    rw [List.filterMap_cons_some hb, List.map_cons, List.map_cons, hb,
      ih fun x hx => h x (List.mem_cons_of_mem a hx)]
    rfl

theorem AnchorStore.Recorded.latest (h : s.anchors.Recorded) (anchor : Address) :
    (getAnchorMetadataHistory s anchor).map Except.ok =
      (lastVersions (getAnchorMetaVersionCount s anchor).toNat).map
        (getAnchorMetadataAtVersion s anchor) := by
  unfold getAnchorMetadataHistory
  dsimp only
  rw [versionsFrom_eq]
  refine map_ok_filterMap _ fun v hv => ?_
  exact (h.versions anchor v).mpr (mem_lastVersions (UInt32.toNat_lt _) hv)

theorem getLast?_lastVersions (n : ℕ) :
    (lastVersions n).getLast? = if n = 0 then none else some (UInt32.ofNat n) := by
  rw [lastVersions, List.getLast?_map, List.getLast?_range']
  by_cases hn : n = 0
  · rw [hn]
    rfl
  · rw [if_neg (by omega), if_neg hn, Option.map_some]
    congr 2
    omega

theorem AnchorStore.Recorded.getLast?_history (h : s.anchors.Recorded) (anchor : Address) :
    (getAnchorMetadataHistory s anchor).getLast? =
      s.anchors.history.get (anchor, s.anchors.versions anchor) := by
  have hlatest := congrArg List.getLast? (h.latest anchor)
  have hbound := (s.anchors.versions anchor).toNat_lt
  change _ = ((lastVersions (s.anchors.versions anchor).toNat).map _).getLast? at hlatest
  rw [List.getLast?_map, List.getLast?_map, getLast?_lastVersions] at hlatest
  by_cases hnone : (s.anchors.versions anchor).toNat = 0
  · have hfree : s.anchors.history.get (anchor, s.anchors.versions anchor) = none := by
      rw [← KeyedStore.has_eq_false_iff, Bool.eq_false_iff, ne_eq, h.versions]
      omega
    rw [if_pos hnone] at hlatest
    rw [hfree]
    exact Option.map_eq_none_iff.mp hlatest
  · obtain ⟨entry, hentry⟩ := KeyedStore.has_iff.mp ((h.versions anchor _).mpr
      ⟨Nat.pos_of_ne_zero hnone, le_refl _⟩)
    rw [if_neg hnone, UInt32.ofNat_toNat, Option.map_some,
      getAnchorMetadataAtVersion_eq_ok.mpr hentry] at hlatest
    obtain ⟨last, hlast, heq⟩ := Option.map_eq_some_iff.mp hlatest
    rw [hlast, hentry, Except.ok.inj heq]

theorem isActive_of_activity {routing : RoutingAnchorMeta}
    (hactive : s.anchors.activity anchor ≠ some false)
    (hget : s.anchors.routing.get anchor = some routing) : routing.isActive = true := by
  rw [AnchorStore.activity, hget, Option.map_some] at hactive
  exact Bool.of_not_eq_false fun hfalse => hactive (congrArg some hfalse)

theorem mem_listActiveAnchors : anchor ∈ listActiveAnchors s ↔ anchor ∈ s.anchors.list ∧
    ∃ routing, s.anchors.routing.get anchor = some routing ∧ routing.isActive = true := by
  rw [listActiveAnchors, List.mem_filter]
  refine and_congr_right fun _ => ?_
  cases s.anchors.routing.get anchor with
  | none =>
    constructor
    · intro hactive
      cases hactive
    · rintro ⟨_, hget, _⟩
      cases hget
  | some routing =>
    constructor
    · intro hactive
      exact ⟨routing, rfl, hactive⟩
    · rintro ⟨_, ⟨⟩, hactive⟩
      exact hactive

theorem AnchorStore.Recorded.active_of_tells (h : s.anchors.Recorded) (htells : TellsMetadata s)
    (anchor : Address) : s.anchors.activity anchor ≠ some false := by
  intro hinactive
  obtain ⟨routing, hget, hfalse⟩ := activity_eq_some.mp hinactive
  obtain ⟨entry, hlast, hagrees⟩ := htells.newest anchor routing (expect_eq_ok.mpr hget)
  obtain ⟨recorded, hrecorded, hactive⟩ := h.newest anchor routing hget
  rw [h.getLast?_history, hrecorded] at hlast
  obtain rfl := Option.some.inj hlast
  have hsame := hagrees.activity.symm.trans hactive.activity
  rw [hfalse] at hsame
  cases hsame

/-- What the entry points tell of a recorded store is right when every anchor is active. -/
theorem AnchorStore.Recorded.tellsMetadata_iff (h : s.anchors.Recorded) :
    TellsMetadata s ↔ ∀ anchor, s.anchors.activity anchor ≠ some false := by
  refine ⟨h.active_of_tells, fun hactive => ?_⟩
  constructor
  · intro anchor v
    rw [UInt32.le_iff_toNat_le, UInt32.le_iff_toNat_le]
    change _ ↔ 1 ≤ v.toNat ∧ v.toNat ≤ (s.anchors.versions anchor).toNat
    rw [← h.versions, KeyedStore.has_iff]
    exact exists_congr fun entry => getAnchorMetadataAtVersion_eq_ok
  · intro anchor v entry hentry
    exact h.numbered anchor v entry (getAnchorMetadataAtVersion_eq_ok.mp hentry)
  · exact h.latest
  · intro anchor routing hrouting
    have hget := expect_eq_ok.mp hrouting
    obtain ⟨entry, hentry, hagrees⟩ := h.newest anchor routing hget
    refine ⟨entry, by rw [h.getLast?_history, hentry], ?_⟩
    have hcurrent : { routing with isActive := true } = routing := by
      rw [← isActive_of_activity (hactive anchor) hget]
    rwa [hcurrent] at hagrees
  · intro anchor hsucceeds
    obtain ⟨routing, hrouting⟩ := hsucceeds
    exact List.count_eq_one_of_mem h.nodup
      (h.listed anchor (KeyedStore.has_iff.mpr ⟨routing, expect_eq_ok.mp hrouting⟩))
  · intro anchor
    rw [mem_listActiveAnchors, h.getLast?_history]
    constructor
    · rintro ⟨_, routing, hget, _⟩
      obtain ⟨entry, hentry, hagrees⟩ := h.newest anchor routing hget
      exact ⟨entry, hentry, hagrees.activity⟩
    · rintro ⟨entry, hentry, _⟩
      have hbounds := (h.versions anchor _).mp (KeyedStore.has_iff.mpr ⟨entry, hentry⟩)
      have hhas := h.known anchor hbounds.1
      obtain ⟨routing, hget⟩ := KeyedStore.has_iff.mp hhas
      exact ⟨h.listed anchor hhas, routing, hget, isActive_of_activity (hactive anchor) hget⟩

theorem version_kept {v : UInt32} {entry : AnchorMetadataVersion} (later : List Input)
    (h : getAnchorMetadataAtVersion (run host is) anchor v = .ok entry) :
    getAnchorMetadataAtVersion (run host (is ++ later)) anchor v = .ok entry := by
  have hkept := Machine.invariant (step host)
    (fun s => s.anchors.Recorded ∧ s.anchors.history.get (anchor, v) = some entry)
    (s := run host is) ⟨recorded_run host is, getAnchorMetadataAtVersion_eq_ok.mp h⟩
    (fun _ _ _ hstep hpre =>
      ⟨hpre.1.of_step (history_step hstep), hpre.1.history_kept (history_step hstep) hpre.2⟩) later
  rw [run, ← Machine.run_append] at hkept
  exact getAnchorMetadataAtVersion_eq_ok.mpr hkept.2

end Reads

/-- The history tells the metadata and the activity of every anchor exactly when no anchor's last
switch was a deactivation. -/
theorem history_told_iff (host : Host) (is : List Input) :
    HistoryTold host is ↔ ∀ anchor, ¬ DeactivatedLast anchor (history host is) := by
  have htells := (recorded_run host is).tellsMetadata_iff
  constructor
  · intro h anchor hlast
    exact htells.mp h.tells anchor (activity_of_deactivated host is anchor hlast)
  · intro h
    refine ⟨htells.mpr fun anchor hinactive => ?_, fun later _ _ _ => version_kept later⟩
    exact h anchor (deactivatedLast_of_activity host is anchor hinactive)

/-- The newest entry of a deactivated anchor says that it is active. -/
theorem deactivation_not_told :
    ¬ HistoryTold Demo.host [Demo.deploy, Demo.rateAlice, Demo.deactivateAlice] := by
  intro h
  have hnewest : (getAnchorMetadataHistory
      (run Demo.host [Demo.deploy, Demo.rateAlice, Demo.deactivateAlice]) Demo.alice).getLast? =
      some ⟨1, 1000, 50, 60, 70, 99, 1000, true⟩ := by
    decide
  have hlisted := (h.tells.active Demo.alice).mpr ⟨_, hnewest, rfl⟩
  revert hlisted
  decide

end AnchorKit
