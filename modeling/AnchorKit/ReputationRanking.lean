import AnchorKit.AnchorHistories
import AnchorKit.EntryPoints
import AnchorKit.Library.StableSort

/-!
# The ranking of anchors by reputation

In every reachable state the ranking lists each known anchor once, from the highest composite score
down and in the order of the XDR bytes where scores are equal, whatever sort the host uses. A record
that is at least as good in every signal never ranks behind with another score, as long as the
counters are exact in single precision.
-/

namespace AnchorKit

open Fallible ReputationWeights

/-- An anchor with its score and its XDR bytes comes before another one. -/
def OutranksBy (score : Address → ℕ) (toXdr : Address → Bytes) (a b : Address) : Prop :=
  score b < score a ∨ (score a = score b ∧ compare (toXdr a) (toXdr b) = .lt)

/-- The ranking of the anchors that are known in a state. -/
structure Ranking (host : Host) (toXdr : Address → Bytes) (s : ContractState)
    (ranked : List Address) : Prop where
  perm : ranked.Perm s.core.anchors.list
  sorted : ranked.Pairwise (OutranksBy s.reputation.getAnchorCompositeReputation toXdr)
  bounded : ∀ anchor ∈ ranked, s.reputation.getAnchorCompositeReputation anchor ≤ 10000
  unrecorded : ∀ anchor ∈ ranked, s.reputation.getAnchorReputation anchor = none →
    ∀ other ∈ ranked, [anchor, other].Sublist ranked →
      s.reputation.getAnchorCompositeReputation other = 0
  determined : ∀ host' : Host,
    rankAnchorsByReputation host' toXdr s.core s.reputation = ranked

theorem rankOrder_eq : rankOrder =
    compareLex (fun a b => compareOn Prod.fst b a) (compareOn fun a => a.2.1) := rfl

instance : Std.TransCmp rankOrder := by
  rw [rankOrder_eq]
  infer_instance

section Order

variable {toXdr : Address → Bytes} {score : Address → ℕ} {a b : Address}

def scoredBy (score : Address → ℕ) (toXdr : Address → Bytes) (a : Address) :
    ℕ × Bytes × Address := (score a, toXdr a, a)

theorem rankOrder_eq_lt :
    rankOrder (scoredBy score toXdr a) (scoredBy score toXdr b) = .lt ↔
      OutranksBy score toXdr a b := by
  rw [rankOrder, Ordering.then_eq_lt, Nat.compare_eq_lt, Nat.compare_eq_eq]
  exact or_congr Iff.rfl (and_congr eq_comm Iff.rfl)

theorem eq_of_rankOrder_eq (hxdr : SelfDelimiting Set.univ toXdr)
    (h : rankOrder (scoredBy score toXdr a) (scoredBy score toXdr b) = .eq) : a = b := by
  rw [rankOrder, Ordering.then_eq_eq] at h
  exact hxdr.injective trivial trivial (Std.LawfulEqOrd.compare_eq_iff_eq.mp h.2)

theorem OutranksBy.score_le (h : OutranksBy score toXdr a b) : score b ≤ score a := by
  rcases h with h | ⟨h, _⟩
  · exact h.le
  · exact h.ge

end Order

/-! ### Sorting the scored anchors -/

section Sorting

variable {toXdr : Address → Bytes} {anchors : List Address} (score : Address → ℕ)
  (sort : UnstableSort)

def rankedBy (toXdr : Address → Bytes) (anchors : List Address) : List Address :=
  (sort.sort (fun a b => rankOrder a b ≠ .gt) (anchors.map (scoredBy score toXdr))).map
    fun entry => entry.2.2

theorem rankedBy_perm : (rankedBy score sort toXdr anchors).Perm anchors := by
  have hmap := (sort.perm (fun a b => rankOrder a b ≠ .gt)
    (anchors.map (scoredBy score toXdr))).map fun entry : ℕ × Bytes × Address => entry.2.2
  rw [List.map_map] at hmap
  exact hmap.trans (List.Perm.of_eq (List.map_id _))

theorem map_scoredBy_rankedBy : (rankedBy score sort toXdr anchors).map (scoredBy score toXdr) =
    sort.sort (fun a b => rankOrder a b ≠ .gt) (anchors.map (scoredBy score toXdr)) := by
  rw [rankedBy, List.map_map]
  refine (List.map_congr_left fun entry hentry => ?_).trans (List.map_id _)
  obtain ⟨anchor, _, rfl⟩ := List.mem_map.mp ((sort.mem_sort _ _).mp hentry)
  rfl

theorem rankedBy_sorted (hxdr : SelfDelimiting Set.univ toXdr) (hnodup : anchors.Nodup) :
    (rankedBy score sort toXdr anchors).Pairwise (OutranksBy score toXdr) := by
  have hle := sort.pairwise (fun a b => rankOrder a b ≠ .gt) (anchors.map (scoredBy score toXdr))
    StableSort.le_trans fun a b => by simpa using StableSort.le_total a b
  rw [← map_scoredBy_rankedBy, List.pairwise_map] at hle
  have hne : (rankedBy score sort toXdr anchors).Nodup :=
    (rankedBy_perm score sort).nodup_iff.mpr hnodup
  refine (hle.and hne).imp fun {a b} h => ?_
  -- different anchors do not compare equal
  cases hcmp : rankOrder (scoredBy score toXdr a) (scoredBy score toXdr b) with
  | lt => exact rankOrder_eq_lt.mp hcmp
  | eq => exact absurd (eq_of_rankOrder_eq hxdr hcmp) h.2
  | gt => exact absurd hcmp (of_decide_eq_true h.1)

theorem rankedBy_determined (hxdr : SelfDelimiting Set.univ toXdr) (other : UnstableSort) :
    rankedBy score other toXdr anchors = rankedBy score sort toXdr anchors := by
  refine congrArg _ (other.sort_eq_sort _ _ sort StableSort.le_trans
    (fun a b => by simpa using StableSort.le_total a b) ?_)
  intro x hx y hy hxy hyx
  obtain ⟨a, _, rfl⟩ := List.mem_map.mp hx
  obtain ⟨b, _, rfl⟩ := List.mem_map.mp hy
  have hnot := of_decide_eq_true hyx
  have hswap : rankOrder (scoredBy score toXdr b) (scoredBy score toXdr a) =
    (rankOrder (scoredBy score toXdr a) (scoredBy score toXdr b)).swap := Std.OrientedCmp.eq_swap
  rw [hswap] at hnot
  cases hcmp : rankOrder (scoredBy score toXdr a) (scoredBy score toXdr b) with
  | lt =>
    rw [hcmp] at hnot
    exact absurd rfl hnot
  | eq => rw [eq_of_rankOrder_eq hxdr hcmp]
  | gt => exact absurd hcmp (of_decide_eq_true hxy)

theorem score_le_of_sublist {ranked : List Address}
    (h : ranked.Pairwise (OutranksBy score toXdr)) {a b : Address} (hab : [a, b].Sublist ranked) :
    score b ≤ score a := by
  have hpair := h.sublist hab
  rw [List.pairwise_pair] at hpair
  exact hpair.score_le

end Sorting

/-! ### Every reachable state -/

section Composite

variable {st : ReputationStore} {anchor : Address}

theorem composite_of_none (h : st.getAnchorReputation anchor = none) :
    st.getAnchorCompositeReputation anchor = 0 := by
  rw [ReputationStore.getAnchorCompositeReputation, h]

theorem composite_of_some {record : AnchorReputationRecord}
    (h : st.getAnchorReputation anchor = some record) :
    st.getAnchorCompositeReputation anchor = st.getReputationWeights.computeComposite record := by
  rw [ReputationStore.getAnchorCompositeReputation, h]

theorem composite_le (st : ReputationStore) (anchor : Address) :
    st.getAnchorCompositeReputation anchor ≤ 10000 := by
  cases h : st.getAnchorReputation anchor with
  | none =>
    rw [composite_of_none h]
    exact Nat.zero_le _
  | some record =>
    rw [composite_of_some h]
    exact computeComposite_le _ record

end Composite

section Runs

variable (host : Host) (sha256 : Bytes → BytesN 32)

theorem anchors_nodup_run (is : List ContractState.Input) :
    (ContractState.run host sha256 is).core.anchors.list.Nodup := by
  refine (ContractState.core_invariant host sha256 (P := fun s => s.anchors.Recorded)
    recorded_empty ?_ ?_ is).nodup
  · intro s i s' h hpre
    exact hpre.of_step (history_step h)
  · intro s s' hsame hpre
    rwa [hsame.anchors_eq (by decide)]

/-- The ranking in any reachable state. -/
theorem ranking_run (toXdr : Address → Bytes) (hxdr : SelfDelimiting Set.univ toXdr)
    (is : List ContractState.Input) :
    Ranking host toXdr (ContractState.run host sha256 is)
      (rankAnchorsByReputation host toXdr (ContractState.run host sha256 is).core
        (ContractState.run host sha256 is).reputation) := by
  have hsorted := rankedBy_sorted
    (ContractState.run host sha256 is).reputation.getAnchorCompositeReputation host.unstableSort
    hxdr (anchors_nodup_run host sha256 is)
  constructor
  · exact rankedBy_perm _ _
  · exact hsorted
  · exact fun anchor _ => composite_le _ anchor
  · intro anchor _ hnone other _ hbefore
    have hle := score_le_of_sublist _ hsorted hbefore
    rw [composite_of_none hnone] at hle
    exact Nat.le_zero.mp hle
  · intro host'
    exact rankedBy_determined _ _ hxdr _

/-- An anchor with a record that is at least as good in every signal ranks behind another one only
where their scores are equal, if the totals of both are exact in single precision. -/
theorem better_record_not_behind (toXdr : Address → Bytes) (hxdr : SelfDelimiting Set.univ toXdr)
    (is : List ContractState.Input) {a b : Address} {r r' : AnchorReputationRecord}
    (ha : (ContractState.run host sha256 is).reputation.getAnchorReputation a = some r)
    (hb : (ContractState.run host sha256 is).reputation.getAnchorReputation b = some r')
    (hexact : Exact r) (hexact' : Exact r') (hgood : AtLeastAsGood r r')
    (hbehind : [b, a].Sublist (rankAnchorsByReputation host toXdr
      (ContractState.run host sha256 is).core (ContractState.run host sha256 is).reputation)) :
    (ContractState.run host sha256 is).reputation.getAnchorCompositeReputation a =
      (ContractState.run host sha256 is).reputation.getAnchorCompositeReputation b := by
  have hsorted := rankedBy_sorted
    (ContractState.run host sha256 is).reputation.getAnchorCompositeReputation host.unstableSort
    hxdr (anchors_nodup_run host sha256 is)
  have hle := score_le_of_sublist _ hsorted hbehind
  refine le_antisymm hle ?_
  rw [composite_of_some ha, composite_of_some hb]
  exact computeComposite_mono hexact hexact' hgood

end Runs

namespace Demo

def anyHash : Bytes → BytesN 32 := fun _ => .fill 32 0

def onContract (e : EntryPoint) : ContractState.Input := (⟨1000, 1, [admin, alice, bob]⟩, e)

/-- Two known anchors, `bob` with the better record, by less than a point of the score. -/
def twoAnchors : List ContractState.Input :=
  [onContract (.core (.initializeContract admin)),
    onContract (.core (.setAnchorMetadata bob 90 80 9900 1000 60)),
    onContract (.core (.setAnchorMetadata alice 90 80 9900 1000 60)),
    onContract (.setAnchorReputation alice 10 8 9001 99 100),
    onContract (.setAnchorReputation bob 20 16 9002 99 100)]

def aliceRecord : AnchorReputationRecord := ⟨alice, 10, 8, 9001, 99, 100, 1000⟩

def bobRecord : AnchorReputationRecord := ⟨bob, 20, 16, 9002, 99, 100, 1000⟩

theorem bob_as_good : AtLeastAsGood bobRecord aliceRecord := by
  have hsuccess : exactRate 8 10 = exactRate 16 20 := by
    change ((8 : ℕ) : ℚ) / (10 : ℕ) = (16 : ℕ) / (20 : ℕ)
    norm_num
  exact ⟨hsuccess.le, le_refl _, by decide⟩

end Demo

section Witnesses

open Demo

theorem ranking_run_two_anchors : Ranking host toXdr
    (ContractState.run host anyHash twoAnchors)
    (rankAnchorsByReputation host toXdr (ContractState.run host anyHash twoAnchors).core
      (ContractState.run host anyHash twoAnchors).reputation) :=
  ranking_run host anyHash toXdr selfDelimiting_toXdr twoAnchors

theorem better_record_two_anchors :
    (ContractState.run host anyHash twoAnchors).reputation.getAnchorCompositeReputation bob =
      (ContractState.run host anyHash twoAnchors).reputation.getAnchorCompositeReputation alice :=
  better_record_not_behind host anyHash toXdr selfDelimiting_toXdr twoAnchors
    (show _ = some bobRecord by decide +kernel) (show _ = some aliceRecord by decide +kernel)
    ⟨by decide, by decide⟩ ⟨by decide, by decide⟩ bob_as_good (by decide +kernel)

end Witnesses

end AnchorKit
