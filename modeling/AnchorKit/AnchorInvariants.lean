import AnchorKit.Contract

/-!
# Invariants of the anchors known to routing

An anchor's metadata, with its activity flag, is written by three calls only, and every anchor
with metadata is on the list that routing goes through.
-/

namespace AnchorKit

open Fallible
open Roster (mem_pushIfAbsent)

/-- The anchor whose activity the call writes, with the flag it writes. -/
def Call.switchesActivity : Call → Option (Address × Bool)
  | .setAnchorMetadata anchor _ _ _ _ _ | .reactivateAnchor anchor => some (anchor, true)
  | .deactivateAnchor anchor => some (anchor, false)
  | _ => none

inductive AnchorStep (st st' : AnchorStore) (c : Call) : Prop
  | keep (hc : c.switchesActivity = none) (hrouting : st'.routing = st.routing)
      (hlist : st'.list = st.list)
  | write {anchor : Address} {routing : RoutingAnchorMeta}
      (hc : c.switchesActivity = some (anchor, routing.isActive))
      (hrouting : st'.routing = st.routing.set anchor routing) (hlist : st.list ⊆ st'.list)
      (hknown : anchor ∈ st'.list ∨ st.routing.has anchor = true)

theorem Call.switchesActivity_of_frame {c : Call} (hc : .anchors ∉ c.touches) :
    c.switchesActivity = none := by
  cases c with
  | setAnchorMetadata _ _ _ _ _ _ => exact absurd hc (by simp [Call.touches])
  | deactivateAnchor _ => exact absurd hc (by simp [Call.touches])
  | reactivateAnchor _ => exact absurd hc (by simp [Call.touches])
  | _ => rfl

theorem anchor_step {host : Host} {s s' : Storage} {i : Input} (h : step host s i = .ok s') :
    AnchorStep s.anchors s'.anchors i.2 := by
  obtain ⟨env, c⟩ := i
  change invoke host env s c = .ok s' at h
  by_cases hc : .anchors ∈ c.touches
  · cases c with
    | setAnchorMetadata anchor _ _ _ _ _ =>
      obtain ⟨routing, _, _, _, hactive, rfl⟩ := setAnchorMetadata_effects h
      refine .write (by rw [hactive]; rfl) rfl ?_ (Or.inl ?_)
      · intro a ha
        exact mem_pushIfAbsent.mpr (Or.inr ha)
      · exact mem_pushIfAbsent.mpr (Or.inl rfl)
    | deactivateAnchor anchor =>
      obtain ⟨routing, hknown, rfl⟩ := switchAnchor_effects h
      exact @AnchorStep.write _ _ _ anchor { routing with isActive := false } rfl rfl
        (List.Subset.refl _) (Or.inr (KeyedStore.has_iff.mpr ⟨_, hknown⟩))
    | reactivateAnchor anchor =>
      obtain ⟨routing, hknown, rfl⟩ := switchAnchor_effects h
      exact @AnchorStep.write _ _ _ anchor { routing with isActive := true } rfl rfl
        (List.Subset.refl _) (Or.inr (KeyedStore.has_iff.mpr ⟨_, hknown⟩))
    | blacklistAnchor anchor reason =>
      obtain ⟨_, _, _, _, rfl⟩ := blacklistAnchor_effects h
      exact .keep rfl rfl rfl
    | removeFromBlacklist anchor =>
      obtain ⟨_, _, _, _, rfl⟩ := removeFromBlacklist_effects h
      exact .keep rfl rfl rfl
    | _ => exact absurd hc (by simp [Call.touches])
  · rw [(invoke_sameOutside h).anchors_eq hc]
    exact .keep (Call.switchesActivity_of_frame hc) rfl rfl

def AnchorStore.KnownListed (st : AnchorStore) : Prop :=
  ∀ anchor, st.routing.has anchor = true → anchor ∈ st.list

theorem AnchorStore.KnownListed.of_step {st st' : AnchorStore} {c : Call}
    (hstep : AnchorStep st st' c) (h : st.KnownListed) : st'.KnownListed := by
  intro anchor hhas
  cases hstep with
  | keep _ hrouting hlist =>
    rw [hrouting] at hhas
    rw [hlist]
    exact h anchor hhas
  | @write written _ _ hrouting hlist hknown =>
    rw [hrouting, KeyedStore.has_set] at hhas
    by_cases heq : anchor = written
    · subst heq
      rcases hknown with hmem | hold
      · exact hmem
      · exact hlist (h _ hold)
    · rw [if_neg heq] at hhas
      exact hlist (h anchor hhas)

theorem knownListed_run (host : Host) (is : List Input) : (run host is).anchors.KnownListed :=
  Machine.invariant (step host) (fun s => s.anchors.KnownListed) (s := .empty) nofun
    (fun _ _ _ hstep hpre => hpre.of_step (anchor_step hstep)) is

end AnchorKit
