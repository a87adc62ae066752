import AnchorKit.Cache

/-!
# Anchors known to routing

Routing metadata with its version history, the list of known anchors, and the blacklist.
-/

namespace AnchorKit

open Fallible
open Roster (pushIfAbsent)

/-- Every write is active again and appends to the anchor's history. -/
def setAnchorMetadata (env : Env) (s : Storage) (anchor : Address) (reputationScore : UInt32)
    (averageSettlementTime : UInt64) (liquidityScore uptimePercentage : UInt32)
    (totalVolume : UInt64) : Except Panic Storage := do
  requireAdmin env s
  let routing : RoutingAnchorMeta :=
    { anchor, reputationScore, averageSettlementTime, liquidityScore, uptimePercentage,
      totalVolume, isActive := true }
  let version ← add32 ((s.anchors.versionCount.get anchor).getD 0) 1
  let historyEntry : AnchorMetadataVersion :=
    { version, updatedAt := env.timestamp, reputationScore, averageSettlementTime, liquidityScore,
      uptimePercentage, totalVolume, isActive := true }
  let s := { s with anchors := { s.anchors with
    routing := s.anchors.routing.set anchor routing
    versionCount := s.anchors.versionCount.set anchor version
    history := s.anchors.history.set (anchor, version) historyEntry
    list := pushIfAbsent s.anchors.list anchor } }
  return (invalidateCacheInternal env s anchor).1

/-- The shared body of the two switches of an anchor's activity. -/
def switchAnchor (env : Env) (s : Storage) (anchor : Address) (isActive : Bool) :
    Except Panic Storage := do
  requireAdmin env s
  let routing ← expect (s.anchors.routing.get anchor) (.withError .attestorNotRegistered)
  return { s with anchors := { s.anchors with
    routing := s.anchors.routing.set anchor { routing with isActive } } }

def deactivateAnchor (env : Env) (s : Storage) (anchor : Address) : Except Panic Storage :=
  switchAnchor env s anchor false

def reactivateAnchor (env : Env) (s : Storage) (anchor : Address) : Except Panic Storage :=
  switchAnchor env s anchor true

def getAnchorMetadata (s : Storage) (anchor : Address) : Except Panic RoutingAnchorMeta :=
  expect (s.anchors.routing.get anchor) (.withError .attestorNotRegistered)

def blacklistAnchor (env : Env) (s : Storage) (anchor : Address) (reason : String) :
    Except Panic Storage := do
  requireAdmin env s
  let entry : AnchorBlacklistEntry := { anchor, reason, blacklistedAt := env.timestamp }
  let s := { s with anchors := { s.anchors with
    blacklist := s.anchors.blacklist.set anchor entry
    blacklistIndex := pushIfAbsent s.anchors.blacklistIndex anchor } }
  let admin ← getAdminInternal s
  let s ← AdminAuditLog.logAction env s admin "blacklist_anchor" anchor.toText "active"
    "blacklisted"
  return s.publish (.anchorBlacklisted anchor)

def removeFromBlacklist (env : Env) (s : Storage) (anchor : Address) : Except Panic Storage := do
  requireAdmin env s
  let s := { s with anchors := { s.anchors with
    blacklist := s.anchors.blacklist.remove anchor
    blacklistIndex := s.anchors.blacklistIndex.filter (· ≠ anchor) } }
  let admin ← getAdminInternal s
  let s ← AdminAuditLog.logAction env s admin "remove_from_blacklist" anchor.toText "blacklisted"
    "active"
  return s.publish (.anchorUnblacklisted anchor)

section Effects

variable {env : Env} {s s' : Storage} {anchor : Address}

theorem setAnchorMetadata_effects {reputationScore liquidityScore uptimePercentage : UInt32}
    {averageSettlementTime totalVolume : UInt64}
    (h : setAnchorMetadata env s anchor reputationScore averageSettlementTime liquidityScore
      uptimePercentage totalVolume = .ok s') :
    ∃ routing versionCount history events, routing.isActive = true ∧ s' = { s with
      anchors := { s.anchors with
        routing := s.anchors.routing.set anchor routing
        versionCount := versionCount, history := history
        list := pushIfAbsent s.anchors.list anchor }
      cache := s.cache.dropAnchor anchor, events := events } := by
  simp only [setAnchorMetadata, bind_eq_ok, pure_eq_ok] at h
  obtain ⟨_, _, _, _, rfl⟩ := h
  obtain ⟨_, hdropped⟩ := invalidateCacheInternal_effects env _ anchor
  exact ⟨_, _, _, _, rfl, hdropped⟩

theorem switchAnchor_effects {isActive : Bool} (h : switchAnchor env s anchor isActive = .ok s') :
    ∃ routing, s.anchors.routing.get anchor = some routing ∧ s' = { s with
      anchors := { s.anchors with
        routing := s.anchors.routing.set anchor { routing with isActive } } } := by
  simp only [switchAnchor, bind_eq_ok, expect_eq_ok, pure_eq_ok] at h
  obtain ⟨_, _, routing, hknown, rfl⟩ := h
  exact ⟨routing, hknown, rfl⟩

theorem blacklistAnchor_effects {reason : String}
    (h : blacklistAnchor env s anchor reason = .ok s') :
    ∃ blacklist blacklistIndex ring events, s' = { s with
      anchors := { s.anchors with blacklist := blacklist, blacklistIndex := blacklistIndex }
      adminAudit := ring, events := events } := by
  simp only [blacklistAnchor, bind_eq_ok, pure_eq_ok] at h
  obtain ⟨_, _, _, _, _, hlog, rfl⟩ := h
  obtain ⟨_, _, rfl⟩ := AdminAuditLog.logAction_frame hlog
  exact ⟨_, _, _, _, rfl⟩

theorem removeFromBlacklist_effects (h : removeFromBlacklist env s anchor = .ok s') :
    ∃ blacklist blacklistIndex ring events, s' = { s with
      anchors := { s.anchors with blacklist := blacklist, blacklistIndex := blacklistIndex }
      adminAudit := ring, events := events } := by
  simp only [removeFromBlacklist, bind_eq_ok, pure_eq_ok] at h
  obtain ⟨_, _, _, _, _, hlog, rfl⟩ := h
  obtain ⟨_, _, rfl⟩ := AdminAuditLog.logAction_frame hlog
  exact ⟨_, _, _, _, rfl⟩

end Effects

end AnchorKit
