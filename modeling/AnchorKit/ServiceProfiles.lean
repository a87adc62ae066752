import AnchorKit.Contract

/-!
# Declared services and their mirror

A declaration is sorted, stored and copied into the anchor's profile; retirements touch only the
list that is kept beside it. The record and the profile of an anchor therefore name the same
services after any calls.
-/

namespace AnchorKit

/-- Services in strictly ascending order, all of them known, with at most one retirement each. -/
structure AnchorServices.Normalized (record : AnchorServices) : Prop where
  ascending : record.services.Pairwise (· < ·)
  known : ∀ code ∈ record.services, isKnownServiceCode code = true
  retired_once : (record.serviceRetirements.map (·.serviceCode)).Nodup

/-- The profile of an anchor names the services of its record, or none where there is no
record. -/
structure AnchorServicesStore.Mirrored (st : AnchorServicesStore) : Prop where
  normalized : ∀ anchor record, st.record.get anchor = some record → record.Normalized
  own : ∀ anchor profile, st.profile.get anchor = some profile → profile.attestor = anchor
  mirrored : ∀ anchor,
    (st.profile.get anchor).map (·.services) = (st.record.get anchor).map (·.services)

section Lists

variable {codes : List UInt32} {retirements : List ServiceRetirementInfo} {service : UInt32}
  {record : AnchorServices}

theorem pairwise_sortServices (h : codes.Nodup) : (sortServices codes).Pairwise (· < ·) := by
  have hordered : (sortServices codes).Pairwise (· ≤ ·) := List.pairwise_insertionSort _ codes
  have hnodup : (sortServices codes).Nodup := (List.perm_insertionSort _ codes).nodup_iff.mpr h
  exact (hordered.and hnodup).imp fun hboth => Std.lt_of_le_of_ne hboth.1 hboth.2

theorem known_sortServices (h : ServiceCodes codes) :
    ∀ code ∈ sortServices codes, isKnownServiceCode code = true := by
  intro code hcode
  exact h.known code ((List.mem_insertionSort _).mp hcode)

/-- Rewriting entries in place keeps the services they are about. -/
theorem map_serviceCode_map {update : ServiceRetirementInfo → ServiceRetirementInfo}
    (h : ∀ retirement, (update retirement).serviceCode = retirement.serviceCode) :
    (retirements.map update).map (·.serviceCode) = retirements.map (·.serviceCode) := by
  rw [List.map_map]
  exact List.map_congr_left fun retirement _ => h retirement

theorem map_serviceCode_markUnretired :
    (markUnretired retirements service).map (·.serviceCode) =
      retirements.map (·.serviceCode) := by
  refine map_serviceCode_map fun retirement => ?_
  split
  · rename_i hsame
    exact hsame.symm
  · rfl

theorem map_serviceCode_markRetired {timestamp : Option UInt64} {notice : Option String} :
    (markRetired retirements service timestamp notice).map (·.serviceCode) =
      if service ∈ retirements.map (·.serviceCode) then retirements.map (·.serviceCode)
      else retirements.map (·.serviceCode) ++ [service] := by
  by_cases hmem : service ∈ retirements.map (·.serviceCode)
  · rw [if_pos hmem, markRetired_of_mem hmem]
    refine map_serviceCode_map fun retirement => ?_
    split
    · rename_i hsame
      exact hsame.symm
    · rfl
  · rw [if_neg hmem, markRetired_of_not_mem hmem, List.map_append, List.map_singleton]

theorem AnchorServices.Normalized.retire (h : record.Normalized) {timestamp : Option UInt64}
    {notice : Option String} : (record.retire service timestamp notice).Normalized where
  ascending := h.ascending
  known := h.known
  retired_once := by
    change ((markRetired _ _ _ _).map (·.serviceCode)).Nodup
    rw [map_serviceCode_markRetired]
    split
    · exact h.retired_once
    · rename_i hnew
      rw [← List.concat_eq_append]
      exact h.retired_once.concat hnew

theorem AnchorServices.Normalized.unretire (h : record.Normalized) :
    (record.unretire service).Normalized where
  ascending := h.ascending
  known := h.known
  retired_once := by
    change ((markUnretired _ _).map (·.serviceCode)).Nodup
    rw [map_serviceCode_markUnretired]
    exact h.retired_once

end Lists

section Steps

variable {host : Host} {env : Env} {s s' : Storage} {anchor : Address} {services : List UInt32}
  {retirements : List ServiceRetirementInfo} {version : UInt32}

theorem attestor_loadOrInitProfile (h : s.anchorServices.Mirrored) :
    (loadOrInitProfile s anchor).attestor = anchor := by
  unfold loadOrInitProfile
  cases hget : s.anchorServices.profile.get anchor with
  | none => rfl
  | some profile => exact h.own anchor profile hget

theorem services_loadOrInitProfile (h : s.anchorServices.Mirrored) :
    (loadOrInitProfile s anchor).services =
      ((s.anchorServices.record.get anchor).map (·.services)).getD [] := by
  rw [← h.mirrored anchor, loadOrInitProfile]
  cases s.anchorServices.profile.get anchor <;> rfl

theorem mirrored_configureServicesVersioned (h : s.anchorServices.Mirrored)
    (hcall : configureServicesVersioned env s anchor services retirements version = .ok s') :
    s'.anchorServices.Mirrored := by
  obtain ⟨⟨hservices, hretirements⟩, _, rfl⟩ := configureServicesVersioned_effects hcall
  have howner : (loadOrInitProfile s anchor).attestor = anchor := attestor_loadOrInitProfile h
  rw [howner]
  refine ⟨?_, ?_, ?_⟩
  · intro other record hget
    rcases KeyedStore.get_set_cases hget with ⟨-, rfl⟩ | hold
    · exact ⟨pairwise_sortServices hservices.nodup, known_sortServices hservices,
        hretirements.nodup⟩
    · exact h.normalized other record hold
  · intro other profile hget
    rcases KeyedStore.get_set_cases hget with ⟨rfl, rfl⟩ | hold
    · exact howner
    · exact h.own other profile hold
  · intro other
    by_cases hother : other = anchor
    · subst hother
      rw [KeyedStore.get_set_self, KeyedStore.get_set_self]
      rfl
    · rw [KeyedStore.get_set_of_ne _ _ hother, KeyedStore.get_set_of_ne _ _ hother]
      exact h.mirrored other

/-- A record that keeps the services of the one it replaces needs no new mirror. -/
theorem AnchorServicesStore.Mirrored.set_record {st : AnchorServicesStore} (h : st.Mirrored)
    {old record : AnchorServices} (hget : st.record.get anchor = some old)
    (hservices : record.services = old.services) (hrecord : record.Normalized) :
    AnchorServicesStore.Mirrored { st with record := st.record.set anchor record } where
  normalized := by
    intro other found hfound
    rcases KeyedStore.get_set_cases hfound with ⟨-, rfl⟩ | hold
    · exact hrecord
    · exact h.normalized other found hold
  own := h.own
  mirrored := by
    intro other
    by_cases hother : other = anchor
    · subst hother
      rw [KeyedStore.get_set_self, h.mirrored other, hget, Option.map_some, Option.map_some,
        hservices]
    · rw [KeyedStore.get_set_of_ne _ _ hother]
      exact h.mirrored other

theorem mirrored_step {i : Input} (hstep : step host s i = .ok s')
    (h : s.anchorServices.Mirrored) : s'.anchorServices.Mirrored := by
  obtain ⟨env, c⟩ := i
  change invoke host env s c = .ok s' at hstep
  by_cases hc : .anchorServices ∈ c.touches
  · cases c with
    | configureServices anchor services => exact mirrored_configureServicesVersioned h hstep
    | configureServicesVersioned anchor services retirements version =>
      exact mirrored_configureServicesVersioned h hstep
    | configureServicesWithRetire anchor services retirements =>
      exact mirrored_configureServicesVersioned h hstep
    | retireService anchor service timestamp notice =>
      obtain ⟨record, _, hget, rfl⟩ := retireService_effects hstep
      exact h.set_record hget rfl (h.normalized anchor record hget).retire
    | unretireService anchor service =>
      obtain ⟨record, _, hget, rfl⟩ := unretireService_effects hstep
      exact h.set_record hget rfl (h.normalized anchor record hget).unretire
    | _ => exact absurd hc (by simp [Call.touches])
  · rw [(invoke_sameOutside hstep).anchorServices_eq hc]
    exact h

end Steps

theorem mirrored_run (host : Host) (is : List Input) : (run host is).anchorServices.Mirrored :=
  Machine.invariant (step host) (fun s => s.anchorServices.Mirrored) (s := .empty)
    ⟨nofun, nofun, fun _ => rfl⟩ (fun _ _ _ hstep hpre => mirrored_step hstep hpre) is

/-- After any calls, the services of an anchor are strictly ascending and known, no service is
retired twice, and the anchor's profile lists the same services. -/
theorem services_stay_mirrored (host : Host) (is : List Input) (anchor : Address) :
    (∀ record, (run host is).anchorServices.record.get anchor = some record →
      record.services.Pairwise (· < ·) ∧ record.services.Nodup ∧
      (∀ code ∈ record.services, isKnownServiceCode code = true) ∧
      (record.serviceRetirements.map (·.serviceCode)).Nodup ∧
      ∃ profile, (run host is).anchorServices.profile.get anchor = some profile ∧
        profile.services = record.services) ∧
    (loadOrInitProfile (run host is) anchor).services =
      (((run host is).anchorServices.record.get anchor).map (·.services)).getD [] := by
  have hrun := mirrored_run host is
  refine ⟨fun record hget => ?_, services_loadOrInitProfile hrun⟩
  have hrecord := hrun.normalized anchor record hget
  have hprofile := hrun.mirrored anchor
  rw [hget, Option.map_some, Option.map_eq_some_iff] at hprofile
  exact ⟨hrecord.ascending, hrecord.ascending.imp fun hlt => Std.ne_of_lt hlt,
    hrecord.known, hrecord.retired_once, hprofile⟩

end AnchorKit
