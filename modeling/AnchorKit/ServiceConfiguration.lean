import AnchorKit.Registry

/-!
# Declared services

An anchor declares the services it offers and retires them one at a time. The declaration is
mirrored in the anchor's profile; a retirement is kept beside the list of services, which it does
not change.
-/

namespace AnchorKit

open Fallible

def serviceDeposits : UInt32 := 1

def serviceWithdrawals : UInt32 := 2

def serviceQuotes : UInt32 := 3

def serviceKyc : UInt32 := 4

def serviceSep31 : UInt32 := 5

def serviceCapabilityVersion : UInt32 := 1

def maxKnownServiceCode : UInt32 := serviceSep31

def isKnownServiceCode (code : UInt32) : Bool :=
  serviceDeposits ≤ code && code ≤ maxKnownServiceCode

def sortServices (services : List UInt32) : List UInt32 := services.insertionSort (· ≤ ·)

/-- The codes are known and none of them is among `seen` or comes twice. -/
def checkServiceCodes (seen : List UInt32) : List UInt32 → Except Panic Unit
  | [] => .ok ()
  | code :: rest => do
    require (seen.contains code = false) (.withError .invalidServiceType)
    require (isKnownServiceCode code = true) (.withError .invalidServiceType)
    checkServiceCodes (seen ++ [code]) rest

def loadOrInitProfile (s : Storage) (attestor : Address) : AttestorProfile :=
  (s.anchorServices.profile.get attestor).getD
    { attestor, endpoint := "", webhookUrl := "", services := [], enabled := true, updatedAt := 0 }

def saveProfile (s : Storage) (profile : AttestorProfile) : Storage :=
  { s with anchorServices := { s.anchorServices with
    profile := s.anchorServices.profile.set profile.attestor profile } }

def storeServices (s : Storage) (anchor : Address) (record : AnchorServices) : Storage :=
  { s with anchorServices := { s.anchorServices with
    record := s.anchorServices.record.set anchor record } }

def configureServicesVersioned (env : Env) (s : Storage) (anchor : Address)
    (services : List UInt32) (serviceRetirements : List ServiceRetirementInfo) (version : UInt32) :
    Except Panic Storage := do
  anchor.requireAuth env
  require (s.registry.attestor.has anchor = true) (.withError .attestorNotRegistered)
  require (version ≠ 0 ∧ version ≤ serviceCapabilityVersion) (.withError .unsupportedCapabilityVersion)
  require (services ≠ []) (.withError .invalidServiceType)
  checkServiceCodes [] services
  checkServiceCodes [] (serviceRetirements.map ServiceRetirementInfo.serviceCode)
  let normalized := sortServices services
  let record : AnchorServices :=
    { anchor, services := normalized, serviceCapabilityVersion := version, serviceRetirements }
  let s := storeServices s anchor record
  let profile := { loadOrInitProfile s anchor with
    services := normalized, updatedAt := env.timestamp }
  let s := saveProfile s profile
  return s.publish (.servicesConfigured anchor (UInt32.ofNat normalized.length) version env.timestamp)

def configureServices (env : Env) (s : Storage) (anchor : Address) (services : List UInt32) :
    Except Panic Storage :=
  configureServicesVersioned env s anchor services [] serviceCapabilityVersion

def configureServicesWithRetire (env : Env) (s : Storage) (anchor : Address)
    (services : List UInt32) (serviceRetirements : List ServiceRetirementInfo) :
    Except Panic Storage :=
  configureServicesVersioned env s anchor services serviceRetirements serviceCapabilityVersion

def isServiceRetired (record : AnchorServices) (service : UInt32) : Bool :=
  record.serviceRetirements.any fun retirement =>
    retirement.serviceCode = service && retirement.retired

def getSupportedServicesInternal (s : Storage) (anchor : Address) : Except Panic AnchorServices :=
  expect (s.anchorServices.record.get anchor) (.withError .servicesNotConfigured)

def supportsService (s : Storage) (anchor : Address) (service : UInt32) : Except Panic Bool := do
  let record ← getSupportedServicesInternal s anchor
  return record.services.contains service && !isServiceRetired record service

/-- The service is on the anchor's list, retired or not. -/
def declaresService (s : Storage) (anchor : Address) (service : UInt32) : Bool :=
  ((s.anchorServices.record.get anchor).map fun record => record.services.contains service).getD
    false

/-- What routing and the readiness reports look at. -/
def advertisesQuoteService (s : Storage) (anchor : Address) : Bool :=
  declaresService s anchor serviceQuotes

/-- Mark the entry of the service as retired, or add one; earlier details are kept where the call
gives none. -/
def markRetired (retirements : List ServiceRetirementInfo) (service : UInt32)
    (retirementTimestamp : Option UInt64) (deprecationNotice : Option String) :
    List ServiceRetirementInfo :=
  let updated := retirements.map fun retirement =>
    if retirement.serviceCode = service then
      { serviceCode := service, retired := true,
        retirementTimestamp := retirementTimestamp.or retirement.retirementTimestamp,
        deprecationNotice := deprecationNotice.or retirement.deprecationNotice }
    else retirement
  if retirements.any (·.serviceCode = service) then updated
  else updated ++
    [{ serviceCode := service, retired := true, retirementTimestamp, deprecationNotice }]

section MarkRetired

variable {retirements : List ServiceRetirementInfo} {service : UInt32}
  {timestamp : Option UInt64} {notice : Option String}

theorem any_serviceCode_iff : retirements.any (·.serviceCode = service) = true ↔
    service ∈ retirements.map (·.serviceCode) := by
  simp

theorem markRetired_of_mem (h : service ∈ retirements.map (·.serviceCode)) :
    markRetired retirements service timestamp notice = retirements.map fun retirement =>
      if retirement.serviceCode = service then
        { serviceCode := service, retired := true,
          retirementTimestamp := timestamp.or retirement.retirementTimestamp,
          deprecationNotice := notice.or retirement.deprecationNotice }
      else retirement :=
  if_pos (any_serviceCode_iff.mpr h)

/-- There is no entry to update, so the list is kept and one is added. -/
theorem markRetired_of_not_mem (h : service ∉ retirements.map (·.serviceCode)) :
    markRetired retirements service timestamp notice =
      retirements ++ [⟨service, true, timestamp, notice⟩] := by
  have hkept : (retirements.map fun retirement =>
      if retirement.serviceCode = service then
        { serviceCode := service, retired := true,
          retirementTimestamp := timestamp.or retirement.retirementTimestamp,
          deprecationNotice := notice.or retirement.deprecationNotice }
      else retirement) = retirements.map id := by
    apply List.map_congr_left
    intro retirement hmem
    exact if_neg fun hcode => h (List.mem_map.mpr ⟨retirement, hmem, hcode⟩)
  unfold markRetired
  rw [if_neg (mt any_serviceCode_iff.mp h), hkept, List.map_id]

end MarkRetired

def retireService (env : Env) (s : Storage) (anchor : Address) (service : UInt32)
    (retirementTimestamp : Option UInt64) (deprecationNotice : Option String) :
    Except Panic Storage := do
  anchor.requireAuth env
  let record ← getSupportedServicesInternal s anchor
  let record := { record with
    serviceRetirements := markRetired record.serviceRetirements service retirementTimestamp
      deprecationNotice }
  return (storeServices s anchor record).publish (.serviceRetired anchor service)

/-- The notice stays for the record, the date goes. -/
def markUnretired (retirements : List ServiceRetirementInfo) (service : UInt32) :
    List ServiceRetirementInfo :=
  retirements.map fun retirement =>
    if retirement.serviceCode = service then
      { serviceCode := service, retired := false, retirementTimestamp := none,
        deprecationNotice := retirement.deprecationNotice }
    else retirement

def unretireService (env : Env) (s : Storage) (anchor : Address) (service : UInt32) :
    Except Panic Storage := do
  anchor.requireAuth env
  let record ← getSupportedServicesInternal s anchor
  let record := { record with
    serviceRetirements := markUnretired record.serviceRetirements service }
  return (storeServices s anchor record).publish (.serviceUnretired anchor service)

namespace AnchorServices

variable {record : AnchorServices} {service other : UInt32}

def retire (record : AnchorServices) (service : UInt32) (timestamp : Option UInt64)
    (notice : Option String) : AnchorServices :=
  { record with
    serviceRetirements := markRetired record.serviceRetirements service timestamp notice }

def unretire (record : AnchorServices) (service : UInt32) : AnchorServices :=
  { record with serviceRetirements := markUnretired record.serviceRetirements service }

theorem isServiceRetired_iff : isServiceRetired record service = true ↔
    ∃ retirement ∈ record.serviceRetirements,
      retirement.serviceCode = service ∧ retirement.retired = true := by
  simp [isServiceRetired]

theorem isServiceRetired_retire {timestamp : Option UInt64} {notice : Option String} :
    isServiceRetired (record.retire service timestamp notice) other = true ↔
      other = service ∨ isServiceRetired record other = true := by
  rw [isServiceRetired_iff, isServiceRetired_iff]
  unfold retire
  dsimp only
  by_cases hfound : service ∈ record.serviceRetirements.map (·.serviceCode)
  · rw [markRetired_of_mem hfound]
    simp only [List.mem_map, exists_exists_and_eq_and]
    constructor
    · rintro ⟨retirement, hmem, hcode, hretired⟩
      by_cases hsame : retirement.serviceCode = service
      · rw [if_pos hsame] at hcode
        exact Or.inl hcode.symm
      · rw [if_neg hsame] at hcode hretired
        exact Or.inr ⟨retirement, hmem, hcode, hretired⟩
    · rintro (rfl | ⟨retirement, hmem, rfl, hretired⟩)
      · obtain ⟨retirement, hmem, hcode⟩ := List.mem_map.mp hfound
        refine ⟨retirement, hmem, ?_⟩
        rw [if_pos hcode]
        exact ⟨rfl, rfl⟩
      · refine ⟨retirement, hmem, ?_⟩
        by_cases hsame : retirement.serviceCode = service
        · rw [if_pos hsame]
          exact ⟨hsame.symm, rfl⟩
        · rw [if_neg hsame]
          exact ⟨rfl, hretired⟩
  · rw [markRetired_of_not_mem hfound]
    simp only [List.mem_append, List.mem_singleton]
    constructor
    · rintro ⟨retirement, hmem | rfl, hcode, hretired⟩
      · exact Or.inr ⟨retirement, hmem, hcode, hretired⟩
      · exact Or.inl hcode.symm
    · rintro (rfl | ⟨retirement, hmem, hcode, hretired⟩)
      · exact ⟨_, Or.inr rfl, rfl, rfl⟩
      · exact ⟨retirement, Or.inl hmem, hcode, hretired⟩

theorem isServiceRetired_unretire : isServiceRetired (record.unretire service) other = true ↔
    other ≠ service ∧ isServiceRetired record other = true := by
  rw [isServiceRetired_iff, isServiceRetired_iff]
  unfold unretire markUnretired
  simp only [List.mem_map, exists_exists_and_eq_and]
  constructor
  · rintro ⟨retirement, hmem, hcode, hretired⟩
    by_cases hsame : retirement.serviceCode = service
    · rw [if_pos hsame] at hretired
      cases hretired
    · rw [if_neg hsame] at hcode hretired
      exact ⟨fun heq => hsame (hcode.trans heq), retirement, hmem, hcode, hretired⟩
  · rintro ⟨hother, retirement, hmem, rfl, hretired⟩
    refine ⟨retirement, hmem, ?_⟩
    rw [if_neg hother]
    exact ⟨rfl, hretired⟩

end AnchorServices

structure ServiceCodes (codes : List UInt32) : Prop where
  nodup : codes.Nodup
  known : ∀ code ∈ codes, isKnownServiceCode code = true

theorem disjoint_of_check {seen codes : List UInt32} (h : checkServiceCodes seen codes = .ok ()) :
    seen.Disjoint codes ∧ ServiceCodes codes := by
  induction codes generalizing seen with
  | nil => exact ⟨List.disjoint_nil_right seen, List.nodup_nil, nofun⟩
  | cons code rest ih =>
    simp only [checkServiceCodes, require_bind_eq_ok] at h
    obtain ⟨hnew, hknown, hrest⟩ := h
    obtain ⟨hdisjoint, hcodes⟩ := ih hrest
    obtain ⟨hseen, hcode⟩ := List.disjoint_append_left.mp hdisjoint
    rw [List.contains_eq_mem, decide_eq_false_iff_not] at hnew
    refine ⟨List.disjoint_cons_right.mpr ⟨hnew, hseen⟩, ?_, ?_⟩
    · exact List.nodup_cons.mpr ⟨List.singleton_disjoint.mp hcode, hcodes.nodup⟩
    · exact List.forall_mem_cons.mpr ⟨hknown, hcodes.known⟩

theorem serviceCodes_of_check {codes : List UInt32} (h : checkServiceCodes [] codes = .ok ()) :
    ServiceCodes codes :=
  (disjoint_of_check h).2

section Effects

variable {env : Env} {s s' : Storage} {anchor : Address} {service : UInt32}

theorem configureServicesVersioned_effects {services : List UInt32}
    {retirements : List ServiceRetirementInfo} {version : UInt32}
    (h : configureServicesVersioned env s anchor services retirements version = .ok s') :
    (ServiceCodes services ∧ ServiceCodes (retirements.map (·.serviceCode))) ∧
    ∃ events, s' = { s with
      anchorServices := {
        record := s.anchorServices.record.set anchor
          { anchor, services := sortServices services, serviceCapabilityVersion := version,
            serviceRetirements := retirements }
        profile := s.anchorServices.profile.set (loadOrInitProfile s anchor).attestor
          { loadOrInitProfile s anchor with
            services := sortServices services, updatedAt := env.timestamp } }
      events := events } := by
  simp only [configureServicesVersioned, bind_eq_ok, pure_eq_ok] at h
  obtain ⟨_, _, _, _, _, _, _, _, _, hservices, _, hretirements, rfl⟩ := h
  exact ⟨⟨serviceCodes_of_check hservices, serviceCodes_of_check hretirements⟩, _, rfl⟩

theorem retireService_effects {retirementTimestamp : Option UInt64}
    {deprecationNotice : Option String}
    (h : retireService env s anchor service retirementTimestamp deprecationNotice = .ok s') :
    ∃ record events, s.anchorServices.record.get anchor = some record ∧ s' = { s with
      anchorServices := { s.anchorServices with
        record := s.anchorServices.record.set anchor
          (record.retire service retirementTimestamp deprecationNotice) }
      events := events } := by
  simp only [retireService, getSupportedServicesInternal, bind_eq_ok, expect_eq_ok, pure_eq_ok] at h
  obtain ⟨_, _, record, hrecord, rfl⟩ := h
  exact ⟨record, _, hrecord, rfl⟩

theorem unretireService_effects (h : unretireService env s anchor service = .ok s') :
    ∃ record events, s.anchorServices.record.get anchor = some record ∧ s' = { s with
      anchorServices := { s.anchorServices with
        record := s.anchorServices.record.set anchor (record.unretire service) }
      events := events } := by
  simp only [unretireService, getSupportedServicesInternal, bind_eq_ok, expect_eq_ok,
    pure_eq_ok] at h
  obtain ⟨_, _, record, hrecord, rfl⟩ := h
  exact ⟨record, _, hrecord, rfl⟩

end Effects

end AnchorKit
