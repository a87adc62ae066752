import AnchorKit.EntryPoints
import AnchorKit.ServiceProfiles

/-!
# Runs with endpoint proofs

The addresses of a profile are the ones its attestor set last. A proof is the last one its anchor
registered, for an address that passed the validation of domains and was that of the profile, if it
had one, at the time; it counts as verified when its hash was presented after it was registered.
-/

namespace AnchorKit

open Fallible Machine

def endpointSet (attestor : Address) (t : ContractState.Transition) : Option String :=
  match t.input.2 with
  | .setEndpoint a endpoint => if a = attestor then some endpoint else none
  | _ => none

def webhookSet (attestor : Address) (t : ContractState.Transition) : Option String :=
  match t.input.2 with
  | .registerWebhook a webhookUrl => if a = attestor then some webhookUrl else none
  | _ => none

def proofRegistered (anchor : Address) (t : ContractState.Transition) : Option AnchorProofRecord :=
  match t.input.2 with
  | .registerEndpointProof a endpoint proofHash =>
    if a = anchor then
      some { anchor, endpoint, proofHash, registeredAt := t.input.1.timestamp, verified := false }
    else none
  | _ => none

def PresentsProof (anchor : Address) (proofHash : BytesN 32)
    (t : ContractState.Transition) : Prop :=
  t.input.2 = .verifyEndpointProof anchor proofHash

instance (anchor : Address) (proofHash : BytesN 32) (t : ContractState.Transition) :
    Decidable (PresentsProof anchor proofHash t) :=
  inferInstanceAs (Decidable (t.input.2 = _))

/-- The proof of an anchor, once later calls have presented its hash or not. -/
def verifiedBy (anchor : Address) (p : AnchorProofRecord × List ContractState.Transition) :
    AnchorProofRecord :=
  { p.1 with verified := decide (∃ t ∈ p.2, PresentsProof anchor p.1.proofHash t) }

/-- An attestor has set the address, or none. -/
def ValidOrNone (url : String) : Prop := url = "" ∨ validateAnchorDomain url.toList = .ok ()

/-- What a run leaves of the addresses of attestors and of their proofs. -/
structure EndpointsProven (past : List ContractState.Transition) (s : ContractState) : Prop where
  endpoint : ∀ attestor, (loadOrInitProfile s.core attestor).endpoint =
    (lastSome (endpointSet attestor) past).getD ""
  webhook : ∀ attestor, (loadOrInitProfile s.core attestor).webhookUrl =
    (lastSome (webhookSet attestor) past).getD ""
  valid : ∀ attestor, ValidOrNone (loadOrInitProfile s.core attestor).endpoint ∧
    ValidOrNone (loadOrInitProfile s.core attestor).webhookUrl
  proof : ∀ anchor, getEndpointProof s.proofs anchor =
    (sinceLast (proofRegistered anchor) past).map (verifiedBy anchor)
  registered : AtEachStep (fun before t => ∀ anchor record, proofRegistered anchor t = some record →
    anchor ∈ t.input.1.authorized ∧ t.pre.core.registry.attestor.has anchor = true ∧
      validateAnchorDomain record.endpoint.toList = .ok () ∧
      ((lastSome (endpointSet anchor) before).getD "" = "" ∨
        (lastSome (endpointSet anchor) before).getD "" = record.endpoint)) past

section Profiles

variable {host : Host} {sha256 : Bytes → BytesN 32} {s s' : Storage} {t : ContractState.Transition}

/-- Every profile is stored under its own attestor. -/
def OwnProfiles (s : Storage) : Prop :=
  ∀ attestor, (loadOrInitProfile s attestor).attestor = attestor

def addresses (s : Storage) (attestor : Address) : String × String :=
  ((loadOrInitProfile s attestor).endpoint, (loadOrInitProfile s attestor).webhookUrl)

/-- The profiles once one of them was stored. -/
theorem loadOrInitProfile_of_set {owner : Address} {profile : AttestorProfile}
    (h : s'.anchorServices.profile = s.anchorServices.profile.set owner profile)
    (attestor : Address) :
    loadOrInitProfile s' attestor =
      if attestor = owner then profile else loadOrInitProfile s attestor := by
  rw [loadOrInitProfile, h, KeyedStore.get_set]
  split
  · rfl
  · rfl

theorem ownProfiles_of_set {owner : Address} {profile : AttestorProfile}
    (h : s'.anchorServices.profile = s.anchorServices.profile.set owner profile)
    (howner : profile.attestor = owner) (hown : OwnProfiles s) : OwnProfiles s' := by
  intro attestor
  rw [loadOrInitProfile_of_set h]
  split
  · rename_i hattestor
    exact howner.trans hattestor.symm
  · exact hown attestor

theorem addresses_of_profile_eq (hprofile : s'.anchorServices.profile = s.anchorServices.profile)
    (hown : OwnProfiles s) : OwnProfiles s' ∧ addresses s' = addresses s := by
  have hload : loadOrInitProfile s' = loadOrInitProfile s := by
    funext attestor
    rw [loadOrInitProfile, hprofile]
    rfl
  unfold OwnProfiles addresses
  rw [hload]
  exact ⟨hown, rfl⟩

theorem configureServicesVersioned_addresses {env : Env} {anchor : Address}
    {services : List UInt32} {retirements : List ServiceRetirementInfo} {version : UInt32}
    (h : configureServicesVersioned env s anchor services retirements version = .ok s')
    (hown : OwnProfiles s) : OwnProfiles s' ∧ addresses s' = addresses s := by
  obtain ⟨_, _, rfl⟩ := configureServicesVersioned_effects h
  refine ⟨ownProfiles_of_set rfl rfl hown, ?_⟩
  funext attestor
  rw [addresses, addresses, loadOrInitProfile_of_set rfl]
  split
  · rename_i howner
    rw [howner.trans (hown anchor)]
  · rfl

theorem core_addresses {i : Input} (h : step host s i = .ok s') (hown : OwnProfiles s) :
    OwnProfiles s' ∧ addresses s' = addresses s := by
  obtain ⟨env, c⟩ := i
  change invoke host env s c = .ok s' at h
  by_cases hc : .anchorServices ∈ c.touches
  · cases c with
    | configureServices anchor services => exact configureServicesVersioned_addresses h hown
    | configureServicesVersioned anchor services retirements version =>
      exact configureServicesVersioned_addresses h hown
    | configureServicesWithRetire anchor services retirements =>
      exact configureServicesVersioned_addresses h hown
    | retireService anchor service timestamp notice =>
      obtain ⟨_, _, _, rfl⟩ := retireService_effects h
      exact addresses_of_profile_eq rfl hown
    | unretireService anchor service =>
      obtain ⟨_, _, _, rfl⟩ := unretireService_effects h
      exact addresses_of_profile_eq rfl hown
    | _ => exact absurd hc (by simp [Call.touches])
  · exact addresses_of_profile_eq (by rw [(invoke_sameOutside h).anchorServices_eq hc]) hown

/-- What one call of any kind does to the addresses of the profiles. -/
structure ProfileStep (t : ContractState.Transition) : Prop where
  own : OwnProfiles t.post.core
  written : ∀ attestor, addresses t.post.core attestor =
    ((endpointSet attestor t).getD (addresses t.pre.core attestor).1,
      (webhookSet attestor t).getD (addresses t.pre.core attestor).2)
  valid_endpoint : ∀ attestor endpoint, endpointSet attestor t = some endpoint →
    validateAnchorDomain endpoint.toList = .ok ()
  valid_webhook : ∀ attestor webhookUrl, webhookSet attestor t = some webhookUrl →
    validateAnchorDomain webhookUrl.toList = .ok ()

theorem ProfileStep.of_kept (hsets : ∀ attestor, endpointSet attestor t = none ∧
    webhookSet attestor t = none)
    (hkeep : OwnProfiles t.post.core ∧ addresses t.post.core = addresses t.pre.core) :
    ProfileStep t where
  own := hkeep.1
  written attestor := by
    rw [hkeep.2, (hsets attestor).1, (hsets attestor).2]
    rfl
  valid_endpoint attestor endpoint h := by
    rw [(hsets attestor).1] at h
    cases h
  valid_webhook attestor webhookUrl h := by
    rw [(hsets attestor).2] at h
    cases h

theorem endpointSet_setEndpoint {pre post : ContractState} {env : Env} {attestor : Address}
    {endpoint : String} :
    endpointSet attestor ⟨pre, (env, .setEndpoint attestor endpoint), post⟩ = some endpoint :=
  if_pos rfl

theorem webhookSet_registerWebhook {pre post : ContractState} {env : Env} {attestor : Address}
    {webhookUrl : String} :
    webhookSet attestor ⟨pre, (env, .registerWebhook attestor webhookUrl), post⟩ =
      some webhookUrl :=
  if_pos rfl

theorem ProfileStep.of_set {owner : Address} {profile : AttestorProfile}
    (hset : t.post.core.anchorServices.profile =
      t.pre.core.anchorServices.profile.set profile.attestor profile)
    (howner : profile.attestor = owner) (hown : OwnProfiles t.pre.core)
    (hprofile : (profile.endpoint, profile.webhookUrl) =
      ((endpointSet owner t).getD (addresses t.pre.core owner).1,
        (webhookSet owner t).getD (addresses t.pre.core owner).2))
    (hothers : ∀ other, other ≠ owner → endpointSet other t = none ∧ webhookSet other t = none)
    (hvalid : ∀ other url, endpointSet other t = some url ∨ webhookSet other t = some url →
      validateAnchorDomain url.toList = .ok ()) : ProfileStep t where
  own := ownProfiles_of_set hset rfl hown
  written other := by
    rw [howner] at hset
    rw [addresses, loadOrInitProfile_of_set hset]
    by_cases hother : other = owner
    · rw [if_pos hother, hprofile, hother]
    · rw [if_neg hother, (hothers other hother).1, (hothers other hother).2]
      rfl
  valid_endpoint other url h := hvalid other url (Or.inl h)
  valid_webhook other url h := hvalid other url (Or.inr h)

theorem addressStep (h : ContractState.step host sha256 t.pre t.input = .ok t.post)
    (hown : OwnProfiles t.pre.core) : ProfileStep t := by
  obtain ⟨pre, ⟨env, e⟩, post⟩ := t
  have hsame := ContractState.enter_sameOutside h
  have hprofile (hcore : post.core = pre.core) :
      OwnProfiles post.core ∧ addresses post.core = addresses pre.core := by
    rw [hcore]
    exact ⟨hown, rfl⟩
  cases e with
  | core c =>
    simp only [ContractState.step, ContractState.enter, bind_eq_ok, pure_eq_ok] at h
    obtain ⟨core, hinvoke, rfl⟩ := h
    exact .of_kept (fun _ => ⟨rfl, rfl⟩) (core_addresses (i := (env, c)) hinvoke hown)
  | setEndpoint attestor endpoint =>
    simp only [ContractState.step, ContractState.enter, bind_eq_ok, pure_eq_ok] at h
    obtain ⟨core, hset, rfl⟩ := h
    obtain ⟨_, _, hvalid, _, _, rfl⟩ := setEndpoint_effects hset
    refine .of_set rfl (hown attestor) hown ?_ ?_ ?_
    · rw [endpointSet_setEndpoint]
      rfl
    · intro other hother
      exact ⟨if_neg (Ne.symm hother), rfl⟩
    · rintro other url (hurl | hurl)
      · obtain ⟨_, hsame⟩ := Option.ite_none_right_eq_some.mp hurl
        exact Option.some.inj hsame ▸ hvalid
      · cases hurl
  | registerWebhook attestor webhookUrl =>
    simp only [ContractState.step, ContractState.enter, bind_eq_ok, pure_eq_ok] at h
    obtain ⟨core, hset, rfl⟩ := h
    obtain ⟨_, _, hvalid, rfl⟩ := registerWebhook_effects hset
    refine .of_set rfl (hown attestor) hown ?_ ?_ ?_
    · rw [webhookSet_registerWebhook]
      rfl
    · intro other hother
      exact ⟨rfl, if_neg (Ne.symm hother)⟩
    · rintro other url (hurl | hurl)
      · cases hurl
      · obtain ⟨_, hsame⟩ := Option.ite_none_right_eq_some.mp hurl
        exact Option.some.inj hsame ▸ hvalid
  | refreshAnchorInfo anchor tomlData ttlSeconds sourceUri =>
    simp only [ContractState.step, ContractState.enter, AnchorInfo.refreshAnchorInfo, bind_eq_ok,
      pure_eq_ok] at h
    obtain ⟨_, ⟨_, _, _, _, rfl⟩, rfl⟩ := h
    exact .of_kept (fun _ => ⟨rfl, rfl⟩) (addresses_of_profile_eq rfl hown)
  | createRequestContext rootRequestId =>
    simp only [ContractState.step, ContractState.enter, createRequestContext, bind_eq_ok,
      pure_eq_ok] at h
    obtain ⟨_, ⟨_, _, _, _, rfl⟩, rfl⟩ := h
    exact .of_kept (fun _ => ⟨rfl, rfl⟩) (addresses_of_profile_eq rfl hown)
  | appendOperation rootRequestIdBytes operationName =>
    simp only [ContractState.step, ContractState.enter, appendOperation, bind_eq_ok,
      pure_eq_ok] at h
    obtain ⟨_, ⟨_, _, rfl⟩, rfl⟩ := h
    exact .of_kept (fun _ => ⟨rfl, rfl⟩) (addresses_of_profile_eq rfl hown)
  | _ =>
    -- the other entry points do not write the core
    exact .of_kept (fun _ => ⟨rfl, rfl⟩)
      (hprofile (hsame .core (by simp [ContractState.writes])))

end Profiles

section Proofs

variable {host : Host} {sha256 : Bytes → BytesN 32} {anchor : Address}
  {past : List ContractState.Transition} {t : ContractState.Transition}
  {p : AnchorProofRecord × List ContractState.Transition}

theorem verifiedBy_snoc_of_presents (h : PresentsProof anchor p.1.proofHash t) :
    verifiedBy anchor (p.1, p.2 ++ [t]) = { verifiedBy anchor p with verified := true } := by
  have hpresented : ∃ u ∈ p.2 ++ [t], PresentsProof anchor p.1.proofHash u :=
    ⟨t, List.mem_append_right _ List.mem_cons_self, h⟩
  simp only [verifiedBy, decide_eq_true hpresented]

theorem verifiedBy_snoc_of_not (h : ¬ PresentsProof anchor p.1.proofHash t) :
    verifiedBy anchor (p.1, p.2 ++ [t]) = verifiedBy anchor p := by
  have hsame : (∃ u ∈ p.2 ++ [t], PresentsProof anchor p.1.proofHash u) ↔
      ∃ u ∈ p.2, PresentsProof anchor p.1.proofHash u := by
    simp only [mem_snoc, or_and_right, exists_or, exists_eq_left, h, or_false]
  simp only [verifiedBy, decide_eq_decide.mpr hsame]

def ProofTold (anchor : Address) (past : List ContractState.Transition) (proofs : ProofStore) :
    Prop :=
  getEndpointProof proofs anchor = (sinceLast (proofRegistered anchor) past).map (verifiedBy anchor)

/-- A call that neither registers nor presents anything for the anchor. -/
theorem ProofTold.of_kept (hpre : ProofTold anchor past t.pre.proofs)
    (hregisters : proofRegistered anchor t = none)
    (hpresents : ∀ hash, ¬ PresentsProof anchor hash t)
    (hkeep : t.post.proofs.get anchor = t.pre.proofs.get anchor) :
    ProofTold anchor (past ++ [t]) t.post.proofs := by
  rw [ProofTold, getEndpointProof, hkeep, sinceLast_snoc_of_none hregisters, Option.map_map]
  refine hpre.trans (congrArg (fun f => Option.map f _) ?_)
  funext p
  exact (verifiedBy_snoc_of_not (hpresents p.1.proofHash)).symm

theorem ProofTold.of_registered {record : AnchorProofRecord}
    (hregisters : proofRegistered anchor t = some record) (hfresh : record.verified = false)
    (hstored : t.post.proofs.get anchor = some record) :
    ProofTold anchor (past ++ [t]) t.post.proofs := by
  rw [ProofTold, getEndpointProof, hstored, sinceLast_snoc_of_some hregisters, Option.map_some,
    verifiedBy]
  simp [← hfresh]

theorem verifyEndpointProof_get (proofs : ProofStore) (a : Address) (hash : BytesN 32) :
    (verifyEndpointProof proofs a hash).1.get anchor = (proofs.get anchor).map fun r =>
      if a = anchor ∧ r.proofHash = hash then { r with verified := true } else r := by
  unfold verifyEndpointProof
  by_cases ha : a = anchor
  · subst ha
    cases hget : proofs.get a with
    | none => exact hget
    | some record =>
      by_cases hhash : record.proofHash = hash
      · simp [hhash]
      · simp [hhash, hget]
  · have hkeep : (proofs.get anchor).map (fun record =>
        if a = anchor ∧ record.proofHash = hash then { record with verified := true } else record) =
        proofs.get anchor := by simp [ha]
    rw [hkeep]
    cases proofs.get a with
    | none => rfl
    | some record =>
      by_cases hhash : record.proofHash = hash
      · simp [hhash, KeyedStore.get_set_of_ne _ _ (Ne.symm ha)]
      · simp [hhash]

theorem proofTold_step (h : ContractState.step host sha256 t.pre t.input = .ok t.post)
    (hpre : ProofTold anchor past t.pre.proofs) : ProofTold anchor (past ++ [t]) t.post.proofs := by
  obtain ⟨pre, ⟨env, e⟩, post⟩ := t
  have hsame := ContractState.enter_sameOutside h
  cases e with
  | registerEndpointProof a endpoint proofHash =>
    simp only [ContractState.step, ContractState.enter, bind_eq_ok, pure_eq_ok] at h
    obtain ⟨proofs, hregister, rfl⟩ := h
    obtain ⟨_, _, _, _, rfl⟩ := registerEndpointProof_effects hregister
    by_cases ha : a = anchor
    · subst ha
      exact .of_registered (if_pos rfl) rfl (KeyedStore.get_set_self _ _ _)
    · exact hpre.of_kept (if_neg ha) (fun _ => by simp [PresentsProof])
        (KeyedStore.get_set_of_ne _ _ (Ne.symm ha))
  | verifyEndpointProof a proofHash =>
    have hproofs : post.proofs = (verifyEndpointProof pre.proofs a proofHash).1 :=
      (congrArg ContractState.proofs (Except.ok.inj h)).symm
    rw [ProofTold, sinceLast_snoc_of_none rfl, hproofs, getEndpointProof, verifyEndpointProof_get,
      show pre.proofs.get anchor = _ from hpre, Option.map_map, Option.map_map]
    refine congrArg (fun f => Option.map f _) (funext fun p => ?_)
    by_cases hpresents : a = anchor ∧ p.1.proofHash = proofHash
    · obtain ⟨rfl, rfl⟩ := hpresents
      refine (if_pos ⟨rfl, rfl⟩).trans (verifiedBy_snoc_of_presents ?_).symm
      rfl
    · refine (if_neg hpresents).trans (verifiedBy_snoc_of_not fun hsame => hpresents ?_).symm
      obtain ⟨rfl, rfl⟩ := EntryPoint.verifyEndpointProof.inj hsame
      exact ⟨rfl, rfl⟩
  | _ =>
    have hproofs : post.proofs = pre.proofs := hsame .proofs (by simp [ContractState.writes])
    exact hpre.of_kept rfl (fun _ => by simp [PresentsProof]) (by rw [hproofs])

end Proofs

section Runs

variable (host : Host) (sha256 : Bytes → BytesN 32)

structure AddressesTold (past : List ContractState.Transition) (s : Storage) : Prop where
  own : OwnProfiles s
  told : ∀ attestor, addresses s attestor =
    ((lastSome (endpointSet attestor) past).getD "", (lastSome (webhookSet attestor) past).getD "")
  valid : ∀ attestor, ValidOrNone (addresses s attestor).1 ∧ ValidOrNone (addresses s attestor).2

theorem addressesTold_step {past : List ContractState.Transition} {t : ContractState.Transition}
    (h : ContractState.step host sha256 t.pre t.input = .ok t.post)
    (hpre : AddressesTold past t.pre.core) : AddressesTold (past ++ [t]) t.post.core := by
  have hstep := addressStep h hpre.own
  refine ⟨hstep.own, fun attestor => ?_, fun attestor => ?_⟩
  · rw [hstep.written, hpre.told, lastSome_snoc, lastSome_snoc, Option.getD_or, Option.getD_or]
  · rw [hstep.written]
    constructor
    · cases hset : endpointSet attestor t with
      | none => exact (hpre.valid attestor).1
      | some endpoint => exact Or.inr (hstep.valid_endpoint attestor endpoint hset)
    · cases hset : webhookSet attestor t with
      | none => exact (hpre.valid attestor).2
      | some webhookUrl => exact Or.inr (hstep.valid_webhook attestor webhookUrl hset)

theorem addressesTold_run (is : List ContractState.Input) :
    AddressesTold (ContractState.history host sha256 is) (ContractState.run host sha256 is).core :=
  Machine.history_invariant (ContractState.step host sha256)
    (fun past s => AddressesTold past s.core) (fun _ => True)
    ⟨fun _ => rfl, fun _ => rfl, fun _ => ⟨Or.inl rfl, Or.inl rfl⟩⟩
    (fun _ _ ht hpre _ => addressesTold_step host sha256 ht hpre) is fun _ _ => trivial

theorem proofTold_run (anchor : Address) (is : List ContractState.Input) :
    ProofTold anchor (ContractState.history host sha256 is)
      (ContractState.run host sha256 is).proofs := by
  have hempty : ProofTold anchor [] ContractState.empty.proofs := rfl
  exact Machine.history_invariant (ContractState.step host sha256)
    (fun past s => ProofTold anchor past s.proofs) (fun _ => True) hempty
    (fun _ _ ht hpre _ => proofTold_step ht hpre) is fun _ _ => trivial

theorem registered_run (is : List ContractState.Input) :
    AtEachStep (fun before t => ∀ anchor record, proofRegistered anchor t = some record →
      anchor ∈ t.input.1.authorized ∧ t.pre.core.registry.attestor.has anchor = true ∧
        validateAnchorDomain record.endpoint.toList = .ok () ∧
        ((lastSome (endpointSet anchor) before).getD "" = "" ∨
          (lastSome (endpointSet anchor) before).getD "" = record.endpoint))
      (ContractState.history host sha256 is) := by
  intro before t after hsplit anchor record hregistered
  obtain ⟨js, _, _, hrun, rfl⟩ := exists_prefix_of_transitions_eq _ hsplit
  have ht : t ∈ ContractState.history host sha256 is := by
    rw [hsplit]
    exact List.mem_append_right _ List.mem_cons_self
  have hstep := step_of_mem_transitions _ ht
  have htold := (addressesTold_run host sha256 js).told anchor
  rw [show ContractState.run host sha256 js = t.pre from hrun] at htold
  obtain ⟨pre, ⟨env, e⟩, post⟩ := t
  cases e with
  | registerEndpointProof a endpoint proofHash =>
    obtain ⟨rfl, hrecord⟩ := Option.ite_none_right_eq_some.mp hregistered
    obtain rfl := Option.some.inj hrecord
    simp only [ContractState.step, ContractState.enter, bind_eq_ok, pure_eq_ok] at hstep
    obtain ⟨_, hregister, _⟩ := hstep
    obtain ⟨hauth, hattestor, hvalid, hprofile, _⟩ := registerEndpointProof_effects hregister
    have hendpoint := congrArg Prod.fst htold
    simp only [addresses] at hendpoint
    rw [hendpoint, String.utf8ByteSize_eq_zero_iff] at hprofile
    exact ⟨hauth, hattestor, hvalid, hprofile⟩
  | _ => cases hregistered

/-- The addresses of attestors and the proofs of endpoints after any run of the contract. -/
theorem endpoints_run (is : List ContractState.Input) :
    EndpointsProven (ContractState.history host sha256 is) (ContractState.run host sha256 is) where
  endpoint attestor := congrArg Prod.fst ((addressesTold_run host sha256 is).told attestor)
  webhook attestor := congrArg Prod.snd ((addressesTold_run host sha256 is).told attestor)
  valid := (addressesTold_run host sha256 is).valid
  proof anchor := proofTold_run host sha256 anchor is
  registered := registered_run host sha256 is

end Runs

end AnchorKit
