import AnchorKit.Access
import AnchorKit.Library.Machine

/-!
# Routing profiles of networks

A profile may be marked as the default. The name of the network that was marked last is kept beside
the profiles, and registering that network again does not look at it. No other entry point writes
these records, so the rest of the storage is an input here.
-/

namespace AnchorKit

open Fallible

structure NetworkRoutingProfile where
  networkName : String
  defaultStrategy : String
  feeWeight : UInt32
  speedWeight : UInt32
  reputationWeight : UInt32
  minReputation : UInt32
  isDefault : Bool
deriving DecidableEq, Repr

structure ProfileStore where
  profiles : KeyedStore String NetworkRoutingProfile
  activeNetwork : Option String
  defaultNetwork : Option String

namespace ProfileStore

def empty : ProfileStore := ⟨.empty, none, none⟩

def registerNetworkRoutingProfile (env : Env) (s : Storage) (store : ProfileStore)
    (networkName defaultStrategy : String)
    (feeWeight speedWeight reputationWeight minReputation : UInt32) (isDefault : Bool) :
    Except Panic ProfileStore := do
  requireAdmin env s
  require (networkName ≠ "") (.withError .validationError)
  require (defaultStrategy ≠ "") (.withError .validationError)
  require (((Word.checkedAdd32 feeWeight speedWeight).bind
    (Word.checkedAdd32 · reputationWeight)) = some 1000) (.withError .invalidWeights)
  let profile : NetworkRoutingProfile := {
    networkName, defaultStrategy, feeWeight, speedWeight, reputationWeight, minReputation
    isDefault }
  let store := if isDefault then { store with defaultNetwork := some networkName } else store
  return { store with profiles := store.profiles.set networkName profile }

def setActiveNetwork (env : Env) (s : Storage) (store : ProfileStore) (networkName : String) :
    Except Panic ProfileStore := do
  requireAdmin env s
  require (networkName ≠ "") (.withError .validationError)
  return { store with activeNetwork := some networkName }

def getActiveNetwork (store : ProfileStore) : Option String := store.activeNetwork

def getNetworkRoutingProfile (store : ProfileStore) (networkName : String) :
    Option NetworkRoutingProfile :=
  store.profiles.get networkName

def getRoutingProfile (store : ProfileStore) : Option NetworkRoutingProfile :=
  match store.activeNetwork.bind store.profiles.get with
  | some profile => some profile
  | none =>
    match store.defaultNetwork.bind store.profiles.get with
    | some profile => if profile.isDefault then some profile else none
    | none => none

inductive Call
  | registerNetworkRoutingProfile (networkName defaultStrategy : String)
      (feeWeight speedWeight reputationWeight minReputation : UInt32) (isDefault : Bool)
  | setActiveNetwork (networkName : String)

/-- A call, with the environment and the rest of the storage that it finds. -/
structure Input where
  env : Env
  storage : Storage
  call : Call

def step (store : ProfileStore) (i : Input) : Except Panic ProfileStore :=
  match i.call with
  | .registerNetworkRoutingProfile networkName defaultStrategy feeWeight speedWeight
      reputationWeight minReputation isDefault =>
    registerNetworkRoutingProfile i.env i.storage store networkName defaultStrategy feeWeight
      speedWeight reputationWeight minReputation isDefault
  | .setActiveNetwork networkName => setActiveNetwork i.env i.storage store networkName

/-! ### The history of registrations -/

def Call.profile : Call → Option NetworkRoutingProfile
  | .registerNetworkRoutingProfile networkName defaultStrategy feeWeight speedWeight
      reputationWeight minReputation isDefault =>
    some { networkName, defaultStrategy, feeWeight, speedWeight, reputationWeight, minReputation
           isDefault }
  | .setActiveNetwork _ => none

def registration (t : Machine.Transition ProfileStore Input) : Option NetworkRoutingProfile :=
  t.input.call.profile

def registered (calls : List Input) : List NetworkRoutingProfile :=
  ((Machine.transitions step empty calls).filterMap registration).reverse

def latest (ps : List NetworkRoutingProfile) (name : String) : Option NetworkRoutingProfile :=
  ps.find? fun p => p.networkName = name

def latestDefault (ps : List NetworkRoutingProfile) : Option NetworkRoutingProfile :=
  ps.find? fun p => p.isDefault

structure Recorded (ps : List NetworkRoutingProfile) (store : ProfileStore) : Prop where
  profiles : ∀ name, store.profiles.get name = latest ps name
  defaultNetwork : store.defaultNetwork = (latestDefault ps).map fun p => p.networkName

section History

variable {ps : List NetworkRoutingProfile} {store store' : ProfileStore} {i : Input}

theorem Recorded.step (h : Recorded ps store) (hstep : step store i = .ok store') :
    Recorded (i.call.profile.toList ++ ps) store' := by
  obtain ⟨env, s, call⟩ := i
  cases call with
  | setActiveNetwork name =>
    obtain ⟨_, -, hstep⟩ := bind_eq_ok.mp hstep
    rw [require_bind_eq_ok, pure_eq_ok] at hstep
    obtain ⟨-, rfl⟩ := hstep
    exact ⟨h.profiles, h.defaultNetwork⟩
  | registerNetworkRoutingProfile name strategy fee speed reputation floor isDefault =>
    obtain ⟨_, -, hstep⟩ := bind_eq_ok.mp hstep
    rw [require_bind_eq_ok, require_bind_eq_ok, require_bind_eq_ok, pure_eq_ok] at hstep
    obtain ⟨-, -, -, rfl⟩ := hstep
    refine ⟨fun n => ?_, ?_⟩
    · have hold : (if isDefault then { store with defaultNetwork := some name }
          else store).profiles = store.profiles := by
        split <;> rfl
      change (KeyedStore.set _ name _).get n = _
      rw [hold, KeyedStore.get_set, h.profiles, latest, latest, Call.profile, Option.toList_some,
        List.singleton_append, List.find?_cons]
      by_cases hn : n = name
      · rw [if_pos hn, decide_eq_true hn.symm]
      · rw [if_neg hn, decide_eq_false (Ne.symm hn)]
    · change (if isDefault then { store with defaultNetwork := some name }
          else store).defaultNetwork = _
      rw [latestDefault, Call.profile, Option.toList_some, List.singleton_append, List.find?_cons]
      cases isDefault with
      | true => rfl
      | false => exact h.defaultNetwork

theorem recorded_run (calls : List Input) :
    Recorded (registered calls) (Machine.run ProfileStore.step empty calls) := by
  refine Machine.history_invariant ProfileStore.step
    (fun past => Recorded (past.filterMap registration).reverse)
    (fun _ => True) ?_ ?_ calls fun _ _ => trivial
  · exact ⟨fun _ => rfl, rfl⟩
  · intro past t hstep h _
    have hnext := h.step hstep
    rw [List.filterMap_append, List.reverse_append]
    change Recorded ((registration t).toList ++ _) _ at hnext
    cases hprofile : registration t with
    | none =>
      rw [hprofile] at hnext
      rwa [List.filterMap_cons_none hprofile]
    | some p =>
      rw [hprofile] at hnext
      rwa [List.filterMap_cons_some hprofile]

end History

/-! ### The fallback -/

/-- The profile of the active network is found, and else one that is marked as the default. -/
structure Resolves (store : ProfileStore) : Prop where
  active : ∀ name p, store.activeNetwork = some name → store.profiles.get name = some p →
    store.getRoutingProfile = some p
  fallback : store.activeNetwork.bind store.profiles.get = none →
    (∃ name p, store.profiles.get name = some p ∧ p.isDefault = true) →
    ∃ name p, store.getRoutingProfile = some p ∧ store.profiles.get name = some p ∧
      p.isDefault = true

section Fallback

variable {ps : List NetworkRoutingProfile} {store : ProfileStore} {p d : NetworkRoutingProfile}

theorem getRoutingProfile_of_active (h : store.activeNetwork.bind store.profiles.get = some p) :
    store.getRoutingProfile = some p := by
  rw [getRoutingProfile, h]

theorem getRoutingProfile_of_fallback (h : store.activeNetwork.bind store.profiles.get = none) :
    store.getRoutingProfile = (store.defaultNetwork.bind store.profiles.get).filter
      fun p => p.isDefault := by
  rw [getRoutingProfile, h]
  cases store.defaultNetwork.bind store.profiles.get with
  | none => rfl
  | some p =>
    dsimp only
    rw [Option.filter_some]

/-- The latest profile of the network that was marked last is that mark, or it is no default. -/
theorem eq_latestDefault (hd : latestDefault ps = some d) (hp : latest ps d.networkName = some p)
    (hdefault : p.isDefault = true) : p = d := by
  induction ps with
  | nil => cases hd
  | cons q ps ih =>
    rw [latestDefault, List.find?_cons] at hd
    rw [latest, List.find?_cons] at hp
    split at hp
    · rename_i hname
      obtain rfl := Option.some.inj hp
      rw [hdefault] at hd
      exact Option.some.inj hd
    · rename_i hname
      split at hd
      · obtain rfl := Option.some.inj hd
        exact absurd rfl (of_decide_eq_false hname)
      · exact ih hd hp

/-- Where the active network has no profile, the fallback works exactly when no stored profile is
marked or the network that was marked last has not been registered again. -/
theorem resolves_iff_of_recorded (h : Recorded ps store) : Resolves store ↔
    (∃ name, store.activeNetwork = some name ∧ ∃ p ∈ ps, p.networkName = name) ∨
      (∀ name p, latest ps name = some p → p.isDefault = false) ∨
      ∀ d, latestDefault ps = some d → latest ps d.networkName = some d := by
  have hget : store.defaultNetwork.bind store.profiles.get =
      (latestDefault ps).bind fun d => latest ps d.networkName := by
    rw [h.defaultNetwork, Option.bind_map]
    exact congrArg _ (funext fun d => h.profiles d.networkName)
  constructor
  · intro hres
    by_contra hnot
    obtain ⟨hactive, hnot⟩ := not_or.mp hnot
    obtain ⟨hmarked, hagain⟩ := not_or.mp hnot
    have hnone : store.activeNetwork.bind store.profiles.get = none := by
      rw [Option.bind_eq_none_iff]
      intro name hname
      rw [h.profiles, latest, List.find?_eq_none]
      intro p hp hpn
      exact hactive ⟨name, hname, p, hp, of_decide_eq_true hpn⟩
    simp only [not_forall, Bool.not_eq_false] at hmarked
    obtain ⟨name, p, hp, hdefault⟩ := hmarked
    obtain ⟨-, q, hq, -, -⟩ := hres.fallback hnone ⟨name, p, (h.profiles name).trans hp, hdefault⟩
    rw [getRoutingProfile_of_fallback hnone, hget, Option.filter_eq_some_iff] at hq
    obtain ⟨hq, hqdefault⟩ := hq
    obtain ⟨d, hd, hlatest⟩ := Option.bind_eq_some_iff.mp hq
    refine hagain fun d' hd' => ?_
    obtain rfl := Option.some.inj (hd.symm.trans hd')
    obtain rfl := eq_latestDefault hd hlatest hqdefault
    exact hlatest
  · intro hcond
    refine ⟨fun name p hname hp => getRoutingProfile_of_active ?_, fun hnone hmarked => ?_⟩
    · rw [hname]
      exact hp
    · obtain ⟨name, p, hp, hdefault⟩ := hmarked
      rw [h.profiles] at hp
      rcases hcond with ⟨active, hactive, q, hq, hqactive⟩ | hnot | hkept
      · rw [hactive, Option.bind_some, h.profiles, latest, List.find?_eq_none] at hnone
        exact absurd (decide_eq_true hqactive) (hnone q hq)
      · rw [hnot name p hp] at hdefault
        cases hdefault
      · cases hd : latestDefault ps with
        | none =>
          exact absurd hdefault (List.find?_eq_none.mp hd p (List.mem_of_find?_eq_some hp))
        | some d =>
          have hlatest := hkept d hd
          have hmark : d.isDefault = true := by
            rw [latestDefault] at hd
            have hfound := List.find?_some hd
            exact hfound
          refine ⟨d.networkName, d, ?_, (h.profiles _).trans hlatest, hmark⟩
          rw [getRoutingProfile_of_fallback hnone, hget, hd, Option.bind_some, hlatest,
            Option.filter_some, if_pos hmark]

end Fallback

/-- The profile that a run leaves to be found. -/
theorem resolves_iff (calls : List Input) : Resolves (Machine.run step empty calls) ↔
    (∃ name, (Machine.run step empty calls).activeNetwork = some name ∧
      ∃ p ∈ registered calls, p.networkName = name) ∨
    (∀ name p, latest (registered calls) name = some p → p.isDefault = false) ∨
    ∀ d, latestDefault (registered calls) = some d →
      latest (registered calls) d.networkName = some d :=
  resolves_iff_of_recorded (recorded_run calls)

namespace Demo

def admin : Address := ⟨"admin"⟩

def storage : Storage :=
  { Storage.empty with access := { Storage.empty.access with admin := some admin } }

def register (networkName : String) (isDefault : Bool) : Input where
  env := ⟨1000, 1, [admin]⟩
  storage := storage
  call := .registerNetworkRoutingProfile networkName "balanced" 400 300 300 0 isDefault

end Demo

/-- The network that was marked last is registered again without the mark. -/
theorem unmarked_default_hides_other : ¬ ∀ calls, Resolves (Machine.run step empty calls) := by
  intro h
  have hres := h [Demo.register "mainnet" true, Demo.register "testnet" true,
    Demo.register "testnet" false]
  obtain ⟨_, _, hget, -⟩ := hres.fallback rfl
    ⟨"mainnet", ⟨"mainnet", "balanced", 400, 300, 300, 0, true⟩, by decide, rfl⟩
  cases hget

end ProfileStore

end AnchorKit
