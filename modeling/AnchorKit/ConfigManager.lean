import AnchorKit.Library.Machine
import AnchorKit.Library.Text
import AnchorKit.Types

/-!
# Hot reload of the runtime configuration

A load reads the file and asks for its modification time in two steps, and the file may be written
between them. The steps of any number of calls interleave with the writes; what turns the text of
the file into a configuration is a parameter.
-/

namespace AnchorKit

open Fallible

inductive ConfigFormat
  | json
  | toml
deriving DecidableEq, Repr

def fileName (path : Text) : Option Text :=
  match ((path.splitOn '/').filter fun part => part ≠ [] && part ≠ ['.']).getLast? with
  | some name => if name = "..".toList then none else some name
  | none => none

/-- What follows the last dot of a file name, unless the name starts with that dot. -/
def extension (path : Text) : Option Text := do
  let (stem, ext) ← Text.rcutAt '.' (← fileName path)
  if stem = [] then none else some ext

namespace ConfigFormat

def fromPath (path : Text) : Except Text ConfigFormat :=
  match extension path with
  | some ext =>
    if ext = "json".toList then .ok json
    else if ext = "toml".toList then .ok toml
    else .error ("unsupported config file extension '.".toList ++ ext ++
      "' (supported formats: .json, .toml)".toList)
  | none =>
    .error "config path has no file extension (supported formats: .json, .toml)".toList

end ConfigFormat

/-- The path of a configuration file, and how its content is read. -/
structure ConfigSource (Config : Type) where
  path : Text
  readToString : Bytes → Except Text Text
  parseRuntimeConfigStr : Text → ConfigFormat → Except Text Config

structure ConfigFile where
  content : Bytes
  modified : ℕ

structure RuntimeConfigManager (Config : Type) where
  config : Config
  lastModified : Option ℕ

namespace RuntimeConfigManager

/-- Where a call on the manager stands. -/
inductive Stage (Config : Type)
  | idle
  /-- `has_changed` has asked for the modification time. -/
  | stated (modified : Option ℕ)
  /-- `has_changed` has said so, and `reload` comes next. -/
  | due
  | read (config : Config)
  | swapped

def Stage.ofLoad {Config : Type} : Except Text Config → Stage Config
  | .ok config => .read config
  | .error _ => .idle

/-- The manager while it is made, and with the calls on it by caller. -/
inductive Phase (Config Caller : Type)
  | absent
  | opening (config : Config)
  | ready (manager : RuntimeConfigManager Config) (calls : Caller → Stage Config)

structure System (Config Caller : Type) where
  file : ConfigFile
  phase : Phase Config Caller

/-- The steps of a call: the two of `has_changed`, then the three of `reload`. -/
inductive Action
  | statChanged
  | compareChanged
  | reloadRead
  | reloadSwap
  | reloadStat

inductive Event (Caller : Type)
  | write (content : Bytes) (modified : ℕ)
  | newRead
  | newStat
  | call (caller : Caller) (action : Action)

variable {Config Caller : Type}

def loadRuntimeConfigFile (source : ConfigSource Config) (file : ConfigFile) :
    Except Text Config := do
  require (source.path ≠ []) "config path must not be blank".toList
  let input ← source.readToString file.content
  let format ← ConfigFormat.fromPath source.path
  source.parseRuntimeConfigStr input format

def fileModifiedTime (file : ConfigFile) : Option ℕ := some file.modified

def hasChanged (current last : Option ℕ) : Bool :=
  match current, last with
  | some cur, some last => last < cur
  | some _, none => true
  | none, _ => false

/-- A step that the phase or the stage of the caller does not allow. -/
inductive Blocked
  | blocked

section Model

variable (source : ConfigSource Config)

/-- One step of a call, on the manager and the stage of the call. -/
def callStep (file : ConfigFile) (m : RuntimeConfigManager Config) :
    Stage Config → Action → Except Blocked (RuntimeConfigManager Config × Stage Config)
  | .idle, .statChanged => .ok (m, .stated (fileModifiedTime file))
  | .stated modified, .compareChanged =>
    .ok (m, if hasChanged modified m.lastModified then .due else .idle)
  | .idle, .reloadRead | .due, .reloadRead =>
    .ok (m, .ofLoad (loadRuntimeConfigFile source file))
  | .read config, .reloadSwap => .ok ({ m with config }, .swapped)
  | .swapped, .reloadStat => .ok ({ m with lastModified := fileModifiedTime file }, .idle)
  | _, _ => .error .blocked

def step [DecidableEq Caller] (s : System Config Caller) (e : Event Caller) :
    Except Blocked (System Config Caller) :=
  match e, s.phase with
  | .write content modified, _ => do
    require (s.file.modified < modified) .blocked
    return { s with file := ⟨content, modified⟩ }
  | .newRead, .absent =>
    match loadRuntimeConfigFile source s.file with
    | .ok config => .ok { s with phase := .opening config }
    | .error _ => .ok s
  | .newStat, .opening config =>
    .ok { s with phase := .ready ⟨config, fileModifiedTime s.file⟩ fun _ => .idle }
  | .call caller action, .ready m calls => do
    let (m', stage) ← callStep source s.file m (calls caller) action
    return { s with phase := .ready m' (Function.update calls caller stage) }
  | _, _ => .error .blocked

def start (file : ConfigFile) : System Config Caller := ⟨file, .absent⟩

end Model

/-! ### What a step does -/

section Steps

variable {source : ConfigSource Config} {file : ConfigFile} {m m' : RuntimeConfigManager Config}
  {stage stage' : Stage Config} {config : Config}

namespace Stage

/-- Between the read of the file and the record of its modification time. -/
def InFlight : Stage Config → Prop
  | .read _ | .swapped => True
  | _ => False

@[simp] theorem not_inFlight_idle : ¬ (idle : Stage Config).InFlight := id

@[simp] theorem not_inFlight_stated (modified : Option ℕ) :
    ¬ (stated modified : Stage Config).InFlight := id

@[simp] theorem not_inFlight_due : ¬ (due : Stage Config).InFlight := id

@[simp] theorem inFlight_read (config : Config) : (read config).InFlight := trivial

@[simp] theorem inFlight_swapped : (swapped : Stage Config).InFlight := trivial

end Stage

inductive Effect (source : ConfigSource Config) (file : ConfigFile)
    (m : RuntimeConfigManager Config) : Stage Config → RuntimeConfigManager Config →
      Stage Config → Prop
  | aside {stage stage' : Stage Config} (h : ¬ stage.InFlight) (h' : ¬ stage'.InFlight) :
    Effect source file m stage m stage'
  | read {stage : Stage Config} {config : Config} (h : ¬ stage.InFlight)
    (hload : loadRuntimeConfigFile source file = .ok config) :
    Effect source file m stage m (.read config)
  | swap (config : Config) : Effect source file m (.read config) { m with config } .swapped
  | record : Effect source file m .swapped
    { m with lastModified := fileModifiedTime file } .idle

theorem effect_ofLoad (h : ¬ stage.InFlight) :
    Effect source file m stage m (.ofLoad (loadRuntimeConfigFile source file)) := by
  cases hload : loadRuntimeConfigFile source file with
  | ok config => exact .read h hload
  | error e => exact .aside h id

theorem effect_of_callStep {action : Action}
    (h : callStep source file m stage action = .ok (m', stage')) :
    Effect source file m stage m' stage' := by
  unfold callStep at h
  split at h
  · cases h
    exact .aside id id
  · cases h
    refine .aside id ?_
    split <;> exact id
  · cases h
    exact effect_ofLoad id
  · cases h
    exact effect_ofLoad id
  · cases h
    exact .swap _
  · cases h
    exact .record
  · cases h

end Steps

/-! ### No lost update -/

/-- Configurations that the loads in flight install, if the file is not read again. -/
def Installs : Phase Config Caller → Config → Prop
  | .absent, _ => False
  | .opening config, c => c = config
  | .ready m calls, c => (∃ u, calls u = .read c) ∨
      (∀ u c', calls u ≠ .read c') ∧ (∃ u, calls u = .swapped) ∧ c = m.config

def AtRest (calls : Caller → Stage Config) : Prop := ∀ u, ¬ (calls u).InFlight

/-- The configuration is that of the file, unless the change can be seen or a load is in flight. -/
def UpToDate (source : ConfigSource Config) (s : System Config Caller) : Prop :=
  ∀ m calls, s.phase = .ready m calls → AtRest calls →
    hasChanged (fileModifiedTime s.file) m.lastModified = false →
    loadRuntimeConfigFile source s.file = .ok m.config

/-- Whatever the loads in flight install is what the new content says. -/
def SafeWrite (source : ConfigSource Config)
    (t : Machine.Transition (System Config Caller) (Event Caller)) : Prop :=
  ∀ content modified, t.input = .write content modified → ∀ c, Installs t.pre.phase c →
    loadRuntimeConfigFile source ⟨content, modified⟩ = .ok c

structure Coherent (source : ConfigSource Config) (s : System Config Caller) : Prop where
  installs : ∀ c, Installs s.phase c → loadRuntimeConfigFile source s.file = .ok c
  upToDate : UpToDate source s
  recorded : ∀ m calls, s.phase = .ready m calls →
    ∃ last, m.lastModified = some last ∧ last ≤ s.file.modified

section Invariant

variable {source : ConfigSource Config} {s s' : System Config Caller} {m m' : RuntimeConfigManager Config}
  {calls : Caller → Stage Config} {u : Caller} {stage : Stage Config} {c : Config}

theorem hasChanged_eq_false {current last : ℕ} :
    hasChanged (some current) (some last) = false ↔ current ≤ last := by
  rw [hasChanged, decide_eq_false_iff_not, Nat.not_lt]

theorem Coherent.start (file : ConfigFile) :
    Coherent source (start file : System Config Caller) :=
  ⟨nofun, nofun, nofun⟩

theorem Coherent.write (h : Coherent source s) {content : Bytes} {modified : ℕ}
    (hlater : s.file.modified < modified)
    (hsafe : ∀ c, Installs s.phase c →
      loadRuntimeConfigFile source ⟨content, modified⟩ = .ok c) :
    Coherent source { s with file := ⟨content, modified⟩ } := by
  refine ⟨hsafe, fun m calls hphase _ hsame => ?_, fun m calls hphase => ?_⟩
  · obtain ⟨last, hlast, hle⟩ := h.recorded m calls hphase
    rw [fileModifiedTime, hlast, hasChanged_eq_false] at hsame
    exact absurd (hle.trans_lt hlater) (Nat.not_lt.mpr hsame)
  · obtain ⟨last, hlast, hle⟩ := h.recorded m calls hphase
    exact ⟨last, hlast, hle.trans hlater.le⟩

theorem Coherent.opened (h : Coherent source s) (hphase : s.phase = .opening c) :
    Coherent source (⟨s.file, .ready ⟨c, fileModifiedTime s.file⟩ fun _ => .idle⟩ :
      System Config Caller) := by
  have hload := h.installs c (hphase ▸ rfl)
  refine ⟨fun c' hc' => ?_, fun m calls hready _ _ => ?_, fun m calls hready => ?_⟩
  · rcases hc' with ⟨_, hread⟩ | ⟨-, ⟨_, hswapped⟩, -⟩
    · cases hread
    · cases hswapped
  · cases hready
    exact hload
  · cases hready
    exact ⟨s.file.modified, rfl, le_rfl⟩

/-- `Coherent` of a manager that has been made. -/
structure Settled (source : ConfigSource Config) (file : ConfigFile)
    (m : RuntimeConfigManager Config) (calls : Caller → Stage Config) : Prop where
  read : ∀ v c, calls v = .read c → loadRuntimeConfigFile source file = .ok c
  swapped : (∀ v c, calls v ≠ .read c) → (∃ v, calls v = .swapped) →
    loadRuntimeConfigFile source file = .ok m.config
  atRest : AtRest calls → hasChanged (fileModifiedTime file) m.lastModified = false →
    loadRuntimeConfigFile source file = .ok m.config
  recorded : ∃ last, m.lastModified = some last ∧ last ≤ file.modified

theorem coherent_ready_iff {file : ConfigFile} :
    Coherent source ⟨file, .ready m calls⟩ ↔ Settled source file m calls := by
  constructor
  · intro h
    exact ⟨fun v c hv => h.installs c (Or.inl ⟨v, hv⟩),
      fun hnone hswapped => h.installs m.config (Or.inr ⟨hnone, hswapped, rfl⟩),
      h.upToDate m calls rfl, h.recorded m calls rfl⟩
  · intro h
    refine ⟨fun c hc => ?_, fun m' calls' hready => ?_, fun m' calls' hready => ?_⟩
    · rcases hc with ⟨v, hv⟩ | ⟨hnone, hswapped, rfl⟩
      · exact h.read v c hv
      · exact h.swapped hnone hswapped
    · cases hready
      exact h.atRest
    · cases hready
      exact h.recorded

variable [DecidableEq Caller]

theorem forall_of_update (P : Stage Config → Prop) (hold : P (calls u))
    (h : ∀ v, P (Function.update calls u stage v)) (v : Caller) : P (calls v) := by
  rcases eq_or_ne v u with rfl | hne
  · exact hold
  · have hv := h v
    rwa [Function.update_of_ne hne] at hv

theorem exists_of_update (P : Stage Config → Prop) (hstage : ¬ P stage)
    (h : ∃ v, P (Function.update calls u stage v)) : ∃ v, P (calls v) := by
  obtain ⟨v, hv⟩ := h
  rcases eq_or_ne v u with rfl | hne
  · rw [Function.update_self] at hv
    exact absurd hv hstage
  · rw [Function.update_of_ne hne] at hv
    exact ⟨v, hv⟩

theorem Settled.call {file : ConfigFile} (h : Settled source file m calls)
    (heffect : Effect source file m (calls u) m' stage) :
    Settled source file m' (Function.update calls u stage) := by
  have hread : (∀ c, stage = .read c → loadRuntimeConfigFile source file = .ok c) →
      ∀ v c, Function.update calls u stage v = .read c →
        loadRuntimeConfigFile source file = .ok c := by
    intro hnew v c hv
    rcases eq_or_ne v u with rfl | hne
    · rw [Function.update_self] at hv
      exact hnew c hv
    · rw [Function.update_of_ne hne] at hv
      exact h.read v c hv
  have hnone : (∀ c, calls u ≠ .read c) →
      (∀ v c, Function.update calls u stage v ≠ .read c) → ∀ v c, calls v ≠ .read c :=
    forall_of_update fun st => ∀ c, st ≠ .read c
  have hnew : Function.update calls u stage u = stage := Function.update_self u stage calls
  generalize hold : calls u = old at heffect hnone
  cases heffect with
  | aside hbefore hafter =>
    refine ⟨hread fun c hc => ?_, fun hreads hswapped => ?_, fun hrest => ?_, h.recorded⟩
    · subst hc
      exact absurd trivial hafter
    · refine h.swapped (hnone (fun c hc => ?_) hreads) (exists_of_update (· = .swapped) ?_ hswapped)
      · exact hbefore (hc ▸ trivial)
      · rintro rfl
        exact hafter trivial
    · exact h.atRest (forall_of_update (fun st => ¬ st.InFlight) (hold ▸ hbefore) hrest)
  | read _ hload =>
    refine ⟨hread fun c hc => ?_, fun hreads _ => absurd hnew (hreads u _), fun hrest => ?_,
      h.recorded⟩
    · cases hc
      exact hload
    · have hidle := hrest u
      rw [hnew] at hidle
      exact absurd trivial hidle
  | swap config =>
    have hload := h.read u config hold
    exact ⟨hread nofun, fun _ _ => hload, fun _ _ => hload, h.recorded⟩
  | record =>
    have hload := fun hreads => h.swapped (hnone nofun hreads) ⟨u, hold⟩
    refine ⟨hread nofun, fun hreads _ => hload hreads, fun hrest _ => hload fun v c hv => ?_,
      file.modified, rfl, le_rfl⟩
    exact hrest v (hv ▸ trivial)

/-- A step keeps the invariant, if it is no write or a safe one. -/
theorem Coherent.step {t : Machine.Transition (System Config Caller) (Event Caller)}
    (hstep : step source t.pre t.input = .ok t.post) (h : Coherent source t.pre)
    (hsafe : SafeWrite source t) : Coherent source t.post := by
  obtain ⟨⟨file, phase⟩, e, s'⟩ := t
  dsimp only at hstep h ⊢
  unfold RuntimeConfigManager.step at hstep
  split at hstep
  · rw [require_bind_eq_ok, pure_eq_ok] at hstep
    obtain ⟨hlater, rfl⟩ := hstep
    exact h.write hlater (hsafe _ _ rfl)
  · split at hstep
    · rename_i hload
      cases hstep
      refine ⟨fun c hc => ?_, nofun, nofun⟩
      cases hc
      exact hload
    · cases hstep
      exact h
  · rename_i hphase
    cases hstep
    exact h.opened hphase
  · rename_i hphase
    obtain rfl : phase = _ := hphase
    obtain ⟨⟨m', stage⟩, hcall, hstep⟩ := bind_eq_ok.mp hstep
    cases hstep
    exact coherent_ready_iff.mpr ((coherent_ready_iff.mp h).call (effect_of_callStep hcall))
  · cases hstep

end Invariant

/-! ### Finishing the loads in flight -/

section Finish

variable {source : ConfigSource Config} {file : ConfigFile} {m : RuntimeConfigManager Config}
  {calls : Caller → Stage Config} {u : Caller} {c : Config}

def NoWrites (q : List (Event Caller)) : Prop :=
  ∀ content modified, Event.write content modified ∉ q

def finish (u : Caller) : List (Event Caller) := [.call u .reloadSwap, .call u .reloadStat]

theorem noWrites_finish (u : Caller) : NoWrites (finish u) := by
  intro content modified h
  simp [finish] at h

theorem NoWrites.append {q q' : List (Event Caller)} (h : NoWrites q) (h' : NoWrites q') :
    NoWrites (q ++ q') := fun content modified hmem =>
  (List.mem_append.mp hmem).elim (h content modified) (h' content modified)

theorem noWrites_flatMap_finish (l : List Caller) : NoWrites (l.flatMap finish) := by
  intro content modified h
  obtain ⟨u, -, h⟩ := List.mem_flatMap.mp h
  exact noWrites_finish u content modified h

def finishedManager (file : ConfigFile) (m : RuntimeConfigManager Config) :
    Stage Config → RuntimeConfigManager Config
  | .read config => ⟨config, fileModifiedTime file⟩
  | .swapped => { m with lastModified := fileModifiedTime file }
  | _ => m

def finishedStage : Stage Config → Stage Config
  | .read _ | .swapped => .idle
  | stage => stage

theorem not_inFlight_finishedStage (stage : Stage Config) : ¬ (finishedStage stage).InFlight := by
  cases stage <;> exact id

variable [DecidableEq Caller]

theorem commit_call {action : Action} {m' : RuntimeConfigManager Config} {stage : Stage Config}
    (h : callStep source file m (calls u) action = .ok (m', stage)) :
    Machine.commit (step source) ⟨file, .ready m calls⟩ (.call u action) =
      ⟨file, .ready m' (Function.update calls u stage)⟩ := by
  apply Machine.commit_ok
  change (callStep source file m (calls u) action >>= _) = _
  rw [h]
  rfl

theorem commit_call_blocked {action : Action}
    (h : callStep source file m (calls u) action = .error .blocked) :
    Machine.commit (step source) ⟨file, .ready m calls⟩ (.call u action) =
      ⟨file, .ready m calls⟩ := by
  apply Machine.commit_error (e := .blocked)
  change (callStep source file m (calls u) action >>= _) = _
  rw [h]
  rfl

theorem run_finish : Machine.run (step source) ⟨file, .ready m calls⟩ (finish u) =
    ⟨file, .ready (finishedManager file m (calls u))
      (Function.update calls u (finishedStage (calls u)))⟩ := by
  rw [finish, Machine.run, List.foldl_cons, List.foldl_cons, List.foldl_nil]
  cases hstage : calls u with
  | idle | stated | due =>
    have hself := Function.update_eq_self u calls
    rw [hstage] at hself
    rw [commit_call_blocked (by rw [hstage]; rfl), commit_call_blocked (by rw [hstage]; rfl)]
    exact congrArg (fun calls => System.mk file (.ready m calls)) hself.symm
  | read config =>
    have hswap : callStep source file m (calls u) .reloadSwap = .ok ({ m with config }, .swapped) :=
      by rw [hstage]; rfl
    rw [commit_call hswap, commit_call (by rw [Function.update_self]; rfl), Function.update_idem]
    rfl
  | swapped =>
    rw [commit_call_blocked (by rw [hstage]; rfl), commit_call (by rw [hstage]; rfl)]
    rfl

/-- Bringing other calls to their end leaves the stage of `u`, and the configuration too when none
of them has one to install. -/
theorem run_finish_others (source : ConfigSource Config) (file : ConfigFile)
    (m : RuntimeConfigManager Config) (calls : Caller → Stage Config) (l : List Caller)
    (hl : u ∉ l) : ∃ m' calls', Machine.run (step source) ⟨file, .ready m calls⟩ (l.flatMap finish) =
        ⟨file, .ready m' calls'⟩ ∧ calls' u = calls u ∧
      (∀ v, v ∈ l ∨ ¬ (calls v).InFlight → ¬ (calls' v).InFlight) ∧
      ((∀ v c, calls v ≠ .read c) → m'.config = m.config) := by
  induction l generalizing m calls with
  | nil =>
    exact ⟨m, calls, rfl, rfl, fun v hv => hv.resolve_left List.not_mem_nil, fun _ => rfl⟩
  | cons w l ih =>
    obtain ⟨hne, hl⟩ := not_or.mp (mt List.mem_cons.mpr hl)
    obtain ⟨m', calls', hrun, hstage, hrest, hconfig⟩ := ih (finishedManager file m (calls w))
      (Function.update calls w (finishedStage (calls w))) hl
    refine ⟨m', calls', ?_, ?_, fun v hv => hrest v ?_, fun hnone => ?_⟩
    · rw [List.flatMap_cons, Machine.run_append, run_finish]
      exact hrun
    · rw [hstage, Function.update_of_ne hne]
    · rcases eq_or_ne v w with rfl | hvw
      · rw [Function.update_self]
        exact Or.inr (not_inFlight_finishedStage _)
      · rw [Function.update_of_ne hvw]
        exact hv.imp_left fun hmem => (List.mem_cons.mp hmem).resolve_left hvw
    · have hw : (finishedManager file m (calls w)).config = m.config := by
        cases hstage : calls w with
        | read config => exact absurd hstage (hnone w config)
        | _ => rfl
      rw [← hw]
      apply hconfig
      intro v config
      rcases eq_or_ne v w with rfl | hvw
      · rw [Function.update_self]
        intro hread
        exact not_inFlight_finishedStage (calls v) (hread ▸ trivial)
      · rw [Function.update_of_ne hvw]
        exact hnone v config

/-- The loads in flight can end with any of the configurations that they install. -/
theorem exists_run_finish (source : ConfigSource Config) (file : ConfigFile)
    {phase : Phase Config Caller}
    (hfew : ∀ m calls, phase = .ready m calls → ∃ l : List Caller, ∀ v ∉ l, ¬ (calls v).InFlight)
    (hc : Installs phase c) : ∃ q, NoWrites q ∧ ∃ calls',
      Machine.run (step source) ⟨file, phase⟩ q =
        ⟨file, .ready ⟨c, fileModifiedTime file⟩ calls'⟩ ∧ AtRest calls' := by
  cases phase with
  | absent => exact hc.elim
  | opening config =>
    obtain rfl : c = config := hc
    exact ⟨[.newStat], fun content modified h => (nomatch List.mem_singleton.mp h),
      fun _ => .idle, rfl, fun _ => id⟩
  | ready m calls =>
    obtain ⟨l, hl⟩ := hfew m calls rfl
    obtain ⟨u, hu⟩ : ∃ u, calls u = .read c ∨
        (∀ v c', calls v ≠ .read c') ∧ calls u = .swapped ∧ c = m.config := by
      rcases hc with ⟨u, hu⟩ | ⟨hnone, ⟨u, hu⟩, hconfig⟩
      · exact ⟨u, .inl hu⟩
      · exact ⟨u, .inr ⟨hnone, hu, hconfig⟩⟩
    have hothers : u ∉ l.filter (· ≠ u) := by simp
    obtain ⟨m', calls', hrun, hstage, hrest, hconfig⟩ :=
      run_finish_others source file m calls (l.filter (· ≠ u)) hothers
    refine ⟨(l.filter (· ≠ u)).flatMap finish ++ finish u,
      (noWrites_flatMap_finish _).append (noWrites_finish u),
      Function.update calls' u (finishedStage (calls' u)), ?_, fun v => ?_⟩
    · rw [Machine.run_append, hrun, run_finish]
      rcases hu with hu | ⟨hnone, hu, hsame⟩
      · rw [hstage, hu]
        rfl
      · rw [hstage, hu, hsame, ← hconfig hnone]
        rfl
    · rcases eq_or_ne v u with rfl | hne
      · rw [Function.update_self]
        exact not_inFlight_finishedStage _
      · rw [Function.update_of_ne hne]
        refine hrest v ?_
        by_cases hv : v ∈ l
        · exact .inl (List.mem_filter.mpr ⟨hv, decide_eq_true hne⟩)
        · exact .inr (hl v hv)

theorem exists_inFlight_list (source : ConfigSource Config) (file : ConfigFile)
    (es : List (Event Caller)) : ∀ m calls,
      (Machine.run (step source) (start file) es).phase = .ready m calls →
      ∃ l : List Caller, ∀ v ∉ l, ¬ (calls v).InFlight := by
  refine Machine.invariant (step source) (fun s => ∀ m calls, s.phase = .ready m calls →
    ∃ l : List Caller, ∀ v ∉ l, ¬ (calls v).InFlight) ?_ ?_ es
  · intro m calls h
    cases h
  intro s e s' hstep ih m calls hready
  obtain ⟨file', phase⟩ := s
  unfold step at hstep
  split at hstep
  · rw [require_bind_eq_ok, pure_eq_ok] at hstep
    obtain ⟨-, rfl⟩ := hstep
    exact ih m calls hready
  · split at hstep
    · cases hstep
      cases hready
    · cases hstep
      exact ih m calls hready
  · cases hstep
    cases hready
    exact ⟨[], fun _ _ => id⟩
  · rename_i u action m₀ calls₀ hphase
    obtain ⟨⟨m', stage⟩, -, hstep⟩ := bind_eq_ok.mp hstep
    cases hstep
    cases hready
    obtain ⟨l, hl⟩ := ih m₀ calls₀ hphase
    refine ⟨u :: l, fun v hv => ?_⟩
    obtain ⟨hne, hv⟩ := not_or.mp (mt List.mem_cons.mpr hv)
    rw [Function.update_of_ne hne]
    exact hl v hv
  · cases hstep

end Finish

/-! ### Runs -/

def Phase.manager : Phase Config Caller → Option (RuntimeConfigManager Config)
  | .ready m _ => some m
  | _ => none

/-- A rejected reload leaves the manager as it is. -/
def KeptOnFailure (source : ConfigSource Config)
    (t : Machine.Transition (System Config Caller) (Event Caller)) : Prop :=
  ∀ u e, t.input = .call u .reloadRead → loadRuntimeConfigFile source t.pre.file = .error e →
    t.post.phase.manager = t.pre.phase.manager

variable [DecidableEq Caller]

structure Lawful (source : ConfigSource Config) (file : ConfigFile) (es : List (Event Caller)) :
    Prop where
  upToDate : UpToDate source (Machine.run (step source) (start file) es)
  kept : ∀ t ∈ Machine.transitions (step source) (start file) es, KeptOnFailure source t

section Runs

variable {source : ConfigSource Config} {file : ConfigFile} {es : List (Event Caller)}

theorem keptOnFailure_of_step
    {t : Machine.Transition (System Config Caller) (Event Caller)}
    (h : step source t.pre t.input = .ok t.post) : KeptOnFailure source t := by
  obtain ⟨⟨file, phase⟩, e, s'⟩ := t
  intro u err hinput hload
  dsimp only at h hinput hload ⊢
  subst hinput
  cases phase with
  | absent | opening => cases h
  | ready m calls =>
    obtain ⟨⟨m', stage⟩, hcall, hstep⟩ := bind_eq_ok.mp h
    cases hstep
    have hsame : m' = m := by
      cases hstage : calls u with
      | idle | due =>
        rw [hstage] at hcall
        cases hcall
        rfl
      | stated | read | swapped =>
        rw [hstage] at hcall
        cases hcall
    rw [Phase.manager, Phase.manager, hsame]

theorem safeWrite_of_noWrites {s : System Config Caller} {q : List (Event Caller)}
    (hq : NoWrites q) : ∀ t ∈ Machine.transitions (step source) s q, SafeWrite source t := by
  intro t ht content modified hinput
  obtain ⟨js, ks, rfl, -⟩ := Machine.exists_prefix_of_mem_transitions (step source) ht
  have hmem : t.input ∈ js ++ t.input :: ks := List.mem_append_right js List.mem_cons_self
  rw [hinput] at hmem hq
  exact absurd hmem (hq content modified)

/-- In a run whose writes are safe nothing is lost. -/
theorem lawful_of_safe
    (hsafe : ∀ t ∈ Machine.transitions (step source) (start file) es, SafeWrite source t) :
    Lawful source file es where
  upToDate := (Machine.invariant_of_transitions (step source) (Coherent source)
    (SafeWrite source) (Coherent.start file) (fun _ hstep h hgood => h.step hstep hgood) es
    hsafe).upToDate
  kept := fun _ ht =>
    keptOnFailure_of_step (Machine.step_of_mem_transitions (step source) ht)

/-- After an unsafe write the loads in flight can end with an update lost. -/
theorem exists_lost_update {t : Machine.Transition (System Config Caller) (Event Caller)}
    {js ks : List (Event Caller)} (hes : es = js ++ t.input :: ks)
    (hpre : Machine.run (step source) (start file) js = t.pre)
    (hstep : step source t.pre t.input = .ok t.post) (hrace : ¬ SafeWrite source t) :
    ∃ js' q, js' <+: es ∧ NoWrites q ∧ ¬ UpToDate source
      (Machine.run (step source) (start file) (js' ++ q)) := by
  obtain ⟨⟨file', phase⟩, e, s'⟩ := t
  dsimp only at hes hpre hstep
  simp only [SafeWrite, not_forall] at hrace
  obtain ⟨content, modified, rfl, c, hc, hload⟩ := hrace
  obtain ⟨-, hpost⟩ := require_bind_eq_ok.mp hstep
  obtain rfl := pure_eq_ok.mp hpost
  have hfew := exists_inFlight_list source file js
  rw [hpre] at hfew
  obtain ⟨q, hq, calls', hrun, hrest⟩ := exists_run_finish source ⟨content, modified⟩ hfew hc
  refine ⟨js ++ [.write content modified], q, ⟨ks, ?_⟩, hq, fun hlaw => hload ?_⟩
  · rw [hes, List.append_assoc]
    rfl
  · rw [Machine.run_append, Machine.run_snoc, hpre, Machine.commit_ok (step source) hstep,
      hrun] at hlaw
    exact hlaw _ _ rfl hrest (hasChanged_eq_false.mpr le_rfl)

/-- A run loses no update, however its loads in flight end, exactly when its writes are safe. -/
theorem lawful_iff (source : ConfigSource Config) (file : ConfigFile) (es : List (Event Caller)) :
    (∀ js q, js <+: es → NoWrites q → Lawful source file (js ++ q)) ↔
      ∀ t ∈ Machine.transitions (step source) (start file) es, SafeWrite source t := by
  constructor
  · intro h t ht
    by_contra hrace
    obtain ⟨js, ks, hes, hpre⟩ := Machine.exists_prefix_of_mem_transitions (step source) ht
    obtain ⟨js', q, hprefix, hq, hlost⟩ := exists_lost_update hes hpre
      (Machine.step_of_mem_transitions (step source) ht) hrace
    exact hlost (h js' q hprefix hq).upToDate
  · rintro hsafe js q ⟨ks, rfl⟩ hq
    apply lawful_of_safe
    intro t ht
    rw [Machine.transitions_append] at ht hsafe
    rcases List.mem_append.mp ht with ht | ht
    · exact hsafe t (List.mem_append_left _ ht)
    · exact safeWrite_of_noWrites hq t ht

end Runs

namespace Demo

/-- The content itself stands for the configuration. -/
def source : ConfigSource Text where
  path := "anchor.toml".toList
  readToString := fun bytes => .ok (bytes.map fun b => Char.ofNat b.toNat)
  parseRuntimeConfigStr := fun input _ => .ok input

end Demo

/-- A write between the read of the file and its modification time is lost. -/
theorem write_while_opening_is_lost : ¬ ∀ es : List (Event Unit),
    Lawful Demo.source ⟨[0x61], 1⟩ es := by
  intro h
  have hlaw := (h [.newRead, .write [0x62] 2, .newStat]).upToDate _ _ rfl (fun _ => id) rfl
  exact absurd hlaw (by decide)

end RuntimeConfigManager

end AnchorKit
