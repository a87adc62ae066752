import AnchorKit.Library.KeyedList
import AnchorKit.Library.StableSort
import AnchorKit.Traceparents
import Mathlib.Tactic.SplitIfs

/-!
# Fingerprints of environments

A fingerprint tells which tools, features and configuration files an environment has. Two of them
are compared field by field, whatever the order of files and features. The id of an environment is
the hash of its name and version.
-/

namespace AnchorKit

namespace EnvFingerprint

open Fallible
open KeyedList (lookup)

/-! ### Comparison of fingerprints -/

structure ToolVersions where
  rustc : Option Text
  stellarCli : Option Text
  cargo : Option Text
  wasmTargetInstalled : Bool
deriving DecidableEq

/-- A map from paths to hashes, in the order in which it happens to be walked. -/
structure FileHashes where
  entries : List (Text × Text)
  nodup : (entries.map Prod.fst).Nodup

def FileHashes.get (hashes : FileHashes) (path : Text) : Option Text :=
  (lookup Prod.fst path hashes.entries).map Prod.snd

structure ConfigMetadata where
  fileHashes : FileHashes
  fileCount : ℕ

structure BuildMetadata where
  packageVersion : Text
  buildTarget : Text
  activeFeatures : List Text
  rustChannel : Text

structure EnvironmentFingerprint where
  tools : ToolVersions
  config : ConfigMetadata
  build : BuildMetadata
  collectedAt : Option Text

structure DriftItem where
  field : Text
  baseline : Text
  current : Text
deriving DecidableEq

def diffOpt (field : String) (current baseline : Option Text) : List DriftItem :=
  if current ≠ baseline then
    [⟨field.toList, baseline.getD "<none>".toList, current.getD "<none>".toList⟩]
  else []

def boolText (b : Bool) : Text := if b then "true".toList else "false".toList

def diffText (field : String) (current baseline : Text) : List DriftItem :=
  if current ≠ baseline then [⟨field.toList, baseline, current⟩] else []

def sortedFeatures (build : BuildMetadata) : List Text :=
  StableSort.sortBy compare build.activeFeatures

def configField (path : Text) : Text := "config.".toList ++ path

def diffBaselineFile (current : FileHashes) (file : Text × Text) : Option DriftItem :=
  match current.get file.1 with
  | none => some ⟨configField file.1, file.2, "<missing>".toList⟩
  | some h => if h ≠ file.2 then some ⟨configField file.1, file.2, h⟩ else none

def diffCurrentFile (baseline : FileHashes) (file : Text × Text) : Option DriftItem :=
  if baseline.get file.1 = none then some ⟨configField file.1, "<absent>".toList, file.2⟩ else none

namespace EnvironmentFingerprint

def diff (self baseline : EnvironmentFingerprint) : List DriftItem :=
  diffOpt "tools.rustc" self.tools.rustc baseline.tools.rustc ++
  diffOpt "tools.stellar_cli" self.tools.stellarCli baseline.tools.stellarCli ++
  diffOpt "tools.cargo" self.tools.cargo baseline.tools.cargo ++
  diffText "tools.wasm_target_installed" (boolText self.tools.wasmTargetInstalled)
    (boolText baseline.tools.wasmTargetInstalled) ++
  diffText "build.package_version" self.build.packageVersion baseline.build.packageVersion ++
  diffText "build.build_target" self.build.buildTarget baseline.build.buildTarget ++
  diffText "build.rust_channel" self.build.rustChannel baseline.build.rustChannel ++
  (if sortedFeatures self.build ≠ sortedFeatures baseline.build then
    [⟨"build.active_features".toList, [','].intercalate (sortedFeatures baseline.build),
      [','].intercalate (sortedFeatures self.build)⟩]
  else []) ++
  baseline.config.fileHashes.entries.filterMap (diffBaselineFile self.config.fileHashes) ++
  self.config.fileHashes.entries.filterMap (diffCurrentFile baseline.config.fileHashes)

def isConsistentWith (self baseline : EnvironmentFingerprint) : Bool := (self.diff baseline).isEmpty

/-- The same environment, whatever the order of features and files and the times of collection. -/
structure Same (a b : EnvironmentFingerprint) : Prop where
  tools : a.tools = b.tools
  packageVersion : a.build.packageVersion = b.build.packageVersion
  buildTarget : a.build.buildTarget = b.build.buildTarget
  rustChannel : a.build.rustChannel = b.build.rustChannel
  features : a.build.activeFeatures.Perm b.build.activeFeatures
  hashes : ∀ path, a.config.fileHashes.get path = b.config.fileHashes.get path

end EnvironmentFingerprint

inductive FileDrift (path : Text) : Option Text → Option Text → DriftItem → Prop
  | missing (hash : Text) :
    FileDrift path none (some hash) ⟨configField path, hash, "<missing>".toList⟩
  | added (hash : Text) :
    FileDrift path (some hash) none ⟨configField path, "<absent>".toList, hash⟩
  | changed {current baseline : Text} (h : current ≠ baseline) :
    FileDrift path (some current) (some baseline) ⟨configField path, baseline, current⟩

def optionalFields : List (String × (EnvironmentFingerprint → Option Text)) :=
  [("tools.rustc", fun fp => fp.tools.rustc), ("tools.stellar_cli", fun fp => fp.tools.stellarCli),
    ("tools.cargo", fun fp => fp.tools.cargo)]

def textFields : List (String × (EnvironmentFingerprint → Text)) :=
  [("tools.wasm_target_installed", fun fp => boolText fp.tools.wasmTargetInstalled),
    ("build.package_version", fun fp => fp.build.packageVersion),
    ("build.build_target", fun fp => fp.build.buildTarget),
    ("build.rust_channel", fun fp => fp.build.rustChannel)]

/-- The differences between two environments. -/
inductive Reported (self baseline : EnvironmentFingerprint) : DriftItem → Prop
  | optional {field : String} {read : EnvironmentFingerprint → Option Text}
    (hfield : (field, read) ∈ optionalFields) (h : read self ≠ read baseline) :
    Reported self baseline ⟨field.toList, (read baseline).getD "<none>".toList,
      (read self).getD "<none>".toList⟩
  | text {field : String} {read : EnvironmentFingerprint → Text}
    (hfield : (field, read) ∈ textFields) (h : read self ≠ read baseline) :
    Reported self baseline ⟨field.toList, read baseline, read self⟩
  | features (h : ¬ self.build.activeFeatures.Perm baseline.build.activeFeatures) :
    Reported self baseline ⟨"build.active_features".toList,
      [','].intercalate (sortedFeatures baseline.build),
      [','].intercalate (sortedFeatures self.build)⟩
  | file {path : Text} {item : DriftItem}
    (h : FileDrift path (self.config.fileHashes.get path) (baseline.config.fileHashes.get path)
      item) : Reported self baseline item

/-- What a comparison tells, and that nothing depends on how features and files are ordered. -/
structure ComparesEnvironments : Prop where
  reports : ∀ self baseline item,
    item ∈ self.diff baseline ↔ Reported self baseline item
  once : ∀ self baseline : EnvironmentFingerprint,
    ((self.diff baseline).map DriftItem.field).Nodup
  consistent : ∀ self baseline : EnvironmentFingerprint,
    self.isConsistentWith baseline = true ↔ self.Same baseline
  equivalence : Equivalence EnvironmentFingerprint.Same
  unordered : ∀ self self' baseline baseline' : EnvironmentFingerprint, self.Same self' →
    baseline.Same baseline' → (self.diff baseline).Perm (self'.diff baseline')

section Comparison

variable {self self' baseline baseline' : EnvironmentFingerprint} {item : DriftItem} {path h : Text}

theorem FileHashes.get_eq_some {hashes : FileHashes} :
    hashes.get path = some h ↔ (path, h) ∈ hashes.entries := by
  rw [FileHashes.get, Option.map_eq_some_iff]
  constructor
  · rintro ⟨file, hfile, rfl⟩
    obtain ⟨hmem, rfl⟩ := (KeyedList.lookup_eq_some hashes.nodup).mp hfile
    exact hmem
  · intro hmem
    exact ⟨(path, h), (KeyedList.lookup_eq_some hashes.nodup).mpr ⟨hmem, rfl⟩, rfl⟩

theorem sortedFeatures_eq_iff {a b : BuildMetadata} :
    sortedFeatures a = sortedFeatures b ↔ a.activeFeatures.Perm b.activeFeatures :=
  StableSort.sortBy_eq_iff_perm

theorem diff_eq (self baseline : EnvironmentFingerprint) : self.diff baseline =
    (optionalFields.flatMap fun field => diffOpt field.1 (field.2 self) (field.2 baseline)) ++
    (textFields.flatMap fun field => diffText field.1 (field.2 self) (field.2 baseline)) ++
    (if sortedFeatures self.build ≠ sortedFeatures baseline.build then
      [⟨"build.active_features".toList, [','].intercalate (sortedFeatures baseline.build),
        [','].intercalate (sortedFeatures self.build)⟩]
    else []) ++
    baseline.config.fileHashes.entries.filterMap (diffBaselineFile self.config.fileHashes) ++
    self.config.fileHashes.entries.filterMap (diffCurrentFile baseline.config.fileHashes) := by
  simp only [EnvironmentFingerprint.diff, optionalFields, textFields, List.flatMap_cons,
    List.flatMap_nil, List.append_nil, List.append_assoc]

theorem mem_diffBaselineFile {current : FileHashes} {file : Text × Text} :
    diffBaselineFile current file = some item ↔
      FileDrift file.1 (current.get file.1) (some file.2) item := by
  unfold diffBaselineFile
  cases current.get file.1 with
  | none =>
    simp only [Option.some.injEq]
    constructor
    · rintro rfl
      exact .missing file.2
    · rintro ⟨⟩
      rfl
  | some h =>
    by_cases hsame : h = file.2
    · simp only [if_neg (not_not.mpr hsame)]
      refine iff_of_false (by simp) ?_
      rintro ⟨⟩
      contradiction
    · simp only [if_pos hsame, Option.some.injEq]
      constructor
      · rintro rfl
        exact .changed hsame
      · rintro ⟨⟩
        rfl

theorem mem_diffCurrentFile {base : FileHashes} {file : Text × Text} :
    diffCurrentFile base file = some item ↔ base.get file.1 = none ∧
      FileDrift file.1 (some file.2) none item := by
  unfold diffCurrentFile
  by_cases hnone : base.get file.1 = none
  · rw [if_pos hnone, Option.some.injEq]
    constructor
    · rintro rfl
      exact ⟨hnone, .added file.2⟩
    · rintro ⟨_, ⟨⟩⟩
      rfl
  · rw [if_neg hnone]
    simp [hnone]

/-- The two loops over the files find what the paths have in the two environments. -/
theorem mem_fileDiffs {current base : FileHashes} :
    item ∈ base.entries.filterMap (diffBaselineFile current) ++
        current.entries.filterMap (diffCurrentFile base) ↔
      ∃ path, FileDrift path (current.get path) (base.get path) item := by
  rw [List.mem_append, List.mem_filterMap, List.mem_filterMap]
  simp only [mem_diffBaselineFile, mem_diffCurrentFile]
  constructor
  · rintro (⟨file, hmem, hdrift⟩ | ⟨file, hmem, hnone, hdrift⟩)
    · rw [← FileHashes.get_eq_some.mpr hmem] at hdrift
      exact ⟨file.1, hdrift⟩
    · rw [← FileHashes.get_eq_some.mpr hmem, ← hnone] at hdrift
      exact ⟨file.1, hdrift⟩
  · rintro ⟨path, hdrift⟩
    cases hbase : base.get path with
    | some h =>
      rw [hbase] at hdrift
      exact Or.inl ⟨(path, h), FileHashes.get_eq_some.mp hbase, hdrift⟩
    | none =>
      cases hcurrent : current.get path with
      | none =>
        rw [hbase, hcurrent] at hdrift
        cases hdrift
      | some h =>
        rw [hbase, hcurrent] at hdrift
        exact Or.inr ⟨(path, h), FileHashes.get_eq_some.mp hcurrent, hbase, hdrift⟩

theorem mem_diff_iff : item ∈ self.diff baseline ↔ Reported self baseline item := by
  rw [diff_eq, List.append_assoc, List.mem_append, mem_fileDiffs, List.mem_append, List.mem_append,
    List.mem_flatMap, List.mem_flatMap]
  constructor
  · rintro (((⟨⟨field, read⟩, hfield, hitem⟩ | ⟨⟨field, read⟩, hfield, hitem⟩) | hitem) |
      ⟨path, hdrift⟩)
    · rw [diffOpt, List.mem_ite_nil_right, List.mem_singleton] at hitem
      obtain ⟨hne, rfl⟩ := hitem
      exact .optional hfield hne
    · rw [diffText, List.mem_ite_nil_right, List.mem_singleton] at hitem
      obtain ⟨hne, rfl⟩ := hitem
      exact .text hfield hne
    · rw [List.mem_ite_nil_right, List.mem_singleton, ne_eq, sortedFeatures_eq_iff] at hitem
      obtain ⟨hne, rfl⟩ := hitem
      exact .features hne
    · exact .file hdrift
  · intro h
    cases h with
    | @optional field read hfield hne =>
      refine Or.inl (Or.inl (Or.inl ⟨(field, read), hfield, ?_⟩))
      rw [diffOpt, if_pos hne]
      exact List.mem_singleton_self _
    | @text field read hfield hne =>
      refine Or.inl (Or.inl (Or.inr ⟨(field, read), hfield, ?_⟩))
      rw [diffText, if_pos hne]
      exact List.mem_singleton_self _
    | features hne =>
      refine Or.inl (Or.inr ?_)
      rw [if_pos (by rwa [ne_eq, sortedFeatures_eq_iff])]
      exact List.mem_singleton_self _
    | @file path _ hdrift => exact Or.inr ⟨path, hdrift⟩

theorem boolText_inj {a b : Bool} : boolText a = boolText b ↔ a = b := by
  revert a b
  decide

/-- A file is reported exactly where the two environments have different things under its path. -/
theorem exists_fileDrift {current base : Option Text} :
    (∃ item, FileDrift path current base item) ↔ current ≠ base := by
  constructor
  · rintro ⟨item, hdrift⟩
    cases hdrift with
    | missing => simp
    | added => simp
    | changed h => simpa using h
  · intro h
    cases current with
    | none =>
      cases base with
      | none => exact absurd rfl h
      | some hash => exact ⟨_, .missing hash⟩
    | some hash =>
      cases base with
      | none => exact ⟨_, .added hash⟩
      | some hash' => exact ⟨_, .changed fun heq => h (congrArg some heq)⟩

theorem same_iff_fields : self.Same baseline ↔
    (∀ field ∈ optionalFields, field.2 self = field.2 baseline) ∧
      (∀ field ∈ textFields, field.2 self = field.2 baseline) ∧
      self.build.activeFeatures.Perm baseline.build.activeFeatures ∧
      ∀ path, self.config.fileHashes.get path = baseline.config.fileHashes.get path := by
  simp only [optionalFields, textFields, List.forall_mem_cons, List.not_mem_nil, false_implies,
    implies_true, and_true, boolText_inj]
  constructor
  · intro h
    exact ⟨⟨congrArg _ h.tools, congrArg _ h.tools, congrArg _ h.tools⟩,
      ⟨congrArg _ h.tools, h.packageVersion, h.buildTarget, h.rustChannel⟩, h.features, h.hashes⟩
  · rintro ⟨⟨hrustc, hstellar, hcargo⟩, ⟨hwasm, hversion, htarget, hchannel⟩, hfeatures, hhashes⟩
    refine ⟨?_, hversion, htarget, hchannel, hfeatures, hhashes⟩
    cases htools : self.tools
    cases htools' : baseline.tools
    rw [htools, htools'] at hrustc hstellar hcargo hwasm
    simp only at hrustc hstellar hcargo hwasm
    rw [hrustc, hstellar, hcargo, hwasm]

theorem same_equivalence : Equivalence EnvironmentFingerprint.Same where
  refl _ := ⟨rfl, rfl, rfl, rfl, .refl _, fun _ => rfl⟩
  symm h := ⟨h.tools.symm, h.packageVersion.symm, h.buildTarget.symm, h.rustChannel.symm,
    h.features.symm, fun path => (h.hashes path).symm⟩
  trans h h' := ⟨h.tools.trans h'.tools, h.packageVersion.trans h'.packageVersion,
    h.buildTarget.trans h'.buildTarget, h.rustChannel.trans h'.rustChannel,
    h.features.trans h'.features, fun path => (h.hashes path).trans (h'.hashes path)⟩

theorem isConsistentWith_iff : self.isConsistentWith baseline = true ↔ self.Same baseline := by
  rw [EnvironmentFingerprint.isConsistentWith, List.isEmpty_iff, List.eq_nil_iff_forall_not_mem]
  simp only [mem_diff_iff]
  rw [same_iff_fields]
  constructor
  · intro h
    refine ⟨?_, ?_, ?_, ?_⟩
    · rintro ⟨field, read⟩ hfield
      by_contra hne
      exact h _ (.optional hfield hne)
    · rintro ⟨field, read⟩ hfield
      by_contra hne
      exact h _ (.text hfield hne)
    · by_contra hne
      exact h _ (.features hne)
    · intro path
      by_contra hne
      obtain ⟨item, hdrift⟩ := exists_fileDrift.mpr hne
      exact h item (.file hdrift)
  · rintro ⟨hoptional, htext, hfeatures, hhashes⟩ item hitem
    cases hitem with
    | optional hfield hne => exact hne (hoptional _ hfield)
    | text hfield hne => exact hne (htext _ hfield)
    | features hne => exact hne hfeatures
    | @file path _ hdrift => exact exists_fileDrift.mp ⟨_, hdrift⟩ (hhashes path)

/-- The differences do not depend on how features and files are ordered. -/
theorem Reported.congr (h : Reported self baseline item) (hself : self.Same self')
    (hbaseline : baseline.Same baseline') : Reported self' baseline' item := by
  obtain ⟨hoptional, htext, _, _⟩ := same_iff_fields.mp hself
  obtain ⟨hoptional', htext', _, _⟩ := same_iff_fields.mp hbaseline
  cases h with
  | optional hfield hne =>
    have hhere := hoptional _ hfield
    have hthere := hoptional' _ hfield
    dsimp only at hhere hthere
    rw [hhere, hthere] at hne ⊢
    exact .optional hfield hne
  | text hfield hne =>
    have hhere := htext _ hfield
    have hthere := htext' _ hfield
    dsimp only at hhere hthere
    rw [hhere, hthere] at hne ⊢
    exact .text hfield hne
  | features hne =>
    rw [sortedFeatures_eq_iff.mpr hself.features, sortedFeatures_eq_iff.mpr hbaseline.features]
    refine .features fun hperm => hne ?_
    exact hself.features.trans (hperm.trans hbaseline.features.symm)
  | file hdrift =>
    rw [hself.hashes, hbaseline.hashes] at hdrift
    exact .file hdrift

/-! ### No field is reported twice -/

theorem configField_injective : Function.Injective configField := fun _ _ => List.append_cancel_left

/-- The names of the fields that are not files. -/
def fixedFields : List Text :=
  optionalFields.map (fun field => field.1.toList) ++
    textFields.map (fun field => field.1.toList) ++ ["build.active_features".toList]

theorem configField_not_mem_fixedFields (path : Text) : configField path ∉ fixedFields := by
  have hhead : ∀ name ∈ fixedFields, name.head? ≠ some 'c' := by decide
  intro hmem
  exact hhead _ hmem rfl

theorem map_flatMap_sublist {α β γ : Type} {g : α → List β} {key : β → γ} {name : α → γ}
    (h : ∀ a, ((g a).map key).Sublist [name a]) (l : List α) :
    ((l.flatMap g).map key).Sublist (l.map name) := by
  induction l with
  | nil => exact .slnil
  | cons a l ih =>
    rw [List.flatMap_cons, List.map_append, List.map_cons]
    exact (h a).append ih

theorem map_ite_sublist {p : Prop} [Decidable p] (item : DriftItem) :
    ((if p then [item] else []).map DriftItem.field).Sublist [item.field] := by
  split_ifs
  · exact .refl _
  · exact List.nil_sublist _

theorem map_filterMap_sublist {α β γ : Type} {g : α → Option β} {key : β → γ} {name : α → γ}
    (h : ∀ a b, g a = some b → key b = name a) (l : List α) :
    ((l.filterMap g).map key).Sublist (l.map name) := by
  induction l with
  | nil => exact .slnil
  | cons a l ih =>
    rw [List.map_cons]
    cases hg : g a with
    | none =>
      rw [List.filterMap_cons_none hg]
      exact ih.cons _
    | some b =>
      rw [List.filterMap_cons_some hg, List.map_cons, h a b hg]
      exact ih.cons_cons _

theorem FileDrift.field_eq {current base : Option Text} (h : FileDrift path current base item) :
    item.field = configField path := by
  cases h with
  | missing => rfl
  | added => rfl
  | changed => rfl

theorem nodup_files (hashes : FileHashes) :
    (hashes.entries.map fun file => configField file.1).Nodup := by
  have hnodup := hashes.nodup.map configField_injective
  rwa [List.map_map] at hnodup

section Fields

variable (self baseline : EnvironmentFingerprint)

theorem fixed_sublist : ((optionalFields.flatMap fun field =>
      diffOpt field.1 (field.2 self) (field.2 baseline)).map DriftItem.field ++
    (textFields.flatMap fun field =>
      diffText field.1 (field.2 self) (field.2 baseline)).map DriftItem.field ++
    (if sortedFeatures self.build ≠ sortedFeatures baseline.build then
      [⟨"build.active_features".toList, [','].intercalate (sortedFeatures baseline.build),
        [','].intercalate (sortedFeatures self.build)⟩]
    else []).map DriftItem.field).Sublist fixedFields := by
  refine ((map_flatMap_sublist (fun field => ?_) _).append
    (map_flatMap_sublist (fun field => ?_) _)).append ?_
  · exact map_ite_sublist _
  · exact map_ite_sublist _
  · exact map_ite_sublist _

theorem baselineFiles_sublist : ((baseline.config.fileHashes.entries.filterMap
    (diffBaselineFile self.config.fileHashes)).map DriftItem.field).Sublist
      (baseline.config.fileHashes.entries.map fun file => configField file.1) :=
  map_filterMap_sublist (fun _ _ h => (mem_diffBaselineFile.mp h).field_eq) _

theorem currentFiles_sublist : ((self.config.fileHashes.entries.filterMap
    (diffCurrentFile baseline.config.fileHashes)).map DriftItem.field).Sublist
      (self.config.fileHashes.entries.map fun file => configField file.1) :=
  map_filterMap_sublist (fun _ _ h => (mem_diffCurrentFile.mp h).2.field_eq) _

/-- The second loop over the files skips the paths of the baseline. -/
theorem nodup_fileFields : ((baseline.config.fileHashes.entries.filterMap
      (diffBaselineFile self.config.fileHashes)).map DriftItem.field ++
    (self.config.fileHashes.entries.filterMap
      (diffCurrentFile baseline.config.fileHashes)).map DriftItem.field).Nodup := by
  refine List.nodup_append.mpr ⟨(nodup_files _).sublist (baselineFiles_sublist self baseline),
    (nodup_files _).sublist (currentFiles_sublist self baseline), ?_⟩
  rintro field hfield _ hother rfl
  obtain ⟨file, hfile, rfl⟩ :=
    List.mem_map.mp ((baselineFiles_sublist self baseline).subset hfield)
  obtain ⟨item, hitem, hsame⟩ := List.mem_map.mp hother
  obtain ⟨file', _, hdiff⟩ := List.mem_filterMap.mp hitem
  obtain ⟨hnone, hdrift⟩ := mem_diffCurrentFile.mp hdiff
  have hpath := configField_injective (hdrift.field_eq.symm.trans hsame)
  rw [hpath, FileHashes.get_eq_some.mpr hfile] at hnone
  cases hnone

theorem nodup_fields : ((self.diff baseline).map DriftItem.field).Nodup := by
  rw [diff_eq, List.append_assoc, List.map_append, List.map_append, List.map_append,
    List.map_append]
  have hdistinct : fixedFields.Nodup := by decide
  refine List.nodup_append.mpr ⟨hdistinct.sublist (fixed_sublist self baseline),
    nodup_fileFields self baseline, ?_⟩
  rintro field hfield _ hother rfl
  have hname := (fixed_sublist self baseline).subset hfield
  rcases List.mem_append.mp hother with hother | hother
  · obtain ⟨file, _, rfl⟩ :=
      List.mem_map.mp ((baselineFiles_sublist self baseline).subset hother)
    exact configField_not_mem_fixedFields _ hname
  · obtain ⟨file, _, rfl⟩ :=
      List.mem_map.mp ((currentFiles_sublist self baseline).subset hother)
    exact configField_not_mem_fixedFields _ hname

end Fields

theorem compares_environments : ComparesEnvironments where
  reports _ _ _ := mem_diff_iff
  once := nodup_fields
  consistent _ _ := isConsistentWith_iff
  equivalence := same_equivalence
  unordered self self' baseline baseline' hself hbaseline := by
    refine (List.perm_ext_iff_of_nodup (nodup_fields self baseline).of_map
      (nodup_fields self' baseline').of_map).mpr fun item => ?_
    rw [mem_diff_iff, mem_diff_iff]
    constructor
    · intro h
      exact h.congr hself hbaseline
    · intro h
      exact h.congr (same_equivalence.symm hself) (same_equivalence.symm hbaseline)

end Comparison

/-! ### Fingerprint ids -/

structure EnvironmentFingerprintId where
  name : Text
  version : Text
  hex : Text
deriving DecidableEq

structure LocalFingerprintId where
  name : Text
  version : Text
  hex : Text
deriving DecidableEq

def fingerprintInput (name version : Text) : Text := name ++ ['|', '|'] ++ version

def computeFingerprintHex (sha256 : Bytes → BytesN 32) (name version : Text) : Text :=
  TraceContext.sha256Hex sha256 (fingerprintInput name version).utf8

def requireNotBlank (what : String) (s : Text) : Except String Unit :=
  require (Text.trimMatches isWhitespace s ≠ []) ("environment " ++ what ++ " must not be blank")

def EnvironmentFingerprintId.new (sha256 : Bytes → BytesN 32) (name version : Text) :
    Except String EnvironmentFingerprintId := do
  requireNotBlank "name" name
  requireNotBlank "version" version
  let hex := computeFingerprintHex sha256 name version
  return { name, version, hex }

def LocalFingerprintId.new (sha256 : Bytes → BytesN 32) (name version : Text) :
    Except String LocalFingerprintId := do
  requireNotBlank "name" name
  requireNotBlank "version" version
  let hex := computeFingerprintHex sha256 name version
  return { name, version, hex }

/-- A part of the version, up to a separator in it, is taken for a part of the name. -/
inductive Shifted : Text → Text → Text → Text → Prop
  | bar (name version : Text) : Shifted name ('|' :: version) (name ++ ['|']) version
  | part (name part version : Text) : Shifted name (part ++ ['|', '|'] ++ version)
    (name ++ ['|', '|'] ++ part) version

def Collides (sha256 : Bytes → BytesN 32) (a b : Bytes) : Prop := a ≠ b ∧ sha256 a = sha256 b

/-- When two ids are the same, that is, and that names without a bar are told apart. -/
structure IdentifiesEnvironments (sha256 : Bytes → BytesN 32) : Prop where
  accepts : ∀ name version id, EnvironmentFingerprintId.new sha256 name version = .ok id ↔
    Text.trimMatches isWhitespace name ≠ [] ∧ Text.trimMatches isWhitespace version ≠ [] ∧
      id = ⟨name, version, computeFingerprintHex sha256 name version⟩
  agrees : ∀ name version,
    (LocalFingerprintId.new sha256 name version).map LocalFingerprintId.hex =
      (EnvironmentFingerprintId.new sha256 name version).map EnvironmentFingerprintId.hex
  same_iff : ∀ name version name' version',
    computeFingerprintHex sha256 name version = computeFingerprintHex sha256 name' version' ↔
      (name = name' ∧ version = version') ∨ Shifted name version name' version' ∨
        Shifted name' version' name version ∨
        Collides sha256 (fingerprintInput name version).utf8 (fingerprintInput name' version').utf8
  distinct : ∀ name version name' version', '|' ∉ name → '|' ∉ name' →
    computeFingerprintHex sha256 name version = computeFingerprintHex sha256 name' version' →
      (name = name' ∧ version = version') ∨
        Collides sha256 (fingerprintInput name version).utf8 (fingerprintInput name' version').utf8

section Ids

variable {sha256 : Bytes → BytesN 32} {name name' version version' : Text}

theorem Shifted.input_eq (h : Shifted name version name' version') :
    fingerprintInput name version = fingerprintInput name' version' := by
  cases h with
  | bar => simp [fingerprintInput]
  | part => simp [fingerprintInput]

theorem Shifted.mem_bar (h : Shifted name version name' version') : '|' ∈ name' := by
  cases h with
  | bar => simp
  | part => simp

/-- The shorter of two names with one input is continued by the longer one. -/
theorem shifted_of_prefix {more : Text}
    (h : fingerprintInput name version = fingerprintInput (name ++ more) version') :
    (more = [] ∧ version = version') ∨ Shifted name version (name ++ more) version' := by
  simp only [fingerprintInput, List.append_assoc, List.append_cancel_left_eq] at h
  cases more with
  | nil => exact Or.inl ⟨rfl, List.append_cancel_left h⟩
  | cons c more =>
    obtain ⟨rfl, htail⟩ := List.cons_eq_cons.mp h
    refine Or.inr ?_
    cases more with
    | nil =>
      obtain rfl : version = '|' :: version' := (List.cons_eq_cons.mp htail).2
      exact .bar name version'
    | cons d part =>
      obtain ⟨rfl, hversion⟩ := List.cons_eq_cons.mp htail
      change version = part ++ (['|', '|'] ++ version') at hversion
      rw [hversion, ← List.append_assoc]
      have hname : name ++ '|' :: '|' :: part = name ++ ['|', '|'] ++ part := by simp
      rw [hname]
      exact .part name part version'

theorem fingerprintInput_eq_iff :
    fingerprintInput name version = fingerprintInput name' version' ↔
      (name = name' ∧ version = version') ∨ Shifted name version name' version' ∨
        Shifted name' version' name version := by
  constructor
  · intro h
    have hprefix : name <+: fingerprintInput name' version' := by
      rw [← h, fingerprintInput, List.append_assoc]
      exact List.prefix_append _ _
    have hprefix' : name' <+: fingerprintInput name' version' := by
      rw [fingerprintInput, List.append_assoc]
      exact List.prefix_append _ _
    rcases List.prefix_or_prefix_of_prefix hprefix hprefix' with ⟨more, rfl⟩ | ⟨more, rfl⟩
    · rcases shifted_of_prefix h with ⟨rfl, rfl⟩ | hshifted
      · exact Or.inl ⟨(List.append_nil name).symm, rfl⟩
      · exact Or.inr (Or.inl hshifted)
    · rcases shifted_of_prefix h.symm with ⟨rfl, rfl⟩ | hshifted
      · exact Or.inl ⟨List.append_nil name', rfl⟩
      · exact Or.inr (Or.inr hshifted)
  · rintro (⟨rfl, rfl⟩ | h | h)
    · rfl
    · exact h.input_eq
    · exact h.input_eq.symm

theorem computeFingerprintHex_eq_iff :
    computeFingerprintHex sha256 name version = computeFingerprintHex sha256 name' version' ↔
      (name = name' ∧ version = version') ∨ Shifted name version name' version' ∨
        Shifted name' version' name version ∨
        Collides sha256 (fingerprintInput name version).utf8
          (fingerprintInput name' version').utf8 := by
  have hhash : computeFingerprintHex sha256 name version =
      computeFingerprintHex sha256 name' version' ↔
        sha256 (fingerprintInput name version).utf8 =
          sha256 (fingerprintInput name' version').utf8 := by
    constructor
    · intro h
      exact Subtype.ext (TraceContext.hexText_injective h)
    · intro h
      rw [computeFingerprintHex, TraceContext.sha256Hex, h]
      rfl
  rw [hhash]
  constructor
  · intro h
    by_cases hinput : fingerprintInput name version = fingerprintInput name' version'
    · rcases fingerprintInput_eq_iff.mp hinput with hsame | hshifted | hshifted
      · exact Or.inl hsame
      · exact Or.inr (Or.inl hshifted)
      · exact Or.inr (Or.inr (Or.inl hshifted))
    · exact Or.inr (Or.inr (Or.inr ⟨fun heq => hinput (Text.utf8_injective heq), h⟩))
  · rintro (⟨rfl, rfl⟩ | h | h | h)
    · rfl
    · rw [h.input_eq]
    · rw [h.input_eq]
    · exact h.2

theorem identifies_environments (sha256 : Bytes → BytesN 32) : IdentifiesEnvironments sha256 where
  accepts name version id := by
    simp only [EnvironmentFingerprintId.new, requireNotBlank, require_bind_eq_ok, pure_eq_ok]
    rw [eq_comm (b := id)]
  agrees name version := by
    unfold LocalFingerprintId.new EnvironmentFingerprintId.new
    cases requireNotBlank "name" name with
    | error e => rfl
    | ok u =>
      cases requireNotBlank "version" version with
      | error e => rfl
      | ok u => rfl
  same_iff name version name' version' := computeFingerprintHex_eq_iff
  distinct name version name' version' hname hname' h := by
    rcases computeFingerprintHex_eq_iff.mp h with hsame | hshifted | hshifted | hcollides
    · exact Or.inl hsame
    · exact absurd hshifted.mem_bar hname'
    · exact absurd hshifted.mem_bar hname
    · exact Or.inr hcollides

end Ids

end EnvFingerprint

end AnchorKit
