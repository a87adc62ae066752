import AnchorKit.Library.StableSort
import AnchorKit.Library.Text
import AnchorKit.Types

/-!
# Deployment drift

A snapshot of a deployment against its specification. Entries of the configuration are looked up by
key, the first one only, so an entry behind another of the same key is not compared. The report is
right exactly when this hides nothing: no unexpected entry of an expected key stands behind another,
and a deployment as specified has one value for each key.
-/

namespace AnchorKit

namespace Drift

structure ConfigEntry where
  key : Text
  value : Text
deriving DecidableEq, Repr

structure DeploymentSpec where
  environment : Text
  expectedVersion : Text
  expectedNetwork : Text
  expectedAdmin : Option Text
  expectedConfig : List ConfigEntry

structure DeploymentSnapshot where
  environment : Text
  capturedAt : UInt64
  observedVersion : Text
  observedNetwork : Text
  observedAdmin : Option Text
  observedConfig : List ConfigEntry

inductive DriftSeverity
  | low
  | medium
  | critical
deriving DecidableEq, Repr

def DriftSeverity.rank : DriftSeverity → ℕ
  | .low => 0
  | .medium => 1
  | .critical => 2

structure DriftItem where
  field : Text
  severity : DriftSeverity
  expected : Option Text
  observed : Option Text
  description : Text
deriving DecidableEq, Repr

structure DriftReport where
  environment : Text
  snapshotCapturedAt : UInt64
  items : List DriftItem
  isClean : Bool
  criticalCount : ℕ
  mediumCount : ℕ
  lowCount : ℕ

/-! ### Detection -/

def inQuotes (t : Text) : Text := '\'' :: t ++ ['\'']

def versionDrift (spec : DeploymentSpec) (snapshot : DeploymentSnapshot) : List DriftItem :=
  if spec.expectedVersion ≠ snapshot.observedVersion then
    [{ field := "version".toList, severity := .critical, expected := some spec.expectedVersion
       observed := some snapshot.observedVersion
       description := "deployed version ".toList ++ inQuotes snapshot.observedVersion ++
         " differs from expected ".toList ++ inQuotes spec.expectedVersion }]
  else []

def networkDrift (spec : DeploymentSpec) (snapshot : DeploymentSnapshot) : List DriftItem :=
  if spec.expectedNetwork ≠ snapshot.observedNetwork then
    [{ field := "network".toList, severity := .critical, expected := some spec.expectedNetwork
       observed := some snapshot.observedNetwork
       description := "network ".toList ++ inQuotes snapshot.observedNetwork ++
         " differs from expected ".toList ++ inQuotes spec.expectedNetwork }]
  else []

/-- An address without whitespace around it, in upper case. -/
def normalizedAdmin (address : Text) : Text :=
  Text.asciiUpper (Text.trimMatches isWhitespace address)

def adminDrift : Option Text → Option Text → List DriftItem
  | some exp, some obs =>
    if normalizedAdmin exp ≠ normalizedAdmin obs then
      [{ field := "admin".toList, severity := .critical, expected := some exp, observed := some obs
         description := "admin address ".toList ++ inQuotes obs ++
           " differs from expected ".toList ++ inQuotes exp }]
    else []
  | some exp, none =>
    [{ field := "admin".toList, severity := .critical, expected := some exp, observed := none
       description := "expected admin address is absent in snapshot".toList }]
  | none, some obs =>
    [{ field := "admin".toList, severity := .medium, expected := none, observed := some obs
       description := "unexpected admin address ".toList ++ inQuotes obs ++
         " found in snapshot".toList }]
  | none, none => []

def configField (key : Text) : Text := "config.".toList ++ key

def firstEntry (config : List ConfigEntry) (key : Text) : Option ConfigEntry :=
  config.find? fun e => e.key = key

/-- What is found out about an expected entry. -/
def expectedDrift (observedConfig : List ConfigEntry) (expectedEntry : ConfigEntry) :
    List DriftItem :=
  match firstEntry observedConfig expectedEntry.key with
  | none =>
    [{ field := configField expectedEntry.key, severity := .medium
       expected := some expectedEntry.value, observed := none
       description := "expected config key ".toList ++ inQuotes expectedEntry.key ++
         " is absent in snapshot".toList }]
  | some obsEntry =>
    if obsEntry.value ≠ expectedEntry.value then
      [{ field := configField expectedEntry.key, severity := .medium
         expected := some expectedEntry.value, observed := some obsEntry.value
         description := "config key ".toList ++ inQuotes expectedEntry.key ++
           ": observed ".toList ++ inQuotes obsEntry.value ++ ", expected ".toList ++
           inQuotes expectedEntry.value }]
    else []

def extraDrift (expectedConfig : List ConfigEntry) (obsEntry : ConfigEntry) : List DriftItem :=
  if ¬ (expectedConfig.any fun e => e.key = obsEntry.key) = true then
    [{ field := configField obsEntry.key, severity := .low, expected := none
       observed := some obsEntry.value
       description := "config key ".toList ++ inQuotes obsEntry.key ++
         " is present in snapshot but not in spec".toList }]
  else []

def foundItems (spec : DeploymentSpec) (snapshot : DeploymentSnapshot) : List DriftItem :=
  versionDrift spec snapshot ++ networkDrift spec snapshot ++
    adminDrift spec.expectedAdmin snapshot.observedAdmin ++
    spec.expectedConfig.flatMap (expectedDrift snapshot.observedConfig) ++
    snapshot.observedConfig.flatMap (extraDrift spec.expectedConfig)

def compareItems (a b : DriftItem) : Ordering := compare b.severity.rank a.severity.rank

def detectDrift (spec : DeploymentSpec) (snapshot : DeploymentSnapshot) : DriftReport :=
  let items := StableSort.sortBy compareItems (foundItems spec snapshot)
  { environment := spec.environment
    snapshotCapturedAt := snapshot.capturedAt
    items
    isClean := items.isEmpty
    criticalCount := (items.filter fun i => i.severity = .critical).length
    mediumCount := (items.filter fun i => i.severity = .medium).length
    lowCount := (items.filter fun i => i.severity = .low).length }

/-! ### What a report should say -/

/-- Both absent, or the same but for whitespace around them and letter case. -/
inductive AdminsAgree : Option Text → Option Text → Prop
  | absent : AdminsAgree none none
  | same {a b : Text} (h : Text.eqIgnoreAsciiCase (Text.trimMatches isWhitespace a)
      (Text.trimMatches isWhitespace b) = true) : AdminsAgree (some a) (some b)

structure AsSpecified (spec : DeploymentSpec) (snapshot : DeploymentSnapshot) : Prop where
  version : spec.expectedVersion = snapshot.observedVersion
  network : spec.expectedNetwork = snapshot.observedNetwork
  admin : AdminsAgree spec.expectedAdmin snapshot.observedAdmin
  values : ∀ key, {value | ⟨key, value⟩ ∈ snapshot.observedConfig} =
    {value | ⟨key, value⟩ ∈ spec.expectedConfig}

structure ReportsRightly (spec : DeploymentSpec) (snapshot : DeploymentSnapshot) : Prop where
  clean : (detectDrift spec snapshot).isClean = true ↔ AsSpecified spec snapshot
  expected : ∀ e ∈ spec.expectedConfig, e ∉ snapshot.observedConfig →
    ∃ item ∈ (detectDrift spec snapshot).items,
      item.field = configField e.key ∧ item.expected = some e.value
  observed : ∀ e ∈ snapshot.observedConfig, e ∉ spec.expectedConfig →
    ∃ item ∈ (detectDrift spec snapshot).items,
      item.field = configField e.key ∧ item.observed = some e.value
  ordered : (detectDrift spec snapshot).items.Pairwise fun a b => b.severity.rank ≤ a.severity.rank
  critical : (detectDrift spec snapshot).criticalCount =
    (detectDrift spec snapshot).items.countP fun i => i.severity = .critical
  medium : (detectDrift spec snapshot).mediumCount =
    (detectDrift spec snapshot).items.countP fun i => i.severity = .medium
  low : (detectDrift spec snapshot).lowCount =
    (detectDrift spec snapshot).items.countP fun i => i.severity = .low

/-- No entry is hidden behind another one of its key. -/
structure NothingHidden (spec : DeploymentSpec) (snapshot : DeploymentSnapshot) : Prop where
  first : ∀ e ∈ snapshot.observedConfig, e ∉ spec.expectedConfig →
    (∃ x ∈ spec.expectedConfig, x.key = e.key) →
      firstEntry snapshot.observedConfig e.key = some e
  single : AsSpecified spec snapshot → ∀ e ∈ spec.expectedConfig, ∀ e' ∈ spec.expectedConfig,
    e.key = e'.key → e = e'

/-! ### What is found -/

section Found

variable {spec : DeploymentSpec} {snapshot : DeploymentSnapshot} {config : List ConfigEntry}
  {e x : ConfigEntry} {item : DriftItem} {key : Text}

theorem versionDrift_eq_nil :
    versionDrift spec snapshot = [] ↔ spec.expectedVersion = snapshot.observedVersion := by
  unfold versionDrift
  split
  · rename_i hne
    exact iff_of_false (List.cons_ne_nil _ _) hne
  · rename_i heq
    exact iff_of_true rfl (not_not.mp heq)

theorem networkDrift_eq_nil :
    networkDrift spec snapshot = [] ↔ spec.expectedNetwork = snapshot.observedNetwork := by
  unfold networkDrift
  split
  · rename_i hne
    exact iff_of_false (List.cons_ne_nil _ _) hne
  · rename_i heq
    exact iff_of_true rfl (not_not.mp heq)

theorem normalizedAdmin_eq_iff {a b : Text} : normalizedAdmin a = normalizedAdmin b ↔
    Text.eqIgnoreAsciiCase (Text.trimMatches isWhitespace a)
      (Text.trimMatches isWhitespace b) = true := by
  rw [normalizedAdmin, normalizedAdmin, Text.asciiUpper_eq_iff, Text.eqIgnoreAsciiCase_iff]

theorem adminDrift_eq_nil {expected observed : Option Text} :
    adminDrift expected observed = [] ↔ AdminsAgree expected observed := by
  cases expected with
  | none =>
    cases observed with
    | none => exact iff_of_true rfl .absent
    | some obs => exact iff_of_false (List.cons_ne_nil _ _) nofun
  | some exp =>
    cases observed with
    | none => exact iff_of_false (List.cons_ne_nil _ _) nofun
    | some obs =>
      rw [adminDrift]
      split
      · rename_i hne
        refine iff_of_false (List.cons_ne_nil _ _) fun hagree => ?_
        cases hagree with
        | same h => exact hne (normalizedAdmin_eq_iff.mpr h)
      · rename_i heq
        exact iff_of_true rfl (.same (normalizedAdmin_eq_iff.mp (not_not.mp heq)))

theorem key_of_firstEntry (h : firstEntry config key = some e) : e.key = key :=
  of_decide_eq_true (List.find?_some (p := fun x : ConfigEntry => x.key = key) h)

theorem mem_of_firstEntry (h : firstEntry config key = some e) : e ∈ config :=
  List.mem_of_find?_eq_some h

theorem expectedDrift_eq_nil :
    expectedDrift config e = [] ↔ firstEntry config e.key = some e := by
  unfold expectedDrift
  split
  · rename_i hnone
    rw [hnone]
    exact iff_of_false (List.cons_ne_nil _ _) nofun
  · rename_i found hfound
    rw [hfound, Option.some.injEq]
    split
    · rename_i hne
      refine iff_of_false (List.cons_ne_nil _ _) fun heq => ?_
      rw [heq] at hne
      exact hne rfl
    · rename_i heq
      have hkey := key_of_firstEntry hfound
      cases found
      cases e
      exact iff_of_true rfl (ConfigEntry.mk.injEq .. ▸ ⟨hkey, not_not.mp heq⟩)

theorem extraDrift_eq_nil : extraDrift config e = [] ↔ ∃ x ∈ config, x.key = e.key := by
  unfold extraDrift
  simp only [List.any_eq_true, decide_eq_true_eq]
  split
  · rename_i hnone
    exact iff_of_false (List.cons_ne_nil _ _) hnone
  · rename_i hsome
    exact iff_of_true rfl (not_not.mp hsome)

theorem foundItems_eq_nil : foundItems spec snapshot = [] ↔
    spec.expectedVersion = snapshot.observedVersion ∧
    spec.expectedNetwork = snapshot.observedNetwork ∧
    AdminsAgree spec.expectedAdmin snapshot.observedAdmin ∧
    (∀ x ∈ spec.expectedConfig, firstEntry snapshot.observedConfig x.key = some x) ∧
    ∀ e ∈ snapshot.observedConfig, ∃ x ∈ spec.expectedConfig, x.key = e.key := by
  simp only [foundItems, List.append_eq_nil_iff, List.flatMap_eq_nil_iff, versionDrift_eq_nil,
    networkDrift_eq_nil, adminDrift_eq_nil, expectedDrift_eq_nil, extraDrift_eq_nil, and_assoc]

theorem mem_items : item ∈ (detectDrift spec snapshot).items ↔ item ∈ foundItems spec snapshot :=
  StableSort.mem_sortBy

theorem isClean_iff :
    (detectDrift spec snapshot).isClean = true ↔ foundItems spec snapshot = [] := by
  rw [List.eq_nil_iff_forall_not_mem]
  change List.isEmpty _ = true ↔ _
  rw [List.isEmpty_iff, List.eq_nil_iff_forall_not_mem]
  exact forall_congr' fun item => not_congr StableSort.mem_sortBy

instance : Std.TransCmp compareItems where
  eq_swap {a b} := Std.OrientedCmp.eq_swap (a := b.severity.rank) (b := a.severity.rank)
  isLE_trans {a b c} hab hbc := by
    rw [compareItems, Nat.isLE_compare] at hab hbc ⊢
    exact hbc.trans hab

theorem items_ordered (spec : DeploymentSpec) (snapshot : DeploymentSnapshot) :
    (detectDrift spec snapshot).items.Pairwise fun a b => b.severity.rank ≤ a.severity.rank := by
  have hsorted : (detectDrift spec snapshot).items.Pairwise fun a b => compareItems a b ≠ .gt :=
    StableSort.pairwise_sortBy (foundItems spec snapshot)
  refine hsorted.imp fun {a b} h => ?_
  exact Nat.isLE_compare.mp (Ordering.isLE_iff_ne_gt.mpr h)

theorem field_versionDrift (h : item ∈ versionDrift spec snapshot) (key : Text) :
    item.field ≠ configField key := by
  unfold versionDrift at h
  split at h
  · obtain rfl := List.mem_singleton.mp h
    exact nofun
  · cases h

theorem field_networkDrift (h : item ∈ networkDrift spec snapshot) (key : Text) :
    item.field ≠ configField key := by
  unfold networkDrift at h
  split at h
  · obtain rfl := List.mem_singleton.mp h
    exact nofun
  · cases h

theorem field_adminDrift {expected observed : Option Text} (h : item ∈ adminDrift expected observed)
    (key : Text) : item.field ≠ configField key := by
  unfold adminDrift at h
  split at h
  · split at h
    · obtain rfl := List.mem_singleton.mp h
      exact nofun
    · cases h
  · obtain rfl := List.mem_singleton.mp h
    exact nofun
  · obtain rfl := List.mem_singleton.mp h
    exact nofun
  · cases h

theorem observed_expectedDrift {value : Text} (h : item ∈ expectedDrift config x)
    (hobserved : item.observed = some value) :
    ∃ found, firstEntry config x.key = some found ∧ found.value = value ∧
      item.field = configField x.key := by
  unfold expectedDrift at h
  split at h
  · obtain rfl := List.mem_singleton.mp h
    cases hobserved
  · rename_i found hfound
    split at h
    · obtain rfl := List.mem_singleton.mp h
      exact ⟨found, hfound, Option.some.inj hobserved, rfl⟩
    · cases h

theorem field_extraDrift (h : item ∈ extraDrift config e) :
    (¬ ∃ x ∈ config, x.key = e.key) ∧ item.field = configField e.key := by
  rw [← extraDrift_eq_nil]
  refine ⟨List.ne_nil_of_mem h, ?_⟩
  unfold extraDrift at h
  split at h
  · obtain rfl := List.mem_singleton.mp h
    rfl
  · cases h

theorem mem_items_of_expectedDrift (he : e ∈ spec.expectedConfig)
    (h : item ∈ expectedDrift snapshot.observedConfig e) :
    item ∈ (detectDrift spec snapshot).items := by
  rw [mem_items, foundItems]
  exact List.mem_append_left _ (List.mem_append_right _ (List.mem_flatMap.mpr ⟨e, he, h⟩))

theorem mem_items_of_extraDrift (he : e ∈ snapshot.observedConfig)
    (h : item ∈ extraDrift spec.expectedConfig e) : item ∈ (detectDrift spec snapshot).items := by
  rw [mem_items, foundItems]
  exact List.mem_append_right _ (List.mem_flatMap.mpr ⟨e, he, h⟩)

theorem expected_mentioned (he : e ∈ spec.expectedConfig) (hne : e ∉ snapshot.observedConfig) :
    ∃ item ∈ (detectDrift spec snapshot).items,
      item.field = configField e.key ∧ item.expected = some e.value := by
  have hfound : ∃ item ∈ expectedDrift snapshot.observedConfig e,
      item.field = configField e.key ∧ item.expected = some e.value := by
    unfold expectedDrift
    split
    · exact ⟨_, List.mem_singleton_self _, rfl, rfl⟩
    · rename_i found hfound
      split
      · exact ⟨_, List.mem_singleton_self _, rfl, rfl⟩
      · rename_i heq
        have hnil : expectedDrift snapshot.observedConfig e = [] := by
          unfold expectedDrift
          rw [hfound]
          exact if_neg heq
        exact absurd (mem_of_firstEntry (expectedDrift_eq_nil.mp hnil)) hne
  obtain ⟨item, hitem, hmentions⟩ := hfound
  exact ⟨item, mem_items_of_expectedDrift he hitem, hmentions⟩

/-- The value found instead of an expected one is mentioned. -/
theorem expectedDrift_of_first {expected : ConfigEntry}
    (hfound : firstEntry config expected.key = some e) (hvalue : e.value ≠ expected.value) :
    ∃ item ∈ expectedDrift config expected,
      item.field = configField expected.key ∧ item.observed = some e.value := by
  rw [expectedDrift, hfound]
  dsimp only
  rw [if_pos hvalue]
  exact ⟨_, List.mem_singleton_self _, rfl, rfl⟩

theorem extraDrift_of_unexpected (h : ¬ ∃ x ∈ config, x.key = e.key) :
    ∃ item ∈ extraDrift config e,
      item.field = configField e.key ∧ item.observed = some e.value := by
  have hnone : ¬ (config.any fun x => x.key = e.key) = true := by simpa using h
  rw [extraDrift, if_pos hnone]
  exact ⟨_, List.mem_singleton_self _, rfl, rfl⟩

theorem first_of_mentioned (hexpected : ∃ x ∈ spec.expectedConfig, x.key = e.key)
    (hitem : item ∈ (detectDrift spec snapshot).items) (hfield : item.field = configField e.key)
    (hobserved : item.observed = some e.value) :
    firstEntry snapshot.observedConfig e.key = some e := by
  rw [mem_items, foundItems] at hitem
  simp only [List.mem_append, List.mem_flatMap, or_assoc] at hitem
  rcases hitem with hitem | hitem | hitem | ⟨x, hx, hitem⟩ | ⟨o, ho, hitem⟩
  · exact absurd hfield (field_versionDrift hitem e.key)
  · exact absurd hfield (field_networkDrift hitem e.key)
  · exact absurd hfield (field_adminDrift hitem e.key)
  · obtain ⟨found, hfound, hvalue, hitemField⟩ := observed_expectedDrift hitem hobserved
    have hkey := List.append_cancel_left (hitemField.symm.trans hfield)
    rw [← hkey, hfound, Option.some.injEq]
    have hfoundKey := key_of_firstEntry hfound
    cases found
    cases e
    exact ConfigEntry.mk.injEq .. ▸ ⟨hfoundKey.trans hkey, hvalue⟩
  · obtain ⟨hnone, hitemField⟩ := field_extraDrift hitem
    have hkey := List.append_cancel_left (hitemField.symm.trans hfield)
    rw [hkey] at hnone
    exact absurd hexpected hnone

/-- An unexpected entry is mentioned exactly where it is the first one of its key, or its key is
not expected at all. -/
theorem observed_mentioned_iff (he : e ∈ snapshot.observedConfig) (hne : e ∉ spec.expectedConfig) :
    (∃ item ∈ (detectDrift spec snapshot).items,
      item.field = configField e.key ∧ item.observed = some e.value) ↔
      ((∃ x ∈ spec.expectedConfig, x.key = e.key) →
        firstEntry snapshot.observedConfig e.key = some e) := by
  constructor
  · intro hmentioned hexpected
    obtain ⟨item, hitem, hfield, hobserved⟩ := hmentioned
    exact first_of_mentioned hexpected hitem hfield hobserved
  · intro hfirst
    by_cases hexpected : ∃ x ∈ spec.expectedConfig, x.key = e.key
    · obtain ⟨x, hx, hkey⟩ := hexpected
      have hfound := hfirst ⟨x, hx, hkey⟩
      have hvalue : e.value ≠ x.value := by
        intro heq
        refine hne ?_
        cases e
        cases x
        cases hkey
        cases heq
        exact hx
      rw [← hkey] at hfound
      obtain ⟨item, hitem, hfield, hobserved⟩ := expectedDrift_of_first hfound hvalue
      exact ⟨item, mem_items_of_expectedDrift hx hitem, hfield.trans (congrArg configField hkey),
        hobserved⟩
    · obtain ⟨item, hitem, hmentions⟩ := extraDrift_of_unexpected hexpected
      exact ⟨item, mem_items_of_extraDrift he hitem, hmentions⟩

theorem asSpecified_iff : AsSpecified spec snapshot ↔
    spec.expectedVersion = snapshot.observedVersion ∧
    spec.expectedNetwork = snapshot.observedNetwork ∧
    AdminsAgree spec.expectedAdmin snapshot.observedAdmin ∧
    ∀ e, e ∈ snapshot.observedConfig ↔ e ∈ spec.expectedConfig := by
  constructor
  · intro h
    refine ⟨h.version, h.network, h.admin, fun e => ?_⟩
    exact Set.ext_iff.mp (h.values e.key) e.value
  · intro h
    obtain ⟨hversion, hnetwork, hadmin, hvalues⟩ := h
    exact ⟨hversion, hnetwork, hadmin, fun key => Set.ext fun value => hvalues ⟨key, value⟩⟩

/-- Where no unexpected entry is hidden, a clean report means a deployment as specified. -/
theorem asSpecified_of_clean
    (hfirst : ∀ e ∈ snapshot.observedConfig, e ∉ spec.expectedConfig →
      (∃ x ∈ spec.expectedConfig, x.key = e.key) →
        firstEntry snapshot.observedConfig e.key = some e)
    (h : foundItems spec snapshot = []) : AsSpecified spec snapshot := by
  obtain ⟨hversion, hnetwork, hadmin, hexpected, hknown⟩ := foundItems_eq_nil.mp h
  refine asSpecified_iff.mpr ⟨hversion, hnetwork, hadmin, fun e => ⟨fun he => ?_, fun he => ?_⟩⟩
  · by_contra hne
    obtain ⟨x, hx, hkey⟩ := hknown e he
    have hsame := hexpected x hx
    rw [hkey, hfirst e he hne ⟨x, hx, hkey⟩] at hsame
    exact hne (Option.some.inj hsame ▸ hx)
  · exact mem_of_firstEntry (hexpected e he)

theorem clean_of_asSpecified (h : AsSpecified spec snapshot) :
    foundItems spec snapshot = [] ↔
      ∀ e ∈ spec.expectedConfig, ∀ e' ∈ spec.expectedConfig, e.key = e'.key → e = e' := by
  obtain ⟨hversion, hnetwork, hadmin, hvalues⟩ := asSpecified_iff.mp h
  rw [foundItems_eq_nil, and_iff_right hversion, and_iff_right hnetwork, and_iff_right hadmin,
    and_iff_left fun e he => ⟨e, (hvalues e).mp he, rfl⟩]
  constructor
  · intro hfirst e he e' he' hkey
    have hsame := hfirst e he
    rw [hkey, hfirst e' he'] at hsame
    exact (Option.some.inj hsame).symm
  · intro hsingle x hx
    cases hfound : firstEntry snapshot.observedConfig x.key with
    | none =>
      have hnone := List.find?_eq_none.mp hfound x ((hvalues x).mpr hx)
      exact absurd (decide_eq_true rfl) hnone
    | some found =>
      have hmem := (hvalues found).mp (mem_of_firstEntry hfound)
      rw [hsingle found hmem x hx (key_of_firstEntry hfound)]

end Found

/-- A report is right exactly when no entry is hidden behind another one of its key. -/
theorem reportsRightly_iff (spec : DeploymentSpec) (snapshot : DeploymentSnapshot) :
    ReportsRightly spec snapshot ↔ NothingHidden spec snapshot := by
  constructor
  · intro h
    refine ⟨fun e he hne => ?_, fun hsame => ?_⟩
    · exact (observed_mentioned_iff he hne).mp (h.observed e he hne)
    · exact (clean_of_asSpecified hsame).mp (isClean_iff.mp (h.clean.mpr hsame))
  · intro h
    refine ⟨?_, fun e he hne => expected_mentioned he hne, fun e he hne => ?_,
      items_ordered spec snapshot, ?_, ?_, ?_⟩
    · rw [isClean_iff]
      constructor
      · intro hclean
        exact asSpecified_of_clean h.first hclean
      · intro hsame
        exact (clean_of_asSpecified hsame).mpr (h.single hsame)
    · exact (observed_mentioned_iff he hne).mpr (h.first e he hne)
    · exact List.countP_eq_length_filter.symm
    · exact List.countP_eq_length_filter.symm
    · exact List.countP_eq_length_filter.symm

/-- A second observed value of a key goes unreported. -/
theorem hidden_value_clean :
    ¬ ReportsRightly
      ⟨"testnet".toList, "0.1.0".toList, "test".toList, none,
        [⟨"rate_limit".toList, "100".toList⟩]⟩
      ⟨"testnet".toList, 9999, "0.1.0".toList, "test".toList, none,
        [⟨"rate_limit".toList, "100".toList⟩, ⟨"rate_limit".toList, "0".toList⟩]⟩ := by
  intro h
  obtain ⟨item, hitem, _⟩ := h.observed ⟨"rate_limit".toList, "0".toList⟩ (by decide) (by decide)
  rw [mem_items] at hitem
  exact List.not_mem_nil hitem

end Drift

end AnchorKit
