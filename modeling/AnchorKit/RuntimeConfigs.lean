import AnchorKit.ConfigManager
import AnchorKit.Library.KeyedList
import AnchorKit.ProxySelection

/-!
# Runtime configurations

A configuration is checked before it is used: what it refers to has to be there, limits have to be
positive, and the proxies have to be URLs. The first thing wrong is reported.
-/

namespace AnchorKit

open Fallible

/-! ### Proxies -/

structure ProxyCredentials where
  username : Text
  password : Text

/-- The proxies, and what authenticates to them. -/
structure ProxySettings extends ProxyConfig where
  credentials : Option ProxyCredentials

def stripProxyScheme (url : Text) : Option Text :=
  (url.dropPrefix? "http://".toList).or (url.dropPrefix? "https://".toList)

def invalidProxyUrl (field url defect : Text) : Text :=
  "invalid proxy URL '".toList ++ url ++ "' in ".toList ++ field ++ ": ".toList ++ defect

def validateProxyUrl (field url : Text) : Except Text Unit := do
  let rest ← expect (stripProxyScheme url)
    (invalidProxyUrl field url "must start with http:// or https://".toList)
  require ((HttpClient.extractHost rest).isSome = true)
    (invalidProxyUrl field url "missing host".toList)
  require (url.any (fun c => Text.isAsciiWhitespace c || Text.isAsciiControl c) = false)
    (invalidProxyUrl field url "contains whitespace or control characters".toList)

namespace ProxySettings

variable (config : ProxySettings)

def isConfigured : Bool :=
  (nonEmpty config.proxyUrl).isSome || (nonEmpty config.httpProxyUrl).isSome ||
    (nonEmpty config.httpsProxyUrl).isSome

def urlFields : List (Text × Option Text) :=
  [("proxy_url".toList, config.proxyUrl), ("http_proxy_url".toList, config.httpProxyUrl),
    ("https_proxy_url".toList, config.httpsProxyUrl)]

def validateCredentials (creds : ProxyCredentials) : Except Text Unit := do
  require (creds.username ≠ []) "proxy credentials: username cannot be empty".toList
  require (':' ∉ creds.username) "proxy credentials: username cannot contain ':'".toList
  require (creds.username.any Text.isAsciiControl = false ∧
      creds.password.any Text.isAsciiControl = false)
    "proxy credentials: username/password cannot contain control characters".toList
  require (config.isConfigured = true)
    "proxy credentials supplied but no proxy URL configured".toList

def validate : Except Text Unit := do
  config.urlFields.forM fun entry => (nonEmpty entry.2).forM (validateProxyUrl entry.1)
  config.credentials.forM config.validateCredentials
  config.noProxy.forM fun noProxy =>
    require (noProxy.any Text.isAsciiControl = false)
      "no_proxy cannot contain control characters".toList

end ProxySettings

/-! ### Configurations -/

structure ContractConfig where
  name : Text

structure AttestorConfig where
  name : Text

structure AttestorsConfig where
  registry : List AttestorConfig

structure OperationTemplateConfig where
  id : Text
  attestor : Text

structure OperationsConfig where
  templates : Option (List OperationTemplateConfig)

structure RuntimeConfig.RateLimitConfig where
  attestor : Text
  requestsPerMinute : UInt64
  requestsPerHour : UInt64

structure MultisigRequirementConfig where
  operation : Text
  requiredSignatures : UInt64
  signatoryAttestors : List Text

structure SecurityConfig where
  rateLimits : Option (List RuntimeConfig.RateLimitConfig)
  multisigRequirements : Option (List MultisigRequirementConfig)

structure RuntimeConfig where
  contract : ContractConfig
  attestors : AttestorsConfig
  operations : Option OperationsConfig
  security : Option SecurityConfig
  proxy : Option ProxySettings

namespace RuntimeConfig

def blankContractName : Text := "contract.name cannot be empty or whitespace".toList

def emptyRegistry : Text := "attestors.registry cannot be empty".toList

def blankAttestorName : Text := "attestor name cannot be empty or whitespace".toList

def duplicateAttestor (name : Text) : Text :=
  "duplicate attestor name '".toList ++ name ++ "': each attestor name must be unique".toList

def duplicateTemplate (id : Text) : Text :=
  "duplicate operation template id '".toList ++ id ++ "': each template id must be unique".toList

def templateOfUnknown (id attestor : Text) : Text :=
  "operation '".toList ++ id ++ "' references unknown attestor '".toList ++ attestor ++ "'".toList

def rateLimitOfUnknown (attestor : Text) : Text :=
  "rate limit references unknown attestor '".toList ++ attestor ++ "'".toList

def zeroRateLimit (attestor field : Text) : Text :=
  "rate limit for '".toList ++ attestor ++ "': ".toList ++ field ++
    " must be positive (got 0)".toList

def zeroSignatures (operation : Text) : Text :=
  "multisig requirement for '".toList ++ operation ++
    "': required_signatures must be positive (got 0)".toList

def signatoryUnknown (operation signatory : Text) : Text :=
  "multisig requirement '".toList ++ operation ++ "' references unknown attestor '".toList ++
    signatory ++ "'".toList

def ofProxy (err : Text) : Text := "proxy: ".toList ++ err

def readAttestor (seenNames : List Text) (attestor : AttestorConfig) :
    Except Text (List Text) := do
  require (Text.trimMatches isWhitespace attestor.name ≠ []) blankAttestorName
  require (¬ seenNames.contains attestor.name = true) (duplicateAttestor attestor.name)
  return seenNames ++ [attestor.name]

def readTemplate (attestors seenOpIds : List Text) (template : OperationTemplateConfig) :
    Except Text (List Text) := do
  require (¬ seenOpIds.contains template.id = true) (duplicateTemplate template.id)
  require (attestors.contains template.attestor = true)
    (templateOfUnknown template.id template.attestor)
  return seenOpIds ++ [template.id]

def checkRateLimit (attestors : List Text) (rateLimit : RateLimitConfig) : Except Text Unit := do
  require (attestors.contains rateLimit.attestor = true) (rateLimitOfUnknown rateLimit.attestor)
  require (rateLimit.requestsPerMinute ≠ 0)
    (zeroRateLimit rateLimit.attestor "requests_per_minute".toList)
  require (rateLimit.requestsPerHour ≠ 0)
    (zeroRateLimit rateLimit.attestor "requests_per_hour".toList)

def checkRequirement (attestors : List Text) (requirement : MultisigRequirementConfig) :
    Except Text Unit := do
  require (requirement.requiredSignatures ≠ 0) (zeroSignatures requirement.operation)
  requirement.signatoryAttestors.forM fun signatory =>
    require (attestors.contains signatory = true) (signatoryUnknown requirement.operation signatory)

def checkOperations (attestors : List Text) (operations : OperationsConfig) : Except Text Unit :=
  operations.templates.forM fun templates => do
    let _ ← templates.foldlM (readTemplate attestors) []

def checkSecurity (attestors : List Text) (security : SecurityConfig) : Except Text Unit := do
  security.rateLimits.forM fun rateLimits => rateLimits.forM (checkRateLimit attestors)
  security.multisigRequirements.forM fun requirements =>
    requirements.forM (checkRequirement attestors)

def validateRuntimeConfig (config : RuntimeConfig) : Except Text Unit := do
  require (Text.trimMatches isWhitespace config.contract.name ≠ []) blankContractName
  require (config.attestors.registry ≠ []) emptyRegistry
  let attestors ← config.attestors.registry.foldlM readAttestor []
  config.operations.forM (checkOperations attestors)
  config.security.forM (checkSecurity attestors)
  config.proxy.forM fun proxy => proxy.validate.mapError ofProxy

/-- `decode` parses the text, applies the schema and builds the configuration. -/
def parseRuntimeConfigStr (decode : Text → ConfigFormat → Except Text RuntimeConfig)
    (input : Text) (format : ConfigFormat) : Except Text RuntimeConfig := do
  let config ← decode input format
  validateRuntimeConfig config
  return config

end RuntimeConfig

/-! ### What is wrong with a configuration -/

/-- What is wrong with the URL of a proxy; without its scheme the rest is not looked at. -/
def proxyUrlDefects (field url : Text) : List Text :=
  match stripProxyScheme url with
  | none => [invalidProxyUrl field url "must start with http:// or https://".toList]
  | some rest =>
    defectUnless ((HttpClient.extractHost rest).isSome = true)
        (invalidProxyUrl field url "missing host".toList) ++
      defectUnless (url.any (fun c => Text.isAsciiWhitespace c || Text.isAsciiControl c) = false)
        (invalidProxyUrl field url "contains whitespace or control characters".toList)

/-- The URL of a host over HTTP or HTTPS, in printable characters. -/
structure IsProxyUrl (url : Text) : Prop where
  host : ∃ scheme ∈ ["http://".toList, "https://".toList], ∃ rest, url = scheme ++ rest ∧
    (HttpClient.extractHost rest).isSome = true
  printable : ∀ c ∈ url, Text.isAsciiWhitespace c = false ∧ Text.isAsciiControl c = false

namespace ProxySettings

variable (config : ProxySettings)

def credentialDefects (creds : ProxyCredentials) : List Text :=
  defectUnless (creds.username ≠ []) "proxy credentials: username cannot be empty".toList ++
  (defectUnless (':' ∉ creds.username)
    "proxy credentials: username cannot contain ':'".toList ++
  (defectUnless (creds.username.any Text.isAsciiControl = false ∧
      creds.password.any Text.isAsciiControl = false)
    "proxy credentials: username/password cannot contain control characters".toList ++
  defectUnless (config.isConfigured = true)
    "proxy credentials supplied but no proxy URL configured".toList))

def defects : List Text :=
  config.urlFields.flatMap (fun entry =>
    (nonEmpty entry.2).elim [] (proxyUrlDefects entry.1)) ++
  (config.credentials.elim [] config.credentialDefects ++
  config.noProxy.elim [] fun noProxy =>
    defectUnless (noProxy.any Text.isAsciiControl = false)
      "no_proxy cannot contain control characters".toList)

def Names (url : Text) : Prop :=
  url ≠ [] ∧ (config.proxyUrl = some url ∨ config.httpProxyUrl = some url ∨
    config.httpsProxyUrl = some url)

def Printable (t : Text) : Prop := ∀ c ∈ t, Text.isAsciiControl c = false

structure WellFormed : Prop where
  urls : ∀ url, config.Names url → IsProxyUrl url
  username : ∀ creds ∈ config.credentials, creds.username ≠ [] ∧ ':' ∉ creds.username
  printable : ∀ creds ∈ config.credentials, Printable creds.username ∧ Printable creds.password
  used : config.credentials ≠ none → ∃ url, config.Names url
  noProxy : ∀ noProxy ∈ config.noProxy, Printable noProxy

end ProxySettings

namespace RuntimeConfig

def names (config : RuntimeConfig) : List Text :=
  config.attestors.registry.map AttestorConfig.name

def attestorDefects (before : List AttestorConfig) (attestor : AttestorConfig) : List Text :=
  defectUnless (Text.trimMatches isWhitespace attestor.name ≠ []) blankAttestorName ++
    defectUnless (¬ (before.map AttestorConfig.name).contains attestor.name = true)
      (duplicateAttestor attestor.name)

def templateDefects (attestors : List Text) (before : List OperationTemplateConfig)
    (template : OperationTemplateConfig) : List Text :=
  defectUnless (¬ (before.map OperationTemplateConfig.id).contains template.id = true)
      (duplicateTemplate template.id) ++
    defectUnless (attestors.contains template.attestor = true)
      (templateOfUnknown template.id template.attestor)

def rateLimitDefects (attestors : List Text) (rateLimit : RateLimitConfig) : List Text :=
  defectUnless (attestors.contains rateLimit.attestor = true)
    (rateLimitOfUnknown rateLimit.attestor) ++
  (defectUnless (rateLimit.requestsPerMinute ≠ 0)
    (zeroRateLimit rateLimit.attestor "requests_per_minute".toList) ++
  defectUnless (rateLimit.requestsPerHour ≠ 0)
    (zeroRateLimit rateLimit.attestor "requests_per_hour".toList))

def requirementDefects (attestors : List Text) (requirement : MultisigRequirementConfig) :
    List Text :=
  defectUnless (requirement.requiredSignatures ≠ 0) (zeroSignatures requirement.operation) ++
    requirement.signatoryAttestors.flatMap fun signatory =>
      defectUnless (attestors.contains signatory = true)
        (signatoryUnknown requirement.operation signatory)

def operationDefects (attestors : List Text) (operations : OperationsConfig) : List Text :=
  operations.templates.elim [] (eachAfter (templateDefects attestors))

def securityDefects (attestors : List Text) (security : SecurityConfig) : List Text :=
  security.rateLimits.elim [] (List.flatMap (rateLimitDefects attestors)) ++
    security.multisigRequirements.elim [] (List.flatMap (requirementDefects attestors))

/-- All that is wrong with a configuration, section by section. -/
def defects (config : RuntimeConfig) : List Text :=
  defectUnless (Text.trimMatches isWhitespace config.contract.name ≠ []) blankContractName ++
  (defectUnless (config.attestors.registry ≠ []) emptyRegistry ++
  (eachAfter attestorDefects config.attestors.registry ++
  (config.operations.elim [] (operationDefects config.names) ++
  (config.security.elim [] (securityDefects config.names) ++
  config.proxy.elim [] fun proxy => proxy.defects.map ofProxy))))

/-- Everything that is referred to is there, under one name, and no limit is zero. -/
structure WellFormed (config : RuntimeConfig) : Prop where
  contract : Text.trimMatches isWhitespace config.contract.name ≠ []
  registry : config.attestors.registry ≠ []
  named : ∀ name ∈ config.names, Text.trimMatches isWhitespace name ≠ []
  distinct : config.names.Nodup
  templates : ∀ operations ∈ config.operations, ∀ templates ∈ operations.templates,
    (templates.map OperationTemplateConfig.id).Nodup ∧
      ∀ template ∈ templates, template.attestor ∈ config.names
  rateLimits : ∀ security ∈ config.security, ∀ rateLimits ∈ security.rateLimits,
    ∀ rateLimit ∈ rateLimits, rateLimit.attestor ∈ config.names ∧
      rateLimit.requestsPerMinute ≠ 0 ∧ rateLimit.requestsPerHour ≠ 0
  requirements : ∀ security ∈ config.security, ∀ requirements ∈ security.multisigRequirements,
    ∀ requirement ∈ requirements, requirement.requiredSignatures ≠ 0 ∧
      ∀ signatory ∈ requirement.signatoryAttestors, signatory ∈ config.names
  proxy : ∀ proxy ∈ config.proxy, proxy.WellFormed

end RuntimeConfig

/-! ### The first thing wrong -/

theorem validateProxyUrl_eq (field url : Text) :
    validateProxyUrl field url = firstOf (proxyUrlDefects field url) := by
  unfold validateProxyUrl proxyUrlDefects
  cases stripProxyScheme url with
  | none => rfl
  | some rest =>
    dsimp only
    rw [expect_some_bind, firstOf_append, firstOf_defectUnless, firstOf_defectUnless]

namespace ProxySettings

variable (config : ProxySettings)

theorem validateCredentials_eq (creds : ProxyCredentials) :
    config.validateCredentials creds = firstOf (config.credentialDefects creds) := by
  simp only [validateCredentials, credentialDefects, firstOf_append, firstOf_defectUnless]

theorem validate_eq : config.validate = firstOf config.defects := by
  simp only [validate, defects, firstOf_append, firstOf_flatMap, firstOf_elim,
    firstOf_defectUnless, ← validateCredentials_eq, ← validateProxyUrl_eq]

end ProxySettings

namespace RuntimeConfig

theorem foldl_noted {α : Type} (name : α → Text) (l : List α) :
    l.foldl (fun seen a => seen ++ [name a]) [] = l.map name := by
  induction l using List.reverseRecOn with
  | nil => rfl
  | append_singleton l a ih => rw [List.foldl_concat, ih, List.map_append, List.map_singleton]

theorem readAttestors_eq (registry : List AttestorConfig) :
    registry.foldlM readAttestor [] = (firstOf (eachAfter attestorDefects registry) >>=
      fun _ => pure (registry.map AttestorConfig.name)) := by
  have hround : ∀ seenNames attestor, readAttestor seenNames attestor =
      (firstOf (defectUnless (Text.trimMatches isWhitespace attestor.name ≠ []) blankAttestorName ++
        defectUnless (¬ seenNames.contains attestor.name = true)
          (duplicateAttestor attestor.name)) >>=
      fun _ => pure (seenNames ++ [attestor.name])) := by
    intro seenNames attestor
    rw [firstOf_append, firstOf_defectUnless, firstOf_defectUnless, bind_assoc]
    rfl
  rw [foldlM_eq_firstOf hround]
  simp only [foldl_noted]
  rfl

theorem readTemplates_eq (attestors : List Text) (templates : List OperationTemplateConfig) :
    templates.foldlM (readTemplate attestors) [] =
      (firstOf (eachAfter (templateDefects attestors) templates) >>=
        fun _ => pure (templates.map OperationTemplateConfig.id)) := by
  have hround : ∀ seenOpIds template, readTemplate attestors seenOpIds template =
      (firstOf (defectUnless (¬ seenOpIds.contains template.id = true)
          (duplicateTemplate template.id) ++
        defectUnless (attestors.contains template.attestor = true)
          (templateOfUnknown template.id template.attestor)) >>=
      fun _ => pure (seenOpIds ++ [template.id])) := by
    intro seenOpIds template
    rw [firstOf_append, firstOf_defectUnless, firstOf_defectUnless, bind_assoc]
    rfl
  rw [foldlM_eq_firstOf hround]
  simp only [foldl_noted]
  rfl

theorem checkOperations_eq (attestors : List Text) (operations : OperationsConfig) :
    checkOperations attestors operations = firstOf (operationDefects attestors operations) := by
  rw [checkOperations, operationDefects, firstOf_elim]
  congr 1
  funext templates
  rw [readTemplates_eq, bind_assoc]
  cases firstOf (eachAfter (templateDefects attestors) templates) <;> rfl

theorem checkRateLimit_eq (attestors : List Text) (rateLimit : RateLimitConfig) :
    checkRateLimit attestors rateLimit = firstOf (rateLimitDefects attestors rateLimit) := by
  simp only [checkRateLimit, rateLimitDefects, firstOf_append, firstOf_defectUnless]

theorem checkRequirement_eq (attestors : List Text) (requirement : MultisigRequirementConfig) :
    checkRequirement attestors requirement =
      firstOf (requirementDefects attestors requirement) := by
  simp only [checkRequirement, requirementDefects, firstOf_append, firstOf_defectUnless,
    firstOf_flatMap]

theorem checkSecurity_eq (attestors : List Text) (security : SecurityConfig) :
    checkSecurity attestors security = firstOf (securityDefects attestors security) := by
  simp only [checkSecurity, securityDefects, firstOf_append, firstOf_elim, firstOf_flatMap,
    ← checkRateLimit_eq, ← checkRequirement_eq]

theorem validateRuntimeConfig_eq (config : RuntimeConfig) :
    validateRuntimeConfig config = firstOf config.defects := by
  have hproxy : ∀ proxy : ProxySettings,
      proxy.validate.mapError ofProxy = firstOf (proxy.defects.map ofProxy) := by
    intro proxy
    rw [firstOf_map, proxy.validate_eq]
  simp only [validateRuntimeConfig, defects, firstOf_append, firstOf_defectUnless, firstOf_elim,
    ← checkOperations_eq, ← checkSecurity_eq, ← hproxy, readAttestors_eq, bind_assoc, pure_bind]
  rfl

end RuntimeConfig

/-! ### Nothing wrong -/

theorem stripProxyScheme_eq_some {url rest : Text} : stripProxyScheme url = some rest ↔
    ∃ scheme ∈ ["http://".toList, "https://".toList], url = scheme ++ rest := by
  have hcut : ∀ {scheme rest : Text},
      url.dropPrefix? scheme = some rest ↔ url = scheme ++ rest := by
    intro scheme rest
    rw [List.dropPrefix?_eq_some_iff]
    simp
  rw [stripProxyScheme, Option.or_eq_some_iff, hcut, hcut]
  simp only [List.mem_cons, List.not_mem_nil, or_false, exists_eq_or_imp, exists_eq_left]
  constructor
  · rintro (h | ⟨-, h⟩)
    · exact Or.inl h
    · exact Or.inr h
  · rintro (h | h)
    · exact Or.inl h
    · refine Or.inr ⟨?_, h⟩
      rw [h]
      rfl

theorem proxyUrlDefects_eq_nil {field url : Text} :
    proxyUrlDefects field url = [] ↔ IsProxyUrl url := by
  have hprintable : (∀ c ∈ url, Text.isAsciiWhitespace c = false ∧ Text.isAsciiControl c = false) ↔
      url.any (fun c => Text.isAsciiWhitespace c || Text.isAsciiControl c) = false := by
    simp only [List.any_eq_false, Bool.or_eq_true, not_or, Bool.not_eq_true]
  unfold proxyUrlDefects
  cases hstrip : stripProxyScheme url with
  | none =>
    constructor
    · intro h
      exact absurd h (List.cons_ne_nil _ _)
    · intro h
      obtain ⟨scheme, hscheme, rest, hurl, -⟩ := h.host
      rw [stripProxyScheme_eq_some.mpr ⟨scheme, hscheme, hurl⟩] at hstrip
      cases hstrip
  | some rest =>
    dsimp only
    rw [List.append_eq_nil_iff, defectUnless_eq_nil, defectUnless_eq_nil, ← hprintable]
    obtain ⟨scheme, hscheme, hurl⟩ := stripProxyScheme_eq_some.mp hstrip
    constructor
    · rintro ⟨hhost, hchars⟩
      exact ⟨⟨scheme, hscheme, rest, hurl, hhost⟩, hchars⟩
    · intro h
      obtain ⟨scheme', hscheme', rest', hurl', hhost⟩ := h.host
      rw [stripProxyScheme_eq_some.mpr ⟨scheme', hscheme', hurl'⟩] at hstrip
      obtain rfl := Option.some.inj hstrip
      exact ⟨hhost, h.printable⟩

namespace ProxySettings

variable {config : ProxySettings}

theorem nonEmpty_eq_some {field : Option Text} {url : Text} :
    nonEmpty field = some url ↔ url ≠ [] ∧ field = some url := by
  rw [nonEmpty, Option.filter_eq_some_iff, decide_eq_true_iff, and_comm]

theorem isConfigured_iff : config.isConfigured = true ↔ ∃ url, config.Names url := by
  simp only [isConfigured, Bool.or_eq_true, Option.isSome_iff_exists, nonEmpty_eq_some, Names,
    ← exists_or, ← and_or_left, or_assoc]

theorem any_isAsciiControl {t : Text} : t.any Text.isAsciiControl = false ↔ Printable t := by
  simp only [List.any_eq_false, Bool.not_eq_true, Printable]

theorem urlDefects_eq_nil : config.urlFields.flatMap (fun entry =>
    (nonEmpty entry.2).elim [] (proxyUrlDefects entry.1)) = [] ↔
      ∀ url, config.Names url → IsProxyUrl url := by
  simp only [urlFields, List.flatMap_cons, List.flatMap_nil, List.append_eq_nil_iff, elim_eq_nil,
    Option.mem_def, nonEmpty_eq_some, proxyUrlDefects_eq_nil, Names]
  grind

theorem credentialDefects_eq_nil {creds : ProxyCredentials} :
    config.credentialDefects creds = [] ↔ (creds.username ≠ [] ∧ ':' ∉ creds.username) ∧
      (Printable creds.username ∧ Printable creds.password) ∧ ∃ url, config.Names url := by
  simp only [credentialDefects, List.append_eq_nil_iff, defectUnless_eq_nil, any_isAsciiControl,
    isConfigured_iff, and_assoc]

theorem defects_eq_nil : config.defects = [] ↔ config.WellFormed := by
  simp only [defects, List.append_eq_nil_iff, urlDefects_eq_nil, elim_eq_nil,
    credentialDefects_eq_nil, defectUnless_eq_nil, any_isAsciiControl]
  constructor
  · rintro ⟨hurls, hcreds, hnoProxy⟩
    refine ⟨hurls, fun creds hmem => (hcreds creds hmem).1,
      fun creds hmem => (hcreds creds hmem).2.1, fun hsome => ?_, hnoProxy⟩
    obtain ⟨creds, hmem⟩ := Option.ne_none_iff_exists'.mp hsome
    exact (hcreds creds hmem).2.2
  · intro h
    refine ⟨h.urls, fun creds hmem => ⟨h.username creds hmem, h.printable creds hmem, ?_⟩,
      h.noProxy⟩
    exact h.used (Option.ne_none_iff_exists'.mpr ⟨creds, hmem⟩)

end ProxySettings

namespace RuntimeConfig

variable {attestors : List Text} {config : RuntimeConfig}

theorem attestorDefects_eq_nil {registry : List AttestorConfig} :
    eachAfter attestorDefects registry = [] ↔
      (∀ name ∈ registry.map AttestorConfig.name, Text.trimMatches isWhitespace name ≠ []) ∧
        (registry.map AttestorConfig.name).Nodup := by
  simp only [eachAfter_eq_nil, attestorDefects, List.append_eq_nil_iff, defectUnless_eq_nil,
    List.contains_iff_mem, KeyedList.nodup_map_iff, List.forall_mem_map]
  constructor
  · intro h
    refine ⟨fun attestor hmem => ?_, fun before attestor after hl => (h before attestor after hl).2⟩
    obtain ⟨before, after, hl⟩ := List.append_of_mem hmem
    exact (h before attestor after hl).1
  · rintro ⟨hnamed, hnew⟩ before attestor after rfl
    exact ⟨hnamed attestor (by simp), hnew before attestor after rfl⟩

theorem templateDefects_eq_nil {templates : List OperationTemplateConfig} :
    eachAfter (templateDefects attestors) templates = [] ↔
      (templates.map OperationTemplateConfig.id).Nodup ∧
        ∀ template ∈ templates, template.attestor ∈ attestors := by
  simp only [eachAfter_eq_nil, templateDefects, List.append_eq_nil_iff, defectUnless_eq_nil,
    List.contains_iff_mem, KeyedList.nodup_map_iff]
  constructor
  · intro h
    refine ⟨fun before template after hl => (h before template after hl).1, fun template hmem => ?_⟩
    obtain ⟨before, after, hl⟩ := List.append_of_mem hmem
    exact (h before template after hl).2
  · rintro ⟨hnew, hknown⟩ before template after rfl
    exact ⟨hnew before template after rfl, hknown template (by simp)⟩

theorem defects_eq_nil : config.defects = [] ↔ config.WellFormed := by
  have hmap : ∀ proxy : ProxySettings, proxy.defects.map ofProxy = [] ↔ proxy.WellFormed := by
    intro proxy
    rw [List.map_eq_nil_iff, proxy.defects_eq_nil]
  simp only [defects, operationDefects, securityDefects, rateLimitDefects, requirementDefects,
    List.append_eq_nil_iff, defectUnless_eq_nil, elim_eq_nil, List.flatMap_eq_nil_iff,
    List.contains_iff_mem, attestorDefects_eq_nil, templateDefects_eq_nil, hmap]
  constructor
  · rintro ⟨hcontract, hregistry, ⟨hnamed, hdistinct⟩, htemplates, hsecurity, hproxy⟩
    exact ⟨hcontract, hregistry, hnamed, hdistinct, htemplates,
      fun security hmem => (hsecurity security hmem).1,
      fun security hmem => (hsecurity security hmem).2, hproxy⟩
  · intro h
    exact ⟨h.contract, h.registry, ⟨h.named, h.distinct⟩, h.templates,
      fun security hmem => ⟨h.rateLimits security hmem, h.requirements security hmem⟩, h.proxy⟩

/-- A configuration is accepted when it is well formed, and else the first thing wrong is told. -/
structure CheckedRightly (config : RuntimeConfig) (result : Except Text Unit) : Prop where
  accepted_iff : result = .ok () ↔ config.WellFormed
  rejected_iff : ∀ err, result = .error err ↔ config.defects.head? = some err

theorem validateRuntimeConfig_eq_ok :
    validateRuntimeConfig config = .ok () ↔ config.WellFormed := by
  rw [validateRuntimeConfig_eq, firstOf_eq_ok, defects_eq_nil]

theorem config_checked (config : RuntimeConfig) :
    config.CheckedRightly (validateRuntimeConfig config) := by
  constructor
  · exact validateRuntimeConfig_eq_ok
  · intro err
    rw [validateRuntimeConfig_eq, firstOf_eq_error]

end RuntimeConfig

/-! ### Configurations that are served -/

namespace ProxySettings

variable {config : ProxySettings}

theorem names_of_selectProxyUrl {target url : Text} (h : config.selectProxyUrl target = some url) :
    config.Names url := by
  have hfield : ∀ {field : Option Text}, nonEmpty field = some url →
      url ≠ [] ∧ field = some url := nonEmpty_eq_some.mp
  unfold ProxyConfig.selectProxyUrl at h
  dsimp only at h
  split at h <;> split at h
  · cases h
  · exact ⟨(hfield h).1, Or.inl (hfield h).2⟩
  · cases h
  · split at h <;> rcases Option.or_eq_some_iff.mp h with h | ⟨-, h⟩
    · exact ⟨(hfield h).1, Or.inr (Or.inr (hfield h).2)⟩
    · exact ⟨(hfield h).1, Or.inl (hfield h).2⟩
    · exact ⟨(hfield h).1, Or.inr (Or.inl (hfield h).2)⟩
    · exact ⟨(hfield h).1, Or.inl (hfield h).2⟩

end ProxySettings

namespace RuntimeConfigManager

def checkedSource (path : Text) (readToString : Bytes → Except Text Text)
    (decode : Text → ConfigFormat → Except Text RuntimeConfig) : ConfigSource RuntimeConfig where
  path := path
  readToString := readToString
  parseRuntimeConfigStr := RuntimeConfig.parseRuntimeConfigStr decode

section Served

variable {Config Caller : Type} {source : ConfigSource Config} {s : System Config Caller}
  {m m' : RuntimeConfigManager Config} {calls : Caller → Stage Config} {u : Caller}
  {stage : Stage Config} {c : Config} {file : ConfigFile}

def Holds : Phase Config Caller → Config → Prop
  | .absent, _ => False
  | .opening config, c => c = config
  | .ready m calls, c => c = m.config ∨ ∃ u, calls u = .read c

/-- The file has had this content. -/
def HasHeld (file : ConfigFile) (es : List (Event Caller)) (content : Bytes) : Prop :=
  content = file.content ∨ ∃ modified, .write content modified ∈ es

/-- The configuration is what a content says that the file has had. -/
def Loaded (source : ConfigSource Config) (file : ConfigFile) (es : List (Event Caller))
    (c : Config) : Prop :=
  ∃ content, HasHeld file es content ∧
    ∀ modified, loadRuntimeConfigFile source ⟨content, modified⟩ = .ok c

structure HoldsLoaded (source : ConfigSource Config) (file : ConfigFile)
    (es : List (Event Caller)) (s : System Config Caller) : Prop where
  content : HasHeld file es s.file.content
  loaded : ∀ c, Holds s.phase c → Loaded source file es c

/-- A call brings no configuration into memory but that of the file. -/
theorem holds_of_effect [DecidableEq Caller] (heffect : Effect source file m (calls u) m' stage)
    (h : Holds (.ready m' (Function.update calls u stage)) c) :
    Holds (.ready m calls) c ∨ loadRuntimeConfigFile source file = .ok c := by
  -- served already, read by this call, or held before it
  have hcases : c = m'.config ∨ stage = .read c ∨ Holds (.ready m calls) c := by
    rcases h with h | ⟨v, hv⟩
    · exact Or.inl h
    · rcases eq_or_ne v u with rfl | hne
      · rw [Function.update_self] at hv
        exact Or.inr (Or.inl hv)
      · rw [Function.update_of_ne hne] at hv
        exact Or.inr (Or.inr (Or.inr ⟨v, hv⟩))
  generalize hstage : calls u = old at heffect
  rcases hcases with hserved | hread | hheld
  · cases heffect with
    | swap config =>
      obtain rfl := hserved
      exact Or.inl (Or.inr ⟨u, hstage⟩)
    | aside | read | record => exact Or.inl (Or.inl hserved)
  · cases heffect with
    | aside _ hafter =>
      subst hread
      exact absurd trivial hafter
    | read _ hload =>
      cases hread
      exact Or.inr hload
    | swap | record => cases hread
  · exact Or.inl hheld

theorem HoldsLoaded.of_load {es : List (Event Caller)} (h : HoldsLoaded source file es s)
    (hload : loadRuntimeConfigFile source s.file = .ok c) : Loaded source file es c :=
  ⟨s.file.content, h.content, fun _ => hload⟩

theorem HoldsLoaded.step [DecidableEq Caller] {es : List (Event Caller)}
    {t : Machine.Transition (System Config Caller) (Event Caller)}
    (hstep : step source t.pre t.input = .ok t.post) (h : HoldsLoaded source file es t.pre)
    (hmem : t.input ∈ es) : HoldsLoaded source file es t.post := by
  obtain ⟨⟨file', phase⟩, e, s'⟩ := t
  dsimp only at hstep h hmem ⊢
  unfold RuntimeConfigManager.step at hstep
  split at hstep
  · rename_i content modified
    obtain ⟨-, hstep⟩ := require_bind_eq_ok.mp hstep
    obtain rfl := pure_eq_ok.mp hstep
    exact ⟨Or.inr ⟨modified, hmem⟩, h.loaded⟩
  · split at hstep
    · rename_i config hload
      cases hstep
      refine ⟨h.content, fun c hc => ?_⟩
      obtain rfl : c = config := hc
      exact h.of_load hload
    · cases hstep
      exact h
  · rename_i config hphase
    cases hstep
    refine ⟨h.content, fun c hc => h.loaded c ?_⟩
    rw [hphase]
    rcases hc with rfl | ⟨v, hv⟩
    · rfl
    · cases hv
  · rename_i u action m calls hphase
    obtain ⟨⟨m', stage⟩, hcall, hstep⟩ := bind_eq_ok.mp hstep
    cases hstep
    refine ⟨h.content, fun c hc => ?_⟩
    rcases holds_of_effect (effect_of_callStep hcall) hc with hheld | hload
    · exact h.loaded c (hphase ▸ hheld)
    · exact h.of_load hload
  · cases hstep

theorem holdsLoaded_run [DecidableEq Caller] (source : ConfigSource Config) (file : ConfigFile)
    (es : List (Event Caller)) :
    HoldsLoaded source file es (Machine.run (step source) (start file) es) := by
  apply Machine.invariant_of_transitions (step source) (HoldsLoaded source file es)
    (fun t => t.input ∈ es)
  · exact ⟨Or.inl rfl, fun _ h => h.elim⟩
  · exact fun t hstep h hmem => h.step hstep hmem
  · intro t ht
    obtain ⟨js, ks, rfl, -⟩ := Machine.exists_prefix_of_mem_transitions (step source) ht
    exact List.mem_append_right js List.mem_cons_self

end Served

section Checked

variable {path : Text} {readToString : Bytes → Except Text Text}
  {decode : Text → ConfigFormat → Except Text RuntimeConfig}

theorem wellFormed_of_load {file : ConfigFile} {config : RuntimeConfig}
    (h : loadRuntimeConfigFile (checkedSource path readToString decode) file = .ok config) :
    config.WellFormed := by
  obtain ⟨-, h⟩ := require_bind_eq_ok.mp h
  obtain ⟨input, -, h⟩ := bind_eq_ok.mp h
  obtain ⟨format, -, h⟩ := bind_eq_ok.mp h
  obtain ⟨config', -, h⟩ := bind_eq_ok.mp h
  obtain ⟨u, hvalid, h⟩ := bind_eq_ok.mp h
  obtain rfl := pure_eq_ok.mp h
  exact RuntimeConfig.validateRuntimeConfig_eq_ok.mp hvalid

/-- What the manager hands out is a checked content of the file, and its proxies are URLs. -/
structure ServesChecked {Caller : Type} (source : ConfigSource RuntimeConfig) (file : ConfigFile)
    (es : List (Event Caller)) (phase : Phase RuntimeConfig Caller) : Prop where
  loaded : ∀ m ∈ phase.manager, Loaded source file es m.config
  wellFormed : ∀ m ∈ phase.manager, m.config.WellFormed
  proxied : ∀ m ∈ phase.manager, ∀ proxy ∈ m.config.proxy, ∀ target url,
    proxy.selectProxyUrl target = some url → IsProxyUrl url

theorem serves_checked {Caller : Type} [DecidableEq Caller] (path : Text)
    (readToString : Bytes → Except Text Text)
    (decode : Text → ConfigFormat → Except Text RuntimeConfig) (file : ConfigFile)
    (es : List (Event Caller)) :
    ServesChecked (checkedSource path readToString decode) file es
      (Machine.run (step (checkedSource path readToString decode)) (start file) es).phase := by
  have hloaded : ∀ m ∈ (Machine.run (step (checkedSource path readToString decode))
      (start file) es).phase.manager,
      Loaded (checkedSource path readToString decode) file es m.config := by
    intro m hm
    apply (holdsLoaded_run _ file es).loaded
    cases hphase : (Machine.run (step (checkedSource path readToString decode))
      (start file) es).phase with
    | ready m' calls =>
      rw [hphase] at hm
      obtain rfl := Option.some.inj hm
      exact Or.inl rfl
    | absent | opening =>
      rw [hphase] at hm
      cases hm
  have hwell : ∀ m ∈ (Machine.run (step (checkedSource path readToString decode))
      (start file) es).phase.manager, m.config.WellFormed := by
    intro m hm
    obtain ⟨content, -, hload⟩ := hloaded m hm
    exact wellFormed_of_load (hload 0)
  refine ⟨hloaded, hwell, fun m hm proxy hproxy target url hselect => ?_⟩
  exact ((hwell m hm).proxy proxy hproxy).urls url (ProxySettings.names_of_selectProxyUrl hselect)

end Checked

end RuntimeConfigManager

end AnchorKit
