import AnchorKit.Library.Fallible
import AnchorKit.Library.KeyedList
import AnchorKit.Library.Text
import AnchorKit.Types

/-!
# Routing of alerts

An alert goes to the routes of every rule that matches its severity and its scope, each of them
once, and to the default routes when there is none. The rules come from the alerts that the
monitoring configuration lists.
-/

namespace AnchorKit

open Fallible
open KeyedList (retainUnseen mem_retainUnseen pairwise_retainUnseen)

inductive AlertSeverity
  | info
  | warning
  | error
  | critical
deriving DecidableEq, Repr

namespace AlertSeverity

def label : AlertSeverity → Text
  | info => "info".toList
  | warning => "warning".toList
  | error => "error".toList
  | critical => "critical".toList

def fromStr (s : Text) : Option AlertSeverity :=
  let lower := Text.asciiLower s
  if lower = "info".toList then some info
  else if lower = "warning".toList then some warning
  else if lower = "error".toList then some error
  else if lower = "critical".toList then some critical
  else none

end AlertSeverity

structure AlertRoute where
  channel : Text
  destination : Text
deriving DecidableEq, Repr

def AlertRoute.webhook (url : Text) : AlertRoute := ⟨"webhook".toList, url⟩

structure AlertRule where
  severity : AlertSeverity
  scope : Option Text
  routes : List AlertRoute

def AlertRule.isMatch (rule : AlertRule) (severity : AlertSeverity) (scope : Option Text) : Bool :=
  if rule.severity ≠ severity then false
  else
    match rule.scope, scope with
    | none, _ => true
    | some r, some s => decide (r = s)
    | some _, none => false

structure AlertRouterConfig where
  rules : List AlertRule
  defaultRoutes : List AlertRoute

namespace AlertRouter

variable (config : AlertRouterConfig) (severity : AlertSeverity) (scope : Option Text)

def matched : List AlertRoute :=
  (config.rules.filter fun rule => rule.isMatch severity scope).flatMap AlertRule.routes

def candidates : List AlertRoute :=
  if matched config severity scope = [] then config.defaultRoutes
  else matched config severity scope

def route : List AlertRoute := retainUnseen [] (candidates config severity scope)

def hasRoute : Bool := !(route config severity scope).isEmpty

end AlertRouter

structure AlertConfig where
  condition : Text
  severity : Text
  recipients : List Text

structure MonitoringConfig where
  alerts : Option (List AlertConfig)

/-- A character as it stands in a quoted text; which ones are printable is up to Unicode. -/
def debugChar (printable : Char → Bool) (c : Char) : Text :=
  if c = '\x00' then "\\0".toList
  else if c = '\t' then "\\t".toList
  else if c = '\r' then "\\r".toList
  else if c = '\n' then "\\n".toList
  else if c = '\\' then "\\\\".toList
  else if c = '\x22' then "\\\x22".toList
  else if printable c then [c]
  else "\\u\x7b".toList ++ Nat.toDigits 16 c.toNat ++ "\x7d".toList

def debugText (printable : Char → Bool) (t : Text) : Text :=
  '\x22' :: t.flatMap (debugChar printable) ++ ['\x22']

def invalidSeverity (printable : Char → Bool) (severity : Text) : AnchorKitError :=
  .validationError (String.ofList ("monitoring.alerts[].severity: invalid severity ".toList ++
    debugText printable severity ++ " (expected info|warning|error|critical)".toList))

namespace AlertRouterConfig

def isBlank (t : Text) : Bool := decide (Text.trimMatches isWhitespace t = [])

def ruleOf (printable : Char → Bool) (alert : AlertConfig) :
    Except AnchorKitError (Option AlertRule) := do
  let severity ← expect (AlertSeverity.fromStr alert.severity)
    (invalidSeverity printable alert.severity)
  let scope := if alert.condition = [] then none else some alert.condition
  let routes := (alert.recipients.filter fun r => !isBlank r).map AlertRoute.webhook
  return if routes ≠ [] then some ⟨severity, scope, routes⟩ else none

def fromMonitoringConfig (printable : Char → Bool) (monitoring : Option MonitoringConfig) :
    Except AnchorKitError AlertRouterConfig :=
  match monitoring.bind MonitoringConfig.alerts with
  | none => .ok ⟨[], []⟩
  | some alerts => do
    let rules ← collect (ruleOf printable) alerts
    return ⟨rules, []⟩

end AlertRouterConfig

/-! ### Which routes an alert takes -/

namespace AlertRouter

/-- The rule asks for the severity and, unless it is for all scopes, for the scope. -/
def Applies (severity : AlertSeverity) (scope : Option Text) (rule : AlertRule) : Prop :=
  rule.severity = severity ∧ (rule.scope = none ∨ rule.scope = scope)

/-- Each route that applies is taken once, in the order of the rules; the default ones are taken
when no rule that applies has a route. -/
structure RoutesRightly (config : AlertRouterConfig) (severity : AlertSeverity)
    (scope : Option Text) (routes : List AlertRoute) : Prop where
  mem_iff : ∀ r, r ∈ routes ↔
    (∃ rule ∈ config.rules, Applies severity scope rule ∧ r ∈ rule.routes) ∨
      (∀ rule ∈ config.rules, Applies severity scope rule → rule.routes = []) ∧
        r ∈ config.defaultRoutes
  ordered : routes.Pairwise fun a b =>
    (candidates config severity scope).idxOf a < (candidates config severity scope).idxOf b
  nodup : routes.Nodup

variable {config : AlertRouterConfig} {severity : AlertSeverity} {scope : Option Text}
  {rule : AlertRule} {r : AlertRoute}

theorem isMatch_iff : rule.isMatch severity scope = true ↔ Applies severity scope rule := by
  unfold AlertRule.isMatch Applies
  by_cases hseverity : rule.severity = severity
  · rw [if_neg (not_not_intro hseverity)]
    cases hrule : rule.scope with
    | none => simp [hseverity]
    | some wanted => cases scope <;> simp [hseverity]
  · rw [if_pos hseverity]
    simp [hseverity]

theorem mem_matched : r ∈ matched config severity scope ↔
    ∃ rule ∈ config.rules, Applies severity scope rule ∧ r ∈ rule.routes := by
  simp only [matched, List.mem_flatMap, List.mem_filter, isMatch_iff, and_assoc]

theorem matched_eq_nil : matched config severity scope = [] ↔
    ∀ rule ∈ config.rules, Applies severity scope rule → rule.routes = [] := by
  simp only [matched, List.flatMap_eq_nil_iff, List.mem_filter, isMatch_iff, and_imp]

theorem mem_candidates : r ∈ candidates config severity scope ↔
    (∃ rule ∈ config.rules, Applies severity scope rule ∧ r ∈ rule.routes) ∨
      (∀ rule ∈ config.rules, Applies severity scope rule → rule.routes = []) ∧
        r ∈ config.defaultRoutes := by
  rw [← mem_matched, ← matched_eq_nil, candidates]
  by_cases hnone : matched config severity scope = []
  · rw [if_pos hnone, hnone]
    simp
  · rw [if_neg hnone]
    simp [hnone]

theorem nodup_of_ordered {routes l : List AlertRoute}
    (h : routes.Pairwise fun a b => l.idxOf a < l.idxOf b) : routes.Nodup := by
  refine h.imp fun hlt heq => ?_
  rw [heq] at hlt
  exact Nat.lt_irrefl _ hlt

theorem routes_rightly (config : AlertRouterConfig) (severity : AlertSeverity)
    (scope : Option Text) :
    RoutesRightly config severity scope (route config severity scope) := by
  have hordered := pairwise_retainUnseen [] (candidates config severity scope)
  refine ⟨fun r => ?_, hordered, nodup_of_ordered hordered⟩
  rw [route, mem_retainUnseen, mem_candidates]
  simp

end AlertRouter

/-! ### Which alerts of the configuration are routed -/

namespace AlertSeverity

theorem label_injective : Function.Injective label := by
  intro a b h
  cases a <;> cases b <;> first | rfl | exact absurd h (by decide)

theorem fromStr_eq_some {s : Text} {severity : AlertSeverity} :
    fromStr s = some severity ↔ Text.asciiLower s = severity.label := by
  have hlabel : ∀ {a : AlertSeverity}, Text.asciiLower s = a.label →
      (some a = some severity ↔ Text.asciiLower s = severity.label) := by
    intro a ha
    rw [ha, Option.some_inj]
    exact label_injective.eq_iff.symm
  unfold fromStr
  dsimp only
  split
  · exact hlabel ‹_›
  split
  · exact hlabel ‹_›
  split
  · exact hlabel ‹_›
  split
  · exact hlabel ‹_›
  · rename_i hinfo hwarning herror hcritical
    constructor
    · intro h
      cases h
    · intro h
      cases severity with
      | info => exact absurd h hinfo
      | warning => exact absurd h hwarning
      | error => exact absurd h herror
      | critical => exact absurd h hcritical

def Known (s : Text) : Prop := ∃ severity : AlertSeverity, Text.asciiLower s = severity.label

theorem fromStr_eq_none {s : Text} : fromStr s = none ↔ ¬ Known s := by
  simp only [Known, ← fromStr_eq_some, ← Option.isSome_iff_exists, Bool.not_eq_true,
    Option.isSome_eq_false_iff, Option.isNone_iff_eq_none]

end AlertSeverity

namespace AlertRouterConfig

def listed (monitoring : Option MonitoringConfig) : List AlertConfig :=
  ((monitoring.bind MonitoringConfig.alerts).getD [])

def Concerns (severity : AlertSeverity) (scope : Option Text) (alert : AlertConfig) : Prop :=
  Text.asciiLower alert.severity = severity.label ∧
    (alert.condition = [] ∨ scope = some alert.condition)

instance {severity : AlertSeverity} {scope : Option Text} :
    DecidablePred (Concerns severity scope) := fun _ => instDecidableAnd

def webhooks (alert : AlertConfig) : List AlertRoute :=
  (alert.recipients.filter fun r => !isBlank r).map AlertRoute.webhook

def concerned (severity : AlertSeverity) (scope : Option Text) (alerts : List AlertConfig) :
    List AlertRoute :=
  (alerts.filter (Concerns severity scope)).flatMap webhooks

/-- The configuration is refused at the first severity that is none; else an alert goes once to
each recipient that is listed for it, in that order. -/
structure AlertsRouted (printable : Char → Bool) (alerts : List AlertConfig)
    (result : Except AnchorKitError AlertRouterConfig) : Prop where
  refused_iff : ∀ e, result = .error e ↔ ∃ before alert after, alerts = before ++ alert :: after ∧
    (∀ earlier ∈ before, AlertSeverity.Known earlier.severity) ∧
      ¬ AlertSeverity.Known alert.severity ∧ e = invalidSeverity printable alert.severity
  mem_iff : ∀ config, result = .ok config → ∀ severity scope route,
    route ∈ AlertRouter.route config severity scope ↔
      ∃ alert ∈ alerts, Concerns severity scope alert ∧
        ∃ r ∈ alert.recipients, Text.trimMatches isWhitespace r ≠ [] ∧ route = .webhook r
  ordered : ∀ config, result = .ok config → ∀ severity scope,
    (AlertRouter.route config severity scope).Pairwise fun a b =>
      (concerned severity scope alerts).idxOf a < (concerned severity scope alerts).idxOf b
  dropped_iff : ∀ config, result = .ok config → ∀ severity scope,
    AlertRouter.hasRoute config severity scope = false ↔ concerned severity scope alerts = []

section Routed

variable {printable : Char → Bool} {alert : AlertConfig} {alerts : List AlertConfig}
  {rule : Option AlertRule} {rules : List AlertRule} {severity : AlertSeverity}
  {scope : Option Text}

theorem ruleOf_error {e : AnchorKitError} : ruleOf printable alert = .error e ↔
    ¬ AlertSeverity.Known alert.severity ∧ e = invalidSeverity printable alert.severity := by
  rw [ruleOf, ← AlertSeverity.fromStr_eq_none]
  cases AlertSeverity.fromStr alert.severity with
  | none =>
    constructor
    · intro h
      exact ⟨rfl, (Except.error.inj h).symm⟩
    · rintro ⟨-, rfl⟩
      rfl
  | some severity =>
    constructor
    · intro h
      cases h
    · rintro ⟨h, -⟩
      cases h

theorem succeeds_ruleOf :
    Succeeds (ruleOf printable alert) ↔ AlertSeverity.Known alert.severity := by
  cases hrule : ruleOf printable alert with
  | error e => simp [(ruleOf_error.mp hrule).1]
  | ok rule =>
    simp only [succeeds_ok, true_iff]
    by_contra hknown
    rw [ruleOf_error.mpr ⟨hknown, rfl⟩] at hrule
    cases hrule

def ruleFor (found : AlertSeverity) (alert : AlertConfig) : AlertRule :=
  ⟨found, if alert.condition = [] then none else some alert.condition, webhooks alert⟩

theorem exists_of_ruleOf (h : ruleOf printable alert = .ok rule) :
    ∃ found : AlertSeverity, Text.asciiLower alert.severity = found.label ∧
      rule = if webhooks alert ≠ [] then some (ruleFor found alert) else none := by
  obtain ⟨found, hfound, h⟩ := expect_bind_eq_ok.mp h
  exact ⟨found, AlertSeverity.fromStr_eq_some.mp hfound, (pure_eq_ok.mp h).symm⟩

theorem isMatch_ruleFor {found : AlertSeverity}
    (h : Text.asciiLower alert.severity = found.label) :
    (ruleFor found alert).isMatch severity scope = true ↔
      Concerns severity scope alert := by
  rw [AlertRouter.isMatch_iff, Concerns, h, AlertSeverity.label_injective.eq_iff,
    AlertRouter.Applies, ruleFor]
  by_cases hall : alert.condition = []
  · simp [hall]
  · simp [hall, eq_comm]

theorem concerned_cons : concerned severity scope (alert :: alerts) =
    (if Concerns severity scope alert then webhooks alert else []) ++
      concerned severity scope alerts := by
  unfold concerned
  by_cases hconcerns : Concerns severity scope alert
  · rw [List.filter_cons, if_pos (decide_eq_true hconcerns), List.flatMap_cons, if_pos hconcerns]
  · rw [List.filter_cons, if_neg (mt of_decide_eq_true hconcerns), if_neg hconcerns,
      List.nil_append]

theorem routes_ruleOf (h : ruleOf printable alert = .ok rule) :
    (rule.toList.filter fun rule => rule.isMatch severity scope).flatMap AlertRule.routes =
      if Concerns severity scope alert then webhooks alert else [] := by
  obtain ⟨found, hfound, rfl⟩ := exists_of_ruleOf h
  by_cases hroutes : webhooks alert = []
  · rw [if_neg (not_not_intro hroutes), hroutes]
    split <;> rfl
  · rw [if_pos hroutes, Option.toList_some, List.filter_singleton]
    by_cases hconcerns : Concerns severity scope alert
    · rw [(isMatch_ruleFor hfound).mpr hconcerns, if_pos hconcerns, cond_true,
        List.flatMap_singleton]
      rfl
    · rw [Bool.eq_false_iff.mpr (mt (isMatch_ruleFor hfound).mp hconcerns), if_neg hconcerns,
        cond_false, List.flatMap_nil]

theorem matched_of_collect (h : collect (ruleOf printable) alerts = .ok rules) :
    AlertRouter.matched ⟨rules, []⟩ severity scope = concerned severity scope alerts := by
  induction alerts generalizing rules with
  | nil =>
    obtain rfl := Except.ok.inj h
    rfl
  | cons alert alerts ih =>
    simp only [collect, bind_eq_ok, pure_eq_ok] at h
    obtain ⟨rule, hrule, rest, hrest, rfl⟩ := h
    rw [concerned_cons, ← routes_ruleOf hrule, ← ih hrest, AlertRouter.matched, AlertRouter.matched,
      List.filter_append, List.flatMap_append]

theorem mem_concerned {route : AlertRoute} : route ∈ concerned severity scope alerts ↔
    ∃ alert ∈ alerts, Concerns severity scope alert ∧
      ∃ r ∈ alert.recipients, Text.trimMatches isWhitespace r ≠ [] ∧ route = .webhook r := by
  simp only [concerned, webhooks, isBlank, List.mem_flatMap, List.mem_filter, List.mem_map,
    decide_eq_true_eq, Bool.not_eq_true', decide_eq_false_iff_not, and_assoc,
    @eq_comm AlertRoute _ route]

theorem fromMonitoringConfig_eq (monitoring : Option MonitoringConfig) :
    fromMonitoringConfig printable monitoring =
      (collect (ruleOf printable) (listed monitoring) >>= fun rules => pure ⟨rules, []⟩) := by
  unfold fromMonitoringConfig listed
  cases monitoring.bind MonitoringConfig.alerts <;> rfl

theorem candidates_of_ok {monitoring : Option MonitoringConfig} {config : AlertRouterConfig}
    (h : fromMonitoringConfig printable monitoring = .ok config) :
    AlertRouter.candidates config severity scope =
      concerned severity scope (listed monitoring) := by
  rw [fromMonitoringConfig_eq] at h
  obtain ⟨rules, hrules, h⟩ := bind_eq_ok.mp h
  obtain rfl := pure_eq_ok.mp h
  rw [AlertRouter.candidates, matched_of_collect hrules]
  split
  · exact Eq.symm ‹_›
  · rfl

theorem fromMonitoringConfig_error {monitoring : Option MonitoringConfig} {e : AnchorKitError} :
    fromMonitoringConfig printable monitoring = .error e ↔
      collect (ruleOf printable) (listed monitoring) = .error e := by
  rw [fromMonitoringConfig_eq, bind_pure_eq_error]

end Routed

theorem alerts_routed (printable : Char → Bool) (monitoring : Option MonitoringConfig) :
    AlertsRouted printable (listed monitoring) (fromMonitoringConfig printable monitoring) where
  refused_iff e := by
    rw [fromMonitoringConfig_error, collect_eq_error]
    simp only [succeeds_ruleOf, ruleOf_error]
  mem_iff config h severity scope route := by
    rw [AlertRouter.route, mem_retainUnseen, candidates_of_ok h, mem_concerned]
    simp
  ordered config h severity scope := by
    rw [← candidates_of_ok h]
    exact pairwise_retainUnseen [] _
  dropped_iff config h severity scope := by
    rw [← candidates_of_ok h, AlertRouter.hasRoute, Bool.not_eq_false', List.isEmpty_iff,
      List.eq_nil_iff_forall_not_mem, List.eq_nil_iff_forall_not_mem]
    simp only [AlertRouter.route, mem_retainUnseen, List.not_mem_nil, not_false_eq_true, and_true]

end AlertRouterConfig

end AnchorKit
