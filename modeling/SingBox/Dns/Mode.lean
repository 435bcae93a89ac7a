import SingBox.Dns.Message
import SingBox.Lib.Optimistic

/-!
# Legacy mode and the rule-sets

Whether the DNS router runs in legacy mode depends on its rules and on what the rule-sets that
they name contain. It is decided once, at the start. An update of a rule-set is validated
before it is committed: the router would still have to be in the same mode.

* `validate_uniform` — what the mode without legacy rules demands of a rule-set does not depend
  on the other ones;
* `enabled_separable` — nor does what the legacy mode demands;
* `mode_consistent` — the mode fits the rule-sets after any interleaving of updates, but for
  the need for the legacy mode, for which no other rule-set may change under an update.
-/

namespace SingBox.Dns.Mode

open Lib Lib.Optimistic Function List

/-! ## Options -/

/-- `adapter.RuleSetMetadata`, as far as DNS rules are concerned. -/
structure RuleSetMetadata where
  containsIPCIDRRule : Bool := false
  containsDNSQueryTypeRule : Bool := false
  containsNonIPCIDRRule : Bool := false
  deriving DecidableEq, Repr

structure Note where
  description : String
  deprecatedVersion : String
  scheduledVersion : String
  migrationLink : String

def Note.MessageWithLink (n : Note) : String :=
  if n.migrationLink ≠ "" then
    n.description ++ " is deprecated in sing-box " ++ n.deprecatedVersion ++
      " and will be removed in sing-box " ++ n.scheduledVersion ++
      ", checkout documentation for migration: " ++ n.migrationLink
  else
    n.description ++ " is deprecated in sing-box " ++ n.deprecatedVersion ++
      " and will be removed in sing-box " ++ n.scheduledVersion ++ "."

def OptionRuleSetIPCIDRAcceptEmpty : Note where
  description := "Legacy `rule_set_ip_cidr_accept_empty` DNS rule item"
  deprecatedVersion := "1.14.0"
  scheduledVersion := "1.16.0"
  migrationLink := "https://sing-box.sagernet.org/migration/#migrate-address-filter-fields-to-response-matching"

def OptionLegacyDNSAddressFilter : Note where
  description := "Legacy Address Filter Fields in DNS rules"
  deprecatedVersion := "1.14.0"
  scheduledVersion := "1.16.0"
  migrationLink := "https://sing-box.sagernet.org/migration/#migrate-address-filter-fields-to-response-matching"

def OptionLegacyDNSRuleStrategy : Note where
  description := "Legacy `strategy` DNS rule action option"
  deprecatedVersion := "1.14.0"
  scheduledVersion := "1.16.0"
  migrationLink := "https://sing-box.sagernet.org/migration/#migrate-dns-rule-action-strategy-to-rule-items"

/-- The options of an action that the mode depends on. -/
structure ActionOptions where
  disableOptimisticCache : Bool := false
  strategy : DomainStrategy := .asIS

/-- `option.DNSRuleAction`. The empty action is `route`. -/
inductive DNSRuleAction where
  | route (options : ActionOptions)
  | evaluate (options : ActionOptions)
  | routeOptions (options : ActionOptions)
  | respond
  | reject
  | predefined

/-- `option.DefaultDNSRule`, as far as the mode depends on it. -/
structure DefaultDNSRule where
  ipVersion : Int := 0
  queryType : List UInt16 := []
  ruleSet : List String := []
  ruleSetIPCIDRMatchSource : Bool := false
  matchResponse : Bool := false
  ipCIDR : List String := []
  ipIsPrivate : Bool := false
  ipAcceptAny : Bool := false
  responseRcode : Option Nat := none
  responseAnswer : List RR := []
  responseNs : List RR := []
  responseExtra : List RR := []
  ruleSetIPCIDRAcceptEmpty : Bool := false
  action : DNSRuleAction := .route {}

inductive DNSRule where
  | default (options : DefaultDNSRule)
  | logical (rules : List DNSRule) (action : DNSRuleAction)

namespace DNSRuleAction

def isEvaluate : DNSRuleAction → Bool
  | .evaluate _ => true
  | _ => false

def isRespond : DNSRuleAction → Bool
  | .respond => true
  | _ => false

def disablesLegacyDNSMode : DNSRuleAction → Bool
  | .route options => options.disableOptimisticCache
  | .evaluate options => options.disableOptimisticCache
  | .routeOptions options => options.disableOptimisticCache
  | _ => false

def hasStrategy : DNSRuleAction → Bool
  | .route options => options.strategy != .asIS
  | .evaluate options => options.strategy != .asIS
  | .routeOptions options => options.strategy != .asIS
  | _ => false

end DNSRuleAction

/-- The action that `dnsRuleActionType` looks at. -/
def DNSRule.action : DNSRule → DNSRuleAction
  | .default options => options.action
  | .logical _ action => action

/-! ## The mode -/

/-- An error, made by `E.New` or by `E.Cause` from another one. -/
inductive Failure where
  | new (message : String)
  | cause (err : Failure) (message : String)

def cause {β : Type} (message : String) (result : Except Failure β) : Except Failure β :=
  result.mapError (.cause · message)

/-- The rule-sets of the router, by their tags. -/
abbrev RuleSets := String → Option RuleSetMetadata

/-- What a tag is looked up as. -/
abbrev Lookup := String → Except Failure RuleSetMetadata

def lookupDNSRuleSetMetadata (router metadataOverrides : RuleSets) : Lookup := fun tag =>
  match metadataOverrides tag with
  | some metadata => .ok metadata
  | none =>
      match router tag with
      | none => .error (.new ("rule-set not found: " ++ tag))
      | some metadata => .ok metadata

structure DnsRuleModeFlags where
  disabled : Bool := false
  needed : Bool := false
  neededFromStrategy : Bool := false
  deriving DecidableEq, Repr

def DnsRuleModeFlags.merge (f other : DnsRuleModeFlags) : DnsRuleModeFlags where
  disabled := f.disabled || other.disabled
  needed := f.needed || other.needed
  neededFromStrategy := f.neededFromStrategy || other.neededFromStrategy

variable (rule : DefaultDNSRule)

def defaultRuleNeedsLegacyDNSModeFromAddressFilter : Bool :=
  if rule.ruleSetIPCIDRAcceptEmpty then true
  else !rule.matchResponse && (rule.ipAcceptAny || !rule.ipCIDR.isEmpty || rule.ipIsPrivate)

def hasResponseMatchFields : Bool :=
  rule.responseRcode.isSome || !rule.responseAnswer.isEmpty || !rule.responseNs.isEmpty ||
    !rule.responseExtra.isEmpty

def defaultRuleDisablesLegacyDNSMode : Bool :=
  rule.matchResponse || hasResponseMatchFields rule || rule.action.isEvaluate ||
    rule.action.isRespond || decide (rule.ipVersion > 0) || !rule.queryType.isEmpty

section Requirements

variable (lookup : Lookup)

/-- The loop over the rule-sets of a rule. -/
def ruleSetRequirements (matchSource : Bool) :
    List String → DnsRuleModeFlags → Except Failure DnsRuleModeFlags
  | [], flags => .ok flags
  | tag :: tags, flags => do
      let metadata ← lookup tag
      ruleSetRequirements matchSource tags
        { flags with
          disabled := flags.disabled || metadata.containsDNSQueryTypeRule
          needed := if !matchSource && metadata.containsIPCIDRRule then true else flags.needed }

def dnsRuleModeRequirementsInDefaultRule (rule : DefaultDNSRule) :
    Except Failure DnsRuleModeFlags :=
  ruleSetRequirements lookup rule.ruleSetIPCIDRMatchSource rule.ruleSet
    { disabled := defaultRuleDisablesLegacyDNSMode rule || rule.action.disablesLegacyDNSMode
      needed := defaultRuleNeedsLegacyDNSModeFromAddressFilter rule || rule.action.hasStrategy
      neededFromStrategy := rule.action.hasStrategy }

mutual

def dnsRuleModeRequirementsInRule : DNSRule → Except Failure DnsRuleModeFlags
  | .default options => dnsRuleModeRequirementsInDefaultRule lookup options
  | .logical rules action =>
      subRuleRequirements rules 0
        { disabled := action.isEvaluate || action.isRespond || action.disablesLegacyDNSMode
          needed := action.hasStrategy
          neededFromStrategy := action.hasStrategy }

/-- The loop over the rules of a logical rule. -/
def subRuleRequirements : List DNSRule → Nat → DnsRuleModeFlags → Except Failure DnsRuleModeFlags
  | [], _, flags => .ok flags
  | subRule :: rules, i, flags => do
      let subFlags ←
        cause ("sub rule[" ++ toString i ++ "]") (dnsRuleModeRequirementsInRule subRule)
      subRuleRequirements rules (i + 1) (flags.merge subFlags)

end

/-- The loop of `dnsRuleModeRequirements`. -/
def requirementsFrom : List DNSRule → Nat → DnsRuleModeFlags → Except Failure DnsRuleModeFlags
  | [], _, flags => .ok flags
  | rule :: rules, i, flags => do
      let ruleFlags ←
        cause ("dns rule[" ++ toString i ++ "]") (dnsRuleModeRequirementsInRule lookup rule)
      requirementsFrom rules (i + 1) (flags.merge ruleFlags)

def dnsRuleModeRequirements (rules : List DNSRule) : Except Failure DnsRuleModeFlags :=
  requirementsFrom lookup rules 0 {}

def resolveLegacyDNSMode (rules : List DNSRule) : Except Failure (Bool × DnsRuleModeFlags) := do
  let flags ← dnsRuleModeRequirements lookup rules
  if flags.disabled && flags.neededFromStrategy then
    .error (.new OptionLegacyDNSRuleStrategy.MessageWithLink)
  else if flags.disabled then .ok (false, flags)
  else .ok (flags.needed, flags)

end Requirements

/-! ## What is demanded of the rules otherwise -/

section Validation

variable (lookup : Lookup)

/-- The loop over the rule-sets of a rule without `match_response`. -/
def validateRuleSets : List String → Except Failure Unit
  | [] => .ok ()
  | tag :: tags => do
      let metadata ← lookup tag
      if metadata.containsIPCIDRRule && !metadata.containsNonIPCIDRRule then
        .error (.new OptionLegacyDNSAddressFilter.MessageWithLink)
      else validateRuleSets tags

def validateLegacyDNSModeDisabledDefaultRule (rule : DefaultDNSRule) : Except Failure Bool := do
  if (hasResponseMatchFields rule || !rule.ipCIDR.isEmpty || rule.ipIsPrivate ||
      rule.ipAcceptAny) && !rule.matchResponse then
    .error (.new ("Response Match Fields (ip_cidr, ip_is_private, ip_accept_any, response_rcode, " ++
      "response_answer, response_ns, response_extra) require match_response to be enabled"))
  else
    let _ ← if rule.matchResponse then .ok () else validateRuleSets lookup rule.ruleSet
    if rule.ruleSetIPCIDRAcceptEmpty then
      .error (.new OptionRuleSetIPCIDRAcceptEmpty.MessageWithLink)
    else .ok (rule.matchResponse || rule.action.isRespond)

mutual

def validateLegacyDNSModeDisabledRuleTree : DNSRule → Except Failure Bool
  | .default options => validateLegacyDNSModeDisabledDefaultRule lookup options
  | .logical rules action => validateSubRules rules 0 action.isRespond

/-- The loop over the rules of a logical rule. -/
def validateSubRules : List DNSRule → Nat → Bool → Except Failure Bool
  | [], _, requiresPriorEvaluate => .ok requiresPriorEvaluate
  | subRule :: rules, i, requiresPriorEvaluate => do
      let subRequiresPriorEvaluate ←
        cause ("sub rule[" ++ toString i ++ "]") (validateLegacyDNSModeDisabledRuleTree subRule)
      validateSubRules rules (i + 1) (requiresPriorEvaluate || subRequiresPriorEvaluate)

end

/-- The loop of `validateLegacyDNSModeDisabledRules`. -/
def validateFrom : List DNSRule → Nat → Bool → Except Failure Unit
  | [], _, _ => .ok ()
  | rule :: rules, i, seenEvaluate => do
      let requiresPriorEvaluate ←
        cause ("validate dns rule[" ++ toString i ++ "]")
          (validateLegacyDNSModeDisabledRuleTree lookup rule)
      if requiresPriorEvaluate && !seenEvaluate then
        .error (.new ("dns rule[" ++ toString i ++
          "]: response-based matching requires a preceding evaluate action"))
      else validateFrom rules (i + 1) (seenEvaluate || rule.action.isEvaluate)

def validateLegacyDNSModeDisabledRules (rules : List DNSRule) : Except Failure Unit :=
  validateFrom lookup rules 0 false

end Validation

/-! ## Start and updates -/

def noOverrides : RuleSets := fun _ => none

/-- What the router looks up in the rule-sets as they are. -/
abbrev committedLookup (router : RuleSets) : Lookup := lookupDNSRuleSetMetadata router noOverrides

/-- The mode that `buildRules` decides on, if it accepts the rules. -/
def buildMode (rules : List DNSRule) (router : RuleSets) : Except Failure Bool := do
  let (legacyDNSMode, _) ← resolveLegacyDNSMode (committedLookup router) rules
  if !legacyDNSMode then
    validateLegacyDNSModeDisabledRules (committedLookup router) rules
    return legacyDNSMode
  else return legacyDNSMode

/-- The state of the DNS router that a validation reads. -/
structure RouterState where
  started : Bool
  legacyDNSMode : Bool
  closing : Bool := false

def ValidateRuleSetMetadataUpdate (rawRules : List DNSRule) (r : RouterState) (router : RuleSets)
    (tag : String) (metadata : RuleSetMetadata) : Except Failure Unit := do
  if rawRules.isEmpty then return
  let overrides : RuleSets := fun t => if t = tag then some metadata else none
  let lookup := lookupDNSRuleSetMetadata router overrides
  if r.closing then return
  let (candidateLegacyDNSMode, flags) ← resolveLegacyDNSMode lookup rawRules
  if !r.started then
    if !candidateLegacyDNSMode then validateLegacyDNSModeDisabledRules lookup rawRules
    else return
  else if r.legacyDNSMode then
    if !candidateLegacyDNSMode && flags.disabled then
      validateLegacyDNSModeDisabledRules lookup rawRules
      .error (.new OptionLegacyDNSAddressFilter.MessageWithLink)
    else return
  else if candidateLegacyDNSMode then .error (.new OptionLegacyDNSAddressFilter.MessageWithLink)
  else validateLegacyDNSModeDisabledRules lookup rawRules

/-! ## What does not depend on the other rule-sets -/

@[elab_as_elim]
theorem DNSRule.induction {P : DNSRule → Prop} (default : ∀ options, P (.default options))
    (logical : ∀ rules action, (∀ rule ∈ rules, P rule) → P (.logical rules action)) :
    ∀ rule, P rule
  | .default options => default options
  | .logical rules action =>
      logical rules action fun rule _ => DNSRule.induction default logical rule
termination_by rule => sizeOf rule
decreasing_by
  have smaller := sizeOf_lt_of_mem ‹rule ∈ rules›
  simp only [DNSRule.logical.sizeOf_spec]
  omega

theorem cause_eq_ok_iff {β : Type} (message : String) (result : Except Failure β) (b : β) :
    cause message result = .ok b ↔ result = .ok b := by
  cases result with
  | ok x => exact Iff.rfl
  | error err => exact ⟨nofun, nofun⟩

theorem validateRuleSets_uniform (tags : List String) :
    Uniform fun lookup => validateRuleSets lookup tags := by
  induction tags with
  | nil => exact .const _
  | cons tag tags ih =>
    let check (found : Except Failure RuleSetMetadata) : Except Failure Unit := do
      let metadata ← found
      if metadata.containsIPCIDRRule && !metadata.containsNonIPCIDRRule then
        .error (.new OptionLegacyDNSAddressFilter.MessageWithLink)
      else .ok ()
    have split : (fun lookup => validateRuleSets lookup (tag :: tags)) =
        fun lookup : Lookup => check (lookup tag) >>= fun _ => validateRuleSets lookup tags := by
      funext lookup
      rw [validateRuleSets]
      cases lookup tag with
      | error err => rfl
      | ok metadata =>
        dsimp only [check, bind, Except.bind]
        split_ifs <;> rfl
    rw [split]
    exact (Uniform.single tag check).bind fun _ => ih

theorem validateRuleTree_uniform (rule : DNSRule) :
    Uniform fun lookup => validateLegacyDNSModeDisabledRuleTree lookup rule := by
  induction rule using DNSRule.induction with
  | default options =>
    have ruleSets := (validateRuleSets_uniform options.ruleSet).bind fun _ =>
      Uniform.const (if options.ruleSetIPCIDRAcceptEmpty = true then
        .error (.new OptionRuleSetIPCIDRAcceptEmpty.MessageWithLink)
      else .ok (options.matchResponse || options.action.isRespond))
    exact .ite _ (.const _) (.ite _ (.const _) ruleSets)
  | logical rules action ih =>
    simp only [validateLegacyDNSModeDisabledRuleTree]
    generalize 0 = i
    generalize action.isRespond = requiresPriorEvaluate
    induction rules generalizing i requiresPriorEvaluate with
    | nil => exact .const _
    | cons subRule rules ihRules =>
      have sub := (ih subRule mem_cons_self).congr fun lookup b =>
        (cause_eq_ok_iff ("sub rule[" ++ toString i ++ "]") _ b).symm
      exact sub.bind fun _ => ihRules (forall_mem_cons.mp ih).2 _ _

variable (rules : List DNSRule)

theorem validate_uniform :
    Uniform fun lookup => validateLegacyDNSModeDisabledRules lookup rules := by
  simp only [validateLegacyDNSModeDisabledRules]
  generalize 0 = i
  generalize false = seenEvaluate
  induction rules generalizing i seenEvaluate with
  | nil => exact .const _
  | cons rule rules ih =>
    have now := (validateRuleTree_uniform rule).congr fun lookup b =>
      (cause_eq_ok_iff ("validate dns rule[" ++ toString i ++ "]") _ b).symm
    exact now.bind fun _ => .ite _ (.const _) (ih _ _)

/-! ## Conditions on the flags -/

/-- Nothing disables the legacy mode. -/
def Enabled (result : Except Failure DnsRuleModeFlags) : Prop :=
  ∃ flags, result = .ok flags ∧ flags.disabled = false

variable (lookup : Lookup)

theorem enabled_ruleSets (matchSource : Bool) (tags : List String) (flags : DnsRuleModeFlags) :
    Enabled (ruleSetRequirements lookup matchSource tags flags) ↔
      flags.disabled = false ∧ ∀ tag ∈ tags, ∃ metadata, lookup tag = .ok metadata ∧
        metadata.containsDNSQueryTypeRule = false := by
  induction tags generalizing flags with
  | nil => simp [Enabled, ruleSetRequirements]
  | cons tag tags ih =>
    rw [ruleSetRequirements]
    cases found : lookup tag with
    | error err => simp [Enabled, found, bind, Except.bind]
    | ok metadata => simp [ih, found, and_assoc, bind, Except.bind]

theorem enabled_cause (message : String) (result : Except Failure DnsRuleModeFlags) :
    Enabled (cause message result) ↔ Enabled result := by
  simp only [Enabled, cause_eq_ok_iff]

theorem enabled_merge {result : Except Failure DnsRuleModeFlags} {flags : DnsRuleModeFlags}
    {rest : DnsRuleModeFlags → Except Failure DnsRuleModeFlags} {p : Prop}
    (later : ∀ flags, Enabled (rest flags) ↔ flags.disabled = false ∧ p) :
    Enabled (result >>= fun itemFlags => rest (flags.merge itemFlags)) ↔
      flags.disabled = false ∧ Enabled result ∧ p := by
  cases result with
  | error err => simp [Enabled, bind, Except.bind]
  | ok itemFlags =>
    rw [show (Except.ok itemFlags >>= fun itemFlags => rest (flags.merge itemFlags)) =
      rest (flags.merge itemFlags) from rfl, later]
    simp [Enabled, DnsRuleModeFlags.merge, and_assoc]

theorem enabled_subRules (rules : List DNSRule) (i : Nat) (flags : DnsRuleModeFlags) :
    Enabled (subRuleRequirements lookup rules i flags) ↔
      flags.disabled = false ∧
        ∀ rule ∈ rules, Enabled (dnsRuleModeRequirementsInRule lookup rule) := by
  induction rules generalizing i flags with
  | nil => simp [Enabled, subRuleRequirements]
  | cons rule rules ih =>
    rw [subRuleRequirements, enabled_merge (ih (i + 1)), enabled_cause, forall_mem_cons]

theorem enabled_rules (rules : List DNSRule) (i : Nat) (flags : DnsRuleModeFlags) :
    Enabled (requirementsFrom lookup rules i flags) ↔
      flags.disabled = false ∧
        ∀ rule ∈ rules, Enabled (dnsRuleModeRequirementsInRule lookup rule) := by
  induction rules generalizing i flags with
  | nil => simp [Enabled, requirementsFrom]
  | cons rule rules ih =>
    rw [requirementsFrom, enabled_merge (ih (i + 1)), enabled_cause, forall_mem_cons]

theorem enabled_rule_separable (rule : DNSRule) :
    Separable fun lookup => Enabled (dnsRuleModeRequirementsInRule lookup rule) := by
  induction rule using DNSRule.induction with
  | default options =>
    simp only [dnsRuleModeRequirementsInRule, dnsRuleModeRequirementsInDefaultRule,
      enabled_ruleSets]
    have single (tag : String) : Separable fun lookup : Lookup =>
        ∃ metadata, lookup tag = .ok metadata ∧ metadata.containsDNSQueryTypeRule = false :=
      .single tag fun found : Except Failure RuleSetMetadata =>
        ∃ metadata, found = .ok metadata ∧ metadata.containsDNSQueryTypeRule = false
    exact (Separable.const _).and (.forall_mem fun tag _ => single tag)
  | logical rules action ih =>
    simp only [dnsRuleModeRequirementsInRule, enabled_subRules]
    exact (Separable.const _).and (.forall_mem ih)

theorem enabled_separable :
    Separable fun lookup => Enabled (dnsRuleModeRequirements lookup rules) := by
  simp only [dnsRuleModeRequirements, enabled_rules]
  exact (Separable.const _).and (.forall_mem fun rule _ => enabled_rule_separable rule)

/-! ## Runs -/

/-- An update of a rule-set passes its validation. -/
def acceptsUpdate (rules : List DNSRule) (legacyDNSMode : Bool) (router : RuleSets) (tag : String)
    (metadata : Option RuleSetMetadata) : Bool :=
  match metadata with
  | none => false
  | some metadata =>
      (router tag).isSome &&
        (ValidateRuleSetMetadataUpdate rules ⟨true, legacyDNSMode, false⟩ router tag
          metadata).isOk

/-- The rules need no legacy mode, or something disables it. -/
def NotLegacy (rules : List DNSRule) (lookup : Lookup) : Prop :=
  ∃ flags, resolveLegacyDNSMode lookup rules = .ok (false, flags)

theorem lookup_update (router : RuleSets) (tag : String) (metadata : RuleSetMetadata) :
    lookupDNSRuleSetMetadata router (fun t => if t = tag then some metadata else none) =
      committedLookup (update router tag (some metadata)) := by
  funext t
  by_cases same : t = tag <;> simp [lookupDNSRuleSetMetadata, noOverrides, same]

theorem resolve_ok {lookup : Lookup} {rules : List DNSRule} {legacy : Bool}
    {flags : DnsRuleModeFlags} (h : resolveLegacyDNSMode lookup rules = .ok (legacy, flags)) :
    dnsRuleModeRequirements lookup rules = .ok flags ∧
      legacy = (!flags.disabled && flags.needed) := by
  obtain ⟨flags', required, h⟩ := bind_eq_ok.mp h
  split_ifs at h with conflict disabled
  · cases h
    rw [disabled]
    exact ⟨required, rfl⟩
  · cases h
    rw [eq_false_of_ne_true disabled]
    exact ⟨required, rfl⟩

/-- What the router demands of the rule-sets in its mode. -/
def Fits (rules : List DNSRule) (legacyDNSMode : Bool) (lookup : Lookup) : Prop :=
  if legacyDNSMode then Enabled (dnsRuleModeRequirements lookup rules)
  else validateLegacyDNSModeDisabledRules lookup rules = .ok ()

theorem fits_separable (legacyDNSMode : Bool) : Separable (Fits rules legacyDNSMode) := by
  cases legacyDNSMode with
  | true => exact enabled_separable rules
  | false => exact (validate_uniform rules).separable ()

theorem buildMode_spec {rules : List DNSRule} {router : RuleSets} {legacyDNSMode : Bool}
    (h : buildMode rules router = .ok legacyDNSMode) :
    Fits rules legacyDNSMode (committedLookup router) ∧
      (legacyDNSMode = false → NotLegacy rules (committedLookup router)) := by
  obtain ⟨⟨candidate, flags⟩, resolved, h⟩ := bind_eq_ok.mp h
  obtain ⟨required, isCandidate⟩ := resolve_ok resolved
  cases candidate with
  | true =>
    cases h
    rw [eq_comm, Bool.and_eq_true, Bool.not_eq_true'] at isCandidate
    exact ⟨⟨flags, required, isCandidate.1⟩, nofun⟩
  | false =>
    obtain ⟨_, validated, h⟩ := bind_eq_ok.mp h
    cases h
    exact ⟨validated, fun _ => ⟨flags, resolved⟩⟩

/-- What an accepted update makes of the rule-sets. -/
theorem accepts_spec {rules : List DNSRule} {legacyDNSMode : Bool} {router : RuleSets}
    {tag : String} {metadata : Option RuleSetMetadata}
    (h : acceptsUpdate rules legacyDNSMode router tag metadata = true) :
    Fits rules legacyDNSMode (committedLookup (update router tag metadata)) ∧
      (legacyDNSMode = false →
        NotLegacy rules (committedLookup (update router tag metadata))) := by
  cases metadata with
  | none => cases h
  | some metadata =>
    simp only [acceptsUpdate, Bool.and_eq_true] at h
    have accepted := h.2
    simp only [ValidateRuleSetMetadataUpdate, lookup_update] at accepted
    generalize committedLookup (update router tag (some metadata)) = lookup at accepted ⊢
    by_cases empty : rules.isEmpty = true
    · -- without rules there is nothing to validate
      cases List.isEmpty_iff.mp empty
      cases legacyDNSMode with
      | true => exact ⟨⟨{}, rfl, rfl⟩, nofun⟩
      | false => exact ⟨rfl, fun _ => ⟨{}, rfl⟩⟩
    rw [if_neg empty] at accepted
    cases resolved : resolveLegacyDNSMode lookup rules with
    | error err =>
      rw [resolved] at accepted
      cases accepted
    | ok result =>
      obtain ⟨candidate, flags⟩ := result
      obtain ⟨required, isCandidate⟩ := resolve_ok resolved
      rw [resolved] at accepted
      simp only [bind, Except.bind] at accepted
      cases legacyDNSMode with
      | true =>
        refine ⟨⟨flags, required, ?_⟩, nofun⟩
        cases isDisabled : flags.disabled with
        | false => rfl
        | true =>
          -- an update that disables the legacy mode fails in either case
          subst isCandidate
          cases validated : validateLegacyDNSModeDisabledRules lookup rules <;>
            simp [isDisabled, validated, Except.isOk, Except.toBool] at accepted
      | false =>
        cases candidate with
        | true => cases accepted
        | false =>
          cases validated : validateLegacyDNSModeDisabledRules lookup rules with
          | error err => simp [validated, Except.isOk, Except.toBool] at accepted
          | ok _ => exact ⟨validated, fun _ => ⟨flags, resolved⟩⟩

/-- From a start on, and whatever updates of rule-sets overlap: in legacy mode nothing disables
it, and otherwise the rules are accepted without it. The rules do not need it then, if each
update is committed before another rule-set changes. -/
theorem mode_consistent (rules : List DNSRule) (router : RuleSets) (legacyDNSMode : Bool)
    (started : buildMode rules router = .ok legacyDNSMode)
    (labels : List (Label String (Option RuleSetMetadata)))
    (s : State String (Option RuleSetMetadata))
    (run : steps (step (acceptsUpdate rules legacyDNSMode)) (.start router) labels = some s) :
    (legacyDNSMode = true → ∃ flags,
      dnsRuleModeRequirements (committedLookup s.committed) rules = .ok flags ∧
        flags.disabled = false) ∧
    (legacyDNSMode = false →
      validateLegacyDNSModeDisabledRules (committedLookup s.committed) rules = .ok () ∧
      (Through (step (acceptsUpdate rules legacyDNSMode)) Undisturbed (.start router) labels →
        ∃ flags,
          resolveLegacyDNSMode (committedLookup s.committed) rules = .ok (false, flags))) := by
  obtain ⟨fits, notLegacy⟩ := buildMode_spec started
  have separable : Separable fun router => Fits rules legacyDNSMode (committedLookup router) :=
    (fits_separable rules legacyDNSMode).comp fun tag found =>
      committedLookup (fun _ => found) tag
  have fitsAfter := separable_invariant separable (fun _ _ _ accepted => (accepts_spec accepted).1)
    fits run
  constructor
  · rintro rfl
    exact fitsAfter
  · rintro rfl
    refine ⟨fitsAfter, fun undisturbed => ?_⟩
    exact undisturbed_invariant (P := fun router => NotLegacy rules (committedLookup router))
      (fun _ _ _ accepted => (accepts_spec accepted).2 rfl) (notLegacy rfl) undisturbed run

/-- A rule for what is in one of two rule-sets. -/
def twoRuleSets : List DNSRule := [.default { ruleSet := ["first", "second"] }]

/-- The first rule-set has query types, and so the legacy mode is disabled. -/
def domainsAndTypes : RuleSets := fun tag =>
  if tag = "first" then
    some { containsDNSQueryTypeRule := true, containsNonIPCIDRRule := true }
  else if tag = "second" then some { containsNonIPCIDRRule := true }
  else none

/-- The query types are removed from the first rule-set. -/
def removeTypes (id : Nat) : Label String (Option RuleSetMetadata) :=
  .validate id "first" (some { containsNonIPCIDRRule := true })

/-- Addresses are added to the second. -/
def addAddresses (id : Nat) : Label String (Option RuleSetMetadata) :=
  .validate id "second" (some { containsNonIPCIDRRule := true, containsIPCIDRRule := true })

/-- One after the other: the addresses are rejected once there are no query types. -/
theorem mode_consistent_serial :
    ∃ s : State String (Option RuleSetMetadata),
      buildMode twoRuleSets domainsAndTypes = .ok false ∧
      steps (step (acceptsUpdate twoRuleSets false)) (.start domainsAndTypes)
        [removeTypes 0, .commit 0, addAddresses 1] = some s ∧
      s.committed "first" = some { containsNonIPCIDRRule := true } ∧
      s.committed "second" = some { containsNonIPCIDRRule := true } ∧
      ∃ flags, resolveLegacyDNSMode (committedLookup s.committed) twoRuleSets =
        .ok (false, flags) := by
  refine ⟨_, rfl, rfl, rfl, rfl, ?_⟩
  refine ((mode_consistent twoRuleSets domainsAndTypes false rfl
    [removeTypes 0, .commit 0, addAddresses 1] _ rfl).2 rfl).2 ?_
  refine through_cons trivial rfl (through_cons ?_ rfl (through_cons trivial rfl trivial))
  rintro update ⟨⟩ cell _
  rfl

/-- Both updates are validated before either is committed. -/
theorem mode_inconsistent :
    ∃ s flags, buildMode twoRuleSets domainsAndTypes = .ok false ∧
      steps (step (acceptsUpdate twoRuleSets false)) (.start domainsAndTypes)
        [removeTypes 0, addAddresses 1, .commit 0, .commit 1] = some s ∧
      resolveLegacyDNSMode (committedLookup s.committed) twoRuleSets = .ok (true, flags) := by
  exact ⟨_, ⟨false, true, false⟩, rfl, rfl, rfl⟩

end SingBox.Dns.Mode
