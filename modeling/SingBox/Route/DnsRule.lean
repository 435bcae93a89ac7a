import SingBox.Route.Rule

/-!
# DNS rules

`route/rule/rule_dns.go`. A DNS rule is matched in three ways. `Match` is for the rules of the
new mode. In legacy mode a rule is matched before its server is asked, with its destination
addresses ignored (`LegacyPreMatch`), and again with the addresses of the response
(`MatchAddressLimit`).

* `DefaultDNSRule` — the items of one rule; those that look at a response are in rules with
  `match_response` only;
* `DNSRuleTree` — default rules under logical ones, and the three ways of matching.
-/

namespace SingBox.Route

open RuleMatchStateSet

/-- The item looks at the request only. -/
def RuleItem.IgnoresResponse (item : RuleItem) : Prop :=
  ∀ metadata response fromResponse ignore,
    item.Match { metadata with
      dnsResponse := response
      destinationAddressMatchFromResponse := fromResponse
      ignoreDestinationIPCIDRMatch := ignore } = item.Match metadata

/-! ## Items -/

inductive RuleTree.Each {δ : Type} (P : δ → Prop) : RuleTree δ → Prop
  | default (rule : δ) (h : P rule) : RuleTree.Each P (.default rule)
  | logical (rules : List (RuleTree δ)) (mode : LogicalMode) (invert : Bool)
      (h : ∀ rule ∈ rules, RuleTree.Each P rule) : RuleTree.Each P (.logical rules mode invert)

/-- The items of a rule, but for those of destination addresses and rule-sets. -/
def AbstractDefaultRule.requestItems {σ : Type} (r : AbstractDefaultRule σ) : List RuleItem :=
  r.items ++ r.sourceAddressItems ++ r.sourcePortItems ++ r.destinationAddressItems ++
    r.destinationPortItems

/-- No item of the rule looks at a response, but for those of destination addresses. -/
def AbstractDefaultRule.RequestOnly {σ : Type} (r : AbstractDefaultRule σ) : Prop :=
  ∀ item ∈ r.requestItems, item.IgnoresResponse

/-- The same for the rules of the rule-sets. -/
def RuleSetItem.RequestOnly (item : RuleSetItem) : Prop :=
  ∀ ruleSet ∈ item.setList, ∀ rule ∈ ruleSet.rules,
    rule.Each AbstractDefaultRule.RequestOnly

/-- `DefaultDNSRule`. The items for the code and the records of a response are for rules with
`match_response`, and are in no rule-set. -/
structure DefaultDNSRule extends AbstractDefaultRule RuleSetItem where
  matchResponse : Bool := false
  requestOnly : matchResponse = false → toAbstractDefaultRule.RequestOnly
  ruleSetRequestOnly : ∀ item, ruleSetItem = some item → item.RequestOnly

/-- The methods of `abstractDefaultRule`: they do not look at `matchResponse`. -/
instance : RuleStateMatcherWithBase DefaultDNSRule :=
  ⟨fun r => r.toAbstractDefaultRule.matchStatesWithBase⟩

/-- `DefaultDNSRule` and `LogicalDNSRule`. -/
abbrev DNSRuleTree := RuleTree DefaultDNSRule

def DefaultDNSRule.matchStatesForMatch (r : DefaultDNSRule) (metadata : InboundContext) :
    RuleMatchStateSet :=
  if r.matchResponse then
    match metadata.dnsResponse with
    | none => r.invertedFailure 0
    | some _ =>
        r.toAbstractDefaultRule.matchStatesWithBase
          { metadata with destinationAddressMatchFromResponse := true } 0
  else r.toAbstractDefaultRule.matchStatesWithBase metadata 0

namespace DNSRuleTree

mutual

/-- `matchDNSHeadlessRuleStatesForMatch`, with `LogicalDNSRule.matchStatesForMatch` for the
logical nodes. -/
def matchStatesForMatch : DNSRuleTree → InboundContext → RuleMatchStateSet
  | .default r, metadata => r.matchStatesForMatch metadata
  | .logical rules mode invert, metadata =>
      match mode with
      | .and =>
          match andStatesForMatch rules metadata emptyRuleMatchState with
          | none => if invert then emptyRuleMatchState else 0#16
          | some stateSet => if invert then 0#16 else stateSet
      | .or =>
          let stateSet := orStatesForMatch rules metadata 0#16
          if isEmpty stateSet then if invert then emptyRuleMatchState else 0#16
          else if invert then 0#16 else stateSet

def andStatesForMatch : List DNSRuleTree → InboundContext → RuleMatchStateSet →
    Option RuleMatchStateSet
  | [], _, stateSet => some stateSet
  | rule :: rules, metadata, stateSet =>
      let nestedStateSet := matchStatesForMatch rule metadata.resetRuleCache
      if isEmpty nestedStateSet then none
      else andStatesForMatch rules metadata (combine stateSet nestedStateSet)

def orStatesForMatch : List DNSRuleTree → InboundContext → RuleMatchStateSet → RuleMatchStateSet
  | [], _, stateSet => stateSet
  | rule :: rules, metadata, stateSet =>
      orStatesForMatch rules metadata
        (merge stateSet (matchStatesForMatch rule metadata.resetRuleCache))

end

variable (rule : DNSRuleTree) (metadata : InboundContext)

def Match : Bool :=
  !isEmpty (matchStatesForMatch rule metadata)

def LegacyPreMatch : Bool :=
  match rule with
  | .default r =>
      if r.matchResponse then false
      else !isEmpty (RuleTree.matchStatesWithBase rule
        { metadata with ignoreDestinationIPCIDRMatch := true } 0)
  | .logical .. =>
      !isEmpty (RuleTree.matchStatesWithBase rule
        { metadata with ignoreDestinationIPCIDRMatch := true } 0)

end DNSRuleTree

/-! ## Address limits -/

section Has

variable {δ : Type} (cond : δ → Bool)

mutual

/-- A default rule of the tree meets the condition. -/
def RuleTree.has : RuleTree δ → Bool
  | .default rule => cond rule
  | .logical rules _ _ => RuleTree.hasRule rules

def RuleTree.hasRule : List (RuleTree δ) → Bool
  | [] => false
  | rule :: rules => rule.has || RuleTree.hasRule rules

end

end Has

end SingBox.Route
