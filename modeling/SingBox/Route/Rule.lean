import SingBox.Adapter.InboundContext
import SingBox.Route.MatchState

/-!
# Rules, rule-sets and matching

`route/rule/rule_abstract.go`, `rule_item_*.go`, `rule_item_rule_set.go` and
`rule_set_local.go`. Matching never answers yes or no directly: each rule is
given the groups its surroundings have already matched (the *inherited base*)
and returns the set of states it can leave the evaluation in.

* `AbstractDefaultRule` — the items of one rule, by group, with an optional
  rule-set item of type `σ`;
* `RuleTree` — default rules under logical and/or nodes;
* `HeadlessRule`, `RuleSet`, `RuleSetItem`, `RouteRule` — the layers of the
  source, from the rules inside a rule-set to the rules of the router.

The Go interface `ruleStateMatcherWithBase` is the class of the same name.
-/

namespace SingBox.Route

open RuleMatchStateSet

/-- `RuleItem`. `DidMatch` is scratch space of the rule that evaluates the item:
it is written while its items are evaluated, and no item reads it. -/
structure RuleItem where
  Match : InboundContext → Bool
  ignoresDidMatch : ∀ metadata b, Match { metadata with didMatch := b } = Match metadata

def matchAnyItem (items : List RuleItem) (metadata : InboundContext) : Bool :=
  items.any fun it => it.Match metadata

/-! ## Items -/

/-- `netipx.IPSet`, as the prefixes it was built from. -/
structure IPSet where
  prefixes : List Prefix

def IPSet.contains (s : IPSet) (addr : Addr) : Bool := s.prefixes.any (·.contains addr)

def portItem (isSource : Bool) (ports : List UInt16) : RuleItem where
  Match metadata :=
    ports.contains (if isSource then metadata.source.port else metadata.destination.port)
  ignoresDidMatch _ _ := rfl

def networkItem (networks : List String) : RuleItem where
  Match metadata := networks.contains metadata.network
  ignoresDidMatch _ _ := rfl

/-! ## Default rules -/

class RuleStateMatcherWithBase (ρ : Type) where
  matchStatesWithBase : ρ → InboundContext → RuleMatchState → RuleMatchStateSet

/-- `matchRuleItemStatesWithBase`: the only item matched this way is the rule-set
item, which is a state matcher. -/
def matchRuleItemStatesWithBase {σ : Type} [RuleStateMatcherWithBase σ] (item : σ)
    (metadata : InboundContext) (base : RuleMatchState) : RuleMatchStateSet :=
  RuleStateMatcherWithBase.matchStatesWithBase item metadata base

/-- The rules of a rule-set refer to no rule-set. -/
instance : RuleStateMatcherWithBase Empty := ⟨fun r => r.elim⟩

structure AbstractDefaultRule (σ : Type) where
  items : List RuleItem := []
  sourceAddressItems : List RuleItem := []
  sourcePortItems : List RuleItem := []
  destinationAddressItems : List RuleItem := []
  destinationIPCIDRItems : List RuleItem := []
  destinationPortItems : List RuleItem := []
  ruleSetItem : Option σ := none
  invert : Bool := false

namespace AbstractDefaultRule

variable {σ : Type} (r : AbstractDefaultRule σ)

/-- `len(allItems)`: every constructor of the source appends an item to `allItems`
when it appends it to its group. -/
def allItemsLength : Nat :=
  r.items.length + r.sourceAddressItems.length + r.sourcePortItems.length +
    r.destinationAddressItems.length + r.destinationIPCIDRItems.length +
    r.destinationPortItems.length + r.ruleSetItem.toList.length

def destinationIPCIDRMatchesSource (metadata : InboundContext) : Bool :=
  !metadata.ignoreDestinationIPCIDRMatch && metadata.ipcidrMatchSource &&
    decide (r.destinationIPCIDRItems.length > 0)

def destinationIPCIDRMatchesDestination (metadata : InboundContext) : Bool :=
  !metadata.ignoreDestinationIPCIDRMatch && !metadata.ipcidrMatchSource &&
    decide (r.destinationIPCIDRItems.length > 0)

def requiresSourceAddressMatch (metadata : InboundContext) : Bool :=
  decide (r.sourceAddressItems.length > 0) || r.destinationIPCIDRMatchesSource metadata

def requiresDestinationAddressMatch (metadata : InboundContext) : Bool :=
  decide (r.destinationAddressItems.length > 0) || r.destinationIPCIDRMatchesDestination metadata

/-- `baseState`: the inherited groups and those the rule's own items match. -/
def baseState (metadata : InboundContext) (evaluationBase : RuleMatchState) : RuleMatchState :=
  let baseState := evaluationBase
  let baseState :=
    if r.sourceAddressItems.length > 0 ∧ matchAnyItem r.sourceAddressItems metadata then
      baseState ||| ruleMatchSourceAddress
    else baseState
  -- an address group that already matched is not looked at again
  let baseState :=
    if r.destinationIPCIDRMatchesSource metadata ∧ !baseState.has ruleMatchSourceAddress ∧
        matchAnyItem r.destinationIPCIDRItems metadata then
      baseState ||| ruleMatchSourceAddress
    else baseState
  let baseState :=
    if r.sourcePortItems.length > 0 ∧ matchAnyItem r.sourcePortItems metadata then
      baseState ||| ruleMatchSourcePort
    else baseState
  let baseState :=
    if r.destinationAddressItems.length > 0 ∧ matchAnyItem r.destinationAddressItems metadata then
      baseState ||| ruleMatchDestinationAddress
    else baseState
  let baseState :=
    if r.destinationIPCIDRMatchesDestination metadata ∧
        !baseState.has ruleMatchDestinationAddress ∧
        matchAnyItem r.destinationIPCIDRItems metadata then
      baseState ||| ruleMatchDestinationAddress
    else baseState
  if r.destinationPortItems.length > 0 ∧ matchAnyItem r.destinationPortItems metadata then
    baseState ||| ruleMatchDestinationPort
  else baseState

/-- `metadata.DidMatch` once every group has been looked at. -/
def didMatch (metadata : InboundContext) : Bool :=
  metadata.didMatch || decide (r.sourceAddressItems.length > 0) ||
    r.destinationIPCIDRMatchesSource metadata || decide (r.sourcePortItems.length > 0) ||
    decide (r.destinationAddressItems.length > 0) ||
    r.destinationIPCIDRMatchesDestination metadata ||
    decide (r.destinationPortItems.length > 0) || decide (r.items.length > 0) ||
    r.ruleSetItem.isSome

/-- The filter every state has to pass: a group the rule has items for is matched. -/
def allowed (metadata : InboundContext) (state : RuleMatchState) : Bool :=
  if r.requiresSourceAddressMatch metadata && !state.has ruleMatchSourceAddress then false
  else if decide (r.sourcePortItems.length > 0) && !state.has ruleMatchSourcePort then false
  else if r.requiresDestinationAddressMatch metadata &&
      !state.has ruleMatchDestinationAddress then false
  else if decide (r.destinationPortItems.length > 0) && !state.has ruleMatchDestinationPort then
    false
  else true

def invertedFailure (base : RuleMatchState) : RuleMatchStateSet :=
  if r.invert then withBase emptyRuleMatchState base else 0#16

variable [RuleStateMatcherWithBase σ]

/-- The states before the filter: those of the rule-set item, else `baseState`. -/
def unfilteredStates (metadata : InboundContext) (baseState : RuleMatchState) :
    RuleMatchStateSet :=
  match r.ruleSetItem with
  | some item => matchRuleItemStatesWithBase item metadata baseState
  | none => singleRuleMatchState baseState

def matchStatesWithBase (metadata : InboundContext) (inheritedBase : RuleMatchState) :
    RuleMatchStateSet :=
  if r.allItemsLength = 0 then withBase emptyRuleMatchState inheritedBase
  else
    let evaluationBase := if r.invert then 0 else inheritedBase
    let baseState := r.baseState metadata evaluationBase
    if !r.items.all (fun item => item.Match metadata) then r.invertedFailure inheritedBase
    else
      let stateSet := filter (r.unfilteredStates metadata baseState) (r.allowed metadata)
      if isEmpty stateSet then r.invertedFailure inheritedBase
      else if r.invert then
        if metadata.ignoreDestinationIPCIDRMatch && stateSet == emptyRuleMatchState &&
            !r.didMatch metadata && decide (r.destinationIPCIDRItems.length > 0) then
          withBase emptyRuleMatchState inheritedBase
        else 0#16
      else stateSet

def Match (metadata : InboundContext) : Bool := !isEmpty (r.matchStatesWithBase metadata 0)

instance : RuleStateMatcherWithBase (AbstractDefaultRule σ) := ⟨fun r => r.matchStatesWithBase⟩

end AbstractDefaultRule

/-! ## Logical rules -/

/-- `C.LogicalTypeAnd` and `C.LogicalTypeOr`. -/
inductive LogicalMode where
  | and
  | or
  deriving DecidableEq, Repr

/-- Default rules of type `δ` under the nodes of `abstractLogicalRule`. -/
inductive RuleTree (δ : Type) where
  | default (rule : δ)
  | logical (rules : List (RuleTree δ)) (mode : LogicalMode) (invert : Bool)

namespace RuleTree

variable {δ : Type} [RuleStateMatcherWithBase δ]

mutual

/-- `matchHeadlessRuleStatesWithBase`, with `abstractLogicalRule.matchStatesWithBase`
for the logical nodes. -/
def matchStatesWithBase : RuleTree δ → InboundContext → RuleMatchState → RuleMatchStateSet
  | .default rule, metadata, base =>
      RuleStateMatcherWithBase.matchStatesWithBase rule metadata base
  | .logical rules mode invert, metadata, base =>
      let evaluationBase := if invert then 0 else base
      match mode with
      | .and =>
          match andStates rules metadata evaluationBase
              (withBase emptyRuleMatchState evaluationBase) with
          | none => if invert then withBase emptyRuleMatchState base else 0#16
          | some stateSet => if invert then 0#16 else stateSet
      | .or =>
          let stateSet := orStates rules metadata evaluationBase 0#16
          if isEmpty stateSet then
            if invert then withBase emptyRuleMatchState base else 0#16
          else if invert then 0#16 else stateSet

/-- The loop of the and node; `none` when a rule has no state left. -/
def andStates : List (RuleTree δ) → InboundContext → RuleMatchState → RuleMatchStateSet →
    Option RuleMatchStateSet
  | [], _, _, stateSet => some stateSet
  | rule :: rules, metadata, base, stateSet =>
      let nestedStateSet := rule.matchStatesWithBase metadata.resetRuleCache base
      if isEmpty nestedStateSet then none
      else andStates rules metadata base (combine stateSet nestedStateSet)

/-- The loop of the or node. -/
def orStates : List (RuleTree δ) → InboundContext → RuleMatchState → RuleMatchStateSet →
    RuleMatchStateSet
  | [], _, _, stateSet => stateSet
  | rule :: rules, metadata, base, stateSet =>
      orStates rules metadata base
        (merge stateSet (rule.matchStatesWithBase metadata.resetRuleCache base))

end

instance : RuleStateMatcherWithBase (RuleTree δ) := ⟨matchStatesWithBase⟩

def Match (rule : RuleTree δ) (metadata : InboundContext) : Bool :=
  !isEmpty (rule.matchStatesWithBase metadata 0)

omit [RuleStateMatcherWithBase δ] in
@[elab_as_elim]
theorem induction {P : RuleTree δ → Prop} (default : ∀ rule, P (.default rule))
    (logical : ∀ rules mode invert, (∀ rule ∈ rules, P rule) → P (.logical rules mode invert)) :
    ∀ tree, P tree
  | .default rule => default rule
  | .logical rules mode invert =>
      logical rules mode invert fun rule _ => induction default logical rule
termination_by tree => sizeOf tree
decreasing_by
  have smaller := List.sizeOf_lt_of_mem ‹rule ∈ rules›
  simp only [RuleTree.logical.sizeOf_spec]
  omega

end RuleTree

/-! ## Rule-sets -/

abbrev DefaultHeadlessRule := AbstractDefaultRule Empty

/-- The rules a rule-set holds. -/
abbrev HeadlessRule := RuleTree DefaultHeadlessRule

/-- `LocalRuleSet` and `RemoteRuleSet`, whose matching is the same. -/
structure RuleSet where
  rules : List HeadlessRule

def RuleSet.matchStatesWithBase (s : RuleSet) (metadata : InboundContext)
    (base : RuleMatchState) : RuleMatchStateSet :=
  s.rules.foldl (fun stateSet rule =>
    merge stateSet (rule.matchStatesWithBase metadata.resetRuleMatchCache base)) 0#16

instance : RuleStateMatcherWithBase RuleSet := ⟨RuleSet.matchStatesWithBase⟩

/-- `RuleSetItem`, started: its tags have been resolved to rule-sets. -/
structure RuleSetItem where
  setList : List RuleSet
  ipCidrMatchSource : Bool := false
  ipCidrAcceptEmpty : Bool := false

/-- The metadata a rule-set is matched against. -/
def RuleSetItem.nestedMetadata (item : RuleSetItem) (metadata : InboundContext) :
    InboundContext :=
  { metadata.resetRuleMatchCache with
    ipcidrMatchSource := item.ipCidrMatchSource
    ipcidrAcceptEmpty := item.ipCidrAcceptEmpty }

def RuleSetItem.matchStatesWithBase (item : RuleSetItem) (metadata : InboundContext)
    (base : RuleMatchState) : RuleMatchStateSet :=
  item.setList.foldl (fun stateSet ruleSet =>
    merge stateSet (ruleSet.matchStatesWithBase (item.nestedMetadata metadata) base)) 0#16

instance : RuleStateMatcherWithBase RuleSetItem := ⟨RuleSetItem.matchStatesWithBase⟩

abbrev DefaultRule := AbstractDefaultRule RuleSetItem

/-- A rule of the router: `DefaultRule` or `LogicalRule`. -/
abbrev RouteRule := RuleTree DefaultRule

end SingBox.Route
