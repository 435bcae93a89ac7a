import SingBox.Route.Rule

/-!
# Rule-set branches are merged into the outer rule

`docs/configuration/route/rule.md`: "each branch inside an included rule-set can
be considered merged into the outer rule, while different branches keep OR
semantics". The code builds no merged rule; this file proves that it answers as
if it did.

* `groupItems` is the abstract view of a rule: one list of items per group,
  with the destination CIDR items in the group they are matched in;
* `contains_matchStatesWithBase` is the one fact about the evaluation of a
  default rule, in terms of groups;
* `match_iff_exists_merged_branch` is the law.
-/

namespace SingBox.Route

open RuleMatchStateSet

/-- The address/port groups a state has a bit for. -/
inductive Group where
  | sourceAddress
  | sourcePort
  | destinationAddress
  | destinationPort
  deriving DecidableEq, Repr

def Group.state : Group → RuleMatchState
  | .sourceAddress => ruleMatchSourceAddress
  | .sourcePort => ruleMatchSourcePort
  | .destinationAddress => ruleMatchDestinationAddress
  | .destinationPort => ruleMatchDestinationPort

theorem Group.state_has (g g' : Group) :
    RuleMatchState.has g.state g'.state = decide (g = g') := by
  cases g <;> cases g' <;> rfl

theorem zero_has (u : RuleMatchState) : RuleMatchState.has 0 u = false := by
  simp [RuleMatchState.has]

/-- Marking one group leaves the other groups alone. -/
theorem has_ite_or (c : Prop) [Decidable c] (s : RuleMatchState) (g g' : Group) :
    RuleMatchState.has (if c then s ||| g.state else s) g'.state =
      (RuleMatchState.has s g'.state || (decide c && decide (g = g'))) := by
  by_cases hc : c
  · simp only [hc, if_true, RuleMatchState.has_or, Group.state_has, decide_true, Bool.true_and]
  · simp only [hc, if_false, decide_false, Bool.false_and, Bool.or_false]

theorem matchAnyItem_append (l₁ l₂ : List RuleItem) (metadata : InboundContext) :
    matchAnyItem (l₁ ++ l₂) metadata =
      (matchAnyItem l₁ metadata || matchAnyItem l₂ metadata) :=
  List.any_append

/-- Evaluating a rule writes `DidMatch`, which no item sees. -/
theorem RuleItem.match_resetRuleMatchCache (it : RuleItem) (metadata : InboundContext) :
    it.Match metadata.resetRuleMatchCache = it.Match metadata :=
  it.ignoresDidMatch metadata false

theorem matchAnyItem_iff {items : List RuleItem} {metadata : InboundContext} :
    matchAnyItem items metadata = true ↔ ∃ it ∈ items, it.Match metadata = true :=
  List.any_eq_true

theorem length_pos_and_matchAnyItem (items : List RuleItem) (metadata : InboundContext) :
    decide (items.length > 0 ∧ matchAnyItem items metadata = true) =
      matchAnyItem items metadata := by
  cases items with
  | nil => rfl
  | cons it rest => simp

/-- CIDR items count for an address group only under the flags `c` stands for. -/
theorem guarded_matchAnyItem (c : Bool) (items : List RuleItem) (metadata : InboundContext) :
    (c && decide (items.length > 0) && matchAnyItem items metadata) =
      matchAnyItem (if c then items else []) metadata := by
  cases items with
  | nil => simp [matchAnyItem]
  | cons it rest => cases c <;> simp [matchAnyItem]

/-- The same items are the ones that make the rule require the group. -/
theorem requires_iff_append_ne_nil (c : Bool) (own items : List RuleItem) :
    (decide (own.length > 0) || (c && decide (items.length > 0))) = true ↔
      own ++ (if c then items else []) ≠ [] := by
  cases own <;> cases items <;> cases c <;> simp

/-- One clause of the filter: a required group has to be in the state. -/
theorem requirement_iff (required marked rest : Bool) :
    (if required && !marked then false else rest) = true ↔
      (required = true → marked = true) ∧ rest = true := by
  cases required <;> cases marked <;> simp

/-- Skipping a group that is already marked does not change the mark. -/
theorem or_decide_unmarked (marked c any : Bool) :
    (marked || decide (c = true ∧ (!marked) = true ∧ any = true)) = (marked || (c && any)) := by
  cases marked <;> cases c <;> cases any <;> rfl

namespace AbstractDefaultRule

variable {σ : Type} (r : AbstractDefaultRule σ)

/-- The items that can match a group, and that make the rule require it. -/
def groupItems (metadata : InboundContext) : Group → List RuleItem
  | .sourceAddress => r.sourceAddressItems ++
      if !metadata.ignoreDestinationIPCIDRMatch && metadata.ipcidrMatchSource then
        r.destinationIPCIDRItems
      else []
  | .sourcePort => r.sourcePortItems
  | .destinationAddress => r.destinationAddressItems ++
      if !metadata.ignoreDestinationIPCIDRMatch && !metadata.ipcidrMatchSource then
        r.destinationIPCIDRItems
      else []
  | .destinationPort => r.destinationPortItems

variable (metadata : InboundContext)

/-- A group of `baseState` is set if it was inherited or one of the rule's items
for it matches. -/
theorem baseState_has (base : RuleMatchState) (g : Group) :
    RuleMatchState.has (r.baseState metadata base) g.state =
      (RuleMatchState.has base g.state || matchAnyItem (r.groupItems metadata g) metadata) := by
  have hsa : ruleMatchSourceAddress = Group.sourceAddress.state := rfl
  have hsp : ruleMatchSourcePort = Group.sourcePort.state := rfl
  have hda : ruleMatchDestinationAddress = Group.destinationAddress.state := rfl
  have hdp : ruleMatchDestinationPort = Group.destinationPort.state := rfl
  simp only [baseState, hsa, hsp, hda, hdp, has_ite_or, length_pos_and_matchAnyItem]
  -- the CIDR items are in one of the address groups; that it may be marked already is no matter
  cases g with
  | sourcePort | destinationPort => simp [groupItems]
  | sourceAddress | destinationAddress =>
    simp only [groupItems, matchAnyItem_append, ← guarded_matchAnyItem, reduceCtorEq, decide_true,
      decide_false, Bool.and_true, Bool.and_false, Bool.or_false, or_decide_unmarked,
      destinationIPCIDRMatchesSource, destinationIPCIDRMatchesDestination, Bool.or_assoc]

/-- The filter asks for every group the rule has items for. -/
theorem allowed_iff (st : RuleMatchState) :
    r.allowed metadata st = true ↔
      ∀ g : Group, r.groupItems metadata g ≠ [] → RuleMatchState.has st g.state = true := by
  have hsa : r.requiresSourceAddressMatch metadata = true ↔
      r.groupItems metadata .sourceAddress ≠ [] := requires_iff_append_ne_nil _ _ _
  have hda : r.requiresDestinationAddressMatch metadata = true ↔
      r.groupItems metadata .destinationAddress ≠ [] := requires_iff_append_ne_nil _ _ _
  have hsp : decide (r.sourcePortItems.length > 0) = true ↔
      r.groupItems metadata .sourcePort ≠ [] := by
    rw [decide_eq_true_iff]
    exact List.length_pos_iff
  have hdp : decide (r.destinationPortItems.length > 0) = true ↔
      r.groupItems metadata .destinationPort ≠ [] := by
    rw [decide_eq_true_iff]
    exact List.length_pos_iff
  rw [allowed, requirement_iff, requirement_iff, requirement_iff, requirement_iff, hsa, hsp, hda,
    hdp]
  constructor
  · rintro ⟨h1, h2, h3, h4, -⟩ g
    cases g with
    | sourceAddress => exact h1
    | sourcePort => exact h2
    | destinationAddress => exact h3
    | destinationPort => exact h4
  · intro h
    exact ⟨h .sourceAddress, h .sourcePort, h .destinationAddress, h .destinationPort, rfl⟩

theorem groupItems_resetRuleMatchCache (g : Group) :
    r.groupItems metadata.resetRuleMatchCache g = r.groupItems metadata g := by
  cases g <;> rfl

section

variable (h : r.allItemsLength = 0)
include h

/-- A rule for which `len(allItems)` is 0 has nothing in any of its fields. -/
theorem nil_of_allItemsLength :
    r.items = [] ∧ r.sourceAddressItems = [] ∧ r.sourcePortItems = [] ∧
      r.destinationAddressItems = [] ∧ r.destinationIPCIDRItems = [] ∧
      r.destinationPortItems = [] ∧ r.ruleSetItem = none := by
  simp only [allItemsLength, Nat.add_eq_zero_iff, List.length_eq_zero_iff] at h
  obtain ⟨⟨⟨⟨⟨⟨hitems, hsa⟩, hsp⟩, hda⟩, hcidr⟩, hdp⟩, hset⟩ := h
  exact ⟨hitems, hsa, hsp, hda, hcidr, hdp, by simpa using hset⟩

theorem groupItems_eq_nil_of_allItemsLength (metadata : InboundContext) (g : Group) :
    r.groupItems metadata g = [] := by
  obtain ⟨-, hsa, hsp, hda, hcidr, hdp, -⟩ := r.nil_of_allItemsLength h
  cases g <;> simp [groupItems, hsa, hsp, hda, hcidr, hdp]

/-- With nothing of its own a rule adds nothing to the inherited groups. -/
theorem baseState_of_allItemsLength (metadata : InboundContext) (base : RuleMatchState) :
    r.baseState metadata base = base := by
  obtain ⟨-, hsa, hsp, hda, hcidr, hdp, -⟩ := r.nil_of_allItemsLength h
  simp [baseState, destinationIPCIDRMatchesSource, destinationIPCIDRMatchesDestination, hsa, hsp,
    hda, hcidr, hdp]

end

variable [RuleStateMatcherWithBase σ] (hinv : r.invert = false)
include hinv

/-- What a default rule that is not inverted computes: its other items match, the
state comes from the rule-set item (or is `baseState`), and every group the rule
has items for is in it. A rule without any item is no exception. -/
theorem contains_matchStatesWithBase (metadata : InboundContext) (base st : RuleMatchState) :
    contains (r.matchStatesWithBase metadata base) st = true ↔
      (∀ it ∈ r.items, it.Match metadata = true) ∧
      contains (r.unfilteredStates metadata (r.baseState metadata base)) st = true ∧
      ∀ g : Group, r.groupItems metadata g ≠ [] → RuleMatchState.has st g.state = true := by
  unfold matchStatesWithBase
  by_cases hlen : r.allItemsLength = 0
  · -- the early return: no item, no group, no rule-set
    obtain ⟨hitems, -, -, -, -, -, hset⟩ := r.nil_of_allItemsLength hlen
    rw [if_pos hlen, contains_emptyRuleMatchState_withBase, hitems,
      r.baseState_of_allItemsLength hlen, unfilteredStates, hset]
    have hnil := r.groupItems_eq_nil_of_allItemsLength hlen metadata
    simp only [contains_single, beq_iff_eq, List.not_mem_nil, false_implies, implies_true, hnil,
      ne_eq, not_true, and_true, true_and]
    exact eq_comm
  · rw [if_neg hlen]
    simp only [hinv, Bool.false_eq_true, if_false, invertedFailure]
    by_cases hall : ∀ it ∈ r.items, it.Match metadata = true
    · have hall' : r.items.all (fun it => it.Match metadata) = true := List.all_eq_true.mpr hall
      rw [hall', Bool.not_true, if_neg Bool.false_ne_true, ← r.allowed_iff, ← contains_filter]
      -- nothing left after the filter is a failure, which a plain rule answers with the empty set
      split
      · rename_i hempty
        simp [isEmpty_iff.mp hempty]
      · exact ⟨fun h => ⟨hall, h⟩, fun h => h.2⟩
    · have hall' : r.items.all (fun it => it.Match metadata) = false := by
        rw [← Bool.not_eq_true, List.all_eq_true]
        exact hall
      simp [hall', hall]

/-- A rule without rule-sets is plain boolean logic: every group with items has a
matching item, and every other item matches. -/
theorem match_plain_iff (hset : r.ruleSetItem = none) (metadata : InboundContext) :
    r.Match metadata = true ↔
      (∀ it ∈ r.items, it.Match metadata = true) ∧
      ∀ g : Group, r.groupItems metadata g ≠ [] →
        ∃ it ∈ r.groupItems metadata g, it.Match metadata = true := by
  rw [Match, Bool.not_eq_true', isEmpty_eq_false_iff]
  simp only [r.contains_matchStatesWithBase hinv, unfilteredStates, hset, contains_single,
    beq_iff_eq]
  have hhas : ∀ g : Group, RuleMatchState.has (r.baseState metadata 0) g.state = true ↔
      ∃ it ∈ r.groupItems metadata g, it.Match metadata = true := by
    intro g
    rw [r.baseState_has, zero_has, Bool.false_or, matchAnyItem_iff]
  constructor
  · rintro ⟨st, hitems, rfl, hgroups⟩
    exact ⟨hitems, fun g hg => (hhas g).mp (hgroups g hg)⟩
  · rintro ⟨hitems, hgroups⟩
    exact ⟨_, hitems, rfl, fun g hg => (hhas g).mpr (hgroups g hg)⟩

end AbstractDefaultRule

/-! ## The law -/

/-- The plain rule that has the items of `R` and of the branch `b`, group by group. -/
def mergeBranch (R : DefaultRule) (b : DefaultHeadlessRule) : DefaultHeadlessRule where
  items := R.items ++ b.items
  sourceAddressItems := R.sourceAddressItems ++ b.sourceAddressItems
  sourcePortItems := R.sourcePortItems ++ b.sourcePortItems
  destinationAddressItems := R.destinationAddressItems ++ b.destinationAddressItems
  destinationIPCIDRItems := R.destinationIPCIDRItems ++ b.destinationIPCIDRItems
  destinationPortItems := R.destinationPortItems ++ b.destinationPortItems

theorem mem_groupItems_mergeBranch (R : DefaultRule) (b : DefaultHeadlessRule)
    (metadata : InboundContext) (g : Group) (it : RuleItem) :
    it ∈ (mergeBranch R b).groupItems metadata g ↔
      it ∈ R.groupItems metadata g ∨ it ∈ b.groupItems metadata g := by
  cases g <;> simp only [AbstractDefaultRule.groupItems, mergeBranch, List.mem_append]
  all_goals
    split
    · simp only [List.mem_append]
      tauto
    · simp

theorem contains_ruleSetItem {item : RuleSetItem} {metadata : InboundContext}
    {base st : RuleMatchState} :
    contains (item.matchStatesWithBase metadata base) st = true ↔
      ∃ ruleSet ∈ item.setList, ∃ rule ∈ ruleSet.rules,
        contains (rule.matchStatesWithBase
          (item.nestedMetadata metadata).resetRuleMatchCache base) st = true := by
  rw [RuleSetItem.matchStatesWithBase, contains_foldl_merge]
  simp only [contains_zero, Bool.false_eq_true, false_or]
  refine exists_congr fun ruleSet => and_congr_right fun _ => ?_
  rw [RuleSet.matchStatesWithBase, contains_foldl_merge]
  simp only [contains_zero, Bool.false_eq_true, false_or]

/-- Evaluating the branch `b` on top of the groups `R` has matched, and filtering
what is left by the groups `R` requires, is matching the merged rule. -/
theorem branch_iff_mergeBranch_match (R : DefaultRule) (b : DefaultHeadlessRule)
    (hb : b.invert = false) (metadata : InboundContext) :
    ((∀ it ∈ R.items, it.Match metadata = true) ∧
      ∃ st, contains (b.matchStatesWithBase metadata.resetRuleMatchCache
          (R.baseState metadata 0)) st = true ∧
        ∀ g : Group, R.groupItems metadata g ≠ [] → RuleMatchState.has st g.state = true) ↔
      (mergeBranch R b).Match metadata = true := by
  have hbset : b.ruleSetItem = none := by
    cases hset : b.ruleSetItem with
    | none => rfl
    | some item => exact item.elim
  -- the one state the branch can leave: a group is in it if an item of either rule matched
  have hhas : ∀ g : Group,
      RuleMatchState.has (b.baseState metadata.resetRuleMatchCache
        (R.baseState metadata 0)) g.state = true ↔
      ∃ it ∈ (mergeBranch R b).groupItems metadata g, it.Match metadata = true := by
    intro g
    rw [b.baseState_has, R.baseState_has, zero_has, b.groupItems_resetRuleMatchCache,
      Bool.false_or, Bool.or_eq_true, matchAnyItem_iff, matchAnyItem_iff]
    simp only [mem_groupItems_mergeBranch, RuleItem.match_resetRuleMatchCache, or_and_right,
      exists_or]
  have hne : ∀ g : Group, (mergeBranch R b).groupItems metadata g ≠ [] ↔
      R.groupItems metadata g ≠ [] ∨ b.groupItems metadata g ≠ [] := by
    intro g
    simp only [List.ne_nil_iff_length_pos, List.length_pos_iff_exists_mem,
      mem_groupItems_mergeBranch, exists_or]
  rw [(mergeBranch R b).match_plain_iff rfl rfl]
  simp only [b.contains_matchStatesWithBase hb, AbstractDefaultRule.unfilteredStates, hbset,
    contains_single, beq_iff_eq, b.groupItems_resetRuleMatchCache,
    RuleItem.match_resetRuleMatchCache, hne, ← hhas]
  constructor
  · rintro ⟨hRitems, st, ⟨hbitems, rfl, hbgroups⟩, hRgroups⟩
    exact ⟨List.forall_mem_append.mpr ⟨hRitems, hbitems⟩,
      fun g hg => hg.elim (hRgroups g) (hbgroups g)⟩
  · rintro ⟨hitems, hgroups⟩
    obtain ⟨hRitems, hbitems⟩ := List.forall_mem_append.mp hitems
    exact ⟨hRitems, _, ⟨hbitems, rfl, fun g hg => hgroups g (.inr hg)⟩,
      fun g hg => hgroups g (.inl hg)⟩

/-- **Merged-branch law.** A rule with a rule-set item matches exactly when, for
some branch of its rule-sets, the plain rule merged from the two matches: every
group with items in either of them has a matching item, and all other items of
both match. -/
theorem match_iff_exists_merged_branch (R : DefaultRule) (item : RuleSetItem)
    (metadata : InboundContext) (hset : R.ruleSetItem = some item) (hinv : R.invert = false)
    (hdefault : ∀ ruleSet ∈ item.setList, ∀ rule ∈ ruleSet.rules,
      ∃ b : DefaultHeadlessRule, rule = .default b ∧ b.invert = false)
    (hsource : item.ipCidrMatchSource = false) (hempty : item.ipCidrAcceptEmpty = false)
    (hmSource : metadata.ipcidrMatchSource = false)
    (hmEmpty : metadata.ipcidrAcceptEmpty = false)
    (hmIgnore : metadata.ignoreDestinationIPCIDRMatch = false) :
    (R.Match metadata = true ↔
      ∃ ruleSet ∈ item.setList, ∃ b, .default b ∈ ruleSet.rules ∧
        (mergeBranch R b).Match metadata = true) ∧
    ∀ b : DefaultHeadlessRule, (mergeBranch R b).Match metadata = true ↔
      (∀ it ∈ R.items ++ b.items, it.Match metadata = true) ∧
      (∀ group ∈ [R.sourceAddressItems ++ b.sourceAddressItems,
          R.sourcePortItems ++ b.sourcePortItems,
          R.destinationAddressItems ++ b.destinationAddressItems ++
            (R.destinationIPCIDRItems ++ b.destinationIPCIDRItems),
          R.destinationPortItems ++ b.destinationPortItems],
        group ≠ [] → ∃ it ∈ group, it.Match metadata = true) := by
  -- the item's flags are those the metadata has already
  have hnested : (item.nestedMetadata metadata).resetRuleMatchCache =
      metadata.resetRuleMatchCache := by
    cases metadata
    simp_all [RuleSetItem.nestedMetadata, InboundContext.resetRuleMatchCache]
  refine ⟨?_, fun b => ?_⟩
  · rw [AbstractDefaultRule.Match, Bool.not_eq_true', isEmpty_eq_false_iff]
    simp only [R.contains_matchStatesWithBase hinv, AbstractDefaultRule.unfilteredStates, hset]
    constructor
    · rintro ⟨st, hitems, hst, hgroups⟩
      obtain ⟨ruleSet, hmem, rule, hrule, hst⟩ := contains_ruleSetItem.mp hst
      obtain ⟨b, rfl, hb⟩ := hdefault ruleSet hmem rule hrule
      rw [hnested] at hst
      exact ⟨ruleSet, hmem, b, hrule,
        (branch_iff_mergeBranch_match R b hb metadata).mp ⟨hitems, st, hst, hgroups⟩⟩
    · rintro ⟨ruleSet, hmem, b, hrule, hmatch⟩
      obtain ⟨b', hb', hb⟩ := hdefault ruleSet hmem _ hrule
      cases hb'
      obtain ⟨hitems, st, hst, hgroups⟩ := (branch_iff_mergeBranch_match R b hb metadata).mpr hmatch
      refine ⟨st, hitems, contains_ruleSetItem.mpr ⟨ruleSet, hmem, _, hrule, ?_⟩, hgroups⟩
      rw [hnested]
      exact hst
  · -- with the flags off, the CIDR items are in the destination address group
    have hsa : (mergeBranch R b).groupItems metadata .sourceAddress =
        R.sourceAddressItems ++ b.sourceAddressItems := by
      simp [AbstractDefaultRule.groupItems, mergeBranch, hmSource]
    have hda : (mergeBranch R b).groupItems metadata .destinationAddress =
        R.destinationAddressItems ++ b.destinationAddressItems ++
          (R.destinationIPCIDRItems ++ b.destinationIPCIDRItems) := by
      simp [AbstractDefaultRule.groupItems, mergeBranch, hmSource, hmIgnore]
    rw [(mergeBranch R b).match_plain_iff rfl rfl]
    refine and_congr_right fun _ => ⟨fun h => ?_, fun h g => ?_⟩
    · simp only [List.forall_mem_cons, List.not_mem_nil, false_implies, implies_true, and_true]
      exact ⟨hsa ▸ h .sourceAddress, h .sourcePort, hda ▸ h .destinationAddress, h .destinationPort⟩
    · simp only [List.forall_mem_cons, List.not_mem_nil, false_implies, implies_true, and_true] at h
      obtain ⟨h1, h2, h3, h4⟩ := h
      cases g with
      | sourceAddress => exact hsa ▸ h1
      | sourcePort => exact h2
      | destinationAddress => exact hda ▸ h3
      | destinationPort => exact h4

/-- The law at work: `source_port 1000` and a rule-set of the branches `udp` and
`port 443` against a TCP connection from port 1000 to port 443. The second branch
carries the match. -/
theorem match_sourcePort_with_portBranch :
    let R : DefaultRule :=
      { sourcePortItems := [portItem true [1000]]
        ruleSetItem := some ⟨[⟨[.default { items := [networkItem ["udp"]] },
          .default { destinationPortItems := [portItem false [443]] }]⟩], false, false⟩ }
    let metadata : InboundContext :=
      { network := "tcp", source := { port := 1000 }, destination := { port := 443 } }
    R.Match metadata = true := by
  intro R metadata
  refine (match_iff_exists_merged_branch R _ metadata rfl rfl ?_ rfl rfl rfl rfl rfl).1.mpr
    ⟨_, List.mem_singleton.mpr rfl, _, List.mem_cons_of_mem _ (List.mem_singleton.mpr rfl), ?_⟩
  · intro ruleSet hset rule hrule
    rw [List.mem_singleton.mp hset] at hrule
    simp only [List.mem_cons, List.not_mem_nil, or_false] at hrule
    rcases hrule with rfl | rfl <;> exact ⟨_, rfl, rfl⟩
  · decide

end SingBox.Route
