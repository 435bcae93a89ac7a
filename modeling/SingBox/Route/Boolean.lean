import SingBox.Route.MergedBranch

/-!
# Without rule-sets, matching is boolean logic

A rule answers with a set of states, and matches if the set is not empty. When no rule refers to
a rule-set, the value of a tree of rules can be read off its items: a default rule is the
conjunction of its groups, each the disjunction of its items, and of its other items; a logical
rule is the conjunction or disjunction of its rules; inversion is negation.

* `value` — the boolean value of a tree;
* `isEmpty_logical_and`, `isEmpty_logical_or` — when a logical rule has no state;
* `after` — what the evaluation of a rule leaves in the metadata;
* `Match_eq_value` — a tree matches if its value is true, whatever was evaluated before.
-/

namespace SingBox.Route

open RuleMatchStateSet List

/-! ## The value of a tree -/

def Group.all : List Group := [.sourceAddress, .sourcePort, .destinationAddress, .destinationPort]

theorem Group.mem_all (g : Group) : g ∈ Group.all := by
  cases g <;> decide

namespace AbstractDefaultRule

variable {σ : Type} (r : AbstractDefaultRule σ)

def value (metadata : InboundContext) : Bool :=
  r.invert ^^
    ((Group.all.all fun g => (r.groupItems metadata g).isEmpty ||
        (r.groupItems metadata g).any fun item => item.Match metadata) &&
      r.items.all fun item => item.Match metadata)

/-- What the evaluation of the rule leaves in the metadata. -/
def after (metadata : InboundContext) : InboundContext :=
  { metadata with didMatch := r.didMatch metadata }

end AbstractDefaultRule

namespace RuleTree

variable {σ : Type}

mutual

def value : RuleTree (AbstractDefaultRule σ) → InboundContext → Bool
  | .default r, metadata => r.value metadata
  | .logical rules .and invert, metadata => invert ^^ allValues rules metadata
  | .logical rules .or invert, metadata => invert ^^ anyValue rules metadata

def allValues : List (RuleTree (AbstractDefaultRule σ)) → InboundContext → Bool
  | [], _ => true
  | rule :: rules, metadata => rule.value metadata && allValues rules metadata

def anyValue : List (RuleTree (AbstractDefaultRule σ)) → InboundContext → Bool
  | [], _ => false
  | rule :: rules, metadata => rule.value metadata || anyValue rules metadata

end

variable {rules : List (RuleTree (AbstractDefaultRule σ))}

theorem all_congr {f g : RuleTree (AbstractDefaultRule σ) → Bool}
    (h : ∀ rule ∈ rules, f rule = g rule) : rules.all f = rules.all g := by
  rw [Bool.eq_iff_iff, all_eq_true, all_eq_true]
  exact forall₂_congr fun rule mem => by rw [h rule mem]

theorem any_congr {f g : RuleTree (AbstractDefaultRule σ) → Bool}
    (h : ∀ rule ∈ rules, f rule = g rule) : rules.any f = rules.any g := by
  rw [any_eq_not_all_not, any_eq_not_all_not, all_congr fun rule mem => by rw [h rule mem]]

variable (rules : List (RuleTree (AbstractDefaultRule σ)))

theorem allValues_eq_all (metadata : InboundContext) :
    allValues rules metadata = rules.all fun rule => rule.value metadata := by
  induction rules with
  | nil => rfl
  | cons rule rules ih => rw [allValues, ih, all_cons]

theorem anyValue_eq_any (metadata : InboundContext) :
    anyValue rules metadata = rules.any fun rule => rule.value metadata := by
  induction rules with
  | nil => rfl
  | cons rule rules ih => rw [anyValue, ih, any_cons]

/-- No default rule refers to a rule-set, and each has an item. -/
inductive Plain : RuleTree (AbstractDefaultRule σ) → Prop
  | default (r : AbstractDefaultRule σ) (noRuleSet : r.ruleSetItem = none)
      (hasItem : r.allItemsLength ≠ 0) : Plain (.default r)
  | logical (rules : List (RuleTree (AbstractDefaultRule σ))) (mode : LogicalMode) (invert : Bool)
      (plain : ∀ rule ∈ rules, Plain rule) : Plain (.logical rules mode invert)

/-- The metadata that the items of a tree see: a logical rule resets the flags for its rules. -/
def seen (tree : RuleTree (AbstractDefaultRule σ)) (metadata : InboundContext) : InboundContext :=
  match tree with
  | .default _ => metadata
  | .logical .. => metadata.resetRuleCache

/-- What the evaluation of a tree leaves in the metadata: a logical rule works on copies. -/
def after (tree : RuleTree (AbstractDefaultRule σ)) (metadata : InboundContext) : InboundContext :=
  match tree with
  | .default r => r.after metadata
  | .logical .. => metadata

end RuleTree

/-! ## Default rules -/

namespace AbstractDefaultRule

variable {σ : Type} (r : AbstractDefaultRule σ) (metadata : InboundContext)

theorem groupItems_didMatch (b : Bool) (g : Group) :
    r.groupItems { metadata with didMatch := b } g = r.groupItems metadata g := by
  cases g <;> rfl

/-- The value of a rule is read off its items, which do not see `DidMatch`. -/
theorem value_didMatch (b : Bool) : r.value { metadata with didMatch := b } = r.value metadata := by
  simp only [value, groupItems_didMatch, RuleItem.ignoresDidMatch]

/-- The rule without its inversion. -/
def uninverted : AbstractDefaultRule σ := { r with invert := false }

theorem uninverted_eq (plain : r.invert = false) : r.uninverted = r := by
  unfold uninverted
  rw [← plain]

@[simp] theorem groupItems_uninverted (g : Group) :
    r.uninverted.groupItems metadata g = r.groupItems metadata g := by
  cases g <;> rfl

variable [RuleStateMatcherWithBase σ]

theorem matchStates_uninverted (hasItem : r.allItemsLength ≠ 0) (metadata : InboundContext)
    (base : RuleMatchState) :
    r.uninverted.matchStatesWithBase metadata base =
      if r.items.all (fun item => item.Match metadata) then
        filter (r.unfilteredStates metadata (r.baseState metadata base)) (r.allowed metadata)
      else 0#16 := by
  refine (if_neg hasItem).trans ?_
  show (if (!r.items.all fun item => item.Match metadata) = true then 0#16
    else if isEmpty (filter (r.unfilteredStates metadata (r.baseState metadata base))
        (r.allowed metadata)) = true then 0#16
      else filter (r.unfilteredStates metadata (r.baseState metadata base))
        (r.allowed metadata)) = _
  rw [ite_isEmpty]
  cases r.items.all fun item => item.Match metadata <;> rfl

/-- The special case for inverted rules: what was ignored decides. -/
def Deferred (r : AbstractDefaultRule σ) (metadata : InboundContext) : Prop :=
  metadata.ignoreDestinationIPCIDRMatch = true ∧
    r.uninverted.matchStatesWithBase metadata 0 = emptyRuleMatchState ∧
    r.didMatch metadata = false ∧ r.destinationIPCIDRItems ≠ []

/-- An inverted rule ends in the groups it inherits, unless the rule without the inversion
matches. -/
theorem contains_inverted (inverted : r.invert = true) (hasItem : r.allItemsLength ≠ 0)
    (metadata : InboundContext) (base st : RuleMatchState) :
    contains (r.matchStatesWithBase metadata base) st = true ↔
      st = base ∧ (isEmpty (r.uninverted.matchStatesWithBase metadata 0) = true ∨
        r.Deferred metadata) := by
  have empty : isEmpty 0#16 = true := rfl
  have states := r.matchStates_uninverted hasItem metadata 0
  unfold Deferred
  rw [states]
  unfold matchStatesWithBase
  rw [if_neg hasItem]
  simp only [invertedFailure, inverted, if_true]
  cases r.items.all fun item => item.Match metadata with
  | false => simp [empty, contains_emptyRuleMatchState_withBase]
  | true =>
    simp only [Bool.not_true, Bool.false_eq_true, if_false, if_true]
    generalize filter (r.unfilteredStates metadata (r.baseState metadata 0)) (r.allowed metadata) =
      stateSet
    cases left : isEmpty stateSet with
    | true => simp [contains_emptyRuleMatchState_withBase]
    | false =>
      simp only [Bool.false_eq_true, if_false, false_or, Bool.and_eq_true, beq_iff_eq,
        Bool.not_eq_true', decide_eq_true_eq, List.length_pos_iff, gt_iff_lt, and_assoc]
      split_ifs with deferred
      · simp [contains_emptyRuleMatchState_withBase, deferred]
      · simp [deferred]

/-- Unless destination addresses are ignored, inversion negates. -/
theorem isEmpty_invert (hasItem : r.allItemsLength ≠ 0) {metadata : InboundContext}
    (ignore : metadata.ignoreDestinationIPCIDRMatch = false) :
    isEmpty (r.matchStatesWithBase metadata 0) =
      (r.invert ^^ isEmpty (r.uninverted.matchStatesWithBase metadata 0)) := by
  cases invert : r.invert with
  | false =>
    rw [r.uninverted_eq invert, Bool.false_xor]
  | true =>
    have never : ¬ r.Deferred metadata := by
      rintro ⟨ignored, _⟩
      rw [ignore] at ignored
      cases ignored
    rw [Bool.true_xor, ← Bool.not_inj_iff, Bool.not_not, Bool.eq_iff_iff, Bool.not_eq_true',
      RuleMatchStateSet.isEmpty_eq_false_iff]
    simp [r.contains_inverted invert hasItem, never]

/-- An inverted rule ends in the groups it inherits or nowhere. -/
theorem contains_of_inverted (inverted : r.invert = true) (metadata : InboundContext)
    (base st : RuleMatchState) :
    contains (r.matchStatesWithBase metadata base) st = true ↔
      st = base ∧ isEmpty (r.matchStatesWithBase metadata 0) = false := by
  by_cases hasItem : r.allItemsLength = 0
  · have states : ∀ base, r.matchStatesWithBase metadata base =
        withBase emptyRuleMatchState base := fun base => if_pos hasItem
    rw [states, states, contains_emptyRuleMatchState_withBase, isEmpty_withBase]
    exact (and_iff_left rfl).symm
  · rw [RuleMatchStateSet.isEmpty_eq_false_iff]
    simp only [r.contains_inverted inverted hasItem, exists_eq_left]

theorem isEmpty_eq_not_value (noRuleSet : r.ruleSetItem = none) (hasItem : r.allItemsLength ≠ 0)
    {metadata : InboundContext} (ignore : metadata.ignoreDestinationIPCIDRMatch = false) :
    isEmpty (r.matchStatesWithBase metadata 0) = !r.value metadata := by
  have plain := r.uninverted.match_plain_iff rfl noRuleSet metadata
  have states : isEmpty (r.uninverted.matchStatesWithBase metadata 0) =
      !((Group.all.all fun g => (r.groupItems metadata g).isEmpty ||
          (r.groupItems metadata g).any fun item => item.Match metadata) &&
        r.items.all fun item => item.Match metadata) := by
    rw [← Bool.not_inj_iff, Bool.not_not]
    rw [Match] at plain
    rw [Bool.eq_iff_iff, plain, Bool.and_eq_true, all_eq_true, all_eq_true]
    simp only [groupItems_uninverted, Group.mem_all, true_implies, Bool.or_eq_true,
      List.isEmpty_iff, any_eq_true, ne_eq, or_iff_not_imp_left]
    exact and_comm
  rw [r.isEmpty_invert hasItem ignore, states, value, Bool.xor_not]

end AbstractDefaultRule

/-! ## Logical rules -/

namespace RuleTree

section Logical

variable {δ : Type} [RuleStateMatcherWithBase δ] (rules : List (RuleTree δ))
  (metadata : InboundContext) (base : RuleMatchState)

/-- The and node fails at a rule without a state, and only there. -/
theorem andStates_cases {stateSet : RuleMatchStateSet} (nonempty : isEmpty stateSet = false) :
    (andStates rules metadata base stateSet = none ∧
      ∃ rule ∈ rules, isEmpty (rule.matchStatesWithBase metadata.resetRuleCache base) = true) ∨
    (∃ states, andStates rules metadata base stateSet = some states ∧ isEmpty states = false ∧
      ∀ rule ∈ rules, isEmpty (rule.matchStatesWithBase metadata.resetRuleCache base) = false) := by
  induction rules generalizing stateSet with
  | nil => exact .inr ⟨stateSet, rfl, nonempty, nofun⟩
  | cons rule rules ih =>
    rw [andStates]
    cases h : isEmpty (rule.matchStatesWithBase metadata.resetRuleCache base) with
    | true => exact .inl ⟨rfl, rule, mem_cons_self, h⟩
    | false =>
      rcases ih (isEmpty_combine.mpr ⟨nonempty, h⟩) with ⟨none, failed, mem, empty⟩ |
        ⟨states, some, left, all⟩
      · exact .inl ⟨none, failed, mem_cons_of_mem _ mem, empty⟩
      · exact .inr ⟨states, some, left, forall_mem_cons.mpr ⟨h, all⟩⟩

theorem contains_orStates (stateSet : RuleMatchStateSet) (st : RuleMatchState) :
    contains (orStates rules metadata base stateSet) st = true ↔ contains stateSet st = true ∨
      ∃ rule ∈ rules, contains (rule.matchStatesWithBase metadata.resetRuleCache base) st = true := by
  induction rules generalizing stateSet with
  | nil => simp [orStates]
  | cons rule rules ih =>
    rw [orStates, ih, contains_merge, Bool.or_eq_true]
    simp only [exists_mem_cons_iff, or_assoc]

theorem isEmpty_orStates :
    isEmpty (orStates rules metadata base 0#16) =
      rules.all fun rule => isEmpty (rule.matchStatesWithBase metadata.resetRuleCache base) := by
  rw [Bool.eq_iff_iff, all_eq_true]
  simp only [← Bool.not_eq_true, contains_orStates, RuleMatchStateSet.isEmpty_iff, contains_zero,
    false_or, Bool.false_eq_true]
  constructor
  · intro none rule mem st here
    exact none st ⟨rule, mem, here⟩
  · rintro none st ⟨rule, mem, here⟩
    exact none rule mem st here

theorem isEmpty_logical_and (invert : Bool) :
    isEmpty ((RuleTree.logical rules .and invert).matchStatesWithBase metadata base) =
      (invert ^^ rules.any fun rule =>
        isEmpty (rule.matchStatesWithBase metadata.resetRuleCache (if invert then 0 else base))) := by
  rw [matchStatesWithBase]
  generalize evaluation : (if invert then 0 else base) = evaluationBase
  rcases andStates_cases rules metadata evaluationBase (isEmpty_withBase evaluationBase) with
    ⟨failed, rule, mem, empty⟩ | ⟨states, result, left, all⟩
  · rw [failed, any_eq_true.mpr ⟨rule, mem, empty⟩]
    cases invert with
    | false => rfl
    | true => exact isEmpty_withBase base
  · have none : (rules.any fun rule =>
        isEmpty (rule.matchStatesWithBase metadata.resetRuleCache evaluationBase)) = false := by
      rw [any_eq_false]
      intro rule mem
      rw [all rule mem]
      exact Bool.false_ne_true
    rw [result, none]
    cases invert with
    | false => exact left
    | true => rfl

theorem isEmpty_logical_or (invert : Bool) :
    isEmpty ((RuleTree.logical rules .or invert).matchStatesWithBase metadata base) =
      (invert ^^ rules.all fun rule =>
        isEmpty (rule.matchStatesWithBase metadata.resetRuleCache (if invert then 0 else base))) := by
  rw [matchStatesWithBase]
  generalize evaluation : (if invert then 0 else base) = evaluationBase
  rw [← isEmpty_orStates rules metadata evaluationBase]
  split_ifs with empty inverted inverted
  · rw [isEmpty_withBase, empty, inverted]
    rfl
  · rw [empty, Bool.eq_false_iff.mpr inverted]
    rfl
  · rw [Bool.eq_false_iff.mpr empty, inverted]
    rfl
  · rw [Bool.eq_false_iff.mpr inverted, Bool.false_xor]

theorem contains_logical_and (st : RuleMatchState) :
    contains ((RuleTree.logical rules .and false).matchStatesWithBase metadata base) st = true ↔
      ∃ states, andStates rules metadata base (withBase emptyRuleMatchState base) = some states ∧
        contains states st = true := by
  rw [matchStatesWithBase]
  simp only [Bool.false_eq_true, if_false]
  cases andStates rules metadata base (withBase emptyRuleMatchState base) <;> simp

theorem contains_logical_or (st : RuleMatchState) :
    contains ((RuleTree.logical rules .or false).matchStatesWithBase metadata base) st = true ↔
      ∃ rule ∈ rules, contains (rule.matchStatesWithBase metadata.resetRuleCache base) st = true := by
  rw [matchStatesWithBase]
  simp only [Bool.false_eq_true, if_false, ite_isEmpty, contains_orStates, contains_zero, false_or]

/-- An inverted rule ends in the groups it inherits or nowhere. -/
theorem contains_inverted_logical (mode : LogicalMode) (st : RuleMatchState) :
    contains ((RuleTree.logical rules mode true).matchStatesWithBase metadata base) st = true ↔
      st = base ∧
        isEmpty ((RuleTree.logical rules mode true).matchStatesWithBase metadata 0) = false := by
  have empty : isEmpty 0#16 = true := rfl
  cases mode <;> simp only [matchStatesWithBase, if_true]
  case and =>
    cases andStates rules metadata 0 (withBase emptyRuleMatchState 0) <;>
      simp [contains_emptyRuleMatchState_withBase, isEmpty_withBase, empty]
  case or =>
    split_ifs <;> simp [contains_emptyRuleMatchState_withBase, isEmpty_withBase, empty]

end Logical

/-! ## The law -/

section Law

variable {σ : Type}

/-- The flags for the addresses of rule-sets are not set, as after `ResetRuleCache`. -/
def Reset (metadata : InboundContext) : Prop :=
  metadata.ipcidrMatchSource = false ∧ metadata.ipcidrAcceptEmpty = false

variable (tree : RuleTree (AbstractDefaultRule σ))

theorem value_didMatch (metadata : InboundContext)
    (b : Bool) : tree.value { metadata with didMatch := b } = tree.value metadata := by
  induction tree using RuleTree.induction with
  | default r =>
    exact r.value_didMatch metadata b
  | logical rules mode invert ih =>
    have all : ∀ rule ∈ rules, rule.value { metadata with didMatch := b } = rule.value metadata := ih
    cases mode with
    | and => rw [value, value, allValues_eq_all, allValues_eq_all, all_congr all]
    | or => rw [value, value, anyValue_eq_any, anyValue_eq_any, any_congr all]

/-- What a tree sees of metadata without flags is the metadata, but for `DidMatch`. -/
theorem value_seen {metadata : InboundContext} (reset : Reset metadata) :
    tree.value (tree.seen metadata) = tree.value metadata := by
  cases tree with
  | default r => rfl
  | logical rules mode invert =>
    have same : metadata.resetRuleCache = { metadata with didMatch := false } := by
      obtain ⟨source, accept⟩ := reset
      cases metadata
      cases source
      cases accept
      rfl
    show value _ metadata.resetRuleCache = _
    rw [same, value_didMatch]

variable [RuleStateMatcherWithBase σ]

theorem isEmpty_eq_not_value {tree : RuleTree (AbstractDefaultRule σ)} (plain : tree.Plain)
    (metadata : InboundContext) (ignore : metadata.ignoreDestinationIPCIDRMatch = false) :
    isEmpty (tree.matchStatesWithBase metadata 0) = !tree.value (tree.seen metadata) := by
  induction tree using RuleTree.induction generalizing metadata with
  | default r =>
    cases plain with
    | default _ noRuleSet hasItem =>
      exact r.isEmpty_eq_not_value noRuleSet hasItem ignore
  | logical rules mode invert ih =>
    cases plain with
    | logical _ _ _ plain =>
      -- the rules are evaluated with base 0 on the reset metadata, which they do not reset again
      have children : ∀ rule ∈ rules,
          isEmpty (rule.matchStatesWithBase metadata.resetRuleCache 0) =
            !rule.value metadata.resetRuleCache := by
        intro rule mem
        rw [ih rule mem (plain rule mem) metadata.resetRuleCache ignore, value_seen rule ⟨rfl, rfl⟩]
      show _ = !value _ metadata.resetRuleCache
      cases mode with
      | and =>
        rw [isEmpty_logical_and, value, allValues_eq_all, ite_self, any_congr children,
          ← not_all_eq_any_not, Bool.xor_not]
      | or =>
        rw [isEmpty_logical_or, value, anyValue_eq_any, ite_self, all_congr children,
          ← not_any_eq_all_not, Bool.xor_not]

omit [RuleStateMatcherWithBase σ] in
/-- Evaluating rules leaves nothing in the metadata but `DidMatch`. -/
theorem after_eq (earlier : List (RuleTree (AbstractDefaultRule σ))) (metadata : InboundContext) :
    ∃ b, earlier.foldl (fun metadata tree => tree.after metadata) metadata =
      { metadata with didMatch := b } := by
  refine foldlRecOn (motive := fun m => ∃ b, m = { metadata with didMatch := b }) _ _
    ⟨metadata.didMatch, rfl⟩ ?_
  rintro _ ⟨b, rfl⟩ tree -
  cases tree <;> exact ⟨_, rfl⟩

/-- A tree of rules without rule-sets matches if and only if its boolean value is true, and still
does after other rules have been evaluated on the same metadata. Unless the metadata has the flags
of a rule-set, all its items see the metadata as it is. -/
theorem Match_eq_value (tree : RuleTree (AbstractDefaultRule σ)) (plain : tree.Plain)
    (metadata : InboundContext) (ignore : metadata.ignoreDestinationIPCIDRMatch = false)
    (earlier : List (RuleTree (AbstractDefaultRule σ))) :
    tree.Match metadata = tree.value (tree.seen metadata) ∧
    (Reset metadata → tree.Match metadata = tree.value metadata) ∧
    tree.Match (earlier.foldl (fun metadata tree => tree.after metadata) metadata) =
      tree.Match metadata := by
  have law : ∀ metadata : InboundContext, metadata.ignoreDestinationIPCIDRMatch = false →
      tree.Match metadata = tree.value (tree.seen metadata) := by
    intro metadata ignore
    rw [Match, isEmpty_eq_not_value plain metadata ignore, Bool.not_not]
  refine ⟨law metadata ignore, fun reset => (law metadata ignore).trans (value_seen tree reset), ?_⟩
  obtain ⟨b, left⟩ := after_eq earlier metadata
  rw [left, law { metadata with didMatch := b } ignore, law metadata ignore]
  cases tree with
  | default r => exact value_didMatch _ metadata b
  | logical rules mode invert => rfl

/-- Neither port 443 nor a network other than UDP, for UDP to port 80. -/
theorem Match_inverted_or :
    let tree : RouteRule := .logical [.default { destinationPortItems := [portItem false [443]] },
      .default { items := [networkItem ["udp"]], invert := true }] .or true
    let metadata : InboundContext := { network := "udp", destination := { port := 80 } }
    tree.Match metadata = true ∧ tree.Match (tree.after metadata) = true := by
  intro tree metadata
  have plain : tree.Plain := by
    refine .logical _ _ _ fun rule mem => ?_
    simp only [mem_cons, not_mem_nil, or_false] at mem
    rcases mem with rfl | rfl <;> exact .default _ rfl (by decide)
  obtain ⟨_, law, still⟩ := Match_eq_value tree plain metadata rfl [tree]
  have here : tree.Match metadata = true := (law ⟨rfl, rfl⟩).trans (by decide)
  exact ⟨here, still.trans here⟩

end Law

end RuleTree

end SingBox.Route
