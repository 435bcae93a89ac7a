import SingBox.Route.Boolean
import SingBox.Route.DnsRule

/-!
# Inherited groups are kept, and only help

A rule starts from the groups that were matched around it. It never drops one of them, and with
more of them it can only match more: an inverted rule does not look at them, and every other rule
needs groups to be matched, never to be unmatched.

* `Inherits` — both, for the evaluation of a rule as a function of the groups that it inherits;
* `AbstractDefaultRule.inherits`, `RuleTree.inherits` — default rules and trees have it;
* `matchStatesWithBase_inherits` — so have the rules of rule-sets, of the router and of DNS.
-/

namespace SingBox.Route

open RuleMatchStateSet

/-- Every group of the first state is in the second. -/
def Within (s s' : RuleMatchState) : Prop :=
  ∀ g : Group, RuleMatchState.has s g.state = true → RuleMatchState.has s' g.state = true

theorem Within.refl (s : RuleMatchState) : Within s s := fun _ h => h

theorem Within.or {a a' b b' : RuleMatchState} (ha : Within a a') (hb : Within b b') :
    Within (a ||| b) (a' ||| b') := by
  intro g h
  rw [RuleMatchState.has_or, Bool.or_eq_true] at h ⊢
  exact h.imp (ha g) (hb g)

/-- Every state has the groups inherited; with more of them there is one that has these and the
groups of the first, so that the rule still matches. -/
structure Inherits (f : RuleMatchState → RuleMatchStateSet) : Prop where
  keeps : ∀ b s, contains (f b) s = true → Within b s
  grows : ∀ b b', Within b b' → ∀ s, contains (f b) s = true →
    ∃ s', contains (f b') s' = true ∧ Within s s' ∧ Within b' s'
  nonempty : ∀ b b', Within b b' → isEmpty (f b) = false → isEmpty (f b') = false

variable {f : RuleMatchState → RuleMatchStateSet}

theorem Inherits.of_grows (keeps : ∀ b s, contains (f b) s = true → Within b s)
    (grows : ∀ b b', Within b b' → ∀ s, contains (f b) s = true →
      ∃ s', contains (f b') s' = true ∧ Within s s') : Inherits f := by
  refine ⟨keeps, ?_, ?_⟩
  · intro b b' le s here
    obtain ⟨s', there, larger⟩ := grows b b' le s here
    exact ⟨s', there, larger, keeps b' s' there⟩
  · intro b b' le nonempty
    obtain ⟨s, here⟩ := isEmpty_eq_false_iff.mp nonempty
    obtain ⟨s', there, _⟩ := grows b b' le s here
    exact isEmpty_eq_false_iff.mpr ⟨s', there⟩

/-- Inverted rules: whether they match does not depend on the groups. -/
theorem Inherits.of_inverted {matched : Prop}
    (states : ∀ b s, contains (f b) s = true ↔ s = b ∧ matched) : Inherits f := by
  refine .of_grows ?_ ?_
  · intro b s here
    rw [((states b s).mp here).1]
    exact Within.refl b
  · intro b b' le s here
    obtain ⟨rfl, holds⟩ := (states b s).mp here
    exact ⟨b', (states b' b').mpr ⟨rfl, holds⟩, le⟩

theorem AbstractDefaultRule.inherits {σ : Type} [RuleStateMatcherWithBase σ]
    (ruleSet : ∀ (item : σ) metadata, Inherits (matchRuleItemStatesWithBase item metadata))
    (r : AbstractDefaultRule σ) (metadata : InboundContext) :
    Inherits (r.matchStatesWithBase metadata) := by
  cases invert : r.invert with
  | true => exact .of_inverted (r.contains_of_inverted invert metadata)
  | false =>
    have states := r.contains_matchStatesWithBase invert metadata
    have own : ∀ b b', Within b b' → Within (r.baseState metadata b) (r.baseState metadata b') := by
      intro b b' le g has
      rw [baseState_has, Bool.or_eq_true] at has ⊢
      exact has.imp_left (le g)
    -- the rule-set, or the rule's own groups where it has none
    have unfiltered : Inherits (r.unfilteredStates metadata) := by
      unfold unfilteredStates
      cases r.ruleSetItem with
      | some item => exact ruleSet item metadata
      | none =>
        refine .of_grows ?_ ?_ <;> simp only [contains_single, beq_iff_eq]
        · rintro b _ rfl
          exact Within.refl _
        · rintro b b' le _ rfl
          exact ⟨b', rfl, le⟩
    refine .of_grows ?_ ?_
    · intro b s here g has
      obtain ⟨_, inside, _⟩ := (states b s).mp here
      refine unfiltered.keeps _ s inside g ?_
      rw [baseState_has, has, Bool.true_or]
    · intro b b' le s here
      obtain ⟨items, inside, filtered⟩ := (states b s).mp here
      obtain ⟨s', there, larger, _⟩ := unfiltered.grows _ _ (own b b' le) s inside
      exact ⟨s', (states b' s').mpr ⟨items, there, fun g has => larger g (filtered g has)⟩, larger⟩

section Trees

variable {δ : Type} [RuleStateMatcherWithBase δ]

/-- The and node only adds groups to the states of its accumulator. -/
theorem andStates_keeps {rules : List (RuleTree δ)} {metadata : InboundContext}
    {base b s : RuleMatchState} {acc states : RuleMatchStateSet}
    (result : RuleTree.andStates rules metadata base acc = some states)
    (here : contains states s = true) (init : ∀ s, contains acc s = true → Within b s) :
    Within b s := by
  induction rules generalizing acc with
  | nil =>
    cases result
    exact init s here
  | cons rule rules ih =>
    rw [RuleTree.andStates] at result
    split at result
    · cases result
    refine ih result fun s joined g has => ?_
    obtain ⟨left, right, hleft, _, rfl⟩ := contains_combine.mp joined
    rw [RuleMatchState.has_or, init left hleft g has, Bool.true_or]

/-- Started from more groups, it ends in more. -/
theorem andStates_grows {rules : List (RuleTree δ)} {metadata : InboundContext}
    (rulesGrow : ∀ rule ∈ rules, Inherits (rule.matchStatesWithBase metadata.resetRuleCache))
    {base base' : RuleMatchState} (le : Within base base') {acc acc' : RuleMatchStateSet}
    (init : ∀ s, contains acc s = true → ∃ s', contains acc' s' = true ∧ Within s s')
    {states : RuleMatchStateSet} (result : RuleTree.andStates rules metadata base acc = some states)
    {s : RuleMatchState} (here : contains states s = true) :
    ∃ states', RuleTree.andStates rules metadata base' acc' = some states' ∧
      ∃ s', contains states' s' = true ∧ Within s s' := by
  induction rules generalizing acc acc' with
  | nil =>
    cases result
    exact ⟨acc', rfl, init s here⟩
  | cons rule rules ih =>
    obtain ⟨child, rest⟩ := List.forall_mem_cons.mp rulesGrow
    rw [RuleTree.andStates] at result ⊢
    cases empty : isEmpty (rule.matchStatesWithBase metadata.resetRuleCache base) with
    | true =>
      rw [empty] at result
      cases result
    | false =>
      rw [empty] at result
      rw [child.nonempty base base' le empty]
      refine ih rest ?_ result
      intro s here
      obtain ⟨a, b, ha, hb, rfl⟩ := contains_combine.mp here
      obtain ⟨a', ha', leA⟩ := init a ha
      obtain ⟨b', hb', leB, _⟩ := child.grows base base' le b hb
      exact ⟨_, contains_combine.mpr ⟨a', b', ha', hb', rfl⟩, leA.or leB⟩

theorem RuleTree.inherits (default : ∀ (d : δ) metadata,
      Inherits (RuleStateMatcherWithBase.matchStatesWithBase d metadata))
    (tree : RuleTree δ) (metadata : InboundContext) :
    Inherits (tree.matchStatesWithBase metadata) := by
  induction tree using RuleTree.induction generalizing metadata with
  | default d => exact default d metadata
  | logical rules mode invert ih =>
    cases invert with
    | true => exact .of_inverted fun b => contains_inverted_logical rules metadata b mode
    | false =>
      cases mode with
      | and =>
        have states := contains_logical_and rules metadata
        refine .of_grows ?_ ?_
        · intro b s here
          obtain ⟨states, result, here⟩ := (states b s).mp here
          refine andStates_keeps result here fun s inside => ?_
          rw [contains_emptyRuleMatchState_withBase.mp inside]
          exact Within.refl b
        · intro b b' le s here
          obtain ⟨_, result, here⟩ := (states b s).mp here
          obtain ⟨_, result', s', there, larger⟩ :=
            andStates_grows (fun rule mem => ih rule mem _) le (fun s inside =>
              ⟨b', contains_emptyRuleMatchState_withBase.mpr rfl,
                contains_emptyRuleMatchState_withBase.mp inside ▸ le⟩) result here
          exact ⟨s', (states b' s').mpr ⟨_, result', there⟩, larger⟩
      | or =>
        have states := contains_logical_or rules metadata
        refine .of_grows ?_ ?_
        · intro b s here
          obtain ⟨rule, mem, here⟩ := (states b s).mp here
          exact (ih rule mem _).keeps b s here
        · intro b b' le s here
          obtain ⟨rule, mem, here⟩ := (states b s).mp here
          obtain ⟨s', there, larger, _⟩ := (ih rule mem _).grows b b' le s here
          exact ⟨s', (states b' s').mpr ⟨rule, mem, there⟩, larger⟩

end Trees

theorem HeadlessRule.inherits (rule : HeadlessRule) (metadata : InboundContext) :
    Inherits (rule.matchStatesWithBase metadata) :=
  RuleTree.inherits (AbstractDefaultRule.inherits fun item => item.elim) rule metadata

theorem RuleSetItem.inherits (item : RuleSetItem) (metadata : InboundContext) :
    Inherits (matchRuleItemStatesWithBase item metadata) := by
  refine .of_grows ?_ ?_
  · intro b s here
    obtain ⟨_, _, rule, _, here⟩ := contains_ruleSetItem.mp here
    exact (HeadlessRule.inherits rule _).keeps b s here
  · intro b b' le s here
    obtain ⟨ruleSet, memSet, rule, mem, here⟩ := contains_ruleSetItem.mp here
    obtain ⟨s', there, larger, _⟩ := (HeadlessRule.inherits rule _).grows b b' le s here
    exact ⟨s', contains_ruleSetItem.mpr ⟨ruleSet, memSet, rule, mem, there⟩, larger⟩

/-- Every rule keeps the groups that it inherits, and with more of them matches more, whatever is
inverted in it and however deep it is. -/
theorem matchStatesWithBase_inherits (metadata : InboundContext) :
    (∀ rule : HeadlessRule, Inherits (rule.matchStatesWithBase metadata)) ∧
    (∀ rule : RouteRule, Inherits (rule.matchStatesWithBase metadata)) ∧
    ∀ rule : DNSRuleTree, Inherits (RuleTree.matchStatesWithBase rule metadata) := by
  have default := AbstractDefaultRule.inherits RuleSetItem.inherits
  refine ⟨fun rule => ?_, fun rule => ?_, fun rule => ?_⟩
  · exact HeadlessRule.inherits rule metadata
  · exact RuleTree.inherits default rule metadata
  · exact RuleTree.inherits (fun r => default r.toAbstractDefaultRule) rule metadata

end SingBox.Route
