import SingBox.Dns.Router

/-!
# The loops of the legacy mode end

`Exchange` and `Lookup` call `matchDNS` with the index of the last rule, and `-1` stands both
for the start and for the end of the rules. A turn goes on only after it asked the server of a
rule, so the index is never `-1` again, and `matchDNS` starts after it.

* `matchFrom_found` — what `matchDNS` returns, with the rules it passed over;
* `exchangeTurn_spec`, `lookupTurn_spec` — the calls that one turn makes;
* `Linked` — the calls of a whole run, each from where the one before it ended;
* `legacy_loops_end` — the loops end, try each rule at most once, and come to the default
  transport exactly if a search finds no further rule.
-/

namespace SingBox.Dns

open Lib Client List

/-! ## What the rules do to the options -/

/-- The rule is looked at, and matches. -/
def DNSRule.applies (isAddressQuery : Bool) (metadata : InboundContext) (rule : DNSRule) : Bool :=
  !(rule.withAddressLimit && !isAddressQuery) && rule.LegacyPreMatch (matchMetadata metadata)

def Action.routeOptions? : Action → Option RouteOptions
  | .routeOptions options => some options
  | _ => none

def overridesOf (isAddressQuery : Bool) (metadata : InboundContext) (rules : List DNSRule) :
    List RouteOptions :=
  (rules.filter (·.applies isAddressQuery metadata)).filterMap (·.action.routeOptions?)

def overrideAll (actions : List RouteOptions) (options : QueryOptions) : QueryOptions :=
  actions.foldl (fun options action => action.override options) options

theorem overridesOf_append (isAddressQuery : Bool) (metadata : InboundContext)
    (first second : List DNSRule) :
    overridesOf isAddressQuery metadata (first ++ second) =
      overridesOf isAddressQuery metadata first ++ overridesOf isAddressQuery metadata second := by
  rw [overridesOf, filter_append, filterMap_append]
  rfl

theorem overridesOf_singleton (isAddressQuery : Bool) (metadata : InboundContext)
    (rule : DNSRule) :
    overridesOf isAddressQuery metadata [rule] =
      if rule.applies isAddressQuery metadata then rule.action.routeOptions?.toList else [] := by
  cases applies : rule.applies isAddressQuery metadata <;>
    cases options : rule.action.routeOptions? <;> simp [overridesOf, applies, options]

theorem overrideAll_append (first second : List RouteOptions) (options : QueryOptions) :
    overrideAll (first ++ second) options = overrideAll second (overrideAll first options) :=
  foldl_append

namespace Router

variable {r : Router}

/-! ## What `matchDNS` finds -/

section Found

variable (r : Router) (isAddressQuery : Bool) (metadata : InboundContext)

/-- What a search through the rules from an index on can return. -/
inductive Found (rules : List DNSRule) (index : Nat) (options : QueryOptions) : Matched → Prop
  | server (before : List DNSRule) (rule : DNSRule) (after : List DNSRule) (server : String)
      (action : RouteOptions) (transport : Transport) (split : rules = before ++ rule :: after)
      (isRoute : rule.action = .route server action)
      (found : r.transport server = some transport) :
      Found rules index options ⟨some transport, some rule, (index + before.length : Nat),
        (action.forTransport transport).override
          (overrideAll (overridesOf isAddressQuery metadata before) options)⟩
  | reject (rule : DNSRule) (method : RejectMethod) (isReject : rule.action = .reject method)
      (ruleIndex : Int) (options' : QueryOptions) :
      Found rules index options ⟨none, some rule, ruleIndex, options'⟩
  | predefined (rule : DNSRule) (action : Predefined)
      (isPredefined : rule.action = .predefined action)
      (ruleIndex : Int) (options' : QueryOptions) :
      Found rules index options ⟨none, some rule, ruleIndex, options'⟩
  | default :
      Found rules index options ⟨some r.defaultTransport, none, -1,
        overrideAll (overridesOf isAddressQuery metadata rules) options⟩

variable {r isAddressQuery metadata}

theorem Found.cons {rules : List DNSRule} {index : Nat} {options : QueryOptions}
    {matched : Matched} (rule : DNSRule)
    (h : Found r isAddressQuery metadata rules (index + 1)
      (overrideAll (overridesOf isAddressQuery metadata [rule]) options) matched) :
    Found r isAddressQuery metadata (rule :: rules) index options matched := by
  cases h with
  | server before rule' after server action transport split isRoute found =>
    have place : index + 1 + before.length = index + (rule :: before).length := by
      rw [length_cons]
      omega
    rw [← overrideAll_append, ← overridesOf_append, place]
    exact .server (rule :: before) rule' after server action transport
      (congrArg (rule :: ·) split) isRoute found
  | reject rule' method isReject ruleIndex options' =>
    exact .reject rule' method isReject ruleIndex options'
  | predefined rule' action isPredefined ruleIndex options' =>
    exact .predefined rule' action isPredefined ruleIndex options'
  | default =>
    rw [← overrideAll_append, ← overridesOf_append]
    exact .default

theorem matchFrom_found (r : Router) (allowFakeIP isAddressQuery : Bool)
    (metadata : InboundContext) (rules : List DNSRule) (index : Nat) (options : QueryOptions) :
    Found r isAddressQuery metadata rules index options
      (r.matchFrom allowFakeIP isAddressQuery metadata rules index options) := by
  induction rules generalizing index options with
  | nil => exact .default
  | cons rule rules ih =>
    -- a rule that is passed over and is not a route-options rule overrides nothing
    have pass (keeps : overridesOf isAddressQuery metadata [rule] = []) :
        Found r isAddressQuery metadata (rule :: rules) index options
          (r.matchFrom allowFakeIP isAddressQuery metadata rules (index + 1) options) := by
      apply Found.cons
      rw [keeps]
      exact ih (index + 1) options
    have pass' (noOptions : rule.action.routeOptions? = none) :=
      pass (by rw [overridesOf_singleton, noOptions, Option.toList_none, ite_self])
    unfold matchFrom
    split_ifs with skipped isMatch
    · have misses : rule.applies isAddressQuery metadata = false := by
        rw [DNSRule.applies, skipped, Bool.not_true, Bool.false_and]
      exact pass (by rw [overridesOf_singleton, misses]; rfl)
    · cases isAction : rule.action with
      | route server action =>
        rw [isAction] at pass'
        dsimp only
        cases found : r.transport server with
        | none => exact pass' rfl
        | some transport =>
          dsimp only
          split_ifs
          · exact pass' rfl
          · exact .server [] rule rules server action transport rfl isAction found
      | routeOptions action =>
        have applies : rule.applies isAddressQuery metadata = true := by
          rw [DNSRule.applies, isMatch, Bool.and_true, Bool.not_eq_true']
          exact eq_false_of_ne_true skipped
        apply Found.cons
        rw [overridesOf_singleton, applies, isAction]
        exact ih (index + 1) (action.override options)
      | evaluate | respond => exact pass' (by rw [isAction]; rfl)
      | reject method => exact .reject rule method isAction index options
      | predefined action => exact .predefined rule action isAction index options
    · have misses : rule.applies isAddressQuery metadata = false := by
        rw [DNSRule.applies, eq_false_of_ne_true isMatch, Bool.and_false]
      exact pass (by rw [overridesOf_singleton, misses]; rfl)

end Found

/-! ## The calls of one turn -/

section Turns

variable (r : Router) (allowFakeIP isAddressQuery : Bool) (metadata : InboundContext)
  (options : QueryOptions)

/-- The overrides of the rules with indices from `start` to before `stop`. -/
def overridesBetween (start stop : Nat) : List RouteOptions :=
  overridesOf isAddressQuery metadata ((r.rules.take stop).drop start)

/-- The options for a rule's own server. -/
def ownOptions (action : RouteOptions) (transport : Transport) (actions : List RouteOptions) :
    QueryOptions :=
  r.withDefaultStrategy ((action.forTransport transport).override (overrideAll actions options))

/-- The calls that a turn may make, when the last rule was the one with the index. -/
inductive Asks (ruleIndex : Int) : Call → Prop
  | server (k : Nat) (rule : DNSRule) (server : String) (action : RouteOptions)
      (transport : Transport) (later : startIndex ruleIndex ≤ k) (there : r.rules[k]? = some rule)
      (isRoute : rule.action = .route server action)
      (found : r.transport server = some transport) :
      Asks ruleIndex ⟨k, some transport, r.ownOptions options action transport
          (r.overridesBetween isAddressQuery metadata (startIndex ruleIndex) k),
        rule.withAddressLimit⟩
  | default :
      Asks ruleIndex ⟨-1, some r.defaultTransport, r.withDefaultStrategy (overrideAll
          (r.overridesBetween isAddressQuery metadata (startIndex ruleIndex) r.rules.length)
          options), false⟩

/-- No further rule is found after the one with the index. -/
def NoRule (ruleIndex : Int) : Prop :=
  (r.matchDNS allowFakeIP ruleIndex isAddressQuery metadata options).rule = none

/-- A turn returns what a rule says without a call, returns what a call gave, or goes on after a
call to the server of a rule. -/
inductive Spec {ω ε : Type} (s : Progress ω) : Turn (Progress ω) ε → Prop
  | answered (byRule : ¬ NoRule r allowFakeIP isAddressQuery metadata options s.ruleIndex)
      (result : ε) : Spec s (.stop s result)
  | asked (call : Call) (asks : Asks r isAddressQuery metadata options s.ruleIndex call)
      (noRule : NoRule r allowFakeIP isAddressQuery metadata options s.ruleIndex ↔
        call.ruleIndex = -1) (result : ε) : Spec s (.stop (s.ask call) result)
  | again (call : Call) (asks : Asks r isAddressQuery metadata options s.ruleIndex call)
      (noRule : NoRule r allowFakeIP isAddressQuery metadata options s.ruleIndex ↔
        call.ruleIndex = -1) (byRule : call.ruleIndex ≠ -1) : Spec s (.next (s.ask call))

variable {r allowFakeIP isAddressQuery metadata options}

theorem checked_some (rule : DNSRule) (metadata : InboundContext) :
    (addressLimitResponseCheck (some rule.toAddressLimitRule) metadata).isSome =
      rule.withAddressLimit := by
  cases limit : rule.withAddressLimit <;> simp [addressLimitResponseCheck, limit]

/-- When the search stops at no answer of a rule, its result is asked for. -/
theorem asks_of_found {ruleIndex : Int} {matched : Matched}
    (h : r.matchDNS allowFakeIP ruleIndex isAddressQuery metadata options = matched)
    (noReject : ∀ method, matched.rule.map DNSRule.action ≠ some (.reject method))
    (noPredefined : ∀ action, matched.rule.map DNSRule.action ≠ some (.predefined action)) :
    Asks r isAddressQuery metadata options ruleIndex (r.callOf matched metadata) ∧
      (matched.rule = none ↔ matched.ruleIndex = -1) := by
  have found := r.matchFrom_found allowFakeIP isAddressQuery metadata
    (r.rules.drop (startIndex ruleIndex)) (startIndex ruleIndex) options
  rw [← matchDNS, h] at found
  cases found with
  | server before rule after server action transport split isRoute found =>
    have there : r.rules[startIndex ruleIndex + before.length]? = some rule := by
      rw [← getElem?_drop, split, getElem?_append_right (Nat.le_refl _), Nat.sub_self]
      rfl
    have passed : (r.rules.take (startIndex ruleIndex + before.length)).drop
        (startIndex ruleIndex) = before := by
      rw [drop_take, split, Nat.add_sub_cancel_left, take_left]
    have asks : Asks r isAddressQuery metadata options ruleIndex _ :=
      .server _ rule server action transport (Nat.le_add_right _ before.length) there isRoute found
    rw [overridesBetween, passed] at asks
    rw [callOf, Option.map_some, checked_some]
    exact ⟨asks, iff_of_false nofun (by dsimp only; omega)⟩
  | reject rule method isReject => exact absurd (congrArg some isReject) (noReject method)
  | predefined rule action isPredefined =>
    exact absurd (congrArg some isPredefined) (noPredefined action)
  | default =>
    have asks : Asks r isAddressQuery metadata options ruleIndex _ := .default
    rw [overridesBetween, take_length] at asks
    exact ⟨asks, iff_of_true rfl rfl⟩

/-- Only the call for a rule has a checker. -/
theorem ne_none_of_checked {matched : Matched} (h : (r.callOf matched metadata).checked = true) :
    matched.rule ≠ none := by
  intro none
  rw [callOf, none] at h
  cases h

theorem not_noRule {action : Action} {ruleIndex : Int}
    (h : (r.matchDNS allowFakeIP ruleIndex isAddressQuery metadata options).rule.map
      DNSRule.action = some action) :
    ¬ NoRule r allowFakeIP isAddressQuery metadata options ruleIndex := by
  intro none
  rw [none] at h
  cases h

theorem exchangeTurn_spec (message : Msg) (s : Progress ExchangeOutcome) :
    Spec r true (Router.isAddressQuery message) metadata options s
      (r.exchangeTurn message metadata options s) := by
  unfold exchangeTurn
  dsimp only
  split
  · exact .answered (not_noRule ‹_›) _
  · exact .answered (not_noRule ‹_›) _
  · exact .answered (not_noRule ‹_›) _
  · rename_i noReject noDrop noPredefined
    obtain ⟨asks, noRule⟩ := asks_of_found rfl (fun method => by cases method <;> assumption)
      noPredefined
    split_ifs with rejected bypass
    · rw [Bool.and_eq_true] at rejected
      exact .again _ asks noRule (noRule.not.mp (ne_none_of_checked rejected.1))
    · simp only [Bool.and_eq_true] at bypass
      exact .again _ asks noRule
        (noRule.not.mp (Option.isSome_iff_ne_none.mp (Option.isSome_of_any bypass.1.2.1)))
    · exact .asked _ asks noRule _

theorem lookupTurn_spec (domain : String) (s : Progress LookupOutcome) :
    Spec r false true metadata options s (r.lookupTurn domain metadata options s) := by
  unfold lookupTurn
  dsimp only
  split
  · exact .answered (not_noRule ‹_›) _
  · exact .answered (not_noRule ‹_›) _
  · rename_i noReject noPredefined
    obtain ⟨asks, noRule⟩ := asks_of_found rfl noReject noPredefined
    split_ifs with bypass taken
    · simp only [Bool.and_eq_true] at bypass
      exact .again _ asks noRule (noRule.not.mp (Option.isSome_iff_ne_none.mp bypass.1.1.1))
    · exact .asked _ asks noRule _
    · simp only [Bool.or_eq_true, Bool.not_eq_true', not_or, Bool.not_eq_false] at taken
      exact .again _ asks noRule (noRule.not.mp (ne_none_of_checked taken.1))

end Turns

/-! ## Whole runs -/

/-- Calls, each made from where the one before it ended. Only calls for a rule are followed by
others. -/
inductive Linked (asks : Int → Call → Prop) : Int → List Call → Prop
  | nil (ruleIndex : Int) : Linked asks ruleIndex []
  | last {ruleIndex : Int} {call : Call} (h : asks ruleIndex call) : Linked asks ruleIndex [call]
  | cons {ruleIndex : Int} {call : Call} {calls : List Call} (h : asks ruleIndex call)
      (byRule : call.ruleIndex ≠ -1) (rest : Linked asks call.ruleIndex calls) :
      Linked asks ruleIndex (call :: calls)

theorem Linked.uncons {asks : Int → Call → Prop} {ruleIndex : Int} {call : Call}
    {calls : List Call} (h : Linked asks ruleIndex (call :: calls)) :
    asks ruleIndex call ∧ Linked asks call.ruleIndex calls := by
  cases h with
  | last asked => exact ⟨asked, .nil _⟩
  | cons asked byRule rest => exact ⟨asked, rest⟩

section Runs

variable {allowFakeIP isAddressQuery : Bool} {metadata : InboundContext} {options : QueryOptions}

theorem startIndex_natCast (k : Nat) : startIndex k = k + 1 := by
  unfold startIndex
  split_ifs <;> omega

theorem Asks.less {ruleIndex : Int} {call : Call}
    (h : Asks r isAddressQuery metadata options ruleIndex call) (byRule : call.ruleIndex ≠ -1) :
    r.rules.length - startIndex call.ruleIndex < r.rules.length - startIndex ruleIndex := by
  cases h with
  | server k rule server action transport later there =>
    have inside := (List.getElem?_eq_some_iff.mp there).1
    rw [startIndex_natCast]
    omega
  | default => exact absurd rfl byRule

/-- A loop whose turns are as specified ends, with linked calls. -/
theorem turns_linked {ω ε : Type} {step : Progress ω → Turn (Progress ω) ε}
    (spec : ∀ s, Spec r allowFakeIP isAddressQuery metadata options s (step s))
    (outcomes : Nat → ω) :
    ∃ s result,
      (∀ fuel, r.rules.length < fuel → turns step fuel (.start outcomes) = some (s, result)) ∧
      Linked (Asks r isAddressQuery metadata options) (-1) s.calls := by
  -- whatever is linked to the last call, is linked to the start when put after all calls
  let Inv (s : Progress ω) : Prop :=
    ∀ rest, Linked (Asks r isAddressQuery metadata options) s.ruleIndex rest →
      Linked (Asks r isAddressQuery metadata options) (-1) (s.calls ++ rest)
  let Post (s : Progress ω) (_ : ε) : Prop :=
    Linked (Asks r isAddressQuery metadata options) (-1) s.calls
  let measure (s : Progress ω) := r.rules.length - startIndex s.ruleIndex
  have leaves (s : Progress ω) (inv : Inv s) :
      (step s).Leaves (fun s' => Inv s' ∧ measure s' < measure s) Post := by
    generalize turn : step s = turn
    have specified := spec s
    rw [turn] at specified
    cases specified with
    | answered byRule result =>
      have linked := inv [] (.nil _)
      rwa [append_nil] at linked
    | asked call asks noRule result => exact inv [call] (.last asks)
    | again call asks noRule byRule =>
      refine ⟨fun rest linked => ?_, asks.less byRule⟩
      have linked := inv (call :: rest) (.cons asks byRule linked)
      rwa [append_cons] at linked
  exact turns_ends Inv Post measure leaves (s := .start outcomes) fun _ linked => linked

/-- A turn finds no further rule. -/
def FallsThrough {ω ε : Type} (r : Router) (allowFakeIP isAddressQuery : Bool)
    (metadata : InboundContext) (options : QueryOptions)
    (step : Progress ω → Turn (Progress ω) ε) (outcomes : Nat → ω) : Prop :=
  ∃ s, Visits step (.start outcomes) s ∧
    NoRule r allowFakeIP isAddressQuery metadata options s.ruleIndex

/-- Exactly then there is a call without a rule. -/
theorem fallsThrough_iff {ω ε : Type} {step : Progress ω → Turn (Progress ω) ε}
    (spec : ∀ s, Spec r allowFakeIP isAddressQuery metadata options s (step s))
    {outcomes : Nat → ω} {fuel : Nat} {last : Progress ω} {result : ε}
    (ends : turns step fuel (.start outcomes) = some (last, result)) :
    FallsThrough r allowFakeIP isAddressQuery metadata options step outcomes ↔
      ∃ call ∈ last.calls, call.ruleIndex = -1 := by
  obtain ⟨t, visits, stops, others⟩ := turns_last ends
  have goesOn (s next : Progress ω) (turn : step s = .next next) :
      ¬ NoRule r allowFakeIP isAddressQuery metadata options s.ruleIndex ∧
        ∃ call, next.calls = s.calls ++ [call] ∧ call.ruleIndex ≠ -1 := by
    have specified := spec s
    rw [turn] at specified
    cases specified with
    | again call asks noRule byRule => exact ⟨noRule.not.mpr byRule, call, rfl, byRule⟩
  -- the calls before the last turn were all for rules
  have before : ∀ call ∈ t.calls, call.ruleIndex ≠ -1 := by
    refine visits.keeps (fun s => ∀ call ∈ s.calls, call.ruleIndex ≠ -1) ?_ (forall_mem_nil _)
    intro s next turn byRules
    obtain ⟨-, call, calls, byRule⟩ := goesOn s next turn
    rw [calls]
    exact forall_mem_append.mpr ⟨byRules, forall_mem_singleton.mpr byRule⟩
  have falls : FallsThrough r allowFakeIP isAddressQuery metadata options step outcomes ↔
      NoRule r allowFakeIP isAddressQuery metadata options t.ruleIndex := by
    refine ⟨fun ⟨s, comes, noRule⟩ => ?_, fun noRule => ⟨t, visits, noRule⟩⟩
    rcases others s comes with rfl | ⟨next, turn⟩
    · exact noRule
    · exact absurd noRule (goesOn s next turn).1
  rw [falls]
  have specified := spec t
  rw [stops] at specified
  cases specified with
  | answered byRule =>
    exact iff_of_false byRule fun ⟨call, mem, isDefault⟩ => before call mem isDefault
  | asked call asks noRule =>
    refine noRule.trans ⟨fun isDefault => ⟨call, by simp [Progress.ask], isDefault⟩, ?_⟩
    rintro ⟨other, mem, isDefault⟩
    rcases mem_append.mp mem with earlier | here
    · exact absurd isDefault (before other earlier)
    · rwa [← mem_singleton.mp here]

theorem legacyExchange_linked (r : Router) (message : Msg) (metadata : InboundContext)
    (options : QueryOptions) (outcomes : Nat → ExchangeOutcome) :
    ∃ s result,
      (∀ fuel, r.rules.length < fuel →
        r.legacyExchange fuel message metadata options outcomes = some (s, result)) ∧
      Linked (Asks r (Router.isAddressQuery message) (exchangeMetadata metadata message) options)
        (-1) s.calls :=
  turns_linked (exchangeTurn_spec message) outcomes

theorem legacyLookup_linked (r : Router) (domain : String) (metadata : InboundContext)
    (options : QueryOptions) (outcomes : Nat → LookupOutcome) :
    ∃ s result,
      (∀ fuel, r.rules.length < fuel →
        r.legacyLookup fuel domain metadata options outcomes = some (s, result)) ∧
      Linked (Asks r true (lookupMetadata metadata domain) options) (-1) s.calls :=
  turns_linked (lookupTurn_spec domain) outcomes

/-- The call is for the server of the rule that its index names. -/
def ForRule (r : Router) (call : Call) : Prop :=
  ∃ (k : Nat) (rule : DNSRule) (server : String) (action : RouteOptions) (transport : Transport),
    call.ruleIndex = k ∧ r.rules[k]? = some rule ∧ rule.action = .route server action ∧
    r.transport server = some transport ∧ call.transport = some transport ∧
    call.checked = rule.withAddressLimit

/-- The calls are for rules, one later than the other, and if the loop falls through the rules, and
only then, there is one more, to the default transport and without a check. -/
def TriesOnce (r : Router) (fallsThrough : Prop) (calls : List Call) : Prop :=
  ∃ tried last, calls = tried ++ last ∧
    (tried.map Call.ruleIndex).Pairwise (· < ·) ∧ (∀ call ∈ tried, ForRule r call) ∧
    (¬ fallsThrough ∧ last = [] ∨
      fallsThrough ∧ ∃ options, last = [⟨-1, some r.defaultTransport, options, false⟩])

theorem Linked.triesOnce {ruleIndex : Int} {calls : List Call}
    (h : Linked (Asks r isAddressQuery metadata options) ruleIndex calls) :
    ∃ tried last, calls = tried ++ last ∧
      (tried.map Call.ruleIndex).Pairwise (· < ·) ∧
      (∀ call ∈ tried, startIndex ruleIndex ≤ call.ruleIndex ∧ ForRule r call) ∧
      (last = [] ∨ ∃ options, last = [⟨-1, some r.defaultTransport, options, false⟩]) := by
  induction h with
  | nil ruleIndex =>
    exact ⟨[], [], rfl, .nil, forall_mem_nil _, .inl rfl⟩
  | @last ruleIndex call asks =>
    cases asks with
    | server k rule server action transport later there isRoute found =>
      refine ⟨[_], [], rfl, pairwise_singleton _ _, ?_, .inl rfl⟩
      intro call mem
      cases mem_singleton.mp mem
      exact ⟨by dsimp only; omega, k, rule, server, action, transport, rfl, there, isRoute, found,
        rfl, rfl⟩
    | default =>
      exact ⟨[], _, (nil_append _).symm, .nil, forall_mem_nil _, .inr ⟨_, rfl⟩⟩
  | @cons ruleIndex call calls asks byRule rest ih =>
    obtain ⟨tried, last, rfl, increasing, forRules, ends⟩ := ih
    cases asks with
    | server k rule server action transport later there isRoute found =>
      rw [startIndex_natCast] at forRules
      refine ⟨_ :: tried, last, rfl, ?_, ?_, ends⟩
      · rw [map_cons, pairwise_cons]
        refine ⟨?_, increasing⟩
        intro index mem
        obtain ⟨call, isTried, rfl⟩ := mem_map.mp mem
        have after := (forRules call isTried).1
        dsimp only
        omega
      · intro call mem
        rcases mem_cons.mp mem with rfl | mem
        · exact ⟨by dsimp only; omega, k, rule, server, action, transport, rfl, there, isRoute,
            found, rfl, rfl⟩
        · obtain ⟨after, forRule⟩ := forRules call mem
          exact ⟨by omega, forRule⟩
    | default => exact absurd rfl byRule

theorem Linked.triesOnce_start {calls : List Call} {fallsThrough : Prop}
    (h : Linked (Asks r isAddressQuery metadata options) (-1) calls)
    (falls : fallsThrough ↔ ∃ call ∈ calls, call.ruleIndex = -1) :
    TriesOnce r fallsThrough calls := by
  obtain ⟨tried, last, rfl, increasing, forRules, ends⟩ := h.triesOnce
  refine ⟨tried, last, rfl, increasing, fun call mem => (forRules call mem).2, ?_⟩
  rw [falls]
  rcases ends with rfl | ⟨options, rfl⟩
  · refine .inl ⟨?_, rfl⟩
    rintro ⟨call, mem, isDefault⟩
    rw [append_nil] at mem
    have from0 := (forRules call mem).1
    omega
  · exact .inr ⟨⟨_, mem_append_right _ (mem_singleton_self _), rfl⟩, options, rfl⟩

end Runs

/-- Whatever the client answers, both loops end after at most one turn for each rule and one
more, and try each rule at most once. If a search finds no further rule, the default transport is
asked last. -/
theorem legacy_loops_end (r : Router) (metadata : InboundContext) (options : QueryOptions) :
    (∀ message outcomes, ∃ s result,
      (∀ fuel, r.rules.length < fuel →
        r.legacyExchange fuel message metadata options outcomes = some (s, result)) ∧
      TriesOnce r (FallsThrough r true (Router.isAddressQuery message)
        (exchangeMetadata metadata message) options
        (r.exchangeTurn message (exchangeMetadata metadata message) options) outcomes) s.calls) ∧
    (∀ domain outcomes, ∃ s result,
      (∀ fuel, r.rules.length < fuel →
        r.legacyLookup fuel domain metadata options outcomes = some (s, result)) ∧
      TriesOnce r (FallsThrough r false true (lookupMetadata metadata domain) options
        (r.lookupTurn domain (lookupMetadata metadata domain) options) outcomes) s.calls) := by
  constructor
  · intro message outcomes
    obtain ⟨s, result, ends, linked⟩ :=
      legacyExchange_linked r message metadata options outcomes
    exact ⟨s, result, ends, linked.triesOnce_start
      (fallsThrough_iff (exchangeTurn_spec message) (ends _ (Nat.lt_succ_self _)))⟩
  · intro domain outcomes
    obtain ⟨s, result, ends, linked⟩ := legacyLookup_linked r domain metadata options outcomes
    exact ⟨s, result, ends, linked.triesOnce_start
      (fallsThrough_iff (lookupTurn_spec domain) (ends _ (Nat.lt_succ_self _)))⟩

end Router

end SingBox.Dns
