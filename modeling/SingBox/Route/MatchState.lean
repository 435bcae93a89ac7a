import Mathlib.Data.BitVec

/-!
# Rule match states

`route/rule/match_state.go`. A *state* says which of the four address/port
groups have been matched so far; a *state set* is a bitmap with one bit per
state. The source keeps states in a `uint8` of which only the low four bits are
ever written, so a state is a `BitVec 4` here and the sixteen-bit set has
exactly one bit for each of them.

Every operation gets one membership lemma in terms of `contains`; nothing
outside this file looks at the bits of a set again.
-/

namespace SingBox.Route

abbrev RuleMatchState := BitVec 4

abbrev RuleMatchStateSet := BitVec 16

def ruleMatchSourceAddress : RuleMatchState := 1#4 <<< 0
def ruleMatchSourcePort : RuleMatchState := 1#4 <<< 1
def ruleMatchDestinationAddress : RuleMatchState := 1#4 <<< 2
def ruleMatchDestinationPort : RuleMatchState := 1#4 <<< 3

def RuleMatchState.has (s target : RuleMatchState) : Bool := s &&& target != 0#4

theorem RuleMatchState.has_or (s t u : RuleMatchState) :
    RuleMatchState.has (s ||| t) u = (RuleMatchState.has s u || RuleMatchState.has t u) := by
  have hdistr : (s ||| t) &&& u = s &&& u ||| t &&& u := by
    ext i hi
    simp [Bool.and_or_distrib_right]
  rw [RuleMatchState.has, hdistr, Bool.eq_iff_iff, Bool.or_eq_true]
  simp only [RuleMatchState.has, bne_iff_ne, ne_eq, BitVec.or_eq_zero_iff]
  tauto

/-- The values `for state := ruleMatchState(0); state < 16; state++` visits. -/
def ruleMatchStates : List RuleMatchState := (List.range 16).map (BitVec.ofNat 4)

theorem mem_ruleMatchStates (st : RuleMatchState) : st ∈ ruleMatchStates := by
  refine List.mem_map.mpr ⟨st.toNat, List.mem_range.mpr st.isLt, ?_⟩
  exact BitVec.ofNat_toNat 4 st ▸ BitVec.setWidth_eq st

def singleRuleMatchState (state : RuleMatchState) : RuleMatchStateSet :=
  1#16 <<< state.toNat

/-- `emptyRuleMatchState`: the set that holds the state with no group matched. -/
def emptyRuleMatchState : RuleMatchStateSet := singleRuleMatchState 0

namespace RuleMatchStateSet

variable (s : RuleMatchStateSet)

def isEmpty : Bool := s == 0#16

def contains (state : RuleMatchState) : Bool :=
  s &&& (1#16 <<< state.toNat) != 0#16

def add (state : RuleMatchState) : RuleMatchStateSet :=
  s ||| singleRuleMatchState state

def merge (s other : RuleMatchStateSet) : RuleMatchStateSet := s ||| other

/-- Every state of `s` joined with every state of `other`. -/
def combine (s other : RuleMatchStateSet) : RuleMatchStateSet :=
  if isEmpty s || isEmpty other then 0#16
  else
    ruleMatchStates.foldl (fun combined left =>
      if !contains s left then combined
      else
        ruleMatchStates.foldl (fun combined right =>
          if !contains other right then combined else add combined (left ||| right))
          combined) 0#16

/-- Every state of `s` joined with `base`. -/
def withBase (s : RuleMatchStateSet) (base : RuleMatchState) : RuleMatchStateSet :=
  if isEmpty s then 0#16
  else
    ruleMatchStates.foldl (fun withBase state =>
      if !contains s state then withBase else add withBase (state ||| base)) 0#16

/-- The states of `s` that pass `allowed`. -/
def filter (allowed : RuleMatchState → Bool) : RuleMatchStateSet :=
  ruleMatchStates.foldl (fun filtered state =>
    if !contains s state then filtered
    else if allowed state then add filtered state else filtered) 0#16

/-! ## Membership -/

theorem contains_eq_getLsbD (s : RuleMatchStateSet) (st : RuleMatchState) :
    contains s st = s.getLsbD st.toNat := by
  rw [Bool.eq_iff_iff]
  simp only [contains, bne_iff_ne, ne_eq]
  -- the mask has one bit, so only that bit of `s` can make the conjunction non-zero
  constructor
  · intro h
    by_contra hc
    refine h (BitVec.eq_of_getLsbD_eq fun i hi => ?_)
    by_cases hi' : i = st.toNat
    · subst hi'
      simp [hc]
    · have : ¬ (¬ i < st.toNat ∧ i - st.toNat = 0) := by omega
      simp
      grind
  · intro h he
    have hbit := congrArg (fun x => x.getLsbD st.toNat) he
    simp [h] at hbit
    omega

variable {s t : RuleMatchStateSet} {st : RuleMatchState}

theorem ext_contains (h : ∀ st, contains s st = contains t st) : s = t := by
  refine BitVec.eq_of_getLsbD_eq fun i hi => ?_
  have hto : (BitVec.ofNat 4 i).toNat = i := by
    exact Nat.mod_eq_of_lt hi
  have := h (BitVec.ofNat 4 i)
  rwa [contains_eq_getLsbD, contains_eq_getLsbD, hto] at this

@[simp] theorem contains_zero (st : RuleMatchState) : contains 0#16 st = false := by
  simp [contains_eq_getLsbD]

@[simp] theorem contains_single (st st' : RuleMatchState) :
    contains (singleRuleMatchState st) st' = (st == st') := by
  rw [contains_eq_getLsbD, singleRuleMatchState, Bool.eq_iff_iff, beq_iff_eq, ← BitVec.toNat_inj]
  simp
  omega

@[simp] theorem contains_merge (s t : RuleMatchStateSet) (st : RuleMatchState) :
    contains (merge s t) st = (contains s st || contains t st) := by
  simp [contains_eq_getLsbD, merge]

@[simp] theorem contains_add (s : RuleMatchStateSet) (st st' : RuleMatchState) :
    contains (add s st) st' = (contains s st' || st == st') := by
  have := contains_merge s (singleRuleMatchState st) st'
  rwa [contains_single] at this

theorem isEmpty_iff : isEmpty s = true ↔ ∀ st, contains s st = false := by
  simp only [isEmpty, beq_iff_eq]
  constructor
  · rintro rfl st
    exact contains_zero st
  · intro h
    exact ext_contains fun st => by rw [h st, contains_zero]

theorem isEmpty_eq_false_iff : isEmpty s = false ↔ ∃ st, contains s st = true := by
  rw [← Bool.not_eq_true, isEmpty_iff]
  simp

/-- A loop that only adds: the result holds what the accumulator held and what the visited
values add. -/
theorem contains_foldl {α : Type} {step : RuleMatchStateSet → α → RuleMatchStateSet}
    (adds : α → RuleMatchState → Prop)
    (hstep : ∀ acc x st, contains (step acc x) st = true ↔ contains acc st = true ∨ adds x st)
    (L : List α) (acc : RuleMatchStateSet) (st : RuleMatchState) :
    contains (L.foldl step acc) st = true ↔ contains acc st = true ∨ ∃ x ∈ L, adds x st := by
  induction L generalizing acc with
  | nil => simp
  | cons x rest ih =>
    rw [List.foldl_cons, ih, hstep]
    simp only [List.exists_mem_cons_iff, or_assoc]

theorem contains_foldl_merge {α : Type} (f : α → RuleMatchStateSet) (L : List α)
    (acc : RuleMatchStateSet) (st : RuleMatchState) :
    contains (L.foldl (fun acc x => merge acc (f x)) acc) st = true ↔
      contains acc st = true ∨ ∃ x ∈ L, contains (f x) st = true :=
  contains_foldl (fun x st => contains (f x) st = true)
    (fun acc x st => by rw [contains_merge, Bool.or_eq_true]) L acc st

theorem contains_filter {allowed : RuleMatchState → Bool} :
    contains (filter s allowed) st = true ↔ contains s st = true ∧ allowed st = true := by
  unfold filter
  rw [contains_foldl (fun x st => contains s x = true ∧ allowed x = true ∧ x = st)]
  · simp [mem_ruleMatchStates]
  · intro acc x st
    cases contains s x <;> cases allowed x <;> simp

theorem contains_withBase {base : RuleMatchState} :
    contains (withBase s base) st = true ↔
      ∃ x, contains s x = true ∧ x ||| base = st := by
  unfold withBase
  by_cases hs : isEmpty s = true
  · have hnone := isEmpty_iff.mp hs
    simp [hs, hnone]
  · rw [if_neg hs, contains_foldl (fun x st => contains s x = true ∧ x ||| base = st)]
    · simp [mem_ruleMatchStates]
    · intro acc x st
      cases contains s x <;> simp

theorem contains_combine :
    contains (combine s t) st = true ↔
      ∃ left right, contains s left = true ∧ contains t right = true ∧ left ||| right = st := by
  -- the inner loop adds the states of `t` joined with one state of `s`
  have inner : ∀ left acc st, contains (ruleMatchStates.foldl (fun combined right =>
      if !contains t right then combined else add combined (left ||| right)) acc) st = true ↔
      contains acc st = true ∨ ∃ right, contains t right = true ∧ left ||| right = st := by
    intro left acc st
    rw [contains_foldl (fun right st => contains t right = true ∧ left ||| right = st)]
    · simp [mem_ruleMatchStates]
    · intro acc right st
      cases contains t right <;> simp
  unfold combine
  by_cases empty : (isEmpty s || isEmpty t) = true
  · rw [if_pos empty, contains_zero]
    refine iff_of_false Bool.false_ne_true ?_
    rintro ⟨left, right, hleft, hright, _⟩
    rcases Bool.or_eq_true_iff.mp empty with empty | empty
    · rw [isEmpty_iff.mp empty] at hleft
      cases hleft
    · rw [isEmpty_iff.mp empty] at hright
      cases hright
  · rw [if_neg empty, contains_foldl (fun left st => contains s left = true ∧
      ∃ right, contains t right = true ∧ left ||| right = st)]
    · simp [mem_ruleMatchStates]
    · intro acc left st
      cases contains s left with
      | false => simp
      | true => simpa using inner left acc st

theorem isEmpty_combine :
    isEmpty (combine s t) = false ↔ isEmpty s = false ∧ isEmpty t = false := by
  simp only [isEmpty_eq_false_iff, contains_combine]
  constructor
  · rintro ⟨st, left, right, hleft, hright, _⟩
    exact ⟨⟨left, hleft⟩, ⟨right, hright⟩⟩
  · rintro ⟨⟨left, hleft⟩, ⟨right, hright⟩⟩
    exact ⟨_, left, right, hleft, hright, rfl⟩

theorem contains_emptyRuleMatchState_withBase {base : RuleMatchState} :
    contains (withBase emptyRuleMatchState base) st = true ↔ st = base := by
  rw [contains_withBase]
  constructor
  · rintro ⟨x, hx, rfl⟩
    rw [emptyRuleMatchState, contains_single, beq_iff_eq] at hx
    rw [← hx]
    exact BitVec.zero_or
  · rintro rfl
    exact ⟨0, by simp [emptyRuleMatchState], BitVec.zero_or⟩

theorem isEmpty_withBase (base : RuleMatchState) :
    isEmpty (withBase emptyRuleMatchState base) = false :=
  isEmpty_eq_false_iff.mpr ⟨base, contains_emptyRuleMatchState_withBase.mpr rfl⟩

theorem ite_isEmpty (s : RuleMatchStateSet) : (if isEmpty s then 0#16 else s) = s := by
  split_ifs with empty
  · exact (beq_iff_eq.mp empty).symm
  · rfl

end RuleMatchStateSet

end SingBox.Route
