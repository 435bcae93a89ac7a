import SingBox.Lib.Loop

/-!
# Loops without a list of items

A loop that goes on until a turn stops it need not end. It is run here with a bound on the
number of turns, and what it returns does not depend on the bound once there is enough of it.

* `turns_mono` — a loop that has ended is not changed by a larger bound;
* `turns_invariant` — what every turn keeps holds at the end;
* `turns_agree` — two loops that differ only where one of them fails;
* `turns_ends` — the rule with a measure: a bound above the measure at the start is enough;
* `turns_visits` — the same for the states the loop comes to, where one of them makes it fail;
* `turns_last` — of the states that a loop comes to only the last one stops it;
* `turns_never` — a loop in which no turn stops under an invariant does not end, nor does one
  that comes to it (`Visits.never`).
-/

namespace SingBox.Lib

variable {σ ε : Type}

/-- Take turns until one stops the loop, but at most `fuel` of them. -/
def turns (step : σ → Turn σ ε) : Nat → σ → Option (σ × ε)
  | 0, _ => none
  | fuel + 1, s =>
      match step s with
      | .next s => turns step fuel s
      | .stop s e => some (s, e)

variable {step : σ → Turn σ ε}

variable {s s' : σ} {e : ε} {fuel : Nat}

theorem turns_next (turn : step s = .next s') (fuel : Nat) :
    turns step (fuel + 1) s = turns step fuel s' := by
  rw [turns, turn]

theorem turns_stop (turn : step s = .stop s' e) (fuel : Nat) :
    turns step (fuel + 1) s = some (s', e) := by
  rw [turns, turn]

/-- What a turn leaves, by how it ends. -/
def Turn.Leaves (Next : σ → Prop) (Stop : σ → ε → Prop) : Turn σ ε → Prop
  | .next s => Next s
  | .stop s e => Stop s e

theorem turns_invariant (Inv : σ → Prop) (Post : σ → ε → Prop)
    (leaves : ∀ s, Inv s → (step s).Leaves Inv Post) (init : Inv s)
    (h : turns step fuel s = some (s', e)) : Post s' e := by
  induction fuel generalizing s with
  | zero => cases h
  | succ fuel ih =>
    have left := leaves s init
    cases turn : step s with
    | next next =>
      rw [turns_next turn] at h
      rw [turn] at left
      exact ih left h
    | stop last e' =>
      rw [turns_stop turn] at h
      rw [turn] at left
      cases h
      exact left

/-- Two loops whose turns are the same, except where one stops with a result that is not good. -/
theorem turns_agree {step' : σ → Turn σ ε} (Good : ε → Prop)
    (agree : ∀ s, (step s).Leaves (fun _ => True) (fun _ e => Good e) → step' s = step s)
    (h : turns step fuel s = some (s', e)) (good : Good e) : turns step' fuel s = some (s', e) := by
  induction fuel generalizing s with
  | zero => cases h
  | succ fuel ih =>
    have same := agree s
    cases turn : step s with
    | next next =>
      rw [turn] at same
      rw [turns_next turn] at h
      rw [turns_next (same trivial)]
      exact ih h
    | stop last e' =>
      rw [turn] at same
      rw [turns_stop turn] at h
      cases h
      exact turns_stop (same good) fuel

/-- The rule with a measure, which each turn that goes on makes smaller. -/
theorem turns_ends (Inv : σ → Prop) (Post : σ → ε → Prop) (measure : σ → Nat)
    (leaves : ∀ s, Inv s → (step s).Leaves (fun s' => Inv s' ∧ measure s' < measure s) Post)
    {s : σ} (init : Inv s) :
    ∃ s' e, (∀ fuel, measure s < fuel → turns step fuel s = some (s', e)) ∧ Post s' e := by
  induction bound : measure s using Nat.strongRecOn generalizing s with
  | ind n ih =>
    have left := leaves s init
    cases turn : step s with
    | next next =>
      rw [turn] at left
      obtain ⟨s', e, ends, post⟩ := ih (measure next) (bound ▸ left.2) left.1 rfl
      refine ⟨s', e, fun fuel enough => ?_, post⟩
      obtain ⟨fuel, rfl⟩ := Nat.exists_eq_add_one_of_ne_zero (Nat.ne_zero_of_lt enough)
      rw [turns_next turn]
      have smaller := left.2
      exact ends fuel (by omega)
    | stop last e =>
      rw [turn] at left
      refine ⟨last, e, fun fuel enough => ?_, left⟩
      obtain ⟨fuel, rfl⟩ := Nat.exists_eq_add_one_of_ne_zero (Nat.ne_zero_of_lt enough)
      exact turns_stop turn fuel

/-- The states a loop comes to. -/
inductive Visits (step : σ → Turn σ ε) : σ → σ → Prop
  | refl (s : σ) : Visits step s s
  | next {s s' t : σ} (turn : step s = .next s') (rest : Visits step s' t) : Visits step s t

theorem visits_next {t : σ} (turn : step s = .next s') :
    Visits step s t ↔ t = s ∨ Visits step s' t := by
  constructor
  · rintro (_ | ⟨turn', rest⟩)
    · exact .inl rfl
    · cases turn.symm.trans turn'
      exact .inr rest
  · rintro (rfl | rest)
    · exact .refl t
    · exact .next turn rest

theorem visits_stop {t : σ} (turn : step s = .stop s' e) : Visits step s t ↔ t = s := by
  constructor
  · rintro (_ | ⟨turn', rest⟩)
    · rfl
    · cases turn.symm.trans turn'
  · rintro rfl
    exact .refl t

theorem Visits.snoc {t : σ} (visits : Visits step s t) (turn : step t = .next s') :
    Visits step s s' := by
  induction visits with
  | refl => exact .next turn (.refl s')
  | next first _ ih => exact .next first (ih turn)

theorem Visits.keeps {t : σ} (Inv : σ → Prop) (keep : ∀ s s', step s = .next s' → Inv s → Inv s')
    (visits : Visits step s t) (init : Inv s) : Inv t := by
  induction visits with
  | refl => exact init
  | next turn _ ih => exact ih (keep _ _ turn init)

/-- A loop that ends was stopped by the last state it came to, and by no other. -/
theorem turns_last (h : turns step fuel s = some (s', e)) :
    ∃ t, Visits step s t ∧ step t = .stop s' e ∧
      ∀ u, Visits step s u → u = t ∨ ∃ u', step u = .next u' := by
  induction fuel generalizing s with
  | zero => cases h
  | succ fuel ih =>
    cases turn : step s with
    | next next =>
      rw [turns_next turn] at h
      obtain ⟨t, visits, stops, others⟩ := ih h
      refine ⟨t, .next turn visits, stops, fun u comes => ?_⟩
      rcases (visits_next turn).mp comes with rfl | later
      · exact .inr ⟨next, turn⟩
      · exact others u later
    | stop last e' =>
      rw [turns_stop turn] at h
      cases h
      exact ⟨s, .refl s, turn, fun u comes => .inl ((visits_stop turn).mp comes)⟩

theorem Visits.ends {t : σ} (visits : Visits step s t) (turn : step t = .stop s' e) :
    ∃ fuel, turns step fuel s = some (s', e) := by
  induction visits with
  | refl => exact ⟨1, turns_stop turn 0⟩
  | next first _ ih =>
    obtain ⟨fuel, ends⟩ := ih turn
    exact ⟨fuel + 1, (turns_next first fuel).trans ends⟩

/-- A loop that comes to where it does not end does not end. -/
theorem Visits.never {t : σ} (visits : Visits step s t) (never : ∀ fuel, turns step fuel t = none)
    (fuel : Nat) : turns step fuel s = none := by
  induction visits generalizing fuel with
  | refl => exact never fuel
  | next turn _ ih =>
    cases fuel with
    | zero => rfl
    | succ fuel =>
      rw [turns_next turn]
      exact ih never fuel

/-- With a measure, the loop fails if it comes to a state at which a turn does. -/
theorem turns_visits (Inv : σ → Prop) (Failed : ε → Prop) (Fails : σ → Prop) (measure : σ → Nat)
    (leaves : ∀ s, Inv s → (step s).Leaves
      (fun s' => (Inv s' ∧ measure s' < measure s) ∧ ¬ Fails s) fun _ e => Failed e ↔ Fails s)
    {s : σ} (init : Inv s) :
    ∃ s' e, (∀ fuel, measure s < fuel → turns step fuel s = some (s', e)) ∧
      (Failed e ↔ ∃ t, Visits step s t ∧ Fails t) := by
  -- what is ahead of the loop fails if what was ahead of it at the start does
  let Ahead (t : σ) : Prop := Inv t ∧
    ((∃ u, Visits step t u ∧ Fails u) ↔ ∃ u, Visits step s u ∧ Fails u)
  refine turns_ends Ahead _ measure (fun t ⟨inv, same⟩ => ?_) ⟨init, Iff.rfl⟩
  have left := leaves t inv
  rw [← same]
  cases turn : step t with
  | next next =>
    rw [turn] at left
    obtain ⟨⟨kept, less⟩, passed⟩ := left
    refine ⟨⟨kept, ?_⟩, less⟩
    rw [← same]
    simp only [visits_next turn, or_and_right, exists_or, exists_eq_left, passed, false_or]
  | stop last e =>
    rw [turn] at left
    simp only [visits_stop turn, exists_eq_left]
    exact left

/-- A loop that is not stopped while the invariant holds. -/
theorem turns_never (Inv : σ → Prop) (next : ∀ s, Inv s → ∃ s', step s = .next s' ∧ Inv s')
    (init : Inv s) (fuel : Nat) : turns step fuel s = none := by
  induction fuel generalizing s with
  | zero => rfl
  | succ fuel ih =>
    obtain ⟨s', turn, kept⟩ := next s init
    rw [turns_next turn]
    exact ih kept

end SingBox.Lib
