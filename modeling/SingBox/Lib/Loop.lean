import Mathlib.Data.List.Induction

/-!
# Loops that may stop early

A loop runs a step over a list of items, carrying a state. A turn either goes on
or stops the loop with a result. `Along P` says that `P` holds of the state and
the item of every turn the loop really takes: turns after the one that stops it
do not count.

* `loop_invariant` — what every admitted turn keeps, the loop keeps; `loop_keeps` is the
  case in which every turn is admitted;
* `along_mono` — what follows from a condition under the invariant holds along the loop;
* `along_congr` — two conditions that agree wherever the invariant holds are met
  by the same loops, if the turns that meet one of them keep the invariant;
* `along_iff_invariant_end` — if a turn that misses the condition spoils the state
  for good, the last state tells whether every turn met it;
* `loop_reaches` — a loop that took every item was in a state with the invariant after
  each of them; `loop_finished` and `loop_turn` say so of the last state and of the state
  in which an item has its turn;
* `loop_runs` — a loop none of whose turns can stop it takes every item; `loop_idle` is
  the case in which the state does not change.
-/

namespace SingBox.Lib

open List

variable {σ α ε : Type}

inductive Turn (σ ε : Type) where
  | next (state : σ)
  | stop (state : σ) (result : ε)

def Turn.state : Turn σ ε → σ
  | .next state => state
  | .stop state _ => state

@[simp] theorem Turn.state_next (s : σ) : (Turn.next s : Turn σ ε).state = s := rfl

@[simp] theorem Turn.state_stop (s : σ) (e : ε) : (Turn.stop s e).state = s := rfl

/-- Run the loop; the result is there if a turn stopped it. -/
def loop (step : σ → α → Turn σ ε) : σ → List α → σ × Option ε
  | s, [] => (s, none)
  | s, a :: rest =>
      match step s a with
      | .next s => loop step s rest
      | .stop s e => (s, some e)

/-- `P` holds of every turn the loop takes. -/
def Along (step : σ → α → Turn σ ε) (P : σ → α → Prop) : σ → List α → Prop
  | _, [] => True
  | s, a :: rest =>
      P s a ∧
        match step s a with
        | .next s => Along step P s rest
        | .stop _ _ => True

variable {step : σ → α → Turn σ ε} {P Q : σ → α → Prop} (Inv : σ → Prop)

theorem loop_invariant (keep : ∀ s a, Inv s → P s a → Inv (step s a).state) (s : σ) (items : List α)
    (init : Inv s) (along : Along step P s items) : Inv (loop step s items).1 := by
  induction items generalizing s with
  | nil => exact init
  | cons a rest ih =>
    obtain ⟨now, later⟩ := along
    have kept := keep s a init now
    unfold loop
    cases turn : step s a with
    | next s' =>
      rw [turn] at kept later
      exact ih s' kept later
    | stop s' e =>
      rw [turn] at kept
      exact kept

/-- What follows from a condition wherever the invariant holds, follows along the loop. -/
theorem along_mono (imp : ∀ s a, Inv s → P s a → Q s a)
    (keep : ∀ s a, Inv s → P s a → Inv (step s a).state) (s : σ) (items : List α) (init : Inv s)
    (along : Along step P s items) : Along step Q s items := by
  induction items generalizing s with
  | nil => trivial
  | cons a rest ih =>
    obtain ⟨now, later⟩ := along
    have kept := keep s a init now
    refine ⟨imp s a init now, ?_⟩
    cases turn : step s a with
    | next s' =>
      rw [turn] at kept later
      exact ih s' kept later
    | stop s' e => trivial

/-- Conditions that agree under the invariant are met by the same loops. -/
theorem along_congr (agree : ∀ s a, Inv s → (P s a ↔ Q s a))
    (keep : ∀ s a, Inv s → P s a → Inv (step s a).state) (s : σ) (items : List α) (init : Inv s) :
    Along step P s items ↔ Along step Q s items := by
  constructor
  · exact along_mono Inv (fun s a inv => (agree s a inv).mp) keep s items init
  · refine along_mono Inv (fun s a inv => (agree s a inv).mpr) (fun s a inv now => ?_) s items init
    exact keep s a inv ((agree s a inv).mpr now)

/-- The items of the turns are items of the loop. -/
theorem along_mem (s : σ) (items : List α) : Along step (fun _ a => a ∈ items) s items := by
  suffices general : ∀ (rest : List α) (s : σ), (∀ a ∈ rest, a ∈ items) →
      Along step (fun _ a => a ∈ items) s rest from general items s fun _ h => h
  intro rest
  induction rest with
  | nil => intro _ _; trivial
  | cons a rest ih =>
    intro s sub
    refine ⟨sub a mem_cons_self, ?_⟩
    cases step s a with
    | next s' => exact ih s' (forall_mem_cons.mp sub).2
    | stop s' e => trivial

theorem loop_keeps (keep : ∀ s a, Inv s → Inv (step s a).state) (s : σ) (items : List α)
    (init : Inv s) : Inv (loop step s items).1 :=
  loop_invariant Inv (fun s a inv _ => keep s a inv) s items init (along_mem s items)

/-- What is spoiled stays spoiled, so the last state tells about every turn. -/
theorem along_iff_invariant_end (Inv Bad : σ → Prop)
    (keep : ∀ s a, Inv s → P s a → Inv (step s a).state)
    (spoil : ∀ s a, Inv s → ¬ P s a → Bad (step s a).state)
    (stay : ∀ s a, Bad s → Bad (step s a).state)
    (excl : ∀ s, Inv s → ¬ Bad s) (s : σ) (items : List α) (init : Inv s) :
    Along step P s items ↔ Inv (loop step s items).1 := by
  refine ⟨loop_invariant Inv keep s items init, ?_⟩
  induction items generalizing s with
  | nil => intro _; trivial
  | cons a rest ih =>
    intro last
    -- a turn that missed the condition would have spoiled the last state
    have now : P s a := by
      apply Classical.byContradiction
      intro missed
      have spoiled := spoil s a init missed
      apply excl _ last
      unfold loop
      cases turn : step s a with
      | next s' =>
        rw [turn] at spoiled
        exact loop_keeps Bad stay s' rest spoiled
      | stop s' e =>
        rw [turn] at spoiled
        exact spoiled
    refine ⟨now, ?_⟩
    have kept := keep s a init now
    unfold loop at last
    cases turn : step s a with
    | next s' =>
      rw [turn] at kept last
      exact ih s' kept last
    | stop s' e => trivial

section Finished

variable (Inv : List α → σ → Prop) (items : List α)
  (next : ∀ done a rest s s', items = done ++ a :: rest → Inv done s → step s a = .next s' →
    Inv (done ++ [a]) s')
  (s last : σ) (init : Inv [] s) (h : loop step s items = (last, none))
include next init h

/-- A loop that is not stopped passes through every split of its items, with an
invariant that knows the items done. -/
theorem loop_reaches {done rest : List α} (hsplit : items = done ++ rest) :
    ∃ s', Inv done s' ∧ loop step s' rest = (last, none) := by
  induction done using reverseRecOn generalizing rest with
  | nil =>
    cases hsplit
    exact ⟨s, init, h⟩
  | append_singleton done a ih =>
    rw [append_assoc] at hsplit
    obtain ⟨s', inv, hloop⟩ := ih hsplit
    change loop step s' (a :: rest) = _ at hloop
    unfold loop at hloop
    cases turn : step s' a with
    | next s'' =>
      rw [turn] at hloop
      exact ⟨s'', next done a rest s' s'' hsplit inv turn, hloop⟩
    | stop s'' e =>
      rw [turn] at hloop
      cases hloop

theorem loop_finished : Inv items last := by
  obtain ⟨s', inv, hloop⟩ := loop_reaches Inv items next s last init h (append_nil items).symm
  cases hloop
  exact inv

/-- In a loop that is not stopped every item has its turn. -/
theorem loop_turn {done rest : List α} {a : α} (hsplit : items = done ++ a :: rest) :
    ∃ s s', Inv done s ∧ step s a = .next s' := by
  obtain ⟨s, inv, hloop⟩ := loop_reaches Inv items next s last init h hsplit
  unfold loop at hloop
  cases turn : step s a with
  | next s' => exact ⟨s, s', inv, turn⟩
  | stop s' e =>
    rw [turn] at hloop
    cases hloop

end Finished

/-- The rule for a loop that cannot be stopped while the invariant holds. -/
theorem loop_runs (Inv : List α → σ → Prop) (items : List α)
    (next : ∀ done a rest s, items = done ++ a :: rest → Inv done s →
      ∃ s', step s a = .next s' ∧ Inv (done ++ [a]) s')
    (s : σ) (init : Inv [] s) : ∃ last, loop step s items = (last, none) ∧ Inv items last := by
  suffices general : ∀ rest done s, items = done ++ rest → Inv done s →
      ∃ last, loop step s rest = (last, none) ∧ Inv items last from general items [] s rfl init
  intro rest
  induction rest with
  | nil =>
    intro done s split inv
    rw [append_nil] at split
    exact ⟨s, rfl, split ▸ inv⟩
  | cons a rest ih =>
    intro done s split inv
    obtain ⟨s', turn, inv'⟩ := next done a rest s split inv
    have later : items = (done ++ [a]) ++ rest := by rw [split, append_assoc]; rfl
    unfold loop
    rw [turn]
    exact ih (done ++ [a]) s' later inv'

theorem loop_idle {s : σ} {items : List α} (idle : ∀ a ∈ items, step s a = .next s) :
    loop step s items = (s, none) := by
  induction items with
  | nil => rfl
  | cons a rest ih =>
    unfold loop
    rw [idle a mem_cons_self]
    exact ih (forall_mem_cons.mp idle).2

end SingBox.Lib
