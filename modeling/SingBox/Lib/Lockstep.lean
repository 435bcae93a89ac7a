import SingBox.Lib.Loop

/-!
# Two loops over the same items

Two loops go in lockstep if their states are related before every item and their turns are alike:
both go on, or both stop.

* `lockstep_iff` — if one turn keeps the relation exactly when a condition on the first loop
  holds, the loops go in lockstep exactly when the condition holds along the first loop;
* `lockstep_loop` — loops in lockstep end alike.
-/

namespace SingBox.Lib

variable {σ τ α ε δ : Type}

/-- Both turns go on in related states, or both stop with related results. -/
def Turn.Alike (N : σ → τ → Prop) (S : σ × ε → τ × δ → Prop) : Turn σ ε → Turn τ δ → Prop
  | .next s, .next t => N s t
  | .stop s e, .stop t d => S (s, e) (t, d)
  | .next _, .stop _ _ => False
  | .stop _ _, .next _ => False

theorem Turn.Alike.cases {N : σ → τ → Prop} {S : σ × ε → τ × δ → Prop} {a : Turn σ ε}
    {b : Turn τ δ} (h : Turn.Alike N S a b) :
    (∃ s t, a = .next s ∧ b = .next t ∧ N s t) ∨
      ∃ s e t d, a = .stop s e ∧ b = .stop t d ∧ S (s, e) (t, d) := by
  cases a with
  | next s =>
    cases b with
    | next t => exact .inl ⟨s, t, rfl, rfl, h⟩
    | stop t d => exact h.elim
  | stop s e =>
    cases b with
    | next t => exact h.elim
    | stop t d => exact .inr ⟨s, e, t, d, rfl, rfl, h⟩

variable (step : σ → α → Turn σ ε) (step' : τ → α → Turn τ δ) (R : σ → τ → Prop)
  (T : σ → τ → α → Prop) (S : σ × ε → τ × δ → Prop)

/-- The states are related by `R`, an item is met with `T`, and the turns are alike. -/
def Lockstep : σ → τ → List α → Prop
  | s, t, [] => R s t
  | s, t, a :: rest =>
      R s t ∧ T s t a ∧ Turn.Alike (fun s t => Lockstep s t rest) S (step s a) (step' t a)

variable {step step' R T S}

variable {s : σ} {t : τ} {items : List α}

theorem Lockstep.related (h : Lockstep step step' R T S s t items) : R s t := by
  cases items with
  | nil => exact h
  | cons a rest => exact h.1

/-- From one turn to the whole of the loops. -/
theorem lockstep_iff {P : σ → α → Prop}
    (turn : ∀ s t, ∀ a ∈ items, R s t → (T s t a ∧ Turn.Alike R S (step s a) (step' t a) ↔ P s a))
    (init : R s t) : Lockstep step step' R T S s t items ↔ Along step P s items := by
  induction items generalizing s t with
  | nil => exact ⟨fun _ => trivial, fun _ => init⟩
  | cons a rest ih =>
    -- the states after a turn that keeps the relation are related again
    have now := turn s t a List.mem_cons_self init
    have later : ∀ {s t}, R s t → (Lockstep step step' R T S s t rest ↔ Along step P s rest) :=
      ih fun s t b mem => turn s t b (List.mem_cons_of_mem _ mem)
    constructor
    · rintro ⟨-, met, alike⟩
      obtain ⟨s', t', first, second, alike⟩ | ⟨s', e, t', d, first, second, alike⟩ := alike.cases
      · refine ⟨now.mp ⟨met, ?_⟩, ?_⟩ <;> rw [first]
        · rw [second]
          exact alike.related
        · exact (later alike.related).mp alike
      · refine ⟨now.mp ⟨met, ?_⟩, ?_⟩ <;> rw [first]
        · rw [second]
          exact alike
        · trivial
    · rintro ⟨holds, along⟩
      obtain ⟨met, alike⟩ := now.mpr holds
      refine ⟨init, met, ?_⟩
      obtain ⟨s', t', first, second, alike⟩ | ⟨s', e, t', d, first, second, alike⟩ := alike.cases
      · rw [first] at along ⊢
        rw [second]
        exact (later alike).mpr along
      · rw [first, second]
        exact alike

theorem lockstep_loop (h : Lockstep step step' R T S s t items) :
    (∃ s' t', loop step s items = (s', none) ∧ loop step' t items = (t', none) ∧ R s' t') ∨
      ∃ s' e t' d, loop step s items = (s', some e) ∧ loop step' t items = (t', some d) ∧
        S (s', e) (t', d) := by
  induction items generalizing s t with
  | nil => exact .inl ⟨s, t, rfl, rfl, h⟩
  | cons a rest ih =>
    obtain ⟨-, -, alike⟩ := h
    unfold loop
    obtain ⟨s', t', first, second, alike⟩ | ⟨s', e, t', d, first, second, alike⟩ := alike.cases
    · rw [first, second]
      exact ih alike
    · rw [first, second]
      exact .inr ⟨s', e, t', d, rfl, rfl, alike⟩

end SingBox.Lib
