import Mathlib.Algebra.Ring.Int.Defs
import Mathlib.Data.List.Induction

/-!
# Runs of labelled steps

A system is a partial step function: `step s l` is the state after the step `l`, and
`none` if that step cannot be taken in `s`. When several parties take turns, the label
says whose turn it is, so a list of labels is an interleaving.

* `steps_append` — a run is a run of its first part and then of the rest;
* `steps_invariant` — what every step keeps, a run keeps;
* `steps_history` — the same for an invariant that knows the labels taken so far;
* `steps_invariant_through` — the same for a run on which a condition holds at every step;
* `steps_sum` — a measure that every step changes by its weight;
* `always_iff_through` — if a step keeps the invariant exactly under a condition, a run keeps it
  exactly if the condition holds at every step;
* `always_iff_through_of` — the same beside an invariant under which every step can be taken;
* `outputs` — what the steps of a run put out, in order;
* `of_update` — what is in a map of the state after a write.
-/

namespace SingBox.Lib

open List Option Function

variable {σ ℓ : Type}

/-- The state after a list of steps, if each of them could be taken. -/
def steps (step : σ → ℓ → Option σ) : σ → List ℓ → Option σ
  | s, [] => some s
  | s, l :: rest => (step s l).bind fun s' => steps step s' rest

variable {step : σ → ℓ → Option σ}

theorem steps_cons (s : σ) (l : ℓ) (rest : List ℓ) :
    steps step s (l :: rest) = (step s l).bind fun s' => steps step s' rest := rfl

theorem steps_append (s : σ) (first second : List ℓ) :
    steps step s (first ++ second) =
      (steps step s first).bind fun s' => steps step s' second := by
  induction first generalizing s with
  | nil => rfl
  | cons l rest ih =>
    rw [cons_append, steps_cons, steps_cons]
    cases step s l with
    | none => rfl
    | some s' => exact ih s'

theorem steps_singleton (s : σ) (l : ℓ) : steps step s [l] = step s l := by
  rw [steps_cons]
  cases step s l <;> rfl

variable {s s' : σ} {first second labels : List ℓ} {ok : σ → ℓ → Prop} {Inv : σ → Prop}

/-- A run that ends passes through a state after any first part of it. -/
theorem steps_split (h : steps step s (first ++ second) = some s') :
    ∃ middle, steps step s first = some middle ∧ steps step middle second = some s' := by
  rw [steps_append] at h
  exact bind_eq_some_iff.mp h

theorem steps_trans {middle : σ} (hfirst : steps step s first = some middle)
    (hsecond : steps step middle second = some s') : steps step s (first ++ second) = some s' := by
  rw [steps_append, hfirst]
  exact hsecond

/-- The rule for an invariant that knows the steps taken so far. -/
theorem steps_history (Inv : List ℓ → σ → Prop)
    (next : ∀ done l rest s₁ s₂, labels = done ++ l :: rest → Inv done s₁ → step s₁ l = some s₂ →
      Inv (done ++ [l]) s₂)
    (init : Inv [] s) (h : steps step s labels = some s') : Inv labels s' := by
  suffices general : ∀ done rest s', labels = done ++ rest → steps step s done = some s' →
      Inv done s' from general labels [] s' (append_nil labels).symm h
  intro done
  induction done using reverseRecOn with
  | nil =>
    intro rest s' _ hsteps
    cases hsteps
    exact init
  | append_singleton done l ih =>
    intro rest s' split hsteps
    rw [append_assoc] at split
    obtain ⟨middle, before, now⟩ := steps_split hsteps
    rw [steps_singleton] at now
    exact next done l rest middle s' split (ih _ middle split before) now

/-- `ok` holds at every step of a run, of the state before it and its label. -/
def Through (step : σ → ℓ → Option σ) (ok : σ → ℓ → Prop) : σ → List ℓ → Prop
  | _, [] => True
  | s, l :: rest => ok s l ∧ ∀ s', step s l = some s' → Through step ok s' rest

instance Through.decidable {step : σ → ℓ → Option σ} {ok : σ → ℓ → Prop}
    [∀ s l, Decidable (ok s l)] : ∀ s labels, Decidable (Through step ok s labels)
  | _, [] => isTrue trivial
  | s, l :: rest =>
      match taken : step s l with
      | none => decidable_of_iff (ok s l) (by simp [Through, taken])
      | some s' =>
          have : Decidable (Through step ok s' rest) := Through.decidable s' rest
          decidable_of_iff (ok s l ∧ Through step ok s' rest) (by simp [Through, taken])

theorem through_cons {l : ℓ} {rest : List ℓ} (here : ok s l) (taken : step s l = some s')
    (later : Through step ok s' rest) : Through step ok s (l :: rest) := by
  refine ⟨here, fun s'' h => ?_⟩
  cases taken.symm.trans h
  exact later

theorem through_append (here : Through step ok s first) (taken : steps step s first = some s')
    (later : Through step ok s' second) : Through step ok s (first ++ second) := by
  induction first generalizing s with
  | nil =>
    cases taken
    exact later
  | cons l rest ih =>
    obtain ⟨middle, now, after⟩ := bind_eq_some_iff.mp taken
    exact through_cons here.1 now (ih (here.2 middle now) after)

theorem Through.of_append (h : Through step ok s (first ++ second)) : Through step ok s first := by
  induction first generalizing s with
  | nil => trivial
  | cons l rest ih => exact ⟨h.1, fun s' taken => ih (h.2 s' taken)⟩

theorem Through.of_mem {l : ℓ} (along : Through step ok s labels)
    (h : steps step s labels = some s') (mem : l ∈ labels) : ∃ t, ok t l := by
  induction labels generalizing s with
  | nil => cases mem
  | cons first rest ih =>
    obtain ⟨middle, now, later⟩ := bind_eq_some_iff.mp h
    rcases mem_cons.mp mem with rfl | mem
    · exact ⟨s, along.1⟩
    · exact ih (along.2 middle now) later mem

theorem through_of_forall (h : ∀ l ∈ labels, ∀ s, ok s l) : Through step ok s labels := by
  induction labels generalizing s with
  | nil => trivial
  | cons l rest ih =>
    exact ⟨h l mem_cons_self s, fun s' _ => ih (forall_mem_cons.mp h).2⟩

theorem steps_invariant_through (Inv : σ → Prop)
    (keep : ∀ s l s', Inv s → ok s l → step s l = some s' → Inv s') (init : Inv s)
    (along : Through step ok s labels) (h : steps step s labels = some s') : Inv s' := by
  induction labels generalizing s with
  | nil =>
    cases h
    exact init
  | cons l rest ih =>
    obtain ⟨middle, now, later⟩ := bind_eq_some_iff.mp h
    exact ih (keep s l middle init along.1 now) (along.2 middle now) later

theorem steps_invariant (Inv : σ → Prop) (P : ℓ → Prop)
    (keep : ∀ s l s', Inv s → P l → step s l = some s' → Inv s') (init : Inv s)
    (along : ∀ l ∈ labels, P l) (h : steps step s labels = some s') : Inv s' :=
  steps_invariant_through Inv keep init (through_of_forall fun l mem _ => along l mem) h

theorem steps_keeps (Inv : σ → Prop) (keep : ∀ s l s', Inv s → step s l = some s' → Inv s')
    (init : Inv s) (h : steps step s labels = some s') : Inv s' :=
  steps_invariant Inv (fun _ => True) (fun s l s' inv _ => keep s l s' inv) init
    (fun _ _ => trivial) h

/-- If every step changes a measure by its weight, a run changes it by the sum of its weights. -/
theorem steps_sum (Inv : σ → Prop) (measure : σ → Int) (weight : ℓ → Int)
    (keep : ∀ s l s', Inv s → ok s l → step s l = some s' →
      Inv s' ∧ measure s' = measure s + weight l)
    (init : Inv s) (along : Through step ok s labels) (h : steps step s labels = some s') :
    measure s' = measure s + (labels.map weight).sum := by
  induction labels generalizing s with
  | nil =>
    cases h
    exact (Int.add_zero _).symm
  | cons l rest ih =>
    obtain ⟨middle, now, later⟩ := bind_eq_some_iff.mp h
    obtain ⟨kept, moved⟩ := keep s l middle init along.1 now
    rw [ih kept (along.2 middle now) later, moved, map_cons, sum_cons, Int.add_assoc]

/-- The state has `Inv` after every first part of the run. -/
def Always (step : σ → ℓ → Option σ) (Inv : σ → Prop) (s : σ) (labels : List ℓ) : Prop :=
  ∀ first second middle, labels = first ++ second → steps step s first = some middle → Inv middle

theorem always_cons {l : ℓ} {rest : List ℓ} (taken : step s l = some s') :
    Always step Inv s (l :: rest) ↔ Inv s ∧ Always step Inv s' rest := by
  constructor
  · intro h
    refine ⟨h [] _ s rfl rfl, fun first second middle split hsteps => ?_⟩
    refine h (l :: first) second middle (by rw [split]; rfl) ?_
    rw [steps_cons, taken]
    exact hsteps
  · rintro ⟨now, later⟩ first second middle split hsteps
    cases first with
    | nil =>
      cases hsteps
      exact now
    | cons l' first =>
      cases split
      rw [steps_cons, taken] at hsteps
      exact later first second middle rfl hsteps

/-- What every step keeps under `ok` holds always, if `ok` holds at every step. -/
theorem always_of_through (Inv : σ → Prop)
    (keep : ∀ s l s', Inv s → ok s l → step s l = some s' → Inv s') (init : Inv s)
    (along : Through step ok s labels) : Always step Inv s labels := by
  rintro first second middle rfl h
  exact steps_invariant_through Inv keep init along.of_append h

theorem Always.imp {P Q : σ → Prop} (imp : ∀ s, P s → Q s) (always : Always step P s labels) :
    Always step Q s labels :=
  fun first second middle split h => imp middle (always first second middle split h)

/-- What every step keeps holds along any run, beside what holds of this one. -/
theorem Always.and (Aux : σ → Prop) (keep : ∀ s l s', Aux s → step s l = some s' → Aux s')
    (aux : Aux s) (always : Always step Inv s labels) :
    Always step (fun s => Aux s ∧ Inv s) s labels := by
  intro first second middle split reached
  refine ⟨?_, always first second middle split reached⟩
  exact steps_keeps Aux keep aux reached

/-- What follows from the invariant at a step holds at every step. -/
theorem Always.through (imp : ∀ s l, Inv s → ok s l) (always : Always step Inv s labels) :
    Through step ok s labels := by
  induction labels generalizing s with
  | nil => trivial
  | cons l rest ih =>
    refine ⟨imp s l (always [] (l :: rest) s rfl rfl), fun s' taken => ih ?_⟩
    exact ((always_cons taken).mp always).2

/-- The rule for an invariant that a step keeps exactly if `ok` holds of it. -/
theorem always_iff_through (Inv : σ → Prop)
    (keep : ∀ s l s', Inv s → step s l = some s' → (Inv s' ↔ ok s l)) (init : Inv s)
    (h : steps step s labels = some s') : Always step Inv s labels ↔ Through step ok s labels := by
  induction labels generalizing s with
  | nil =>
    refine iff_of_true (fun first second middle split hsteps => ?_) trivial
    rw [(append_eq_nil_iff.mp split.symm).1] at hsteps
    cases hsteps
    exact init
  | cons l rest ih =>
    obtain ⟨middle, now, later⟩ := bind_eq_some_iff.mp h
    rw [always_cons now, and_iff_right init]
    constructor
    · intro always
      have kept : Inv middle := always [] rest middle rfl rfl
      exact through_cons ((keep s l middle init now).mp kept) now ((ih kept later).mp always)
    · rintro ⟨ok, through⟩
      have kept := (keep s l middle init now).mpr ok
      exact (ih kept later).mpr (through middle now)

/-- Where every step can be taken, every run can. -/
theorem steps_total (Aux : σ → Prop) (keep : ∀ s l s', Aux s → step s l = some s' → Aux s')
    (total : ∀ s l, Aux s → ∃ s', step s l = some s') (aux : Aux s) (labels : List ℓ) :
    ∃ s', steps step s labels = some s' := by
  induction labels generalizing s with
  | nil => exact ⟨s, rfl⟩
  | cons l rest ih =>
    obtain ⟨middle, now⟩ := total s l aux
    obtain ⟨s', later⟩ := ih (keep s l middle aux now)
    exact ⟨s', bind_eq_some_iff.mpr ⟨middle, now, later⟩⟩

/-- `always_iff_through` with a second invariant, which every step keeps and under which every step
can be taken. -/
theorem always_iff_through_of (Aux Inv : σ → Prop)
    (keepAux : ∀ s l s', Aux s → step s l = some s' → Aux s')
    (total : ∀ s l, Aux s → ∃ s', step s l = some s')
    (keep : ∀ s l s', Aux s → Inv s → step s l = some s' → (Inv s' ↔ ok s l)) (aux : Aux s)
    (init : Inv s) : Always step Inv s labels ↔ Through step ok s labels := by
  obtain ⟨s', run⟩ := steps_total Aux keepAux total aux labels
  have both : Always step (fun s => Aux s ∧ Inv s) s labels ↔ Through step ok s labels := by
    refine always_iff_through _ (fun s l s' h taken => ?_) ⟨aux, init⟩ run
    rw [and_iff_right (keepAux s l s' h.1 taken)]
    exact keep s l s' h.1 h.2 taken
  rw [← both]
  exact ⟨Always.and Aux keepAux aux, Always.imp fun _ h => h.2⟩

section Outputs

variable {β : Type}

/-- What the steps of a run put out, in order; `out s l` is what the step `l` puts out in `s`. -/
def outputs (step : σ → ℓ → Option σ) (out : σ → ℓ → Option β) : σ → List ℓ → List β
  | _, [] => []
  | s, l :: rest =>
      (out s l).toList ++ match step s l with
        | none => []
        | some s' => outputs step out s' rest

variable {out : σ → ℓ → Option β}

theorem outputs_cons {s s' : σ} {l : ℓ} (taken : step s l = some s') (rest : List ℓ) :
    outputs step out s (l :: rest) = (out s l).toList ++ outputs step out s' rest := by
  simp only [outputs, taken]

/-- What holds of every output in a state with the invariant, holds of all outputs of a run. -/
theorem outputs_invariant (Inv : σ → Prop) {P : β → Prop}
    (keep : ∀ s l s', Inv s → step s l = some s' → Inv s')
    (puts : ∀ s l b, Inv s → out s l = some b → P b) {s : σ} {labels : List ℓ} (init : Inv s) :
    ∀ b ∈ outputs step out s labels, P b := by
  induction labels generalizing s with
  | nil => nofun
  | cons l rest ih =>
    intro b mem
    rw [outputs, mem_append, mem_toList] at mem
    rcases mem with now | later
    · exact puts s l b init now
    · cases taken : step s l with
      | none =>
        rw [taken] at later
        cases later
      | some s' =>
        rw [taken] at later
        exact ih (keep s l s' init taken) b later

end Outputs

theorem of_update {ι β : Type} [DecidableEq ι] {f : ι → β} {i j : ι} {b c : β}
    (h : update f i b j = c) : j = i ∧ b = c ∨ j ≠ i ∧ f j = c := by
  by_cases here : j = i
  · rw [here, update_self] at h
    exact .inl ⟨here, h⟩
  · rw [update_of_ne here] at h
    exact .inr ⟨here, h⟩

end SingBox.Lib
