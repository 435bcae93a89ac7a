import SingBox.Lib.Except
import SingBox.Lib.System

/-!
# Updates that are validated first and committed later

Some cells have values. An update of one cell is validated against the values that the others
have at that moment, and committed later, when they may have others. Updates of several cells
may be under way at once.

* `Separable` — a condition on all cells that can be decided cell by cell; `Uniform` — a
  computation whose success is such a condition;
* `separable_invariant` — such a condition holds after every run, whatever the interleaving;
* `undisturbed_invariant` — any condition holds after a run in which no other cell changed
  between the validation and the commit of an update.
-/

namespace SingBox.Lib.Optimistic

open Lib

variable {ι α : Type}

/-! ## Conditions on all cells -/

/-- Values taken from two families that meet the condition meet it. -/
def Separable (P : (ι → α) → Prop) : Prop :=
  ∀ f g h, P f → P g → (∀ i, h i = f i ∨ h i = g i) → P h

namespace Separable

theorem const (p : Prop) : Separable fun _ : ι → α => p := fun _ _ _ hp _ _ => hp

theorem single (i : ι) (p : α → Prop) : Separable fun f : ι → α => p (f i) := by
  intro f g h hf hg mixed
  rcases mixed i with eq | eq
  · rw [eq]
    exact hf
  · rw [eq]
    exact hg

theorem and {P Q : (ι → α) → Prop} (hP : Separable P) (hQ : Separable Q) :
    Separable fun f => P f ∧ Q f :=
  fun f g h hf hg mixed => ⟨hP f g h hf.1 hg.1 mixed, hQ f g h hf.2 hg.2 mixed⟩

theorem forall_mem {β : Type} {items : List β} {P : β → (ι → α) → Prop}
    (hP : ∀ item ∈ items, Separable (P item)) : Separable fun f => ∀ item ∈ items, P item f :=
  fun f g h hf hg mixed item mem => hP item mem f g h (hf item mem) (hg item mem) mixed

/-- The cells may be read through a function of each. -/
theorem comp {β : Type} {P : (ι → β) → Prop} (hP : Separable P) (read : ι → α → β) :
    Separable fun f : ι → α => P fun i => read i (f i) := by
  intro f g h hf hg mixed
  refine hP _ _ _ hf hg fun i => ?_
  rcases mixed i with eq | eq
  · exact .inl (congrArg (read i) eq)
  · exact .inr (congrArg (read i) eq)

/-- A value that was acceptable among others is acceptable among these. -/
theorem update [DecidableEq ι] {P : (ι → α) → Prop} (hP : Separable P) {f g : ι → α} {i : ι}
    {a : α} (hf : P f) (hg : P (Function.update g i a)) : P (Function.update f i a) := by
  refine hP f (Function.update g i a) _ hf hg fun j => ?_
  by_cases same : j = i
  · subst same
    rw [Function.update_self, Function.update_self]
    exact .inr rfl
  · rw [Function.update_of_ne same]
    exact .inl rfl

end Separable

/-- A computation that fails by looking at one cell after the other, and returns the same
whenever it does not fail. -/
def Uniform {ε β : Type} (F : (ι → α) → Except ε β) : Prop :=
  ∀ f g h a b, F f = .ok a → F g = .ok b → (∀ i, h i = f i ∨ h i = g i) → a = b ∧ F h = .ok a

namespace Uniform

variable {ε β γ : Type}

theorem const (result : Except ε β) : Uniform fun _ : ι → α => result := by
  intro f g h a b hf hg _
  refine ⟨?_, hf⟩
  cases hf.symm.trans hg
  rfl

theorem single (i : ι) (check : α → Except ε Unit) : Uniform fun f : ι → α => check (f i) := by
  intro f g h a b hf hg mixed
  exact ⟨rfl, Separable.single i (fun x => check x = .ok a) f g h hf hg mixed⟩

theorem ite (c : Prop) [Decidable c] {F G : (ι → α) → Except ε β} (hF : Uniform F)
    (hG : Uniform G) : Uniform fun f => if c then F f else G f := by
  by_cases h : c
  · simpa only [if_pos h] using hF
  · simpa only [if_neg h] using hG

/-- Only what is returned counts, not the errors. -/
theorem congr {F G : (ι → α) → Except ε β} (same : ∀ f b, F f = .ok b ↔ G f = .ok b)
    (hF : Uniform F) : Uniform G := by
  intro f g h a b hf hg mixed
  obtain ⟨eq, result⟩ := hF f g h a b ((same f a).mpr hf) ((same g b).mpr hg) mixed
  exact ⟨eq, (same h a).mp result⟩

theorem bind {F : (ι → α) → Except ε β} {G : β → (ι → α) → Except ε γ} (hF : Uniform F)
    (hG : ∀ b, Uniform (G b)) : Uniform fun f => F f >>= fun b => G b f := by
  intro f g h a b hf hg mixed
  obtain ⟨x, first, hf⟩ := bind_eq_ok.mp hf
  obtain ⟨y, second, hg⟩ := bind_eq_ok.mp hg
  obtain ⟨same, third⟩ := hF f g h x y first second mixed
  subst same
  obtain ⟨eq, result⟩ := hG x f g h a b hf hg mixed
  exact ⟨eq, bind_eq_ok.mpr ⟨x, third, result⟩⟩

theorem separable {F : (ι → α) → Except ε β} (hF : Uniform F) (b : β) :
    Separable fun f => F f = .ok b :=
  fun f g h hf hg mixed => (hF f g h b b hf hg mixed).2

end Uniform

/-! ## Updates under way -/

/-- An update that was validated, with the values that its validation read. -/
structure Update (ι α : Type) where
  cell : ι
  value : α
  read : ι → α

structure State (ι α : Type) where
  committed : ι → α
  pending : Nat → Option (Update ι α)

def State.start (committed : ι → α) : State ι α := ⟨committed, fun _ => none⟩

inductive Label (ι α : Type) where
  | validate (id : Nat) (cell : ι) (value : α)
  | commit (id : Nat)

variable [DecidableEq ι]

def step (accepts : (ι → α) → ι → α → Bool) (s : State ι α) : Label ι α → Option (State ι α)
  | .validate id cell value =>
      if accepts s.committed cell value then
        some { s with
          pending := Function.update s.pending id (some ⟨cell, value, s.committed⟩) }
      else some s
  | .commit id =>
      match s.pending id with
      | none => none
      | some update =>
          some ⟨Function.update s.committed update.cell update.value,
            Function.update s.pending id none⟩

/-- No other cell has changed since the update was validated. -/
def Undisturbed (s : State ι α) : Label ι α → Prop
  | .validate _ _ _ => True
  | .commit id => ∀ update, s.pending id = some update →
      ∀ cell, cell ≠ update.cell → s.committed cell = update.read cell

variable {accepts : (ι → α) → ι → α → Bool}

/-- What is accepted makes the condition true of the values that the validation read. -/
structure Inv (P : (ι → α) → Prop) (s : State ι α) : Prop where
  holds : P s.committed
  pending : ∀ id update, s.pending id = some update →
    P (Function.update update.read update.cell update.value)

variable {P : (ι → α) → Prop}

variable {committed : ι → α} {s : State ι α}

theorem Inv.start (init : P committed) : Inv P (State.start committed) := by
  refine ⟨init, fun id update isPending => ?_⟩
  cases isPending

/-- The step lemma: a commit is to keep the condition. -/
theorem Inv.step
    (sound : ∀ f cell value, accepts f cell value = true → P (Function.update f cell value))
    {s' : State ι α} {label : Label ι α} (inv : Inv P s)
    (commits : ∀ id update, label = .commit id → s.pending id = some update →
      P (Function.update s.committed update.cell update.value))
    (taken : Optimistic.step accepts s label = some s') : Inv P s' := by
  cases label with
  | validate id cell value =>
    simp only [Optimistic.step] at taken
    split_ifs at taken with accepted
    · cases taken
      refine ⟨inv.holds, fun id' update isPending => ?_⟩
      rcases of_update isPending with ⟨-, ⟨⟩⟩ | ⟨-, old⟩
      · exact sound _ _ _ accepted
      · exact inv.pending id' update old
    · cases taken
      exact inv
  | commit id =>
    simp only [Optimistic.step] at taken
    split at taken
    · cases taken
    rename_i update isPending
    cases taken
    refine ⟨commits id update rfl isPending, fun id' update' isPending' => ?_⟩
    rcases of_update isPending' with ⟨-, ⟨⟩⟩ | ⟨-, old⟩
    exact inv.pending id' update' old

theorem separable_invariant (separable : Separable P)
    (sound : ∀ f cell value, accepts f cell value = true → P (Function.update f cell value))
    {labels : List (Label ι α)} (init : P committed)
    (run : steps (step accepts) (.start committed) labels = some s) : P s.committed := by
  refine (steps_keeps (Inv P) ?_ (.start init) run).holds
  intro s label s' inv taken
  refine inv.step sound (fun id update _ isPending => ?_) taken
  exact separable.update inv.holds (inv.pending id update isPending)

theorem undisturbed_invariant
    (sound : ∀ f cell value, accepts f cell value = true → P (Function.update f cell value))
    {labels : List (Label ι α)} (init : P committed)
    (undisturbed : Through (step accepts) Undisturbed (.start committed) labels)
    (run : steps (step accepts) (.start committed) labels = some s) : P s.committed := by
  refine (steps_invariant_through (Inv P) ?_ (.start init) undisturbed run).holds
  intro s label s' inv quiet taken
  refine inv.step sound (fun id update isCommit isPending => ?_) taken
  subst isCommit
  -- but for the cell itself, the values are those that were read
  have same : Function.update s.committed update.cell update.value =
      Function.update update.read update.cell update.value := by
    funext cell
    by_cases here : cell = update.cell
    · rw [here, Function.update_self, Function.update_self]
    · rw [Function.update_of_ne here, Function.update_of_ne here]
      exact quiet update isPending cell here
  rw [same]
  exact inv.pending id update isPending

end SingBox.Lib.Optimistic
