import Mathlib.Order.Interval.Finset.Nat

/-!
# A pool whose members are given out in turn

A name that has no member of the pool gets the next one, and the name that had it before
loses it. Two tables say which name has which member, in either direction; one of them may be
shared with other pools.

* `InverseOn.store` — the tables stay inverse to each other if the name had no member;
* `nodup_of_infix_cycle` — of a cycle, no more members than it has in a row are distinct.
-/

namespace SingBox.Lib

open Function List Option

variable {α β : Type}

/-! ## Two tables -/

/-- On the members of a pool, which are those with `P`, the two tables are inverse. -/
def InverseOn (P : β → Prop) (f : α → Option β) (g : β → Option α) : Prop :=
  ∀ a b, f a = some b ↔ P b ∧ g b = some a

section Tables

variable [DecidableEq α] {P : β → Prop} {f : α → Option β} {g : β → Option α}

/-- Take the member away from the name that has it. -/
def forget (old : Option α) (f : α → Option β) : α → Option β :=
  match old with
  | some a => update f a none
  | none => f

theorem forget_cases (old : Option α) (f : α → Option β) (a : α) :
    forget old f a = none ∧ old = some a ∨ forget old f a = f a ∧ old ≠ some a := by
  cases old with
  | none => exact .inr ⟨rfl, nofun⟩
  | some o =>
    by_cases h : a = o
    · exact .inl ⟨h ▸ update_self .., congrArg some h.symm⟩
    · exact .inr ⟨update_of_ne h .., fun same => h (some.inj same).symm⟩

variable [DecidableEq β]

theorem InverseOn.store (inv : InverseOn P f g) {a : α} {b : β} (free : f a = none) (hb : P b) :
    InverseOn P (update (forget (g b) f) a (some b)) (update g b (some a)) := by
  intro a' b'
  by_cases same : a' = a
  · subst same
    rw [update_self, some.injEq]
    constructor
    · rintro rfl
      exact ⟨hb, update_self ..⟩
    · rintro ⟨hb', given⟩
      by_contra ne
      rw [update_of_ne (Ne.symm ne)] at given
      -- no other member is given to a name that had none
      rw [(inv a' b').mpr ⟨hb', given⟩] at free
      cases free
  · rw [update_of_ne same]
    by_cases member : b' = b
    · subst member
      rw [update_self, some.injEq]
      refine iff_of_false ?_ fun h => same h.2.symm
      rcases forget_cases (g b') f a' with ⟨lost, _⟩ | ⟨kept, ne⟩
      · simp [lost]
      · rw [kept]
        exact fun h => ne ((inv a' b').mp h).2
    · rw [update_of_ne member]
      rcases forget_cases (g b) f a' with ⟨lost, old⟩ | ⟨kept, _⟩
      · -- the name that loses its member had no other one
        rw [lost]
        refine iff_of_false nofun fun h => member ?_
        have here := (inv a' b').mpr h
        rw [(inv a' b).mpr ⟨hb, old⟩] at here
        exact (some.inj here).symm
      · rw [kept]
        exact inv a' b'

omit [DecidableEq α] in
theorem InverseOn.store_other (inv : InverseOn P f g) {a : α} {b : β} (hb : ¬ P b) :
    InverseOn P f (update g b (some a)) := by
  intro a' b'
  rw [inv a' b']
  refine and_congr_right fun hb' => ?_
  have ne : b' ≠ b := by
    rintro rfl
    exact hb hb'
  rw [update_of_ne ne]

end Tables

/-! ## A cycle -/

/-- A part of what is given out from one place on is what is given out from a later one. -/
theorem infix_map_range' {f : Nat → β} {first n : Nat} {window : List β}
    (h : window <:+: (range' first n).map f) :
    ∃ first', window = (range' first' window.length).map f := by
  obtain ⟨before, after, split⟩ := h
  obtain ⟨l, right, isRange, isWindow, _⟩ := map_eq_append_iff.mp split.symm
  obtain ⟨left, middle, isLeft, _, isMiddle⟩ := map_eq_append_iff.mp isWindow
  subst isLeft
  rw [append_assoc] at isRange
  obtain ⟨k, _, _, isRight⟩ := range'_eq_append_iff.mp isRange
  obtain ⟨k', _, isPart, _⟩ := range'_eq_append_iff.mp isRight.symm
  refine ⟨first + k, ?_⟩
  have length : window.length = k' := by
    rw [← isMiddle, isPart, length_map, length_range']
  rw [length, ← isMiddle, isPart, Nat.mul_one]

/-- The members of a cycle of length `m` are distinct as long as it has not come round. -/
theorem nodup_of_infix_cycle {f : Nat → β} {m first n : Nat} {window : List β}
    (cycle : ∀ i j, f i = f j → i % m = j % m)
    (h : window <:+: (range' first n).map f) (short : window.length ≤ m) : window.Nodup := by
  obtain ⟨first', isRange⟩ := infix_map_range' h
  rw [isRange]
  refine Nodup.map_on ?_ (nodup_range' 1)
  intro i hi j hj same
  rw [mem_range'_1] at hi hj
  refine Nat.mod_injOn_Ico first' m ?_ ?_ (cycle i j same) <;>
  · rw [Finset.coe_Ico, Set.mem_Ico]
    omega

end SingBox.Lib
