import Mathlib.Data.List.MinMax

/-!
# The longest match, and the longest match that has a label

A scan that keeps the first of the longest items finds `List.argmax`; the last of them is
that of the reversed list. When only items with a label are scanned, what is found need not
be the label of the last longest item of all: that one may have no label, or an earlier item
of its length another one.

* `foldl_longer` — the scan finds the first longest item;
* `labelOfFirst_eq_iff` — when the label found is that of the last longest item.
-/

namespace SingBox.Lib

open List Option

variable {α β γ ω : Type} [LinearOrder ω]

/-- A turn of the scan: `value` and weight of the best item so far. -/
def longer (fits : α → Bool) (weight : α → ω) (value : α → β) (best : β × ω) (a : α) :
    β × ω :=
  if weight a > best.2 && fits a then (value a, weight a) else best

/-- The scan starts at a weight below those of all items that fit. -/
theorem foldl_longer {fits : α → Bool} {weight : α → ω} (value : α → β) {bottom : ω}
    (above : ∀ a, fits a = true → bottom < weight a) (start : β) (l : List α) :
    l.foldl (longer fits weight value) (start, bottom) =
      (((l.filter fits).argmax weight).map fun a => (value a, weight a)).getD (start, bottom) := by
  induction l using reverseRecOn with
  | nil => rfl
  | append_singleton l a ih =>
    rw [foldl_append, ih, filter_append]
    cases fit : fits a with
    | false => simp [longer, fit]
    | true =>
      simp only [foldl_cons, foldl_nil, filter_cons_of_pos fit, filter_nil,
        argmax_concat, longer, fit, Bool.and_true]
      cases (l.filter fits).argmax weight with
      | none =>
        simp only [map_none, getD_none, map_some, getD_some]
        rw [if_pos (decide_eq_true (above a fit))]
      | some best =>
        simp only [map_some, getD_some, decide_eq_true_eq]
        split_ifs <;> rfl

section Labels

variable (weight : α → ω) (label : α → Option γ) (l : List α)

/-- The label of the first longest item of those that have one. -/
def labelOfFirst : Option γ :=
  ((l.filter fun a => (label a).isSome).argmax weight).bind label

/-- The last longest item, which has a label or not. -/
def lastLongest : Option α := l.reverse.argmax weight

/-- The label of the last longest item is not lost, and that of no other item is found. -/
def LabelsAgree : Prop :=
  ∀ owner, lastLongest weight l = some owner →
    match label owner with
    | none => ∀ a ∈ l, label a = none
    | some n => (l.find? fun a => (label a).isSome && weight a == weight owner).bind label = some n

variable {weight label l}

/-- The first longest item is the first one of its weight. -/
theorem find?_of_argmax {m : α} (h : l.argmax weight = some m) :
    l.find? (fun a => weight a == weight m) = some m := by
  induction l with
  | nil => cases h
  | cons a rest ih =>
    rw [argmax_cons] at h
    cases later : rest.argmax weight with
    | none =>
      rw [later] at h
      cases h
      simp
    | some c =>
      rw [later] at h
      dsimp only at h
      split_ifs at h with less
      · cases h
        rw [find?_cons_of_neg (by simpa using less.ne)]
        exact ih later
      · cases h
        simp

theorem lastLongest_spec {owner : α} (h : lastLongest weight l = some owner) :
    owner ∈ l ∧ ∀ a ∈ l, weight a ≤ weight owner :=
  ⟨mem_reverse.mp (argmax_mem h), fun _ mem => le_of_mem_argmax (mem_reverse.mpr mem) h⟩

theorem labelOfFirst_eq_none : labelOfFirst weight label l = none ↔ ∀ a ∈ l, label a = none := by
  unfold labelOfFirst
  constructor
  · intro none a mem
    by_contra labelled
    have inside : a ∈ l.filter fun a => (label a).isSome :=
      mem_filter.mpr ⟨mem, isSome_iff_ne_none.mpr labelled⟩
    cases found : (l.filter fun a => (label a).isSome).argmax weight with
    | none =>
      rw [argmax_eq_none.mp found] at inside
      cases inside
    | some b =>
      rw [found] at none
      have labelled' := (mem_filter.mp (argmax_mem found)).2
      rw [bind_some] at none
      rw [none] at labelled'
      cases labelled'
  · intro unlabelled
    have empty : (l.filter fun a => (label a).isSome) = [] := by
      rw [filter_eq_nil_iff]
      intro a mem
      simp [unlabelled a mem]
    rw [empty]
    rfl

/-- When the last longest item has a label, the first item of its weight with a label is
found. -/
theorem labelOfFirst_of_some {owner : α} {n : γ} (h : lastLongest weight l = some owner)
    (labelled : label owner = some n) :
    labelOfFirst weight label l =
      (l.find? fun a => (label a).isSome && weight a == weight owner).bind label := by
  obtain ⟨mem, longest⟩ := lastLongest_spec h
  have inside : owner ∈ l.filter fun a => (label a).isSome :=
    mem_filter.mpr ⟨mem, by simp [labelled]⟩
  unfold labelOfFirst
  cases found : (l.filter fun a => (label a).isSome).argmax weight with
  | none =>
    rw [argmax_eq_none.mp found] at inside
    cases inside
  | some first =>
    have same : weight first = weight owner :=
      le_antisymm (longest first (mem_filter.mp (argmax_mem found)).1)
        (le_of_mem_argmax inside found)
    have isFirst := find?_of_argmax found
    rw [find?_filter] at isFirst
    simp only [same, Bool.decide_and, Bool.decide_eq_true] at isFirst
    rw [isFirst]

/-- When the label that is found is the label of the last longest item. -/
theorem labelOfFirst_eq_iff :
    labelOfFirst weight label l = (lastLongest weight l).bind label ↔
      LabelsAgree weight label l := by
  unfold LabelsAgree
  cases h : lastLongest weight l with
  | none =>
    have empty : l = [] := reverse_eq_nil_iff.mp (argmax_eq_none.mp h)
    subst empty
    exact iff_of_true rfl nofun
  | some owner =>
    simp only [bind_some, some.injEq, forall_eq']
    cases labelled : label owner with
    | none => exact labelOfFirst_eq_none
    | some n => rw [labelOfFirst_of_some h labelled]

/-- The same, for a label that is only not to be a wrong one. -/
theorem labelOfFirst_only_iff :
    (∀ n, labelOfFirst weight label l = some n → (lastLongest weight l).bind label = some n) ↔
      LabelsAgree weight label l := by
  rw [← labelOfFirst_eq_iff]
  constructor
  · intro only
    cases found : labelOfFirst weight label l with
    | some n => exact (only n found).symm
    | none =>
      have unlabelled := labelOfFirst_eq_none.mp found
      cases h : lastLongest weight l with
      | none => rfl
      | some owner => exact (unlabelled owner (lastLongest_spec h).1).symm
  · intro same n found
    rw [← same, found]

end Labels

end SingBox.Lib
