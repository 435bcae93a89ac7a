import Mathlib.Data.List.Count
import Mathlib.Logic.Function.Iterate

/-!
# A table of dependents

The table has, for every key, the list of those that depend on it. Who comes adds itself to the
list of each of its dependencies; who goes takes itself out of them, where a list of length one is
taken to hold no one else.

* `mem_depend` — who is in a list after someone came;
* `undepend_apply` — every mention of a key among the dependencies is one turn on its list;
* `iterate_turn` — what the turns leave of a list the one who goes is in.
-/

namespace SingBox.Lib

open Function List

variable {α : Type} [DecidableEq α]

/-- `a` adds itself to the list of each dependency, once for every mention. -/
def depend (a : α) (dependencies : List α) (table : α → List α) : α → List α :=
  dependencies.foldl (fun table d => update table d (table d ++ [a])) table

/-- `a` leaves one list: a list of length one is emptied, another one filtered. -/
def turn (a : α) (dependents : List α) : List α :=
  if dependents.length = 1 then [] else dependents.filter (· ≠ a)

/-- `a` leaves the list of each dependency, once for every mention. -/
def undepend (a : α) (dependencies : List α) (table : α → List α) : α → List α :=
  dependencies.foldl (fun table d => update table d (turn a (table d))) table

variable {a : α} {dependents : List α}

theorem mem_depend {dependencies : List α} {table : α → List α} {x d : α} :
    x ∈ depend a dependencies table d ↔ x ∈ table d ∨ x = a ∧ d ∈ dependencies := by
  induction dependencies generalizing table with
  | nil => simp [depend]
  | cons first rest ih =>
    have unfolded : depend a (first :: rest) table =
        depend a rest (update table first (table first ++ [a])) := rfl
    rw [unfolded, ih]
    by_cases same : d = first
    · subst same
      simp only [update_self, mem_append, mem_cons]
      tauto
    · simp [same]

theorem undepend_apply (a : α) (dependencies : List α) (table : α → List α) (d : α) :
    undepend a dependencies table d = (turn a)^[dependencies.count d] (table d) := by
  induction dependencies generalizing table with
  | nil => rfl
  | cons first rest ih =>
    have unfolded : undepend a (first :: rest) table =
        undepend a rest (update table first (turn a (table first))) := rfl
    rw [unfolded, ih]
    by_cases same : first = d
    · subst same
      rw [update_self, count_cons_self, iterate_succ_apply]
    · rw [update_of_ne (Ne.symm same), count_cons_of_ne same]

theorem turn_of_mem (mem : a ∈ dependents) : turn a dependents = dependents.filter (· ≠ a) := by
  unfold turn
  split
  case isTrue one =>
    obtain ⟨x, only⟩ := length_eq_one_iff.mp one
    rw [only, mem_singleton] at mem
    simp [only, mem]
  case isFalse => rfl

/-- A further turn does nothing, unless it empties a list with someone else in it. -/
theorem turn_of_notMem (other : a ∉ dependents) :
    turn a dependents = if dependents.length = 1 then [] else dependents := by
  have kept : dependents.filter (· ≠ a) = dependents :=
    filter_eq_self.mpr fun x mem => decide_eq_true fun same => other (same ▸ mem)
  rw [turn, kept]

theorem iterate_turn (mem : a ∈ dependents) (n : Nat) :
    (turn a)^[n + 1] dependents =
      if 0 < n ∧ (dependents.filter (· ≠ a)).length = 1 then []
      else dependents.filter (· ≠ a) := by
  induction n with
  | zero => simp [turn_of_mem mem]
  | succ n ih =>
    rw [iterate_succ_apply', ih]
    by_cases one : (dependents.filter (· ≠ a)).length = 1
    · rw [if_pos (⟨Nat.succ_pos n, one⟩ : 0 < n + 1 ∧ _)]
      split
      · rfl
      · rw [turn, if_pos one]
    · rw [if_neg fun h => one h.2, if_neg fun h => one h.2, turn_of_notMem (by simp), if_neg one]

end SingBox.Lib
