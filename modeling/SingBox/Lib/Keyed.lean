import Mathlib.Data.List.Induction

/-!
# Maps built from lists

A Go map filled in a loop keeps the last element of each key. As a list this is a
fold that drops the element a new one replaces.
-/

namespace SingBox.Lib

open List

variable {α β : Type} [DecidableEq β]

theorem foldl_replace (key : α → β) {items : List α} (nodup : (items.map key).Nodup) :
    items.foldl (fun m item => m.filter (fun other => key other ≠ key item) ++ [item]) [] =
      items := by
  induction items using reverseRecOn with
  | nil => rfl
  | append_singleton items item ih =>
    rw [map_append, nodup_append] at nodup
    have fresh : items.filter (fun other => key other ≠ key item) = items := by
      rw [filter_eq_self]
      intro other mem
      simpa using nodup.2.2 _ (mem_map_of_mem mem) (key item) mem_cons_self
    rw [foldl_append, ih nodup.1, foldl_cons, foldl_nil, fresh]

end SingBox.Lib
