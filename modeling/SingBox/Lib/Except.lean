/-!
# Results that may be errors

* `bind_eq_ok`, `map_eq_ok` — when both steps of a computation succeed.
-/

namespace SingBox.Lib

variable {ε α β : Type} {x : Except ε α} {b : β}

theorem bind_eq_ok {f : α → Except ε β} :
    (x >>= f) = .ok b ↔ ∃ a, x = .ok a ∧ f a = .ok b := by
  cases x with
  | error err | ok a => simp [bind, Except.bind]

theorem map_eq_ok {f : α → β} : x.map f = .ok b ↔ ∃ a, x = .ok a ∧ f a = b := by
  cases x with
  | error err | ok a => simp [Except.map]

end SingBox.Lib
