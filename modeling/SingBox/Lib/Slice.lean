import SingBox.Lib.Bytes

/-!
# Slices with a length and a capacity

A slice shows the first bytes of an array. An index is held to its length, but the upper end of
a slice expression only to its capacity, so that an expression that is taken in may still reach
past the length. Both readings are here: `Bound.capacity` is what is executed, `Bound.length`
is the one under which nothing outside the slice is read.

* `Satisfies Q r` — `r` is no panic, and what it returns meets `Q`;
* `Safe f Q` — under both readings `f` does the same, without a panic, and what it returns
  meets `Q`;
* `Safe.bind` and a rule for each operation put such facts together.
-/

namespace SingBox.Lib

open List

/-- What the upper end of a slice expression is held to. -/
inductive Bound where
  | length
  | capacity
  deriving DecidableEq

/-- How a computation ends without a result. -/
inductive Stop (ε : Type) where
  | error (err : ε)
  | panic
  deriving DecidableEq

/-- An array up to the capacity of the slice, and how many of its bytes the slice has. -/
structure Slice where
  array : Bytes
  len : Nat
  len_le : len ≤ array.length

variable {ε α β : Type}

/-- A function that returns an error and does not panic. -/
def liftError : Except ε α → Except (Stop ε) α
  | .ok a => .ok a
  | .error err => .error (.error err)

theorem liftError_eq_ok {x : Except ε α} {a : α} : liftError x = .ok a ↔ x = .ok a := by
  cases x <;> simp [liftError]

namespace Slice

/-- The bytes as a slice without further capacity. -/
def ofBytes (bytes : Bytes) : Slice := ⟨bytes, bytes.length, Nat.le_refl _⟩

variable (s : Slice)

def bytes : Bytes := s.array.take s.len

@[simp] theorem length_bytes : s.bytes.length = s.len := by
  rw [bytes, length_take, Nat.min_eq_left s.len_le]

/-- How far a slice expression may reach. -/
def limit : Bound → Nat
  | .length => s.len
  | .capacity => s.array.length

variable (bound : Bound)

theorem limit_le : s.limit bound ≤ s.array.length := by
  cases bound
  · exact s.len_le
  · exact Nat.le_refl _

theorem le_limit : s.len ≤ s.limit bound := by
  cases bound
  · exact Nat.le_refl _
  · exact s.len_le

/-- The index expression `s[i]`. -/
def index (i : Nat) : Except (Stop ε) UInt8 :=
  match s.bytes[i]? with
  | some b => .ok b
  | none => .error .panic

theorem exists_index {i : Nat} (h : i < s.len) :
    ∃ b, (s.index i : Except (Stop ε) UInt8) = .ok b := by
  rw [index, getElem?_eq_getElem (by rwa [length_bytes])]
  exact ⟨_, rfl⟩

/-- `s[i] = b`. -/
def set (s : Slice) (i : Nat) (b : UInt8) : Except (Stop ε) Slice :=
  if i < s.len then .ok ⟨s.array.set i b, s.len, by rw [length_set]; exact s.len_le⟩
  else .error .panic

/-- The slice expression `s[low:high]`. -/
def slice (bound : Bound) (s : Slice) (low high : Nat) : Except (Stop ε) Slice :=
  if h : low ≤ high ∧ high ≤ s.limit bound then
    .ok ⟨s.array.drop low, high - low, by
      rw [length_drop]
      exact Nat.sub_le_sub_right (Nat.le_trans h.2 (s.limit_le bound)) low⟩
  else .error .panic

/-- The array with other bytes from some place on. -/
def overwrite (i : Nat) (bytes : Bytes) : Slice :=
  ⟨s.array.take i ++ bytes ++ s.array.drop (i + bytes.length), s.len, by
    have le := s.len_le
    simp only [length_append, length_take, length_drop]
    omega⟩

/-- Read a number off the front. -/
def readUint (width : Nat) : Except (Stop ε) Nat :=
  if width ≤ s.len then .ok (uint (s.bytes.take width)) else .error .panic

/-- A slice is a part of another, from some offset on. -/
structure At (s t : Slice) (offset : Nat) : Prop where
  array : t.array = s.array.drop offset
  inside : offset + t.len ≤ s.len

theorem At.refl : s.At s 0 := ⟨rfl, by rw [Nat.zero_add]⟩

section

variable {s t : Slice} {offset : Nat} (h : s.At t offset)
include h

theorem At.trans {u : Slice} {more : Nat} (inner : t.At u more) : s.At u (offset + more) :=
  ⟨by rw [inner.array, h.array, drop_drop], by have := h.inside; have := inner.inside; omega⟩

theorem At.bytes : t.bytes = (s.bytes.drop offset).take t.len := by
  have inside := h.inside
  rw [Slice.bytes, Slice.bytes, h.array, drop_take, take_take]
  congr 1
  omega

/-- A slice expression inside of a part. -/
theorem At.slice {low high : Nat} (le : low ≤ high) (inside : high ≤ t.len) (bound : Bound) :
    ∃ u, (t.slice bound low high : Except (Stop ε) Slice) = .ok u ∧
      s.At u (offset + low) ∧ u.len = high - low := by
  refine ⟨_, dif_pos ⟨le, Nat.le_trans inside (t.le_limit bound)⟩, ⟨?_, ?_⟩, rfl⟩
  · show t.array.drop low = s.array.drop (offset + low)
    rw [h.array, drop_drop]
  · have whole := h.inside
    show offset + low + (high - low) ≤ s.len
    omega

end

theorem slice_all :
    (s.slice bound 0 s.len : Except (Stop ε) Slice) = .ok s :=
  dif_pos ⟨Nat.zero_le _, s.le_limit bound⟩

end Slice

/-! ## The same under both bounds -/

/-- The result is as `Q` says or an error. -/
def Satisfies (Q : α → Prop) : Except (Stop ε) α → Prop
  | .ok a => Q a
  | .error (.error _) => True
  | .error .panic => False

variable {r : Except (Stop ε) α} {s : Slice} {low high : Nat}

theorem Satisfies.ne_panic {Q : α → Prop} (h : Satisfies Q r) : r ≠ .error .panic := by
  rintro rfl
  exact h

namespace Satisfies

variable {Q : α → Prop} {r : Except (Stop ε) α} {s : Slice}

theorem ok {a : α} (h : Satisfies Q r) (eq : r = .ok a) : Q a := by
  rw [eq] at h
  exact h

theorem pure (a : α) (h : Q a) : Satisfies Q (Pure.pure a : Except (Stop ε) α) := h

theorem error (err : ε) : Satisfies Q (.error (.error err) : Except (Stop ε) α) := trivial

/-- The rule of `bind`, with what the first part returned. -/
theorem bind_eq {g : α → Except (Stop ε) β} {R : β → Prop} (hr : Satisfies Q r)
    (hg : ∀ a, r = .ok a → Q a → Satisfies R (g a)) : Satisfies R (r >>= g) := by
  cases r with
  | ok a => exact hg a rfl hr
  | error stop => cases stop <;> exact hr

theorem bind {g : α → Except (Stop ε) β} {R : β → Prop} (hr : Satisfies Q r)
    (hg : ∀ a, Q a → Satisfies R (g a)) : Satisfies R (r >>= g) :=
  hr.bind_eq fun a _ => hg a

theorem mono {R : α → Prop} (h : Satisfies Q r) (le : ∀ a, Q a → R a) : Satisfies R r := by
  cases r with
  | ok a => exact le a h
  | error stop => cases stop <;> exact h

theorem ite {r' : Except (Stop ε) α} (c : Prop) [Decidable c] (hr : c → Satisfies Q r)
    (hr' : ¬ c → Satisfies Q r') : Satisfies Q (if c then r else r') := by
  split_ifs with h
  · exact hr h
  · exact hr' h

/-- A check that is made before the rest. -/
theorem refuse {c : Prop} [Decidable c] {err : ε} (h : ¬ c → Satisfies Q r) :
    Satisfies Q (if c then .error (.error err) else r) :=
  ite c (fun _ => error err) h

/-- The bounds check at the head of a function. -/
theorem refuse_lt {m n : Nat} {err : ε} (h : n ≤ m → Satisfies Q r) :
    Satisfies Q (if m < n then .error (.error err) else r) :=
  refuse fun short => h (Nat.le_of_not_lt short)

theorem index {i : Nat} (h : i < s.len) :
    Satisfies (fun b => s.bytes[i]? = some b) (s.index i : Except (Stop ε) UInt8) := by
  rw [Slice.index, getElem?_eq_getElem (by rwa [Slice.length_bytes])]
  rfl

theorem index_inside {i : Nat} (h : i < s.len) :
    Satisfies (fun _ => True) (s.index i : Except (Stop ε) UInt8) :=
  (index h).mono fun _ _ => trivial

/-- A byte is read, whatever it is. -/
theorem byte {f : UInt8 → Except (Stop ε) α} {i : Nat} (h : i < s.len)
    (rest : ∀ b, Satisfies Q (f b)) : Satisfies Q (s.index i >>= f) :=
  (index_inside h).bind fun b _ => rest b

theorem slice {bound : Bound} {low high : Nat} (le : low ≤ high) (inside : high ≤ s.limit bound) :
    Satisfies (fun t => t.len = high - low) (s.slice bound low high : Except (Stop ε) Slice) := by
  rw [Slice.slice, dif_pos ⟨le, inside⟩]
  rfl

theorem slice_at {t : Slice} {bound : Bound} {offset low high : Nat} (h : s.At t offset)
    (le : low ≤ high) (inside : high ≤ t.len) :
    Satisfies (fun u => s.At u (offset + low) ∧ u.len = high - low)
      (t.slice bound low high : Except (Stop ε) Slice) := by
  obtain ⟨u, eq, part⟩ := @Slice.At.slice ε s t offset h low high le inside bound
  rw [eq]
  exact part

theorem readUint {width : Nat} (h : width ≤ s.len) :
    Satisfies (fun n => n = uint (s.bytes.take width))
      (s.readUint width : Except (Stop ε) Nat) := by
  rw [Slice.readUint, if_pos h]
  rfl

/-- A search through some items, each of which can be looked at. -/
theorem anyM {ι : Type} {f : ι → Except (Stop ε) Bool} {l : List ι}
    (h : ∀ i ∈ l, Satisfies (fun _ => True) (f i)) : Satisfies (fun _ => True) (l.anyM f) := by
  induction l with
  | nil => trivial
  | cons i rest ih =>
    refine (h i mem_cons_self).bind fun found _ => ?_
    cases found with
    | true => trivial
    | false => exact ih (forall_mem_cons.mp h).2

/-- A result for each of some items. -/
theorem mapM {ι : Type} {f : ι → Except (Stop ε) α} {l : List ι}
    (h : ∀ i ∈ l, Satisfies (fun _ => True) (f i)) : Satisfies (fun _ => True) (l.mapM f) := by
  induction l with
  | nil => trivial
  | cons i rest ih =>
    rw [mapM_cons]
    refine (h i mem_cons_self).bind fun a _ => ?_
    exact (ih (forall_mem_cons.mp h).2).bind fun _ _ => trivial

/-- A loop over the numbers below `n`, with an invariant that says how far it is. -/
theorem foldlM_range {σ : Type} {f : σ → Nat → Except (Stop ε) σ} {n : Nat} {s : σ}
    (Inv : Nat → σ → Prop) (init : Inv 0 s)
    (step : ∀ i < n, ∀ t, Inv i t → Satisfies (Inv (i + 1)) (f t i)) :
    Satisfies (Inv n) ((range n).foldlM f s) := by
  induction n with
  | zero => exact init
  | succ n ih =>
    rw [range_succ, foldlM_append]
    refine (ih fun i lt => step i (Nat.lt_succ_of_lt lt)).bind fun t inv => ?_
    exact (step n (Nat.lt_succ_self n) t inv).bind fun u inv => inv

/-- Without errors there is a result. -/
theorem exists_ok (h : Satisfies Q r) (noError : ε → False) : ∃ a, r = .ok a ∧ Q a := by
  cases r with
  | ok a => exact ⟨a, rfl, h⟩
  | error stop =>
    cases stop with
    | error err => exact (noError err).elim
    | panic => exact h.elim

end Satisfies

theorem bind_of_ok {g : α → Except (Stop ε) β} {a : α} (eq : r = .ok a) : (r >>= g) = g a := by
  rw [eq]
  rfl

/-- A loop without errors whose last turn panics. -/
theorem foldlM_range_panic {σ : Type} {f : σ → Nat → Except (Stop ε) σ} {n : Nat}
    (noError : ε → False) (last : ∀ t, f t n = .error .panic) (s : σ) :
    (range (n + 1)).foldlM f s = .error .panic := by
  rw [range_succ, foldlM_append]
  cases (range n).foldlM f s with
  | ok t =>
    show (f t n >>= _) = _
    rw [last t]
    rfl
  | error stop =>
    cases stop with
    | error err => exact (noError err).elim
    | panic => rfl

/-- Where the first part does not panic, the second does. -/
theorem bind_panic_iff {g : α → Except (Stop ε) β} {Q : α → Prop} (hr : Satisfies Q r) :
    (r >>= g) = .error .panic ↔ ∃ a, r = .ok a ∧ g a = .error .panic := by
  cases r with
  | ok a =>
    constructor
    · intro panics
      exact ⟨a, rfl, panics⟩
    · rintro ⟨_, ⟨⟩, panics⟩
      exact panics
  | error stop =>
    cases stop with
    | error err =>
      constructor
      · intro panics
        cases panics
      · rintro ⟨_, eq, -⟩
        cases eq
    | panic => exact hr.elim

theorem bind_pure_panic_iff {f : α → β} :
    (r >>= fun a => Pure.pure (f a)) = .error .panic ↔ r = .error .panic := by
  cases r with
  | ok a =>
    constructor <;>
    · intro panics
      cases panics
  | error stop =>
    constructor <;>
    · intro panics
      cases panics
      rfl

theorem refuse_panic_iff {c : Prop} [Decidable c] {err : ε} :
    (if c then .error (.error err) else r) = .error .panic ↔ ¬ c ∧ r = .error .panic := by
  split_ifs with refused
  · exact iff_of_false nofun fun panics => panics.1 refused
  · exact (and_iff_right refused).symm

theorem satisfies_true : Satisfies (fun _ => True) r ↔ r ≠ .error .panic := by
  refine ⟨Satisfies.ne_panic, fun runs => ?_⟩
  cases r with
  | ok a => trivial
  | error stop =>
    cases stop with
    | error err => trivial
    | panic => exact runs rfl

/-- Some items, each of which has a result or panics. -/
theorem mapM_panic_iff {ι : Type} {f : ι → Except (Stop ε) α} {l : List ι} {P : ι → Prop}
    [DecidablePred P] (h : ∀ i ∈ l, ∃ a, f i = if P i then .ok a else .error .panic) :
    l.mapM f = .error .panic ↔ ∃ i ∈ l, ¬ P i := by
  induction l with
  | nil => exact iff_of_false nofun fun ⟨_, mem, _⟩ => nomatch mem
  | cons i rest ih =>
    obtain ⟨⟨a, first⟩, others⟩ := forall_mem_cons.mp h
    simp only [mapM_cons, first, mem_cons, or_and_right, exists_or, exists_eq_left]
    by_cases inside : P i
    · rw [if_pos inside, ← ih others, or_iff_right (not_not.mpr inside)]
      exact bind_pure_panic_iff
    · rw [if_neg inside]
      exact iff_of_true rfl (.inl inside)

/-- The bound does not matter to `f`, which does not panic. -/
structure Safe (f : Bound → Except (Stop ε) α) (Q : α → Prop) : Prop where
  same : ∀ bound, f bound = f .length
  holds : Satisfies Q (f .length)

namespace Safe

variable {Q : α → Prop} {f : Bound → Except (Stop ε) α}

theorem pure (a : α) (h : Q a) : Safe (fun _ => (Pure.pure a : Except (Stop ε) α)) Q :=
  ⟨fun _ => rfl, h⟩

theorem error (err : ε) : Safe (fun _ => (.error (.error err) : Except (Stop ε) α)) Q :=
  ⟨fun _ => rfl, trivial⟩

theorem lift (r : Except ε α) (h : ∀ a, r = .ok a → Q a) : Safe (fun _ => liftError r) Q := by
  refine ⟨fun _ => rfl, ?_⟩
  cases r with
  | ok a => exact h a rfl
  | error err => trivial

theorem bind {g : Bound → α → Except (Stop ε) β} {R : β → Prop} (hf : Safe f Q)
    (hg : ∀ a, Q a → Safe (fun bound => g bound a) R) :
    Safe (fun bound => f bound >>= g bound) R := by
  refine ⟨fun bound => ?_, hf.holds.bind fun a h => (hg a h).holds⟩
  have holds := hf.holds
  rw [hf.same bound]
  cases first : f .length with
  | error stop => rfl
  | ok a =>
    rw [first] at holds
    exact (hg a holds).same bound

theorem mono {R : α → Prop} (h : Safe f Q) (le : ∀ a, Q a → R a) : Safe f R :=
  ⟨h.same, h.holds.mono le⟩

theorem ite {g : Bound → Except (Stop ε) α} (c : Prop) [Decidable c] (hf : c → Safe f Q)
    (hg : ¬ c → Safe g Q) : Safe (fun bound => if c then f bound else g bound) Q := by
  by_cases h : c
  · simp only [if_pos h]
    exact hf h
  · simp only [if_neg h]
    exact hg h

theorem index {i : Nat} (h : i < s.len) :
    Safe (fun _ => (s.index i : Except (Stop ε) UInt8)) fun _ => True := by
  refine ⟨fun _ => rfl, ?_⟩
  obtain ⟨b, eq⟩ := @Slice.exists_index ε s i h
  rw [eq]
  trivial

theorem set {i : Nat} (b : UInt8) (h : i < s.len) :
    Safe (fun _ => (s.set i b : Except (Stop ε) Slice)) fun t =>
      t.len = s.len ∧ t.array.length = s.array.length := by
  refine ⟨fun _ => rfl, ?_⟩
  rw [Slice.set, if_pos h]
  exact ⟨rfl, length_set⟩

theorem slice {low high : Nat} (le : low ≤ high) (inside : high ≤ s.len) :
    Safe (fun bound => (s.slice bound low high : Except (Stop ε) Slice)) fun t =>
      t.len = high - low ∧ t.array = s.array.drop low := by
  constructor
  · intro bound
    rw [Slice.slice, Slice.slice, dif_pos ⟨le, Nat.le_trans inside (s.le_limit bound)⟩,
      dif_pos ⟨le, inside⟩]
  · rw [Slice.slice, dif_pos ⟨le, inside⟩]
    exact ⟨rfl, rfl⟩

theorem readUint {width : Nat} (h : width ≤ s.len) :
    Safe (fun _ => (s.readUint width : Except (Stop ε) Nat)) fun _ => True := by
  refine ⟨fun _ => rfl, ?_⟩
  rw [Slice.readUint, if_pos h]
  trivial

end Safe

theorem Slice.slice_ok {t : Slice} {bound : Bound}
    (h : (s.slice bound low high : Except (Stop ε) Slice) = .ok t) :
    high ≤ s.limit bound ∧ t.len = high - low := by
  unfold Slice.slice at h
  split_ifs at h with inside
  cases h
  exact ⟨inside.2, rfl⟩

theorem Slice.exists_slice (le : low ≤ s.len) (bound : Bound) :
    ∃ t : Slice, (s.slice bound low s.len : Except (Stop ε) Slice) = .ok t ∧
      t.len = s.len - low :=
  ⟨_, dif_pos ⟨le, s.le_limit bound⟩, rfl⟩

/-- A slice expression that is inside the length is what it is inside the capacity. -/
theorem Slice.slice_same (h : (s.slice .length low high : Except (Stop ε) Slice) ≠ .error .panic)
    (bound : Bound) :
    (s.slice bound low high : Except (Stop ε) Slice) = s.slice .length low high := by
  by_cases fits : low ≤ high ∧ high ≤ s.len
  · exact (Safe.slice fits.1 fits.2).same bound
  · exact absurd (dif_neg fits) h

end SingBox.Lib
