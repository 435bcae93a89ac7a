import Mathlib.Data.BitVec

/-!
# Blocks of addresses

An address is a bit vector. The addresses that share all but their last `host` bits are a
block: an interval of numbers of length `2 ^ host`, aligned to its length.

* `sameBlock_iff` — the test by exclusive or and shift is the one by division;
* `toNat_of_low_ones` — the last address of a block, as a number;
* `sameBlock_of_le`, `not_sameBlock_of_lt`, `sameBlock_iff_between` — a block is an interval;
* `cover` — an interval as blocks.
-/

namespace SingBox.Lib

open List Nat

variable {w : Nat}

/-- Two addresses differ in their last `host` bits only. -/
def sameBlock (host : Nat) (a b : BitVec w) : Bool := (a ^^^ b) >>> host == 0#w

variable {host : Nat} {a b last : BitVec w}

theorem sameBlock_iff : sameBlock host a b = true ↔ a.toNat / 2 ^ host = b.toNat / 2 ^ host := by
  unfold sameBlock
  rw [beq_iff_eq, BitVec.ushiftRight_xor_distrib, BitVec.xor_eq_zero_iff, ← BitVec.toNat_inj]
  simp only [BitVec.toNat_ushiftRight, shiftRight_eq_div_pow]

/-- Set the bits from the given one to the last, counted from the highest. -/
def setFrom (first : Nat) (a : BitVec w) : BitVec w :=
  (range' first (w - first)).foldl (fun a i => a ||| 1#w <<< (w - 1 - i)) a

theorem getLsbD_foldl_or (l : List Nat) (a : BitVec w) (k : Nat) (hk : k < w) :
    (l.foldl (fun a i => a ||| 1#w <<< (w - 1 - i)) a).getLsbD k =
      (a.getLsbD k || l.any fun i => k = w - 1 - i) := by
  induction l generalizing a with
  | nil => simp
  | cons i l ih =>
    have inside : w - 1 - i < w := by omega
    rw [foldl_cons, ih, BitVec.getLsbD_or, ← BitVec.twoPow_eq, Bool.or_assoc]
    simp [inside, eq_comm]

theorem getLsbD_setFrom {first : Nat} (a : BitVec w) {k : Nat} (hk : k < w) :
    (setFrom first a).getLsbD k = (a.getLsbD k || decide (k < w - first)) := by
  unfold setFrom
  rw [getLsbD_foldl_or _ _ _ hk]
  congr 1
  rw [Bool.eq_iff_iff, any_eq_true, decide_eq_true_iff]
  constructor
  · rintro ⟨i, mem, eq⟩
    rw [mem_range'_1] at mem
    simp at eq
    omega
  · intro low
    refine ⟨w - 1 - k, ?_, by simp; omega⟩
    rw [mem_range'_1]
    omega

theorem toNat_of_low_ones (fits : host ≤ w)
    (bits : ∀ k < w, last.getLsbD k = (a.getLsbD k || decide (k < host))) :
    last.toNat = 2 ^ host * (a.toNat / 2 ^ host) + (2 ^ host - 1) := by
  apply eq_of_testBit_eq
  intro k
  have below : 2 ^ host - 1 < 2 ^ host := sub_lt (Nat.two_pow_pos host) Nat.one_pos
  rw [testBit_two_pow_mul_add _ below, testBit_div_two_pow]
  have high : ∀ x : BitVec w, x.toNat.testBit k = x.getLsbD k := fun _ => rfl
  by_cases inside : k < w
  · rw [high, bits k inside]
    by_cases low : k < host
    · simp [low]
    · simp [low, Nat.sub_add_cancel (Nat.le_of_not_lt low), BitVec.getLsbD]
  · have outside : ∀ x : BitVec w, x.getLsbD k = false := fun x =>
      BitVec.getLsbD_of_ge x k (Nat.le_of_not_lt inside)
    have low : ¬ k < host := by omega
    rw [high, outside, if_neg low, Nat.sub_add_cancel (Nat.le_of_not_lt low), high, outside]

section

variable (isLast : last.toNat = 2 ^ host * (a.toNat / 2 ^ host) + (2 ^ host - 1))
include isLast

theorem sameBlock_of_le (above : a.toNat ≤ b.toNat) (below : b.toNat ≤ last.toNat) :
    sameBlock host a b = true := by
  have pos := Nat.two_pow_pos host
  rw [sameBlock_iff]
  apply Nat.le_antisymm
  · exact Nat.div_le_div_right above
  · rw [← Nat.lt_succ_iff, Nat.div_lt_iff_lt_mul pos, succ_mul, Nat.mul_comm]
    omega

theorem not_sameBlock_of_lt (above : last.toNat < b.toNat) : sameBlock host a b = false := by
  rw [Bool.eq_false_iff, Ne, sameBlock_iff]
  intro same
  have := div_add_mod b.toNat (2 ^ host)
  rw [same] at isLast
  omega

end

/-- The first address of the block of an address, and the last. -/
def firstOfBlock (host : Nat) (a : BitVec w) : BitVec w :=
  BitVec.ofNat w (2 ^ host * (a.toNat / 2 ^ host))

def lastOfBlock (host : Nat) (a : BitVec w) : BitVec w :=
  BitVec.ofNat w (2 ^ host * (a.toNat / 2 ^ host) + (2 ^ host - 1))

theorem block_lt {n : Nat} (fits : host ≤ w) (below : 2 ^ host * n < 2 ^ w) :
    2 ^ host * n + (2 ^ host - 1) < 2 ^ w := by
  have whole : 2 ^ w = 2 ^ host * 2 ^ (w - host) := by rw [← Nat.pow_add, Nat.add_sub_cancel' fits]
  rw [whole] at below ⊢
  have le : 2 ^ host * (n + 1) ≤ 2 ^ host * 2 ^ (w - host) :=
    Nat.mul_le_mul_left _ (Nat.lt_of_mul_lt_mul_left below)
  rw [mul_succ] at le
  omega

theorem sameBlock_iff_between (fits : host ≤ w) (a b : BitVec w) :
    sameBlock host a b = true ↔ firstOfBlock host a ≤ b ∧ b ≤ lastOfBlock host a := by
  have pos := Nat.two_pow_pos host
  have start : 2 ^ host * (a.toNat / 2 ^ host) < 2 ^ w :=
    Nat.lt_of_le_of_lt (mul_div_le _ _) a.isLt
  rw [sameBlock_iff, BitVec.le_def, BitVec.le_def, firstOfBlock, lastOfBlock, BitVec.toNat_ofNat,
    BitVec.toNat_ofNat, mod_eq_of_lt start, mod_eq_of_lt (block_lt fits start), eq_comm,
    Nat.div_eq_iff pos, Nat.mul_comm (2 ^ host)]
  omega

/-! ## Intervals -/

/-- The largest blocks that make up the part of an interval in the block of number `n` and `host`
bits; a block is its bits and its number. -/
def cover (lower upper : Nat) : Nat → Nat → List (Nat × Nat)
  | 0, n => if lower ≤ n ∧ n ≤ upper then [(0, n)] else []
  | host + 1, n =>
      if lower ≤ 2 ^ (host + 1) * n ∧ 2 ^ (host + 1) * n + (2 ^ (host + 1) - 1) ≤ upper then
        [(host + 1, n)]
      else if upper < 2 ^ (host + 1) * n ∨ 2 ^ (host + 1) * n + (2 ^ (host + 1) - 1) < lower then []
      else cover lower upper host (2 * n) ++ cover lower upper host (2 * n + 1)

theorem div_eq_iff_between (host n a : Nat) :
    a / 2 ^ host = n ↔ 2 ^ host * n ≤ a ∧ a ≤ 2 ^ host * n + (2 ^ host - 1) := by
  have pos := Nat.two_pow_pos host
  rw [Nat.div_eq_iff pos, Nat.mul_comm n]
  omega

theorem div_eq_halves (host n a : Nat) :
    a / 2 ^ (host + 1) = n ↔ a / 2 ^ host = 2 * n ∨ a / 2 ^ host = 2 * n + 1 := by
  rw [Nat.pow_succ, ← Nat.div_div_eq_div_mul]
  omega

theorem mem_cover (lower upper host n a : Nat) :
    (∃ block ∈ cover lower upper host n, a / 2 ^ block.1 = block.2) ↔
      a / 2 ^ host = n ∧ lower ≤ a ∧ a ≤ upper := by
  induction host generalizing n with
  | zero =>
    unfold cover
    split
    case isTrue inside =>
      simp only [mem_singleton, exists_eq_left, Nat.pow_zero, Nat.div_one]
      constructor
      · rintro rfl
        exact ⟨rfl, inside⟩
      · exact fun h => h.1
    case isFalse outside =>
      refine iff_of_false (by simp) ?_
      rintro ⟨same, h⟩
      rw [Nat.pow_zero, Nat.div_one] at same
      exact outside (same ▸ h)
  | succ host ih =>
    have between := div_eq_iff_between (host + 1) n a
    unfold cover
    split
    case isTrue whole =>
      simp only [mem_singleton, exists_eq_left]
      refine ⟨fun same => ⟨same, ?_⟩, fun h => h.1⟩
      omega
    case isFalse =>
      split
      case isTrue apart =>
        refine iff_of_false (by simp) ?_
        rintro ⟨same, inside⟩
        omega
      case isFalse =>
        simp only [mem_append, or_and_right, exists_or, ih, div_eq_halves host n a]

theorem cover_inside {lower upper n : Nat} {block : Nat × Nat}
    (mem : block ∈ cover lower upper host n) :
    block.1 ≤ host ∧ block.2 / 2 ^ (host - block.1) = n := by
  induction host generalizing n with
  | zero =>
    unfold cover at mem
    split at mem
    · rw [mem_singleton.mp mem]
      simp
    · cases mem
  | succ host ih =>
    unfold cover at mem
    split at mem
    · rw [mem_singleton.mp mem]
      simp
    · split at mem
      · cases mem
      rcases mem_append.mp mem with left | right
      · obtain ⟨le, same⟩ := ih left
        rw [succ_sub le, div_eq_halves]
        exact ⟨le_succ_of_le le, .inl same⟩
      · obtain ⟨le, same⟩ := ih right
        rw [succ_sub le, div_eq_halves]
        exact ⟨le_succ_of_le le, .inr same⟩

/-- The first address of a block. -/
def addrOfBlock (w : Nat) (block : Nat × Nat) : BitVec w := BitVec.ofNat w (2 ^ block.1 * block.2)

/-- The blocks of an interval of addresses hold just the addresses in it. -/
theorem exists_sameBlock_iff (lower upper a : BitVec w) :
    (∃ block ∈ cover lower.toNat upper.toNat w 0,
      sameBlock block.1 (addrOfBlock w block) a = true) ↔ lower ≤ a ∧ a ≤ upper := by
  have zero : a.toNat / 2 ^ w = 0 := div_eq_of_lt a.isLt
  have covered := mem_cover lower.toNat upper.toNat w 0 a.toNat
  rw [and_iff_right zero, ← BitVec.le_def, ← BitVec.le_def] at covered
  rw [← covered]
  refine exists_congr fun block => and_congr_right fun mem => ?_
  obtain ⟨le, same⟩ := cover_inside mem
  have start : 2 ^ block.1 * block.2 < 2 ^ w := by
    have small : block.2 < 2 ^ (w - block.1) := by
      rcases Nat.div_eq_zero_iff.mp same with zero | small
      · exact absurd zero (Nat.two_pow_pos _).ne'
      · exact small
    calc 2 ^ block.1 * block.2
        < 2 ^ block.1 * 2 ^ (w - block.1) := Nat.mul_lt_mul_of_pos_left small (Nat.two_pow_pos _)
      _ = 2 ^ w := by rw [← Nat.pow_add, Nat.add_sub_cancel' le]
  rw [sameBlock_iff, addrOfBlock, BitVec.toNat_ofNat, mod_eq_of_lt start,
    Nat.mul_div_cancel_left _ (Nat.two_pow_pos _), eq_comm]

end SingBox.Lib
