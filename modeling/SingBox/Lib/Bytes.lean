import Mathlib.Tactic.Ring

/-!
# Texts and numbers as bytes

A number is written as a fixed count of bytes, most significant first; a text as the bytes
of its encoding.

* `uint_putUint` — reading what was written gives the number, if it fits;
* `uint_lt` — what is read from some bytes fits in them;
* `putUint_injective` — different numbers that fit are written differently;
* `goBytes_injective` — and so are different texts.
-/

namespace SingBox.Lib

abbrev Bytes := List UInt8

/-- The `width` bytes of a number; what does not fit is dropped. -/
def putUint : Nat → Nat → Bytes
  | 0, _ => []
  | width + 1, n => UInt8.ofNat (n / 256 ^ width) :: putUint width n

/-- The number written in some bytes. -/
def uint (bytes : Bytes) : Nat := bytes.foldl (fun n b => 256 * n + b.toNat) 0

@[simp] theorem length_putUint (width n : Nat) : (putUint width n).length = width := by
  induction width with
  | zero => rfl
  | succ width ih => rw [putUint, List.length_cons, ih]

theorem foldl_putUint (width n start : Nat) :
    (putUint width n).foldl (fun n b => 256 * n + b.toNat) start =
      256 ^ width * start + n % 256 ^ width := by
  induction width generalizing start with
  | zero => simp [putUint, Nat.mod_one]
  | succ width ih =>
    rw [putUint, List.foldl_cons, ih]
    have byte : (UInt8.ofNat (n / 256 ^ width)).toNat = n / 256 ^ width % 256 := by simp
    rw [byte, Nat.pow_succ, Nat.mod_mul]
    ring

theorem uint_putUint {width n : Nat} (fits : n < 256 ^ width) : uint (putUint width n) = n := by
  rw [uint, foldl_putUint, Nat.mod_eq_of_lt fits]
  simp

theorem putUint_injective {width n m : Nat} (fitsN : n < 256 ^ width) (fitsM : m < 256 ^ width)
    (h : putUint width n = putUint width m) : n = m := by
  rw [← uint_putUint fitsN, ← uint_putUint fitsM, h]

theorem foldl_uint_lt (bytes : Bytes) (start : Nat) :
    bytes.foldl (fun n b => 256 * n + b.toNat) start < 256 ^ bytes.length * (start + 1) := by
  induction bytes generalizing start with
  | nil => simp
  | cons b rest ih =>
    have byte := b.toNat_lt
    calc rest.foldl (fun n b => 256 * n + b.toNat) (256 * start + b.toNat)
        < 256 ^ rest.length * (256 * start + b.toNat + 1) := ih _
      _ ≤ 256 ^ rest.length * (256 * (start + 1)) := Nat.mul_le_mul_left _ (by omega)
      _ = 256 ^ (b :: rest).length * (start + 1) := by
        rw [List.length_cons, Nat.pow_succ, Nat.mul_assoc]

theorem uint_lt (bytes : Bytes) : uint bytes < 256 ^ bytes.length := by
  have h := foldl_uint_lt bytes 0
  rwa [Nat.zero_add, Nat.mul_one] at h

def goBytes (s : String) : Bytes := s.toByteArray.data.toList

theorem goBytes_injective {s t : String} (h : goBytes s = goBytes t) : s = t :=
  String.toByteArray_inj.mp (ByteArray.ext (Array.ext' h))

end SingBox.Lib
