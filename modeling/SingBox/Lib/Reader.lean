import Mathlib.Data.List.Infix
import SingBox.Lib.Bytes
import SingBox.Lib.Except

/-!
# Readers of bytes

A reader takes bytes off the front of its input and may fail. `Ensures p Q` says that what `p`
leaves is a suffix of its input and that what it reads meets `Q`; readers that do so are put
together with `Ensures.bind`.

* `readByte`, `readBytes`, `readFull`, `discard` — as the standard library has them;
* `readUvarint` — a number of one, two, four or eight bytes whose first two bits say which;
* `Ensures.readUvarint` — such a number has at most 62 bits.
-/

namespace SingBox.Lib

abbrev Reader (ε α : Type) := StateT Bytes (Except ε) α

namespace Reader

variable {ε α β : Type}

def readByte (eof : ε) : Reader ε UInt8
  | [] => .error eof
  | b :: rest => .ok (b, rest)

/-- Calls of `ReadByte`, one after the other. -/
def readBytes (eof : ε) : Nat → Reader ε Bytes
  | 0 => pure []
  | n + 1 => do
      let b ← readByte eof
      let rest ← readBytes eof n
      return b :: rest

/-- `io.ReadFull`: the error depends on whether there was a byte at all. -/
def readFull (eof unexpectedEOF : ε) (n : Nat) : Reader ε Bytes := fun bytes =>
  if n ≤ bytes.length then .ok (bytes.take n, bytes.drop n)
  else .error (if bytes.isEmpty then eof else unexpectedEOF)

/-- `io.CopyN` to `io.Discard`. -/
def discard (eof : ε) (n : Nat) : Reader ε Unit := fun bytes =>
  if n ≤ bytes.length then .ok ((), bytes.drop n) else .error eof

def readUvarint (eof : ε) : Reader ε UInt64 := do
  let firstByte ← readByte eof
  let len := 1 <<< ((firstByte &&& 0xc0) >>> 6).toNat
  let rest ← readBytes eof (len - 1)
  return UInt64.ofNat (uint ((firstByte &&& 0x3f) :: rest))

/-! ## What is read and what is left -/

/-- What the reader leaves is a suffix of its input, and what it reads is as `Q` says. -/
def Ensures (p : Reader ε α) (Q : α → Prop) : Prop :=
  ∀ bytes a rest, p bytes = .ok (a, rest) → rest <:+ bytes ∧ Q a

namespace Ensures

variable {Q : α → Prop}

theorem pure (a : α) (h : Q a) : Ensures (Pure.pure a : Reader ε α) Q := by
  rintro bytes _ _ ⟨⟩
  exact ⟨List.suffix_rfl, h⟩

theorem throw (err : ε) : Ensures (throw err : Reader ε α) Q := by
  rintro bytes _ _ ⟨⟩

theorem bind {p : Reader ε α} {q : α → Reader ε β} {R : β → Prop} (hp : Ensures p Q)
    (hq : ∀ a, Q a → Ensures (q a) R) : Ensures (p >>= q) R := by
  intro bytes b rest h
  change (p bytes >>= fun x => q x.1 x.2) = .ok (b, rest) at h
  obtain ⟨x, first, h⟩ := bind_eq_ok.mp h
  obtain ⟨left, hx⟩ := hp bytes x.1 x.2 first
  obtain ⟨left', hb⟩ := hq x.1 hx x.2 b rest h
  exact ⟨left'.trans left, hb⟩

theorem ite (c : Prop) [Decidable c] {p q : Reader ε α} (hp : Ensures p Q) (hq : Ensures q Q) :
    Ensures (if c then p else q) Q := by
  split_ifs
  · exact hp
  · exact hq

theorem readByte (eof : ε) : Ensures (Reader.readByte eof) fun _ => True := by
  intro bytes a rest h
  cases bytes with
  | nil => cases h
  | cons b bytes =>
    cases h
    exact ⟨List.suffix_cons _ _, trivial⟩

theorem readBytes (eof : ε) (n : Nat) :
    Ensures (Reader.readBytes eof n) fun read => read.length = n := by
  induction n with
  | zero => exact .pure [] rfl
  | succ n ih =>
    refine (readByte eof).bind fun b _ => ih.bind fun rest length => .pure _ ?_
    rw [List.length_cons, length]

theorem readFull (eof unexpectedEOF : ε) (n : Nat) :
    Ensures (Reader.readFull eof unexpectedEOF n) fun _ => True := by
  intro bytes a rest h
  unfold Reader.readFull at h
  split_ifs at h
  cases h
  exact ⟨List.drop_suffix n bytes, trivial⟩

theorem discard (eof : ε) (n : Nat) : Ensures (Reader.discard eof n) fun _ => True := by
  intro bytes a rest h
  unfold Reader.discard at h
  split_ifs at h
  cases h
  exact ⟨List.drop_suffix n bytes, trivial⟩

end Ensures

/-! ## The numbers that are read -/

/-- The first two bits leave at most seven bytes to be read. -/
theorem length_uvarint_le (first : UInt8) : 1 <<< ((first &&& 0xc0) >>> 6).toNat - 1 ≤ 7 := by
  have two : ((first &&& 0xc0) >>> 6).toNat ≤ 3 := by
    rw [UInt8.toNat_shiftRight, Nat.shiftRight_eq_div_pow]
    have le : first.toNat &&& (0xc0 : UInt8).toNat ≤ (0xc0 : UInt8).toNat := Nat.and_le_right
    exact Nat.div_le_div_right le
  have le := Nat.pow_le_pow_right (n := 2) (by decide) two
  omega

/-- Without its first two bits, a number of eight bytes at most has 62 bits at most. -/
theorem uint_uvarint_lt (first : UInt8) {rest : Bytes} (short : rest.length ≤ 7) :
    uint ((first &&& 0x3f) :: rest) < 2 ^ 62 := by
  have small : (first &&& 0x3f).toNat ≤ 63 := by
    exact Nat.and_le_right
  calc uint ((first &&& 0x3f) :: rest)
      < 256 ^ rest.length * (256 * 0 + (first &&& 0x3f).toNat + 1) := foldl_uint_lt rest _
    _ ≤ 256 ^ 7 * 64 := Nat.mul_le_mul (Nat.pow_le_pow_right (by decide) short) (by omega)
    _ = 2 ^ 62 := by decide

theorem Ensures.readUvarint (eof : ε) :
    Ensures (Reader.readUvarint eof) fun n => n.toNat < 2 ^ 62 := by
  refine (Ensures.readByte eof).bind fun first _ => ?_
  refine (Ensures.readBytes eof _).bind fun rest length => .pure _ ?_
  exact Nat.lt_of_le_of_lt (Nat.mod_le _ _)
    (uint_uvarint_lt first (length ▸ length_uvarint_le first))

end Reader

end SingBox.Lib
