import SingBox.Lib.Reader

/-!
# Codecs

A codec writes values as bytes and has a reader that takes exactly those bytes off its input,
whatever follows them. So values can be written one after the other, and a value can be written as
its parts.

* `Reader.Reads` — what a reader takes off its input, with the rules for putting readers together;
* `Reader.Reads.times` — a loop that reads a known number of values;
* `Codec.uvarint`, `Codec.list`, `Codec.both`, `Codec.via` — numbers, lists, pairs, and values that
  are written as others.
-/

namespace SingBox.Lib

variable {ε α β : Type}

namespace Reader

/-- The reader takes these bytes off its input and reads `a`. -/
def Reads (p : Reader ε α) (bytes : Bytes) (a : α) : Prop :=
  ∀ rest, p (bytes ++ rest) = .ok (a, rest)

/-- The errors of a reader with a cause added. -/
def mapError (f : ε → ε) (p : Reader ε α) : Reader ε α := fun bytes => (p bytes).mapError f

/-- `n` values one after the other; the reader is given their index. -/
def readTimes (p : Nat → Reader ε α) : Nat → Nat → Reader ε (List α)
  | _, 0 => pure []
  | i, n + 1 => do
      let a ← p i
      let rest ← readTimes p (i + 1) n
      return a :: rest

namespace Reads

theorem pure (a : α) : Reads (Pure.pure a : Reader ε α) [] a := fun _ => rfl

variable {p : Reader ε α}

theorem bind {q : α → Reader ε β} {first second : Bytes} {a : α} {b : β} (hp : Reads p first a)
    (hq : Reads (q a) second b) : Reads (p >>= q) (first ++ second) b := by
  intro rest
  change (p (first ++ second ++ rest) >>= fun x => q x.1 x.2) = _
  rw [List.append_assoc, hp]
  exact hq rest

theorem map {bytes : Bytes} {a : α} (f : α → β) (h : Reads p bytes a) :
    Reads (f <$> p) bytes (f a) := by
  intro rest
  change (p (bytes ++ rest) >>= fun x => Except.ok (f x.1, x.2)) = _
  rw [h]
  rfl

theorem mapError {bytes : Bytes} {a : α} (f : ε → ε) (h : Reads p bytes a) :
    Reads (p.mapError f) bytes a := by
  intro rest
  rw [Reader.mapError, h]
  rfl

theorem readByte (eof : ε) (b : UInt8) : Reads (Reader.readByte eof) [b] b := fun _ => rfl

/-- The values may differ from those written, so the bytes of each are given with it. -/
theorem times {p : Nat → Reader ε α} {chunks : List Bytes} {values : List α}
    (each : List.Forall₂ (fun bytes a => ∀ i, Reads (p i) bytes a) chunks values) (start : Nat) :
    Reads (readTimes p start values.length) chunks.flatten values := by
  induction each generalizing start with
  | nil => exact pure []
  | cons head tail ih =>
    refine (head start).bind ?_
    rw [← List.append_nil (List.flatten _)]
    exact (ih (start + 1)).bind (pure _)

end Reads

end Reader

structure Codec (ε α : Type) where
  encode : α → Bytes
  decode : Reader ε α
  reads : ∀ a, decode.Reads (encode a) a

namespace Codec

open Reader UInt8

/-- The loop that writes a list, and the one that reads it. -/
theorem reads_times (c : Codec ε α) (values : List α) (start : Nat) :
    (readTimes (fun _ => c.decode) start values.length).Reads (values.map c.encode).flatten
      values := by
  refine Reads.times ?_ start
  induction values with
  | nil => exact .nil
  | cons a rest ih => exact .cons (fun _ => c.reads a) ih

def byte (eof : ε) : Codec ε UInt8 := ⟨fun b => [b], readByte eof, Reads.readByte eof⟩

variable (c : Codec ε α)

/-- A value is written as another one. -/
def via (into : β → α) (back : α → β) (inverse : ∀ b, back (into b) = b) : Codec ε β where
  encode b := c.encode (into b)
  decode := back <$> c.decode
  reads b := by
    have h := (c.reads (into b)).map back
    rwa [inverse] at h

def both (d : Codec ε β) : Codec ε (α × β) where
  encode x := c.encode x.1 ++ d.encode x.2
  decode := do
    let a ← c.decode
    let b ← d.decode
    return (a, b)
  reads x := by
    refine (c.reads x.1).bind ?_
    rw [← List.append_nil (d.encode x.2)]
    exact (d.reads x.2).bind (.pure _)

/-! ## Numbers of any size -/

/-- Seven bits in each byte, least significant first; every byte but the last has its top bit
set. -/
def putUvarint : Nat → Nat → Bytes
  | 0, n => [ofNat n]
  | fuel + 1, n =>
      if n < 128 then [ofNat n]
      else ofNat (n % 128 + 128) :: putUvarint fuel (n / 128)

def getUvarint (eof : ε) : Reader ε Nat
  | [] => .error eof
  | b :: rest =>
      if b.toNat < 128 then .ok (b.toNat, rest)
      else
        match getUvarint eof rest with
        | .ok (n, rest) => .ok (128 * n + (b.toNat - 128), rest)
        | .error err => .error err

theorem reads_last (eof : ε) {n : Nat} (small : n < 128) :
    (getUvarint eof).Reads [ofNat n] n := by
  intro rest
  have byte : (ofNat n).toNat = n := by
    rw [toNat_ofNat', Nat.mod_eq_of_lt (by omega)]
  rw [List.singleton_append, getUvarint, byte, if_pos small]

theorem reads_putUvarint (eof : ε) (fuel n : Nat) (enough : n ≤ fuel) :
    (getUvarint eof).Reads (putUvarint fuel n) n := by
  induction fuel generalizing n with
  | zero => exact reads_last eof (by omega)
  | succ fuel ih =>
    unfold putUvarint
    split
    case isTrue small => exact reads_last eof small
    case isFalse large =>
      intro rest
      have byte : (ofNat (n % 128 + 128)).toNat = n % 128 + 128 := by
        rw [toNat_ofNat', Nat.mod_eq_of_lt (by omega)]
      rw [List.cons_append, getUvarint, byte, ih (n / 128) (by omega) rest]
      show Except.ok (128 * (n / 128) + (n % 128 + 128 - 128), rest) = _
      rw [Nat.add_sub_cancel, Nat.div_add_mod]

def uvarint (eof : ε) : Codec ε Nat where
  encode n := putUvarint n n
  decode := getUvarint eof
  reads n := reads_putUvarint eof n n (Nat.le_refl n)

/-- The length of a list, and then its elements. -/
def list (eof : ε) : Codec ε (List α) where
  encode values := (uvarint eof).encode values.length ++ (values.map c.encode).flatten
  decode := do
    let length ← (uvarint eof).decode
    readTimes (fun _ => c.decode) 0 length
  reads values := ((uvarint eof).reads values.length).bind (c.reads_times values 0)

end Codec

end SingBox.Lib
