import SingBox.Lib.Bytes

/-!
# Frames with a length

A frame has a head of a fixed size, the length of its payload as a number of a fixed size, and
the payload.

* `decode_encode` — frames that fit are read back as they were written.
-/

namespace SingBox.Lib

structure Frame where
  head : Bytes
  payload : Bytes
  deriving DecidableEq

namespace Frame

/-- A frame with `width` bytes for the length. -/
def encode (width : Nat) (frame : Frame) : Bytes :=
  frame.head ++ putUint width frame.payload.length ++ frame.payload

/-- Read frames until the bytes end, but at most `fuel` of them. -/
def decodeLoop (size width : Nat) : Nat → Bytes → Option (List Frame)
  | _, [] => some []
  | 0, _ :: _ => none
  | fuel + 1, bytes =>
      let length := uint ((bytes.drop size).take width)
      let rest := bytes.drop (size + width)
      if bytes.length < size + width ∨ rest.length < length then none
      else
        (decodeLoop size width fuel (rest.drop length)).map
          (⟨bytes.take size, rest.take length⟩ :: ·)

/-- The frames that some bytes are made of. Each has a byte, so that there are not more of them
than bytes. -/
def decode (size width : Nat) (bytes : Bytes) : Option (List Frame) :=
  decodeLoop size width bytes.length bytes

/-- A head of the right size, and a payload whose length can be written. -/
structure Fits (size width : Nat) (frame : Frame) : Prop where
  head : frame.head.length = size
  payload : frame.payload.length < 256 ^ width

variable {size width : Nat}

theorem length_encode {frame : Frame} (fits : Fits size width frame) :
    (frame.encode width).length = size + width + frame.payload.length := by
  rw [encode, List.length_append, List.length_append, length_putUint, fits.head]

variable (pos : 0 < size + width)
include pos

theorem decodeLoop_encode {frame : Frame}
    (fits : Fits size width frame) (rest : Bytes) (fuel : Nat) :
    decodeLoop size width (fuel + 1) (frame.encode width ++ rest)
      = (decodeLoop size width fuel rest).map (frame :: ·) := by
  have length := length_encode fits
  -- what is read at the three places is what was written there
  have head : (frame.encode width ++ rest).take size = frame.head := by
    rw [encode, List.append_assoc, List.append_assoc, ← fits.head, List.take_left]
  have number : ((frame.encode width ++ rest).drop size).take width
      = putUint width frame.payload.length := by
    rw [encode, List.append_assoc, List.append_assoc, ← fits.head, List.drop_left]
    have take : (putUint width frame.payload.length ++ (frame.payload ++ rest)).take
        (putUint width frame.payload.length).length = putUint width frame.payload.length :=
      List.take_left
    rwa [length_putUint] at take
  have body : (frame.encode width ++ rest).drop (size + width) = frame.payload ++ rest := by
    have drop : (frame.head ++ putUint width frame.payload.length ++
        (frame.payload ++ rest)).drop (frame.head ++ putUint width frame.payload.length).length =
          frame.payload ++ rest :=
      List.drop_left
    rwa [List.length_append, length_putUint, fits.head, ← List.append_assoc] at drop
  cases whole : frame.encode width ++ rest with
  | nil =>
    have empty := congrArg List.length whole
    rw [List.length_append, List.length_nil] at empty
    omega
  | cons b bytes =>
    rw [← whole, decodeLoop, number, uint_putUint fits.payload, body, head]
    · rw [if_neg, List.take_left, List.drop_left]
      rw [List.length_append, List.length_append]
      omega
    · intro empty
      rw [whole] at empty
      cases empty

theorem decodeLoop_flatten {frames : List Frame} (fits : ∀ frame ∈ frames, Fits size width frame)
    {fuel : Nat} (enough : frames.length ≤ fuel) :
    decodeLoop size width fuel (frames.map (encode width)).flatten = some frames := by
  induction frames generalizing fuel with
  | nil => cases fuel <;> rfl
  | cons frame rest ih =>
    obtain ⟨fuel, rfl⟩ := Nat.exists_eq_add_one_of_ne_zero (Nat.ne_zero_of_lt enough)
    rw [List.map_cons, List.flatten_cons, decodeLoop_encode pos (fits frame List.mem_cons_self),
      ih (List.forall_mem_cons.mp fits).2 (Nat.le_of_succ_le_succ enough)]
    rfl

theorem decode_encode {frames : List Frame} (fits : ∀ frame ∈ frames, Fits size width frame) :
    decode size width (frames.map (encode width)).flatten = some frames := by
  refine decodeLoop_flatten pos fits ?_
  -- no frame is empty
  induction frames with
  | nil => exact Nat.zero_le _
  | cons frame rest ih =>
    have length := length_encode (fits frame List.mem_cons_self)
    have later := ih (List.forall_mem_cons.mp fits).2
    rw [List.map_cons, List.flatten_cons, List.length_append, List.length_cons]
    omega

end Frame

end SingBox.Lib
