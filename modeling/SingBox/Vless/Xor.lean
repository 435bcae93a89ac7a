import SingBox.Lib.Bytes

/-!
# The XOR layer of VLESS encryption

`XorConn` encrypts the headers of records and leaves the records alone. `Write` and `Read` of
`protocol/vless/encryption/xor.go` each walk over the bytes of a call: what is still to be skipped,
then five bytes of a header, whose length is skipped next. Where a call ends within a header its
bytes are kept; `Write` keeps them as they come and `Read` once they are decrypted.

* `walk_cons` — the walk over the bytes of a call is a walk byte by byte;
* `xorByte_twice` — a reader in the state of the writer gets the byte back, and stays in that state;
* `Read_Write` — whatever the calls are, what was written is read.
-/

namespace SingBox.Vless

open Lib List

/-- The length in a header, zero if it is none, and the bytes of the error that the length of no
record gives. -/
def DecodeHeader (h : Bytes) : Nat × Option Bytes :=
  let l := if h.take 3 = [23, 3, 3] then uint ((h.drop 3).take 2) else 0
  (l, if l < 17 ∨ 17000 < l then some (h.take 5) else none)

/-- One direction of an `XorConn`: `OutSkip`, `OutHeader` and the place of `CTR` in the key stream,
or those of the other direction. -/
structure XorState where
  skip : Nat
  header : Bytes := []
  used : Nat := 0
  short : header.length < 5 := by decide

variable (key : Nat → UInt8) (reading : Bool)

def xorKeyStream (used : Nat) : Bytes → Bytes
  | [] => []
  | b :: rest => (b ^^^ key used) :: xorKeyStream (used + 1) rest

/-- The bytes that go into the header: those of a reader after `XORKeyStream`. -/
def clear (used : Nat) (p : Bytes) : Bytes := if reading then xorKeyStream key used p else p

@[simp] theorem length_xorKeyStream (used : Nat) (p : Bytes) :
    (xorKeyStream key used p).length = p.length := by
  induction p generalizing used with
  | nil => rfl
  | cons b p ih => rw [xorKeyStream, length_cons, ih, length_cons]

@[simp] theorem length_clear (used : Nat) (p : Bytes) :
    (clear key reading used p).length = p.length := by
  unfold clear
  split <;> simp

/-- The loop of `Write`, and that of `Read` if `reading`. -/
def walk (s : XorState) (p : Bytes) : XorState × Bytes :=
  if p.length ≤ s.skip then ({ s with skip := s.skip - p.length }, p)
  else
    let skipped := p.take s.skip
    let p' := p.drop s.skip
    let need := 5 - s.header.length
    if h : p'.length < need then
      (⟨0, s.header ++ clear key reading s.used p', s.used + p'.length,
        by rw [length_append, length_clear]; omega⟩, skipped ++ xorKeyStream key s.used p')
    else
      let header := s.header ++ clear key reading s.used (p'.take need)
      let rest := walk { skip := (DecodeHeader header).1, used := s.used + need } (p'.drop need)
      (rest.1, skipped ++ (xorKeyStream key s.used (p'.take need) ++ rest.2))
termination_by p.length
decreasing_by
  have := s.short
  simp only [length_drop]
  omega

def call (s : XorState) (b : Bytes) : XorState × Bytes :=
  if b.length = 0 then (s, []) else walk key reading s b

/-- `XorConn.Write`: the bytes for the connection. -/
def Write : XorState → Bytes → XorState × Bytes := call key false

/-- `XorConn.Read`, of the bytes that the connection has read. -/
def Read : XorState → Bytes → XorState × Bytes := call key true

/-- Calls one after the other, and what they give in a row. -/
def calls (call : XorState → Bytes → XorState × Bytes) (s : XorState) :
    List Bytes → XorState × Bytes
  | [] => (s, [])
  | b :: rest =>
      let later := calls call (call s b).1 rest
      (later.1, (call s b).2 ++ later.2)

/-! ## Byte by byte -/

/-- The state after a byte of a header. -/
def XorState.advance (s : XorState) (clear : Bytes) : XorState :=
  if h : (s.header ++ clear).length < 5 then ⟨0, s.header ++ clear, s.used + 1, h⟩
  else { skip := (DecodeHeader (s.header ++ clear)).1, used := s.used + 1 }

def xorByte (s : XorState) (b : UInt8) : XorState × UInt8 :=
  if 0 < s.skip then ({ s with skip := s.skip - 1 }, b)
  else (s.advance (clear key reading s.used [b]), b ^^^ key s.used)

variable (s : XorState)

theorem walk_nil : walk key reading s [] = (s, []) := by
  rw [walk]
  exact if_pos (Nat.zero_le _)

theorem clear_cons (used : Nat) (b : UInt8) (p : Bytes) :
    clear key reading used (b :: p) =
      clear key reading used [b] ++ clear key reading (used + 1) p := by
  unfold clear
  split <;> rfl

theorem walk_cons (b : UInt8) (p : Bytes) :
    walk key reading s (b :: p) = Prod.map id ((xorByte key reading s b).2 :: ·)
      (walk key reading (xorByte key reading s b).1 p) := by
  unfold xorByte XorState.advance
  rcases s with ⟨_ | skip, header, used, short⟩
  · by_cases last : header.length = 4
    · -- the last byte of the header
      conv_lhs => rw [walk]
      simp [last, xorKeyStream, Prod.map]
    · have fits : header.length + 1 < 5 := by omega
      obtain ⟨n, need⟩ : ∃ n, 5 - header.length = n + 2 := ⟨3 - header.length, by omega⟩
      have need' : 5 - (header.length + 1) = n + 1 := by omega
      conv_lhs => rw [walk]
      cases p with
      | nil => simp [need, fits, walk_nil, xorKeyStream]
      | cons c p =>
        conv_rhs => rw [walk]
        have place (k : Nat) : used + (k + 1 + 1) = used + 1 + (k + 1) := by omega
        simp [fits, need, need', clear_cons key reading used b (c :: _), xorKeyStream, place]
        split <;> rfl
  · conv_lhs => rw [walk]
    conv_rhs => rw [walk]
    simp only [length_cons, Nat.add_le_add_iff_right, Nat.add_sub_add_right, take_succ_cons,
      drop_succ_cons, Nat.zero_lt_succ, if_true, Nat.add_sub_cancel]
    split
    · rfl
    · split <;> rfl

/-- A reader in the state of the writer gets the byte back, and is in its next state then. -/
theorem xorByte_twice (b : UInt8) :
    xorByte key true s (xorByte key false s b).2 = ((xorByte key false s b).1, b) := by
  have back : (b ^^^ key s.used) ^^^ key s.used = b := by
    rw [UInt8.xor_assoc, UInt8.xor_self, UInt8.xor_zero]
  unfold xorByte
  split
  · rfl
  · simp only [clear, xorKeyStream, if_true, back]
    rfl

theorem walk_append (p q : Bytes) :
    walk key reading s (p ++ q) = Prod.map id ((walk key reading s p).2 ++ ·)
      (walk key reading (walk key reading s p).1 q) := by
  induction p generalizing s with
  | nil => rw [nil_append, walk_nil]; rfl
  | cons b p ih => rw [cons_append, walk_cons, walk_cons, ih]; rfl

theorem walk_twice (p : Bytes) :
    walk key true s (walk key false s p).2 = ((walk key false s p).1, p) := by
  induction p generalizing s with
  | nil => rw [walk_nil, walk_nil]
  | cons b p ih =>
    rw [walk_cons]
    show walk key true s ((xorByte key false s b).2 :: _) = _
    rw [walk_cons, xorByte_twice, ih]
    rfl

theorem call_eq_walk (b : Bytes) : call key reading s b = walk key reading s b := by
  unfold call
  split
  case isTrue empty => rw [eq_nil_of_length_eq_zero empty, walk_nil]
  case isFalse => rfl

theorem calls_eq_walk (chunks : List Bytes) :
    calls (call key reading) s chunks = walk key reading s chunks.flatten := by
  induction chunks generalizing s with
  | nil => rw [flatten_nil, walk_nil]; rfl
  | cons b rest ih => rw [calls, ih, flatten_cons, walk_append, call_eq_walk]; rfl

/-- **The layer is transparent.** Where both sides skip the same number of bytes at first and have
the same key stream, and the reads together bring what the writes together sent, they return what
was written, and both sides are in the same state then: they have used as much of the key stream. -/
theorem Read_Write (skip : Nat) (writes reads : List Bytes)
    (cut : reads.flatten = (calls (Write key) { skip } writes).2) :
    (calls (Read key) { skip } reads).2 = writes.flatten ∧
      (calls (Read key) { skip } reads).1 = (calls (Write key) { skip } writes).1 := by
  unfold Write at cut ⊢
  unfold Read
  rw [calls_eq_walk] at cut ⊢
  rw [calls_eq_walk, cut, walk_twice]
  exact ⟨rfl, rfl⟩

/-- The header comes in two writes, and everything in one read. -/
theorem Read_Write_split :
    let sent := (calls (Write fun _ => 7) { skip := 0 } [[23, 3], [3, 0, 20, 1]]).2
    (calls (Read fun _ => 7) { skip := 0 } [sent]).2 = [23, 3, 3, 0, 20, 1] :=
  (Read_Write _ 0 _ _ flatten_singleton).1

end SingBox.Vless
