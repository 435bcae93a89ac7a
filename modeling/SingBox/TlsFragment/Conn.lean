import Mathlib.Data.List.GetD
import SingBox.Lib.Frame
import SingBox.TlsFragment.Index

/-!
# A first write in fragments

`common/tlsfragment/conn.go`: the first write of a connection, if it is a ClientHello with a
server name, is cut at random places inside the labels of the name, and the pieces are sent as
packets of their own, as records of their own, or both.

The random numbers, the errors of the connection below and the list of public suffixes are
arguments. Below, every write that does not fail takes all of its bytes.

* `write_transparent_iff` — the pieces are the original record, whatever the random numbers,
  unless labels are cut of which one is empty: there is no place in it, and the write panics;
* `write_safe_iff` — with whatever bytes, the first write panics or does not return only if a
  label is empty, or an extension that is too long led the search astray.
-/

namespace SingBox.TlsFragment

open SingBox.Lib List Nat

/-! ## The connection below -/

/-- What is asked of the connection below; writes are counted. -/
inductive Op where
  | setNoDelay (noDelay : Bool)
  | write (count : Nat)

/-- The errors of the connection below. -/
abbrev Net := Op → Option String

def Net.Works (net : Net) : Prop := ∀ op, net op = none

/-- A write that failed, with the operation that did and what had been sent before. -/
structure Failure (net : Net) where
  op : Op
  err : String
  sent : List Bytes
  fails : net op = some err

abbrev Go (net : Net) (α : Type) := Except (Stop (Failure net)) α

def Net.call (net : Net) (sent : List Bytes) (op : Op) : Go net Unit :=
  match fails : net op with
  | none => .ok ()
  | some err => .error (.error ⟨op, err, sent, fails⟩)

/-- `math/rand`: the answer to each call of `Intn`, by its number. -/
structure Rand where
  number : Nat → Nat → Nat
  number_lt : ∀ call n, 0 < n → number call n < n

/-- `rand.Intn` panics if there is no number to choose. -/
def Rand.intn {ε : Type} (rand : Rand) (call n : Nat) : Except (Stop ε) Nat :=
  if n = 0 then .error .panic else .ok (rand.number call n)

/-! ## Write -/

/-- `tcp` is whether there is a TCP connection at the bottom. -/
structure Conn where
  tcp : Bool
  firstPacketWritten : Bool
  splitPacket : Bool
  splitRecord : Bool

/-- `strings.Split(name, ".")`. -/
def split : Bytes → List Bytes
  | [] => [[]]
  | b :: rest =>
      match split rest with
      | [] => [[b]]
      | label :: labels => if b = 46 then [] :: label :: labels else (b :: label) :: labels

/-- The labels to cut, and where the first of them is. -/
def labels (publicSuffix : Bytes → Bytes) (serverName : MyServerName) : List Bytes × Nat :=
  let splits := split serverName.serverName
  let splits :=
    if publicSuffix serverName.serverName ≠ [] then
      -- the dots of the name, not those of the suffix
      splits.take (splits.length - serverName.serverName.count 46)
    else splits
  match splits with
  | first :: second :: rest =>
      if first = [46, 46, 46] then
        (second :: rest, serverName.index + first.length + 1)
      else (splits, serverName.index)
  | _ => (splits, serverName.index)

/-- A place inside each label. -/
def splitIndexes {ε : Type} (rand : Rand) : Nat → Nat → List Bytes → Except (Stop ε) (List Nat)
  | _, _, [] => return []
  | i, currentIndex, split :: rest => do
      let splitAt ← rand.intn i split.length
      let next := currentIndex + split.length + if rest = [] then 0 else 1
      let others ← splitIndexes rand (i + 1) next rest
      return (currentIndex + splitAt) :: others

/-- `splitIndexes[i]`. -/
def indexAt {ε : Type} (indexes : List Nat) (i : Nat) : Except (Stop ε) Nat :=
  match indexes[i]? with
  | some index => .ok index
  | none => .error .panic

/-- The part of the write that a turn of the loop sends. -/
def piece {ε : Type} (bound : Bound) (splitRecord : Bool) (b : Slice) (indexes : List Nat)
    (i : Nat) : Except (Stop ε) Slice := do
  if i = 0 then do
    let high ← indexAt indexes i
    let payload ← b.slice bound 0 high
    if splitRecord then payload.slice bound recordLayerHeaderLen payload.len else return payload
  else if i = indexes.length then do
    let low ← indexAt indexes (i - 1)
    b.slice bound low b.len
  else do
    let low ← indexAt indexes (i - 1)
    let high ← indexAt indexes i
    b.slice bound low high

/-- The buffer, and the packets that have been written. -/
structure Progress where
  buffer : Bytes := []
  sent : List Bytes := []

def sendPiece (bound : Bound) (c : Conn) (net : Net) (b : Slice) (indexes : List Nat)
    (progress : Progress) (i : Nat) : Go net Progress := do
  let payload ← piece bound c.splitRecord b indexes i
  if c.splitRecord then do
    let header ← b.slice bound 0 3
    let buffer := if c.splitPacket then [] else progress.buffer
    let buffer := buffer ++ header.bytes ++ putUint 2 (payload.len % 65536) ++ payload.bytes
    if c.splitPacket then do
      net.call progress.sent (.write progress.sent.length)
      return ⟨buffer, progress.sent ++ [buffer]⟩
    else return ⟨buffer, progress.sent⟩
  else if c.splitPacket then do
    net.call progress.sent (.write progress.sent.length)
    return ⟨progress.buffer, progress.sent ++ [payload.bytes]⟩
  else return progress

/-- What a write returns without an error. -/
structure Out where
  n : Nat
  sent : List Bytes

/-- The records that were only collected are written at once. -/
def flush (c : Conn) (net : Net) (progress : Progress) : Go net (List Bytes) :=
  if c.splitRecord ∧ ¬ c.splitPacket then do
    net.call progress.sent (.write progress.sent.length)
    return progress.sent ++ [progress.buffer]
  else return progress.sent

/-- `SetNoDelay`, on a TCP connection. -/
def setNoDelay (net : Net) (tcp : Bool) (sent : List Bytes) (noDelay : Bool) : Go net Unit :=
  if tcp then net.call sent (.setNoDelay noDelay) else return ()

/-- The write of a ClientHello. -/
def writeFragments (bound : Bound) (c : Conn) (net : Net) (rand : Rand)
    (publicSuffix : Bytes → Bytes) (b : Slice) (serverName : MyServerName) : Go net Out := do
  setNoDelay net (c.splitPacket && c.tcp) [] true
  let (splits, currentIndex) := labels publicSuffix serverName
  let indexes ← splitIndexes rand 0 currentIndex splits
  let progress ← (List.range (indexes.length + 1)).foldlM (sendPiece bound c net b indexes) {}
  let sent ← flush c net progress
  setNoDelay net c.tcp sent false
  return ⟨b.len, sent⟩

/-- `Write`. The first packet counts as written however the call ends. -/
def Conn.write (bound : Bound) (c : Conn) (net : Net) (rand : Rand)
    (publicSuffix : Bytes → Bytes) (b : Slice) : Conn × Go net Out :=
  let plain : Go net Out := do
    net.call [] (.write 0)
    return ⟨b.len, [b.bytes]⟩
  if c.firstPacketWritten then (c, plain)
  else
    ({ c with firstPacketWritten := true }, match indexTLSServerName bound b with
      | .ok serverName => writeFragments bound c net rand publicSuffix b serverName
      | .error (.error ()) => plain
      | .error .panic => .error .panic)

/-! ## Labels -/

variable (name : Bytes)

theorem split_ne_nil : split name ≠ [] := by
  cases name with
  | nil => simp [split]
  | cons b rest =>
    rw [split]
    split
    · simp
    · split_ifs <;> simp

theorem split_cons {b : UInt8} {rest label : Bytes} {others : List Bytes}
    (h : split rest = label :: others) :
    split (b :: rest) = if b = 46 then [] :: label :: others else (b :: label) :: others := by
  rw [split, h]

theorem length_split : (split name).length = name.count 46 + 1 := by
  induction name with
  | nil => rfl
  | cons b rest ih =>
    obtain ⟨label, others, eq⟩ := exists_cons_of_ne_nil (split_ne_nil rest)
    rw [eq] at ih
    rw [split_cons eq, count_cons]
    by_cases dot : b = 46
    · rw [if_pos dot, length_cons, ih, dot]
      rfl
    · have other : (b == 46) = false := by simpa using dot
      rw [if_neg dot, other]
      exact ih

/-- The labels and the dots between them are the name. -/
theorem sum_split : ((split name).map fun label => label.length + 1).sum = name.length + 1 := by
  induction name with
  | nil => rfl
  | cons b rest ih =>
    obtain ⟨label, others, eq⟩ := exists_cons_of_ne_nil (split_ne_nil rest)
    rw [eq, map_cons, sum_cons] at ih
    rw [split_cons eq, length_cons]
    by_cases dot : b = 46
    · rw [if_pos dot, map_cons, map_cons, sum_cons, sum_cons, length_nil]
      omega
    · rw [if_neg dot, map_cons, sum_cons, length_cons]
      omega

theorem dot_not_mem {name : Bytes} : ∀ label ∈ split name, 46 ∉ label := by
  induction name with
  | nil => exact forall_mem_singleton.mpr not_mem_nil
  | cons b rest ih =>
    obtain ⟨first, others, eq⟩ := exists_cons_of_ne_nil (split_ne_nil rest)
    rw [split_cons eq]
    rw [eq] at ih
    by_cases dot : b = 46
    · rw [if_pos dot]
      exact forall_mem_cons.mpr ⟨not_mem_nil, ih⟩
    · obtain ⟨here, later⟩ := forall_mem_cons.mp ih
      rw [if_neg dot]
      exact forall_mem_cons.mpr ⟨not_mem_cons_of_ne_of_not_mem (Ne.symm dot) here, later⟩

/-- The labels that are cut. The label of three dots that is looked for cannot be there. -/
theorem labels_eq (publicSuffix : Bytes → Bytes) (serverName : MyServerName) :
    labels publicSuffix serverName =
      (if publicSuffix serverName.serverName ≠ [] then (split serverName.serverName).take 1
        else split serverName.serverName, serverName.index) := by
  have one : (split serverName.serverName).length - serverName.serverName.count 46 = 1 := by
    rw [length_split]
    omega
  have noDots : ∀ first rest, split serverName.serverName = first :: rest →
      first ≠ [46, 46, 46] := by
    intro first rest eq dots
    have none := dot_not_mem first (eq ▸ mem_cons_self)
    rw [dots] at none
    exact none mem_cons_self
  rw [labels, one]
  split
  · rename_i first second rest eq
    split_ifs at eq with known
    · have length := congrArg length eq
      rw [length_take] at length
      simp only [length_cons] at length
      omega
    · rw [if_neg (noDots first _ eq)]
  · rfl

/-! ## Places to cut -/

section

variable {ε : Type} {rand : Rand}

theorem splitIndexes_holds {splits : List Bytes} (nonempty : ∀ label ∈ splits, label ≠ [])
    (i currentIndex : Nat) :
    Satisfies (fun indexes => indexes.length = splits.length ∧ indexes.Pairwise (· < ·) ∧
        ∀ index ∈ indexes, currentIndex ≤ index ∧
          index + 1 < currentIndex + (splits.map fun label => label.length + 1).sum)
      (splitIndexes rand i currentIndex splits : Except (Stop ε) (List Nat)) := by
  induction splits generalizing i currentIndex with
  | nil => exact .pure _ ⟨rfl, .nil, forall_mem_nil _⟩
  | cons label rest ih =>
    have positive : 0 < label.length :=
      length_pos_iff.mpr (nonempty label mem_cons_self)
    have chosen : (rand.intn i label.length : Except (Stop ε) Nat)
        = .ok (rand.number i label.length) := if_neg (by omega)
    have lt := rand.number_lt i label.length positive
    rw [splitIndexes, chosen]
    refine (ih (forall_mem_cons.mp nonempty).2 _ _).bind
      fun others holds => ?_
    obtain ⟨length, increasing, inside⟩ := holds
    rw [map_cons, sum_cons]
    refine .pure _ ⟨?_, pairwise_cons.mpr ⟨?_, increasing⟩, ?_⟩
    · rw [length_cons, length_cons, length]
    · intro index mem
      have later := (inside index mem).1
      omega
    · intro index mem
      rcases mem_cons.mp mem with rfl | mem
      · omega
      · obtain ⟨low, high⟩ := inside index mem
        -- a further index is of a further label
        have more : rest ≠ [] := by
          rintro rfl
          rw [length_eq_zero_iff.mp length] at mem
          cases mem
        rw [if_neg more] at low high
        omega

theorem splitIndexes_panic {splits : List Bytes} (empty : [] ∈ splits) (i currentIndex : Nat) :
    (splitIndexes rand i currentIndex splits : Except (Stop ε) (List Nat)) = .error .panic := by
  induction splits generalizing i currentIndex with
  | nil => cases empty
  | cons label rest ih =>
    cases label with
    | nil => rfl
    | cons b label =>
      have later : [] ∈ rest := by simpa using empty
      show (splitIndexes rand (i + 1) _ rest >>= _) = _
      rw [ih later]
      rfl

/-- The last byte of every label. -/
def Rand.highest : Rand := ⟨fun _ n => n - 1, fun _ _ lt => sub_one_lt_of_lt lt⟩

theorem splitIndexes_highest {splits : List Bytes} (nonempty : ∀ label ∈ splits, label ≠ [])
    (some : splits ≠ []) (i currentIndex : Nat) :
    ∃ before, (splitIndexes .highest i currentIndex splits : Except (Stop ε) (List Nat)) =
      .ok (before ++ [currentIndex + (splits.map fun label => label.length + 1).sum - 2]) := by
  induction splits generalizing i currentIndex with
  | nil => exact absurd rfl some
  | cons label rest ih =>
    obtain ⟨here, later⟩ := forall_mem_cons.mp nonempty
    have positive : 0 < label.length := length_pos_iff.mpr here
    have chosen : (Rand.highest.intn i label.length : Except (Stop ε) Nat)
        = .ok (label.length - 1) := if_neg (by omega)
    rw [splitIndexes, map_cons, sum_cons]
    cases rest with
    | nil =>
      refine ⟨[], (bind_of_ok chosen).trans ?_⟩
      have last : currentIndex + (label.length - 1) =
          currentIndex + (label.length + 1 + 0) - 2 := by omega
      show Except.ok [currentIndex + (label.length - 1)] = _
      rw [last]
      rfl
    | cons second rest =>
      obtain ⟨before, cut⟩ := ih later nofun (i + 1) (currentIndex + label.length + 1)
      refine ⟨(currentIndex + (label.length - 1)) :: before, (bind_of_ok chosen).trans ?_⟩
      refine (bind_of_ok cut).trans ?_
      rw [cons_append, Nat.add_assoc, Nat.add_assoc, ← Nat.add_assoc label.length]
      rfl

end

/-! ## Pieces -/

/-- Where the first piece starts. -/
def Conn.start (c : Conn) : Nat := if c.splitRecord then recordLayerHeaderLen else 0

/-- Where a piece starts, and where the one before it ends. -/
def edge (start : Nat) (indexes : List Nat) (len i : Nat) : Nat :=
  (start :: (indexes ++ [len])).getD i 0

/-- Places to cut, in order, between the start and the end. -/
def Ordered (R : Nat → Nat → Prop) (start : Nat) (indexes : List Nat) (len : Nat) : Prop :=
  (start :: (indexes ++ [len])).Pairwise R

section

variable {start len : Nat} {indexes : List Nat}

theorem edge_last : edge start indexes len (indexes.length + 1) = len := by
  rw [edge, getD_cons_succ, getD_append_right _ _ _ _ (Nat.le_refl _), Nat.sub_self]
  rfl

theorem Ordered.edge {R : Nat → Nat → Prop} (ordered : Ordered R start indexes len) {i j : Nat}
    (lt : i < j) (le : j ≤ indexes.length + 1) :
    R (edge start indexes len i) (edge start indexes len j) := by
  have length : (start :: (indexes ++ [len])).length = indexes.length + 2 := by simp
  have second : j < (start :: (indexes ++ [len])).length := by omega
  have first : i < (start :: (indexes ++ [len])).length := by omega
  rw [TlsFragment.edge, TlsFragment.edge, getD_eq_getElem _ _ first, getD_eq_getElem _ _ second]
  exact pairwise_iff_getElem.mp ordered i j first second lt

theorem Ordered.of_lt (ordered : Ordered (· < ·) start indexes len) :
    Ordered (· ≤ ·) start indexes len :=
  ordered.imp Nat.le_of_lt

theorem Ordered.edge_le {i : Nat} (ordered : Ordered (· ≤ ·) start indexes len)
    (le : i ≤ indexes.length) : TlsFragment.edge start indexes len (i + 1) ≤ len := by
  rcases Nat.lt_or_eq_of_le le with lt | rfl
  · have before := ordered.edge (succ_lt_succ lt) (Nat.le_refl _)
    rwa [edge_last] at before
  · rw [edge_last]

end

/-- The bytes of a part, by where it starts and where it ends. -/
theorem bytes_eq_of_at {b t : Slice} {low high : Nat} (part : b.At t low)
    (len : t.len = high - low) : t.bytes = (b.bytes.take high).drop low := by
  rw [part.bytes, len, drop_take]

theorem slice_bytes {ε : Type} {b : Slice} {bound : Bound} {low high : Nat} (le : low ≤ high)
    (inside : high ≤ b.len) :
    Satisfies (fun t => t.bytes = (b.bytes.take high).drop low)
      (b.slice bound low high : Except (Stop ε) Slice) := by
  refine (Satisfies.slice_at (Slice.At.refl b) le inside).mono fun t read => ?_
  rw [Nat.zero_add] at read
  exact bytes_eq_of_at read.1 read.2

theorem drop_take_append {l : Bytes} {low middle high : Nat} (le : low ≤ middle)
    (le' : middle ≤ high) :
    (l.take middle).drop low ++ (l.take high).drop middle = (l.take high).drop low := by
  have front : l.take middle = (l.take high).take middle := by
    rw [take_take, Nat.min_eq_left le']
  have back : (l.take high).drop middle = ((l.take high).drop low).drop (middle - low) := by
    rw [drop_drop, Nat.add_sub_cancel' le]
  rw [front, drop_take, back, take_append_drop]

section

variable {ε : Type} {bound : Bound} {c : Conn} {b : Slice} {indexes : List Nat}

theorem indexAt_eq {start len i : Nat} (lt : i < indexes.length) :
    (indexAt indexes i : Except (Stop ε) Nat) = .ok (edge start indexes len (i + 1)) := by
  rw [indexAt, getElem?_eq_getElem lt, edge, getD_cons_succ, getD_append _ _ _ _ lt,
    getD_eq_getElem _ _ lt]

theorem piece_holds (ordered : Ordered (· ≤ ·) c.start indexes b.len) (nonempty : indexes ≠ [])
    {i : Nat} (le : i ≤ indexes.length) :
    Satisfies (fun payload => payload.bytes =
        (b.bytes.take (edge c.start indexes b.len (i + 1))).drop (edge c.start indexes b.len i))
      (piece bound c.splitRecord b indexes i : Except (Stop ε) Slice) := by
  have all := Slice.At.refl b
  have positive : 0 < indexes.length := length_pos_iff.mpr nonempty
  have inside : edge c.start indexes b.len (i + 1) ≤ b.len := ordered.edge_le le
  have before : edge c.start indexes b.len i ≤ edge c.start indexes b.len (i + 1) :=
    ordered.edge (lt_succ_self i) (succ_le_succ le)
  cases i with
  | zero =>
    rw [piece, indexAt_eq positive]
    refine (Satisfies.slice_at all (Nat.zero_le _) inside).bind fun payload read => ?_
    obtain ⟨part, len⟩ := read
    by_cases splitRecord : c.splitRecord = true
    · have start : edge c.start indexes b.len 0 = 5 := if_pos splitRecord
      rw [if_pos splitRecord]
      have five : recordLayerHeaderLen = 5 := rfl
      refine (Satisfies.slice_at part (by omega) (Nat.le_refl _)).mono fun rest read => ?_
      rw [start]
      exact bytes_eq_of_at read.1 (by omega)
    · have start : edge c.start indexes b.len 0 = 0 := if_neg splitRecord
      rw [if_neg splitRecord, start]
      exact .pure _ (bytes_eq_of_at part len)
  | succ i =>
    have low : (indexAt indexes i : Except (Stop ε) Nat)
        = .ok (edge c.start indexes b.len (i + 1)) := indexAt_eq le
    rw [piece, Nat.add_sub_cancel, low]
    by_cases last : i + 1 = indexes.length
    · rw [if_pos last]
      have ends : edge c.start indexes b.len (i + 1 + 1) = b.len := by rw [last, edge_last]
      rw [ends] at before ⊢
      exact slice_bytes before (Nat.le_refl _)
    · have high : (indexAt indexes (i + 1) : Except (Stop ε) Nat)
          = .ok (edge c.start indexes b.len (i + 1 + 1)) := indexAt_eq (by omega)
      rw [if_neg last, high]
      exact slice_bytes before inside

/-- The last piece begins at the last place. -/
theorem sendPiece_last_panics {net : Net} {before : List Nat} {last : Nat} (lt : b.len < last)
    (progress : Progress) :
    sendPiece bound c net b (before ++ [last]) progress (before ++ [last]).length
      = .error .panic := by
  have length : (before ++ [last]).length = before.length + 1 := length_append
  have low : (indexAt (before ++ [last]) before.length : Go net Nat) = .ok last := by
    rw [indexAt, getElem?_append_right (Nat.le_refl _), Nat.sub_self]
    rfl
  have outside : (b.slice bound last b.len : Go net Slice) = .error .panic :=
    dif_neg fun inside => absurd inside.1 (Nat.not_le_of_lt lt)
  rw [sendPiece, piece, length, if_neg (succ_ne_zero _), if_pos rfl, Nat.add_sub_cancel,
    bind_of_ok low, outside]
  rfl

/-! ## The loop -/

/-- A piece as it is sent. -/
def wrap (c : Conn) (b : Slice) (payload : Bytes) : Bytes :=
  if c.splitRecord then Frame.encode 2 ⟨b.bytes.take 3, payload⟩ else payload

/-- What has been sent or collected before some place. -/
structure Sent (c : Conn) (b : Slice) (upTo : Nat) (progress : Progress) (pieces : List Bytes) :
    Prop where
  flatten : pieces.flatten = (b.bytes.take upTo).drop c.start
  nonempty : ∀ payload ∈ pieces, payload ≠ []
  sent : progress.sent = if c.splitPacket then pieces.map (wrap c b) else []
  buffer : c.splitRecord → ¬ c.splitPacket → progress.buffer = (pieces.map (wrap c b)).flatten

theorem call_holds (net : Net) (sent : List Bytes) (op : Op) :
    Satisfies (fun _ => True) (net.call sent op) := by
  unfold Net.call
  split <;> trivial

theorem Sent.append {upTo next : Nat} {progress after : Progress} {pieces : List Bytes}
    (before : Sent c b upTo progress pieces) {payload : Bytes}
    (eq : payload = (b.bytes.take next).drop upTo) (start : c.start ≤ upTo) (lt : upTo < next)
    (le : next ≤ b.len)
    (sent : after.sent = if c.splitPacket then progress.sent ++ [wrap c b payload] else [])
    (buffer : c.splitRecord → ¬ c.splitPacket →
      after.buffer = progress.buffer ++ wrap c b payload) :
    Sent c b next after (pieces ++ [payload]) where
  flatten := by
    rw [flatten_append, before.flatten, flatten_singleton, eq]
    exact drop_take_append start (Nat.le_of_lt lt)
  nonempty := by
    refine forall_mem_append.mpr ⟨before.nonempty, forall_mem_singleton.mpr ?_⟩
    rw [eq, ne_nil_iff_length_pos, length_drop, length_take, Slice.length_bytes]
    omega
  sent := by
    rw [sent, before.sent, map_append]
    split_ifs <;> rfl
  buffer := by
    intro splitRecord collected
    rw [buffer splitRecord collected, before.buffer splitRecord collected, map_append,
      flatten_append, map_singleton, flatten_singleton]

/-- A turn sends or collects the next piece, with its own length. -/
theorem sendPiece_holds (net : Net) (ordered : Ordered (· < ·) c.start indexes b.len)
    (nonempty : indexes ≠ []) (small : b.len < 65541) (long : 3 ≤ b.len) {i : Nat}
    (le : i ≤ indexes.length) {progress : Progress}
    (before : ∃ pieces, Sent c b (edge c.start indexes b.len i) progress pieces) :
    Satisfies (fun after => ∃ pieces, Sent c b (edge c.start indexes b.len (i + 1)) after pieces)
      (sendPiece bound c net b indexes progress i) := by
  obtain ⟨pieces, before⟩ := before
  have start : c.start ≤ edge c.start indexes b.len i := by
    cases i with
    | zero => exact Nat.le_refl _
    | succ i => exact Nat.le_of_lt (ordered.edge (succ_pos i) (le_succ_of_le le))
  have lt := ordered.edge (lt_succ_self i) (succ_le_succ le)
  have inside : edge c.start indexes b.len (i + 1) ≤ b.len := ordered.of_lt.edge_le le
  refine (piece_holds ordered.of_lt nonempty le).bind fun payload eq => ?_
  have next {after : Progress} :=
    @Sent.append c b _ _ progress after pieces before payload.bytes eq start lt inside
  by_cases splitRecord : c.splitRecord = true
  · rw [if_pos splitRecord]
    refine (slice_bytes (Nat.zero_le 3) long).bind fun header head => ?_
    -- a piece has no more bytes than the handshake, whose length had sixteen bits
    have fits : payload.len % 65536 = payload.bytes.length := by
      have five : c.start = 5 := if_pos splitRecord
      rw [← Slice.length_bytes, eq, length_drop, length_take]
      omega
    have record : header.bytes ++ putUint 2 (payload.len % 65536) ++ payload.bytes
        = wrap c b payload.bytes := by
      rw [wrap, if_pos splitRecord, Frame.encode, fits, head, drop_zero]
    by_cases splitPacket : c.splitPacket = true
    · simp only [if_pos splitPacket, nil_append, record]
      refine (call_holds net _ _).bind fun _ _ => .pure _ ⟨_, next ?_ ?_⟩
      · rw [if_pos splitPacket]
      · exact fun _ collected => absurd splitPacket collected
    · simp only [if_neg splitPacket, append_assoc] at record ⊢
      simp only [record]
      refine .pure _ ⟨_, next ?_ fun _ _ => rfl⟩
      rw [if_neg splitPacket, before.sent, if_neg splitPacket]
  · have plain : payload.bytes = wrap c b payload.bytes := by rw [wrap, if_neg splitRecord]
    rw [if_neg splitRecord]
    by_cases splitPacket : c.splitPacket = true
    · rw [if_pos splitPacket]
      refine (call_holds net _ _).bind fun _ _ => .pure _ ⟨_, next ?_ (absurd · splitRecord)⟩
      rw [if_pos splitPacket, ← plain]
    · rw [if_neg splitPacket]
      refine .pure _ ⟨_, next ?_ (absurd · splitRecord)⟩
      rw [if_neg splitPacket, before.sent, if_neg splitPacket]

end

/-! ## Transparency -/

/-- The original write reaches the other side. -/
structure Transparent (c : Conn) (b : Slice) (out : Out) : Prop where
  count : out.n = b.len
  plain : c.splitRecord = false → out.sent.flatten = b.bytes
  records : c.splitRecord = true → ∃ records,
    Frame.decode 3 2 out.sent.flatten = some records ∧
    (∀ record ∈ records, record.head = b.bytes.take 3 ∧ record.payload ≠ []) ∧
    (records.map Frame.payload).flatten = b.bytes.drop 5

section

variable {bound : Bound} {c : Conn} {b : Slice}

/-- Pieces that have all been sent, in order and each in its own record if so. -/
theorem Sent.transparent {progress : Progress} {pieces : List Bytes}
    (all : Sent c b b.len progress pieces) (small : b.len < 65541) (long : 5 ≤ b.len) {out : Out}
    (count : out.n = b.len) (sent : out.sent.flatten = (pieces.map (wrap c b)).flatten) :
    Transparent c b out := by
  have whole : pieces.flatten = b.bytes.drop c.start := by
    rw [all.flatten, take_of_length_le (Nat.le_of_eq b.length_bytes)]
  refine ⟨count, fun plain => ?_, fun splitRecord => ?_⟩
  · have start : c.start = 0 := if_neg (by rw [plain]; decide)
    have same : pieces.map (wrap c b) = pieces := by
      refine (map_congr_left fun payload _ => ?_).trans (map_id pieces)
      exact if_neg (by rw [plain]; decide)
    rw [sent, same, whole, start, drop_zero]
  · have start : c.start = 5 := if_pos splitRecord
    rw [start] at whole
    refine ⟨pieces.map (Frame.mk (b.bytes.take 3)), ?_, ?_, ?_⟩
    · have encoded : pieces.map (wrap c b)
          = (pieces.map (Frame.mk (b.bytes.take 3))).map (Frame.encode 2) := by
        rw [map_map]
        exact map_congr_left fun payload _ => if_pos splitRecord
      rw [sent, encoded]
      refine Frame.decode_encode (by decide) fun record mem => ?_
      obtain ⟨payload, here, rfl⟩ := mem_map.mp mem
      refine ⟨?_, ?_⟩
      · show (b.bytes.take 3).length = 3
        rw [length_take, Slice.length_bytes]
        omega
      · have le := (sublist_flatten_of_mem here).length_le
        rw [whole, length_drop, Slice.length_bytes] at le
        exact Nat.lt_of_le_of_lt le (by omega)
    · intro record mem
      obtain ⟨payload, here, rfl⟩ := mem_map.mp mem
      exact ⟨rfl, all.nonempty payload here⟩
    · rw [map_map]
      exact (congrArg List.flatten (map_id pieces)).trans whole

theorem setNoDelay_holds (net : Net) (tcp : Bool) (sent : List Bytes) (noDelay : Bool) :
    Satisfies (fun _ => True) (setNoDelay net tcp sent noDelay) :=
  Satisfies.ite _ (fun _ => call_holds net _ _) fun _ => trivial

theorem flush_holds (net : Net) (enabled : c.splitPacket = true ∨ c.splitRecord = true)
    {upTo : Nat} {progress : Progress} {pieces : List Bytes} (all : Sent c b upTo progress pieces) :
    Satisfies (fun sent => sent.flatten = (pieces.map (wrap c b)).flatten)
      (flush c net progress) := by
  have sent := all.sent
  refine .ite _ (fun collected => ?_) fun direct => ?_
  · refine (call_holds net _ _).bind fun _ _ => .pure _ ?_
    rw [if_neg collected.2] at sent
    rw [sent, nil_append, flatten_singleton, all.buffer collected.1 collected.2]
  · have splitPacket : c.splitPacket = true := by
      rcases enabled with splitPacket | splitRecord
      · exact splitPacket
      · by_contra off
        exact direct ⟨splitRecord, off⟩
    rw [if_pos splitPacket] at sent
    exact .pure _ (by rw [sent])

/-- The labels that are cut are a part of the name. -/
theorem labels_spec (publicSuffix : Bytes → Bytes) (serverName : MyServerName) :
    (labels publicSuffix serverName).1 ≠ [] ∧
      (labels publicSuffix serverName).2 = serverName.index ∧
      ((labels publicSuffix serverName).1.map fun label => label.length + 1).sum ≤
        serverName.serverName.length + 1 := by
  have all := sum_split serverName.serverName
  obtain ⟨first, rest, eq⟩ := exists_cons_of_ne_nil (split_ne_nil serverName.serverName)
  rw [labels_eq, eq]
  rw [eq, map_cons, sum_cons] at all
  split_ifs
  · refine ⟨nofun, rfl, ?_⟩
    show first.length + 1 + 0 ≤ _
    omega
  · refine ⟨nofun, rfl, ?_⟩
    rw [map_cons, sum_cons]
    omega

/-- The bytes of the labels that are cut, with a dot after each. -/
def labelsLength (publicSuffix : Bytes → Bytes) (serverName : MyServerName) : Nat :=
  ((labels publicSuffix serverName).1.map fun label => label.length + 1).sum

section

variable {publicSuffix : Bytes → Bytes} {serverName : MyServerName} (rand : Rand)
  (after : 5 < serverName.index)
  (nonempty : ∀ label ∈ (labels publicSuffix serverName).1, label ≠ [])
include after nonempty

/-- Labels that are not empty are cut in order. -/
theorem splitIndexes_ordered {ε : Type} {R : Nat → Nat → Prop} (of_lt : ∀ x y, x < y → R x y)
    (last : ∀ x, x + 2 ≤ serverName.index + labelsLength publicSuffix serverName → R x b.len)
    (long : 5 < b.len) (c : Conn) :
    Satisfies (fun indexes => Ordered R c.start indexes b.len ∧ indexes ≠ [])
      (splitIndexes rand 0 (labels publicSuffix serverName).2
        (labels publicSuffix serverName).1 : Except (Stop ε) (List Nat)) := by
  obtain ⟨some, index, -⟩ := labels_spec publicSuffix serverName
  have start : c.start ≤ 5 := by
    unfold Conn.start
    split_ifs <;> decide
  refine (splitIndexes_holds nonempty 0 (labels publicSuffix serverName).2).mono
    fun indexes ⟨length, increasing, between⟩ => ?_
  rw [index] at between
  refine ⟨pairwise_cons.mpr ⟨fun x mem => of_lt _ _ ?_, pairwise_append.mpr
    ⟨increasing.imp (of_lt _ _), pairwise_singleton _ _, fun x mem y isLen => ?_⟩⟩, ?_⟩
  · rcases mem_append.mp mem with mem | isLen
    · have low := (between x mem).1
      omega
    · rw [mem_singleton.mp isLen]
      omega
  · rw [mem_singleton.mp isLen]
    exact last x (between x mem).2
  · rintro rfl
    exact some (length_eq_zero_iff.mp length.symm)

theorem lt_len (inside : serverName.index + labelsLength publicSuffix serverName ≤ b.len + 2) :
    5 < b.len := by
  obtain ⟨first, rest, eq⟩ := exists_cons_of_ne_nil (labels_spec publicSuffix serverName).1
  rw [labelsLength, eq, map_cons, sum_cons] at inside
  have positive : 0 < first.length := length_pos_iff.mpr (nonempty first (eq ▸ mem_cons_self))
  omega

theorem writeFragments_safe
    (inside : serverName.index + labelsLength publicSuffix serverName ≤ b.len + 2) (net : Net) :
    Satisfies (fun _ => True) (writeFragments bound c net rand publicSuffix b serverName) := by
  have long := lt_len after nonempty inside
  refine (setNoDelay_holds net _ _ _).bind fun _ _ => ?_
  refine (splitIndexes_ordered (R := (· ≤ ·)) rand after nonempty (fun _ _ => Nat.le_of_lt)
    (fun x le => by omega) long c).bind fun indexes cut => ?_
  refine (Satisfies.foldlM_range (fun _ _ => True) trivial fun i lt progress _ => ?_).bind
    fun progress _ => ?_
  · refine (piece_holds cut.1 cut.2 (le_of_lt_succ lt)).bind fun payload _ => ?_
    refine .ite _ (fun _ => ?_) fun _ => ?_
    · refine (Satisfies.slice (Nat.zero_le 3)
        (Nat.le_trans (by omega) (b.le_limit bound))).bind fun header _ => ?_
      exact .ite _ (fun _ => (call_holds net _ _).bind fun _ _ => trivial) fun _ => trivial
    · exact .ite _ (fun _ => (call_holds net _ _).bind fun _ _ => trivial) fun _ => trivial
  · refine .bind (Q := fun _ => True) ?_ fun sent _ => ?_
    · exact .ite _ (fun _ => (call_holds net _ _).bind fun _ _ => trivial) fun _ => trivial
    · exact (setNoDelay_holds net _ _ _).bind fun _ _ => trivial

/-- Labels that are not empty are cut, and the pieces are the whole. -/
theorem writeFragments_holds (inside : serverName.In b 0) (net : Net)
    (enabled : c.splitPacket = true ∨ c.splitRecord = true) (small : b.len < 65541) :
    Satisfies (Transparent c b) (writeFragments bound c net rand publicSuffix b serverName) := by
  have fits : 0 + serverName.index + serverName.serverName.length ≤ b.len := inside.inside
  have sum : labelsLength publicSuffix serverName ≤ serverName.serverName.length + 1 :=
    (labels_spec publicSuffix serverName).2.2
  have long : 5 < b.len := by omega
  refine (setNoDelay_holds net _ _ _).bind fun _ _ => ?_
  refine (splitIndexes_ordered (R := (· < ·)) rand after nonempty (fun _ _ => id)
    (fun x le => by omega) long c).bind fun indexes ⟨ordered, cuts⟩ => ?_
  refine (Satisfies.foldlM_range
    (fun i progress => ∃ pieces, Sent c b (edge c.start indexes b.len i) progress pieces)
    ⟨[], ?_, ?_, ?_, ?_⟩ fun i lt progress before => ?_).bind fun progress done => ?_
  · show [] = (b.bytes.take c.start).drop c.start
    rw [drop_take, Nat.sub_self, take_zero]
  · intro payload mem
    cases mem
  · split_ifs <;> rfl
  · intro _ _
    rfl
  · exact sendPiece_holds net ordered cuts small (by omega) (le_of_lt_succ lt) before
  · obtain ⟨pieces, all⟩ := done
    rw [edge_last] at all
    refine (flush_holds net enabled all).bind fun sent whole => ?_
    refine (setNoDelay_holds net _ _ _).bind fun _ _ => .pure _ ?_
    exact all.transparent small (Nat.le_of_lt long) rfl whole

end

section

variable (rand : Rand) {publicSuffix : Bytes → Bytes} {serverName : MyServerName}

/-- On a connection that works the delay is set and the labels are cut. -/
theorem writeFragments_cut {indexes : Go (fun _ => none) (List Nat)}
    (cut : splitIndexes rand 0 (labels publicSuffix serverName).2
      (labels publicSuffix serverName).1 = indexes) :
    writeFragments bound c (fun _ => none) rand publicSuffix b serverName = do
      let indexes ← indexes
      let progress ← (List.range (indexes.length + 1)).foldlM (sendPiece bound c _ b indexes) {}
      let sent ← flush c _ progress
      setNoDelay _ c.tcp sent false
      return ⟨b.len, sent⟩ := by
  have delay : setNoDelay (fun _ => none) (c.splitPacket && c.tcp) [] true = .ok () := by
    unfold setNoDelay
    split_ifs <;> rfl
  rw [← cut]
  exact bind_of_ok delay

theorem writeFragments_panic (empty : [] ∈ (labels publicSuffix serverName).1) :
    writeFragments bound c (fun _ => none) rand publicSuffix b serverName = .error .panic :=
  writeFragments_cut rand (splitIndexes_panic empty 0 _)

/-- The last label is cut behind the end. -/
theorem writeFragments_outside
    (nonempty : ∀ label ∈ (labels publicSuffix serverName).1, label ≠ [])
    (outside : b.len + 2 < serverName.index + labelsLength publicSuffix serverName) :
    writeFragments bound c (fun _ => none) .highest publicSuffix b serverName
      = .error .panic := by
  obtain ⟨some, index, -⟩ := labels_spec publicSuffix serverName
  obtain ⟨before, cut⟩ := splitIndexes_highest nonempty some 0 (labels publicSuffix serverName).2
  rw [index] at cut
  change _ = Except.ok (before ++ [serverName.index + labelsLength publicSuffix serverName - 2])
    at cut
  generalize isLast : serverName.index + labelsLength publicSuffix serverName - 2 = last at cut
  have noError (failure : Failure fun _ => none) : False := nomatch failure.fails
  have sends := foldlM_range_panic noError
    (fun progress => @sendPiece_last_panics bound c b _ before last (by omega) progress) {}
  rw [← index] at cut
  rw [writeFragments_cut .highest cut, bind_of_ok rfl, sends]
  rfl

end

theorem write_found {net : Net} {publicSuffix : Bytes → Bytes} {serverName : MyServerName}
    (rand : Rand) (first : c.firstPacketWritten = false)
    (found : indexTLSServerName bound b = .ok serverName) :
    (c.write bound net rand publicSuffix b).2 =
      writeFragments bound c net rand publicSuffix b serverName := by
  rw [Conn.write, if_neg (by rw [first]; decide), found]

end

/-- The first write of a connection is exactly one record. -/
def OneRecord (b : Slice) : Prop := b.len = 5 + uint ((b.bytes.drop 3).take 2)

theorem OneRecord.small {b : Slice} (record : OneRecord b) : b.len < 65541 := by
  have lt := uint_lt ((b.bytes.drop 3).take 2)
  have le : 256 ^ ((b.bytes.drop 3).take 2).length ≤ 256 ^ 2 :=
    Nat.pow_le_pow_right (by decide) (length_take_le _ _)
  rw [OneRecord] at record
  omega

/-- A ClientHello whose name begins with a label reaches the other side as it was written, in
every mode and with every random number, unless all labels are cut and one of them is empty. -/
theorem write_transparent_iff (bound : Bound) (publicSuffix : Bytes → Bytes) (c : Conn)
    (b : Slice) (serverName : MyServerName) (first : c.firstPacketWritten = false)
    (enabled : c.splitPacket = true ∨ c.splitRecord = true) (record : OneRecord b)
    (found : indexTLSServerName bound b = .ok serverName)
    (label : (split serverName.serverName).head? ≠ some []) :
    (∀ net rand, Satisfies (Transparent c b) (c.write bound net rand publicSuffix b).2 ∧
      (net.Works → ∃ out, (c.write bound net rand publicSuffix b).2 = .ok out)) ↔
    (publicSuffix serverName.serverName ≠ [] ∨
      ∀ label ∈ split serverName.serverName, label ≠ []) := by
  simp only [write_found _ first found]
  constructor
  · intro transparent
    by_contra bad
    have cut : [] ∈ (labels publicSuffix serverName).1 := by
      rw [labels_eq, if_neg fun known => bad (.inl known)]
      by_contra absent
      exact bad (.inr fun label mem empty => absent (empty ▸ mem))
    have holds := (transparent (fun _ => none) ⟨fun _ _ => 0, fun _ _ lt => lt⟩).1
    rw [writeFragments_panic _ cut] at holds
    exact holds
  · intro good net rand
    have nonempty : ∀ label ∈ (labels publicSuffix serverName).1, label ≠ [] := by
      intro cut mem
      rw [labels_eq] at mem
      split_ifs at mem with known
      · obtain ⟨head, rest, eq⟩ := exists_cons_of_ne_nil (split_ne_nil serverName.serverName)
        rw [eq] at mem label
        rw [mem_singleton.mp mem]
        exact fun empty => label (by rw [empty]; rfl)
      · exact (good.resolve_left known) cut mem
    have small := record.small
    have inside := (indexTLSServerName_holds (by omega)).ok found
    have holds : Satisfies (Transparent c b)
        (writeFragments bound c net rand publicSuffix b serverName) :=
      writeFragments_holds rand (index_lt found) nonempty inside net enabled small
    refine ⟨holds, fun works => ?_⟩
    obtain ⟨out, eq, -⟩ := holds.exists_ok fun failure => by
      have fails := failure.fails
      rw [works failure.op] at fails
      cases fails
    exact ⟨out, eq⟩

/-- With whatever bytes, in every mode and with every random number, the first write does not panic
and does not go on for ever, exactly if the search comes to no extension at which it stays, and the
labels that are cut of a name that it finds are not empty and end inside of the write. -/
theorem write_safe_iff (bound : Bound) (publicSuffix : Bytes → Bytes) (b : Slice) :
    (∀ (c : Conn) net rand, c.firstPacketWritten = false →
      (c.write bound net rand publicSuffix b).2 ≠ .error .panic) ↔
    (∀ start list walk, Reaches bound b start list walk → ¬ walk.Stuck) ∧
    ∀ serverName, indexTLSServerName bound b = .ok serverName →
      (∀ label ∈ (labels publicSuffix serverName).1, label ≠ []) ∧
      serverName.index + labelsLength publicSuffix serverName ≤ b.len + 2 := by
  rw [← indexTLSServerName_returns_iff]
  constructor
  · intro safe
    refine ⟨fun panics => ?_, fun serverName found => ?_⟩
    · refine safe ⟨false, false, true, true⟩ (fun _ => none) .highest rfl ?_
      rw [Conn.write, if_neg (by decide), panics]
    · have runs (rand : Rand) : writeFragments bound ⟨false, false, true, true⟩ (fun _ => none) rand
          publicSuffix b serverName ≠ .error .panic := by
        rw [← write_found rand rfl found]
        exact safe _ _ rand rfl
      have nonempty : ∀ label ∈ (labels publicSuffix serverName).1, label ≠ [] := by
        rintro label mem rfl
        exact runs .highest (writeFragments_panic _ mem)
      refine ⟨nonempty, ?_⟩
      by_contra outside
      exact runs .highest (writeFragments_outside nonempty (Nat.lt_of_not_le outside))
  · rintro ⟨returns, good⟩ c net rand first
    refine Satisfies.ne_panic (Q := fun _ => True) ?_
    cases found : indexTLSServerName bound b with
    | ok serverName =>
      obtain ⟨nonempty, inside⟩ := good serverName found
      rw [write_found rand first found]
      exact writeFragments_safe rand (index_lt found) nonempty inside net
    | error stop =>
      rw [Conn.write, if_neg (by rw [first]; decide), found]
      cases stop with
      | error err => exact (call_holds net _ _).bind fun _ _ => trivial
      | panic => exact absurd found returns

/-- A record with a ClientHello that has a server name and nothing else. -/
def clientHello (name : Bytes) : Bytes :=
  let sni := putUint 2 (name.length + 3) ++ [0] ++ putUint 2 name.length ++ name
  let extension := [0, 0] ++ putUint 2 sni.length ++ sni
  let body := [3, 3] ++ List.replicate 32 0 ++ [0, 0, 0, 0] ++ putUint 2 extension.length ++
    extension
  let handshake := [1] ++ putUint 3 body.length ++ body
  [22, 3, 1] ++ putUint 2 handshake.length ++ handshake

/-- The last label is the public suffix of a name that no rule matches. -/
def lastLabel (name : Bytes) : Bytes := (split name).getLastD []

/-- A new connection that splits packets and records. -/
def splitBoth : Conn := ⟨true, false, true, true⟩

theorem write_example_com :
    OneRecord (Slice.ofBytes (clientHello (goBytes "example.com"))) ∧
    ∀ net rand,
      Satisfies (Transparent splitBoth (Slice.ofBytes (clientHello (goBytes "example.com"))))
        (splitBoth.write .capacity net rand lastLabel
          (Slice.ofBytes (clientHello (goBytes "example.com")))).2 ∧
      (net.Works → ∃ out, (splitBoth.write .capacity net rand lastLabel
        (Slice.ofBytes (clientHello (goBytes "example.com")))).2 = .ok out) :=
  ⟨by rfl, (write_transparent_iff .capacity lastLabel splitBoth _
    ⟨58, 11, goBytes "example.com", 47⟩ rfl (.inl rfl) (by rfl) (by decide +kernel)
    (by decide)).mpr (.inl (by decide))⟩

/-- The name ends with a dot, so that no suffix is known and the empty label after it is cut. -/
theorem trailing_dot_panics :
    (splitBoth.write .capacity (fun _ => none) ⟨fun _ _ => 0, fun _ _ lt => lt⟩ lastLabel
      (Slice.ofBytes (clientHello (goBytes "example.com.")))).2 = .error .panic := by
  have found : indexTLSServerName .capacity (Slice.ofBytes (clientHello (goBytes "example.com.")))
      = .ok ⟨58, 12, goBytes "example.com.", 47⟩ := by
    decide +kernel
  exact (write_found _ rfl found).trans (writeFragments_panic _ (by decide))

/-- With a known suffix only the first label is cut. -/
theorem write_safe_example_com :
    indexTLSServerName .capacity (Slice.ofBytes (clientHello (goBytes "example.com"))) =
      .ok ⟨58, 11, goBytes "example.com", 47⟩ ∧
    ∀ (c : Conn) net rand, c.firstPacketWritten = false →
      (c.write .capacity net rand lastLabel
        (Slice.ofBytes (clientHello (goBytes "example.com")))).2 ≠ .error .panic := by
  have name : indexTLSServerName .capacity (Slice.ofBytes (clientHello (goBytes "example.com")))
      = .ok ⟨58, 11, goBytes "example.com", 47⟩ := by
    decide +kernel
  have returns := (indexTLSServerName_returns_iff _).mp (by rw [name]; nofun)
  refine ⟨name, (write_safe_iff .capacity lastLabel _).mpr ⟨returns, fun serverName found => ?_⟩⟩
  cases name.symm.trans found
  decide +kernel

/-- A name that begins with a dot has an empty first label, which is always cut. -/
theorem leading_dot_panics :
    (splitBoth.write .capacity (fun _ => none) ⟨fun _ _ => 0, fun _ _ lt => lt⟩ lastLabel
      (Slice.ofBytes (clientHello (goBytes ".com")))).2 = .error .panic := by
  have found : indexTLSServerName .capacity (Slice.ofBytes (clientHello (goBytes ".com")))
      = .ok ⟨58, 4, goBytes ".com", 47⟩ := by
    decide +kernel
  exact (write_found _ rfl found).trans (writeFragments_panic _ (by decide))

end SingBox.TlsFragment
