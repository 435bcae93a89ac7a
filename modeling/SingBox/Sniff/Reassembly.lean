import Mathlib.Data.List.TakeWhile
import Mathlib.Algebra.Order.BigOperators.Group.List
import SingBox.Sniff.Search

/-!
# Reassembly from any packets

A message is cut into pieces, and the pieces are sent in some packets in some order. As long as
one is missing, the search writes the pieces before the first missing one, and the parser fails
on that; once all are there, it writes the message.

* `Tiles` — the fragments are pieces of a byte string, one behind the other, none empty;
* `turns_tiles` — what the search writes when some of the pieces are there;
* `sniffPackets` — packets are sniffed while more data is needed;
* `sniffPackets_whole` — the parser gets the record header and the message.
-/

namespace SingBox.Sniff.Quic

open SingBox.Lib List

/-! ## Pieces -/

/-- The fragments are the pieces of `bytes`, which starts at an offset. -/
def Tiles : Nat → List CryptoFragment → Bytes → Prop
  | _, [], bytes => bytes = []
  | start, piece :: rest, bytes =>
      piece.offset.toNat = start ∧ piece.length.toNat = piece.payload.length ∧
        piece.payload ≠ [] ∧ piece.payload <+: bytes ∧
        Tiles (start + piece.payload.length) rest (bytes.drop piece.payload.length)

def payloads (fragments : List CryptoFragment) : Bytes := fragments.flatMap (·.payload)

@[simp] theorem payloads_nil : payloads [] = [] := rfl

@[simp] theorem payloads_cons (fragment : CryptoFragment) (rest : List CryptoFragment) :
    payloads (fragment :: rest) = fragment.payload ++ payloads rest := rfl

variable {start : Nat} {pieces : List CryptoFragment} {bytes : Bytes}

namespace Tiles

theorem payloads_eq (tiles : Tiles start pieces bytes) : payloads pieces = bytes := by
  induction pieces generalizing start bytes with
  | nil => exact tiles.symm
  | cons piece rest ih =>
    obtain ⟨-, -, -, ⟨later, rfl⟩, tiles⟩ := tiles
    rw [drop_left] at tiles
    rw [payloads_cons, ih tiles]

theorem start_le (tiles : Tiles start pieces bytes) :
    ∀ piece ∈ pieces, start ≤ piece.offset.toNat := by
  induction pieces generalizing start bytes with
  | nil => exact forall_mem_nil _
  | cons piece rest ih =>
    obtain ⟨offset, -, -, -, tiles⟩ := tiles
    exact forall_mem_cons.mpr ⟨Nat.le_of_eq offset.symm, fun other later =>
      Nat.le_trans (Nat.le_add_right _ _) (ih tiles other later)⟩

theorem start_lt {piece : CryptoFragment} (tiles : Tiles start (piece :: pieces) bytes) :
    ∀ other ∈ pieces, start < other.offset.toNat := by
  obtain ⟨-, -, nonempty, -, tiles⟩ := tiles
  intro other mem
  have le := tiles.start_le other mem
  have pos := length_pos_of_ne_nil nonempty
  omega

theorem nodup (tiles : Tiles start pieces bytes) : pieces.Nodup := by
  induction pieces generalizing start bytes with
  | nil => exact nodup_nil
  | cons piece rest ih =>
    have lt := tiles.start_lt
    obtain ⟨offset, -, -, -, tiles⟩ := tiles
    refine nodup_cons.mpr ⟨fun mem => ?_, ih tiles⟩
    exact absurd (lt piece mem) (by omega)

end Tiles

/-! ## The search -/

variable {fragments : List CryptoFragment}

/-- At the start of a piece, the fragment that is found is that piece. -/
theorem fragmentAt_tiles {piece : CryptoFragment} {index : UInt64}
    (tiles : Tiles start (piece :: pieces) bytes) (here : index.toNat = start)
    (known : ∀ fragment ∈ fragments, fragment.offset.toNat < start ∨ fragment ∈ piece :: pieces) :
    fragmentAt fragments index = if piece ∈ fragments then some piece else none := by
  have only : ∀ fragment ∈ fragments, fragment.offset = index → fragment = piece := by
    intro fragment mem same
    rw [← same] at here
    rcases known fragment mem with before | inside
    · exact absurd here before.ne
    · exact (mem_cons.mp inside).resolve_right fun later =>
        (tiles.start_lt fragment later).ne' here
  cases found : fragmentAt fragments index with
  | some fragment =>
    obtain ⟨mem, same⟩ := fragmentAt_some found
    have eq := only fragment mem same
    subst eq
    rw [if_pos mem]
  | none =>
    rw [if_neg]
    intro mem
    refine find?_eq_none.mp found piece mem ?_
    rw [beq_iff_eq]
    exact UInt64.toNat_inj.mp (by rw [here]; exact tiles.1)

def writeAll (buffer : Buffer) (fragments : List CryptoFragment) : Buffer :=
  fragments.foldl (fun buffer fragment => buffer.write fragment.payload) buffer

/-- The search writes the pieces that are there, up to the first that is not. -/
theorem turns_tiles (search : Search) (small : Small fragments) (tiles : Tiles start pieces bytes)
    (here : search.index.toNat = start)
    (known : ∀ fragment ∈ fragments, fragment.offset.toNat < start ∨ fragment ∈ pieces)
    {fuel : Nat} (enough : pieces.length < fuel) :
    ∃ index, turns (findTurn fragments) fuel search =
      some (⟨index, writeAll search.buffer (pieces.takeWhile (· ∈ fragments))⟩, ()) := by
  -- on the pieces from the index on; the fragments before it have been written
  induction pieces generalizing start bytes search fuel with
  | nil =>
    obtain ⟨fuel, rfl⟩ := Nat.exists_eq_add_one_of_ne_zero (Nat.ne_zero_of_lt enough)
    have behind : fragmentAt fragments search.index = none := by
      refine find?_eq_none.mpr fun fragment mem same => ?_
      have before := (known fragment mem).resolve_right not_mem_nil
      rw [beq_iff_eq.mp same] at before
      omega
    exact ⟨search.index, turns_stop (findTurn_none behind) fuel⟩
  | cons piece rest ih =>
    obtain ⟨fuel, rfl⟩ := Nat.exists_eq_add_one_of_ne_zero (Nat.ne_zero_of_lt enough)
    have found := fragmentAt_tiles tiles here known
    by_cases mem : piece ∈ fragments
    · rw [if_pos mem] at found
      obtain ⟨offset, length, nonempty, -, tiles⟩ := tiles
      have pos := length_pos_of_ne_nil nonempty
      rw [turns_next (findTurn_some found), takeWhile_cons_of_pos (by simpa using mem)]
      refine ih _ tiles ?_ ?_ (Nat.lt_of_succ_lt_succ enough)
      · rw [toNat_end (small piece mem).1 (small piece mem).2, offset, length]
      · intro fragment inside
        have place := known fragment inside
        rw [mem_cons] at place
        rcases place with before | rfl | later
        · exact .inl (by omega)
        · exact .inl (by omega)
        · exact .inr later
    · rw [if_neg mem] at found
      rw [takeWhile_cons_of_neg (by simpa using mem)]
      exact ⟨search.index, turns_stop (findTurn_none found) fuel⟩

/-! ## The buffer -/

def size (fragments : List CryptoFragment) : Nat :=
  (fragments.map fun fragment => fragment.payload.length).sum

@[simp] theorem size_cons (fragment : CryptoFragment) (rest : List CryptoFragment) :
    size (fragment :: rest) = fragment.payload.length + size rest := by
  rw [size, map_cons, sum_cons, size]

theorem length_payloads (fragments : List CryptoFragment) :
    (payloads fragments).length = size fragments := by
  rw [payloads, length_flatMap, size]

theorem size_perm {fragments others : List CryptoFragment} (h : fragments.Perm others) :
    size fragments = size others :=
  (h.map _).sum_eq

theorem size_append (fragments others : List CryptoFragment) :
    size (fragments ++ others) = size fragments + size others := by
  rw [size, map_append, sum_append, size, size]

/-- Different fragments that are all among some others have no more bytes than these. -/
theorem size_le_of_subset {fragments others : List CryptoFragment} (nodup : fragments.Nodup)
    (subset : fragments ⊆ others) : size fragments ≤ size others := by
  obtain ⟨same, perm, sublist⟩ := subperm_of_subset nodup subset
  rw [← size_perm perm]
  exact (sublist.map _).sum_le_sum fun _ _ => Nat.zero_le _

theorem write_eq (capacity : Nat) (written data : Bytes)
    (room : written.length + data.length ≤ capacity) :
    (Buffer.mk capacity written).write data = ⟨capacity, written ++ data⟩ := by
  rw [Buffer.write, take_of_length_le (by dsimp only; omega)]

theorem writeAll_eq (capacity : Nat) (written : Bytes) (fragments : List CryptoFragment)
    (room : written.length + size fragments ≤ capacity) :
    writeAll ⟨capacity, written⟩ fragments = ⟨capacity, written ++ payloads fragments⟩ := by
  induction fragments generalizing written with
  | nil =>
    rw [payloads_nil, append_nil]
    rfl
  | cons fragment rest ih =>
    rw [size_cons] at room
    show writeAll (Buffer.write _ _) rest = _
    rw [write_eq _ _ _ (by omega), ih _ (by rw [length_append]; omega), payloads_cons, append_assoc]

/-- Each fragment has the bytes it claims. -/
def Full (fragments : List CryptoFragment) : Prop :=
  ∀ fragment ∈ fragments, fragment.length.toNat = fragment.payload.length

theorem foldl_frameLen (full : Full fragments) (start : UInt64)
    (fits : start.toNat + size fragments < 2 ^ 64) :
    (fragments.foldl (fun frameLen fragment => frameLen + fragment.length) start).toNat =
      start.toNat + size fragments := by
  induction fragments generalizing start with
  | nil => rfl
  | cons fragment rest ih =>
    rw [size_cons] at fits ⊢
    have length := full fragment mem_cons_self
    have sum : (start + fragment.length).toNat = start.toNat + fragment.payload.length := by
      rw [UInt64.toNat_add, length, Nat.mod_eq_of_lt (by omega)]
    rw [foldl_cons, ih (forall_mem_cons.mp full).2 _ (by omega)]
    omega

/-- A buffer for all the fragments, with the record header in it. -/
theorem newBuffer_eq (full : Full fragments) (fits : 5 + size fragments ≤ maxAlloc) :
    newBuffer fragments = some ⟨5 + size fragments, recordHeader (size fragments)⟩ := by
  have below : 5 + size fragments ≤ 2 ^ 48 := fits
  have len : (frameLen fragments).toNat = size fragments := by
    have sum := foldl_frameLen full 0 (by rw [UInt64.toNat_zero]; omega)
    rwa [UInt64.toNat_zero, Nat.zero_add] at sum
  have capacity : (5 + frameLen fragments).toNat = 5 + size fragments := by
    rw [UInt64.toNat_add, len]
    exact Nat.mod_eq_of_lt (by change 5 + size fragments < 2 ^ 64; omega)
  unfold newBuffer
  dsimp only
  have room : 5 ≤ 5 + size fragments := Nat.le_add_right _ _
  rw [capacity, len, if_pos fits, write_eq _ [] [0x16] (Nat.le_trans (by decide) room),
    write_eq _ _ [0x03, 0x03] (Nat.le_trans (by decide) room), write_eq _ _ (putUint 2 _) room]
  rfl

/-! ## Some of the pieces -/

/-- Some of the pieces are there: what the parser is given is the header and a prefix of the
message, which is all of it when all are there and only then. -/
theorem reassemble_tiles {later : List CryptoFragment} (tiles : Tiles 0 pieces bytes)
    (wire : ∀ piece ∈ pieces, Wire piece) (fits : 5 + bytes.length ≤ maxAlloc)
    (part : (fragments ++ later).Perm pieces) :
    ∃ buffer front, newBuffer fragments = some buffer ∧ front <+: bytes ∧
      (later = [] → front = bytes) ∧ (front = bytes → size fragments = bytes.length) ∧
      ∀ fuel, pieces.length < fuel →
        reassemble fragments fuel buffer = some (recordHeader (size fragments) ++ front) := by
  have mem : ∀ fragment ∈ fragments, fragment ∈ pieces := fun fragment mem =>
    part.subset (mem_append_left _ mem)
  have known : ∀ fragment ∈ fragments, Wire fragment := fun fragment inside =>
    wire fragment (mem fragment inside)
  have small : Small fragments := fun fragment inside =>
    ⟨(known fragment inside).offset_lt, (known fragment inside).length_lt⟩
  have full : Full fragments := fun fragment inside => (known fragment inside).payload.symm
  have total : size fragments + size later = bytes.length := by
    rw [← size_append, size_perm part, ← length_payloads, tiles.payloads_eq]
  have here : pieces.takeWhile (· ∈ fragments) ⊆ fragments := fun piece inside => by
    simpa using mem_takeWhile_imp inside
  have written := size_le_of_subset
    (tiles.nodup.sublist (takeWhile_sublist fun piece => piece ∈ fragments)) here
  refine ⟨_, payloads (pieces.takeWhile (· ∈ fragments)), newBuffer_eq full (by omega), ?_, ?_,
    ?_, ?_⟩
  · rw [← tiles.payloads_eq]
    exact IsPrefix.flatMap ( takeWhile_prefix _) _
  · rintro rfl
    rw [takeWhile_eq_self_iff.mpr, tiles.payloads_eq]
    intro piece inside
    simpa using part.symm.subset inside
  · intro all
    rw [← length_payloads, all] at written
    omega
  · intro fuel enough
    obtain ⟨index, ends⟩ := turns_tiles ⟨0, _⟩ small tiles rfl
      (fun fragment inside => .inr (mem fragment inside)) enough
    rw [reassemble, ends, writeAll_eq]
    · rfl
    · rw [recordHeader]
      exact Nat.add_le_add_left written 5

/-! ## Packets -/

/-- What is known when more data is needed. -/
def Outcome.again : Outcome → Option InboundContext
  | .returned metadata (some err) => if err.needMoreData then some metadata else none
  | .returned _ none => none
  | .panicked => none

/-- Packets are sniffed one after the other while more data is needed; the last call is
returned. -/
def sniffPackets (env : Env) (fuel : Nat) : InboundContext → List Bytes → Option Call
  | _, [] => none
  | metadata, packet :: later =>
      match QUICClientHello .capacity env fuel metadata packet with
      | none => none
      | some call =>
          if later = [] then some call
          else
            match call.outcome.again with
            | some metadata => sniffPackets env fuel metadata later
            | none => some call

/-- The packet can be opened, its frames are inside its payload, and these are its CRYPTO
fragments. -/
def Carries (crypto : Crypto) (packet : Bytes) (fragments : List CryptoFragment) : Prop :=
  ∃ frames, packetFrames .length crypto packet = .ok frames ∧ frames.fragments = fragments

variable {news : List (List CryptoFragment)}

theorem carries_wire {crypto : Crypto} {packets : List Bytes}
    (carries : Forall₂ (Carries crypto) packets news) :
    ∀ new ∈ news, ∀ fragment ∈ new, Wire fragment := by
  induction carries with
  | nil => exact forall_mem_nil _
  | cons first _ ih =>
    obtain ⟨frames, read, rfl⟩ := first
    exact forall_mem_cons.mpr ⟨packetFrames_wire read, ih⟩

variable {env : Env} {metadata : InboundContext}

/-- The parser fails on what is not yet the message. -/
def FailsIncomplete (env : Env) (bytes : Bytes) : Prop :=
  ∀ length front, front <+: bytes → front ≠ bytes →
    ∃ err, env.compute (recordHeader length ++ front) = .error err

theorem finish_again (bound : Bound) (frames : Frames) (buffer : Bytes) :
    (∃ hello, env.compute buffer = .ok hello ∧
      (finish bound env metadata frames buffer).again = none) ∨
    ∃ metadata', (finish bound env metadata frames buffer).again = some metadata' ∧
      metadata'.sniffContext = some (collected metadata frames) := by
  unfold finish
  cases parsed : env.compute buffer with
  | error err => exact .inr ⟨_, rfl, rfl⟩
  | ok hello =>
    refine .inl ⟨hello, rfl, ?_⟩
    dsimp only
    split_ifs
    · cases classify bound (.ofBytes frames.frameTypeList) hello <;> rfl
    · rfl

/-- One packet, some of the pieces before it and some behind it. -/
theorem QUICClientHello_tiles {packet : Bytes} {new later : List CryptoFragment}
    (tiles : Tiles 0 pieces bytes) (wire : ∀ piece ∈ pieces, Wire piece)
    (fits : 5 + bytes.length ≤ maxAlloc) (carries : Carries env.crypto packet new)
    (part : (new ++ metadata.sniffContext.getD [] ++ later).Perm pieces) :
    ∃ front frames, frames.fragments = new ∧ front <+: bytes ∧ (later = [] → front = bytes) ∧
      (front = bytes → size (collected metadata frames) = bytes.length) ∧
      ∀ fuel, pieces.length < fuel →
        QUICClientHello .capacity env fuel metadata packet =
          some ⟨some (recordHeader (size (collected metadata frames)) ++ front),
            finish .capacity env metadata frames
              (recordHeader (size (collected metadata frames)) ++ front)⟩ := by
  obtain ⟨frames, read, rfl⟩ := carries
  obtain ⟨buffer, front, made, isPrefix, whole, sizes, ends⟩ :=
    reassemble_tiles tiles wire fits part
  have same : packetFrames .capacity env.crypto packet = .ok frames := by
    rw [packetFrames_same (by rw [read]; exact nofun), read]
  refine ⟨front, frames, rfl, isPrefix, whole, sizes, fun fuel enough => ?_⟩
  rw [QUICClientHello, same]
  dsimp only
  rw [sniffFrames, collected, made]
  dsimp only
  rw [ends fuel enough]
  rfl

/-- The run over the packets: the pieces are in those that were saved and those still to come. -/
theorem sniffPackets_tiles (tiles : Tiles 0 pieces bytes)
    (wire : ∀ piece ∈ pieces, Wire piece) (fits : 5 + bytes.length ≤ maxAlloc)
    (fails : FailsIncomplete env bytes) {packets : List Bytes}
    (carries : Forall₂ (Carries env.crypto) packets news)
    (nonempty : packets ≠ []) (all : (metadata.sniffContext.getD [] ++ news.flatten).Perm pieces)
    {fuel : Nat} (enough : pieces.length < fuel) :
    ∃ outcome, sniffPackets env fuel metadata packets =
      some ⟨some (recordHeader bytes.length ++ bytes), outcome⟩ := by
  -- on the packets; what is saved and what is still to come are always all the pieces
  induction carries generalizing metadata with
  | nil => exact absurd rfl nonempty
  | @cons packet new packets news first carries ih =>
    have part : (new ++ metadata.sniffContext.getD [] ++ news.flatten).Perm pieces := by
      refine Perm.trans ?_ all
      rw [flatten_cons, ← append_assoc]
      exact perm_append_comm.append_right _
    obtain ⟨front, frames, rfl, isPrefix, whole, sizes, run⟩ :=
      QUICClientHello_tiles tiles wire fits first part
    have here := run fuel enough
    unfold sniffPackets
    rw [here]
    dsimp only
    by_cases last : packets = []
    · subst last
      cases carries
      have isWhole := whole rfl
      subst isWhole
      rw [sizes rfl]
      exact ⟨_, rfl⟩
    · rw [if_neg last]
      rcases finish_again .capacity frames _ with ⟨hello, parsed, ends⟩ | ⟨metadata', again, saved⟩
      · -- the parser was content, so that it had the whole message
        have isWhole : front = bytes := by
          by_contra ne
          obtain ⟨err, failed⟩ := fails _ front isPrefix ne
          rw [failed] at parsed
          cases parsed
        subst isWhole
        rw [ends, sizes rfl]
        exact ⟨_, rfl⟩
      · rw [again]
        refine ih last ?_
        rw [saved]
        exact part

/-- However the message is cut into pieces, and in whatever order packets bring them, the last
call of the parser gets the record header and the message, if both can be in memory. -/
theorem sniffPackets_whole (env : Env) (message : Bytes) (pieces : List CryptoFragment)
    (packets : List Bytes) (news : List (List CryptoFragment)) (metadata : InboundContext)
    (tiles : Tiles 0 pieces message) (fits : 5 + message.length ≤ maxAlloc)
    (carries : List.Forall₂ (Carries env.crypto) packets news)
    (nonempty : packets ≠ []) (all : news.flatten.Perm pieces)
    (fresh : metadata.sniffContext = none) (fails : FailsIncomplete env message) :
    ∀ fuel, pieces.length < fuel →
      ∃ outcome, sniffPackets env fuel metadata packets =
        some ⟨some (recordHeader message.length ++ message), outcome⟩ := by
  intro fuel enough
  refine sniffPackets_tiles tiles ?_ fits fails carries nonempty ?_ enough
  · intro piece mem
    obtain ⟨new, inNews, inside⟩ := mem_flatten.mp (all.symm.subset mem)
    exact carries_wire carries new inNews piece inside
  · rw [fresh]
    exact all

/-- Three bytes in two packets, the end first. -/
theorem sniffPackets_whole_swapped :
    ∃ outcome, sniffPackets ⟨.clear, fun _ => .error "EOF"⟩ 3 {}
        [initialPacket [6, 1, 2, 8, 9], initialPacket [6, 0, 1, 7]] =
      some ⟨some (recordHeader 3 ++ [7, 8, 9]), outcome⟩ :=
  sniffPackets_whole ⟨.clear, fun _ => .error "EOF"⟩ [7, 8, 9] [⟨0, 1, [7]⟩, ⟨1, 2, [8, 9]⟩]
    [initialPacket [6, 1, 2, 8, 9], initialPacket [6, 0, 1, 7]] [[⟨1, 2, [8, 9]⟩], [⟨0, 1, [7]⟩]] {}
    (by simp [Tiles]) (by decide)
    (.cons ⟨⟨[6], [⟨1, 2, [8, 9]⟩]⟩, rfl, rfl⟩ (.cons ⟨⟨[6], [⟨0, 1, [7]⟩]⟩, rfl, rfl⟩ .nil))
    (by simp) (Perm.swap _ _ _) rfl (fun _ _ _ _ => ⟨"EOF", rfl⟩) 3 (by decide)

end SingBox.Sniff.Quic
