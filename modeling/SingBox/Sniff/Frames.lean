import SingBox.Sniff.Quic

/-!
# What the sniffer reads from a packet

The header of a packet is checked well enough: `openPacket` stays inside the slices it uses,
whatever the cryptographic functions return. The frames are not: a CRYPTO frame may claim more
bytes than there are. If none does, it does not matter whether slice expressions are held to the
length or to the capacity.

* `openPacket_safe` — up to the decrypted payload;
* `readFrames_ends` — the loop over the frames ends with the payload;
* `readFrames_same` — if nothing outside the payload is read, the bound does not matter;
* `readFrames_wire` — what is known of each fragment.
-/

namespace SingBox.Sniff.Quic

open SingBox.Lib SingBox.Lib.Reader List

/-! ## The packet -/

theorem readFields_ensures :
    Ensures readFields fun _ => True := by
  refine (Ensures.readByte eof).bind fun typeByte _ => .ite _ (.throw _) ?_
  refine (Ensures.readFull eof unexpectedEOF 4).bind fun version _ =>
    .ite _ (.throw _) (.ite _ (.throw _) ?_)
  refine (Ensures.readByte eof).bind fun destConnIDLen _ => .ite _ (.throw _) ?_
  refine (Ensures.readFull eof unexpectedEOF _).bind fun destConnID _ => ?_
  refine (Ensures.readByte eof).bind fun srcConnIDLen _ => ?_
  refine (Ensures.discard eof _).bind fun _ _ => ?_
  refine (Ensures.readUvarint eof).bind fun tokenLen _ => ?_
  refine (Ensures.discard eof _).bind fun _ _ => ?_
  exact (Ensures.readUvarint eof).bind fun packetLen _ => .pure _ trivial

/-- What the checks on the header give. -/
structure Header.Fits (header : Header) (packet : Bytes) : Prop where
  sample : header.hdrLen + 20 ≤ packet.length
  payload : header.hdrLen + header.fields.packetLen.toNat ≤ packet.length

variable {packet : Bytes} {crypto : Crypto} {frame : Frame} {rest : Bytes} {frameType : UInt8}

theorem readHeader_fits {header : Header} (h : readHeader packet = .ok header) :
    header.Fits packet := by
  obtain ⟨⟨fields, rest⟩, first, h⟩ := bind_eq_ok.mp h
  have le := (readFields_ensures packet fields rest first).1.length_le
  simp only [bind, Except.bind, Reader.discard, Reader.readFull] at h
  split_ifs at h with tooLong enough
  dsimp only at h
  split_ifs at h with sampled
  cases h
  rw [length_drop] at sampled
  exact ⟨by dsimp only; omega, by dsimp only; omega⟩

theorem unmask_safe {mask newPacket : Slice} {hdrLen i : Nat}
    (inPacket : hdrLen + i < newPacket.len) (inMask : i + 1 < mask.len) :
    Safe (fun _ => unmask mask hdrLen newPacket i) fun t => t.len = newPacket.len :=
  (Safe.index inPacket).bind fun _ _ => (Safe.index inMask).bind fun _ _ =>
    (Safe.set _ inPacket).mono fun _ h => h.1

theorem readPacketNumber_safe {newPacket : Slice} {hdrLen : Nat}
    (inside : hdrLen + 4 ≤ newPacket.len) (n : Nat) :
    Safe (fun bound => readPacketNumber bound newPacket hdrLen n) fun _ => True := by
  unfold readPacketNumber
  split
  · exact (Safe.index (by omega)).bind fun _ _ => .pure _ trivial
  · exact (Safe.slice (by omega) (Nat.le_refl _)).bind fun _ h => .readUint (by omega)
  · exact (Safe.index (by omega)).bind fun _ _ => (Safe.index (by omega)).bind fun _ _ =>
      (Safe.index (by omega)).bind fun _ _ => .pure _ trivial
  · exact (Safe.slice (by omega) (Nat.le_refl _)).bind fun _ h => .readUint (by omega)
  · exact .error _

theorem packetNumberLength_le (b : UInt8) :
    0 < ((b &&& 0x3) + 1).toNat ∧ ((b &&& 0x3) + 1).toNat ≤ 4 := by
  have le : (b &&& 0x3).toNat ≤ 3 := by
    exact Nat.and_le_right
  rw [UInt8.toNat_add]
  have one : (1 : UInt8).toNat = 1 := rfl
  omega

theorem unprotect_safe {mask : Slice} {header : Header} (inMask : mask.len = 16)
    (fits : header.Fits packet) :
    Safe (fun bound => unprotect bound mask (.ofBytes packet) header) fun result =>
      result.1.len = packet.length ∧ header.hdrLen < result.2.2 ∧
        result.2.2 ≤ header.fields.packetLen.toNat + header.hdrLen := by
  have sample := fits.sample
  have len : (Slice.ofBytes packet).len = packet.length := rfl
  refine (Safe.index (by omega)).bind fun b _ => (Safe.index (by omega)).bind fun m _ => ?_
  refine (Safe.set _ (by omega)).bind fun p0 h0 => ?_
  refine (Safe.slice (by omega) (by omega)).bind fun _ _ => ?_
  refine (unmask_safe (by omega) (by omega)).bind fun p1 h1 => ?_
  refine (unmask_safe (by omega) (by omega)).bind fun p2 h2 => ?_
  refine (unmask_safe (by omega) (by omega)).bind fun p3 h3 => ?_
  refine (unmask_safe (by omega) (by omega)).bind fun p4 h4 => ?_
  refine (Safe.index (by omega)).bind fun b _ => ?_
  have number := packetNumberLength_le b
  refine .ite _ (fun _ => .error _) fun short => ?_
  refine (readPacketNumber_safe (by omega) _).bind fun packetNumber _ => ?_
  refine (Safe.slice (by omega) (by omega)).bind fun dst _ => ?_
  refine (Safe.slice (by omega) (by omega)).bind fun src _ => ?_
  refine .pure _ ⟨?_, ?_, ?_⟩
  · change p4.len = packet.length
    omega
  · dsimp only
    omega
  · dsimp only
    omega

theorem openPacket_safe (crypto : Crypto) (packet : Bytes) :
    Safe (fun bound => openPacket bound crypto packet) fun _ => True := by
  refine (Safe.lift _ fun _ => readHeader_fits).bind fun header fits => ?_
  have inside := fits.payload
  refine (unprotect_safe (crypto.length_aesEncrypt _ _) fits).bind fun result h => ?_
  obtain ⟨newPacket, packetNumber, extHdrLen⟩ := result
  obtain ⟨len, behind, le⟩ := h
  dsimp only at len behind le ⊢
  refine (Safe.slice le (by omega)).bind fun data dataLen => ?_
  refine (Safe.slice (Nat.le_refl _) (by omega)).bind fun out _ => ?_
  refine (Safe.slice (Nat.zero_le _) (by omega)).bind fun additionalData _ => ?_
  exact (Safe.lift _ fun _ _ => trivial).bind fun plaintext _ => .pure _ trivial

/-! ## The frames -/

theorem skipUvarints_ensures (n : Nat) : Ensures (skipUvarints n) fun _ => True := by
  induction n with
  | zero => exact .pure () trivial
  | succ n ih => exact (Ensures.readUvarint eof).bind fun _ _ => ih

/-- The numbers of a CRYPTO frame have 62 bits. -/
def Frame.Small : Frame → Prop
  | .crypto offset length => offset.toNat < 2 ^ 62 ∧ length.toNat < 2 ^ 62
  | .skip _ => True

theorem readFrame_ensures (frameType : UInt8) : Ensures (readFrame frameType) Frame.Small := by
  refine .ite _ (.pure _ trivial) (.ite _ ?ack (.ite _ ?crypto (.ite _ ?close (.throw _))))
  case ack =>
    refine (skipUvarints_ensures 2).bind fun _ _ => ?_
    refine (Ensures.readUvarint eof).bind fun ackRangeCount _ => ?_
    refine (skipUvarints_ensures 1).bind fun _ _ => (skipUvarints_ensures _).bind fun _ _ => ?_
    exact .ite _ ((skipUvarints_ensures 3).bind fun _ _ => .pure _ trivial) (.pure _ trivial)
  case crypto =>
    exact (Ensures.readUvarint eof).bind fun offset small =>
      (Ensures.readUvarint eof).bind fun length small' => .pure _ ⟨small, small'⟩
  case close =>
    exact (skipUvarints_ensures 2).bind fun _ _ =>
      (Ensures.readUvarint eof).bind fun length _ => .pure _ trivial

variable {bound : Bound} {decrypted : Slice} {frames : Frames} {walk : Walk}

/-- What is known of a fragment: its numbers are those of a frame, and it has the bytes it
claims. -/
structure Wire (fragment : CryptoFragment) : Prop where
  offset_lt : fragment.offset.toNat < 2 ^ 62
  length_lt : fragment.length.toNat < 2 ^ 62
  payload : fragment.payload.length = fragment.length.toNat

/-- A frame that is taken: where the loop is then, and which fragment there is more. -/
theorem takeFrame_ok (h : takeFrame bound decrypted frames frame rest = .ok walk) :
    walk.rest = rest.drop frame.length ∧
      ∀ fragment ∈ walk.fragments, fragment ∈ frames.fragments ∨
        (frame.Small → Wire fragment) := by
  cases frame with
  | skip length =>
    cases h
    exact ⟨rfl, fun fragment mem => .inl mem⟩
  | crypto offset length =>
    cases sliced : (decrypted.slice bound (decrypted.len - rest.length)
        (decrypted.len - rest.length + length.toNat) : Go Slice) with
    | error stop =>
      simp only [takeFrame, sliced] at h
      cases h
    | ok payload =>
      simp only [takeFrame, sliced] at h
      cases h
      have len := (Slice.slice_ok sliced).2
      refine ⟨rfl, forall_mem_append.mpr ⟨fun _ old => .inl old,
        forall_mem_singleton.mpr (.inr fun small => ⟨small.1, small.2, ?_⟩)⟩⟩
      rw [Slice.length_bytes, len, Nat.add_sub_cancel_left]

theorem frameTurn_read (bound : Bound) (decrypted : Slice) {rest' : Bytes}
    (h : walk.rest = frameType :: rest) (read : readFrame frameType rest = .ok (frame, rest')) :
    frameTurn bound decrypted walk =
      walk.goOn (takeFrame bound decrypted (walk.toFrames.push frameType) frame rest') := by
  unfold frameTurn
  rw [h]
  dsimp only
  rw [read]

/-- The three ways of a turn, for a property of what it leaves. -/
theorem frameTurn_leaves {Next : Walk → Prop} {Post : Walk → Go Frames → Prop}
    (last : walk.rest = [] → Post walk (.ok walk.toFrames))
    (bad : ∀ err, Post walk (.error (.error err)))
    (taken : ∀ frameType rest frame rest', walk.rest = frameType :: rest →
      readFrame frameType rest = .ok (frame, rest') →
      (walk.goOn (takeFrame bound decrypted (walk.toFrames.push frameType) frame rest')).Leaves
        Next Post) :
    (frameTurn bound decrypted walk).Leaves Next Post := by
  unfold frameTurn
  split
  case h_1 here => exact last here
  case h_2 frameType rest here =>
    split
    case h_1 err read => exact bad err
    case h_2 frame rest' read => exact taken frameType rest frame rest' here read

theorem readFrames_ends (bound : Bound) (decrypted : Slice) :
    ∃ walk, turns (frameTurn bound decrypted) (decrypted.len + 1) { rest := decrypted.bytes } =
      some (walk, readFrames bound decrypted) := by
  have shorter : ∀ walk, True → (frameTurn bound decrypted walk).Leaves
      (fun next => True ∧ next.rest.length < walk.rest.length) fun _ _ => True := by
    refine fun walk _ => frameTurn_leaves (fun _ => trivial) (fun _ => trivial)
      fun frameType rest frame rest' here read => ?_
    cases take : takeFrame bound decrypted (walk.toFrames.push frameType) frame rest' with
    | error stop => trivial
    | ok next =>
      have left := (readFrame_ensures frameType rest frame rest' read).1.length_le
      refine ⟨trivial, ?_⟩
      rw [here, (takeFrame_ok take).1, length_drop]
      exact Nat.lt_succ_of_le (Nat.le_trans (Nat.sub_le _ _) left)
  obtain ⟨walk, result, ends, -⟩ := turns_ends (fun _ : Walk => True) (fun _ _ => True)
    (fun walk => walk.rest.length) shorter (s := { rest := decrypted.bytes }) trivial
  have run := ends (decrypted.len + 1) (by simp)
  refine ⟨walk, ?_⟩
  rw [readFrames, run]

/-- What every turn keeps, for the loop over the frames. -/
theorem readFrames_invariant (Inv : Walk → Prop) (Post : Go Frames → Prop)
    (init : Inv { rest := decrypted.bytes })
    (leaves : ∀ walk, Inv walk → (frameTurn bound decrypted walk).Leaves Inv fun _ => Post) :
    Post (readFrames bound decrypted) := by
  obtain ⟨walk, run⟩ := readFrames_ends bound decrypted
  exact turns_invariant Inv (fun _ => Post) leaves init run

/-- Each fragment that is collected is as its frame says. -/
theorem readFrames_wire (h : readFrames bound decrypted = .ok frames) :
    ∀ fragment ∈ frames.fragments, Wire fragment := by
  have all : ∀ frames, readFrames bound decrypted = .ok frames →
      ∀ fragment ∈ frames.fragments, Wire fragment := by
    refine readFrames_invariant
      (fun walk => ∀ fragment ∈ walk.fragments, Wire fragment)
      (fun result => ∀ frames, result = .ok frames →
        ∀ fragment ∈ frames.fragments, Wire fragment)
      (forall_mem_nil _) fun walk wire => ?_
    refine frameTurn_leaves (fun _ frames h => ?_) (fun err frames h => by cases h)
      fun frameType rest frame rest' here read => ?_
    · cases h
      exact wire
    cases take : takeFrame bound decrypted (walk.toFrames.push frameType) frame rest' with
    | error stop => exact fun frames h => by cases h
    | ok next =>
      intro fragment mem
      rcases (takeFrame_ok take).2 fragment mem with old | new
      · exact wire fragment old
      · exact new (readFrame_ensures frameType rest frame rest' read).2
  exact all frames h

/-- A frame whose slice is inside the payload does not depend on the bound. -/
theorem takeFrame_same (h : takeFrame .length decrypted frames frame rest ≠ .error .panic) :
    takeFrame bound decrypted frames frame rest =
      takeFrame .length decrypted frames frame rest := by
  cases frame with
  | skip length => rfl
  | crypto offset length =>
    unfold takeFrame at h ⊢
    dsimp only at h ⊢
    rw [Slice.slice_same (fun panics => h (by rw [panics]; rfl)) bound]

/-- A turn that does not panic inside the payload is the same with the other bound. -/
theorem frameTurn_same
    (left : (frameTurn .length decrypted walk).Leaves (fun _ => True)
      fun _ result => result ≠ .error .panic) :
    frameTurn bound decrypted walk = frameTurn .length decrypted walk := by
  unfold frameTurn at left ⊢
  split
  · rfl
  · split
    · rfl
    · refine congrArg walk.goOn (takeFrame_same fun panics => ?_)
      simp only [*] at left
      exact left rfl

/-- If nothing outside the payload is read, the bound does not matter. -/
theorem readFrames_same (h : readFrames .length decrypted ≠ .error .panic) (bound : Bound) :
    readFrames bound decrypted = readFrames .length decrypted := by
  obtain ⟨walk, run⟩ := readFrames_ends .length decrypted
  obtain ⟨walk', run'⟩ := readFrames_ends bound decrypted
  have same : turns (frameTurn bound decrypted) (decrypted.len + 1) { rest := decrypted.bytes } =
      some (walk, readFrames .length decrypted) :=
    turns_agree (fun result => result ≠ .error .panic) (fun _ left => frameTurn_same left) run h
  rw [run'] at same
  exact congrArg Prod.snd (Option.some.inj same)

/-! ## Both together -/

/-- The frames of a packet, if nothing outside the payload is read. -/
theorem packetFrames_same (h : packetFrames .length crypto packet ≠ .error .panic) (bound : Bound) :
    packetFrames bound crypto packet = packetFrames .length crypto packet := by
  unfold packetFrames at h ⊢
  rw [(openPacket_safe crypto packet).same bound]
  cases opening : openPacket .length crypto packet with
  | error stop => rfl
  | ok decrypted =>
    rw [opening] at h
    exact readFrames_same h bound

theorem packetFrames_wire (h : packetFrames .length crypto packet = .ok frames) :
    ∀ fragment ∈ frames.fragments, Wire fragment := by
  obtain ⟨decrypted, -, h⟩ := bind_eq_ok.mp h
  exact readFrames_wire h

/-! ## A packet -/

/-- Cryptographic functions that leave the payload of a packet in the clear, before a tag. -/
def Crypto.clear : Crypto where
  hkdfExtract _ _ := []
  hkdfExpand _ _ length := replicate length 0
  aesEncrypt _ _ := replicate 16 0
  gcmOpen _ _ ciphertext _ :=
    if 16 ≤ ciphertext.length then some (ciphertext.take (ciphertext.length - 16)) else none
  length_hkdfExpand _ _ _ := length_replicate
  length_aesEncrypt _ _ := length_replicate
  length_gcmOpen key nonce ciphertext additionalData plaintext h := by
    split_ifs at h with long
    cases h
    rw [length_take]
    omega

/-- An Initial packet of version 1 with a short payload. -/
def initialPacket (payload : Bytes) : Bytes :=
  [0xc0, 0, 0, 0, 1, 1, 0, 0, 0, UInt8.ofNat (1 + payload.length + 16), 0] ++ payload ++
    replicate 16 0

end SingBox.Sniff.Quic
