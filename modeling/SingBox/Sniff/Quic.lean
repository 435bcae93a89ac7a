import SingBox.Adapter.InboundContext
import SingBox.Lib.Reader
import SingBox.Lib.Slice
import SingBox.Lib.While

/-!
# The QUIC sniffer

`common/sniff/quic.go`: `QUICClientHello` opens an Initial packet, collects its CRYPTO
fragments, puts them together with those of earlier packets and hands the result to the parser
of ClientHello messages. The cryptographic functions and the parser are parameters.

A run is given the bound that slice expressions are held to: Go's is the capacity. It has no
result when the search for fragments has not ended within `fuel` turns.

* `openPacket` — from the packet to the decrypted payload;
* `readFrames` — the loop over its frames;
* `reassemble` — the `find` loop;
* `classify` — the guess at the client;
* `QUICClientHello` — all of it.
-/

namespace SingBox.Sniff

open SingBox.Lib

namespace Quic

/-- What a part of the sniffer ends with. -/
abbrev Go (α : Type) := Except (Stop SnifferError) α

def errorNew (text : String) : SnifferError := ⟨false, text⟩

/-- `io.EOF`, `io.ErrUnexpectedEOF` and `os.ErrInvalid`. -/
def eof : SnifferError := errorNew "EOF"
def unexpectedEOF : SnifferError := errorNew "unexpected EOF"
def errInvalid : SnifferError := errorNew "invalid argument"

/-- `E.Cause1(ErrNeedMoreData, err)`. -/
def needMoreData (err : String) : SnifferError := ⟨true, "need more data: " ++ err⟩

/-! ## The packet -/

/-- The cryptographic functions, with the sizes of what they return. A key of sixteen bytes and
a nonce of twelve are not refused, so that `aes.NewCipher` and `AEADAESGCMTLS13` do not fail. -/
structure Crypto where
  hkdfExtract : (secret salt : Bytes) → Bytes
  hkdfExpand : (secret info : Bytes) → Nat → Bytes
  aesEncrypt : (key block : Bytes) → Bytes
  gcmOpen : (key nonce ciphertext additionalData : Bytes) → Option Bytes
  length_hkdfExpand : ∀ secret info length, (hkdfExpand secret info length).length = length
  length_aesEncrypt : ∀ key block, (aesEncrypt key block).length = 16
  length_gcmOpen : ∀ key nonce ciphertext additionalData plaintext,
    gcmOpen key nonce ciphertext additionalData = some plaintext →
      plaintext.length + 16 = ciphertext.length

def Crypto.hkdfExpandLabel (crypto : Crypto) (secret context : Bytes) (label : String)
    (length : Nat) : Bytes :=
  crypto.hkdfExpand secret
    (putUint 2 length ++ [UInt8.ofNat (6 + (goBytes label).length)] ++ goBytes "tls13 " ++
      goBytes label ++ [UInt8.ofNat context.length] ++ context) length

def Crypto.aeadOpen (crypto : Crypto) (key nonce ciphertext additionalData : Bytes) :
    Except SnifferError Bytes :=
  match crypto.gcmOpen key nonce ciphertext additionalData with
  | some plaintext => .ok plaintext
  | none => .error (errorNew "cipher: message authentication failed")

def versionDraft29 : Nat := 0xff00001d
def version1 : Nat := 0x1
def version2 : Nat := 0x6b3343cf

def saltOld : Bytes := [0xaf, 0xbf, 0xec, 0x28, 0x99, 0x93, 0xd2, 0x4c, 0x9e, 0x97, 0x86, 0xf1,
  0x9c, 0x61, 0x11, 0xe0, 0x43, 0x90, 0xa8, 0x99]
def saltV1 : Bytes := [0x38, 0x76, 0x2c, 0xf7, 0xf5, 0x59, 0x34, 0xb3, 0x4d, 0x17, 0x9a, 0xe6,
  0xa4, 0xc8, 0x0c, 0xad, 0xcc, 0xbb, 0x7f, 0x0a]
def saltV2 : Bytes := [0x0d, 0xed, 0xe3, 0xde, 0xf7, 0x00, 0xa6, 0xdb, 0x81, 0x93, 0x81, 0xbe,
  0x6e, 0x26, 0x9d, 0xcb, 0xf9, 0xbd, 0x2e, 0xd9]

variable (versionNumber : Nat)

def salt : Bytes :=
  if versionNumber = version1 then saltV1
  else if versionNumber = version2 then saltV2
  else saltOld

def hkdfHeaderProtectionLabel : String :=
  if versionNumber = version2 then "quicv2 hp" else "quic hp"

def keyLabel : String :=
  if versionNumber = version2 then "quicv2 key" else "quic key"

def ivLabel : String :=
  if versionNumber = version2 then "quicv2 iv" else "quic iv"

/-- The fields of the header up to the length of the packet. -/
structure Fields where
  versionNumber : Nat
  destConnID : Bytes
  packetLen : UInt64

/-- `readByte` and its like, with the errors of a `bytes.Reader`. -/
abbrev readByte : Reader SnifferError UInt8 := Reader.readByte eof
abbrev readFull : Nat → Reader SnifferError Bytes := Reader.readFull eof unexpectedEOF
abbrev discard : Nat → Reader SnifferError Unit := Reader.discard eof
abbrev readUvarint : Reader SnifferError UInt64 := Reader.readUvarint eof

def readFields : Reader SnifferError Fields := do
  let typeByte ← readByte
  if typeByte &&& 0x40 = 0 then throw (errorNew "bad type byte") else do
  let version ← readFull 4
  let versionNumber := uint version
  if versionNumber ≠ versionDraft29 ∧ versionNumber ≠ version1 ∧ versionNumber ≠ version2 then
    throw (errorNew "bad version")
  else do
  let packetType := (typeByte &&& 0x30) >>> 4
  if packetType = 0 ∧ versionNumber = version2 ∨ packetType = 2 ∧ versionNumber ≠ version2 ∨
      packetType > 2 then
    throw (errorNew "bad packet type")
  else do
  let destConnIDLen ← readByte
  if destConnIDLen = 0 ∨ destConnIDLen > 20 then
    throw (errorNew "bad destination connection id length")
  else do
  let destConnID ← readFull destConnIDLen.toNat
  let srcConnIDLen ← readByte
  discard srcConnIDLen.toNat
  let tokenLen ← readUvarint
  discard tokenLen.toNat
  let packetLen ← readUvarint
  return ⟨versionNumber, destConnID, packetLen⟩

/-- The header with the place where it ends, and the bytes that the mask is made of. -/
structure Header where
  fields : Fields
  hdrLen : Nat
  pnBytes : Bytes

def readHeader (packet : Bytes) : Except SnifferError Header := do
  let (fields, rest) ← readFields packet
  let hdrLen := packet.length - rest.length
  if hdrLen + fields.packetLen.toNat > packet.length then .error errInvalid else do
  let (_, rest) ← discard 4 rest
  let (pnBytes, _) ← readFull 16 rest
  return ⟨fields, hdrLen, pnBytes⟩

/-- `newPacket[hdrLen+i] ^= mask[i+1]`. -/
def unmask (mask : Slice) (hdrLen : Nat) (newPacket : Slice) (i : Nat) : Go Slice := do
  let b ← newPacket.index (hdrLen + i)
  let m ← mask.index (i + 1)
  newPacket.set (hdrLen + i) (b ^^^ m)

variable (bound : Bound)

/-- The packet number, by its length in bytes. -/
def readPacketNumber (newPacket : Slice) (hdrLen : Nat) :
    (packetNumberLength : Nat) → Go Nat
  | 1 => do
      let b ← newPacket.index hdrLen
      return b.toNat
  | 2 => do
      let s ← newPacket.slice bound hdrLen newPacket.len
      s.readUint 2
  | 3 => do
      let b2 ← newPacket.index (hdrLen + 2)
      let b1 ← newPacket.index (hdrLen + 1)
      let b0 ← newPacket.index hdrLen
      return uint [b0, b1, b2]
  | 4 => do
      let s ← newPacket.slice bound hdrLen newPacket.len
      s.readUint 4
  | _ => .error (.error (errorNew "bad packet number length"))

/-- `xorNonceAEAD.Open`: the nonce is laid over the last eight bytes of the mask. -/
def xorNonce (nonceMask nonce : Bytes) : Bytes :=
  nonceMask.take 4 ++ List.zipWith (· ^^^ ·) (nonceMask.drop 4) nonce

/-- The packet without its header protection, and the packet number with its length. -/
def unprotect (mask packet : Slice) (header : Header) : Go (Slice × Nat × Nat) := do
  let hdrLen := header.hdrLen
  let packetLen := header.fields.packetLen.toNat
  let newPacket := packet
  let b ← newPacket.index 0
  let m ← mask.index 0
  let newPacket ← newPacket.set 0 (b ^^^ (m &&& 0xf))
  let _ ← newPacket.slice bound hdrLen (hdrLen + 4)
  let newPacket ← unmask mask hdrLen newPacket 0
  let newPacket ← unmask mask hdrLen newPacket 1
  let newPacket ← unmask mask hdrLen newPacket 2
  let newPacket ← unmask mask hdrLen newPacket 3
  -- only now the first byte tells how long the packet number is
  let b ← newPacket.index 0
  let packetNumberLength := ((b &&& 0x3) + 1).toNat
  if hdrLen + packetNumberLength > packetLen + hdrLen then .error (.error errInvalid) else do
  let packetNumber ← readPacketNumber bound newPacket hdrLen packetNumberLength
  let extHdrLen := hdrLen + packetNumberLength
  -- what was unmasked behind the packet number is payload, and is taken from the packet again
  let dst ← newPacket.slice bound extHdrLen (hdrLen + 4)
  let src ← packet.slice bound extHdrLen packet.len
  return (newPacket.overwrite extHdrLen (src.bytes.take dst.len), packetNumber, extHdrLen)

/-- `cipher.Open` writes the plaintext over the packet, so that behind the plaintext the slice
still has the rest of the packet as capacity. -/
def opened (out : Slice) (plaintext : Bytes) : Slice :=
  ⟨plaintext ++ out.array.drop plaintext.length, plaintext.length, by
    rw [List.length_append]
    exact Nat.le_add_right _ _⟩

/-- From the packet to the decrypted payload. -/
def openPacket (crypto : Crypto) (packet : Bytes) : Go Slice := do
  let header ← liftError (readHeader packet)
  let versionNumber := header.fields.versionNumber
  let initialSecret := crypto.hkdfExtract header.fields.destConnID (salt versionNumber)
  let secret := crypto.hkdfExpandLabel initialSecret [] "client in" 32
  let hpKey := crypto.hkdfExpandLabel secret [] (hkdfHeaderProtectionLabel versionNumber) 16
  let mask := crypto.aesEncrypt hpKey header.pnBytes
  let (newPacket, packetNumber, extHdrLen) ←
    unprotect bound (.ofBytes mask) (.ofBytes packet) header
  let data ← newPacket.slice bound extHdrLen (header.fields.packetLen.toNat + header.hdrLen)
  let key := crypto.hkdfExpandLabel secret [] (keyLabel versionNumber) 16
  let iv := crypto.hkdfExpandLabel secret [] (ivLabel versionNumber) 12
  -- the nonce has eight bytes, so that `nonce[len(nonce)-8:]` is all of it
  let nonce := putUint 8 packetNumber
  let out ← newPacket.slice bound extHdrLen extHdrLen
  let additionalData ← newPacket.slice bound 0 extHdrLen
  let plaintext ← liftError
    (crypto.aeadOpen key (xorNonce iv nonce) data.bytes additionalData.bytes)
  return opened out plaintext

/-! ## The frames -/

def frameTypePadding : UInt8 := 0x00
def frameTypePing : UInt8 := 0x01
def frameTypeAck : UInt8 := 0x02
def frameTypeAck2 : UInt8 := 0x03
def frameTypeCrypto : UInt8 := 0x06
def frameTypeConnectionClose : UInt8 := 0x1c

/-- A frame behind its type byte: a CRYPTO frame, or one that asks for some bytes to be
skipped. -/
inductive Frame where
  | crypto (offset length : UInt64)
  | skip (length : UInt64)
  deriving DecidableEq

/-- How far the reader is moved behind the frame. -/
def Frame.length : Frame → Nat
  | .crypto _ length => length.toNat
  | .skip length => length.toNat

/-- `n` numbers that are not used. -/
def skipUvarints : Nat → Reader SnifferError Unit
  | 0 => pure ()
  | n + 1 => do
      let _ ← readUvarint
      skipUvarints n

/-- The body of the `switch` up to the CRYPTO slice and the seeks. -/
def readFrame (frameType : UInt8) : Reader SnifferError Frame :=
  if frameType = frameTypePadding ∨ frameType = frameTypePing then pure (.skip 0)
  else if frameType = frameTypeAck ∨ frameType = frameTypeAck2 then do
    skipUvarints 2
    let ackRangeCount ← readUvarint
    skipUvarints 1
    skipUvarints (2 * ackRangeCount.toNat)
    if frameType = frameTypeAck2 then skipUvarints 3 else pure ()
    return .skip 0
  else if frameType = frameTypeCrypto then do
    let offset ← readUvarint
    let length ← readUvarint
    return .crypto offset length
  else if frameType = frameTypeConnectionClose then do
    skipUvarints 2
    let length ← readUvarint
    return .skip length
  else throw errInvalid

/-- `frameTypeList` and `fragments`. -/
structure Frames where
  frameTypeList : Bytes := []
  fragments : List CryptoFragment := []
  deriving DecidableEq

/-- The loop over the frames: what the reader has left, and what was collected. -/
structure Walk extends Frames where
  rest : Bytes

/-- What is done with a frame once it is read; `rest` is behind it. A seek may leave the
payload. -/
def takeFrame (decrypted : Slice) (frames : Frames) (frame : Frame) (rest : Bytes) : Go Walk :=
  match frame with
  | .crypto offset length => do
      let index := decrypted.len - rest.length
      let payload ← decrypted.slice bound index (index + length.toNat)
      return { frames with
        fragments := frames.fragments ++ [⟨offset, length, payload.bytes⟩]
        rest := rest.drop length.toNat }
  | .skip length => return { frames with rest := rest.drop length.toNat }

/-- `append(frameTypeList, frameType)`. -/
def Frames.push (frames : Frames) (frameType : UInt8) : Frames :=
  { frames with frameTypeList := frames.frameTypeList ++ [frameType] }

/-- The turn goes on with the next frame, or returns or panics. -/
def Walk.goOn (walk : Walk) : Go Walk → Turn Walk (Go Frames)
  | .ok next => .next next
  | .error stop => .stop walk (.error stop)

/-- One turn of the loop over the frames. -/
def frameTurn (decrypted : Slice) (walk : Walk) : Turn Walk (Go Frames) :=
  match walk.rest with
  | [] => .stop walk (.ok walk.toFrames)
  | frameType :: rest =>
      match readFrame frameType rest with
      | .error err => .stop walk (.error (.error err))
      | .ok (frame, rest) =>
          walk.goOn (takeFrame bound decrypted (walk.toFrames.push frameType) frame rest)

/-- The loop over the frames. Each turn reads a byte at least, so that the payload has no more
turns than bytes. -/
def readFrames (decrypted : Slice) : Go Frames :=
  match turns (frameTurn bound decrypted) (decrypted.len + 1) { rest := decrypted.bytes } with
  | some (_, result) => result
  | none => .error (.error eof)

/-! ## Reassembly -/

/-- `buf.Buffer`, which takes no more than its capacity. -/
structure Buffer where
  capacity : Nat
  bytes : Bytes
  deriving DecidableEq

def Buffer.write (buffer : Buffer) (data : Bytes) : Buffer :=
  { buffer with bytes := buffer.bytes ++ data.take (buffer.capacity - buffer.bytes.length) }

def frameLen (fragments : List CryptoFragment) : UInt64 :=
  fragments.foldl (fun frameLen fragment => frameLen + fragment.length) 0

/-- The bytes before the message: a handshake record of TLS 1.2 and its length. -/
def recordHeader (length : Nat) : Bytes := [0x16, 0x03, 0x03] ++ putUint 2 length

variable (fragments : List CryptoFragment)

/-- The largest size that `make` does not refuse, on 64-bit platforms. -/
def maxAlloc : Nat := 2 ^ 48

/-- `buf.NewSize(5 + int(frameLen))` and the record header. Above `maxAlloc` the call of `make`
panics, and with a size that is a negative `int` the first write does; memory is not bounded
otherwise. -/
def newBuffer : Option Buffer :=
  let frameLen := frameLen fragments
  let size := (5 + frameLen).toNat
  if size ≤ maxAlloc then
    some ((((Buffer.mk size []).write [0x16]).write [0x03, 0x03]).write (putUint 2 frameLen.toNat))
  else none

/-- The state of the `find` loop. Its counter of turns is not used. -/
structure Search where
  index : UInt64
  buffer : Buffer

def fragmentAt (index : UInt64) : Option CryptoFragment :=
  fragments.find? fun fragment => fragment.offset == index

/-- One turn: the first fragment at the index is written. -/
def findTurn (search : Search) : Turn Search Unit :=
  match fragmentAt fragments search.index with
  | some fragment =>
      .next ⟨fragment.offset + fragment.length, search.buffer.write fragment.payload⟩
  | none => .stop search ()

/-- The `find` loop; none if it has not ended within `fuel` turns. -/
def reassemble (fuel : Nat) (buffer : Buffer) : Option Bytes :=
  (turns (findTurn fragments) fuel ⟨0, buffer⟩).map fun result => result.1.buffer.bytes

/-! ## The client -/

structure ClientHello where
  cipherSuites : List UInt16 := []
  extensions : List UInt16 := []
  ellipticCurves : List UInt16 := []
  versions : List UInt16 := []
  signatureAlgorithms : List UInt16 := []
  serverName : String := ""

def isQUICGo (fingerprint : ClientHello) : Bool :=
  fingerprint.ellipticCurves.contains 0x11EC || fingerprint.extensions.contains 0xFF01

def isZero (slices : Bytes) : Bool := slices.all (· == 0)

/-- What a part that returns no error ends with: a result or a panic. -/
abbrev NoError (α : Type) := Except (Stop Empty) α

/-- `len(l) == length && p(l[0])`. -/
def lenAndFirst (l : List UInt16) (length : Nat) (p : UInt16 → Bool) : NoError Bool :=
  if l.length = length then
    match l with
    | first :: _ => .ok (p first)
    | [] => .error .panic
  else .ok false

/-- `a && b`, where `b` is not evaluated if `a` is false. -/
def andAlso (a b : NoError Bool) : NoError Bool := do
  if ← a then b else return false

def isGrease (v : UInt16) : Bool := v &&& 0x0F0F == 0x0A0A

/-- The two fingerprints of Safari. -/
def isSafari (fingerprint : ClientHello) : NoError Bool := do
  let greased ← andAlso (lenAndFirst fingerprint.versions 2 isGrease)
    (lenAndFirst fingerprint.ellipticCurves 5 isGrease)
  if greased then return true else
    andAlso (lenAndFirst fingerprint.cipherSuites 1 (· == 0x1302))
      (andAlso (lenAndFirst fingerprint.ellipticCurves 1 (· == 29))
        (lenAndFirst fingerprint.signatureAlgorithms 1 (· == 0x0403)))

def clientChromium : String := "chromium"
def clientSafari : String := "safari"
def clientFirefox : String := "firefox"
def clientQUICGo : String := "quic-go"
def clientUnknown : String := "unknown"

/-- `frameTypeList[i] == frameTypeCrypto && isZero(frameTypeList[low:high])`. -/
def onlyCryptoAt (frameTypeList : Slice) (i low high : Nat) : NoError Bool := do
  let frameType ← frameTypeList.index i
  if frameType = frameTypeCrypto then do
    let others ← frameTypeList.slice bound low high
    return isZero others.bytes
  else return false

/-- The body of `for metadata.Client == ""`, which is run once. -/
def classify (frameTypeList : Slice) (fingerprint : ClientHello) :
    NoError String := do
  if frameTypeList.len = 1 then return clientFirefox else do
  let cryptoFirst ← onlyCryptoAt bound frameTypeList 0 1 frameTypeList.len
  let safari ← andAlso (.ok cryptoFirst) (isSafari fingerprint)
  if safari then return clientSafari else do
  let last := frameTypeList.len - 1
  let cryptoLast ← onlyCryptoAt bound frameTypeList last 0 last
  if cryptoLast then return clientQUICGo else
  if frameTypeList.bytes.count frameTypeCrypto > 1 ∨
      frameTypeList.bytes.count frameTypePing > 0 then
    return if isQUICGo fingerprint then clientQUICGo else clientChromium
  else return clientUnknown

/-! ## The sniffer -/

/-- What the sniffer is linked with. `compute` is `ja3.Compute`. -/
structure Env where
  crypto : Crypto
  compute : Bytes → Except String ClientHello

inductive Outcome where
  | returned (metadata : InboundContext) (err : Option SnifferError)
  | panicked

/-- A call: what the parser was given, if it was called, and the end. -/
structure Call where
  parsed : Option Bytes
  outcome : Outcome

/-- The fragments of this packet before those of the saved ones. -/
def collected (metadata : InboundContext) (frames : Frames) : List CryptoFragment :=
  frames.fragments ++ metadata.sniffContext.getD []

/-- What follows the parser. -/
def finish (env : Env) (metadata : InboundContext) (frames : Frames) (buffer : Bytes) : Outcome :=
  match env.compute buffer with
  | .error err =>
      .returned { metadata with
        protocol := "quic"
        sniffContext := some (collected metadata frames) } (some (needMoreData err))
  | .ok fingerprint =>
      let metadata' := { metadata with
        protocol := "quic"
        sniffContext := none
        domain := fingerprint.serverName }
      if metadata.client = "" then
        match classify bound (.ofBytes frames.frameTypeList) fingerprint with
        | .ok client => .returned { metadata' with client } none
        | .error _ => .panicked
      else .returned metadata' none

/-- What follows the frames. -/
def sniffFrames (env : Env) (fuel : Nat) (metadata : InboundContext) (frames : Frames) :
    Option Call :=
  match newBuffer (collected metadata frames) with
  | none => some ⟨none, .panicked⟩
  | some buffer =>
      (reassemble (collected metadata frames) fuel buffer).map fun bytes =>
        ⟨some bytes, finish bound env metadata frames bytes⟩

def packetFrames (crypto : Crypto) (packet : Bytes) : Go Frames := do
  let decrypted ← openPacket bound crypto packet
  readFrames bound decrypted

def QUICClientHello (env : Env) (fuel : Nat) (metadata : InboundContext) (packet : Bytes) :
    Option Call :=
  match packetFrames bound env.crypto packet with
  | .error (.error err) => some ⟨none, .returned metadata (some err)⟩
  | .error .panic => some ⟨none, .panicked⟩
  | .ok frames => sniffFrames bound env fuel metadata frames

end Quic

end SingBox.Sniff
