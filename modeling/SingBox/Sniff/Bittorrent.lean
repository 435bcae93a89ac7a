import SingBox.Sniff.Quic

/-!
# BitTorrent packets and messages

The detectors of `common/sniff/bittorrent.go` that look into a slice. As in the QUIC sniffer, a run
is given the bound that slice expressions are held to. A loop over a list of extensions that has
not ended after as many turns as there are bytes counts as a panic, so that what does not panic
has ended.

* `UTP`, `UDPTracker` — packets;
* `checkDHTNodes` — the list of nodes of a DHT message;
* `checkBitTorrentMessage` — the first message of a stream.
-/

namespace SingBox.Sniff.Bittorrent

open SingBox.Lib List
open Quic (Go errInvalid)

/-! ## Constants -/

def trackerProtocolID : Nat := 0x41727101980

def actionConnect : Nat := 0
def actionAnnounce : Nat := 1
def actionScrape : Nat := 2
def actionError : Nat := 3

def minSizeConnect : Nat := 16
def minSizeScrape : Nat := 36
def minSizeAnnounce : Nat := 98

def maxUTPWindowSize : Nat := 100 * 1024 * 1024

/-- The first bytes of the peer identifiers of known clients. -/
def peerIDPrefixes : List Bytes :=
  ["-qB", "-TR", "-UT", "-LT", "-DE", "-BM", "-AZ", "-lt", "-KT", "-FW", "-XL", "-SD", "-UM",
    "-KG", "-BB", "-BC", "-BR", "-BS", "-BX", "-CD", "-CT", "-DP", "-EB", "-ES", "-FT", "-FX",
    "-GS", "-HL", "-HN", "-LH", "-LP", "-LW", "-MO", "-MP", "-MR", "-MT", "-NX", "-PD", "-QD",
    "-QT", "-RT", "-SB", "-SS", "-ST", "-TN", "-TT", "-UL", "-WD", "-WY", "-XT", "-XX", "-ZT",
    "-FG", "M4-", "T0", "OP", "XBT", "exbc", "FUTB", "Plus", "turbo", "btpd"].map goBytes

/-! ## Slices -/

def setBitTorrentProtocol (metadata : InboundContext) (detector : String) : InboundContext :=
  { metadata with protocol := "bittorrent", sniffDetector := detector }

/-- `return os.ErrInvalid`. -/
def invalid {α : Type} : Go α := .error (.error errInvalid)

variable (bound : Bound)

/-- `binary.BigEndian` of `s[low:low+width]`. -/
def bigEndian (s : Slice) (low width : Nat) : Go Nat := do
  let t ← s.slice bound low (low + width)
  t.readUint width

/-- `s[i] == b₀ && s[i+1] == b₁ && …`. -/
def matchesAt (s : Slice) : Nat → Bytes → Go Bool
  | _, [] => return true
  | i, b :: rest => do
      let x ← s.index i
      if x = b then matchesAt s (i + 1) rest else return false

def bytesIndex (s sep : Bytes) : Option Nat :=
  (range (s.length + 1)).find? fun i => sep.isPrefixOf (s.drop i)

/-! ## uTP -/

variable (packet : Slice)

/-- DHCP and BOOTP, by the magic cookie. -/
def isDHCP : Go Bool :=
  if 240 ≤ packet.len then do
    let op ← packet.index 0
    let htype ← packet.index 1
    let hlen ← packet.index 2
    if (op = 0x01 ∨ op = 0x02) ∧ htype = 0x01 ∧ hlen = 0x06 then
      matchesAt packet 236 [0x63, 0x82, 0x53, 0x63]
    else return false
  else return false

/-- STUN, by the magic cookie. -/
def isSTUN : Go Bool :=
  if 8 ≤ packet.len then matchesAt packet 4 [0x21, 0x12, 0xA4, 0x42] else return false

/-- STUN without a cookie, by the types of its binding messages. -/
def isClassicSTUN : Go Bool :=
  if 20 ≤ packet.len then do
    let msgType ← bigEndian bound packet 0 2
    let msgLen ← bigEndian bound packet 2 2
    return decide (msgType < 0x4000 ∧ msgLen < 1500 ∧
      msgType ∈ [0x0001, 0x0101, 0x0111, 0x0002, 0x0102, 0x0112])
  else return false

def dtlsVersions : List Nat := [0xFEFF, 0xFEFD, 0xFEFC]

def isDTLS : Go Bool :=
  if 7 ≤ packet.len then do
    let version ← bigEndian bound packet 5 2
    return decide (version ∈ dtlsVersions)
  else return false

/-- The start of a WireGuard handshake. -/
def isWireGuard (typ : UInt8) : Go Bool :=
  if typ = 0 ∧ 4 ≤ packet.len then matchesAt packet 1 [0x00, 0x00, 0x00] else return false

/-- A delay of half an hour is no measurement. -/
def isLate (typ : UInt8) : Go Bool :=
  if typ = 0 ∨ typ = 1 then do
    let difference ← bigEndian bound packet 8 4
    return decide (difference > 2000000000)
  else return false

/-- The place in the linked list of extensions. -/
structure Walk where
  extension : UInt8
  offset : Nat

def extensionTurn (walk : Walk) : Turn Walk (Go Unit) :=
  if walk.extension = 0 then .stop walk (.ok ())
  else if walk.offset ≥ packet.len then .stop walk invalid
  else
    match (packet.index walk.offset : Go UInt8) with
    | .error stop => .stop walk (.error stop)
    | .ok nextExtension =>
        let offset := walk.offset + 1
        if nextExtension > 4 then .stop walk invalid
        else if offset ≥ packet.len then .stop walk invalid
        else
          match (packet.index offset : Go UInt8) with
          | .error stop => .stop walk (.error stop)
          | .ok length =>
              let offset := offset + 1 + length.toNat
              if offset > packet.len then .stop walk invalid else .next ⟨nextExtension, offset⟩

def walkExtensions (extension : UInt8) : Go Unit :=
  match turns (extensionTurn packet) (packet.len + 1) ⟨extension, 20⟩ with
  | some (_, result) => result
  | none => .error .panic

def UTP (metadata : InboundContext) (packet : Slice) : Go InboundContext := do
  if packet.len < 20 then invalid else do
  -- packets of other protocols that would pass for one of uTP
  if ← isDHCP packet then invalid else do
  if ← isSTUN packet then invalid else do
  if ← isClassicSTUN bound packet then invalid else do
  if ← isDTLS bound packet then invalid else do
  let first ← packet.index 0
  let version := first &&& 0x0F
  let typ := first >>> 4
  if version ≠ 1 ∨ typ > 4 then invalid else do
  let connectionID ← bigEndian bound packet 2 2
  let windowSize ← bigEndian bound packet 12 4
  if connectionID = 0 ∧ typ ≠ 4 then invalid else do
  if windowSize > maxUTPWindowSize then invalid else do
  if ← isWireGuard packet typ then invalid else do
  if ← isLate bound packet typ then invalid else do
  let extension ← packet.index 1
  if extension > 4 then invalid else do
  walkExtensions packet extension
  return setBitTorrentProtocol metadata "utp"

/-! ## UDP trackers -/

/-- The answer to an announce: a peer with the port zero is none. -/
def announceResponse : Go Bool :=
  if packet.len < 20 ∨ (packet.len - 20) % 6 ≠ 0 then return false
  else do
    let interval ← bigEndian bound packet 8 4
    if interval = 0 ∨ interval > 86400 then return false
    else do
      let leechers ← bigEndian bound packet 12 4
      let seeders ← bigEndian bound packet 16 4
      if leechers > 1000000 ∨ seeders > 1000000 then return false
      else do
        let zeroPort ← (range ((packet.len - 20) / 6)).anyM fun i => do
          let off := 20 + 6 * i
          let port ← bigEndian bound packet (off + 4) 2
          return port == 0
        return !zeroPort

def scrapeResponse : Go Bool :=
  if packet.len < 20 ∨ (packet.len - 8) % 12 ≠ 0 then return false
  else do
    let large ← (range ((packet.len - 8) / 12)).anyM fun i =>
      (range 3).anyM fun field => do
        let off := 8 + 12 * i
        let value ← bigEndian bound packet (off + field * 4) 4
        return decide (value > 10000000)
    return !large

def isPrintable (b : UInt8) : Bool := 0x20 ≤ b && b ≤ 0x7E

/-- The error of a tracker is a text. -/
def errorResponse : Go Bool :=
  if packet.len < 12 then return false
  else do
    let text ← packet.slice bound 8 packet.len
    return text.bytes.all fun b => b == 9 || b == 10 || b == 13 || isPrintable b

def udpTrackerResponse (metadata : InboundContext) (packet : Slice) : Go (InboundContext × Bool) :=
  if packet.len < 8 then return (metadata, false)
  else do
    let action ← bigEndian bound packet 0 4
    if action = actionAnnounce then do
      if ← announceResponse bound packet then
        return (setBitTorrentProtocol metadata "udp-tracker-announce-response", true)
      else return (metadata, false)
    else if action = actionScrape then do
      if ← scrapeResponse bound packet then
        return (setBitTorrentProtocol metadata "udp-tracker-scrape-response", true)
      else return (metadata, false)
    else if action = actionError then do
      if ← errorResponse bound packet then
        return (setBitTorrentProtocol metadata "udp-tracker-error-response", true)
      else return (metadata, false)
    else return (metadata, false)

def countTrailingZeroBytes (data : Bytes) : Nat := (data.reverse.takeWhile (· == 0)).length

/-- Queries and responses of DNS. -/
def isDNS : Go Bool :=
  if 12 ≤ packet.len then do
    let flags ← bigEndian bound packet 2 2
    let qdcount ← bigEndian bound packet 4 2
    let isResponse := flags &&& 0x8000 ≠ 0
    let isQuery := flags &&& 0x8000 = 0 ∧ qdcount > 0 ∧ qdcount < 100
    return decide ((isQuery ∨ isResponse) ∧ (flags >>> 11) &&& 0x0F ≤ 2)
  else return false

/-- Control packets of CAPWAP. -/
def isCAPWAP : Go Bool := do
  let first ← packet.index 0
  if first = 0x00 then do
    let second ← packet.index 1
    if (second = 0x10 ∨ second = 0x20 ∨ second = 0x00) ∧ 14 ≤ packet.len then
      matchesAt packet 12 [0x00, 0x00]
    else return false
  else return false

def isDTLSRecord : Go Bool :=
  if 3 ≤ packet.len then do
    let contentType ← packet.index 0
    let dtlsVersion ← bigEndian bound packet 1 2
    return decide ((contentType ≥ 0x14 ∧ contentType ≤ 0x17) ∧ dtlsVersion ∈ dtlsVersions)
  else return false

/-- Packets of AFS. -/
def isAFS : Go Bool :=
  if 24 ≤ packet.len then do
    let epoch ← bigEndian bound packet 0 4
    let callNum ← bigEndian bound packet 8 4
    let seq ← bigEndian bound packet 12 4
    let serial ← bigEndian bound packet 16 4
    let packetType ← packet.index 20
    return decide (epoch ≥ 0x50000000 ∧ callNum ≤ 100 ∧ seq ≤ 1000 ∧ serial ≤ 1000 ∧
      packetType ≥ 1 ∧ packetType ≤ 13)
  else return false

def isConnect : Go Bool :=
  if minSizeConnect ≤ packet.len ∧ packet.len < minSizeScrape then do
    let protocolID ← bigEndian bound packet 0 8
    if protocolID = trackerProtocolID then do
      let action ← bigEndian bound packet 8 4
      return action == actionConnect
    else return false
  else return false

/-- The identifier of a connection is none of a tracker's. -/
def isBadConnectionID : Go Bool := do
  let connectionID ← bigEndian bound packet 0 8
  if connectionID = 0 ∨ connectionID = trackerProtocolID then return true
  else do
    let head ← packet.slice bound 0 8
    return decide (countTrailingZeroBytes head.bytes > 3)

/-- An announce, by its identifiers. -/
def announce (bound : Bound) (metadata : InboundContext) (packet : Slice) : Go InboundContext := do
  if ← isBadConnectionID bound packet then invalid else do
  let peerID ← packet.slice bound 36 40
  if peerIDPrefixes.any fun known => known.isPrefixOf peerID.bytes then
    return setBitTorrentProtocol metadata "udp-tracker-announce-peer-id"
  else do
  let infoHash ← packet.slice bound 16 36
  if infoHash.bytes.all (· == 0) ∨ infoHash.bytes.all (· == 0xFF) then invalid else do
  let peerID ← packet.slice bound 36 56
  if countTrailingZeroBytes peerID.bytes > 3 then invalid else do
  return setBitTorrentProtocol metadata "udp-tracker-announce"

def scrape (bound : Bound) (metadata : InboundContext) (packet : Slice) : Go InboundContext := do
  if ← isBadConnectionID bound packet then invalid
  else return setBitTorrentProtocol metadata "udp-tracker-scrape"

/-- Whether a packet of some size has the action. -/
def hasAction (minSize action : Nat) : Go Bool :=
  if minSize ≤ packet.len then do
    let found ← bigEndian bound packet 8 4
    return found == action
  else return false

/-- The requests of a client, and the packets of other protocols that look like one. -/
def udpTrackerRequest (metadata : InboundContext) (packet : Slice) :
    Go InboundContext := do
  if packet.len < minSizeConnect then invalid else do
  if ← isDNS bound packet then invalid else do
  if ← isCAPWAP packet then invalid else do
  if ← isDTLSRecord bound packet then invalid else do
  if ← isAFS bound packet then invalid else do
  if ← isConnect bound packet then
    return setBitTorrentProtocol metadata "udp-tracker-connect"
  else do
  if ← hasAction bound packet minSizeAnnounce actionAnnounce then announce bound metadata packet
  else do
  if ← hasAction bound packet minSizeScrape actionScrape then scrape bound metadata packet
  else invalid

def UDPTracker (metadata : InboundContext) (packet : Slice) :
    Go InboundContext := do
  let (metadata, isResponse) ← udpTrackerResponse bound metadata packet
  if isResponse then return metadata else udpTrackerRequest bound metadata packet

/-! ## DHT -/

/-- The loop of `parseBencodeLength`, with the number so far. -/
def bencodeLength (n : Nat) : Bytes → Nat
  | [] => n
  | ch :: rest =>
      if ch < 48 ∨ ch > 57 then bencodeLength n rest
      else
        let n := n * 10 + (ch - 48).toNat
        if n > 1048576 then 0 else bencodeLength n rest

def parseBencodeLength (data : Bytes) : Nat := bencodeLength 0 data

variable (payload : Slice)

/-- A list of nodes under a key, each of some size. -/
def nodesUnder (key : String) (size : Nat) : Go Bool :=
  match bytesIndex payload.bytes (goBytes key) with
  | none => return false
  | some nodesIdx =>
      let offset := nodesIdx + (goBytes key).length
      if offset < payload.len then do
        let rest ← payload.slice bound offset payload.len
        match rest.bytes.findIdx? (· == 58) with
        | none => return false
        | some colonIdx =>
            if colonIdx > 0 ∧ colonIdx < 10 then do
              let digits ← payload.slice bound offset (offset + colonIdx)
              let nodeDataLen := parseBencodeLength digits.bytes
              return decide (nodeDataLen ≥ size ∧ nodeDataLen % size = 0)
            else return false
      else return false

def checkDHTNodes : Go Bool := do
  if ← nodesUnder bound payload "6:nodes" 26 then return true
  else nodesUnder bound payload "7:nodes6" 38

/-! ## Messages -/

def messageChainPlausible (last : Int) : Go Bool :=
  if last < 0 ∨ last > payload.len then return false
  else do
    let rest ← payload.slice bound last.toNat payload.len
    -- a header that has not come in full speaks for nothing else
    if rest.len = 0 then return true
    else if rest.len < 4 then return true
    else do
      let nextLen ← bigEndian bound rest 0 4
      if nextLen = 0 then return true
      else if nextLen > 262144 then return false
      else if 5 ≤ rest.len then do
        let id ← rest.index 4
        return !decide (id > 23)
      else return true

/-- A short bitfield of few values looks like another protocol. -/
def isUniform (data : Bytes) : Bool :=
  data.count 0xFF + data.count 0x00 ≥ data.length * 6 / 10

/-- Many different bytes and few repetitions look like an encrypted packet. -/
def isEncrypted (sample : Slice) : Go Bool := do
  let first ← sample.index 0
  let uniqueCount := sample.bytes.dedup.length
  let repeatedCount := ((first :: sample.bytes).zip sample.bytes).countP fun (prev, b) => b == prev
  return decide (uniqueCount ≥ 13 ∧ repeatedCount ≤ 4)

def shortBitfield (msgLen : Nat) : Go Bool :=
  if (msgLen ≥ 8 ∧ msgLen ≤ 12) ∧ payload.len ≥ 9 then do
    let data ← payload.slice bound 5 payload.len
    return isUniform data.bytes
  else return false

/-- The sample is of sixteen bytes from the sixth on, which a payload of twenty does not have. -/
def encryptedBitfield (msgLen : Nat) : Go Bool :=
  if payload.len ≥ 20 ∧ msgLen > 40 then do
    let sample ← payload.slice bound 5 21
    isEncrypted sample
  else return false

def checkBitfield (msgLen : Nat) : Go Bool :=
  if msgLen ≤ 1 ∨ msgLen > 65536 then return false
  else do
    if ← shortBitfield bound payload msgLen then return false
    else do
      if ← encryptedBitfield bound payload msgLen then return false
      else messageChainPlausible bound payload (4 + msgLen)

/-- A piece that is a list of names looks like a key exchange of SSH. -/
def checkPiece (msgLen : Nat) : Go Bool :=
  if msgLen ≤ 9 ∨ msgLen > 16393 then return false
  else if payload.len ≥ 50 ∧ 13 + 40 ≤ payload.len then do
    let sample ← payload.slice bound 13 (13 + 40)
    let printable := sample.bytes.filter isPrintable
    let commaCount := printable.countP fun b => b == 44 || b == 45
    return !decide (printable.length ≥ 30 ∧ commaCount ≥ 3)
  else return true

def checkExtended (msgLen : Nat) : Go Bool :=
  if msgLen ≤ 1 then return false
  else if payload.len ≥ 6 then do
    let extID ← payload.index 5
    if extID = 0 then
      if payload.len > 6 then do
        let start ← payload.index 6
        -- a handshake is a dictionary; what is none is judged by its length
        return start == 100 || decide (msgLen > 1 ∧ msgLen < 131072)
      else return decide (msgLen > 1 ∧ msgLen < 131072)
    else return decide (msgLen > 2 ∧ msgLen < 131072)
  else return decide (msgLen > 1 ∧ msgLen < 131072)

/-- The message by its identifier. -/
def checkMessage (msgID : UInt8) (msgLen : Nat) : Go Bool :=
  if msgID ∈ [0x00, 0x01, 0x02, 0x03] then return msgLen == 1
  else if msgID = 0x04 then return msgLen == 5
  else if msgID = 0x05 then checkBitfield bound payload msgLen
  else if msgID = 0x06 then return msgLen == 13
  else if msgID = 0x07 then checkPiece bound payload msgLen
  else if msgID = 0x08 then return msgLen == 13
  else if msgID = 0x09 then return msgLen == 3
  else if msgID = 0x0D then return msgLen == 5
  else if msgID = 0x0E ∨ msgID = 0x0F then return msgLen == 1
  else if msgID = 0x10 then return msgLen == 13
  else if msgID = 0x11 then return msgLen == 5
  else if msgID = 0x14 then checkExtended payload msgLen
  else if msgID ∈ [0x15, 0x16, 0x17] then return decide (msgLen > 1 ∧ msgLen < 131072)
  else return false

def checkBitTorrentMessage : Go Bool :=
  if payload.len < 5 then return false
  else do
    let msgID ← payload.index 4
    -- messages of SSH
    if msgID ≥ 50 then return false
    else if (msgID ≥ 21 ∧ msgID ≤ 49) ∧ msgID > 23 then return false
    else do
      let msgLen ← bigEndian bound payload 0 4
      if msgLen = 0 ∨ msgLen > 262144 then return false
      else if msgLen + 4 > payload.len * 10 then return false
      else checkMessage bound payload msgID msgLen

/-! ## Bounds -/

/-- No index and no slice expression panics. -/
abbrev InBounds {α : Type} (r : Go α) : Prop := Satisfies (fun _ => True) r

section

variable {α : Type} {r : Go α}

theorem inBounds_invalid : InBounds (invalid : Go α) := trivial

theorem inBounds_pure (a : α) : InBounds (pure a : Go α) := trivial

/-- A condition under which nothing is looked at. -/
theorem InBounds.past {c : Prop} [Decidable c] {a : α} (h : ¬ c → InBounds r) :
    InBounds (if c then pure a else r) :=
  Satisfies.ite c (fun _ => inBounds_pure a) h

theorem InBounds.within {c : Prop} [Decidable c] {a : α} (h : c → InBounds r) :
    InBounds (if c then r else pure a) :=
  Satisfies.ite c h fun _ => inBounds_pure a

theorem InBounds.check {c : Go Bool} {yes no : Go α} (hc : InBounds c) (hyes : InBounds yes)
    (hno : InBounds no) : InBounds (do if ← c then yes else no) :=
  hc.bind fun found _ => .ite (found = true) (fun _ => hyes) fun _ => hno

end

section

variable {bound : Bound} {packet : Slice}

theorem bigEndian_eq {low width : Nat} (h : low + width ≤ packet.len) :
    bigEndian bound packet low width = .ok (uint ((packet.bytes.drop low).take width)) := by
  have inside : low ≤ low + width ∧ low + width ≤ packet.limit bound :=
    ⟨Nat.le_add_right _ _, Nat.le_trans h (packet.le_limit bound)⟩
  have width_le : width ≤ low + width - low := by omega
  have same : ((packet.array.drop low).take (low + width - low)).take width
      = (packet.bytes.drop low).take width := by
    rw [Slice.bytes, drop_take, take_take, take_take]
    congr 1
    omega
  simp only [bigEndian, Slice.slice, dif_pos inside]
  show (Slice.readUint _ width : Go Nat) = _
  rw [Slice.readUint, if_pos width_le, Slice.bytes, same]

/-- A number is read, whatever it is. -/
theorem bigEndian_then {low width : Nat} {α : Type} {Q : α → Prop} {f : Nat → Go α}
    (h : low + width ≤ packet.len) (rest : ∀ n, Satisfies Q (f n)) :
    Satisfies Q (bigEndian bound packet low width >>= f) := by
  rw [bigEndian_eq h]
  exact rest _

theorem slice_inside {low high : Nat} (le : low ≤ high) (h : high ≤ packet.len) :
    Satisfies (fun t => t.len = high - low) (packet.slice bound low high : Go Slice) :=
  Satisfies.slice le (Nat.le_trans h (packet.le_limit bound))

theorem matchesAt_inBounds {i : Nat} {bytes : Bytes} (h : i + bytes.length ≤ packet.len) :
    InBounds (matchesAt packet i bytes) := by
  induction bytes generalizing i with
  | nil => exact inBounds_pure _
  | cons b rest ih =>
    rw [length_cons] at h
    refine .byte (by omega) fun x => ?_
    exact InBounds.within fun _ => ih (by omega)

/-! ### uTP -/

theorem isDHCP_inBounds : InBounds (isDHCP packet) := by
  refine InBounds.within fun long => ?_
  refine .byte (by omega) fun op => ?_
  refine .byte (by omega) fun htype => ?_
  refine .byte (by omega) fun hlen => ?_
  exact InBounds.within fun _ => matchesAt_inBounds long

theorem isSTUN_inBounds : InBounds (isSTUN packet) :=
  Satisfies.ite _ (fun long => matchesAt_inBounds long) fun _ => inBounds_pure _

theorem isClassicSTUN_inBounds : InBounds (isClassicSTUN bound packet) := by
  refine .within fun long => ?_
  refine bigEndian_then (by omega) fun msgType => ?_
  exact bigEndian_then (by omega) fun msgLen => inBounds_pure _

theorem isDTLS_inBounds : InBounds (isDTLS bound packet) := by
  refine .within fun long => ?_
  exact bigEndian_then long fun version => inBounds_pure _

theorem isWireGuard_inBounds (typ : UInt8) : InBounds (isWireGuard packet typ) :=
  Satisfies.ite _ (fun long => matchesAt_inBounds long.2) fun _ => inBounds_pure _

theorem isLate_inBounds (typ : UInt8) (long : 20 ≤ packet.len) :
    InBounds (isLate bound packet typ) := by
  refine .within fun _ => ?_
  exact bigEndian_then (by omega) fun difference => inBounds_pure _

/-- A turn of the walk goes past at least two bytes of the packet. -/
theorem extensionTurn_leaves (walk : Walk) :
    (extensionTurn packet walk).Leaves
      (fun next => True ∧ packet.len - next.offset < packet.len - walk.offset)
      (fun _ result => InBounds result) := by
  unfold extensionTurn
  -- each of the two bytes of an extension is read after a test that it is there
  split_ifs with last outside
  · exact inBounds_pure ()
  · exact inBounds_invalid (α := Unit)
  · obtain ⟨nextExtension, first⟩ := packet.exists_index (show walk.offset < packet.len by omega)
    rw [first]
    dsimp only
    split_ifs with large short
    · exact inBounds_invalid (α := Unit)
    · exact inBounds_invalid (α := Unit)
    · obtain ⟨length, second⟩ :=
        packet.exists_index (show walk.offset + 1 < packet.len by omega)
      rw [second]
      dsimp only
      split_ifs with past
      · exact inBounds_invalid (α := Unit)
      · refine ⟨trivial, ?_⟩
        show packet.len - (walk.offset + 1 + 1 + length.toNat) < packet.len - walk.offset
        omega

theorem walkExtensions_inBounds (extension : UInt8) :
    InBounds (walkExtensions packet extension) := by
  obtain ⟨last, result, ends, inside⟩ := @turns_ends _ _ (extensionTurn packet) (fun _ => True)
    (fun _ result => InBounds result) (fun walk => packet.len - walk.offset)
    (fun walk _ => extensionTurn_leaves walk) ⟨extension, 20⟩ trivial
  -- the walk has more turns than there are bytes after the header
  have enough : packet.len - 20 < packet.len + 1 := by omega
  rw [walkExtensions, ends _ enough]
  exact inside

variable (metadata : InboundContext)

theorem UTP_inBounds : InBounds (UTP bound metadata packet) := by
  refine .refuse_lt fun (long : 20 ≤ packet.len) => ?_
  refine isDHCP_inBounds.check inBounds_invalid ?_
  refine isSTUN_inBounds.check inBounds_invalid ?_
  refine isClassicSTUN_inBounds.check inBounds_invalid ?_
  refine isDTLS_inBounds.check inBounds_invalid ?_
  refine .byte (by omega) fun first => ?_
  refine .refuse fun _ => ?_
  refine bigEndian_then (by omega) fun connectionID => ?_
  refine bigEndian_then (by omega) fun windowSize => ?_
  refine .refuse fun _ => ?_
  refine .refuse fun _ => ?_
  refine (isWireGuard_inBounds _).check inBounds_invalid ?_
  refine (isLate_inBounds _ long).check inBounds_invalid ?_
  refine .byte (by omega) fun extension => ?_
  refine .refuse fun _ => ?_
  exact (walkExtensions_inBounds extension).bind fun _ _ => inBounds_pure _

/-! ### UDP trackers -/

theorem announceResponse_inBounds : InBounds (announceResponse bound packet) := by
  refine InBounds.past fun whole => ?_
  refine bigEndian_then (by omega) fun interval => ?_
  refine InBounds.past fun _ => ?_
  refine bigEndian_then (by omega) fun leechers => ?_
  refine bigEndian_then (by omega) fun seeders => ?_
  refine InBounds.past fun _ => ?_
  refine (Satisfies.anyM fun i mem => ?_).bind fun zeroPort _ => inBounds_pure _
  have lt := mem_range.mp mem
  exact bigEndian_then (by omega) fun port => inBounds_pure _

theorem scrapeResponse_inBounds : InBounds (scrapeResponse bound packet) := by
  refine .past fun whole => ?_
  refine (Satisfies.anyM fun i row => .anyM fun field mem => ?_).bind
    fun large _ => inBounds_pure _
  have row := mem_range.mp row
  have lt := mem_range.mp mem
  exact bigEndian_then (by omega) fun value => inBounds_pure _

theorem errorResponse_inBounds : InBounds (errorResponse bound packet) := by
  refine .past fun short => ?_
  exact (slice_inside (by omega) (Nat.le_refl _)).bind fun text _ => inBounds_pure _

theorem udpTrackerResponse_inBounds : InBounds (udpTrackerResponse bound metadata packet) := by
  refine .past fun short => ?_
  refine bigEndian_then (by omega) fun action => ?_
  refine .ite _ (fun _ => announceResponse_inBounds.check trivial trivial) fun _ => ?_
  refine .ite _ (fun _ => scrapeResponse_inBounds.check trivial trivial) fun _ => ?_
  refine .ite _ (fun _ => errorResponse_inBounds.check trivial trivial) fun _ => ?_
  exact inBounds_pure _

theorem isDNS_inBounds : InBounds (isDNS bound packet) := by
  refine .within fun long => ?_
  refine bigEndian_then (by omega) fun flags => ?_
  exact bigEndian_then (by omega) fun qdcount => inBounds_pure _

theorem isCAPWAP_inBounds (long : 2 ≤ packet.len) : InBounds (isCAPWAP packet) := by
  refine .byte (by omega) fun first => ?_
  refine InBounds.within fun _ => ?_
  refine .byte (by omega) fun second => ?_
  exact InBounds.within fun head => matchesAt_inBounds head.2

theorem isDTLSRecord_inBounds : InBounds (isDTLSRecord bound packet) := by
  refine .within fun long => ?_
  refine .byte (by omega) fun contentType => ?_
  exact bigEndian_then (by omega) fun dtlsVersion => inBounds_pure _

theorem isAFS_inBounds : InBounds (isAFS bound packet) := by
  refine .within fun long => ?_
  refine bigEndian_then (by omega) fun epoch => ?_
  refine bigEndian_then (by omega) fun callNum => ?_
  refine bigEndian_then (by omega) fun seq => ?_
  refine bigEndian_then (by omega) fun serial => ?_
  exact .byte (by omega) fun packetType => inBounds_pure _

theorem isConnect_inBounds : InBounds (isConnect bound packet) := by
  refine InBounds.within fun size => ?_
  have long : 16 ≤ packet.len := size.1
  refine bigEndian_then (by omega) fun protocolID => ?_
  refine InBounds.within fun _ => ?_
  exact bigEndian_then (by omega) fun action => inBounds_pure _

theorem isBadConnectionID_inBounds (long : 8 ≤ packet.len) :
    InBounds (isBadConnectionID bound packet) := by
  refine bigEndian_then (by omega) fun connectionID => ?_
  refine InBounds.past fun _ => ?_
  exact (slice_inside (by omega) long).bind fun head _ => inBounds_pure _

/-- A packet with some action has the size that was asked for. -/
theorem hasAction_holds (minSize action : Nat) (le : 12 ≤ minSize) :
    Satisfies (fun found => found = true → minSize ≤ packet.len)
      (hasAction bound packet minSize action) := by
  refine .ite _ (fun long => ?_) fun _ => .pure _ fun h => (by cases h)
  exact bigEndian_then (by omega) fun found => .pure _ fun _ => long

theorem announce_inBounds (long : minSizeAnnounce ≤ packet.len) :
    InBounds (announce bound metadata packet) := by
  have long : 98 ≤ packet.len := long
  refine (isBadConnectionID_inBounds (by omega)).check inBounds_invalid ?_
  refine (slice_inside (by omega) (by omega)).bind fun peerID _ => ?_
  refine InBounds.past fun _ => ?_
  refine (slice_inside (by omega) (by omega)).bind fun infoHash _ => ?_
  refine .refuse fun _ => ?_
  refine (slice_inside (by omega) (by omega)).bind fun peerID _ => ?_
  exact InBounds.within fun _ => inBounds_invalid

theorem scrape_inBounds (long : minSizeScrape ≤ packet.len) :
    InBounds (scrape bound metadata packet) := by
  have long : 36 ≤ packet.len := long
  exact (isBadConnectionID_inBounds (by omega)).check inBounds_invalid (inBounds_pure _)

theorem udpTrackerRequest_inBounds : InBounds (udpTrackerRequest bound metadata packet) := by
  refine .refuse_lt fun (long : 16 ≤ packet.len) => ?_
  refine isDNS_inBounds.check inBounds_invalid ?_
  refine (isCAPWAP_inBounds (by omega)).check inBounds_invalid ?_
  refine isDTLSRecord_inBounds.check inBounds_invalid ?_
  refine isAFS_inBounds.check inBounds_invalid ?_
  refine isConnect_inBounds.check (inBounds_pure _) ?_
  -- that an announce or a scrape is long enough comes out of the test of its action
  refine (hasAction_holds _ _ (by decide)).bind fun isAnnounce long => ?_
  refine .ite _ (fun yes => announce_inBounds metadata (long yes)) fun _ => ?_
  refine (hasAction_holds _ _ (by decide)).bind fun isScrape long => ?_
  exact .ite _ (fun yes => scrape_inBounds metadata (long yes)) fun _ => inBounds_invalid

theorem UDPTracker_inBounds : InBounds (UDPTracker bound metadata packet) := by
  refine (udpTrackerResponse_inBounds metadata).bind fun answer _ => ?_
  exact InBounds.past fun _ => udpTrackerRequest_inBounds _

/-! ### DHT -/

theorem nodesUnder_inBounds (key : String) (size : Nat) :
    InBounds (nodesUnder bound packet key size) := by
  unfold nodesUnder
  split
  · exact inBounds_pure _
  · rename_i nodesIdx found
    refine InBounds.within fun inside => ?_
    refine .bind (Satisfies.slice (Nat.le_of_lt inside) (packet.le_limit bound))
      fun rest len => ?_
    split
    · exact inBounds_pure _
    · rename_i colonIdx colon
      have lt := (findIdx?_eq_some_iff_findIdx_eq.mp colon).1
      rw [Slice.length_bytes] at lt
      refine InBounds.within fun _ => ?_
      exact (slice_inside (by omega) (by omega)).bind fun digits _ => inBounds_pure _

theorem checkDHTNodes_inBounds : InBounds (checkDHTNodes bound packet) :=
  (nodesUnder_inBounds _ _).check (inBounds_pure _) (nodesUnder_inBounds _ _)

/-! ### Messages -/

theorem messageChainPlausible_inBounds (last : Int) :
    InBounds (messageChainPlausible bound packet last) := by
  refine InBounds.past fun inside => ?_
  refine (slice_inside (by omega) (Nat.le_refl _)).bind fun rest _ => ?_
  refine InBounds.past fun _ => ?_
  refine InBounds.past fun short => ?_
  refine bigEndian_then (by omega) fun nextLen => ?_
  refine InBounds.past fun _ => ?_
  refine InBounds.past fun _ => ?_
  refine InBounds.within fun long => ?_
  exact .byte (by omega) fun id => inBounds_pure _

variable (msgLen : Nat)

theorem shortBitfield_inBounds : InBounds (shortBitfield bound packet msgLen) := by
  refine .within fun long => ?_
  exact (slice_inside (by omega) (Nat.le_refl _)).bind fun data _ => inBounds_pure _

/-- The sample is outside only of a payload of exactly twenty bytes. -/
theorem encryptedBitfield_inBounds {msgLen : Nat}
    (fits : packet.len = 20 → 40 < msgLen → 21 ≤ packet.limit bound) :
    InBounds (encryptedBitfield bound packet msgLen) := by
  refine .within fun long => ?_
  have inside : 21 ≤ packet.limit bound := by
    by_cases exact20 : packet.len = 20
    · exact fits exact20 long.2
    · have le := packet.le_limit bound
      omega
  refine (Satisfies.slice (by omega) inside).bind fun sample len => ?_
  exact .byte (by omega) fun first => inBounds_pure _

theorem checkBitfield_inBounds {msgLen : Nat}
    (fits : packet.len = 20 → 40 < msgLen → 21 ≤ packet.limit bound) :
    InBounds (checkBitfield bound packet msgLen) := by
  refine .past fun _ => ?_
  refine (shortBitfield_inBounds msgLen).check (inBounds_pure _) ?_
  exact (encryptedBitfield_inBounds fits).check (inBounds_pure _)
    (messageChainPlausible_inBounds _)

theorem checkBitfield_panic {msgLen : Nat} (len : packet.len = 20)
    (limit : packet.limit bound < 21) (long : 40 < msgLen) (le : msgLen ≤ 65536) :
    checkBitfield bound packet msgLen = .error .panic := by
  have short : shortBitfield bound packet msgLen = .ok false := if_neg (by omega)
  have sample : encryptedBitfield bound packet msgLen = .error .panic := by
    rw [encryptedBitfield, if_pos (by omega), Slice.slice, dif_neg (by omega)]
    rfl
  rw [checkBitfield, if_neg (by omega), short]
  rw [sample]
  rfl

theorem checkPiece_inBounds : InBounds (checkPiece bound packet msgLen) := by
  refine .past fun _ => ?_
  refine .within fun long => ?_
  exact (slice_inside (by omega) long.2).bind fun sample _ => inBounds_pure _

theorem checkExtended_inBounds : InBounds (checkExtended packet msgLen) := by
  refine InBounds.past fun _ => ?_
  refine InBounds.within fun long => ?_
  refine .byte (by omega) fun extID => ?_
  refine InBounds.within fun _ => ?_
  refine InBounds.within fun longer => ?_
  exact .byte longer fun start => inBounds_pure _

theorem checkMessage_inBounds {msgID : UInt8} {msgLen : Nat}
    (fits : msgID = 0x05 → packet.len = 20 → 40 < msgLen → 21 ≤ packet.limit bound) :
    InBounds (checkMessage bound packet msgID msgLen) := by
  refine InBounds.past fun _ => ?_
  refine InBounds.past fun _ => ?_
  refine .ite _ (fun bitfield => checkBitfield_inBounds (fits bitfield)) fun _ => ?_
  refine InBounds.past fun _ => ?_
  refine .ite _ (fun _ => checkPiece_inBounds _) fun _ => ?_
  -- six identifiers that the length alone decides
  iterate 6 refine InBounds.past fun _ => ?_
  refine .ite _ (fun _ => checkExtended_inBounds _) fun _ => ?_
  exact InBounds.past fun _ => inBounds_pure _

/-- The length that a message announces. -/
def announced (payload : Slice) : Nat := uint (payload.bytes.take 4)

/-- A bitfield of twenty bytes whose length is above forty, in an array that ends there. -/
structure Overruns (bound : Bound) (payload : Slice) : Prop where
  len : payload.len = 20
  limit : payload.limit bound < 21
  bitfield : payload.bytes[4]? = some 0x05
  long : 40 < announced payload
  expected : announced payload + 4 ≤ 200

theorem announced_eq (long : 4 ≤ packet.len) :
    bigEndian bound packet 0 4 = .ok (announced packet) :=
  bigEndian_eq (by omega)

theorem checkBitTorrentMessage_inBounds (fits : ¬ Overruns bound packet) :
    InBounds (checkBitTorrentMessage bound packet) := by
  refine InBounds.past fun short => ?_
  refine (Satisfies.index (by omega)).bind fun msgID id => ?_
  refine InBounds.past fun _ => ?_
  refine InBounds.past fun _ => ?_
  rw [announced_eq (by omega)]
  refine InBounds.past fun _ => ?_
  refine InBounds.past fun expected => ?_
  refine checkMessage_inBounds fun bitfield len long => ?_
  -- the sample of a bitfield is the only access that can be outside
  by_contra outside
  exact fits ⟨len, by omega, by rw [id, bitfield], long, by omega⟩

theorem checkBitTorrentMessage_panic (h : Overruns bound packet) :
    checkBitTorrentMessage bound packet = .error .panic := by
  have len := h.len
  have long := h.long
  have expected := h.expected
  have id : (packet.index 4 : Go UInt8) = .ok 0x05 := by rw [Slice.index, h.bitfield]
  rw [checkBitTorrentMessage, if_neg (by omega), id]
  rw [announced_eq (by omega)]
  show (if _ then _ else if _ then _ else checkBitfield bound packet (announced packet)) = _
  rw [if_neg (by omega), if_neg (by omega)]
  exact checkBitfield_panic len h.limit long (by omega)

end

/-- Every detector stays inside the slice and ends, except for the one of messages, which leaves
it at a bitfield of exactly twenty bytes. -/
theorem detectors_panic_iff (bound : Bound) (metadata : InboundContext) (packet : Slice)
    (last : Int) :
    UTP bound metadata packet ≠ .error .panic ∧
    udpTrackerResponse bound metadata packet ≠ .error .panic ∧
    UDPTracker bound metadata packet ≠ .error .panic ∧
    checkDHTNodes bound packet ≠ .error .panic ∧
    messageChainPlausible bound packet last ≠ .error .panic ∧
    (checkBitTorrentMessage bound packet = .error .panic ↔ Overruns bound packet) := by
  refine ⟨(UTP_inBounds metadata).ne_panic, (udpTrackerResponse_inBounds metadata).ne_panic,
    (UDPTracker_inBounds metadata).ne_panic, checkDHTNodes_inBounds.ne_panic,
    (messageChainPlausible_inBounds last).ne_panic, fun panics => ?_, checkBitTorrentMessage_panic⟩
  by_contra fits
  exact (checkBitTorrentMessage_inBounds fits).ne_panic panics

/-- A bitfield of 41 bytes of which twenty have come. -/
theorem bitfield_outside :
    checkBitTorrentMessage .capacity (Slice.ofBytes ([0, 0, 0, 41, 5] ++ List.replicate 15 0))
      = .error .panic := by
  decide

end SingBox.Sniff.Bittorrent
