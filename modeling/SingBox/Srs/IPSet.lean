import SingBox.Lib.Codec
import SingBox.Netip

/-!
# Addresses in binary rule-sets

`common/srs/ip_set.go` and `common/srs/ip_cidr.go`: a set of addresses is written as its ranges,
each with the bytes of its two ends, and a prefix as the bytes of its address and its length. What
`varbin` and `encoding/binary` write is left to them.

* `ofAddr_addr` — the bytes of a prefix say which it is;
* `prefixCodec`, `ipSetCodec` — what is written is read.
-/

namespace SingBox.Srs

open SingBox.Lib SingBox.Lib.Reader UInt8

inductive ReadError where
  | eof
  /-- `os.ErrInvalid` -/
  | invalid
  /-- An error of zlib, of `varbin` or of a matcher. -/
  | library (message : String)
  | invalidFile
  | unsupportedVersion (version : UInt8)
  | unknownRuleType (ruleType : UInt8)
  | unknownItemType (itemType lastItemType : UInt8)
  | unknownMode (mode : UInt8)
  | cause (err : ReadError) (message : String)
  deriving DecidableEq, Repr

def ReadError.message : ReadError → String
  | .eof => "EOF"
  | .invalid => "invalid argument"
  | .library message => message
  | .invalidFile => "invalid sing-box rule-set file"
  | .unsupportedVersion version => "unsupported version: " ++ toString version.toNat
  | .unknownRuleType ruleType => "unknown rule type: " ++ toString ruleType.toNat
  | .unknownItemType itemType lastItemType =>
      "unknown rule item type: " ++ toString itemType.toNat ++ ", last type: " ++
        toString lastItemType.toNat
  | .unknownMode mode => "unknown logical mode: " ++ toString mode.toNat
  | .cause err message => message ++ ": " ++ err.message

/-- What is written and read by `varbin` and `encoding/binary`. Lengths are numbers here. -/
structure Varbin where
  /-- `varbin.WriteUvarint` and `binary.ReadUvarint` -/
  uvarint : Codec ReadError Nat
  /-- `binary.Write` and `binary.Read` of a `uint64` -/
  uint64 : Codec ReadError Nat
  /-- `varbin.Write` and `varbin.ReadValue` of a `[]uint8` -/
  bytes : Codec ReadError Bytes
  uint16s : Codec ReadError (List UInt16)
  strings : Codec ReadError (List String)
  /-- A `myIPRangeData` -/
  rangeData : Codec ReadError (Bytes × Bytes)

variable (varbin : Varbin)

/-! ## Prefixes -/

def writePrefix (p : Prefix) : Bytes :=
  varbin.bytes.encode p.addr.asSlice ++ [ofInt p.bits]

def readPrefix : Reader ReadError Prefix := do
  let addrSlice ← varbin.bytes.decode
  let prefixBits ← readByte .eof
  return Prefix.ofAddr (Addr.fromIP addrSlice) prefixBits.toNat

theorem toNat_ofInt {n : Nat} (small : n < 256) : (ofInt n).toNat = n := by
  rw [ofInt, toNat_ofNat']
  omega

theorem ofAddr_addr (p : Prefix) :
    Prefix.ofAddr (Addr.fromIP p.addr.asSlice) (ofInt p.bits).toNat = p := by
  rw [Addr.fromIP_asSlice]
  cases p with
  | invalid => rfl
  | v4 ip bits | v6 ip bits =>
    have same : (ofInt bits.val).toNat = bits.val := toNat_ofInt (by omega)
    simp [Prefix.addr, Prefix.bits, Addr.withoutZone, Prefix.ofAddr, same, bits.isLt]

def prefixCodec : Codec ReadError Prefix where
  encode := writePrefix varbin
  decode := readPrefix varbin
  reads p := by
    refine (varbin.bytes.reads _).bind ?_
    have h := (Reads.readByte ReadError.eof (ofInt p.bits)).map
      fun bits => Prefix.ofAddr (Addr.fromIP p.addr.asSlice) bits.toNat
    rw [ofAddr_addr] at h
    exact h

/-! ## Sets -/

/-- `netipx.IPRange`, which has no zones. -/
structure IPRange where
  fromAddr : Addr
  toAddr : Addr
  fromZone : fromAddr.withoutZone = fromAddr
  toZone : toAddr.withoutZone = toAddr

namespace IPRange

/-- The range of a `myIPRangeData`. -/
def ofSlices (data : Bytes × Bytes) : IPRange where
  fromAddr := Addr.fromIP data.1
  toAddr := Addr.fromIP data.2
  fromZone := Addr.withoutZone_fromIP _
  toZone := Addr.withoutZone_fromIP _

def slices (r : IPRange) : Bytes × Bytes := (r.fromAddr.asSlice, r.toAddr.asSlice)

theorem ofSlices_slices (r : IPRange) : ofSlices r.slices = r := by
  obtain ⟨lower, upper, lowerZone, upperZone⟩ := r
  simp only [ofSlices, slices, Addr.fromIP_asSlice, lowerZone, upperZone]

/-- What `IPSet.Contains` asks of a range: it has answered no for an address with a zone before
it compares. -/
def spans (r : IPRange) : Addr → Bool
  | .invalid => false
  | .v4 a =>
      match r.fromAddr, r.toAddr with
      | .v4 lower, .v4 upper => decide (lower ≤ a) && decide (a ≤ upper)
      | _, _ => false
  | .v6 a zone =>
      match r.fromAddr, r.toAddr with
      | .v6 lower _, .v6 upper _ => zone == [] && decide (lower ≤ a) && decide (a ≤ upper)
      | _, _ => false

end IPRange

/-- `netipx.IPSet`: its ranges. -/
abbrev IPSet := List IPRange

def IPSet.contains (set : IPSet) (a : Addr) : Bool := set.any (·.spans a)

def writeIPSet (set : IPSet) : Bytes :=
  1 :: varbin.uint64.encode set.length ++
    (set.map fun r => varbin.rangeData.encode r.slices).flatten

def readIPSet : Reader ReadError IPSet := do
  let version ← readByte .eof
  if version ≠ 1 then throw .invalid
  let length ← varbin.uint64.decode
  let ranges ← readTimes (fun _ => varbin.rangeData.decode) 0 length
  return ranges.map IPRange.ofSlices

def ipSetCodec : Codec ReadError IPSet where
  encode := writeIPSet varbin
  decode := readIPSet varbin
  reads set := by
    have ranges := varbin.rangeData.reads_times (set.map IPRange.slices) 0
    have h := ranges.map fun data => data.map IPRange.ofSlices
    rw [List.map_map, List.map_map, List.length_map] at h
    have same : set.map (IPRange.ofSlices ∘ IPRange.slices) = set := by
      rw [show IPRange.ofSlices ∘ IPRange.slices = id from funext IPRange.ofSlices_slices]
      exact List.map_id set
    rw [same] at h
    exact (Reads.readByte ReadError.eof 1).bind ((varbin.uint64.reads set.length).bind h)

end SingBox.Srs
