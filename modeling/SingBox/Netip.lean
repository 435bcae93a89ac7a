import Mathlib.Data.BitVec
import SingBox.Lib.Bytes

/-!
# Network addresses and prefixes

The part of Go's `net/netip` that rules, peers and routes are written in:
addresses with their family and zone, prefixes, and containment. The zero
`netip.Addr` and the zero `netip.Prefix` are values of their own, because the
source passes them around and tests for them.
-/

namespace SingBox

open Lib

inductive Addr where
  | invalid
  | v4 (ip : BitVec 32)
  | v6 (ip : BitVec 128) (zone : Bytes)
  deriving DecidableEq, Repr

namespace Addr

def isValid : Addr → Bool
  | .invalid => false
  | _ => true

def is4 : Addr → Bool
  | .v4 _ => true
  | _ => false

/-- `Addr.Is6`: IPv6, the IPv4-mapped addresses included. -/
def is6 : Addr → Bool
  | .v6 .. => true
  | _ => false

/-- `Addr.Is4In6`: the range `::ffff:0:0/96`. -/
def is4In6 : Addr → Bool
  | .v6 ip _ => ip >>> 32 == 0xffff#128
  | _ => false

/-- `Addr.Unmap`: an IPv4-mapped address becomes the IPv4 address it maps. -/
def unmap (a : Addr) : Addr :=
  match a with
  | .v6 ip _ => if a.is4In6 then .v4 (ip.setWidth 32) else a
  | _ => a

/-- `Addr.Next`: the zero address after the last one of the family. -/
def next : Addr → Addr
  | .invalid => .invalid
  | .v4 ip => if ip + 1#32 = 0#32 then .invalid else .v4 (ip + 1#32)
  | .v6 ip zone => if ip + 1#128 = 0#128 then .invalid else .v6 (ip + 1#128) zone

/-- `Addr.As16`: an IPv4 address becomes IPv4-mapped. -/
def as16 : Addr → BitVec 128
  | .invalid => 0#128
  | .v4 ip => 0xffff#128 <<< 32 ||| ip.setWidth 128
  | .v6 ip _ => ip

/-- `Addr.WithZone("")`. -/
def withoutZone : Addr → Addr
  | .v6 ip _ => .v6 ip []
  | a => a

def asSlice : Addr → Bytes
  | .invalid => []
  | .v4 ip => putUint 4 ip.toNat
  | .v6 ip _ => putUint 16 ip.toNat

/-- `M.AddrFromIP`. -/
def fromIP (b : Bytes) : Addr :=
  if b.length = 4 then .v4 (BitVec.ofNat 32 (uint b))
  else if b.length = 16 then .v6 (BitVec.ofNat 128 (uint b)) []
  else .invalid

theorem uint_putUint_toNat {w : Nat} (width : Nat) (ip : BitVec w) (h : 2 ^ w = 256 ^ width) :
    BitVec.ofNat w (uint (putUint width ip.toNat)) = ip := by
  rw [uint_putUint (h ▸ ip.isLt), BitVec.ofNat_toNat, BitVec.setWidth_eq]

theorem fromIP_asSlice (a : Addr) : fromIP a.asSlice = a.withoutZone := by
  cases a with
  | invalid => rfl
  | v4 ip => simp [asSlice, fromIP, withoutZone, uint_putUint_toNat 4 ip (by norm_num)]
  | v6 ip zone => simp [asSlice, fromIP, withoutZone, uint_putUint_toNat 16 ip (by norm_num)]

theorem withoutZone_fromIP (b : Bytes) : (fromIP b).withoutZone = fromIP b := by
  unfold fromIP
  split
  · rfl
  · split <;> rfl

end Addr

-- for the literals of type `Fin 33`, which are lengths of IPv4 prefixes
instance instNeZeroThirtyThree : NeZero 33 := ⟨by decide⟩

/-- `netip.Prefix`. The length never exceeds that of the family; host bits may
be set. -/
inductive Prefix where
  | invalid
  | v4 (ip : BitVec 32) (bits : Fin 33)
  | v6 (ip : BitVec 128) (bits : Fin 129)
  deriving DecidableEq, Repr

namespace Prefix

def isValid : Prefix → Bool
  | .invalid => false
  | _ => true

def addr : Prefix → Addr
  | .invalid => .invalid
  | .v4 ip _ => .v4 ip
  | .v6 ip _ => .v6 ip []

/-- `netip.PrefixFrom`, for a length that fits. -/
def ofAddr : Addr → Nat → Prefix
  | .v4 ip, bits => if h : bits < 33 then .v4 ip ⟨bits, h⟩ else .invalid
  | .v6 ip _, bits => if h : bits < 129 then .v6 ip ⟨bits, h⟩ else .invalid
  | .invalid, _ => .invalid

/-- `Prefix.Bits`: `-1` for the zero prefix. -/
def bits : Prefix → Int
  | .invalid => -1
  | .v4 _ bits => bits.val
  | .v6 _ bits => bits.val

/-- `Prefix.Contains`. Families do not mix, and an address with a zone is in no
prefix. -/
def contains : Prefix → Addr → Bool
  | .v4 ip bits, .v4 a => (ip ^^^ a) >>> (32 - bits.val) == 0#32
  | .v6 ip bits, .v6 a zone => zone == [] && (ip ^^^ a) >>> (128 - bits.val) == 0#128
  | _, _ => false

theorem contains_invalid (p : Prefix) : p.contains .invalid = false := by
  cases p <;> rfl

/-- `Prefix.Masked`: the same range with its host bits cleared. -/
def masked : Prefix → Prefix
  | .invalid => .invalid
  | .v4 ip bits => .v4 (ip >>> (32 - bits.val) <<< (32 - bits.val)) bits
  | .v6 ip bits => .v6 (ip >>> (128 - bits.val) <<< (128 - bits.val)) bits

end Prefix

/-- `M.Socksaddr` of the sing library: an address or a domain name, and a port. -/
structure Socksaddr where
  addr : Addr := .invalid
  fqdn : String := ""
  port : UInt16 := 0
  deriving DecidableEq, Repr

namespace Socksaddr

def isIP (a : Socksaddr) : Bool := a.addr.isValid

def isValid (a : Socksaddr) : Bool := a.addr.isValid || a.fqdn != ""

end Socksaddr

end SingBox
