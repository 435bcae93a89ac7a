import SingBox.Netip

/-!
# The metadata of a connection

`adapter.InboundContext`: what is known about a connection while it is being
routed, with the *rule cache* at the end of the record. The fields that no
modelled function reads or writes are left out.
-/

namespace SingBox

/-- A value of an HTTPS record that carries addresses, or any other one. -/
inductive SvcbValue where
  | ipv4Hint (hint : List Addr)
  | ipv6Hint (hint : List Addr)
  | other

/-- A resource record, as far as its addresses are concerned. -/
inductive DnsRecord where
  | a (addr : Addr)
  | aaaa (addr : Addr)
  | https (values : List SvcbValue)
  | other

structure DnsMsg where
  rcode : Nat
  answer : List DnsRecord

namespace DnsMsg

def rcodeSuccess : Nat := 0

/-- The valid addresses one record contributes. -/
def recordAddresses : DnsRecord → List Addr
  | .a addr => [addr].filter Addr.isValid
  | .aaaa addr => [addr].filter Addr.isValid
  | .https values => values.flatMap fun
      | .ipv4Hint hint => (hint.map Addr.unmap).filter Addr.isValid
      | .ipv6Hint hint => hint.filter Addr.isValid
      | .other => []
  | .other => []

/-- `DNSResponseAddresses`. -/
def addresses : Option DnsMsg → List Addr
  | none => []
  | some response =>
      if response.rcode != rcodeSuccess then []
      else response.answer.flatMap recordAddresses

end DnsMsg

/-- The error of one sniffer. `needMoreData` is `errors.Is(err, ErrNeedMoreData)`. -/
structure SnifferError where
  needMoreData : Bool
  text : String
  deriving DecidableEq, Repr

/-- The error of a round of sniffers: `E.Errors` of theirs. -/
abbrev SniffError := List SnifferError

/-- `errors.Is(err, sniff.ErrNeedMoreData)`: one of the joined errors is it. -/
def SniffError.isNeedMoreData (err : SniffError) : Bool := err.any (·.needMoreData)

/-- A CRYPTO fragment the QUIC sniffer keeps between packets (`qCryptoFragment`). -/
structure CryptoFragment where
  offset : UInt64
  length : UInt64
  payload : List UInt8
  deriving DecidableEq, Repr

inductive NetworkStrategy where
  | default
  | fallback
  | hybrid
  deriving DecidableEq, Repr

inductive InterfaceType where
  | wifi
  | cellular
  | ethernet
  | other
  deriving DecidableEq, Repr

/-- `adapter.InboundContext`. Durations are in nanoseconds. -/
structure InboundContext where
  inbound : String := ""
  inboundType : String := ""
  ipVersion : UInt8 := 0
  network : String := ""
  source : Socksaddr := {}
  destination : Socksaddr := {}
  user : String := ""
  protocol : String := ""
  domain : String := ""
  client : String := ""
  sniffDetector : String := ""
  sniffContext : Option (List CryptoFragment) := none
  snifferNames : List String := []
  sniffError : Option SniffError := none
  inboundDetour : String := ""
  lastInbound : String := ""
  originDestination : Socksaddr := {}
  routeOriginalDestination : Socksaddr := {}
  udpDisableDomainUnmapping : Bool := false
  udpConnect : Bool := false
  udpTimeout : Int := 0
  tlsFragment : Bool := false
  tlsFragmentFallbackDelay : Int := 0
  tlsRecordFragment : Bool := false
  tlsSpoof : String := ""
  tlsSpoofMethod : Int := 0
  networkStrategy : Option NetworkStrategy := none
  networkType : List InterfaceType := []
  fallbackNetworkType : List InterfaceType := []
  fallbackDelay : Int := 0
  destinationAddresses : List Addr := []
  dnsResponse : Option DnsMsg := none
  destinationAddressMatchFromResponse : Bool := false
  queryType : UInt16 := 0
  fakeIP : Bool := false
  preMatch : Bool := false
  -- rule cache
  ipcidrMatchSource : Bool := false
  ipcidrAcceptEmpty : Bool := false
  didMatch : Bool := false
  ignoreDestinationIPCIDRMatch : Bool := false

namespace InboundContext

variable (metadata : InboundContext)

def resetRuleMatchCache : InboundContext :=
  { metadata with didMatch := false }

def resetRuleCache : InboundContext :=
  { metadata with ipcidrMatchSource := false, ipcidrAcceptEmpty := false }.resetRuleMatchCache

end InboundContext

end SingBox
