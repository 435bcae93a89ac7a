import SingBox.Lib.Loop
import SingBox.Route.Rule
import SingBox.Sniff.Peek

/-!
# The router's rule loop

`route/route.go`: `matchRule`, `actionSniff`, `actionResolve` and
`routeConnection`. The connection being routed is part of the state: sniffing
takes reads away from it and collects what was read in `buffers` (streams) or
`packetBuffers` (packets), and `routeConnection` puts the buffers back in front
of the connection it hands over.

What the loop only consults (process search, the DNS client, the sniffers, the
outbound manager) are fields of `Router`. Time does not appear: the timeout of a
sniff action decides which reads come before the deadline, and the list of reads
already says so.
-/

namespace SingBox.Route

open Sniff Lib

/-! ## Actions -/

structure PacketBuffer where
  buffer : List UInt8
  destination : Socksaddr
  deriving DecidableEq, Repr

/-- What a packet connection delivers next: a packet, the read deadline, another
read error, or the context is done first. -/
inductive PacketEvent where
  | packet (packet : PacketBuffer)
  | timeout
  | error (err : String)
  | done (err : String)
  deriving DecidableEq, Repr

def PacketEvent.packets : List PacketEvent → List PacketBuffer
  | [] => []
  | .packet p :: rest => p :: packets rest
  | .timeout :: rest => packets rest
  | .error _ :: rest => packets rest
  | .done _ :: rest => packets rest

/-- The connection `matchRule` was given: `inputConn` or `inputPacketConn`. -/
inductive Input where
  | stream (conn : List ConnEvent)
  | packet (conn : List PacketEvent)

/-- `RuleActionRouteOptions`, less the tunnel destination, which is only displayed. -/
structure RuleActionRouteOptions where
  overrideAddress : Socksaddr := {}
  overridePort : UInt16 := 0
  networkStrategy : Option NetworkStrategy := none
  networkType : List InterfaceType := []
  fallbackNetworkType : List InterfaceType := []
  fallbackDelay : Int := 0
  udpDisableDomainUnmapping : Bool := false
  udpConnect : Bool := false
  udpTimeout : Int := 0
  tlsFragment : Bool := false
  tlsFragmentFallbackDelay : Int := 0
  tlsRecordFragment : Bool := false
  tlsSpoof : String := ""
  tlsSpoofMethod : Int := 0

/-- `RuleActionSniff`, built. -/
structure RuleActionSniff where
  snifferNames : List String := []
  streamSniffers : List StreamSniffer := []
  packetSniffers : List PacketSniffer := []
  overrideDestination : Bool := false

/-- `RuleActionResolve`; everything but the server is passed on to the DNS client. -/
structure RuleActionResolve where
  server : String := ""
  strategy : Nat := 0
  disableCache : Bool := false
  disableOptimisticCache : Bool := false
  rewriteTTL : Option UInt32 := none
  timeout : Int := 0
  clientSubnet : Prefix := .invalid

/-- `adapter.RuleAction`, the actions of route rules. -/
inductive RuleAction where
  | route (outbound : String) (options : RuleActionRouteOptions)
  | routeOptions (options : RuleActionRouteOptions)
  | bypass (outbound : String) (options : RuleActionRouteOptions)
  | direct
  | reject (method : String)
  | hijackDNS
  | sniff (action : RuleActionSniff)
  | resolve (action : RuleActionResolve)

structure Rule where
  Match : InboundContext → Bool
  action : RuleAction

/-- The outbound manager's answer. -/
structure Outbound where
  tag : String
  network : List String
  deriving DecidableEq, Repr

/-- `Router`, with its surroundings. -/
structure Router where
  rules : List Rule
  /-- `prepareMatchMetadata`: process, neighbor, FakeIP and reverse-mapping lookups. -/
  prepareMatchMetadata : InboundContext → Except String InboundContext
  /-- `dnsTransport.Transport(tag)` is loaded. -/
  dnsTransport : String → Bool
  /-- `dns.Lookup` of the destination's domain under the options of the action. -/
  lookup : InboundContext → RuleActionResolve → Except String (List Addr)
  isDomainName : String → Bool
  isDomain : Socksaddr → Bool
  /-- The sniffers of an action that names none. -/
  defaultStreamSniffers : List StreamSniffer
  defaultPacketSniffers : List PacketSniffer
  quicClientHello : PacketSniffer
  /-- The capacity of `buf.NewPacket()`. -/
  packetSize : Nat
  outbound : String → Option Outbound
  defaultOutbound : Outbound
  /-- `inbound.Get(tag)` of a detour: loaded, and whether it is TCP injectable. -/
  inbound : String → Option Bool
  muxDestination : String
  vmessMuxDestination : String
  uotMagicAddress : String
  uotLegacyMagicAddress : String

/-! ## Route options -/

def applyRouteOptionsOverride (metadata : InboundContext) (o : RuleActionRouteOptions) :
    InboundContext :=
  let metadata :=
    if o.overrideAddress.isValid then
      { metadata with destination :=
          ⟨o.overrideAddress.addr, o.overrideAddress.fqdn, metadata.destination.port⟩ }
    else metadata
  let metadata :=
    if o.overridePort > 0 then
      { metadata with destination :=
          ⟨metadata.destination.addr, metadata.destination.fqdn, o.overridePort⟩ }
    else metadata
  if o.udpTimeout > 0 then { metadata with udpTimeout := o.udpTimeout } else metadata

/-- What `matchRule` does with the options of a matching rule. -/
def applyRouteOptions (metadata : InboundContext) (o : RuleActionRouteOptions) : InboundContext :=
  let metadata :=
    if (o.overrideAddress.isValid || decide (o.overridePort > 0)) &&
        !metadata.routeOriginalDestination.isValid then
      { metadata with routeOriginalDestination := metadata.destination }
    else metadata
  let metadata :=
    if o.overrideAddress.isValid then { metadata with destinationAddresses := [] } else metadata
  let metadata := applyRouteOptionsOverride metadata o
  { metadata with
    networkStrategy :=
      if o.networkStrategy.isSome then o.networkStrategy else metadata.networkStrategy
    networkType := if o.networkType.length > 0 then o.networkType else metadata.networkType
    fallbackNetworkType :=
      if o.fallbackNetworkType.length > 0 then o.fallbackNetworkType
      else metadata.fallbackNetworkType
    fallbackDelay := if o.fallbackDelay ≠ 0 then o.fallbackDelay else metadata.fallbackDelay
    udpDisableDomainUnmapping := o.udpDisableDomainUnmapping || metadata.udpDisableDomainUnmapping
    udpConnect := o.udpConnect || metadata.udpConnect
    udpTimeout := if o.udpTimeout > 0 then o.udpTimeout else metadata.udpTimeout
    tlsFragment := o.tlsFragment || metadata.tlsFragment
    tlsFragmentFallbackDelay :=
      if o.tlsFragment then o.tlsFragmentFallbackDelay else metadata.tlsFragmentFallbackDelay
    tlsRecordFragment := o.tlsRecordFragment || metadata.tlsRecordFragment
    tlsSpoof := if o.tlsSpoof ≠ "" then o.tlsSpoof else metadata.tlsSpoof
    tlsSpoofMethod := if o.tlsSpoof ≠ "" then o.tlsSpoofMethod else metadata.tlsSpoofMethod }

/-- The options an action carries into the metadata. -/
def RuleAction.appliedOptions : RuleAction → Option RuleActionRouteOptions
  | .route _ options => some options
  | .routeOptions options => some options
  | .bypass outbound options => if outbound ≠ "" then some options else none
  | _ => none

/-! ## Sniffing -/

/-- `actionSniff`'s results, with the metadata and the connection it leaves. -/
structure SniffOutcome where
  metadata : InboundContext
  input : Input
  buffer : Option (List UInt8) := none
  packetBuffers : List PacketBuffer := []
  fatalErr : Option String := none

variable (action : RuleActionSniff)

/-- A former round with the same sniffers already failed for good. -/
def RuleActionSniff.failedBefore (metadata : InboundContext) : Bool :=
  metadata.snifferNames == action.snifferNames &&
    match metadata.sniffError with
    | some err => !err.isNeedMoreData
    | none => false

def RuleActionSniff.quicMoreData (metadata : InboundContext) : Bool :=
  metadata.snifferNames == action.snifferNames &&
    match metadata.sniffError with
    | some err => err.isNeedMoreData
    | none => false

/-- The metadata after a round of sniffers. -/
def RuleActionSniff.record (metadata : InboundContext) (err : Option SniffError) : InboundContext :=
  { metadata with snifferNames := action.snifferNames, sniffError := err }

namespace Router

variable (r : Router) (action : RuleActionSniff) (metadata : InboundContext)

/-- `override_destination` of a successful sniff. -/
def overrideSniffed : InboundContext :=
  if action.overrideDestination && r.isDomainName metadata.domain then
    { metadata with destination := { fqdn := metadata.domain, port := metadata.destination.port } }
  else metadata

/-- The stream branch of `actionSniff`, once it gets to peek. -/
def actionSniffStream (conn : List ConnEvent) (inputBuffers : List (List UInt8)) : SniffOutcome :=
  let streamSniffers :=
    if action.streamSniffers.length > 0 then action.streamSniffers else r.defaultStreamSniffers
  let peek := peekStream r.packetSize streamSniffers inputBuffers conn metadata
  let metadata := action.record peek.metadata peek.err
  let metadata := if peek.err.isNone then r.overrideSniffed action metadata else metadata
  { metadata, input := .stream peek.conn
    buffer := if peek.buffer.isEmpty then none else some peek.buffer }

/-- One packet under the sniffers of the action, or under the QUIC sniffer while
a fragmented client hello is being collected. -/
def sniffPacket (packet : PacketBuffer) : InboundContext × Option SniffError :=
  let packetSniffers :=
    if action.packetSniffers.length > 0 then action.packetSniffers else r.defaultPacketSniffers
  let (metadata', err) :=
    if action.quicMoreData metadata then peekPacket [r.quicClientHello] metadata packet.buffer
    else peekPacket packetSniffers metadata packet.buffer
  (action.record metadata' err, err)

/-- The first loop: packets buffered by earlier actions are examined until one of
them gives an answer other than need-more-data. -/
def sniffBuffered (action : RuleActionSniff) :
    List PacketBuffer → InboundContext → InboundContext × Option (Option SniffError)
  | [], metadata => (metadata, none)
  | packet :: rest, metadata =>
      match r.sniffPacket action metadata packet with
      | (metadata, none) => (metadata, some none)
      | (metadata, some err) =>
          if err.isNeedMoreData then sniffBuffered action rest metadata
          else (metadata, some (some err))

/-- The second loop: packets are read until one of them gives such an answer. -/
def sniffRead (action : RuleActionSniff) :
    List PacketEvent → InboundContext → List PacketBuffer → SniffOutcome
  -- no packet comes before the deadline
  | [], metadata, packetBuffers => { metadata, input := .packet [], packetBuffers }
  | .timeout :: rest, metadata, packetBuffers => { metadata, input := .packet rest, packetBuffers }
  | .error err :: rest, metadata, packetBuffers =>
      { metadata, input := .packet rest, packetBuffers, fatalErr := some err }
  | .done err :: rest, metadata, packetBuffers =>
      { metadata, input := .packet rest, packetBuffers, fatalErr := some err }
  | .packet packet :: rest, metadata, packetBuffers =>
      let packetBuffers := packetBuffers ++ [packet]
      match r.sniffPacket action metadata packet with
      | (metadata, none) =>
          { metadata := r.overrideSniffed action metadata, input := .packet rest, packetBuffers }
      | (metadata, some err) =>
          if err.isNeedMoreData then sniffRead action rest metadata packetBuffers
          else { metadata, input := .packet rest, packetBuffers }

/-- The packet branch of `actionSniff`, once it gets to peek. -/
def actionSniffPacket (conn : List PacketEvent) (inputPacketBuffers : List PacketBuffer) :
    SniffOutcome :=
  match r.sniffBuffered action inputPacketBuffers metadata with
  | (metadata, some none) =>
      { metadata := r.overrideSniffed action metadata, input := .packet conn }
  | (metadata, some (some _)) => { metadata, input := .packet conn }
  -- `packetBuffers = inputPacketBuffers`: what is read is appended to what was buffered
  | (metadata, none) => r.sniffRead action conn metadata inputPacketBuffers

/-- The action does not look at the connection at all. -/
def sniffSkipped (input : Input) : Bool :=
  skip metadata || metadata.protocol != "" ||
    (match input with
      | .stream _ => decide (action.streamSniffers.length = 0) &&
          decide (action.packetSniffers.length > 0)
      | .packet _ => decide (action.packetSniffers.length = 0) &&
          decide (action.streamSniffers.length > 0)) ||
    action.failedBefore metadata

def actionSniff (input : Input) (inputBuffers : List (List UInt8))
    (inputPacketBuffers : List PacketBuffer) : SniffOutcome :=
  if sniffSkipped action metadata input then { metadata, input }
  else
    match input with
    | .stream conn => r.actionSniffStream action metadata conn inputBuffers
    | .packet conn => r.actionSniffPacket action metadata conn inputPacketBuffers

def actionResolve (action : RuleActionResolve) (metadata : InboundContext) :
    Except String InboundContext :=
  if r.isDomain metadata.destination then
    if action.server != "" && !r.dnsTransport action.server then
      .error ("DNS server not found: " ++ action.server)
    else
      match r.lookup metadata action with
      | .error err => .error err
      | .ok addresses => .ok { metadata with destinationAddresses := addresses }
  else .ok metadata

/-! ## The rule loop -/

end Router

/-- What the loop of `matchRule` carries from rule to rule. -/
structure MatchState where
  metadata : InboundContext
  input : Input
  buffers : List (List UInt8) := []
  packetBuffers : List PacketBuffer := []

/-- Why the loop of `matchRule` stops before the last rule. -/
inductive MatchEnd where
  | selected (rule : Rule) (index : Nat)
  | fatal (err : String)

/-- How a turn of the loop ends. -/
abbrev MatchStep := Turn MatchState MatchEnd

/-- What `matchRule` returns: the selected rule and its index, no rule, or an error. -/
structure MatchResult where
  state : MatchState
  selected : Option (Rule × Nat) := none
  fatalErr : Option String := none

/-- What the loop's end means to the caller. -/
def MatchResult.ofLoop : MatchState × Option MatchEnd → MatchResult
  | (state, none) => { state }
  | (state, some (.selected rule index)) => { state, selected := some (rule, index) }
  | (state, some (.fatal err)) => { state, fatalErr := some err }

@[simp] theorem MatchResult.state_ofLoop (last : MatchState × Option MatchEnd) :
    (MatchResult.ofLoop last).state = last.1 := by
  obtain ⟨state, none | ⟨rule, index⟩ | err⟩ := last <;> rfl

namespace Router

variable (r : Router)

/-- The metadata a matching rule's action starts from. -/
def enterRule (rule : Rule) (metadata : InboundContext) : InboundContext :=
  match rule.action.appliedOptions with
  | some options => applyRouteOptions metadata options
  | none => metadata

/-- The sniff action of `matchRule`, with the accumulation of its buffers. -/
def sniffStep (action : RuleActionSniff) (state : MatchState) : MatchStep :=
  let out := r.actionSniff action state.metadata state.input state.buffers state.packetBuffers
  let state :=
    match out.buffer with
    | some buffer => { state with buffers := state.buffers ++ [buffer] }
    | none => { state with packetBuffers := state.packetBuffers ++ out.packetBuffers }
  let state := { state with metadata := out.metadata, input := out.input }
  match out.fatalErr with
  | some err => .stop state (.fatal err)
  | none => .next state

/-- One turn of the loop of `matchRule`. `Match` leaves `DidMatch` behind, which
the next turn resets before anything reads it. -/
def matchStep (state : MatchState) (item : Rule × Nat) : MatchStep :=
  let (rule, index) := item
  let state := { state with metadata := state.metadata.resetRuleCache }
  if !rule.Match state.metadata then .next state
  else
    let state := { state with metadata := enterRule rule state.metadata }
    match rule.action with
    | .sniff action => r.sniffStep action state
    | .resolve action =>
        match r.actionResolve action state.metadata with
        | .error err => .stop state (.fatal err)
        | .ok metadata => .next { state with metadata }
    | .route .. => .stop state (.selected rule index)
    | .reject _ => .stop state (.selected rule index)
    | .hijackDNS => .stop state (.selected rule index)
    | .bypass outbound _ =>
        if outbound = "" then .next state else .stop state (.selected rule index)
    | .routeOptions _ => .next state
    | .direct => .next state

def matchRule (metadata : InboundContext) (input : Input) : MatchResult :=
  match r.prepareMatchMetadata metadata with
  | .error err => { state := { metadata, input }, fatalErr := some err }
  | .ok metadata => MatchResult.ofLoop (loop r.matchStep { metadata, input } r.rules.zipIdx)

end Router

/-! ## Handing the connection over -/

/-- The connection `routeConnection` hands over: the client's, under the buffers
`bufio.NewCachedConn` was called with. -/
inductive CachedConn where
  | conn (events : List ConnEvent)
  | cached (inner : CachedConn) (buffer : List UInt8)

/-- What is read from a connection: the cached bytes first, then those below. -/
def CachedConn.bytes : CachedConn → List UInt8
  | .conn events => ConnEvent.bytes events
  | .cached inner buffer => buffer ++ inner.bytes

/-- `for _, buffer := range buffers { conn = bufio.NewCachedConn(conn, buffer) }`. -/
def cacheBuffers (conn : CachedConn) (buffers : List (List UInt8)) : CachedConn :=
  buffers.foldl .cached conn

/-- Where `routeConnection` leaves the connection, and the metadata it passes on. -/
inductive RouteOutcome where
  | error (text : String)
  | injected (inbound : String) (conn : CachedConn) (metadata : InboundContext)
  /-- `RuleActionReject.Error`, which also counts recent rejections. -/
  | rejected (method : String)
  | hijackedDNS (conn : CachedConn) (metadata : InboundContext)
  | outbound (outbound : Outbound) (conn : CachedConn) (metadata : InboundContext)

namespace Router

variable (r : Router)

/-- The destinations of what version 1.7.0 removed. -/
def removedDestination (fqdn : String) : Option String :=
  if fqdn = r.muxDestination then
    some "global multiplex is deprecated since sing-box v1.7.0, enable multiplex in Inbound fields instead."
  else if fqdn = r.vmessMuxDestination then
    some "global multiplex (v2ray legacy) not supported since sing-box v1.7.0."
  else if fqdn = r.uotMagicAddress then
    some "global UoT not supported since sing-box v1.7.0."
  else if fqdn = r.uotLegacyMagicAddress then
    some "global UoT (legacy) not supported since sing-box v1.7.0."
  else none

/-- The outbound a route or bypass action names. -/
def selectOutbound (tag : String) : Except String Outbound :=
  match r.outbound tag with
  | none => .error ("outbound not found: " ++ tag)
  | some outbound =>
      if outbound.network.contains "tcp" then .ok outbound
      else .error ("TCP is not supported by outbound: " ++ outbound.tag)

/-- The connection goes to the outbound with the buffers in front of it. -/
def handOver (result : MatchResult) (conn : List ConnEvent) :
    Except String Outbound → RouteOutcome
  | .error text => .error text
  | .ok outbound =>
      .outbound outbound (cacheBuffers (.conn conn) result.state.buffers) result.state.metadata

/-- What becomes of the connection after `matchRule`. -/
def dispatch (result : MatchResult) (conn : List ConnEvent) : RouteOutcome :=
  match result.selected with
  | none =>
      handOver result conn
        (if r.defaultOutbound.network.contains "tcp" then .ok r.defaultOutbound
        else .error ("TCP is not supported by default outbound: " ++ r.defaultOutbound.tag))
  | some (rule, _) =>
      match rule.action with
      | .route tag _ => handOver result conn (r.selectOutbound tag)
      -- a bypass action without outbound is never selected
      | .bypass tag _ => handOver result conn (r.selectOutbound tag)
      | .reject method =>
          if method = "reply" then
            .error "reject method `reply` is not supported for TCP connections"
          else .rejected method
      | .hijackDNS =>
          .hijackedDNS (cacheBuffers (.conn conn) result.state.buffers) result.state.metadata
      -- nor is a rule with one of the other actions
      | _ => .error ""

/-- `routeConnection`. The deadline wrapper around the connection does not change
what is read from it. -/
def routeConnection (metadata : InboundContext) (conn : List ConnEvent) : RouteOutcome :=
  if metadata.inboundDetour != "" then
    if metadata.lastInbound = metadata.inboundDetour then
      .error ("routing loop on detour: " ++ metadata.inboundDetour)
    else
      match r.inbound metadata.inboundDetour with
      | none => .error ("inbound detour not found: " ++ metadata.inboundDetour)
      | some false =>
          .error ("inbound detour is not TCP injectable: " ++ metadata.inboundDetour)
      | some true =>
          .injected metadata.inboundDetour (.conn conn)
            { metadata with
              lastInbound := metadata.inbound
              inbound := metadata.inboundDetour
              inboundDetour := "" }
  else
    let metadata := { metadata with network := "tcp" }
    match r.removedDestination metadata.destination.fqdn with
    | some text => .error text
    | none =>
        if metadata.inboundType = "tun" ∧ metadata.protocol = "dns" then
          .hijackedDNS (.conn conn) metadata
        else
          let result := r.matchRule metadata (.stream conn)
          match result.fatalErr, result.state.input with
          | some err, _ => .error err
          | none, .stream conn => r.dispatch result conn
          -- `matchRule` keeps the kind of its connection
          | none, .packet _ => .error ""

end Router

end SingBox.Route
