import SingBox.Lib.Except
import SingBox.Lib.Lockstep
import SingBox.Route.Router

/-!
# The flow fast path

`route/route.go`: `PreMatch` walks over the rules for a flow that has not become a connection yet
and, if it comes to an outbound that takes flows, hands the flow to it. The same flow as a
connection goes through `matchRule`. Both loops write the metadata that later rules look at, but
not in the same way: `matchRule` drops the destination addresses when a rule overrides the
destination, `PreMatch` keeps them; and `PreMatch` sets a flag that a rule with `preferred_by`
sees.

* `preMatch_agrees_iff` — the two loops go in lockstep exactly as long as no rule answers
  otherwise because of the flag and no address override meets resolved addresses; and then a flow
  that is settled on a rule and an outbound is what `matchRule` selects.
-/

namespace SingBox.Route.Flow

open Sniff Lib List

/-! ## Results -/

inductive PreMatchAction where
  | continue
  | flow
  | reject
  | drop
  | bypass
  deriving DecidableEq

/-- `PreMatchResult`. Of the function that makes a tracker it has the metadata and the rule, with
its index, that the function is about. -/
structure PreMatchResult where
  action : PreMatchAction
  outbound : Option Outbound := none
  destination : Option (Addr × UInt16) := none
  udpTimeout : Int := 0
  tracked : Option (InboundContext × Option (Rule × Nat)) := none

def continueResult : PreMatchResult := { action := .continue }

def portProtocols (port : UInt16) : String :=
  if port = 53 then "dns"
  else if port = 123 then "ntp"
  else if port = 3478 then "stun"
  else if port = 443 then "quic"
  else ""

def second : Int := 1000000000

def protocolTimeouts (protocol : String) : Int :=
  if protocol = "dns" ∨ protocol = "ntp" ∨ protocol = "stun" then 10 * second
  else if protocol = "quic" ∨ protocol = "dtls" then 30 * second
  else 0

/-- How the loop of `PreMatch` stops before the last rule. -/
inductive PreMatchEnd where
  /-- With a call of `preMatchFlow`. -/
  | flow (rule : Rule) (index : Nat) (outbound : String)
  | done (result : PreMatchResult)

/-- The router with what only flows ask of it. -/
structure Net extends Router where
  isIPv4 : Socksaddr → Bool
  /-- `Now` of an outbound group. -/
  now : Outbound → Option String
  /-- `PreMatchFlow` of an outbound that takes flows. -/
  preMatchOutbound : Outbound → Option (String → Addr → PreMatchAction)
  /-- `RuleActionReject.Error` is `ErrDrop`; it also counts recent rejections. -/
  rejectDrops : String → Bool

namespace Net

variable (r : Net)

/-! ## The outbound -/

/-- `for range 8`: the member that a group has selected, through groups of groups. -/
def selectMember : Nat → Outbound → Option Outbound
  | 0, outbound => some outbound
  | n + 1, outbound =>
      match r.now outbound with
      | none => some outbound
      | some tag =>
          match r.outbound tag with
          | none => none
          | some selected => selectMember n selected

/-- The outbound with some tag, the default one if there is no tag. -/
def outboundOf (tag : String) : Option Outbound :=
  if tag = "" then some r.defaultOutbound else r.outbound tag

variable (metadata : InboundContext)

def flowTimeout : Int :=
  if metadata.network = "udp" then
    if metadata.udpTimeout > 0 then metadata.udpTimeout
    else
      let protocol :=
        if metadata.protocol = "" then portProtocols metadata.destination.port
        else metadata.protocol
      if protocol ≠ "" then protocolTimeouts protocol else 0
  else 0

/-- The rest of `preMatchFlow`, for an outbound that takes flows. -/
def forwardFlow (packetDestination : Socksaddr) (matchedRule : Option (Rule × Nat))
    (outbound : Outbound) (preMatchFlow : String → Addr → PreMatchAction) : PreMatchResult :=
  let flowAction := preMatchFlow metadata.network metadata.destination.addr
  if flowAction ≠ .flow then { action := flowAction, outbound := some outbound }
  else
    let result : PreMatchResult :=
      { action := .flow, outbound := some outbound, udpTimeout := flowTimeout metadata
        tracked := some (metadata, matchedRule) }
    if r.isDomain metadata.destination then
      if !metadata.fakeIP then continueResult
      else
        -- the client has sent packets to a FakeIP address: they go to one of the same family
        match metadata.destinationAddresses.find? fun address =>
            address.is4 == r.isIPv4 packetDestination with
        | none => { action := .reject }
        | some newDestination =>
            if !newDestination.isValid then { action := .reject }
            else
              let flowAction := preMatchFlow metadata.network newDestination
              if flowAction ≠ .flow then { action := flowAction, outbound := some outbound }
              else
                { result with destination := some (newDestination, metadata.destination.port) }
    else if metadata.destination ≠ packetDestination then
      { result with destination := some (metadata.destination.addr, metadata.destination.port) }
    else result

def preMatchFlow (metadata : InboundContext) (packetDestination : Socksaddr)
    (matchedRule : Option (Rule × Nat)) (outboundTag : String) : PreMatchResult :=
  match (r.outboundOf outboundTag).bind (r.selectMember 8) with
  | none => continueResult
  | some outbound =>
      if !outbound.network.contains metadata.network then continueResult
      else
        match r.preMatchOutbound outbound with
        | none => continueResult
        | some preMatchFlow =>
            r.forwardFlow metadata packetDestination matchedRule outbound preMatchFlow

/-! ## The loop -/

/-- A sniff action of `PreMatch`. -/
def preMatchSniff (action : RuleActionSniff) (firstPacket : List UInt8)
    (metadata : InboundContext) : Turn InboundContext PreMatchEnd :=
  if metadata.network = "icmp" then .next metadata
  else if metadata.network ≠ "udp" ∨ firstPacket.length = 0 then
    .stop metadata (.done continueResult)
  else if skip metadata ∨ metadata.protocol ≠ "" then .next metadata
  else if action.packetSniffers.length = 0 ∧ action.streamSniffers.length > 0 then .next metadata
  else if metadata.snifferNames = action.snifferNames ∧ metadata.sniffError.isSome then
    .next metadata
  else
    let packetSniffers :=
      if action.packetSniffers.length = 0 then r.defaultPacketSniffers else action.packetSniffers
    let (metadata, sniffErr) := peekPacket packetSniffers metadata firstPacket
    let metadata := action.record metadata sniffErr
    match sniffErr with
    | some err =>
        if err.isNeedMoreData then .stop metadata (.done continueResult) else .next metadata
    | none => .next (r.overrideSniffed action metadata)

/-- One turn of the loop of `PreMatch`. -/
def preMatchStep (packetDestination : Socksaddr) (firstPacket : List UInt8)
    (metadata : InboundContext) (item : Rule × Nat) : Turn InboundContext PreMatchEnd :=
  let (rule, index) := item
  let metadata := metadata.resetRuleCache
  if !rule.Match metadata then .next metadata
  else
    match rule.action with
    | .sniff action => r.preMatchSniff action firstPacket metadata
    | .routeOptions options => .next (applyRouteOptionsOverride metadata options)
    | .route outbound options =>
        .stop (applyRouteOptionsOverride metadata options) (.flow rule index outbound)
    | .bypass outbound options =>
        let metadata := applyRouteOptionsOverride metadata options
        if outbound = "" then
          -- the kernel bypasses the proxy only for packets that keep their destination
          if r.isDomain metadata.destination ∨ metadata.destination ≠ packetDestination then
            .stop metadata (.done continueResult)
          else .stop metadata (.done { action := .bypass })
        else .stop metadata (.flow rule index outbound)
    | .reject method =>
        .stop metadata (.done { action := if r.rejectDrops method then .drop else .reject })
    | .resolve action =>
        match r.actionResolve action metadata with
        | .error _ => .stop metadata (.done { action := .reject })
        | .ok metadata => .next metadata
    | .direct => .stop metadata (.done continueResult)
    | .hijackDNS => .stop metadata (.done continueResult)

/-- The loop, from the prepared metadata. -/
def preMatchScan (firstPacket : List UInt8) :
    Except String (InboundContext × Option PreMatchEnd) := do
  let prepared ← r.prepareMatchMetadata { metadata with preMatch := true }
  return loop (r.preMatchStep metadata.destination firstPacket) prepared r.rules.zipIdx

def preMatch (firstPacket : List UInt8) : PreMatchResult :=
  match r.preMatchScan metadata firstPacket with
  | .error _ => continueResult
  | .ok (last, none) => r.preMatchFlow last metadata.destination none ""
  | .ok (last, some (.flow rule index outbound)) =>
      r.preMatchFlow last metadata.destination (some (rule, index)) outbound
  | .ok (_, some (.done result)) => result

/-- The flow is settled on a rule and an outbound, with some metadata. -/
structure Settles (metadata : InboundContext) (firstPacket : List UInt8) (rule : Rule)
    (index : Nat) (last : InboundContext) (outbound : Outbound) : Prop where
  rule : ∃ tag, r.preMatchScan metadata firstPacket = .ok (last, some (.flow rule index tag))
  outbound : (r.preMatch metadata firstPacket).outbound = some outbound

end Net

/-! ## Preparation -/

/-- What `prepareMatchMetadata` asks. The process and the neighbor that it also looks up are not
in the metadata of the model. -/
structure Lookups where
  /-- An address of the FakeIP store, with the domain that is stored for it. -/
  fakeIP : Addr → Option (Option String)
  reverseMapping : Addr → Option String
  isIPv4 : Socksaddr → Bool
  isIPv6 : Socksaddr → Bool

namespace Lookups

variable (l : Lookups)

/-- The destination of a FakeIP address is its domain. -/
def fakeDestination (domain : String) (metadata : InboundContext) : InboundContext :=
  if domain ≠ "" then
    { metadata with
      originDestination := metadata.destination
      destination := { fqdn := domain, port := metadata.destination.port }
      fakeIP := true }
  else metadata

variable (metadata : InboundContext)

def mapReverse : InboundContext :=
  if metadata.domain = "" then
    match l.reverseMapping metadata.destination.addr with
    | some domain => { metadata with domain := domain }
    | none => metadata
  else metadata

def setIPVersion : InboundContext :=
  if l.isIPv4 metadata.destination then { metadata with ipVersion := 4 }
  else if l.isIPv6 metadata.destination then { metadata with ipVersion := 6 }
  else metadata

def prepareMatchMetadata : Except String InboundContext :=
  match if metadata.destination.addr.isValid then l.fakeIP metadata.destination.addr else none with
  | some none => .error "missing fakeip record, try enable `experimental.cache_file`"
  | some (some domain) => .ok (l.setIPVersion (fakeDestination domain metadata))
  | none => .ok (l.setIPVersion (l.mapReverse metadata))

end Lookups

/-! ## `preferred_by` -/

structure PreferredRoutes where
  preferredDomain : InboundContext → String → Bool
  preferredAddress : InboundContext → Addr → Bool

def preferredByMatch (outbounds : List PreferredRoutes) (metadata : InboundContext) : Bool :=
  let domainHost := if metadata.domain ≠ "" then metadata.domain else metadata.destination.fqdn
  if domainHost ≠ "" ∧ outbounds.any (·.preferredDomain metadata domainHost) then true
  else if metadata.destination.isIP ∧
      outbounds.any (·.preferredAddress metadata metadata.destination.addr) then true
  else metadata.destinationAddresses.any fun address =>
    outbounds.any (·.preferredAddress metadata address)

variable (isLocalDestination : Addr → Bool)

/-- The bridge outbound's routes: it only takes flows, so it prefers nothing else. -/
def bridge : PreferredRoutes where
  preferredDomain _ _ := false
  preferredAddress metadata address := metadata.preMatch && !isLocalDestination address

/-- `PreMatchFlow` of the bridge outbound. -/
def bridgeFlow (_network : String) (destination : Addr) : PreMatchAction :=
  if isLocalDestination destination then .reject else .flow

def bridgeItem : RuleItem where
  Match := preferredByMatch [bridge isLocalDestination]
  ignoresDidMatch _ _ := rfl

/-! ## What the paths have in common -/

/-- The fields that only the dialing of a connection looks at. -/
structure Dial where
  routeOriginalDestination : Socksaddr
  udpDisableDomainUnmapping : Bool
  udpConnect : Bool
  tlsFragment : Bool
  tlsFragmentFallbackDelay : Int
  tlsRecordFragment : Bool
  tlsSpoof : String
  tlsSpoofMethod : Int
  networkStrategy : Option NetworkStrategy
  networkType : List InterfaceType
  fallbackNetworkType : List InterfaceType
  fallbackDelay : Int

def Dial.of (metadata : InboundContext) : Dial :=
  ⟨metadata.routeOriginalDestination, metadata.udpDisableDomainUnmapping, metadata.udpConnect,
    metadata.tlsFragment, metadata.tlsFragmentFallbackDelay, metadata.tlsRecordFragment,
    metadata.tlsSpoof, metadata.tlsSpoofMethod, metadata.networkStrategy, metadata.networkType,
    metadata.fallbackNetworkType, metadata.fallbackDelay⟩

def withDial (dial : Dial) (metadata : InboundContext) : InboundContext :=
  { metadata with
    routeOriginalDestination := dial.routeOriginalDestination
    udpDisableDomainUnmapping := dial.udpDisableDomainUnmapping
    udpConnect := dial.udpConnect
    tlsFragment := dial.tlsFragment
    tlsFragmentFallbackDelay := dial.tlsFragmentFallbackDelay
    tlsRecordFragment := dial.tlsRecordFragment
    tlsSpoof := dial.tlsSpoof
    tlsSpoofMethod := dial.tlsSpoofMethod
    networkStrategy := dial.networkStrategy
    networkType := dial.networkType
    fallbackNetworkType := dial.fallbackNetworkType
    fallbackDelay := dial.fallbackDelay }

def withPreMatch (preMatch : Bool) (metadata : InboundContext) : InboundContext :=
  { metadata with preMatch := preMatch }

theorem withPreMatch_self {preMatch : Bool} {metadata : InboundContext}
    (h : metadata.preMatch = preMatch) : withPreMatch preMatch metadata = metadata := by
  subst h
  rfl

/-- Actions that are decided on both paths. -/
def decides : RuleAction → Bool
  | .route .. => true
  | .routeOptions _ => true
  | .resolve _ => true
  | .reject _ => true
  | _ => false

/-- A router whose rules have such actions. Rules do not look at how a connection is dialed, the
preparation does not look at the flag, and the DNS gives the same answers on both paths. -/
structure FlowRouter extends Net where
  decided : ∀ rule ∈ rules, decides rule.action = true
  ignoresDial : ∀ rule ∈ rules, ∀ dial metadata,
    rule.Match (withDial dial metadata) = rule.Match metadata
  prepare : ∀ preMatch metadata,
    prepareMatchMetadata (withPreMatch preMatch metadata) =
      (prepareMatchMetadata metadata).map (withPreMatch preMatch)
  answers : ∀ dial preMatch metadata action,
    lookup (withDial dial (withPreMatch preMatch metadata)) action = lookup metadata action

/-- The metadata of the fast path and that of the slow path, which has its own flag. -/
def Path (flag : Bool) (fast slow : InboundContext) : Prop :=
  slow.preMatch = flag ∧ ∃ dial, fast = withDial dial (withPreMatch true slow)

/-- How the loops end together. -/
def Ends (flag : Bool) : InboundContext × PreMatchEnd → MatchState × MatchEnd → Prop
  | (fast, .flow rule index _), (slow, .selected rule' index') =>
      rule' = rule ∧ index' = index ∧ Path flag fast slow.metadata
  | (_, .done result), (_, .selected rule _) =>
      (∃ method, rule.action = .reject method) ∧
        (result.action = .reject ∨ result.action = .drop)
  | (_, .done result), (_, .fatal _) => result.action = .reject
  | (_, .flow ..), (_, .fatal _) => False

/-- What a turn of the fast path may not miss: the rule answers as it would without the flag of
`PreMatch`, and there are no destination addresses that an overridden address would leave behind. -/
structure Faithful (flag : Bool) (fast : InboundContext) (item : Rule × Nat) : Prop where
  answer : item.1.Match (withPreMatch flag fast.resetRuleCache) =
    item.1.Match fast.resetRuleCache
  addresses : item.1.Match fast.resetRuleCache = true → ∀ options,
    item.1.action.appliedOptions = some options → options.overrideAddress.isValid = true →
      fast.destinationAddresses = []

/-! ## Route options on both paths -/

/-- The overrides neither read nor write a dial field, the flag or the addresses. -/
theorem applyRouteOptionsOverride_frame (metadata : InboundContext)
    (options : RuleActionRouteOptions) :
    (applyRouteOptionsOverride metadata options).preMatch = metadata.preMatch ∧
      (applyRouteOptionsOverride metadata options).destinationAddresses =
        metadata.destinationAddresses ∧
      ∀ dial flag, applyRouteOptionsOverride (withDial dial (withPreMatch flag metadata)) options =
        withDial dial (withPreMatch flag (applyRouteOptionsOverride metadata options)) := by
  unfold applyRouteOptionsOverride
  split <;> split <;> split <;> exact ⟨rfl, rfl, fun _ _ => rfl⟩

/-- `metadata.DestinationAddresses = nil` where the address is overridden. -/
def dropAddresses (options : RuleActionRouteOptions) (metadata : InboundContext) :
    InboundContext :=
  if options.overrideAddress.isValid then { metadata with destinationAddresses := [] }
  else metadata

/-- But for the dial fields, `matchRule` only drops the addresses before it overrides. -/
theorem applyRouteOptions_eq (metadata : InboundContext) (options : RuleActionRouteOptions) :
    applyRouteOptions metadata options =
      withDial (Dial.of (applyRouteOptions metadata options))
        (applyRouteOptionsOverride (dropAddresses options metadata) options) := by
  unfold applyRouteOptions applyRouteOptionsOverride dropAddresses
  split <;> split <;> split <;> split <;> rfl

/-- The options of a rule keep the paths together unless they leave addresses behind. -/
theorem path_options {flag : Bool} {fast slow : InboundContext} (h : Path flag fast slow)
    (options : RuleActionRouteOptions) :
    Path flag (applyRouteOptionsOverride fast options) (applyRouteOptions slow options) ↔
      (options.overrideAddress.isValid = true → fast.destinationAddresses = []) := by
  obtain ⟨same, dial, rfl⟩ := h
  obtain ⟨keepsFlag, keeps, commutes⟩ := applyRouteOptionsOverride_frame slow options
  rw [applyRouteOptions_eq, commutes]
  constructor
  · rintro ⟨-, dial', eq⟩ valid
    have addresses := congrArg InboundContext.destinationAddresses eq
    dsimp only [withDial, withPreMatch] at addresses
    rw [keeps, (applyRouteOptionsOverride_frame _ options).2.1, dropAddresses, if_pos valid]
      at addresses
    exact addresses
  · intro none
    have dropped : dropAddresses options slow = slow := by
      unfold dropAddresses
      split
      · next valid =>
        have empty : slow.destinationAddresses = [] := none valid
        rw [← empty]
      · rfl
    rw [dropped]
    exact ⟨keepsFlag.trans same, dial, rfl⟩

theorem Path.reset {flag : Bool} {fast slow : InboundContext} (h : Path flag fast slow) :
    Path flag fast.resetRuleCache slow.resetRuleCache := by
  obtain ⟨same, dial, rfl⟩ := h
  exact ⟨same, dial, rfl⟩

namespace FlowRouter

variable (r : FlowRouter)

/-- The resolve action, which asks the DNS, is the same on both paths. -/
theorem actionResolve_withDial (action : RuleActionResolve) (dial : Dial) (flag : Bool)
    (metadata : InboundContext) :
    r.actionResolve action (withDial dial (withPreMatch flag metadata)) =
      (r.actionResolve action metadata).map fun m => withDial dial (withPreMatch flag m) := by
  unfold Router.actionResolve
  rw [r.answers]
  show (if r.isDomain metadata.destination = true then _ else _) = _
  split
  · split
    · rfl
    · cases r.lookup metadata action with
      | error err | ok addresses => rfl
  · rfl

theorem actionResolve_preMatch (r : Router) {action : RuleActionResolve}
    {metadata resolved : InboundContext} (h : r.actionResolve action metadata = .ok resolved) :
    resolved.preMatch = metadata.preMatch := by
  unfold Router.actionResolve at h
  split at h
  · split at h
    · cases h
    split at h <;> cases h
    rfl
  · cases h
    rfl

/-! ## One turn -/

/-- The rule answers alike on both paths. -/
def Met (fast : InboundContext) (slow : MatchState) (item : Rule × Nat) : Prop :=
  item.1.Match fast.resetRuleCache = item.1.Match slow.metadata.resetRuleCache

/-- The turns of both loops go together. -/
def TurnsAlike (packetDestination : Socksaddr) (firstPacket : List UInt8) (flag : Bool)
    (fast : InboundContext) (slow : MatchState) (item : Rule × Nat) : Prop :=
  Turn.Alike (fun fast slow => Path flag fast slow.metadata) (Ends flag)
    (r.preMatchStep packetDestination firstPacket fast item) (r.matchStep slow item)

variable {packetDestination : Socksaddr} {firstPacket : List UInt8} {flag : Bool}
  {fast : InboundContext} {slow : MatchState} {rule : Rule}

/-- A matching rule keeps the paths together unless its options leave addresses behind. -/
theorem turnsAlike_iff_of_hit (index : Nat) (mem : rule ∈ r.rules)
    (path : Path flag fast slow.metadata)
    (fastHit : rule.Match fast.resetRuleCache = true)
    (slowHit : rule.Match slow.metadata.resetRuleCache = true) :
    r.TurnsAlike packetDestination firstPacket flag fast slow (rule, index) ↔
      ∀ options, rule.action.appliedOptions = some options →
        options.overrideAddress.isValid = true → fast.destinationAddresses = [] := by
  unfold TurnsAlike Net.preMatchStep Router.matchStep Router.enterRule
  simp only [fastHit, slowHit]
  -- only route and route-options write the metadata differently on the two paths
  have decided := r.decided rule mem
  cases action : rule.action with
  | route outbound options =>
    constructor
    · rintro ⟨-, -, kept⟩ _ ⟨⟩
      exact (path_options path.reset options).mp kept
    · intro none
      exact ⟨rfl, rfl, (path_options path.reset options).mpr (none options rfl)⟩
  | routeOptions options =>
    constructor
    · rintro kept _ ⟨⟩
      exact (path_options path.reset options).mp kept
    · intro none
      exact (path_options path.reset options).mpr (none options rfl)
  | resolve resolve =>
    refine ⟨fun _ _ applied => (by cases applied), fun _ => ?_⟩
    obtain ⟨same, dial, eq⟩ := path.reset
    have answer := r.actionResolve_withDial resolve dial true slow.metadata.resetRuleCache
    rw [← eq] at answer
    simp only [RuleAction.appliedOptions, Bool.not_true, Bool.false_eq_true, if_false, answer]
    cases resolved : r.actionResolve resolve slow.metadata.resetRuleCache with
    | error err => exact rfl
    | ok metadata => exact ⟨(actionResolve_preMatch r.toRouter resolved).trans same, dial, rfl⟩
  | reject method =>
    refine ⟨fun _ _ applied => (by cases applied), fun _ => ⟨⟨method, action⟩, ?_⟩⟩
    split
    · exact .inr rfl
    · exact .inl rfl
  | bypass | direct | hijackDNS | sniff =>
    rw [action] at decided
    cases decided

theorem turnsAlike_iff (index : Nat) (mem : rule ∈ r.rules) (path : Path flag fast slow.metadata) :
    Met fast slow (rule, index) ∧
        r.TurnsAlike packetDestination firstPacket flag fast slow (rule, index) ↔
      Faithful flag fast (rule, index) := by
  -- without the flag, a rule answers on the metadata of the fast path as on the slow one
  have same : rule.Match (withPreMatch flag fast.resetRuleCache) =
      rule.Match slow.metadata.resetRuleCache := by
    obtain ⟨own, dial, eq⟩ := path.reset
    have unflagged : withPreMatch flag fast.resetRuleCache =
        withDial dial (withPreMatch flag slow.metadata.resetRuleCache) := by
      rw [eq]
      rfl
    rw [unflagged, withPreMatch_self own, r.ignoresDial rule mem]
  suffices alike : Met fast slow (rule, index) →
      (r.TurnsAlike packetDestination firstPacket flag fast slow (rule, index) ↔
        (rule.Match fast.resetRuleCache = true → ∀ options, rule.action.appliedOptions = some options →
          options.overrideAddress.isValid = true → fast.destinationAddresses = [])) by
    constructor
    · exact fun ⟨met, turns⟩ => ⟨same.trans met.symm, (alike met).mp turns⟩
    · intro faithful
      have met : Met fast slow (rule, index) := faithful.answer.symm.trans same
      exact ⟨met, (alike met).mpr faithful.addresses⟩
  intro met
  cases hit : rule.Match fast.resetRuleCache with
  | false =>
    refine iff_of_true ?_ nofun
    have miss : rule.Match slow.metadata.resetRuleCache = false := met.symm.trans hit
    unfold TurnsAlike Net.preMatchStep Router.matchStep
    simp only [hit, miss]
    exact path.reset
  | true =>
    rw [r.turnsAlike_iff_of_hit index mem path hit (met.symm.trans hit)]
    exact ⟨fun none _ => none, fun none => none rfl⟩

/-! ## Both loops -/

variable (metadata : InboundContext)

/-- Before every rule the loops have the same metadata, but for the flag and the dial fields, and
at every rule they go on or end together. -/
def ScansAgree (firstPacket : List UInt8) (input : Input) : Prop :=
  ∀ prepared, r.prepareMatchMetadata metadata = .ok prepared →
    Lockstep (r.preMatchStep metadata.destination firstPacket) r.matchStep
      (fun fast slow => Path metadata.preMatch fast slow.metadata) Met (Ends metadata.preMatch)
      (withPreMatch true prepared) { metadata := prepared, input } r.rules.zipIdx

/-- Every turn that the fast path takes is faithful. -/
def FaithfulScan (firstPacket : List UInt8) : Prop :=
  ∀ prepared, r.prepareMatchMetadata metadata = .ok prepared →
    Along (r.preMatchStep metadata.destination firstPacket) (Faithful metadata.preMatch)
      (withPreMatch true prepared) r.rules.zipIdx

/-- A flow that is settled on a rule and an outbound is what `matchRule` selects. -/
def Agrees (firstPacket : List UInt8) (input : Input) : Prop :=
  ∀ rule index last outbound, r.Settles metadata firstPacket rule index last outbound →
    let result := r.matchRule metadata input
    result.selected = some (rule, index) ∧
      result.state.metadata.destination = last.destination ∧
      result.state.metadata.destinationAddresses = last.destinationAddresses

theorem scansAgree_iff (metadata : InboundContext) (firstPacket : List UInt8) (input : Input) :
    r.ScansAgree metadata firstPacket input ↔ r.FaithfulScan metadata firstPacket := by
  refine forall₂_congr fun prepared prepares => ?_
  have law := r.prepare metadata.preMatch metadata
  rw [withPreMatch_self rfl, prepares] at law
  have kept : prepared = withPreMatch metadata.preMatch prepared := Except.ok.inj law
  refine lockstep_iff ?_ ⟨(congrArg InboundContext.preMatch kept :), Dial.of prepared, rfl⟩
  intro fast slow item mem path
  exact r.turnsAlike_iff item.2 (fst_mem_of_mem_zipIdx mem) path

theorem agrees_of_scansAgree {metadata : InboundContext} {firstPacket : List UInt8} {input : Input}
    (agree : r.ScansAgree metadata firstPacket input) : r.Agrees metadata firstPacket input := by
  intro rule index last outbound settles
  obtain ⟨tag, scan⟩ := settles.rule
  have law : r.prepareMatchMetadata { metadata with preMatch := true } =
      (r.prepareMatchMetadata metadata).map (withPreMatch true) := r.prepare true metadata
  obtain ⟨flagged, found, scanned⟩ := bind_eq_ok.mp scan
  have fastEnd := Except.ok.inj scanned
  obtain ⟨prepared, prepares, rfl⟩ := map_eq_ok.mp (law.symm.trans found)
  -- the loops cannot both have run out, as the fast one has ended at a rule
  obtain ⟨_, _, fastNone, -⟩ | ⟨f, e, s, d, fastSome, slowEnd, ends⟩ :=
    lockstep_loop (agree prepared prepares)
  · rw [fastNone] at fastEnd
    cases fastEnd
  · rw [fastSome] at fastEnd
    cases fastEnd
    simp only [Router.matchRule, prepares, slowEnd]
    cases d with
    | fatal err => exact ends.elim
    | selected rule' index' =>
      obtain ⟨rfl, rfl, -, dial, rfl⟩ := ends
      exact ⟨rfl, rfl, rfl⟩

/-- The fast path decides like the slow path exactly as far as its turns are faithful. -/
theorem preMatch_agrees_iff (metadata : InboundContext) (firstPacket : List UInt8)
    (input : Input) :
    (r.ScansAgree metadata firstPacket input ↔ r.FaithfulScan metadata firstPacket) ∧
      (r.FaithfulScan metadata firstPacket → r.Agrees metadata firstPacket input) := by
  have scans := r.scansAgree_iff metadata firstPacket input
  exact ⟨scans, fun faithful => r.agrees_of_scansAgree (scans.mpr faithful)⟩

end FlowRouter

/-! ## Where the paths part -/

namespace Lookups

variable (l : Lookups) (flag : Bool) (metadata : InboundContext)

theorem fakeDestination_withPreMatch (domain : String) :
    fakeDestination domain (withPreMatch flag metadata) =
      withPreMatch flag (fakeDestination domain metadata) := by
  unfold fakeDestination
  split <;> rfl

theorem mapReverse_withPreMatch :
    l.mapReverse (withPreMatch flag metadata) = withPreMatch flag (l.mapReverse metadata) := by
  by_cases unknown : metadata.domain = ""
  · cases found : l.reverseMapping metadata.destination.addr <;>
      simp [mapReverse, withPreMatch, unknown, found]
  · simp [mapReverse, withPreMatch, unknown]

theorem setIPVersion_withPreMatch :
    l.setIPVersion (withPreMatch flag metadata) = withPreMatch flag (l.setIPVersion metadata) := by
  have destination : (withPreMatch flag metadata).destination = metadata.destination := rfl
  unfold setIPVersion
  rw [destination]
  split
  · rfl
  · split <;> rfl

theorem prepareMatchMetadata_withPreMatch :
    l.prepareMatchMetadata (withPreMatch flag metadata) =
      (l.prepareMatchMetadata metadata).map (withPreMatch flag) := by
  have destination : (withPreMatch flag metadata).destination = metadata.destination := rfl
  unfold prepareMatchMetadata
  rw [destination, mapReverse_withPreMatch, setIPVersion_withPreMatch]
  split
  · rfl
  · next domain _ =>
    rw [fakeDestination_withPreMatch, setIPVersion_withPreMatch]
    rfl
  · rfl

end Lookups

/-- A router with FakeIP addresses, the first of which stands for `example.com`, and with one
outbound, a bridge. -/
def net (rules : List Rule) : Net where
  rules := rules
  prepareMatchMetadata := Lookups.prepareMatchMetadata
    { fakeIP := fun address =>
        if address = .v4 0xc6120002#32 then some (some "example.com") else none
      reverseMapping := fun _ => none
      isIPv4 := fun destination => destination.addr.is4
      isIPv6 := fun destination => destination.addr.is6 }
  dnsTransport := fun _ => true
  lookup := fun _ _ => .ok [.v4 0x5db8d822#32]
  isDomainName := fun name => name != ""
  isDomain := fun destination => destination.fqdn != ""
  defaultStreamSniffers := []
  defaultPacketSniffers := []
  quicClientHello := fun metadata _ => (metadata, none)
  packetSize := 65535
  outbound := fun tag => if tag = "bridge" then some ⟨"bridge", ["tcp", "udp", "icmp"]⟩ else none
  defaultOutbound := ⟨"direct", ["tcp", "udp"]⟩
  inbound := fun _ => none
  muxDestination := "sp.mux.sing-box.arpa"
  vmessMuxDestination := "v1.mux.cool"
  uotMagicAddress := "sp.v2.udp-over-tcp.arpa"
  uotLegacyMagicAddress := "sp.udp-over-tcp.arpa"
  isIPv4 := fun destination => destination.addr.is4
  now := fun _ => none
  preMatchOutbound := fun outbound =>
    if outbound.tag = "bridge" then some (bridgeFlow fun _ => false) else none
  rejectDrops := fun method => method == "drop"

def flowRouter (rules : List (RuleItem × RuleAction))
    (decided : ∀ rule ∈ rules, decides rule.2 = true)
    (ignoresDial : ∀ rule ∈ rules, ∀ dial metadata,
      rule.1.Match (withDial dial metadata) = rule.1.Match metadata) : FlowRouter where
  toNet := net (rules.map fun rule => ⟨rule.1.Match, rule.2⟩)
  decided := by
    intro rule mem
    obtain ⟨given, mem', rfl⟩ := mem_map.mp mem
    exact decided given mem'
  ignoresDial := by
    intro rule mem
    obtain ⟨given, mem', rfl⟩ := mem_map.mp mem
    exact ignoresDial given mem'
  prepare := Lookups.prepareMatchMetadata_withPreMatch _
  answers := fun _ _ _ _ => rfl

/-- Every domain is resolved, and then the destination is overridden with another domain. -/
def overridden : FlowRouter :=
  flowRouter
    [(networkItem ["udp"], .resolve {}),
      (networkItem ["udp"], .route "bridge" { overrideAddress := { fqdn := "example.org" } })]
    (by decide) (by
      intro rule mem
      simp only [mem_cons, not_mem_nil, or_false] at mem
      obtain rfl | rfl := mem <;> exact fun _ _ => rfl)

/-- What the bridge prefers goes to the bridge. -/
def preferred : FlowRouter :=
  flowRouter [(bridgeItem fun _ => false, .route "bridge" {})] (by decide) (by
    intro rule mem
    rw [mem_singleton.mp mem]
    exact fun _ _ => rfl)

/-- A UDP flow to the FakeIP address of `example.com`. -/
def fakeFlow : InboundContext :=
  { network := "udp", destination := { addr := .v4 0xc6120002#32, port := 443 } }

/-- The metadata with which `PreMatch` settles it. -/
def fakeFlowSettled : InboundContext :=
  { fakeFlow with
    originDestination := fakeFlow.destination
    destination := { fqdn := "example.org", port := 443 }
    destinationAddresses := [.v4 0x5db8d822#32]
    fakeIP := true
    preMatch := true }

/-- A UDP flow to some other address. -/
def plainFlow : InboundContext :=
  { network := "udp", destination := { addr := .v4 0x01010101#32, port := 443 } }

/-- A flow whose destination is overridden goes to the address of the old destination, and
`matchRule` has no address for it. A flow that the bridge prefers goes to the bridge, and
`matchRule` selects no rule. -/
theorem preMatch_disagrees :
    ((overridden.preMatch fakeFlow []).destination = some (.v4 0x5db8d822#32, 443) ∧
      (overridden.matchRule fakeFlow (.packet [])).state.metadata.destination =
        { fqdn := "example.org", port := 443 } ∧
      (overridden.matchRule fakeFlow (.packet [])).state.metadata.destinationAddresses = [] ∧
      ¬ overridden.Agrees fakeFlow [] (.packet [])) ∧
    (preferred.preMatch plainFlow []).action = .flow ∧
      (preferred.matchRule plainFlow (.packet [])).selected.isNone = true ∧
      ¬ preferred.Agrees plainFlow [] (.packet []) := by
  refine ⟨⟨by rfl, by rfl, by rfl, fun agrees => ?_⟩, by rfl, by rfl, fun agrees => ?_⟩
  -- both paths select rule 1, but only the fast one still has the address of `example.com`
  · obtain ⟨-, -, addresses⟩ := agrees _ 1 fakeFlowSettled ⟨"bridge", ["tcp", "udp", "icmp"]⟩
      ⟨⟨"bridge", rfl⟩, rfl⟩
    cases addresses
  · obtain ⟨selected, -⟩ := agrees _ 0 (withPreMatch true { plainFlow with ipVersion := 4 })
      ⟨"bridge", ["tcp", "udp", "icmp"]⟩ ⟨⟨"bridge", rfl⟩, rfl⟩
    cases selected

end SingBox.Route.Flow
