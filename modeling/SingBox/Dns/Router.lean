import SingBox.Dns.Checked
import SingBox.Lib.While
import SingBox.Route.DnsRule

/-!
# The DNS router

`dns/router.go`: how a query is given to a server. In legacy mode `matchDNS` finds the next
rule that applies, and `Exchange` and `Lookup` ask its server; when the response is rejected,
or the rule says to go on after a failure, they call `matchDNS` again from the rule after that
one. Otherwise `exchangeWithRules` goes through the rules once.

What the client returns is up to the run: a loop takes the outcomes of its exchanges one after
the other from a sequence, and records what it asked.
-/

namespace SingBox.Dns

open Lib Client

/-! ## Rules and their actions -/

structure RouteOptions where
  strategy : DomainStrategy := .asIS
  disableCache : Bool := false
  disableOptimisticCache : Bool := false
  rewriteTTL : Option UInt32 := none
  clientSubnet : Prefix := .invalid
  bypassIfFailed : Bool := false
  deriving DecidableEq

/-- The methods of `RuleActionReject` that a DNS rule can have. -/
inductive RejectMethod where
  | default
  | drop
  deriving DecidableEq, Repr

structure Predefined where
  rcode : Nat
  answer : List RR := []
  ns : List RR := []
  extra : List RR := []

inductive Action where
  | route (server : String) (options : RouteOptions)
  | routeOptions (options : RouteOptions)
  | evaluate (server : String) (options : RouteOptions)
  | respond
  | reject (method : RejectMethod)
  | predefined (action : Predefined)

/-- A record whose name starts with a star is for all names that end in the rest of it. -/
def rewriteRecords (records : List RR) (question : Question) : List RR :=
  records.map fun it =>
    match it.hdr.name.toList with
    | '*' :: rest =>
        if rest <:+ question.name.toList then
          { it with hdr := { it.hdr with name := question.name } }
        else it
    | _ => it

def Predefined.Response (r : Predefined) (request : Msg) : Msg :=
  let question := request.question.headD ⟨"", 0, 0⟩
  { id := request.id
    response := true
    authoritative := true
    recursionDesired := true
    recursionAvailable := true
    rcode := r.rcode
    question := request.question
    answer := rewriteRecords r.answer question
    ns := rewriteRecords r.ns question
    extra := rewriteRecords r.extra question }

/-- `adapter.DNSRule`. What matching writes to the metadata is reset before the next rule is
matched, so it is not returned. -/
structure DNSRule extends AddressLimitRule where
  Match : InboundContext → Bool
  LegacyPreMatch : InboundContext → Bool
  action : Action

def DNSRule.BypassIfFailed (rule : DNSRule) : Bool :=
  match rule.action with
  | .route _ options => options.bypassIfFailed
  | _ => false

/-- A response as the items of a rule see it. -/
def Msg.toDnsMsg (message : Msg) : DnsMsg := ⟨message.rcode, message.answer.map RR.toRecord⟩

structure Transport where
  tag : String
  type : String
  deriving DecidableEq, Repr

def dnsTypeFakeIP : String := "fakeip"

def Transport.isFakeIP (transport : Transport) : Bool := transport.type == dnsTypeFakeIP

/-- `Router`, with the transports that its transport manager has. -/
structure Router where
  rules : List DNSRule
  transport : String → Option Transport
  defaultTransport : Transport
  defaultDomainStrategy : DomainStrategy := .asIS

/-- The metadata as it is set before a rule is matched. -/
def matchMetadata (metadata : InboundContext) : InboundContext :=
  { metadata.resetRuleCache with destinationAddressMatchFromResponse := false }

/-! ## Finding a rule -/

/-- What a rule does to the options of a query, in legacy mode. -/
def RouteOptions.override (action : RouteOptions) (options : QueryOptions) : QueryOptions :=
  { options with
    strategy := if action.strategy ≠ .asIS then action.strategy else options.strategy
    disableCache := if action.disableCache then true else options.disableCache
    rewriteTTL := if action.rewriteTTL.isSome then action.rewriteTTL else options.rewriteTTL
    clientSubnet :=
      if action.clientSubnet.isValid then action.clientSubnet else options.clientSubnet }

/-- The options of a route rule: answers from FakeIP are not cached. -/
def RouteOptions.forTransport (action : RouteOptions) (transport : Transport) : RouteOptions :=
  { action with disableCache := transport.isFakeIP || action.disableCache }

/-- What `matchDNS` returns, with the options as it leaves them. -/
structure Matched where
  transport : Option Transport
  rule : Option DNSRule
  ruleIndex : Int
  options : QueryOptions

namespace Router

variable (r : Router)

/-- The loop of `matchDNS`, from the rule with the index on. -/
def matchFrom (allowFakeIP isAddressQuery : Bool) (metadata : InboundContext) :
    List DNSRule → Nat → QueryOptions → Matched
  | [], _, options => ⟨some r.defaultTransport, none, -1, options⟩
  | rule :: rules, index, options =>
      let continue_ (options : QueryOptions) :=
        matchFrom allowFakeIP isAddressQuery metadata rules (index + 1) options
      if rule.withAddressLimit && !isAddressQuery then continue_ options
      else if rule.LegacyPreMatch (matchMetadata metadata) then
        match rule.action with
        | .route server action =>
            match r.transport server with
            | none => continue_ options
            | some transport =>
                if transport.isFakeIP && !allowFakeIP then continue_ options
                else
                  ⟨some transport, some rule, index,
                    (action.forTransport transport).override options⟩
        | .routeOptions action => continue_ (action.override options)
        | .reject _ => ⟨none, some rule, index, options⟩
        | .predefined _ => ⟨none, some rule, index, options⟩
        | .evaluate .. => continue_ options
        | .respond => continue_ options
      else continue_ options

/-- Where `matchDNS` starts. -/
def startIndex (ruleIndex : Int) : Nat := if ruleIndex ≠ -1 then (ruleIndex + 1).toNat else 0

def matchDNS (allowFakeIP : Bool) (ruleIndex : Int) (isAddressQuery : Bool)
    (metadata : InboundContext) (options : QueryOptions) : Matched :=
  r.matchFrom allowFakeIP isAddressQuery metadata (r.rules.drop (startIndex ruleIndex))
    (startIndex ruleIndex) options

/-- The strategy of a query that has none. -/
def withDefaultStrategy (options : QueryOptions) : QueryOptions :=
  if options.strategy = .asIS then { options with strategy := r.defaultDomainStrategy }
  else options

/-! ## The loops of the legacy mode -/

/-- An exchange or a lookup that the client is asked for. -/
structure Call where
  ruleIndex : Int
  transport : Option Transport
  options : QueryOptions
  /-- There is a `responseCheck`. -/
  checked : Bool

/-- The loops between two turns. -/
structure Progress (ω : Type) where
  ruleIndex : Int
  calls : List Call
  /-- What the client will answer. -/
  outcomes : Nat → ω

/-- `ruleIndex := -1`, before the first turn. -/
def Progress.start {ω : Type} (outcomes : Nat → ω) : Progress ω := ⟨-1, [], outcomes⟩

/-- The next call has been answered. -/
def Progress.ask {ω : Type} (s : Progress ω) (call : Call) : Progress ω :=
  ⟨call.ruleIndex, s.calls ++ [call], fun n => s.outcomes (n + 1)⟩

/-- The call that is made for what `matchDNS` found. -/
def callOf (matched : Matched) (metadata : InboundContext) : Call where
  ruleIndex := matched.ruleIndex
  transport := matched.transport
  options := r.withDefaultStrategy matched.options
  checked :=
    (addressLimitResponseCheck (matched.rule.map (·.toAddressLimitRule)) metadata).isSome

def isAddressQuery (message : Msg) : Bool :=
  message.question.any fun question =>
    question.qtype == typeA || question.qtype == typeAAAA || question.qtype == typeHTTPS

variable (metadata : InboundContext)

def exchangeMetadata (message : Msg) : InboundContext :=
  let question := message.question.headD ⟨"", 0, 0⟩
  { metadata with
    destination := {}
    queryType := question.qtype
    dnsResponse := none
    destinationAddressMatchFromResponse := false
    ipVersion :=
      if question.qtype = typeA then 4 else if question.qtype = typeAAAA then 6
      else metadata.ipVersion
    domain := FqdnToDomain question.name }

def lookupMetadata (domain : String) : InboundContext :=
  { metadata with
    destination := {}
    domain := FqdnToDomain domain
    dnsResponse := none
    destinationAddressMatchFromResponse := false }

/-- What the client answers to an exchange, and whether the context is done by then. -/
structure ExchangeOutcome where
  result : Result
  contextDone : Bool := false

inductive ExchangeErr where
  | drop
  | client (err : Err)
  deriving DecidableEq, Repr

abbrev rcodeRefused : Nat := 5

/-- The answer to a query that a rule rejects. -/
def refused (message : Msg) : Msg :=
  { id := message.id
    rcode := rcodeRefused
    response := true
    question := message.question.take 1 }

/-- A turn of the loop of `Exchange`. -/
def exchangeTurn (message : Msg) (metadata : InboundContext) (options : QueryOptions)
    (s : Progress ExchangeOutcome) :
    Turn (Progress ExchangeOutcome) (Except ExchangeErr (Option Msg)) :=
  let matched := r.matchDNS true s.ruleIndex (isAddressQuery message) metadata options
  match matched.rule.map DNSRule.action with
  | some (.reject .default) => .stop s (.ok (some (refused message)))
  | some (.reject .drop) => .stop s (.error .drop)
  | some (.predefined action) => .stop s (.ok (some (action.Response message)))
  | _ =>
      let call := r.callOf matched metadata
      let outcome := s.outcomes 0
      let rejected :=
        outcome.result.err == some .responseRejectedCached ||
          outcome.result.err == some .responseRejected
      let bypass :=
        outcome.result.err.isSome &&
          (matched.rule.any (·.BypassIfFailed) && matched.ruleIndex != -1) && !outcome.contextDone
      if call.checked && rejected then .next (s.ask call)
      else if bypass then .next (s.ask call)
      else
        .stop (s.ask call)
          (match outcome.result.err with
          | some err => .error (.client err)
          | none => .ok outcome.result.response)

/-- What the client answers to a lookup. -/
structure LookupOutcome where
  responseAddrs : List Addr
  err : Option Err

inductive LookupCause where
  | emptyResult
  | rcode (rcode : Nat)
  | client (err : Err)
  deriving DecidableEq, Repr

inductive LookupErr where
  | rejected
  | lookup (domain : String) (cause : LookupCause)
  deriving DecidableEq, Repr

def blockedPrefixes : List Prefix :=
  [.v4 0x0a000000#32 8, .v6 0x20014188000206000000000000000000#128 ⟨64, by decide⟩]

def IsBlockedIP (ip : Addr) : Bool :=
  if !ip.isValid then true else blockedPrefixes.any (·.contains ip)

def FilterBlocked (addrs : List Addr) : List Addr := addrs.filter fun ip => !IsBlockedIP ip

/-- The addresses that `Lookup` takes from a predefined answer. -/
def Predefined.addresses (action : Predefined) : List Addr :=
  FilterBlocked (action.answer.filterMap fun answer =>
    match answer.data with
    | .a addr => some addr
    | .aaaa addr => some addr
    | _ => none)

/-- `printResult`, as far as it changes the error. -/
def printResult (domain : String) (responseAddrs : List Addr) (err : Option LookupCause) :
    List Addr × Option LookupErr :=
  let err := if err.isNone && responseAddrs.isEmpty then some .emptyResult else err
  (responseAddrs, err.map (.lookup domain))

/-- A turn of the loop of `Lookup`. -/
def lookupTurn (domain : String) (metadata : InboundContext) (options : QueryOptions)
    (s : Progress LookupOutcome) :
    Turn (Progress LookupOutcome) (List Addr × Option LookupErr) :=
  let matched := r.matchDNS false s.ruleIndex true metadata options
  match matched.rule.map DNSRule.action with
  | some (.reject _) => .stop s ([], some .rejected)
  | some (.predefined action) =>
      .stop s
        (if action.rcode ≠ rcodeSuccess then printResult domain [] (some (.rcode action.rcode))
        else printResult domain (Predefined.addresses action) none)
  | _ =>
      let call := r.callOf matched metadata
      let outcome := s.outcomes 0
      if matched.rule.isSome && outcome.responseAddrs.isEmpty &&
          matched.rule.any (·.BypassIfFailed) && matched.ruleIndex != -1 then
        .next (s.ask call)
      else if !call.checked || outcome.err.isNone then
        .stop (s.ask call) (printResult domain outcome.responseAddrs (outcome.err.map .client))
      else .next (s.ask call)

/-- `Exchange` in legacy mode, with at most `fuel` turns of its loop. -/
def legacyExchange (fuel : Nat) (message : Msg) (metadata : InboundContext)
    (options : QueryOptions) (outcomes : Nat → ExchangeOutcome) :
    Option (Progress ExchangeOutcome × Except ExchangeErr (Option Msg)) :=
  turns (r.exchangeTurn message (exchangeMetadata metadata message) options) fuel
    (.start outcomes)

/-- `Lookup` in legacy mode, with at most `fuel` turns of its loop. -/
def legacyLookup (fuel : Nat) (domain : String) (metadata : InboundContext)
    (options : QueryOptions) (outcomes : Nat → LookupOutcome) :
    Option (Progress LookupOutcome × (List Addr × Option LookupErr)) :=
  turns (r.lookupTurn domain (lookupMetadata metadata domain) options) fuel (.start outcomes)

/-! ## The rules otherwise -/

/-- The metadata that a rule is matched against, after the response that was evaluated last. -/
def evaluatedMetadata (evaluated : Option (Msg × Transport)) : InboundContext :=
  { matchMetadata metadata with dnsResponse := evaluated.map fun e => e.1.toDnsMsg }

end Router

end SingBox.Dns
