import SingBox.Dns.CacheStore

/-!
# The DNS client

`Client.Exchange` and `Client.Lookup`, any number of them at once over one cache. A call of
`Lookup` asks for one or both address families, each in a goroutine of its own that looks
into the cache and then calls `Exchange`. An exchange takes the lock of its question or
waits for whoever has it, looks into the cache, and asks the transport. A stale entry is
returned and refreshed in the background.

A step is what happens between two points where another goroutine can interfere. What the
transport answers, when a waiting call gives up, and how time passes are up to the run.

* `lifetime_spec` — how long a response lives, and that its records say so.
-/

namespace SingBox.Dns.Client

open Lib Cachefile List Function

/-! ## What is asked -/

/-- The options that the client reads. -/
structure QueryOptions where
  strategy : DomainStrategy := .asIS
  lookupStrategy : DomainStrategy := .asIS
  disableCache : Bool := false
  disableOptimisticCache : Bool := false
  rewriteTTL : Option UInt32 := none
  clientSubnet : Prefix := .invalid

/-- What `Exchange` and `Lookup` are both called with. `contextTransport` is the transport
whose query this one serves. -/
structure Query where
  transportTag : String
  options : QueryOptions := {}
  responseChecker : Option (Msg → Bool) := none
  contextTransport : Option String := none

inductive Request where
  | exchange (query : Query) (message : Msg)
  | lookup (query : Query) (domain : String)

/-- A call of `Exchange`, or of `lookupToExchange`. -/
structure Job where
  query : Query
  message : Msg
  viaLookup : Bool := false

/-- `dns.IsFqdn`: a dot at the end that is not escaped. -/
def isFqdn (name : String) : Bool :=
  match name.toList.reverse with
  | [] => false
  | last :: rest =>
      last == '.' && (rest.takeWhile fun c => c == Char.ofNat 92).length % 2 == 0

def FqdnToDomain (fqdn : String) : String :=
  if isFqdn fqdn then String.ofList fqdn.toList.dropLast else fqdn

def fqdn (name : String) : String := if isFqdn name then name else name ++ "."

/-- The message of `lookupToExchange`. -/
def lookupMessage (name : String) (qType : UInt16) : Msg where
  recursionDesired := true
  question := [⟨name, qType, classINET⟩]

def QueryOptions.forLookup (options : QueryOptions) : DomainStrategy :=
  if options.lookupStrategy ≠ .asIS then options.lookupStrategy else options.strategy

def Request.jobs : Request → List Job
  | .exchange query message => [⟨query, message, false⟩]
  | .lookup query domain =>
      let strategy := query.options.forLookup
      let asks (qType : UInt16) : Job :=
        ⟨{ query with options := { query.options with strategy } },
          lookupMessage (fqdn (FqdnToDomain domain)) qType, true⟩
      match strategy with
      | .ipv4Only => [asks typeA]
      | .ipv6Only => [asks typeAAAA]
      | _ => [asks typeA, asks typeAAAA]

def prepareExchangeMessage (c : Config) (message : Msg) (options : QueryOptions) : Msg :=
  let clientSubnet :=
    if options.clientSubnet.isValid then options.clientSubnet else c.clientSubnet
  if clientSubnet.isValid then SetClientSubnet message clientSubnet else message

namespace Job

variable (job : Job) (c : Config)

abbrev options : QueryOptions := job.query.options

/-- `message.Question[0]`, where there is one. -/
def question : Question := job.message.question.headD ⟨"", 0, 0⟩

/-- `dnsCacheKey`. -/
def lockKey : Question × String := (job.question, job.query.transportTag)

def rdrcKey : String × String × UInt16 :=
  (job.query.transportTag, job.question.name, job.question.qtype)

def prepared : Msg := prepareExchangeMessage c job.message job.options

def isSimpleRequest : Bool :=
  isSimpleMessage (job.prepared c) && !job.options.clientSubnet.isValid

/-- What turns the cache off for `lookupToExchange`. -/
def cacheOff : Bool := c.disableCache || job.options.disableCache

/-- What turns it off for `Exchange`, before the response. -/
def disableCache : Bool := !job.isSimpleRequest c || job.cacheOff c

def strategyRejected : Bool :=
  job.question.qtype == typeA && job.options.strategy == .ipv6Only ||
    job.question.qtype == typeAAAA && job.options.strategy == .ipv4Only

end Job

/-! ## What is done with a response -/

/-- What a transport returns. -/
inductive Reply where
  | response (message : Msg)
  | rcodeError (rcode : Nat)
  | failed (err : String)

inductive Err where
  | cacheWaitTimeout
  | contextDone
  | loopback (transportTag : String)
  | responseRejectedCached
  | responseRejected
  | transport (err : String)
  deriving DecidableEq, Repr

/-- `exchangeToTransport`, after the transport returned. -/
def exchangeToTransport (message : Msg) : Reply → Except Err Msg
  | .response response => .ok (stripDNSPadding response)
  | .rcodeError rcode => .ok (FixedResponseStatus message rcode)
  | .failed err => .error (.transport err)

/-- The hints a strategy leaves in an HTTPS record. -/
def keepsHint (strategy : DomainStrategy) : SvcbParam → Bool
  | .ipv4Hint _ => strategy != .ipv6Only
  | .ipv6Hint _ => strategy != .ipv4Only
  | .other _ _ => true

def filterHints (strategy : DomainStrategy) (rr : RR) : RR :=
  match rr.data with
  | .https priority target values =>
      { rr with data := .https priority target (values.filter (keepsHint strategy)) }
  | _ => rr

/-- The first part of `applyResponseOptions`. -/
def stripHints (question : Question) (strategy : DomainStrategy) (response : Msg) : Msg :=
  if question.qtype = typeHTTPS ∧ (strategy = .ipv4Only ∨ strategy = .ipv6Only) then
    { response with answer := response.answer.map (filterHints strategy) }
  else response

/-- The TTL that `applyResponseOptions` returns. -/
def responseTTL (options : QueryOptions) (response : Msg) : UInt32 :=
  options.rewriteTTL.getD response.computeTimeToLive

def applyResponseOptions (question : Question) (response : Msg) (options : QueryOptions) :
    Msg × UInt32 :=
  let response := stripHints question options.strategy response
  let timeToLive := responseTTL options response
  (response.normalizeTTL timeToLive, timeToLive)

/-! ### Lifetimes -/

/-- The response codes that are cached and that a checker gets to see. -/
def rcodeOk (response : Msg) : Bool :=
  response.rcode == rcodeSuccess || response.rcode == rcodeNameError

variable (job : Job)

/-- Whether a response may be stored, as far as it is concerned. -/
def Job.passes (response : Msg) : Bool :=
  rcodeOk response && job.query.responseChecker.all fun check => check response

structure Result where
  response : Option Msg
  err : Option Err

/-- What an answered exchange returns, stores, and whether it notes a rejection. -/
structure Outcome where
  result : Result
  stored : Option (Msg × UInt32)
  rejects : Bool

/-- `Exchange` after the transport answered. -/
def Job.answered (c : Config) (response : Msg) : Outcome :=
  let disableCache := job.disableCache c || !rcodeOk response
  if job.query.responseChecker.isSome && !job.passes response then
    { result := ⟨some response, some .responseRejected⟩
      stored := none
      rejects := !disableCache && c.rdrc }
  else
    let applied := applyResponseOptions job.question response job.options
    { result := ⟨some (fitEDNS (job.prepared c) (applied.1.withId (job.prepared c).id)), none⟩
      stored := if disableCache then none else some applied
      rejects := false }

/-- The goroutine of `backgroundRefreshDNS` after the transport answered. -/
def Job.refreshed (c : Config) (response : Msg) : Option (Msg × UInt32) × Bool :=
  if job.passes response then
    (some (applyResponseOptions job.question response job.options), false)
  else (none, job.query.responseChecker.isSome && c.rdrc)

/-! ## Goroutines -/

abbrev ThreadId := Nat × Nat

inductive Phase where
  /-- Before `questionCache`. -/
  | looking
  /-- Before `Exchange`. -/
  | entering
  /-- For the channel of another call. -/
  | waiting (owner : ThreadId)
  | loading
  /-- Before it is checked for a loop and a known rejection. -/
  | checking
  | asking
  | returned (result : Result)

structure Thread where
  job : Job
  phase : Phase
  /-- Whether it has the lock of its question. -/
  owns : Bool := false

def Job.thread (c : Config) : Thread :=
  ⟨job, if job.viaLookup && !job.cacheOff c then .looking else .entering, false⟩

structure State (τ : Type) where
  /-- The requests so far, by number; the calls of one are numbered in turn. -/
  requests : Nat → Option Request
  store : τ
  cacheLock : Question × String → Option ThreadId
  backgroundRefresh : Question × String → Option Job
  rdrc : List (String × String × UInt16)
  threads : ThreadId → Option Thread
  now : Int

/-- What a call does next. -/
inductive Move where
  | questionCache
  | enter
  | wake
  | giveUp (timeout : Bool)
  | load
  | check
  /-- `flusher` is for the goroutine that a save may start. -/
  | answer (reply : Reply) (flusher : Nat)

inductive Label (ι : Type) where
  | call (n : Nat) (request : Request)
  | move (id : ThreadId) (move : Move)
  | refreshed (key : Question × String) (reply : Reply) (flusher : Nat)
  | internal (l : ι)
  | forgetRDRC (key : String × String × UInt16)
  | tick (now : Int)

namespace State

variable {τ : Type} (s : State τ) (id : ThreadId) (thread : Thread)

def setThread : State τ :=
  { s with threads := update s.threads id (some thread) }

/-- A call returns; if it has the lock, it gives it back. -/
def finish (result : Result) : State τ :=
  { s.setThread id { thread with phase := .returned result } with
    cacheLock :=
      if thread.owns then update s.cacheLock thread.job.lockKey none else s.cacheLock }

/-- `backgroundRefreshDNS` up to its goroutine: one for each key. -/
def refresh (job : Job) : State τ :=
  match s.backgroundRefresh job.lockKey with
  | some _ => s
  | none =>
      { s with backgroundRefresh := update s.backgroundRefresh job.lockKey (some job) }

/-- A cached response is returned, and refreshed if it is stale. -/
def serve (response : Msg) (stale : Bool) : State τ :=
  (if stale then s.refresh thread.job else s).finish id thread ⟨some response, none⟩

/-- `SaveRDRCAsync`. -/
def noteRejected (rejected : Bool) (job : Job) : State τ :=
  if rejected then { s with rdrc := job.rdrcKey :: s.rdrc } else s

def hasReturned : Bool :=
  match s.threads id with
  | some ⟨_, .returned _, _⟩ => true
  | _ => false

end State

section Steps

variable {κ τ ι : Type} (store : CacheStore κ τ ι) (c : Config) (s : State τ) (id : ThreadId)
    (thread : Thread)

/-- A look into the cache; `next` is where a call without a usable response goes on. -/
def look (next : Phase) (fit : Msg → Msg) : State τ :=
  let loaded :=
    loadResponse store c s.store s.now thread.job.question thread.job.query.transportTag
  let s := { s with store := loaded.2 }
  match loaded.1 with
  | none => s.setThread id { thread with phase := next }
  | some (response, stale) =>
      if stale && thread.job.options.disableOptimisticCache then
        s.setThread id { thread with phase := next }
      else s.serve id thread (fit response) stale

/-- The store after a response may have been put into it. -/
def keep (flusher : Nat) (job : Job) (stored : Option (Msg × UInt32)) : Option (State τ) :=
  match stored with
  | none => some s
  | some (message, timeToLive) =>
      (storeCache store s.store flusher s.now job.question job.query.transportTag message
        timeToLive).map fun next => { s with store := next }

/-- `Exchange` up to its look into the cache. -/
def enter : State τ :=
  let job := thread.job
  if job.message.question = [] then
    s.finish id thread ⟨some (FixedResponseStatus job.message rcodeFormatError), none⟩
  else if job.strategyRejected then
    s.finish id thread ⟨some (FixedResponseStatus job.message rcodeSuccess), none⟩
  else if job.disableCache c then s.setThread id { thread with phase := .checking }
  else
    match s.cacheLock job.lockKey with
    | some owner => s.setThread id { thread with phase := .waiting owner }
    | none =>
        { s.setThread id { thread with phase := .loading, owns := true } with
          cacheLock := update s.cacheLock job.lockKey (some id) }

/-- `Exchange` from there to the transport. -/
def check : State τ :=
  let job := thread.job
  if job.query.contextTransport = some job.query.transportTag then
    s.finish id thread ⟨none, some (.loopback job.query.transportTag)⟩
  else if !job.disableCache c && job.query.responseChecker.isSome && c.rdrc &&
      s.rdrc.contains job.rdrcKey then
    s.finish id thread ⟨none, some .responseRejectedCached⟩
  else s.setThread id { thread with phase := .asking }

/-- `Exchange` from the transport on. -/
def answer (reply : Reply) (flusher : Nat) : Option (State τ) :=
  match exchangeToTransport (thread.job.prepared c) reply with
  | .error err => some (s.finish id thread ⟨none, some err⟩)
  | .ok response =>
      let outcome := thread.job.answered c response
      (keep store (s.noteRejected outcome.rejects thread.job) flusher thread.job
        outcome.stored).map fun s => s.finish id thread outcome.result

/-- The goroutine of a refresh, from the transport on. -/
def refreshAnswer (job : Job) (reply : Reply) (flusher : Nat) : Option (State τ) :=
  match exchangeToTransport (job.prepared c) reply with
  | .error _ => some s
  | .ok response =>
      let outcome := job.refreshed c response
      keep store (s.noteRejected outcome.2 job) flusher job outcome.1

def moveThread : Phase → Move → Option (State τ)
  | .looking, .questionCache => some (look store c s id thread .entering fun response => response)
  | .entering, .enter => some (enter c s id thread)
  | .waiting owner, .wake =>
      if s.hasReturned owner then some (s.setThread id { thread with phase := .loading }) else none
  | .waiting _, .giveUp timeout =>
      some (s.finish id thread ⟨none, some (if timeout then .cacheWaitTimeout else .contextDone)⟩)
  | .loading, .load =>
      some (look store c s id thread .checking fun response =>
        response.withId (thread.job.prepared c).id)
  | .checking, .check => some (check c s id thread)
  | .asking, .answer reply flusher => answer store c s id thread reply flusher
  | _, _ => none

/-- The clock does not go back, and stays where a lifetime can be added to it. -/
def State.mayTick (now : Int) : Bool :=
  decide (s.now ≤ now ∧ now + 2 ^ 32 * second < 2 ^ 63 * second)

def step : Label ι → Option (State τ)
  | .call n request =>
      if (s.requests n).isSome then none
      else
        some { s with
          requests := update s.requests n (some request)
          threads := fun id =>
            if id.1 = n then request.jobs[id.2]?.map fun job => job.thread c else s.threads id }
  | .move id move =>
      match s.threads id with
      | none => none
      | some thread => moveThread store c s id thread thread.phase move
  | .refreshed key reply flusher =>
      match s.backgroundRefresh key with
      | none => none
      | some job =>
          (refreshAnswer store c s job reply flusher).map fun s =>
            { s with backgroundRefresh := update s.backgroundRefresh key none }
  | .internal l => (store.internal s.store l).map fun next => { s with store := next }
  | .forgetRDRC key => some { s with rdrc := s.rdrc.filter fun other => other != key }
  | .tick now => if s.mayTick now then some { s with now } else none

end Steps

def State.start {τ : Type} (store : τ) (now : Int) : State τ :=
  ⟨fun _ => none, store, fun _ => none, fun _ => none, [], fun _ => none, now⟩

/-- The steps of a call that finds nothing in the cache and is answered, and those of one that
finds something. -/
def answeredCall {ι : Type} (id : ThreadId) (reply : Msg) : List (Label ι) :=
  [.move id .enter, .move id .load, .move id .check, .move id (.answer (.response reply) 0)]

def cachedCall {ι : Type} (id : ThreadId) : List (Label ι) := [.move id .enter, .move id .load]

/-- The answer to an address query, with one address. -/
def addressAnswer (question : Question) (ip : BitVec 32) : Msg where
  response := true
  question := [question]
  answer := [⟨⟨question.name, typeA, classINET, 60⟩, .a (.v4 ip)⟩]

/-! ## What a lookup returns -/

/-- The end of `lookupToExchange` and of `questionCache`; an error gives no addresses. -/
def Result.addresses (result : Result) : List Addr :=
  match result.err, result.response with
  | none, some response =>
      if response.rcode ≠ rcodeSuccess then [] else MessageToAddresses response
  | _, _ => []

/-- The addresses that one call of a lookup has found so far. -/
def State.addresses {τ : Type} (s : State τ) (id : ThreadId) : List Addr :=
  match s.threads id with
  | some ⟨_, .returned result, _⟩ => result.addresses
  | _ => []

def sortAddresses (response4 response6 : List Addr) (strategy : DomainStrategy) : List Addr :=
  if strategy = .preferIPv6 then response6 ++ response4 else response4 ++ response6

/-- The addresses that the `n`-th request, a lookup, returns. -/
def State.lookupAddresses {τ : Type} (s : State τ) (n : Nat) (query : Query) : List Addr :=
  match query.options.forLookup with
  | .ipv4Only => s.addresses (n, 0)
  | .ipv6Only => s.addresses (n, 0)
  | strategy => sortAddresses (s.addresses (n, 0)) (s.addresses (n, 1)) strategy

end SingBox.Dns.Client
