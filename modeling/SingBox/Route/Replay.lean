import SingBox.Route.Router

/-!
# What sniffing reads is replayed

Sniff actions take bytes or packets away from the connection that the outbound
is going to be given. This module follows them through the rule loop:

* `matchStep_frame`, `matchStep_sniff` — a turn of the loop touches the
  connection only through a sniff action that is not skipped;
* `StreamInv` — the buffers and the rest of the connection are what the client sent;
* `routeConnection_replay` — the outbound is given the buffers in *reverse*
  order, so it reads what the client sent if at most one action read something;
* `PacketInv` — the same account for packets;
* `matchRule_packets_iff` — it holds at the end exactly if no sniff action went on
  reading with packets already buffered, which it returns a second time.
-/

namespace SingBox.Route

open Sniff Lib List

namespace Router

variable (r : Router)

/-! ## One turn -/

/-- The sniff action a turn executes: the rule matches and the action is not skipped. -/
def sniffs (state : MatchState) (rule : Rule) : Option RuleActionSniff :=
  let metadata := state.metadata.resetRuleCache
  if rule.Match metadata then
    match rule.action with
    | .sniff action => if sniffSkipped action metadata state.input then none else some action
    | _ => none
  else none

theorem matchStep_frame {state : MatchState} {rule : Rule} (index : Nat)
    (quiet : sniffs state rule = none) :
    (r.matchStep state (rule, index)).state.input = state.input ∧
    (r.matchStep state (rule, index)).state.buffers = state.buffers ∧
    (r.matchStep state (rule, index)).state.packetBuffers = state.packetBuffers := by
  unfold sniffs at quiet
  unfold matchStep
  cases hmatch : rule.Match state.metadata.resetRuleCache with
  | false => simp [hmatch]
  | true =>
    simp only [hmatch, if_true] at quiet
    simp only [hmatch, Bool.not_true, Bool.false_eq_true, if_false]
    cases haction : rule.action with
    | sniff action =>
      rw [haction] at quiet
      have hskip : sniffSkipped action state.metadata.resetRuleCache state.input = true := by
        by_contra hne
        simp [hne] at quiet
      simp [sniffStep, actionSniff, enterRule, haction, RuleAction.appliedOptions, hskip]
    | resolve action =>
      simp only
      cases r.actionResolve action _ with
      | error err | ok metadata => simp
    | bypass outbound options =>
      simp only
      split <;> simp
    | route outbound options | routeOptions options | direct | reject method | hijackDNS => simp

theorem matchStep_sniff {state : MatchState} {rule : Rule} {action : RuleActionSniff} (index : Nat)
    (h : sniffs state rule = some action) :
    r.matchStep state (rule, index) =
        r.sniffStep action { state with metadata := state.metadata.resetRuleCache } ∧
      sniffSkipped action state.metadata.resetRuleCache state.input = false := by
  unfold sniffs at h
  cases hmatch : rule.Match state.metadata.resetRuleCache with
  | false => simp [hmatch] at h
  | true =>
    simp only [hmatch, if_true] at h
    cases haction : rule.action with
    | sniff action' =>
      rw [haction] at h
      cases hskip : sniffSkipped action' state.metadata.resetRuleCache state.input with
      | true => simp [hskip] at h
      | false =>
        simp only [hskip, Bool.false_eq_true, if_false, Option.some.injEq] at h
        subst h
        simp [matchStep, hmatch, haction, enterRule, RuleAction.appliedOptions, hskip]
    | _ => simp [haction] at h

/-! ## Streams -/

/-- The buffers and what is left of the connection are what the client sends. -/
def StreamInv (sent : List UInt8) (state : MatchState) : Prop :=
  ∃ conn, state.input = .stream conn ∧ state.buffers.flatten ++ ConnEvent.bytes conn = sent

/-- A sniff action on a stream: one more buffer, unless nothing was read. -/
theorem sniffStep_stream {action : RuleActionSniff} (state : MatchState) {conn : List ConnEvent}
    (input : state.input = .stream conn)
    (active : sniffSkipped action state.metadata state.input = false) :
    ∃ sniffers metadata peek,
      peek = peekStream r.packetSize sniffers state.buffers conn state.metadata ∧
      r.sniffStep action state = .next
        { metadata
          input := .stream peek.conn
          buffers := state.buffers ++ (if peek.buffer.isEmpty then [] else [peek.buffer])
          packetBuffers := state.packetBuffers } := by
  refine ⟨if action.streamSniffers.length > 0 then action.streamSniffers
    else r.defaultStreamSniffers,
    (r.actionSniffStream action state.metadata conn state.buffers).metadata, _, rfl, ?_⟩
  have out : r.actionSniff action state.metadata state.input state.buffers state.packetBuffers =
      r.actionSniffStream action state.metadata conn state.buffers := by
    rw [input] at active ⊢
    simp [actionSniff, active]
  unfold sniffStep
  rw [out]
  simp only [actionSniffStream]
  cases (peekStream r.packetSize (if action.streamSniffers.length > 0 then action.streamSniffers
    else r.defaultStreamSniffers) state.buffers conn state.metadata).buffer with
  | nil | cons byte rest => simp

/-- The turn's sniff action, if there is one, finds no buffer yet or nothing to read. -/
def FirstRead (state : MatchState) (item : Rule × Nat) : Prop :=
  ∀ action conn, sniffs state item.1 = some action → state.input = .stream conn →
    state.buffers = [] ∨ ConnEvent.quiet conn = true

/-- Every turn keeps the stream accounted for, and a first read does not make a second buffer. -/
theorem matchStep_streamInv {sent : List UInt8} (state : MatchState) (item : Rule × Nat)
    (inv : StreamInv sent state) :
    StreamInv sent (r.matchStep state item).state ∧
      (state.buffers.length ≤ 1 → FirstRead state item →
        (r.matchStep state item).state.buffers.length ≤ 1) := by
  obtain ⟨rule, index⟩ := item
  obtain ⟨conn, input, account⟩ := inv
  cases hsniff : sniffs state rule with
  | none =>
    obtain ⟨sameInput, sameBuffers, _⟩ := r.matchStep_frame index hsniff
    rw [StreamInv, sameInput, sameBuffers]
    exact ⟨⟨conn, input, account⟩, fun atMostOne _ => atMostOne⟩
  | some action =>
    obtain ⟨step, active⟩ := r.matchStep_sniff index hsniff
    obtain ⟨sniffers, metadata, _, rfl, hnext⟩ := r.sniffStep_stream
      { state with metadata := state.metadata.resetRuleCache } input active
    rw [step, hnext]
    refine ⟨⟨_, rfl, ?_⟩, fun atMostOne first => ?_⟩
    · -- what was peeked goes from the connection to the last buffer
      have bytes := peekStream_bytes r.packetSize sniffers state.buffers conn
        state.metadata.resetRuleCache
      show (state.buffers ++ _).flatten ++ _ = sent
      rw [← account, ← bytes, flatten_append, append_assoc]
      split
      · rename_i isEmpty
        rw [isEmpty_iff.mp isEmpty]
        rfl
      · rw [flatten_cons, flatten_nil, append_nil]
    · rcases first action conn hsniff input with empty | quiet
      · rw [empty]
        split <;> simp
      · rw [peekStream_quiet r.packetSize sniffers state.buffers conn _ quiet]
        simpa using atMostOne

end Router

/-! ## Replaying -/

theorem bytes_cacheBuffers (conn : CachedConn) (buffers : List (List UInt8)) :
    (cacheBuffers conn buffers).bytes = buffers.reverse.flatten ++ conn.bytes := by
  induction buffers generalizing conn with
  | nil => rfl
  | cons buffer rest ih =>
    show (cacheBuffers (.cached conn buffer) rest).bytes = _
    rw [ih]
    simp [CachedConn.bytes]

namespace Router

variable (r : Router)

/-- In the run of `matchRule` on a connection, at most one sniff action gets to read. -/
def ReadsOnce (metadata : InboundContext) (conn : List ConnEvent) : Prop :=
  ∀ prepared, r.prepareMatchMetadata metadata = .ok prepared →
    Along r.matchStep FirstRead { metadata := prepared, input := .stream conn } r.rules.zipIdx

theorem matchRule_streamInv (metadata : InboundContext) (conn : List ConnEvent) :
    StreamInv (ConnEvent.bytes conn) (r.matchRule metadata (.stream conn)).state := by
  unfold matchRule
  cases r.prepareMatchMetadata metadata with
  | error err => exact ⟨conn, rfl, rfl⟩
  | ok prepared =>
    simp only [MatchResult.state_ofLoop]
    exact loop_keeps (StreamInv (ConnEvent.bytes conn))
      (fun state item inv => (r.matchStep_streamInv state item inv).1) _ _ ⟨conn, rfl, rfl⟩

theorem matchRule_readsOnce (metadata : InboundContext) (conn : List ConnEvent)
    (once : r.ReadsOnce metadata conn) :
    (r.matchRule metadata (.stream conn)).state.buffers.length ≤ 1 := by
  unfold matchRule
  cases hprepare : r.prepareMatchMetadata metadata with
  | error err => exact Nat.zero_le 1
  | ok prepared =>
    simp only [MatchResult.state_ofLoop]
    have inv := loop_invariant
      (fun state => StreamInv (ConnEvent.bytes conn) state ∧ state.buffers.length ≤ 1)
      (fun state item inv first => (r.matchStep_streamInv state item inv.1).imp_right
        fun keeps => keeps inv.2 first)
      { metadata := prepared, input := .stream conn } r.rules.zipIdx
      ⟨⟨conn, rfl, rfl⟩, Nat.zero_le 1⟩ (once prepared hprepare)
    exact inv.2

/-- The connection an outbound is given is what `matchRule` left, under its buffers. -/
theorem routeConnection_outbound {metadata passed : InboundContext} {conn : List ConnEvent}
    {outbound : Outbound} {handed : CachedConn}
    (h : r.routeConnection metadata conn = .outbound outbound handed passed) :
    ∃ rest, (r.matchRule { metadata with network := "tcp" } (.stream conn)).state.input =
        .stream rest ∧
      handed = cacheBuffers (.conn rest)
        (r.matchRule { metadata with network := "tcp" } (.stream conn)).state.buffers := by
  obtain ⟨rest, input, _⟩ := r.matchRule_streamInv { metadata with network := "tcp" } conn
  refine ⟨rest, input, ?_⟩
  have handOver_eq : ∀ (result : MatchResult) (choice : Except String Outbound),
      handOver result rest choice = .outbound outbound handed passed →
      handed = cacheBuffers (.conn rest) result.state.buffers := by
    intro result choice hchoice
    cases choice with
    | error text => cases hchoice
    | ok chosen => cases hchoice; rfl
  -- of all the ways `routeConnection` ends, those through `handOver` reach an outbound
  unfold routeConnection at h
  split at h
  · split at h
    · cases h
    · split at h <;> cases h
  · simp only at h
    split at h
    · cases h
    split at h
    · cases h
    rw [input] at h
    split at h
    · cases h
    · rename_i conn' _ hconn
      cases hconn
      unfold dispatch at h
      split at h
      · exact handOver_eq _ _ h
      · split at h
        · exact handOver_eq _ _ h
        · exact handOver_eq _ _ h
        · split at h <;> cases h
        · cases h
        · cases h
    · cases h

/-- The outbound reads what the client sent if at most one sniff action read
something; and in general exactly if the buffers spell the same bytes backwards,
buffer by buffer. -/
theorem routeConnection_replay (metadata passed : InboundContext) (conn : List ConnEvent)
    (outbound : Outbound) (handed : CachedConn)
    (h : r.routeConnection metadata conn = .outbound outbound handed passed) :
    (r.ReadsOnce { metadata with network := "tcp" } conn →
      handed.bytes = ConnEvent.bytes conn) ∧
    (handed.bytes = ConnEvent.bytes conn ↔
      (r.matchRule { metadata with network := "tcp" } (.stream conn)).state.buffers.reverse.flatten =
        (r.matchRule { metadata with network := "tcp" } (.stream conn)).state.buffers.flatten) := by
  obtain ⟨rest, input, rfl⟩ := r.routeConnection_outbound h
  obtain ⟨rest', input', account⟩ := r.matchRule_streamInv { metadata with network := "tcp" } conn
  rw [input] at input'
  cases input'
  have exact_iff := bytes_cacheBuffers (.conn rest)
    (r.matchRule { metadata with network := "tcp" } (.stream conn)).state.buffers
  rw [exact_iff, ← account]
  refine ⟨?_, append_left_inj _⟩
  intro once
  have atMostOne := r.matchRule_readsOnce _ conn once
  cases hbuffers :
      (r.matchRule { metadata with network := "tcp" } (.stream conn)).state.buffers with
  | nil => rfl
  | cons buffer more =>
    rw [hbuffers, length_cons] at atMostOne
    have noMore : more = [] := eq_nil_of_length_eq_zero (by omega)
    rw [noMore]
    rfl

end Router

/-! ### A request in two reads -/

def ascii (text : String) : List UInt8 := text.toList.map fun c => c.toNat.toUInt8

/-- `sniff(tls)`: what is no TLS record is refused. -/
def sniffTLS : RuleActionSniff :=
  { snifferNames := ["tls"]
    streamSniffers :=
      [fun metadata _ =>
        (metadata, some ⟨false, "tls: first record does not look like a TLS handshake"⟩)] }

/-- `sniff(http)`: a request is accepted once its header is complete. -/
def sniffHTTP : RuleActionSniff :=
  { snifferNames := ["http"]
    streamSniffers :=
      [fun metadata reader =>
        if reader.flatten = ascii "GET / HTTP/1.1\r\nHost: a\r\n\r\n" then
          ({ metadata with protocol := "http", domain := "a" }, none)
        else (metadata, some ⟨true, "need more data"⟩)] }

def direct : Outbound := ⟨"direct", ["tcp", "udp"]⟩

/-- A router that sniffs every connection with the given actions, in order. -/
def sniffingRouter (actions : List RuleActionSniff) : Router where
  rules := actions.map fun action => ⟨fun _ => true, .sniff action⟩
  prepareMatchMetadata := .ok
  dnsTransport _ := false
  lookup _ _ := .ok []
  isDomainName domain := domain != ""
  isDomain addr := addr.fqdn != ""
  defaultStreamSniffers := []
  defaultPacketSniffers := []
  quicClientHello metadata _ := (metadata, some ⟨false, "bad type byte"⟩)
  packetSize := 16384
  outbound _ := none
  defaultOutbound := direct
  inbound _ := none
  muxDestination := "sp.mux.sing-box.arpa"
  vmessMuxDestination := "v1.mux.cool"
  uotMagicAddress := "sp.v2.udp-over-tcp.arpa"
  uotLegacyMagicAddress := "sp.udp-over-tcp.arpa"

/-- The request line comes first, the host in a second read. -/
def requestInTwoReads : List ConnEvent :=
  [.read (ascii "GET / HTTP/1.1\r\n") false, .read (ascii "Host: a\r\n\r\n") false]

def toWebServer : InboundContext := { destination := { fqdn := "a", port := 80 } }

/-- Sniffed for TLS and then for HTTP, the request reaches the outbound with its
second line in front of the first. -/
theorem routeConnection_swaps_reads :
    ∃ handed passed,
      (sniffingRouter [sniffTLS, sniffHTTP]).routeConnection toWebServer requestInTwoReads =
        .outbound direct handed passed ∧
      handed.bytes = ascii "Host: a\r\n\r\nGET / HTTP/1.1\r\n" ∧
      handed.bytes ≠ ConnEvent.bytes requestInTwoReads :=
  ⟨_, _, rfl, by decide, by decide⟩

/-- In the other order the HTTP action reads all of it and the TLS action is
skipped, since the protocol is known. -/
theorem routeConnection_keeps_one_buffer :
    ∃ handed passed,
      (sniffingRouter [sniffHTTP, sniffTLS]).routeConnection toWebServer requestInTwoReads =
        .outbound direct handed passed ∧
      handed.bytes = ConnEvent.bytes requestInTwoReads := by
  refine ⟨_, _, rfl, ?_⟩
  apply ((sniffingRouter [sniffHTTP, sniffTLS]).routeConnection_replay
    toWebServer _ requestInTwoReads direct _ rfl).1
  intro prepared hprepared
  cases hprepared
  refine ⟨fun _ _ _ _ => .inl rfl, ?_⟩
  refine ⟨?_, trivial⟩
  intro action conn hsniff
  cases hsniff

/-! ## Packets -/

namespace Router

variable (r : Router)

/-- The buffered packets and those still to come are what the client sends. -/
def PacketInv (sent : List PacketBuffer) (state : MatchState) : Prop :=
  ∃ conn, state.input = .packet conn ∧ state.packetBuffers ++ PacketEvent.packets conn = sent

/-- More packets are accounted for than the client sends. -/
def PacketSurplus (sent : List PacketBuffer) (state : MatchState) : Prop :=
  ∃ conn, state.input = .packet conn ∧
    sent.length < (state.packetBuffers ++ PacketEvent.packets conn).length

/-- The turn's sniff action reads on: no buffered packet settles it. -/
def readsOn (state : MatchState) (rule : Rule) : Bool :=
  match sniffs state rule with
  | some action =>
      (r.sniffBuffered action state.packetBuffers state.metadata.resetRuleCache).2.isNone
  | none => false

/-- The read loop appends what it takes from the connection. -/
theorem sniffRead_packets (action : RuleActionSniff) (conn : List PacketEvent)
    (metadata : InboundContext) (packetBuffers : List PacketBuffer) :
    ∃ new rest,
      (r.sniffRead action conn metadata packetBuffers).input = .packet rest ∧
      (r.sniffRead action conn metadata packetBuffers).packetBuffers = packetBuffers ++ new ∧
      (r.sniffRead action conn metadata packetBuffers).buffer = none ∧
      new ++ PacketEvent.packets rest = PacketEvent.packets conn := by
  induction conn generalizing metadata packetBuffers with
  | nil => exact ⟨[], [], rfl, (append_nil _).symm, rfl, rfl⟩
  | cons event rest ih =>
    cases event with
    | timeout | error | done => exact ⟨[], rest, rfl, (append_nil _).symm, rfl, rfl⟩
    | packet p =>
      unfold sniffRead
      split
      · exact ⟨[p], rest, rfl, rfl, rfl, rfl⟩
      · rename_i metadata' err _
        split
        · -- more data is wanted: the rest of the loop appends to a list that ends in `p`
          obtain ⟨new, rest', input, buffers, noBuffer, account⟩ :=
            ih metadata' (packetBuffers ++ [p])
          refine ⟨p :: new, rest', input, ?_, noBuffer, ?_⟩
          · rw [buffers, append_assoc]
            rfl
          · rw [cons_append, account]
            rfl
        · exact ⟨[p], rest, rfl, rfl, rfl, rfl⟩

/-- The state a sniff turn leaves, whether or not it stops the loop. -/
theorem state_sniffStep {action : RuleActionSniff} (state : MatchState) {out : SniffOutcome}
    (h : r.actionSniff action state.metadata state.input state.buffers state.packetBuffers = out)
    (noBuffer : out.buffer = none) :
    (r.sniffStep action state).state.input = out.input ∧
    (r.sniffStep action state).state.packetBuffers = state.packetBuffers ++ out.packetBuffers := by
  unfold sniffStep
  rw [h]
  simp only [noBuffer]
  cases out.fatalErr with
  | none | some err => exact ⟨rfl, rfl⟩

/-- Everything a turn does to packets: it may take some from the connection, and
if its action reads on it first repeats the buffered ones. -/
theorem matchStep_packets (state : MatchState) (item : Rule × Nat) {conn : List PacketEvent}
    (input : state.input = .packet conn) :
    ∃ new rest,
      (r.matchStep state item).state.input = .packet rest ∧
      (r.matchStep state item).state.packetBuffers =
        state.packetBuffers ++
          ((if r.readsOn state item.1 then state.packetBuffers else []) ++ new) ∧
      new ++ PacketEvent.packets rest = PacketEvent.packets conn := by
  obtain ⟨rule, index⟩ := item
  unfold readsOn
  cases hsniff : sniffs state rule with
  | none =>
    obtain ⟨sameInput, _, samePackets⟩ := r.matchStep_frame index hsniff
    exact ⟨[], conn, sameInput.trans input, by simpa using samePackets, rfl⟩
  | some action =>
    obtain ⟨step, active⟩ := r.matchStep_sniff index hsniff
    have out : r.actionSniff action state.metadata.resetRuleCache state.input state.buffers
        state.packetBuffers =
          r.actionSniffPacket action state.metadata.resetRuleCache conn state.packetBuffers := by
      rw [input] at active ⊢
      simp [actionSniff, active]
    rw [step]
    cases hbuffered :
        r.sniffBuffered action state.packetBuffers state.metadata.resetRuleCache with
    | mk metadata settled =>
      cases settled with
      | none =>
        -- the read loop starts from a copy of the buffered packets, and returns it with the rest
        obtain ⟨new, rest, restInput, buffers, noBuffer, account⟩ :=
          r.sniffRead_packets action conn metadata state.packetBuffers
        rw [actionSniffPacket, hbuffered] at out
        obtain ⟨input', packets'⟩ := r.state_sniffStep
          { state with metadata := state.metadata.resetRuleCache } out noBuffer
        refine ⟨new, rest, input'.trans restInput, ?_, account⟩
        rw [packets', buffers]
        simp [hbuffered]
      | some answer =>
        -- a buffered packet settled it: nothing is read, and nothing returned
        have settledOut : ∃ metadata', r.actionSniff action state.metadata.resetRuleCache
            state.input state.buffers state.packetBuffers =
              { metadata := metadata', input := .packet conn } := by
          rw [out, actionSniffPacket, hbuffered]
          cases answer with
          | none | some err => exact ⟨_, rfl⟩
        obtain ⟨metadata', settledOut⟩ := settledOut
        obtain ⟨input', packets'⟩ := r.state_sniffStep
          { state with metadata := state.metadata.resetRuleCache } settledOut rfl
        refine ⟨[], conn, input', ?_, rfl⟩
        rw [packets']
        simp [hbuffered]

/-- The turn's action does not read on with packets already buffered. -/
def ReadsFresh (state : MatchState) (item : Rule × Nat) : Prop :=
  state.packetBuffers = [] ∨ r.readsOn state item.1 = false

variable {sent : List PacketBuffer}

theorem matchStep_packetInv (state : MatchState) (item : Rule × Nat) (inv : PacketInv sent state)
    (fresh : r.ReadsFresh state item) : PacketInv sent (r.matchStep state item).state := by
  obtain ⟨conn, input, account⟩ := inv
  obtain ⟨new, rest, input', packets', account'⟩ := r.matchStep_packets state item input
  have nothingTwice : (if r.readsOn state item.1 then state.packetBuffers else []) = [] := by
    rcases fresh with empty | settled
    · rw [empty, ite_self]
    · rw [settled]
      rfl
  rw [nothingTwice, nil_append] at packets'
  refine ⟨rest, input', ?_⟩
  rw [packets', append_assoc, account', account]

/-- Reading on with packets buffered counts them twice. -/
theorem matchStep_surplus (state : MatchState) (item : Rule × Nat) (inv : PacketInv sent state)
    (stale : ¬ r.ReadsFresh state item) : PacketSurplus sent (r.matchStep state item).state := by
  obtain ⟨conn, input, account⟩ := inv
  obtain ⟨new, rest, input', packets', account'⟩ := r.matchStep_packets state item input
  unfold ReadsFresh at stale
  push Not at stale
  obtain ⟨buffered, readsOn⟩ := stale
  have positive : 0 < state.packetBuffers.length := length_pos_iff.mpr buffered
  have reads : r.readsOn state item.1 = true := by simpa using readsOn
  refine ⟨rest, input', ?_⟩
  have length' := congrArg length account'
  rw [packets', reads, if_pos rfl, ← account]
  simp only [length_append] at length' ⊢
  omega

/-- No later turn takes a packet back. -/
theorem matchStep_surplus_stays (state : MatchState) (item : Rule × Nat)
    (surplus : PacketSurplus sent state) : PacketSurplus sent (r.matchStep state item).state := by
  obtain ⟨conn, input, more⟩ := surplus
  obtain ⟨new, rest, input', packets', account'⟩ := r.matchStep_packets state item input
  refine ⟨rest, input', ?_⟩
  have length' := congrArg length account'
  rw [packets']
  simp only [length_append] at length' more ⊢
  omega

theorem PacketInv.not_surplus (state : MatchState) (inv : PacketInv sent state) :
    ¬ PacketSurplus sent state := by
  rintro ⟨conn, input, more⟩
  obtain ⟨conn', input', account⟩ := inv
  rw [input] at input'
  cases input'
  rw [account] at more
  exact Nat.lt_irrefl _ more

/-- `matchRule` returns every packet it read once and in order exactly if no sniff
action of its run reads on with packets already buffered. -/
theorem matchRule_packets_iff (metadata : InboundContext) (conn : List PacketEvent) :
    PacketInv (PacketEvent.packets conn) (r.matchRule metadata (.packet conn)).state ↔
      ∀ prepared, r.prepareMatchMetadata metadata = .ok prepared →
        Along r.matchStep r.ReadsFresh { metadata := prepared, input := .packet conn }
          r.rules.zipIdx := by
  unfold matchRule
  cases r.prepareMatchMetadata metadata with
  | error err =>
    refine ⟨?_, fun _ => ⟨conn, rfl, rfl⟩⟩
    intro _ prepared hprepared
    cases hprepared
  | ok prepared =>
    simp only [MatchResult.state_ofLoop, Except.ok.injEq, forall_eq']
    exact (along_iff_invariant_end (PacketInv (PacketEvent.packets conn))
      (PacketSurplus (PacketEvent.packets conn)) r.matchStep_packetInv r.matchStep_surplus
      r.matchStep_surplus_stays PacketInv.not_surplus
      { metadata := prepared, input := .packet conn } r.rules.zipIdx ⟨conn, rfl, rfl⟩).symm

end Router

/-! ### A client hello in two packets -/

/-- `sniff(stun)`: a packet without the magic cookie is refused. -/
def sniffSTUN : RuleActionSniff :=
  { snifferNames := ["stun"]
    packetSniffers := [fun metadata _ => (metadata, some ⟨false, "invalid argument"⟩)] }

/-- A client hello over two packets: the first alone is not enough. -/
def helloFragment (n : UInt8) : PacketBuffer :=
  ⟨[0xc3, 0, 0, 0, 1, n], { fqdn := "a", port := 443 }⟩

/-- `QUICClientHello` on these packets. The protocol is written even if more is needed. -/
def quicOnFragments : PacketSniffer := fun metadata packet =>
  let metadata := { metadata with protocol := "quic" }
  if packet = (helloFragment 1).buffer then (metadata, some ⟨true, "need more data"⟩)
  else ({ metadata with domain := "a" }, none)

def sniffQUIC : RuleActionSniff :=
  { snifferNames := ["quic"], packetSniffers := [quicOnFragments] }

def quicRouter (actions : List RuleActionSniff) : Router :=
  { sniffingRouter actions with quicClientHello := quicOnFragments }

def helloInTwoPackets : List PacketEvent :=
  [.packet (helloFragment 1), .packet (helloFragment 2)]

/-- Sniffed for STUN and then for QUIC, the first packet is returned twice. -/
theorem matchRule_duplicates_packet :
    ((quicRouter [sniffSTUN, sniffQUIC]).matchRule {} (.packet helloInTwoPackets)).fatalErr = none ∧
    ((quicRouter [sniffSTUN, sniffQUIC]).matchRule {} (.packet helloInTwoPackets)).state.packetBuffers =
      [helloFragment 1, helloFragment 1, helloFragment 2] ∧
    ((quicRouter [sniffSTUN, sniffQUIC]).matchRule {} (.packet helloInTwoPackets)).state.packetBuffers ≠
      PacketEvent.packets helloInTwoPackets := by
  decide

end SingBox.Route
