import SingBox.Dns.Served

/-!
# What the cache changes

A cached answer was treated with the options of the call that stored it: hints of HTTPS
records were filtered by its strategy, the TTL was rewritten by it. It is stored with its OPT
records, which a fresh exchange takes out for a request without EDNS. `Exchange` does not use
the cache for a call with a client subnet, `Lookup` looks into it all the same.

* `SameAnswer` — answers with the same records; what is made of them agrees too;
* `Exchange_transparent` — what a call returns has the records of a fresh exchange, aged, if the
  calls that share its cache key have the options alike that matter, a call for an answer with an
  OPT record has EDNS, and a lookup has no client subnet.
-/

namespace SingBox.Dns.Client

open Lib Lib.Bolt Cachefile List

/-! ## Answers that agree -/

structure SameAnswer (a b : Msg) : Prop where
  rcode : a.rcode = b.rcode
  answer : a.answer = b.answer
  ns : a.ns = b.ns
  extra : a.extra = b.extra

namespace SameAnswer

variable {a b : Msg} (same : SameAnswer a b)

include same

theorem stripHints (question : Question) (strategy : DomainStrategy) :
    SameAnswer (stripHints question strategy a) (stripHints question strategy b) := by
  unfold Client.stripHints
  split
  · exact ⟨same.rcode, congrArg (map (filterHints strategy)) same.answer, same.ns, same.extra⟩
  · exact same

theorem responseTTL (options : QueryOptions) :
    responseTTL options a = responseTTL options b := by
  simp only [Client.responseTTL, Msg.computeTimeToLive, Msg.extractNegativeTTL, Msg.allRecords,
    same.answer, same.ns, same.extra]

theorem fitEDNS (message : Msg) : SameAnswer (fitEDNS message a) (fitEDNS message b) := by
  have edns : a.isEdns0 = b.isEdns0 := by rw [Msg.isEdns0, same.extra, Msg.isEdns0]
  have filtered := congrArg (filter fun it => !it.isOPT) same.extra
  unfold Dns.fitEDNS
  rw [edns]
  split
  · exact ⟨same.rcode, same.answer, same.ns, filtered⟩
  · split
    · exact ⟨same.rcode, same.answer, same.ns, congrArg (· ++ _) filtered⟩
    · exact same
  · exact same

end SameAnswer

/-! ## Ageing -/

/-- The same record, with a TTL that is not longer; that of an OPT record is no time. -/
def Aged (rr fresh : RR) : Prop :=
  rr = fresh ∨ rr.isOPT = false ∧ rr.withTTL 0 = fresh.withTTL 0 ∧ rr.hdr.ttl ≤ fresh.hdr.ttl

/-- The same response code and records, aged. -/
def AgedFrom (response fresh : Msg) : Prop :=
  response.rcode = fresh.rcode ∧ Forall₂ Aged response.answer fresh.answer ∧
    Forall₂ Aged response.ns fresh.ns ∧ Forall₂ Aged response.extra fresh.extra

instance (rr fresh : RR) : Decidable (Aged rr fresh) := inferInstanceAs (Decidable (_ ∨ _))

instance (response fresh : Msg) : Decidable (AgedFrom response fresh) :=
  inferInstanceAs (Decidable (_ ∧ _))

theorem AgedFrom.refl (m : Msg) : AgedFrom m m := by
  refine ⟨rfl, ?_, ?_, ?_⟩ <;> exact forall₂_same.mpr fun _ _ => .inl rfl

theorem SameAnswer.aged {a b : Msg} (same : SameAnswer a b) {ttl timeToLive : UInt32}
    (le : ttl ≤ timeToLive) : AgedFrom (a.normalizeTTL ttl) (b.normalizeTTL timeToLive) := by
  have records (section_ : List RR) : Forall₂ Aged (section_.map (RR.normalizeTTL ttl))
      (section_.map (RR.normalizeTTL timeToLive)) := by
    rw [forall₂_map_left_iff, forall₂_map_right_iff]
    refine forall₂_same.mpr fun rr _ => ?_
    unfold RR.normalizeTTL
    cases opt : rr.isOPT with
    | true => exact .inl rfl
    | false => exact .inr ⟨opt, rfl, le⟩
  unfold Msg.normalizeTTL Msg.mapRecords
  rw [same.answer, same.ns, same.extra]
  exact ⟨same.rcode, records _, records _, records _⟩

/-! ## Fresh exchanges -/

/-- What the transports answer, by transport, question and client subnet. -/
abbrev Upstream := String → Question → Option EdnsOption → Msg

section Transparent

variable (upstream : Upstream) (c : Config)

def Job.upstreamAnswer (job : Job) : Msg :=
  stripDNSPadding (upstream job.query.transportTag job.question (job.prepared c).clientSubnet)

/-- What an exchange without a cache returns. -/
def Job.fresh (job : Job) : Msg :=
  if job.message.question = [] then FixedResponseStatus job.message rcodeFormatError
  else if job.strategyRejected then FixedResponseStatus job.message rcodeSuccess
  else job.delivered c (job.upstreamAnswer upstream c)

/-- A transport that gives the answer, with any id and flags. -/
def AnswersAs (job : Job) (response : Msg) : Prop :=
  SameAnswer response (job.upstreamAnswer upstream c)

theorem Job.fresh_of_asks {job : Job} (asks : job.Asks) :
    job.fresh upstream c = job.delivered c (job.upstreamAnswer upstream c) := by
  simp [Job.fresh, asks.1, asks.2]

/-- The part of a strategy that HTTPS answers depend on. -/
def hintStrategy : DomainStrategy → DomainStrategy
  | .ipv4Only => .ipv4Only
  | .ipv6Only => .ipv6Only
  | _ => .asIS

theorem stripHints_congr {question : Question} {strategy strategy' : DomainStrategy}
    (same : question.qtype = typeHTTPS → hintStrategy strategy = hintStrategy strategy')
    (response : Msg) : stripHints question strategy response =
      stripHints question strategy' response := by
  by_cases https : question.qtype = typeHTTPS
  · have same := same https
    cases strategy <;> cases strategy' <;> simp_all [stripHints, hintStrategy]
  · simp [stripHints, https]

/-- The HTTPS records of a response have only hints that the strategy keeps. -/
def HintsFit (strategy : DomainStrategy) (response : Msg) : Prop :=
  ∀ rr ∈ response.answer, ∀ priority target values, rr.data = .https priority target values →
    ∀ value ∈ values, keepsHint strategy value

theorem hintsFit_stripHints {question : Question} (https : question.qtype = typeHTTPS)
    (strategy : DomainStrategy) (response : Msg) :
    HintsFit strategy (stripHints question strategy response) := by
  intro rr mem priority target values data value isValue
  unfold stripHints at mem
  split at mem
  · obtain ⟨before, _, rfl⟩ := mem_map.mp mem
    unfold filterHints at data
    split at data
    · cases data
      exact (mem_filter.mp isValue).2
    · rename_i other
      exact absurd data (other _ _ _)
  · rename_i keepsAll
    simp only [https, true_and, not_or] at keepsAll
    cases value <;> simp [keepsHint, keepsAll]

theorem HintsFit.normalizeTTL {strategy : DomainStrategy} {response : Msg}
    (fit : HintsFit strategy response) (ttl : UInt32) :
    HintsFit strategy (response.normalizeTTL ttl) := by
  intro rr mem priority target values data
  obtain ⟨before, isBefore, rfl⟩ := mem_map.mp mem
  refine fit before isBefore priority target values ?_
  unfold RR.normalizeTTL at data
  split at data <;> exact data

variable {κ τ ι : Type} (store : CacheStore κ τ ι) (C : Job → Prop)

/-- A call that may use the cache keeps the OPT records of its answer, and the calls that share its
cache key ask the same question, with options that make the same of an answer. -/
def Alike (job : Job) : Prop :=
  job.usesCache c → KeepsOPT (job.prepared c) (job.upstreamAnswer upstream c) ∧
  ∀ other, C other → other.usesCache c →
    store.key other.question other.query.transportTag =
      store.key job.question job.query.transportTag →
    other.question = job.question ∧
    (job.question.qtype = typeHTTPS →
      hintStrategy other.options.strategy = hintStrategy job.options.strategy) ∧
    other.options.rewriteTTL = job.options.rewriteTTL ∧
    (other.viaLookup → other.options.clientSubnet.isValid = false)

/-- A call of a lookup asks, and its message has no additional records. -/
def LookupOk (job : Job) : Prop := job.viaLookup → job.Asks ∧ job.message.extra = []

/-- The records of a fresh exchange, aged, and no hint that the strategy filters. -/
structure ReturnsFresh (job : Job) (response : Msg) : Prop where
  aged : AgedFrom response (job.fresh upstream c)
  hints : job.question.qtype = typeHTTPS → HintsFit job.options.strategy response

variable {upstream c store C}

/-- A call that may use the cache of a client without a subnet asks without one. -/
theorem clientSubnet_prepared {job : Job} (uses : job.usesCache c)
    (plain : c.clientSubnet.isValid = false) (lookup : LookupOk job)
    (own : job.viaLookup → job.options.clientSubnet.isValid = false) :
    (job.prepared c).clientSubnet = none := by
  simp only [Job.usesCache, Bool.and_eq_true, Bool.or_eq_true] at uses
  rcases uses.2 with viaLookup | simple
  · have noExtra := (lookup viaLookup).2
    have invalid := own viaLookup
    simp [Job.prepared, prepareExchangeMessage, invalid, plain, Msg.clientSubnet, noExtra]
  · simp only [Job.isSimpleRequest, Bool.and_eq_true] at simple
    exact clientSubnet_of_simple simple.1

theorem guarantee_aged (lookups : ∀ job, C job → LookupOk job)
    (key_tag : ∀ {q q' : Question} {t t' : String}, store.key q t = store.key q' t' → t = t') :
    Guarantee store c C (AnswersAs upstream c) fun job result =>
      ∀ response, result = ⟨some response, none⟩ → Alike upstream c store C job →
        ReturnsFresh upstream c job response where
  error _ _ _ _ eq := nomatch congrArg Result.err eq
  noQuestion job _ none _ eq _ := by
    cases eq
    exact ⟨by simp [Job.fresh, none, AgedFrom.refl], fun _ _ mem => nomatch mem⟩
  strategy job _ some rejected _ eq _ := by
    cases eq
    exact ⟨by simp [Job.fresh, some, rejected, AgedFrom.refl], fun _ _ mem => nomatch mem⟩
  cached job body timeToLive ttl id member uses asks filled le _ eq alike := by
    cases eq
    obtain ⟨other, response, otherMember, otherUses, plain, sameKey, answers, _, rfl, rfl⟩ := filled
    obtain ⟨keepsOPT, alike⟩ := alike uses
    obtain ⟨sameQuestion, sameHints, sameTTL, otherOwn⟩ := alike other otherMember otherUses sameKey
    obtain ⟨_, _, _, own⟩ := alike job member uses rfl
    have asks : job.Asks :=
      asks.elim (fun viaLookup => (lookups job member viaLookup).1) fun asks => asks
    -- both calls ask for the same answer
    have same : SameAnswer response (job.upstreamAnswer upstream c) := by
      have none := clientSubnet_prepared uses plain (lookups job member) own
      have otherNone := clientSubnet_prepared otherUses plain (lookups other otherMember) otherOwn
      unfold AnswersAs Job.upstreamAnswer at answers
      rwa [otherNone, sameQuestion, key_tag sameKey, ← none] at answers
    rw [sameQuestion, stripHints_congr sameHints] at le ⊢
    refine ⟨?_, fun https => (hintsFit_stripHints https _ response).normalizeTTL ttl⟩
    have stripped := same.stripHints job.question job.options.strategy
    have kept : KeepsOPT (job.prepared c)
        (stripHints job.question job.options.strategy (job.upstreamAnswer upstream c)) := by
      rwa [KeepsOPT, Msg.isEdns0, extra_stripHints]
    rw [Job.fresh_of_asks upstream c asks, Job.delivered_eq, fitEDNS_of_keepsOPT kept]
    refine stripped.aged ?_
    rw [← stripped.responseTTL]
    simpa [responseTTL, sameTTL] using le
  fresh job response _ asks answers _ _ eq _ := by
    cases eq
    have stripped := answers.stripHints job.question job.options.strategy
    constructor
    case hints =>
      intro https rr mem
      rw [Job.delivered_eq, ← fitEDNS_normalizeTTL, Msg.answer_withId, answer_fitEDNS] at mem
      exact (hintsFit_stripHints https _ response).normalizeTTL _ rr mem
    rw [Job.fresh_of_asks upstream c asks, Job.delivered_eq, Job.delivered_eq,
      stripped.responseTTL]
    exact (stripped.fitEDNS (job.prepared c)).aged (UInt32.le_refl _)

end Transparent

/-! ## Runs -/

section Runs

variable {κ τ ι : Type} {store : CacheStore κ τ ι} {start : τ}

theorem lookupOk_of_mem {request : Request} {job : Job} (mem : job ∈ request.jobs) :
    LookupOk job := by
  intro viaLookup
  cases request with
  | exchange query message =>
    obtain rfl : job = ⟨query, message, false⟩ := by simpa [Request.jobs] using mem
    cases viaLookup
  | lookup query domain =>
    simp only [Request.jobs] at mem
    generalize strategy : query.options.forLookup = chosen at mem
    cases chosen <;> simp only [mem_cons, not_mem_nil, or_false] at mem
    case ipv4Only | ipv6Only => subst mem; exact ⟨⟨nofun, rfl⟩, rfl⟩
    all_goals rcases mem with rfl | rfl <;> exact ⟨⟨nofun, rfl⟩, rfl⟩

/-- Along every run over a store whose transports give every call the answer for its question
and its client subnet: what a call returns is what a fresh exchange would, aged, if calls that
share its cache key are alike. -/
def Transparent (store : CacheStore κ τ ι) (start : τ) : Prop :=
  ∀ (upstream : Upstream) (c : Config) (now : Int) (labels : List (Label ι)) (s : State τ),
    0 ≤ now → now + 2 ^ 32 * second < 2 ^ 63 * second →
    Through (step store c) (Allowed c (Called labels) (AnswersAs upstream c))
      (State.start start now) labels →
    steps (step store c) (State.start start now) labels = some s →
    ∀ id job response owns,
      s.threads id = some ⟨job, .returned ⟨some response, none⟩, owns⟩ →
      Alike upstream c store (Called labels) job → ReturnsFresh upstream c job response

theorem transparent_of_lawful (lawful : store.Lawful start) : Transparent store start := by
  intro upstream c now labels s epoch range allowed run id job response owns returned alike
  have lookups : ∀ job, Called labels job → LookupOk job :=
    fun _ ⟨_, _, _, isJob⟩ => lookupOk_of_mem isJob
  have good := returned_of_guarantee lawful (guarantee_aged lookups lawful.key_tag) epoch range
    allowed run returned
  exact good.2.2 response rfl alike

end Runs

/-- With the memory cache, and with the cache file whose database has no responses at first. -/
theorem Exchange_transparent (codec : Codec) (cacheID : Option Bytes) (db : DB) :
    Transparent memoryStore (fun _ => none) ∧
    ((∀ key, loadDB cacheID db key = none) →
      Transparent (persistentStore codec) (Sys.start cacheID db)) :=
  ⟨transparent_of_lawful memoryLawful,
    fun empty => transparent_of_lawful (persistentLawful codec cacheID db empty)⟩

/-- An HTTPS answer with a hint of each family. -/
def httpsAnswer (question : Question) : Msg where
  response := true
  question := [question]
  answer := [⟨⟨question.name, typeHTTPS, classINET, 60⟩,
    .https 1 "." [.ipv4Hint [.v4 0x01010101#32], .ipv6Hint [.v6 0x1#128 []]]⟩]

/-- The second of two calls for HTTPS with the same strategy returns what the first stored. -/
theorem Exchange_transparent_twice :
    let question : Question := ⟨"example.com.", typeHTTPS, classINET⟩
    let message : Msg := { id := 7, question := [question] }
    let query : Query := { transportTag := "remote", options := { strategy := .ipv4Only } }
    let upstream : Upstream := fun _ question _ => httpsAnswer question
    let labels : List (Label MemoryLabel) :=
      .call 0 (.exchange query message) :: answeredCall (0, 0) (httpsAnswer question) ++
      .call 1 (.exchange query message) :: cachedCall (1, 0)
    ∃ s job response owns,
      steps (step memoryStore {}) (State.start (fun _ => none) 0) labels = some s ∧
      s.threads (1, 0) = some ⟨job, .returned ⟨some response, none⟩, owns⟩ ∧
      ReturnsFresh upstream {} job response := by
  intro question message query upstream labels
  obtain ⟨s, job, response, owns, run, returned, isJob⟩ : ∃ s job response owns,
      steps (step memoryStore {}) (State.start (fun _ => none) 0) labels = some s ∧
      s.threads (1, 0) = some ⟨job, .returned ⟨some response, none⟩, owns⟩ ∧
      job = ⟨query, message, false⟩ := ⟨_, _, _, _, rfl, rfl, rfl⟩
  refine ⟨s, job, response, owns, run, returned, ?_⟩
  subst isJob
  have called : ∀ job, Called labels job ↔ job = ⟨query, message, false⟩ := by
    simp [labels, answeredCall, cachedCall, Request.jobs]
  have alike : Alike upstream {} memoryStore (Called labels) ⟨query, message, false⟩ := by
    refine fun _ => ⟨nofun, fun other isCall _ _ => ?_⟩
    cases (called other).mp isCall
    exact ⟨rfl, fun _ => rfl, rfl, nofun⟩
  have isCalled : ∀ job ∈ (Request.exchange query message).jobs, Called labels job :=
    fun job isJob => (called job).mpr (mem_singleton.mp isJob)
  have allowed : Through (step memoryStore {}) (Allowed {} (Called labels) (AnswersAs upstream {}))
      (State.start (fun _ => none) 0) labels := by
    refine through_cons isCalled rfl ?_
    refine through_answeredCall rfl rfl rfl ⟨rfl, rfl, rfl, rfl⟩ rfl ?_
    exact through_cons isCalled rfl (through_cons trivial rfl (through_cons trivial rfl trivial))
  exact (Exchange_transparent default none .empty).1 upstream {} 0 labels s (by decide) (by decide)
    allowed run (1, 0) _ response owns returned alike

/-- A call without a strategy gets the HTTPS answer that a call for IPv4 only stored, without
its IPv6 hint; a lookup with a client subnet gets the address for no subnet; and a call without
EDNS gets the OPT record that a call with EDNS stored. -/
theorem Exchange_not_transparent :
    let upstream : Upstream := fun _ question subnet =>
      if question.qtype = typeHTTPS then httpsAnswer question
      else addressAnswer question (if subnet.isSome then 0x02020202#32 else 0x01010101#32)
    let only4 : Query := { transportTag := "remote", options := { strategy := .ipv4Only } }
    (let question : Question := ⟨"example.com.", typeHTTPS, classINET⟩
    let message : Msg := { question := [question] }
    let labels : List (Label MemoryLabel) :=
      .call 0 (.exchange only4 message) :: answeredCall (0, 0) (httpsAnswer question) ++
      .call 1 (.exchange { transportTag := "remote" } message) :: cachedCall (1, 0)
    Through (step memoryStore {}) (Allowed {} (Called labels) (AnswersAs upstream {}))
      (State.start (fun _ => none) 0) labels ∧
    ∃ s job response owns,
      steps (step memoryStore {}) (State.start (fun _ => none) 0) labels = some s ∧
      s.threads (1, 0) = some ⟨job, .returned ⟨some response, none⟩, owns⟩ ∧
      ¬ AgedFrom response (job.fresh upstream {})) ∧
    (let subnet : Query :=
      { only4 with options := { only4.options with clientSubnet := .v4 0x0a000000#32 8 } }
    let answer := addressAnswer ⟨"example.com.", typeA, classINET⟩ 0x01010101#32
    let labels : List (Label MemoryLabel) :=
      .call 0 (.lookup only4 "example.com") :: .move (0, 0) .questionCache ::
        answeredCall (0, 0) answer ++
      [.call 1 (.lookup subnet "example.com"), .move (1, 0) .questionCache]
    Through (step memoryStore {}) (Allowed {} (Called labels) (AnswersAs upstream {}))
      (State.start (fun _ => none) 0) labels ∧
    ∃ s job response owns,
      steps (step memoryStore {}) (State.start (fun _ => none) 0) labels = some s ∧
      s.threads (1, 0) = some ⟨job, .returned ⟨some response, none⟩, owns⟩ ∧
      ¬ AgedFrom response (job.fresh upstream {})) ∧
    (let question : Question := ⟨"example.com.", typeA, classINET⟩
    let edns : RR := ⟨⟨".", typeOPT, 1232, 0⟩, .opt []⟩
    let answer : Msg := { addressAnswer question 0x01010101#32 with extra := [edns] }
    let labels : List (Label MemoryLabel) :=
      .call 0 (.exchange { transportTag := "remote" }
          { question := [question], extra := [edns] }) ::
        answeredCall (0, 0) answer ++
      .call 1 (.exchange { transportTag := "remote" } { question := [question] }) ::
        cachedCall (1, 0)
    Through (step memoryStore {}) (Allowed {} (Called labels) (AnswersAs (fun _ _ _ => answer) {}))
      (State.start (fun _ => none) 0) labels ∧
    ∃ s job response owns,
      steps (step memoryStore {}) (State.start (fun _ => none) 0) labels = some s ∧
      s.threads (1, 0) = some ⟨job, .returned ⟨some response, none⟩, owns⟩ ∧
      ¬ AgedFrom response (job.fresh (fun _ _ _ => answer) {})) := by
  intro upstream only4
  refine ⟨?_, ?_, ?_⟩
  · intro question message labels
    refine ⟨?_, _, _, _, _, rfl, rfl, by decide⟩
    refine through_cons (fun job isJob => ⟨0, _, mem_cons_self, isJob⟩) rfl ?_
    refine through_answeredCall rfl rfl rfl ⟨rfl, rfl, rfl, rfl⟩ rfl ?_
    refine through_cons (fun job isJob => ⟨1, _, by simp [labels], isJob⟩) rfl ?_
    exact through_cons trivial rfl (through_cons trivial rfl trivial)
  · intro subnet answer labels
    refine ⟨?_, _, _, _, _, rfl, rfl, by decide⟩
    refine through_cons (fun job isJob => ⟨0, _, mem_cons_self, isJob⟩) rfl ?_
    refine through_cons trivial rfl ?_
    refine through_answeredCall rfl rfl rfl ⟨rfl, rfl, rfl, rfl⟩ rfl ?_
    refine through_cons (fun job isJob => ⟨1, _, by simp [labels], isJob⟩) rfl ?_
    exact through_cons trivial rfl trivial
  · intro question edns answer labels
    refine ⟨?_, _, _, _, _, rfl, rfl, by decide⟩
    refine through_cons (fun job isJob => ⟨0, _, mem_cons_self, isJob⟩) rfl ?_
    refine through_answeredCall rfl rfl rfl ⟨rfl, rfl, rfl, rfl⟩ rfl ?_
    refine through_cons (fun job isJob => ⟨1, _, by simp [labels], isJob⟩) rfl ?_
    exact through_cons trivial rfl (through_cons trivial rfl trivial)

end SingBox.Dns.Client
