import SingBox.Dns.Served

/-!
# Responses that a checker saw

A rule with an address limit passes a checker to the client, which refuses every answer that
the checker does not accept. The cache is shared with calls that have another checker or none,
and is read before the checker.

* `cached_accepted`, `delivered_accepted` — the two ways a response gets past it;
* `Exchange_checked` — a call returns only what its checker accepts, if the checker
  accepts whatever calls with the same cache key let pass.
-/

namespace SingBox.Dns.Client

open Lib Lib.Bolt Cachefile

/-- A DNS rule, as far as its address limit is concerned. -/
structure AddressLimitRule where
  withAddressLimit : Bool
  matchAddressLimit : InboundContext → Msg → Bool

def addressLimitResponseCheck (rule : Option AddressLimitRule) (metadata : InboundContext) :
    Option (Msg → Bool) :=
  match rule with
  | none => none
  | some rule =>
      if !rule.withAddressLimit then none
      else some fun response => rule.matchAddressLimit metadata response

/-- The checker accepts the response, up to its id and TTLs. -/
def Accepts (check : Msg → Bool) (response : Msg) : Prop :=
  rcodeOk response ∧ ∃ same : Msg, same.upToIdTTL = response.upToIdTTL ∧ check same

section Checked

variable {κ τ ι : Type} (store : CacheStore κ τ ι) (c : Config) (C : Job → Prop)

/-- When the checker of a call sees all that the call returns, the other calls being in `C`. -/
structure Vetted (job : Job) (check : Msg → Bool) : Prop where
  question : job.message.question ≠ []
  /-- The empty answer for a family that the strategy excludes is not checked. -/
  strategy : job.strategyRejected → Accepts check (FixedResponseStatus job.message rcodeSuccess)
  /-- It accepts what any call that shares the cache key stores. -/
  others : job.usesCache c → ∀ other, C other → other.usesCache c →
    store.key other.question other.query.transportTag =
      store.key job.question job.query.transportTag →
    ∀ response, other.passes response →
      check (stripHints other.question other.options.strategy response)
  /-- It still accepts an answer without the hints that the strategy filters, whatever its
  pseudo-records. -/
  own : ∀ response extra, check response →
    extra.filter (fun rr => !rr.isOPT) = response.extra.filter (fun rr => !rr.isOPT) →
    check { stripHints job.question job.options.strategy response with extra }

variable {store c C} {job : Job} {check : Msg → Bool}

theorem delivered_accepted (vetted : Vetted store c C job check)
    (checker : job.query.responseChecker = some check) {response : Msg}
    (passes : job.passes response) : Accepts check (job.delivered c response) := by
  simp only [Job.passes, checker, Option.all_some, Bool.and_eq_true] at passes
  obtain ⟨extra, eq, same⟩ := fitEDNS_eq (job.prepared c)
    (stripHints job.question job.options.strategy response)
  rw [Job.delivered_eq]
  refine ⟨?_, fitEDNS (job.prepared c) (stripHints job.question job.options.strategy response),
    ?_, ?_⟩
  · simpa [rcodeOk, Msg.normalizeTTL, Msg.mapRecords] using passes.1
  · simp
  · rw [eq]
    exact vetted.own response extra passes.2 (by rw [same, extra_stripHints])

theorem cached_accepted {R : Job → Msg → Prop} (vetted : Vetted store c C job check)
    (uses : job.usesCache c) {body : Msg} {timeToLive ttl : UInt32} {id : UInt16}
    (filled : Filled store c C R (store.key job.question job.query.transportTag) body timeToLive) :
    Accepts check ((body.normalizeTTL ttl).withId id) := by
  obtain ⟨other, response, member, otherUses, _, sameKey, _, passes, rfl, _⟩ := filled
  have rcode : rcodeOk response := by
    simp only [Job.passes, Bool.and_eq_true] at passes
    exact passes.1
  refine ⟨?_, _, ?_, vetted.others uses other member otherUses sameKey response passes⟩
  · simpa [rcodeOk, Msg.normalizeTTL, Msg.mapRecords] using rcode
  · simp

/-- What a call with a checker returns without an error, its checker accepts. -/
def ReturnsAccepted (store : CacheStore κ τ ι) (c : Config) (C : Job → Prop) (job : Job)
    (result : Result) : Prop :=
  ∀ check response, job.query.responseChecker = some check → result = ⟨some response, none⟩ →
    Vetted store c C job check → Accepts check response

theorem guarantee_accepted :
    Guarantee store c C (fun _ _ => True) (ReturnsAccepted store c C) where
  error _ _ _ _ _ _ eq := nomatch congrArg Result.err eq
  noQuestion _ _ none _ _ _ _ vetted := absurd none vetted.question
  strategy _ _ _ rejected _ _ _ eq vetted := by
    cases eq
    exact vetted.strategy rejected
  cached _ _ _ _ _ _ uses _ filled _ _ _ _ eq vetted := by
    cases eq
    exact cached_accepted vetted uses filled
  fresh _ _ _ _ _ passes _ _ checker eq vetted := by
    cases eq
    exact delivered_accepted vetted checker (passes (by rw [checker]; rfl))

end Checked

/-! ## Runs -/

section Runs

variable {κ τ ι : Type} {store : CacheStore κ τ ι} {start : τ}

theorem checker_of_lookup {query : Query} {domain : String} {job : Job}
    (mem : job ∈ (Request.lookup query domain).jobs) :
    job.query.responseChecker = query.responseChecker := by
  simp only [Request.jobs] at mem
  split at mem <;> simp only [List.mem_cons, List.not_mem_nil, or_false] at mem <;> aesop

theorem mem_lookupAddresses {s : State τ} {n : Nat} {query : Query} {addr : Addr}
    (mem : addr ∈ s.lookupAddresses n query) :
    ∃ i job response owns, s.threads (n, i) = some ⟨job, .returned ⟨some response, none⟩, owns⟩ ∧
      addr ∈ MessageToAddresses response := by
  have one : ∀ i, addr ∈ s.addresses (n, i) → ∃ i job response owns,
      s.threads (n, i) = some ⟨job, .returned ⟨some response, none⟩, owns⟩ ∧
      addr ∈ MessageToAddresses response := by
    intro i mem
    unfold State.addresses at mem
    split at mem
    · rename_i job result owns returned
      unfold Result.addresses at mem
      split at mem
      · rename_i response noErr isResponse
        split at mem
        · cases mem
        obtain ⟨_, _⟩ := result
        cases noErr
        cases isResponse
        exact ⟨i, job, response, owns, returned, mem⟩
      · cases mem
    · cases mem
  unfold State.lookupAddresses at mem
  split at mem
  · exact one 0 mem
  · exact one 0 mem
  · unfold sortAddresses at mem
    split at mem <;> rcases List.mem_append.mp mem with mem | mem <;> exact one _ mem

/-- Along every run over a store: an exchange with a vetted checker returns only what the
checker accepts, and so do the addresses of a lookup come from such a response. -/
def Checked (store : CacheStore κ τ ι) (start : τ) : Prop :=
  ∀ (c : Config) (now : Int) (labels : List (Label ι)) (s : State τ),
    0 ≤ now → now + 2 ^ 32 * second < 2 ^ 63 * second →
    steps (step store c) (State.start start now) labels = some s →
    (∀ id job response owns check,
      s.threads id = some ⟨job, .returned ⟨some response, none⟩, owns⟩ →
      job.query.responseChecker = some check → Vetted store c (Called labels) job check →
      Accepts check response) ∧
    (∀ n query domain check, s.requests n = some (.lookup query domain) →
      query.responseChecker = some check →
      (∀ job ∈ (Request.lookup query domain).jobs, Vetted store c (Called labels) job check) →
      ∀ addr ∈ s.lookupAddresses n query,
        ∃ response, Accepts check response ∧ addr ∈ MessageToAddresses response)

theorem checked_of_lawful (lawful : store.Lawful start) : Checked store start := by
  intro c now labels s epoch range run
  have allowed : Through (step store c) (Allowed c (Called labels) fun _ _ => True)
      (State.start start now) labels := by
    refine through_of_forall fun l mem s => ?_
    cases l with
    | call n request => exact fun job isJob => ⟨n, request, mem, isJob⟩
    | move id move => cases move <;> simp [Allowed]
    | refreshed key reply flusher => simp [Allowed]
    | _ => trivial
  have returns {id job response owns}
      (returned : s.threads id = some ⟨job, .returned ⟨some response, none⟩, owns⟩) :=
    returned_of_guarantee lawful guarantee_accepted epoch range allowed run returned
  constructor
  · intro id job response owns check returned checker vetted
    exact (returns returned).2.2 check response checker rfl vetted
  · intro n query domain check called checker vetted addr mem
    obtain ⟨i, job, response, owns, returned, isAddr⟩ := mem_lookupAddresses mem
    obtain ⟨_, ⟨request, isRequest, there⟩, good⟩ := returns returned
    cases called.symm.trans isRequest
    have isJob := List.mem_of_getElem? there
    refine ⟨response, good check response ?_ rfl (vetted job isJob), isAddr⟩
    rw [checker_of_lookup isJob, checker]

end Runs

/-- With the memory cache, and with the cache file whose database has no responses at first. -/
theorem Exchange_checked (codec : Codec) (cacheID : Option Bytes) (db : DB) :
    Checked memoryStore (fun _ => none) ∧
    ((∀ key, loadDB cacheID db key = none) →
      Checked (persistentStore codec) (Sys.start cacheID db)) :=
  ⟨checked_of_lawful memoryLawful,
    fun empty => checked_of_lawful (persistentLawful codec cacheID db empty)⟩

/-- A rule for the addresses in `10.0.0.0/8`. -/
def privateOnly : AddressLimitRule where
  withAddressLimit := true
  matchAddressLimit _ response :=
    (MessageToAddresses response).all (Prefix.v4 0x0a000000#32 8).contains

/-- Both calls have the checker: the second returns what the first stored. -/
theorem Exchange_checked_twice :
    let question : Question := ⟨"example.com.", typeA, classINET⟩
    let message : Msg := { id := 7, question := [question] }
    let query : Query :=
      { transportTag := "remote"
        responseChecker := addressLimitResponseCheck (some privateOnly) {} }
    let labels : List (Label MemoryLabel) :=
      .call 0 (.exchange query message) ::
        answeredCall (0, 0) (addressAnswer question 0x0a000001#32) ++
      .call 1 (.exchange query message) :: cachedCall (1, 0)
    ∃ s job response owns,
      steps (step memoryStore {}) (State.start (fun _ => none) 0) labels = some s ∧
      s.threads (1, 0) = some ⟨job, .returned ⟨some response, none⟩, owns⟩ ∧
      Accepts (privateOnly.matchAddressLimit {}) response := by
  intro question message query labels
  obtain ⟨s, job, response, owns, run, returned, isJob⟩ : ∃ s job response owns,
      steps (step memoryStore {}) (State.start (fun _ => none) 0) labels = some s ∧
      s.threads (1, 0) = some ⟨job, .returned ⟨some response, none⟩, owns⟩ ∧
      job = ⟨query, message, false⟩ := ⟨_, _, _, _, rfl, rfl, rfl⟩
  refine ⟨s, job, response, owns, run, returned, ?_⟩
  subst isJob
  have vetted : Vetted memoryStore {} (Called labels) ⟨query, message, false⟩
      (privateOnly.matchAddressLimit {}) := by
    refine ⟨nofun, nofun, fun _ other called _ _ response passes => ?_,
      fun response extra ok _ => ?_⟩
    · have isQuery : other = ⟨query, message, false⟩ := by
        simpa [labels, answeredCall, cachedCall, Request.jobs] using called
      subst isQuery
      exact (Bool.and_eq_true_iff.mp passes).2
    · exact ok
  have checked := (Exchange_checked default none .empty).1 {} 0 labels s (by decide) (by decide) run
  exact checked.1 (1, 0) _ response owns _ returned rfl vetted

/-- A call without a checker stores an answer that a call with one then returns, though its
checker does not accept it. And no checker sees the answer to a request without a question. -/
theorem Exchange_unchecked :
    let query : Query :=
      { transportTag := "remote"
        responseChecker := addressLimitResponseCheck (some privateOnly) {} }
    (let question : Question := ⟨"example.com.", typeA, classINET⟩
    let message : Msg := { id := 7, question := [question] }
    let labels : List (Label MemoryLabel) :=
      .call 0 (.exchange { transportTag := "remote" } message) ::
        answeredCall (0, 0) (addressAnswer question 0x08080808#32) ++
      .call 1 (.exchange query message) :: cachedCall (1, 0)
    ∃ s job response owns check,
      steps (step memoryStore {}) (State.start (fun _ => none) 0) labels = some s ∧
      s.threads (1, 0) = some ⟨job, .returned ⟨some response, none⟩, owns⟩ ∧
      job.query.responseChecker = some check ∧ ¬ Accepts check response) ∧
    (let labels : List (Label MemoryLabel) :=
      [.call 0 (.exchange query {}), .move (0, 0) .enter]
    ∃ s job response owns check,
      steps (step memoryStore {}) (State.start (fun _ => none) 0) labels = some s ∧
      s.threads (0, 0) = some ⟨job, .returned ⟨some response, none⟩, owns⟩ ∧
      job.query.responseChecker = some check ∧ ¬ Accepts check response) := by
  constructor
  · refine ⟨_, _, _, _, _, rfl, rfl, rfl, ?_⟩
    rintro ⟨_, same, eq, accepted⟩
    have addresses := (Msg.addresses_upToIdTTL same).symm.trans
      ((congrArg MessageToAddresses eq).trans (Msg.addresses_upToIdTTL _))
    simp only [privateOnly, addresses] at accepted
    revert accepted
    decide
  · refine ⟨_, _, _, _, _, rfl, rfl, rfl, ?_⟩
    rintro ⟨rcode, _⟩
    revert rcode
    decide

end SingBox.Dns.Client
