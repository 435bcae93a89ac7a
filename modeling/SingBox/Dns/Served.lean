import SingBox.Dns.Client

/-!
# Where a response comes from

A rule for properties of what the client returns. A response that a call returns without an
error is one of four kinds: an answer made up for a request that is not sent, an answer of
the transport, or an entry of the cache, fresh or stale. An entry is an answer that the
transport gave another call with the same cache key, treated with *that* call's options and
checked by *its* checker.

* `Filled` — what there can be in the cache;
* `Guarantee` — a property that each kind of response has;
* `step_invariant` — a step keeps the invariant;
* `returned_of_guarantee` — so everything returned along a run has the property.
-/

namespace SingBox.Dns.Client

open Lib Cachefile List Option

/-- The call may read the cache. -/
def Job.usesCache (job : Job) (c : Config) : Bool :=
  !job.cacheOff c && (job.viaLookup || job.isSimpleRequest c)

/-- The call is one that asks, unless the cache has something. -/
def Job.Asks (job : Job) : Prop := job.message.question ≠ [] ∧ job.strategyRejected = false

theorem Job.usesCache_of_exchange {job : Job} {c : Config} (on : job.disableCache c = false) :
    job.usesCache c := by
  simp only [disableCache, Bool.or_eq_false_iff, Bool.not_eq_false'] at on
  simp [usesCache, on.1, on.2]

/-- A client with a subnet of its own never asks in a way that is cached. -/
theorem Job.subnet_of_exchange {job : Job} {c : Config} (on : job.disableCache c = false) :
    c.clientSubnet.isValid = false := by
  simp only [disableCache, isSimpleRequest, isSimpleMessage, Bool.or_eq_false_iff,
    Bool.not_eq_false', Bool.and_eq_true, Bool.not_eq_true'] at on
  obtain ⟨⟨⟨_, simple⟩, own⟩, _⟩ := on
  by_contra valid
  have withSubnet : job.prepared c = SetClientSubnet job.message c.clientSubnet := by
    simp [prepared, prepareExchangeMessage, own, valid]
  rw [withSubnet, not_simpleExtra_of_subnet] at simple
  cases simple

@[simp] theorem rcode_stripHints (question : Question) (strategy : DomainStrategy)
    (response : Msg) : (stripHints question strategy response).rcode = response.rcode := by
  unfold stripHints
  split <;> rfl

@[simp] theorem extra_stripHints (question : Question) (strategy : DomainStrategy)
    (response : Msg) : (stripHints question strategy response).extra = response.extra := by
  unfold stripHints
  split <;> rfl

def Called {ι : Type} (labels : List (Label ι)) (job : Job) : Prop :=
  ∃ n request, .call n request ∈ labels ∧ job ∈ request.jobs

section Called

variable {ι : Type} {labels : List (Label ι)} {job : Job}

@[simp] theorem not_called_nil : ¬ Called ([] : List (Label ι)) job :=
  fun ⟨_, _, mem, _⟩ => absurd mem not_mem_nil

@[simp] theorem called_call {n : Nat} {request : Request} :
    Called (.call n request :: labels) job ↔ job ∈ request.jobs ∨ Called labels job := by
  simp only [Called, mem_cons, Label.call.injEq]
  grind

@[simp] theorem called_move {id : ThreadId} {move : Move} :
    Called (.move id move :: labels) job ↔ Called labels job := by
  simp [Called]

end Called

section Served

variable {κ τ ι : Type} (store : CacheStore κ τ ι) (c : Config)
  (C : Job → Prop) (R : Job → Msg → Prop) (G : Job → Result → Prop)

/-- What calls in `C` that are answered as `R` says can leave in the cache: the answer with
the hints that were filtered, and the TTL it was saved with. -/
def Filled (key : κ) (body : Msg) (timeToLive : UInt32) : Prop :=
  ∃ job response, C job ∧ job.usesCache c ∧ c.clientSubnet.isValid = false ∧
    store.key job.question job.query.transportTag = key ∧ R job response ∧ job.passes response ∧
    body = stripHints job.question job.options.strategy response ∧
    timeToLive = responseTTL job.options body

/-- The response that a call makes of an answer. -/
def Job.delivered (job : Job) (response : Msg) : Msg :=
  fitEDNS (job.prepared c)
    ((applyResponseOptions job.question response job.options).1.withId (job.prepared c).id)

/-- What a call returns of an answer, with the TTLs and the id set last. -/
theorem Job.delivered_eq (job : Job) (response : Msg) :
    job.delivered c response =
      ((fitEDNS (job.prepared c)
        (stripHints job.question job.options.strategy response)).normalizeTTL
        (responseTTL job.options (stripHints job.question job.options.strategy response))).withId
          (job.prepared c).id := by
  unfold Job.delivered
  rw [fitEDNS_withId, applyResponseOptions, fitEDNS_normalizeTTL]

/-- `G` is a property of all that a call can return. -/
structure Guarantee : Prop where
  error : ∀ job response err, G job ⟨response, some err⟩
  noQuestion : ∀ job, C job → job.message.question = [] →
    G job ⟨some (FixedResponseStatus job.message rcodeFormatError), none⟩
  strategy : ∀ job, C job → job.message.question ≠ [] → job.strategyRejected →
    G job ⟨some (FixedResponseStatus job.message rcodeSuccess), none⟩
  cached : ∀ job body timeToLive ttl id, C job → job.usesCache c → job.viaLookup ∨ job.Asks →
    Filled store c C R (store.key job.question job.query.transportTag) body timeToLive →
    ttl ≤ timeToLive → G job ⟨some ((body.normalizeTTL ttl).withId id), none⟩
  fresh : ∀ job response, C job → job.Asks → R job response →
    (job.query.responseChecker.isSome → job.passes response) →
    G job ⟨some (job.delivered c response), none⟩

/-- What is known of a call, by where it is. -/
def PhaseOk (job : Job) : Phase → Prop
  | .looking => job.viaLookup ∧ job.cacheOff c = false
  | .entering => True
  | .waiting _ => job.Asks ∧ job.disableCache c = false
  | .loading => job.Asks ∧ job.disableCache c = false
  | .checking => job.Asks
  | .asking => job.Asks
  | .returned result => G job result

def Origin (s : State τ) (id : ThreadId) (job : Job) : Prop :=
  ∃ request, s.requests id.1 = some request ∧ request.jobs[id.2]? = some job

structure Invariant {start : τ} (lawful : store.Lawful start) (s : State τ) : Prop where
  start : 0 ≤ s.now
  range : s.now + 2 ^ 32 * second < 2 ^ 63 * second
  holds : lawful.Holds (Entry (Filled store c C R) s.now) s.store
  requests : ∀ n request, s.requests n = some request → ∀ job ∈ request.jobs, C job
  threads : ∀ id thread, s.threads id = some thread →
    Origin s id thread.job ∧ PhaseOk c G thread.job thread.phase
  refreshes : ∀ key job, s.backgroundRefresh key = some job →
    C job ∧ job.usesCache c ∧ c.clientSubnet.isValid = false

/-- The calls are in `C`, and the transports answer as `R` says. -/
def Allowed (s : State τ) : Label ι → Prop
  | .call _ request => ∀ job ∈ request.jobs, C job
  | .move id (.answer reply _) => ∀ thread response, s.threads id = some thread →
      exchangeToTransport (thread.job.prepared c) reply = .ok response → R thread.job response
  | .refreshed key reply _ => ∀ job response, s.backgroundRefresh key = some job →
      exchangeToTransport (job.prepared c) reply = .ok response → R job response
  | _ => True

variable {store c C R G} {start : τ} {lawful : store.Lawful start} {s s' : State τ}

variable {id : ThreadId} {job : Job}

/-- Along the steps of a call that is answered, only the answer has to be as `R` says. -/
theorem through_answeredCall {waiting : State τ} {thread : Thread} {reply response : Msg}
    {rest : List (Label ι)}
    (asked : steps (step store c) s [.move id .enter, .move id .load, .move id .check] =
      some waiting)
    (found : waiting.threads id = some thread)
    (received : exchangeToTransport (thread.job.prepared c) (.response reply) = .ok response)
    (good : R thread.job response)
    (answered : step store c waiting (.move id (.answer (.response reply) 0)) = some s')
    (later : Through (step store c) (Allowed c C R) s' rest) :
    Through (step store c) (Allowed c C R) s (answeredCall id reply ++ rest) := by
  have quiet : Through (step store c) (Allowed c C R) s
      [.move id .enter, .move id .load, .move id .check] := by
    refine through_of_forall fun l mem s => ?_
    simp only [mem_cons, not_mem_nil, or_false] at mem
    rcases mem with rfl | rfl | rfl <;> trivial
  have steps_eq : answeredCall id reply ++ rest =
      [.move id .enter, .move id .load, .move id .check] ++
        .move id (.answer (.response reply) 0) :: rest := rfl
  rw [steps_eq]
  refine through_append quiet asked (through_cons ?_ answered later)
  intro thread' response' found' received'
  cases found.symm.trans found'
  cases received.symm.trans received'
  exact good

@[simp] theorem requests_refresh (s : State τ) (job : Job) :
    (s.refresh job).requests = s.requests := by
  unfold State.refresh
  split <;> rfl

@[simp] theorem requests_noteRejected (s : State τ) (rejected : Bool) (job : Job) :
    (s.noteRejected rejected job).requests = s.requests := by
  unfold State.noteRejected
  split <;> rfl

theorem Origin.of_requests (same : s'.requests = s.requests) (origin : Origin s id job) :
    Origin s' id job := by
  unfold Origin
  rw [same]
  exact origin

namespace Invariant

variable {thread : Thread}

variable (inv : Invariant store c C R G lawful s)
include inv

theorem member (origin : Origin s id job) : C job := by
  obtain ⟨request, called, there⟩ := origin
  exact inv.requests id.1 request called job (mem_of_getElem? there)

theorem setThread (origin : Origin s id thread.job) (ok : PhaseOk c G thread.job thread.phase) :
    Invariant store c C R G lawful (s.setThread id thread) := by
  refine { inv with threads := fun id' thread' h => ?_ }
  rcases of_update h with ⟨rfl, ⟨⟩⟩ | ⟨-, old⟩
  · exact ⟨origin, ok⟩
  · exact inv.threads id' thread' old

theorem setPhase {phase : Phase} (origin : Origin s id thread.job)
    (ok : PhaseOk c G thread.job phase) :
    Invariant store c C R G lawful (s.setThread id { thread with phase }) :=
  inv.setThread origin ok

/-- The lock and the list of rejections are not part of the invariant. -/
theorem withLock (cacheLock : Question × String → Option ThreadId) :
    Invariant store c C R G lawful { s with cacheLock } := { inv with }

theorem withRDRC (rdrc : List (String × String × UInt16)) :
    Invariant store c C R G lawful { s with rdrc } := { inv with }

theorem withStore {next : τ} (holds : lawful.Holds (Entry (Filled store c C R) s.now) next) :
    Invariant store c C R G lawful { s with store := next } := { inv with holds }

theorem finish {id : ThreadId} {thread : Thread} {result : Result} (origin : Origin s id thread.job)
    (good : G thread.job result) : Invariant store c C R G lawful (s.finish id thread result) := by
  have returned : PhaseOk c G thread.job (.returned result) := good
  exact (inv.setPhase origin returned).withLock _

theorem refresh (member : C job) (uses : job.usesCache c) (plain : c.clientSubnet.isValid = false) :
    Invariant store c C R G lawful (s.refresh job) := by
  unfold State.refresh
  split
  · exact inv
  · refine { inv with refreshes := fun key job' h => ?_ }
    rcases of_update h with ⟨-, ⟨⟩⟩ | ⟨-, old⟩
    · exact ⟨member, uses, plain⟩
    · exact inv.refreshes key job' old

theorem noteRejected (rejected : Bool) (job : Job) :
    Invariant store c C R G lawful (s.noteRejected rejected job) := by
  unfold State.noteRejected
  split
  · exact inv.withRDRC _
  · exact inv

theorem look (ok : Guarantee store c C R G) {next : Phase} {fit : Msg → Msg}
    (origin : Origin s id thread.job) (uses : thread.job.usesCache c)
    (asks : thread.job.viaLookup ∨ thread.job.Asks) (nextOk : PhaseOk c G thread.job next)
    (fits : ∀ response, ∃ id, fit response = response.withId id) :
    Invariant store c C R G lawful (look store c s id thread next fit) := by
  have after := inv.withStore (loadResponse_holds lawful c s.now thread.job.question
    thread.job.query.transportTag inv.holds)
  have member := inv.member origin
  have missed := after.setPhase origin nextOk
  unfold Client.look
  dsimp only
  split
  · exact missed
  · rename_i response stale loaded
    split
    · exact missed
    · obtain ⟨body, timeToLive, ttl, filled, le, rfl⟩ :=
        loadResponse_of_holds lawful c inv.holds inv.range loaded
      obtain ⟨newId, eq⟩ := fits (body.normalizeTTL ttl)
      have good := ok.cached thread.job body timeToLive ttl newId member uses asks filled le
      have plain : c.clientSubnet.isValid = false := by
        obtain ⟨_, _, _, _, plain, _⟩ := filled
        exact plain
      unfold State.serve
      rw [eq]
      split
      · refine (after.refresh member uses plain).finish ?_ good
        exact origin.of_requests (requests_refresh _ _)
      · exact after.finish origin good

/-- An answer that passed is stored with the options of its call. -/
theorem keep {flusher : Nat} {stored : Option (Msg × UInt32)} (member : C job)
    (filled : ∀ applied, stored = some applied → ∃ response, job.usesCache c ∧
      c.clientSubnet.isValid = false ∧ R job response ∧ job.passes response ∧
      applied = applyResponseOptions job.question response job.options)
    (h : keep store s flusher job stored = some s') :
    Invariant store c C R G lawful s' ∧ s'.requests = s.requests := by
  unfold Client.keep at h
  split at h
  · cases h
    exact ⟨inv, rfl⟩
  · rename_i message timeToLive
    obtain ⟨next, saved, rfl⟩ := map_eq_some_iff.mp h
    refine ⟨inv.withStore ?_, rfl⟩
    unfold storeCache at saved
    split at saved
    · cases saved
      exact inv.holds
    · rename_i nonzero
      obtain ⟨response, uses, plain, answered, passes, eq⟩ := filled _ rfl
      cases eq
      refine lawful.save inv.holds ?_ saved
      exact ⟨_, _, s.now, ⟨job, response, member, uses, plain, rfl, answered, passes, rfl, rfl⟩,
        nonzero, inv.start, Int.le_refl _, rfl, rfl⟩

end Invariant

/-- An answer is stored if it passed and the call may use the cache. -/
theorem answered_stored {job : Job} {response : Msg} (answers : R job response)
    (applied : Msg × UInt32) (stored : (job.answered c response).stored = some applied) :
    ∃ response, job.usesCache c ∧ c.clientSubnet.isValid = false ∧ R job response ∧
      job.passes response ∧ applied = applyResponseOptions job.question response job.options := by
  unfold Job.answered at stored
  dsimp only at stored
  split at stored
  · cases stored
  rename_i accepted
  split at stored
  · cases stored
  rename_i on
  cases stored
  simp only [Bool.or_eq_true, not_or, Bool.not_eq_true, Bool.not_eq_false'] at on
  refine ⟨response, Job.usesCache_of_exchange on.1, Job.subnet_of_exchange on.1, answers, ?_, rfl⟩
  cases checker : job.query.responseChecker with
  | none => simp [Job.passes, checker, on.2]
  | some _ => simpa [checker] using accepted

section Step

variable (inv : Invariant store c C R G lawful s)
include inv

section Moves

variable {id : ThreadId} {thread : Thread} (ok : Guarantee store c C R G)
  (origin : Origin s id thread.job)
include ok origin

theorem enter_invariant : Invariant store c C R G lawful (enter c s id thread) := by
  have member := inv.member origin
  unfold enter
  dsimp only
  split
  · rename_i none
    exact inv.finish origin (ok.noQuestion _ member none)
  · rename_i some
    split
    · rename_i rejected
      exact inv.finish origin (ok.strategy _ member some rejected)
    · rename_i accepted
      have asks : thread.job.Asks := ⟨some, by simpa using accepted⟩
      split
      · exact inv.setThread origin asks
      · rename_i on
        have both := And.intro asks (Bool.eq_false_of_not_eq_true on)
        split
        · exact inv.setThread origin both
        · refine Invariant.withLock (inv.setThread ?_ ?_) _
          · exact origin
          · exact both

theorem check_invariant (asks : thread.job.Asks) :
    Invariant store c C R G lawful (check c s id thread) := by
  unfold check
  dsimp only
  split
  · exact inv.finish origin (ok.error _ _ _)
  · split
    · exact inv.finish origin (ok.error _ _ _)
    · exact inv.setThread origin asks

theorem answer_invariant (asks : thread.job.Asks) {reply : Reply} {flusher : Nat}
    (answers : ∀ response, exchangeToTransport (thread.job.prepared c) reply = .ok response →
      R thread.job response)
    (h : answer store c s id thread reply flusher = some s') :
    Invariant store c C R G lawful s' := by
  have member := inv.member origin
  unfold answer at h
  split at h
  · cases h
    exact inv.finish origin (ok.error _ _ _)
  · rename_i response received
    obtain ⟨middle, kept, rfl⟩ := map_eq_some_iff.mp h
    have good : G thread.job (thread.job.answered c response).result := by
      unfold Job.answered
      split
      · exact ok.error _ _ _
      · rename_i accepted
        refine ok.fresh _ _ member asks (answers response received) fun checked => ?_
        simpa [checked] using accepted
    have stored : ∀ applied, (thread.job.answered c response).stored = some applied → _ :=
      answered_stored (answers response received)
    obtain ⟨after, same⟩ := (inv.noteRejected _ _).keep member stored kept
    exact after.finish (origin.of_requests (same.trans (requests_noteRejected _ _ _))) good

theorem moveThread_invariant (phase : PhaseOk c G thread.job thread.phase) {move : Move}
    (answers : ∀ reply flusher response, move = .answer reply flusher →
      exchangeToTransport (thread.job.prepared c) reply = .ok response → R thread.job response)
    (h : moveThread store c s id thread thread.phase move = some s') :
    Invariant store c C R G lawful s' := by
  generalize here : thread.phase = now at h phase
  unfold moveThread at h
  split at h
  · cases h
    exact inv.look ok origin (by simp [Job.usesCache, phase.1, phase.2]) (.inl phase.1) trivial
      fun response => ⟨response.id, rfl⟩
  · cases h
    exact enter_invariant inv ok origin
  · split at h
    · cases h
      exact inv.setThread origin phase
    · cases h
  · cases h
    exact inv.finish origin (ok.error _ _ _)
  · cases h
    exact inv.look ok origin (Job.usesCache_of_exchange phase.2) (.inr phase.1) phase.1
      fun _ => ⟨_, rfl⟩
  · cases h
    exact check_invariant inv ok origin phase
  · exact answer_invariant inv ok origin phase (fun response => answers _ _ response rfl) h
  · cases h

end Moves

theorem refreshAnswer_invariant (member : C job) (uses : job.usesCache c)
    (plain : c.clientSubnet.isValid = false) {reply : Reply} {flusher : Nat}
    (answers : ∀ response, exchangeToTransport (job.prepared c) reply = .ok response →
      R job response)
    (h : refreshAnswer store c s job reply flusher = some s') :
    Invariant store c C R G lawful s' := by
  unfold refreshAnswer at h
  split at h
  · cases h
    exact inv
  · rename_i response received
    refine ((inv.noteRejected _ _).keep member ?_ h).1
    intro applied stored
    unfold Job.refreshed at stored
    split at stored <;> cases stored
    rename_i passes
    exact ⟨response, uses, plain, answers response received, passes, rfl⟩

theorem call_invariant {n : Nat} {request : Request} (members : ∀ job ∈ request.jobs, C job)
    (h : step store c s (.call n request) = some s') :
    Invariant store c C R G lawful s' := by
  simp only [step] at h
  split at h
  · cases h
  cases h
  refine { inv with requests := fun n' request' h => ?_, threads := fun id thread found => ?_ }
  · rcases of_update h with ⟨-, ⟨⟩⟩ | ⟨-, old⟩
    · exact members
    · exact inv.requests n' request' old
  dsimp only at found
  split at found
  · rename_i same
    obtain ⟨job, there, rfl⟩ := map_eq_some_iff.mp found
    refine ⟨⟨request, by simp [same], there⟩, ?_⟩
    unfold Job.thread
    split
    · rename_i lookup
      simpa [PhaseOk] using lookup
    · trivial
  · rename_i other
    obtain ⟨⟨request', called, there⟩, phase⟩ := inv.threads id thread found
    exact ⟨⟨request', by simpa [Function.update_of_ne other] using called, there⟩, phase⟩

theorem tick_invariant {now : Int} (h : step store c s (.tick now) = some s') :
    Invariant store c C R G lawful s' := by
  simp only [step, State.mayTick, decide_eq_true_eq] at h
  split at h <;> cases h
  rename_i later
  refine { inv with start := Int.le_trans inv.start later.1, range := later.2, holds := ?_ }
  -- an entry stays one: it was saved before now, and so before later
  refine lawful.mono (fun key message expireAt entry => ?_) inv.holds
  obtain ⟨body, timeToLive, saved, known, nonzero, start, before, rest⟩ := entry
  exact ⟨body, timeToLive, saved, known, nonzero, start, Int.le_trans before later.1, rest⟩

theorem step_invariant (ok : Guarantee store c C R G) {l : Label ι} (allowed : Allowed c C R s l)
    (h : step store c s l = some s') : Invariant store c C R G lawful s' := by
  cases l with
  | call n request => exact call_invariant inv allowed h
  | move id move =>
    simp only [step] at h
    split at h
    · cases h
    rename_i thread found
    obtain ⟨origin, phase⟩ := inv.threads id thread found
    refine moveThread_invariant inv ok origin phase ?_ h
    rintro reply flusher response rfl received
    exact allowed thread response found received
  | refreshed key reply flusher =>
    simp only [step] at h
    split at h
    · cases h
    rename_i job running
    obtain ⟨member, uses, plain⟩ := inv.refreshes key job running
    obtain ⟨middle, answered, rfl⟩ := map_eq_some_iff.mp h
    have after := refreshAnswer_invariant inv member uses plain
      (fun response => allowed job response running) answered
    refine { after with refreshes := fun key' job' h => ?_ }
    obtain ⟨-, ⟨⟩⟩ | ⟨-, kept⟩ := of_update h
    exact after.refreshes key' job' kept
  | internal l =>
    obtain ⟨next, internal, rfl⟩ := map_eq_some_iff.mp h
    exact inv.withStore (lawful.internal inv.holds internal)
  | forgetRDRC key =>
    cases h
    exact inv.withRDRC _
  | tick now => exact tick_invariant inv h

end Step

/-- What every kind of response has, every response returned along a run has. -/
theorem returned_of_guarantee (lawful : store.Lawful start) (ok : Guarantee store c C R G)
    {now : Int} {labels : List (Label ι)} (epoch : 0 ≤ now)
    (range : now + 2 ^ 32 * second < 2 ^ 63 * second)
    (allowed : Through (step store c) (Allowed c C R) (State.start start now) labels)
    (run : steps (step store c) (State.start start now) labels = some s) {result : Result}
    {owns : Bool} (returned : s.threads id = some ⟨job, .returned result, owns⟩) :
    C job ∧ Origin s id job ∧ G job result := by
  have init : Invariant store c C R G lawful (State.start start now) :=
    { start := epoch
      range := range
      holds := lawful.start_holds _
      requests _ _ none := nomatch none
      threads _ _ none := nomatch none
      refreshes _ _ none := nomatch none }
  have inv := steps_invariant_through (Invariant store c C R G lawful)
    (fun _ _ _ inv allowed taken => step_invariant inv ok allowed taken) init allowed run
  obtain ⟨origin, good⟩ := inv.threads id _ returned
  exact ⟨inv.member origin, origin, good⟩

end Served

end SingBox.Dns.Client
