import SingBox.Dns.Message
import SingBox.Lib.System
import SingBox.Lib.While

/-!
# DNS over UDP

The calls of `UDPTransport.exchange` on one transport, and the loops that receive on its sockets. A
call enters its callback into a table under a query identifier of 16 bits, waits for the callback,
and takes it out of the table when it returns. A loop looks the identifier of a datagram up in the
table, and fills the callback it finds. It does so without the lock of the table, so by then the
call may have returned and its identifier may be in use by another one.

The steps are the sections under the locks and the returns of a call. Which socket a datagram came
from makes no difference: all loops read the same table.

* `nextAvailableQueryId_ends` — the search for an identifier ends, with one that is free if there is
  one;
* `Registered` — a call that has not returned is the one its identifier stands for;
* `answerable_step_iff` — a step keeps the answers those to the questions asked exactly if it does
  not fill a callback with an answer to another one;
* `udp_answers_iff` — the same for whole runs.
-/

namespace SingBox.Dns.Udp

open SingBox.Lib Function Option

/-! ## The transport -/

/-- What a call of `exchange` returns. -/
inductive Result where
  | error (err : String)
  | response (msg : Msg)
  deriving DecidableEq, Repr

inductive Phase where
  /-- The request is written, and then waited for. -/
  | waiting
  /-- The deferred functions have not run. -/
  | leaving (result : Result)
  | returned (result : Result)
  deriving DecidableEq, Repr

/-- A call of `exchange` that has its callback in the table. -/
structure Call where
  message : Msg
  queryId : UInt16
  phase : Phase
  /-- The response of the callback; it is set when `done` is closed. -/
  response : Option Msg
  deriving DecidableEq, Repr

structure Transport where
  queryId : UInt16
  /-- The callbacks, each by the number of its call. -/
  callbacks : UInt16 → Option Nat
  calls : Nat → Option Call
  next : Nat
  /-- The datagrams that a loop has found the callback of. -/
  found : List (Nat × Msg)

def newTransport : Transport := ⟨0, fun _ => none, fun _ => none, 0, []⟩

/-- A turn of `nextAvailableQueryId`. -/
def queryIdTurn (callbacks : UInt16 → Option Nat) (start queryId : UInt16) :
    Turn UInt16 (Except String UInt16) :=
  let queryId := queryId + 1
  if (callbacks queryId).isNone then .stop queryId (.ok queryId)
  else if queryId = start then .stop queryId (.error "no available query ID")
  else .next queryId

variable (t : Transport)

/-- There are no more turns than identifiers. -/
def nextAvailableQueryId : Option (UInt16 × Except String UInt16) :=
  turns (queryIdTurn t.callbacks t.queryId) 65536 t.queryId

def Transport.setCall (c : Nat) (call : Call) : Transport :=
  { t with calls := update t.calls c (some call) }

def Transport.deleteCallback (queryId : UInt16) : Transport :=
  { t with callbacks := update t.callbacks queryId none }

/-- The datagram is not held any more. -/
def Transport.release (c : Nat) (message : Msg) : Transport :=
  { t with found := t.found.erase (c, message) }

inductive Label where
  | register (message : Msg)
  /-- The message cannot be packed or written, or the context of the call or of its connection is
  done. -/
  | fail (c : Nat) (err : String)
  | receive (message : Msg)
  /-- The loop fills the callback. -/
  | deliver (c : Nat) (message : Msg)
  /-- The call sees that `done` is closed. -/
  | answer (c : Nat)
  | unregister (c : Nat)

def step : Label → Option Transport
  | .register message =>
      (nextAvailableQueryId t).map fun
        | (queryId, .error _) => { t with queryId }
        | (queryId, .ok id) =>
            { t with
              queryId
              callbacks := update t.callbacks id (some t.next)
              calls := update t.calls t.next (some ⟨message, id, .waiting, none⟩)
              next := t.next + 1 }
  | .fail c err =>
      match t.calls c with
      | some call =>
          if call.phase = .waiting then
            some (t.setCall c { call with phase := .leaving (.error err) })
          else none
      | none => none
  | .receive message =>
      -- only the identifier is looked at, not the question
      match t.callbacks message.id with
      | none => some t
      | some c => some { t with found := t.found ++ [(c, message)] }
  | .deliver c message =>
      if (c, message) ∈ t.found then
        match t.calls c with
        | some call =>
            if call.response.isNone then
              some ((t.release c message).setCall c { call with response := some message })
            -- `done` is closed: a second datagram is dropped
            else some (t.release c message)
        | none => none
      else none
  | .answer c =>
      match t.calls c with
      | some call =>
          match call.phase, call.response with
          | .waiting, some response =>
              -- the caller's identifier is put back
              some (t.setCall c { call with
                phase := .leaving (.response (response.withId call.message.id)) })
          | _, _ => none
      | none => none
  | .unregister c =>
      match t.calls c with
      | some call =>
          match call.phase with
          | .leaving result =>
              let t := t.setCall c { call with phase := .returned result }
              some (t.deleteCallback call.queryId)
          | _ => none
      | none => none

/-- What `Exchange` returns of a response without a retry over TCP. -/
def Call.exchanged (call : Call) : Option Msg :=
  match call.phase with
  | .returned (.response response) => if response.truncated then none else some response
  | _ => none

/-! ## Identifiers -/

/-- How many turns are left until the start is reached again. -/
def turnsLeft (start queryId : UInt16) : Nat := (start - queryId - 1).toNat

theorem turnsLeft_succ {start queryId : UInt16} (h : queryId + 1 ≠ start) :
    turnsLeft start (queryId + 1) < turnsLeft start queryId := by
  have other : (queryId + 1).toNat ≠ start.toNat := fun same => h (UInt16.toNat_inj.mp same)
  have := queryId.toNat_lt
  have := start.toNat_lt
  simp only [turnsLeft, UInt16.toNat_sub, UInt16.toNat_add, UInt16.toNat_one] at other ⊢
  omega

theorem nextAvailableQueryId_ends (t : Transport) :
    ∃ queryId result, nextAvailableQueryId t = some (queryId, result) ∧
      ∀ id, result = .ok id → t.callbacks id = none := by
  have leaves (queryId : UInt16) : (queryIdTurn t.callbacks t.queryId queryId).Leaves
      (fun next => True ∧ turnsLeft t.queryId next < turnsLeft t.queryId queryId)
      (fun _ result => ∀ id, result = .ok id → t.callbacks id = none) := by
    unfold queryIdTurn
    dsimp only
    split
    case isTrue free =>
      intro id same
      cases same
      exact isNone_iff_eq_none.mp free
    case isFalse =>
      split
      case isTrue =>
        intro id same
        cases same
      case isFalse other => exact ⟨trivial, turnsLeft_succ other⟩
  obtain ⟨queryId, result, ends, free⟩ := turns_ends (fun _ => True) _ (turnsLeft t.queryId)
    (fun queryId _ => leaves queryId) (s := t.queryId) trivial
  exact ⟨queryId, result, ends 65536 (UInt16.toNat_lt _), free⟩

/-! ## What a step does -/

/-- What the steps can do, each with what it needs. -/
inductive Moves (t : Transport) : Label → Transport → Prop
  | refused {message : Msg} {queryId : UInt16} : Moves t (.register message) { t with queryId }
  | registered {message : Msg} {queryId id : UInt16} (free : t.callbacks id = none) :
      Moves t (.register message)
        { t with
          queryId
          callbacks := update t.callbacks id (some t.next)
          calls := update t.calls t.next (some ⟨message, id, .waiting, none⟩)
          next := t.next + 1 }
  | failed {c : Nat} {call : Call} {err : String} (here : t.calls c = some call)
      (waiting : call.phase = .waiting) :
      Moves t (.fail c err) (t.setCall c { call with phase := .leaving (.error err) })
  | unknown {message : Msg} : Moves t (.receive message) t
  | found {message : Msg} {c : Nat} :
      Moves t (.receive message) { t with found := t.found ++ [(c, message)] }
  | filled {c : Nat} {call : Call} {message : Msg} (here : t.calls c = some call)
      (empty : call.response = none) :
      Moves t (.deliver c message)
        ((t.release c message).setCall c { call with response := some message })
  | late {c : Nat} {call : Call} {message : Msg} (here : t.calls c = some call)
      (full : call.response ≠ none) :
      Moves t (.deliver c message) (t.release c message)
  | answered {c : Nat} {call : Call} {response : Msg} (here : t.calls c = some call)
      (waiting : call.phase = .waiting) (filled : call.response = some response) :
      Moves t (.answer c) (t.setCall c { call with
        phase := .leaving (.response (response.withId call.message.id)) })
  | unregistered {c : Nat} {call : Call} {result : Result} (here : t.calls c = some call)
      (leaving : call.phase = .leaving result) :
      Moves t (.unregister c)
        ((t.setCall c { call with phase := .returned result }).deleteCallback call.queryId)

theorem step_moves {t t' : Transport} {label : Label} (h : step t label = some t') :
    Moves t label t' := by
  cases label with
  | register message =>
    obtain ⟨queryId, result, ends, free⟩ := nextAvailableQueryId_ends t
    simp only [step, ends, map_some, some.injEq] at h
    subst h
    cases result with
    | error err => exact .refused
    | ok id => exact .registered (free id rfl)
  | fail c err =>
    simp only [step] at h
    split at h
    case h_1 call here =>
      split at h <;> cases h
      case isTrue waiting => exact .failed here waiting
    case h_2 => cases h
  | receive message =>
    simp only [step] at h
    split at h <;> cases h
    · exact .unknown
    · exact .found
  | deliver c message =>
    simp only [step] at h
    split at h
    case isTrue held =>
      split at h
      case h_1 call here =>
        split at h <;> cases h
        case isTrue empty => exact .filled here (isNone_iff_eq_none.mp empty)
        case isFalse full => exact .late here (mt isNone_iff_eq_none.mpr full)
      case h_2 => cases h
    case isFalse => cases h
  | answer c =>
    simp only [step] at h
    split at h
    case h_1 call here =>
      split at h <;> cases h
      case h_1 response waiting filled => exact .answered here waiting filled
    case h_2 => cases h
  | unregister c =>
    simp only [step] at h
    split at h
    case h_1 call here =>
      split at h <;> cases h
      case h_1 result leaving => exact .unregistered here leaving
    case h_2 => cases h

/-! ## Who an identifier stands for -/

def Phase.isOpen : Phase → Bool
  | .waiting | .leaving _ => true
  | .returned _ => false

/-- The table has the calls that have not returned, each under its identifier. -/
structure Registered (t : Transport) : Prop where
  table : ∀ id c, t.callbacks id = some c ↔
    ∃ call, t.calls c = some call ∧ call.queryId = id ∧ call.phase.isOpen = true
  numbered : ∀ c call, t.calls c = some call → c < t.next

section Registered

variable {t t' : Transport}

theorem calls_setCall (t : Transport) (c : Nat) (call : Call) (c' : Nat) :
    (t.setCall c call).calls c' = if c' = c then some call else t.calls c' :=
  update_apply _ _ _ _

variable (registered : Registered t)
include registered

theorem Registered.setCall {c : Nat} {call call' : Call} (here : t.calls c = some call)
    (id : call'.queryId = call.queryId) (isOpen : call'.phase.isOpen = call.phase.isOpen) :
    Registered (t.setCall c call') := by
  refine ⟨fun i c' => ?_, fun c' other there => ?_⟩
  · show t.callbacks i = some c' ↔ _
    rw [registered.table]
    by_cases same : c' = c
    · subst same
      rw [calls_setCall, if_pos rfl, here]
      simp only [some.injEq, exists_eq_left', id, isOpen]
    · rw [calls_setCall, if_neg same]
  · rw [calls_setCall] at there
    split at there
    case isTrue same => exact same ▸ registered.numbered c call here
    case isFalse => exact registered.numbered c' other there

theorem Registered.register {message : Msg} {queryId id : UInt16} (free : t.callbacks id = none) :
    Registered
      { t with
        queryId
        callbacks := update t.callbacks id (some t.next)
        calls := update t.calls t.next (some ⟨message, id, .waiting, none⟩)
        next := t.next + 1 } := by
  have old {c : Nat} {call : Call} (here : t.calls c = some call) : c ≠ t.next := by
    intro same
    exact Nat.lt_irrefl _ (same ▸ registered.numbered c call here)
  refine ⟨fun i c => ?_, fun c call here => ?_⟩
  · show update t.callbacks id (some t.next) i = some c ↔
      ∃ call, update t.calls t.next _ c = some call ∧ _
    by_cases new : c = t.next
    · -- the new call is at its own identifier and, as its number is fresh, at no other
      subst new
      rw [update_self]
      simp only [some.injEq, exists_eq_left', Phase.isOpen, and_true]
      by_cases same : i = id
      · rw [same, update_self]
        exact iff_of_true rfl rfl
      · rw [update_of_ne same]
        refine iff_of_false (fun h => ?_) fun h => same h.symm
        obtain ⟨call, here, -⟩ := (registered.table i t.next).mp h
        exact old here rfl
    · rw [update_of_ne new, ← registered.table i c]
      by_cases same : i = id
      · rw [same, update_self, free]
        exact iff_of_false (fun h => new (some.inj h).symm) (fun h => by cases h)
      · rw [update_of_ne same]
  · show c < t.next + 1
    by_cases new : c = t.next
    · exact new ▸ Nat.lt_succ_self _
    · refine Nat.lt_succ_of_lt (registered.numbered c call ?_)
      exact (update_of_ne new _ _).symm.trans here

theorem Registered.unregister {c : Nat} {call : Call} {result : Result}
    (here : t.calls c = some call) (leaving : call.phase = .leaving result) : Registered
      ((t.setCall c { call with phase := .returned result }).deleteCallback call.queryId) := by
  have own : t.callbacks call.queryId = some c :=
    (registered.table _ _).mpr ⟨call, here, rfl, by rw [leaving]; rfl⟩
  refine ⟨fun i c' => ?_, fun c' other there => ?_⟩
  · show update t.callbacks call.queryId none i = some c' ↔
      ∃ call', (t.setCall c { call with phase := .returned result }).calls c' = some call' ∧ _
    rw [calls_setCall]
    by_cases mine : c' = c
    · -- the call that returns was in the table only once
      rw [if_pos mine]
      refine iff_of_false (fun h => ?_) fun ⟨call', same, _, isOpen⟩ => ?_
      · obtain ⟨other, h⟩ := (of_update h).resolve_left fun ⟨_, gone⟩ => by cases gone
        obtain ⟨call', here', id, -⟩ := (registered.table i c).mp (mine ▸ h)
        cases here.symm.trans here'
        exact other id.symm
      · cases same
        cases isOpen
    · rw [if_neg mine, ← registered.table i c']
      by_cases same : i = call.queryId
      · rw [same, update_self, own]
        exact iff_of_false (fun h => by cases h) fun h => mine (some.inj h).symm
      · rw [update_of_ne same]
  · have there' := (calls_setCall t c { call with phase := .returned result } c').symm.trans there
    split at there'
    case isTrue same => exact same ▸ registered.numbered c call here
    case isFalse => exact registered.numbered c' other there'

theorem Registered.step {label : Label} (h : Udp.step t label = some t') : Registered t' := by
  cases step_moves h with
  | refused | found | late => exact ⟨registered.table, registered.numbered⟩
  | registered free => exact registered.register free
  | failed here waiting | answered here waiting =>
    exact registered.setCall here rfl (by rw [waiting]; rfl)
  | unknown => exact registered
  | @filled c call message here empty =>
    have released : Registered (t.release c message) := ⟨registered.table, registered.numbered⟩
    exact released.setCall here rfl rfl
  | unregistered here leaving => exact registered.unregister here leaving

/-- Two calls that have not returned have different identifiers. -/
theorem Registered.distinct {c c' : Nat} {call call' : Call} (here : t.calls c = some call)
    (here' : t.calls c' = some call') (isOpen : call.phase.isOpen = true)
    (isOpen' : call'.phase.isOpen = true) (same : call.queryId = call'.queryId) : c = c' := by
  have mine := (registered.table call.queryId c).mpr ⟨call, here, rfl, isOpen⟩
  have other := (registered.table call.queryId c').mpr ⟨call', here', same.symm, isOpen'⟩
  exact some.inj (mine.symm.trans other)

end Registered

/-! ## Answers -/

/-- The response that a call has returned, or that it can return next. -/
def Call.shown (call : Call) : Option Msg :=
  match call.phase with
  | .waiting => call.response
  | .leaving (.response response) | .returned (.response response) => some response
  | .leaving (.error _) | .returned (.error _) => none

/-- A response that is not retried over TCP has the question that was asked. -/
def Answers (response message : Msg) : Prop :=
  response.truncated = true ∨ response.question = message.question

instance Answers.decidable (response message : Msg) : Decidable (Answers response message) :=
  inferInstanceAs (Decidable (_ ∨ _))

/-- No call has returned, or can return next, an answer to another question. -/
def Answerable : Prop :=
  ∀ c call, t.calls c = some call → ∀ response, call.shown = some response →
    Answers response call.message

/-- What `Exchange` has returned without a retry over TCP carries the question of the caller. -/
def Answered : Prop :=
  ∀ c call, t.calls c = some call → ∀ response, call.exchanged = some response →
    response.question = call.message.question

/-- A datagram that fills the callback of a call that waits answers the question of this call. -/
def Label.CarriesQuestion : Label → Prop
  | .deliver c message => ∀ call ∈ t.calls c, call.phase = .waiting → call.response = none →
      Answers message call.message
  | _ => True

instance Label.CarriesQuestion.decidable (t : Transport) :
    (label : Label) → Decidable (label.CarriesQuestion t)
  | .deliver _ _ => inferInstanceAs (Decidable (∀ _ ∈ _, _))
  | .register _ | .fail _ _ | .receive _ | .answer _ | .unregister _ =>
      inferInstanceAs (Decidable True)

def Label.isDeliver : Label → Bool
  | .deliver _ _ => true
  | _ => false

section Answers

variable {t t' : Transport}

theorem Answerable.of_calls (answerable : Answerable t) (same : t'.calls = t.calls) :
    Answerable t' := by
  intro c call here
  exact answerable c call (same ▸ here)

variable {c : Nat} {call : Call} {response : Msg}

theorem answerable_setCall_iff (answerable : Answerable t) :
    Answerable (t.setCall c call) ↔
      ∀ response, call.shown = some response → Answers response call.message := by
  constructor
  · intro after
    exact after c call ((calls_setCall t c call c).trans (if_pos rfl))
  · intro own c' call' here
    rw [calls_setCall] at here
    split at here
    case isTrue =>
      cases here
      exact own
    case isFalse => exact answerable c' call' here

theorem shown_of_not_waiting (h : call.phase ≠ .waiting) (response : Option Msg) :
    ({ call with response } : Call).shown = call.shown := by
  unfold Call.shown
  cases phase : call.phase with
  | waiting => exact absurd phase h
  | leaving result | returned result => cases result <;> rfl

/-- A step keeps the answers those to the questions asked exactly if no datagram with another
question fills a callback. -/
theorem answerable_step_iff (answerable : Answerable t) {label : Label}
    (h : step t label = some t') : Answerable t' ↔ label.CarriesQuestion t := by
  cases step_moves h with
  | refused | unknown => exact iff_of_true answerable trivial
  | @registered message queryId id free =>
    refine iff_of_true (Answerable.of_calls
      (t := t.setCall t.next ⟨message, id, .waiting, none⟩) ?_ rfl) trivial
    exact (answerable_setCall_iff answerable).mpr fun _ h => (by cases h)
  | failed here waiting =>
    exact iff_of_true ((answerable_setCall_iff answerable).mpr fun _ h => (by cases h)) trivial
  | found => exact iff_of_true (answerable.of_calls rfl) trivial
  | @filled c call message here empty =>
    have released : Answerable (t.release c message) := answerable.of_calls rfl
    rw [answerable_setCall_iff released]
    by_cases waiting : call.phase = .waiting
    · have shown : ({ call with response := some message } : Call).shown = some message := by
        simp only [Call.shown, waiting]
      constructor
      · intro own call' here' _ _
        cases here.symm.trans here'
        exact own message shown
      · intro carries response h
        cases shown.symm.trans h
        exact carries call here waiting empty
    · refine iff_of_true (fun response h => ?_) fun call' here' waiting' _ => ?_
      · exact answerable c call here response ((shown_of_not_waiting waiting _).symm.trans h)
      · cases here.symm.trans here'
        exact absurd waiting' waiting
  | @late c call message here full =>
    refine iff_of_true (answerable.of_calls rfl) fun call' here' _ empty => ?_
    cases here.symm.trans here'
    exact absurd empty full
  | @answered c call response here waiting filled =>
    have shown : call.shown = some response := by rw [Call.shown, waiting, filled]
    refine iff_of_true ((answerable_setCall_iff answerable).mpr fun other h => ?_) trivial
    cases h
    exact answerable c call here response shown
  | @unregistered c call result here leaving =>
    refine iff_of_true (Answerable.of_calls
      (t := t.setCall c { call with phase := .returned result }) ?_ rfl) trivial
    refine (answerable_setCall_iff answerable).mpr fun response h => ?_
    refine answerable c call here response ?_
    rw [Call.shown, leaving]
    cases result <;> exact h

theorem Answerable.answered (answerable : Answerable t) : Answered t := by
  intro c call here response exchanged
  unfold Call.exchanged at exchanged
  split at exchanged
  case h_1 shown returned =>
    split at exchanged <;> cases exchanged
    case isFalse whole =>
      have answers := answerable c call here response (by rw [Call.shown, returned])
      exact answers.resolve_left whole
  case h_2 => cases exchanged

section

variable (here : t.calls c = some call)
include here

theorem step_answer (waiting : call.phase = .waiting) (filled : call.response = some response) :
    step t (.answer c) = some (t.setCall c { call with
      phase := .leaving (.response (response.withId call.message.id)) }) := by
  simp only [step, here, waiting, filled]

theorem leaving_returned (leaving : call.phase = .leaving (.response response)) :
    ∃ t' call', steps step t [.unregister c] = some t' ∧ t'.calls c = some call' ∧
      call'.message = call.message ∧ call'.phase = .returned (.response response) := by
  simp only [steps_singleton, step, here, leaving]
  exact ⟨_, _, rfl, (calls_setCall t c _ c).trans (if_pos rfl), rfl, rfl⟩

/-- A call that has a response can return it without another datagram. -/
theorem shown_returned (shown : call.shown = some response) :
    ∃ more t' call' id, (∀ label ∈ more, label.isDeliver = false) ∧
      steps step t more = some t' ∧ t'.calls c = some call' ∧ call'.message = call.message ∧
      call'.phase = .returned (.response (response.withId id)) := by
  unfold Call.shown at shown
  split at shown
  case h_1 waiting =>
    have answered := step_answer here waiting shown
    obtain ⟨t', call', run, there, message, phase⟩ := leaving_returned
      ((calls_setCall t c { call with
        phase := .leaving (.response (response.withId call.message.id)) } c).trans (if_pos rfl)) rfl
    refine ⟨[.answer c, .unregister c], t', call', call.message.id, by simp [Label.isDeliver], ?_,
      there, message, phase⟩
    rw [steps_cons, answered]
    exact run
  case h_2 kept leaving =>
    cases shown
    obtain ⟨t', call', run, there, message, phase⟩ := leaving_returned here leaving
    exact ⟨[.unregister c], t', call', response.id, by simp [Label.isDeliver], run, there, message,
      phase⟩
  case h_3 kept returned =>
    cases shown
    exact ⟨[], t, call, response.id, fun _ h => (by cases h), rfl, here, rfl, returned⟩
  case h_4 => cases shown
  case h_5 => cases shown

end

/-- The answers are those to the questions asked exactly if this is so of all that is returned
before another datagram is delivered. -/
theorem answerable_iff_answered : Answerable t ↔
    ∀ more t', (∀ label ∈ more, label.isDeliver = false) → steps step t more = some t' →
      Answered t' := by
  constructor
  · intro answerable more t' quiet run
    refine Answerable.answered (steps_invariant Answerable (fun label => label.isDeliver = false)
      (fun t label t' answerable quiet taken => ?_) answerable quiet run)
    refine (answerable_step_iff answerable taken).mpr ?_
    cases label with
    | deliver c message => cases quiet
    | register | fail | receive | answer | unregister => trivial
  · intro all c call here response shown
    obtain ⟨more, t', call', id, quiet, run, there, message, phase⟩ := shown_returned here shown
    cases truncated : response.truncated with
    | true => exact .inl truncated
    | false =>
      have whole : ¬ (response.withId id).truncated = true := by
        intro h
        cases truncated.symm.trans h
      have exchanged : call'.exchanged = some (response.withId id) := by
        simp only [Call.exchanged, phase, if_neg whole]
      have question := all more t' quiet run c call' there (response.withId id) exchanged
      rw [message] at question
      exact .inr question

def Distinct (t : Transport) : Prop :=
  ∀ c c' call call', t.calls c = some call → t.calls c' = some call' →
    call.phase.isOpen = true → call'.phase.isOpen = true → call.queryId = call'.queryId → c = c'

/-- No two calls that have not returned ever share an identifier. Whatever is returned at any time
carries the question that was asked, without a retry over TCP, if and only if each datagram that
fills the callback of a waiting call does, or is truncated. What can be returned is taken into
account as soon as its datagram has been delivered. -/
theorem udp_answers_iff {labels : List Label} {t : Transport}
    (run : steps step newTransport labels = some t) :
    Distinct t ∧ (Answerable t → Answered t) ∧
    (Answerable t ↔ ∀ more t', (∀ label ∈ more, label.isDeliver = false) →
      steps step t more = some t' → Answered t') ∧
    (Always step Answerable newTransport labels ↔
      Through step (fun t label => label.CarriesQuestion t) newTransport labels) := by
  have registered : Registered t := steps_keeps Registered
    (fun _ _ _ registered taken => registered.step taken)
    ⟨fun _ _ => ⟨fun h => (by cases h), fun ⟨_, h, _⟩ => (by cases h)⟩,
      fun _ _ h => (by cases h)⟩ run
  refine ⟨fun _ _ _ _ => registered.distinct, Answerable.answered, answerable_iff_answered, ?_⟩
  exact always_iff_through Answerable (fun _ _ _ answerable taken =>
    answerable_step_iff answerable taken) (fun _ _ h => (by cases h)) run

/-- A question for the addresses of a name. -/
def asks (name : String) (id : UInt16) : Msg := { id, question := [⟨name, typeA, classINET⟩] }

/-- The answer of a server to the request as it was sent. -/
def answers (name : String) (queryId : UInt16) : Msg :=
  { asks name queryId with response := true }

def answeredCall (message response : Msg) : List Label :=
  [.register message, .receive response, .deliver 0 response, .answer 0, .unregister 0]

theorem udp_answers_own : ∃ t, steps step newTransport
      (answeredCall (asks "example.org." 7) (answers "example.org." 1)) = some t ∧
    Distinct t ∧ Answered t := by
  have run : steps step newTransport
    (answeredCall (asks "example.org." 7) (answers "example.org." 1)) = some _ := rfl
  have all := udp_answers_iff run
  refine ⟨_, run, all.1, all.2.1 ?_⟩
  exact all.2.2.2.mpr (by decide) _ [] _ (List.append_nil _).symm run

/-- A datagram with the identifier of the call is returned, whatever it is about. -/
theorem udp_answers_forged : ∃ t call, steps step newTransport
      (answeredCall (asks "example.org." 7) (answers "attacker.example." 1)) = some t ∧
    t.calls 0 = some call ∧ call.exchanged = some (answers "attacker.example." 7) ∧
    call.message.question ≠ (answers "attacker.example." 7).question ∧ ¬ Answered t := by
  have run : steps step newTransport
    (answeredCall (asks "example.org." 7) (answers "attacker.example." 1)) = some _ := rfl
  refine ⟨_, _, run, rfl, rfl, by decide, fun answered => ?_⟩
  exact absurd (answered 0 _ rfl _ rfl) (by decide)

end Answers

end SingBox.Dns.Udp
