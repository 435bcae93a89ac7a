import SingBox.Dns.ConnPool
import SingBox.Lib.System
import Mathlib.Data.List.Count

/-!
# The shared connection of a single pool

In `ConnPoolSingle` mode all callers share one connection. The first caller that finds none starts a
dial, which runs in a goroutine of its own; the others wait for it. The result is collected under
the lock, and `Reset`, `Close`, `Release` and `Invalidate` may come in between.

The steps are the sections under the lock, each with the closings right after it, and the returns of
the dials. A dial returns connections it has not returned before. A caller may release or invalidate
a connection that it was given, as often as it likes.

* `Moves` — what a step can do;
* `Dials`, `Waits`, `Shares` — the invariants on the dials, the callers that wait, and the
  connections;
* `single_sharing` — what holds of them in every reachable state.
-/

namespace SingBox.Dns.Pool.Single

open SingBox.Lib Function List Nat
open ConnPool

variable {T : Type}

/-- Where `connectSingle` is. -/
inductive Phase (T : Type) where
  | dialing
  /-- The dial has returned a connection that can be used, or none. -/
  | returned (result : Option T)
  /-- `done` is closed; `failed` says that `err` is set. -/
  | done (failed : Bool)
  deriving DecidableEq, Repr

/-- `connPoolConnect` and the goroutine that dials for it. -/
structure Connect (T : Type) where
  /-- The state object it belongs to. -/
  state : Nat
  /-- The caller that has started the dial. -/
  starter : Nat
  phase : Phase T

/-- A call of `acquireShared` that waits for a dial. -/
structure Waiter where
  caller : Nat
  state : Nat
  connect : Nat
  startDial : Bool
  deriving DecidableEq, Repr

structure System (T : Type) where
  pool : ConnPool T
  connects : Nat → Connect T
  nextConnect : Nat
  waiting : List Waiter
  returned : List T
  /-- What callers were given: the connection and `created`. -/
  handed : List (T × Bool)
  /-- The callers that were returned the error of a dial. -/
  received : List (Nat × Nat)

def System.new : System T := ⟨.new, fun _ => ⟨0, 0, .done false⟩, 0, [], [], [], []⟩

inductive Label (T : Type) where
  /-- A turn of the loop of `acquireShared`; `alive` is what `IsAlive` says of the shared
  connection. -/
  | acquire (caller : Nat) (alive : Bool)
  | dial (connect : Nat) (result : DialResult T)
  /-- `connectSingle` takes the lock and closes `done`. -/
  | complete (connect : Nat)
  | collect (waiter : Waiter) (alive : Bool)
  | giveUp (waiter : Waiter)
  /-- The context of the state object of a waiter is done. -/
  | stateDone (waiter : Waiter)
  | release (conn : T) (reuse alive : Bool)
  | invalidate (conn : T)
  | reset
  | close
  deriving DecidableEq, Repr

section Step

variable [DecidableEq T] (s : System T)

/-- The shared connection is given to a caller, or removed if it is not alive. -/
def share (e : Nat) (conn : T) (alive : Bool) : System T :=
  let current := s.pool.objects e
  if alive then
    { s with
      pool := s.pool.setObject e { current with sharedClaimed := true }
      handed := s.handed ++ [(conn, !current.sharedClaimed)] }
  else { s with pool := (s.pool.setObject e (removeConn .single current conn)).pass [conn] }

def acquireStep (caller : Nat) (alive : Bool) : System T :=
  match s.pool.state with
  | none => s
  | some e =>
      let current := s.pool.objects e
      match current.shared, current.connecting with
      | some conn, _ => share s e conn alive
      | none, some k => { s with waiting := s.waiting ++ [⟨caller, e, k, false⟩] }
      | none, none =>
          let k := s.nextConnect
          { s with
            pool := s.pool.setObject e { current with connecting := some k }
            connects := update s.connects k ⟨e, caller, .dialing⟩
            nextConnect := k + 1
            waiting := s.waiting ++ [⟨caller, e, k, true⟩] }

def setPhase (k : Nat) (phase : Phase T) : System T :=
  { s with connects := update s.connects k { s.connects k with phase } }

def dialStep (k : Nat) : DialResult T → Option (System T)
  | .failed => some (setPhase s k (.returned none))
  | .cancelled conn =>
      if conn ∈ s.returned then none
      else some { setPhase s k (.returned none) with
        pool := s.pool.pass [conn], returned := s.returned ++ [conn] }
  | .connected conn =>
      if conn ∈ s.returned then none
      else some { setPhase s k (.returned (some conn)) with returned := s.returned ++ [conn] }

/-- The section of `connectSingle` under the lock. -/
def completeStep (k : Nat) (result : Option T) : System T :=
  let e := (s.connects k).state
  let current := { s.pool.objects e with connecting := none }
  match result with
  | none => { setPhase s k (.done true) with pool := s.pool.setObject e current }
  | some conn =>
      if s.pool.state = some e then
        { setPhase s k (.done false) with
          pool := s.pool.setObject e
            { current with shared := some conn, all := insertKey conn current.all } }
      else
        { setPhase s k (.done true) with
          pool := (s.pool.setObject e current).pass [conn] }

/-- `collectShared`. A waiter that does not return tries again. -/
def collectStep (waiter : Waiter) (failed alive : Bool) : System T :=
  if failed then
    if waiter.startDial then
      { s with received := s.received ++ [(waiter.caller, waiter.connect)] }
    else s
  else if s.pool.state = some waiter.state then
    match (s.pool.objects waiter.state).shared with
    | none => s
    | some conn => share s waiter.state conn alive
  else s

def step : Label T → Option (System T)
  | .acquire caller alive => some (acquireStep s caller alive)
  | .dial k result =>
      match (s.connects k).phase with
      | .dialing => dialStep s k result
      | _ => none
  | .complete k =>
      match (s.connects k).phase with
      | .returned result => some (completeStep s k result)
      | _ => none
  | .collect waiter alive =>
      if waiter ∈ s.waiting then
        match (s.connects waiter.connect).phase with
        | .done failed =>
            some (collectStep { s with waiting := s.waiting.erase waiter } waiter failed alive)
        | _ => none
      else none
  | .giveUp waiter =>
      if waiter ∈ s.waiting then some { s with waiting := s.waiting.erase waiter } else none
  | .stateDone waiter =>
      if waiter ∈ s.waiting ∧ s.pool.state ≠ some waiter.state then
        some { s with waiting := s.waiting.erase waiter }
      else none
  | .release conn reuse alive =>
      if conn ∈ s.handed.map Prod.fst then
        some { s with pool := Pool.release .single s.pool conn reuse alive }
      else none
  | .invalidate conn =>
      if conn ∈ s.handed.map Prod.fst then
        some { s with pool := Pool.invalidate .single s.pool conn }
      else none
  | .reset => some { s with pool := Pool.reset s.pool }
  | .close => some { s with pool := Pool.close s.pool }

end Step

/-! ## What a step does -/

section Moves

/-- A waiter of `s'` was one of `s`, or has joined a dial that another caller has started. -/
def Joined (s : System T) (waiting : List Waiter) : Prop :=
  ∀ w ∈ waiting, w ∈ s.waiting ∨
    w.startDial = false ∧ ∃ e, (s.pool.objects e).connecting = some w.connect

/-- The error of a dial was returned to a waiter that has started it. -/
def Received (s : System T) (received : List (Nat × Nat)) : Prop :=
  ∀ r ∈ received, r ∈ s.received ∨
    ∃ w ∈ s.waiting, w.startDial = true ∧ r = (w.caller, w.connect)

variable {s : System T}

theorem joined_of_subset {waiting : List Waiter} (left : ∀ w ∈ waiting, w ∈ s.waiting) :
    Joined s waiting :=
  fun w mem => .inl (left w mem)

theorem received_self (s : System T) : Received s s.received := fun _ mem => .inl mem

variable [DecidableEq T]

inductive Moves (s : System T) : System T → Prop
  | calls {waiting : List Waiter} {received : List (Nat × Nat)} (joined : Joined s waiting)
      (isReceived : Received s received) : Moves s { s with waiting, received }
  | started {e : Nat} (caller : Nat) (state : s.pool.state = some e)
      (shared : (s.pool.objects e).shared = none)
      (free : (s.pool.objects e).connecting = none) :
      Moves s { s with
        pool := s.pool.setObject e { s.pool.objects e with connecting := some s.nextConnect }
        connects := update s.connects s.nextConnect ⟨e, caller, .dialing⟩
        nextConnect := s.nextConnect + 1
        waiting := s.waiting ++ [⟨caller, e, s.nextConnect, true⟩] }
  | handed {e : Nat} {conn : T} {waiting : List Waiter} (state : s.pool.state = some e)
      (shared : (s.pool.objects e).shared = some conn) (left : ∀ w ∈ waiting, w ∈ s.waiting) :
      Moves s { s with
        pool := s.pool.setObject e { s.pool.objects e with sharedClaimed := true }
        waiting
        handed := s.handed ++ [(conn, !(s.pool.objects e).sharedClaimed)] }
  | dead {e : Nat} {conn : T} {waiting : List Waiter} (state : s.pool.state = some e)
      (shared : (s.pool.objects e).shared = some conn) (left : ∀ w ∈ waiting, w ∈ s.waiting) :
      Moves s { s with
        pool := (s.pool.setObject e (removeConn .single (s.pool.objects e) conn)).pass [conn]
        waiting }
  | dialFailed {k : Nat} (phase : (s.connects k).phase = .dialing) :
      Moves s (setPhase s k (.returned none))
  | dialCancelled {k : Nat} {conn : T} (phase : (s.connects k).phase = .dialing)
      (fresh : conn ∉ s.returned) :
      Moves s { setPhase s k (.returned none) with
        pool := s.pool.pass [conn], returned := s.returned ++ [conn] }
  | dialConnected {k : Nat} {conn : T} (phase : (s.connects k).phase = .dialing)
      (fresh : conn ∉ s.returned) :
      Moves s { setPhase s k (.returned (some conn)) with returned := s.returned ++ [conn] }
  | failed {k : Nat} (phase : (s.connects k).phase = .returned none) :
      Moves s { setPhase s k (.done true) with
        pool := s.pool.setObject (s.connects k).state
          { s.pool.objects (s.connects k).state with connecting := none } }
  | installed {k : Nat} {conn : T} (phase : (s.connects k).phase = .returned (some conn))
      (state : s.pool.state = some (s.connects k).state) :
      Moves s { setPhase s k (.done false) with
        pool := s.pool.setObject (s.connects k).state
          { s.pool.objects (s.connects k).state with
            connecting := none
            shared := some conn
            all := insertKey conn (s.pool.objects (s.connects k).state).all } }
  | outdated {k : Nat} {conn : T} (phase : (s.connects k).phase = .returned (some conn))
      (state : s.pool.state ≠ some (s.connects k).state) :
      Moves s { setPhase s k (.done true) with
        pool := (s.pool.setObject (s.connects k).state
          { s.pool.objects (s.connects k).state with connecting := none }).pass [conn] }
  | givenUp {conn : T} {p : ConnPool T} (givenUp : GivenUp .single s.pool conn p)
      (framed : Framed s.pool p) : Moves s { s with pool := p }
  | reset : Moves s { s with pool := Pool.reset s.pool }
  | closed : Moves s { s with pool := Pool.close s.pool }

theorem share_moves {e : Nat} {conn : T} (alive : Bool) {waiting : List Waiter}
    (state : s.pool.state = some e) (shared : (s.pool.objects e).shared = some conn)
    (left : ∀ w ∈ waiting, w ∈ s.waiting) : Moves s (share { s with waiting } e conn alive) := by
  cases alive
  · exact .dead state shared left
  · exact .handed state shared left

theorem acquireStep_moves (s : System T) (caller : Nat) (alive : Bool) :
    Moves s (acquireStep s caller alive) := by
  unfold acquireStep
  split
  case h_1 => exact .calls (joined_of_subset fun _ => id) (received_self s)
  case h_2 e state =>
    dsimp only
    split
    case h_1 conn shared => exact share_moves alive state shared fun _ => id
    case h_2 k shared busy =>
      refine .calls (forall_mem_append.mpr ⟨fun _ => .inl, ?_⟩) (received_self s)
      exact forall_mem_singleton.mpr (.inr ⟨rfl, e, busy⟩)
    case h_3 shared free => exact .started caller state shared free

theorem collectStep_moves {waiter : Waiter} (mem : waiter ∈ s.waiting) (failed alive : Bool) :
    Moves s (collectStep { s with waiting := s.waiting.erase waiter } waiter failed alive) := by
  have left : ∀ w ∈ s.waiting.erase waiter, w ∈ s.waiting := fun _ => mem_of_mem_erase
  unfold collectStep
  split
  · split
    case isTrue startDial =>
      refine .calls (joined_of_subset left) (forall_mem_append.mpr ⟨fun _ => .inl, ?_⟩)
      exact forall_mem_singleton.mpr (.inr ⟨waiter, mem, startDial, rfl⟩)
    case isFalse => exact .calls (joined_of_subset left) (received_self s)
  · split
    case isTrue state =>
      split
      case h_1 => exact .calls (joined_of_subset left) (received_self s)
      case h_2 conn shared => exact share_moves alive state shared left
    case isFalse => exact .calls (joined_of_subset left) (received_self s)

theorem completeStep_moves {k : Nat} {result : Option T}
    (phase : (s.connects k).phase = .returned result) : Moves s (completeStep s k result) := by
  cases result with
  | none => exact .failed phase
  | some conn =>
    simp only [completeStep]
    split
    case isTrue state => exact .installed phase state
    case isFalse state => exact .outdated phase state

theorem step_moves {s' : System T} {label : Label T} (h : step s label = some s') : Moves s s' := by
  cases label with
  | acquire caller alive =>
    cases h
    exact acquireStep_moves s caller alive
  | dial k result =>
    simp only [step] at h
    split at h
    case h_1 phase =>
      cases result with
      | failed =>
        cases h
        exact .dialFailed phase
      | cancelled conn =>
        obtain ⟨fresh, ⟨⟩⟩ := Option.ite_none_left_eq_some.mp h
        exact .dialCancelled phase fresh
      | connected conn =>
        obtain ⟨fresh, ⟨⟩⟩ := Option.ite_none_left_eq_some.mp h
        exact .dialConnected phase fresh
    case h_2 => cases h
  | complete k =>
    simp only [step] at h
    split at h <;> cases h
    case h_1 result phase => exact completeStep_moves phase
  | collect waiter alive =>
    obtain ⟨mem, h⟩ := Option.ite_none_right_eq_some.mp h
    split at h <;> cases h
    case h_1 failed phase => exact collectStep_moves mem failed alive
  | giveUp | stateDone =>
    simp only [step] at h
    split at h <;> cases h
    exact .calls (joined_of_subset fun _ => mem_of_mem_erase) (received_self s)
  | release conn reuse alive =>
    simp only [step] at h
    split at h <;> cases h
    obtain ⟨givenUp, framed⟩ := givenUp_release .single s.pool conn reuse alive
    exact .givenUp givenUp framed
  | invalidate conn =>
    simp only [step] at h
    split at h <;> cases h
    obtain ⟨givenUp, framed⟩ := givenUp_invalidate .single s.pool conn
    exact .givenUp givenUp framed
  | reset =>
    cases h
    exact .reset
  | close =>
    cases h
    exact .closed

end Moves

/-! ## Dials -/

/-- A state object tracks its shared connection and no other, and none is claimed if there is
none. -/
structure ObjectOk (state : ConnPoolState T) : Prop where
  all : ∀ c, c ∈ state.all ↔ state.shared = some c
  claimed : state.shared = none → state.sharedClaimed = false

/-- `connectSingle` has not taken the lock yet. -/
def InProgress (connects : Nat → Connect T) (k : Nat) : Prop :=
  ∀ failed, (connects k).phase ≠ .done failed

variable {connects : Nat → Connect T}

theorem inProgress_dialing {k : Nat} (phase : (connects k).phase = .dialing) :
    InProgress connects k :=
  fun failed => by simp [phase]

theorem inProgress_returned {k : Nat} {result : Option T}
    (phase : (connects k).phase = .returned result) : InProgress connects k :=
  fun failed => by simp [phase]

section SetPhase

variable {k j : Nat} {phase : Phase T}

/-- A dial is in a phase because it was set to it, or because it was in it before. -/
theorem phase_update {old : Phase T}
    (h : (update connects k { connects k with phase } j).phase = old) :
    j = k ∧ phase = old ∨ j ≠ k ∧ (connects j).phase = old := by
  by_cases here : j = k
  · subst here
    rw [update_self] at h
    exact .inl ⟨rfl, h⟩
  · rw [update_of_ne here] at h
    exact .inr ⟨here, h⟩

end SetPhase

/-- A dial in progress is the one its state object knows, which has no shared connection. -/
structure Dials (p : ConnPool T) (connects : Nat → Connect T) (nextConnect : Nat) : Prop where
  state : ∀ e, p.state = some e → e < p.nextObject
  object : ∀ e, ObjectOk (p.objects e)
  known : ∀ k, InProgress connects k →
    k < nextConnect ∧ (connects k).state < p.nextObject
  connecting : ∀ k, InProgress connects k →
    (p.objects (connects k).state).connecting = some k
  unshared : ∀ k, InProgress connects k → (p.objects (connects k).state).shared = none
  bound : ∀ e k, (p.objects e).connecting = some k → k < nextConnect

section Dials

variable {p p' : ConnPool T} {connects : Nat → Connect T} {nextConnect : Nat}

theorem dials_new : Dials (System.new : System T).pool System.new.connects 0 where
  state e h := by
    cases h
    exact Nat.one_pos
  object e := ⟨fun c => by simp [System.new, ConnPool.new, newConnPoolState], fun _ => rfl⟩
  known k busy := absurd rfl (busy false)
  connecting k busy := absurd rfl (busy false)
  unshared k busy := absurd rfl (busy false)
  bound e k h := by cases h

theorem Dials.pass (dials : Dials p connects nextConnect) (conns : List T) :
    Dials (p.pass conns) connects nextConnect :=
  { dials with }

/-- What the pool knows of a dial in progress for the state object `e`. -/
structure Busy (p : ConnPool T) (nextConnect e k : Nat) : Prop where
  known : k < nextConnect ∧ e < p.nextObject
  connecting : (p.objects e).connecting = some k
  unshared : (p.objects e).shared = none

theorem Dials.busy (dials : Dials p connects nextConnect) {k : Nat}
    (inProgress : InProgress connects k) : Busy p nextConnect (connects k).state k :=
  ⟨dials.known k inProgress, dials.connecting k inProgress, dials.unshared k inProgress⟩

theorem Dials.of_busy (state : ∀ e, p.state = some e → e < p.nextObject)
    (object : ∀ e, ObjectOk (p.objects e))
    (busy : ∀ k, InProgress connects k → Busy p nextConnect (connects k).state k)
    (bound : ∀ e k, (p.objects e).connecting = some k → k < nextConnect) :
    Dials p connects nextConnect where
  state
  object
  known k inProgress := (busy k inProgress).known
  connecting k inProgress := (busy k inProgress).connecting
  unshared k inProgress := (busy k inProgress).unshared
  bound

/-- State objects change that keep their dials and do not come to a shared connection. -/
theorem Dials.frame (dials : Dials p connects nextConnect) (framed : Framed p p')
    (object : ∀ e, ObjectOk (p'.objects e) ∧
      ((p.objects e).shared = none → (p'.objects e).shared = none)) :
    Dials p' connects nextConnect := by
  refine .of_busy (fun e h => ?_) (fun e => (object e).1) (fun k inProgress => ?_) (fun e k h => ?_)
  · rw [framed.nextObject]
    exact dials.state e (framed.state ▸ h)
  · obtain ⟨known, connecting, none⟩ := dials.busy inProgress
    exact ⟨framed.nextObject ▸ known, (framed.connecting _).trans connecting, (object _).2 none⟩
  · exact dials.bound e k ((framed.connecting e).symm.trans h)

theorem busy_update {k : Nat} {connect : Connect T}
    (here : (∀ failed, connect.phase ≠ .done failed) → Busy p nextConnect connect.state k)
    (others : ∀ j, j ≠ k → InProgress connects j → Busy p nextConnect (connects j).state j) :
    ∀ j, InProgress (update connects k connect) j →
      Busy p nextConnect (update connects k connect j).state j :=
  (forall_update_iff connects fun j connect =>
    (∀ failed, connect.phase ≠ .done failed) → Busy p nextConnect connect.state j).mpr
      ⟨here, others⟩

section

variable (dials : Dials p connects nextConnect)
include dials

theorem Dials.phase {k : Nat} (busy : InProgress connects k) (phase : Phase T) :
    Dials p (update connects k { connects k with phase }) nextConnect :=
  .of_busy dials.state dials.object
    (busy_update (fun _ => dials.busy busy) fun _ _ => dials.busy) dials.bound

theorem Dials.unique {k j : Nat} (busy : InProgress connects k) (busy' : InProgress connects j)
    (same : (connects k).state = (connects j).state) : k = j := by
  have one := dials.connecting k busy
  rw [same, dials.connecting j busy'] at one
  exact (Option.some.inj one).symm

/-- A dial ends: its state object forgets it, and may have a shared connection now. -/
theorem Dials.finish {k : Nat} (busy : InProgress connects k) (failed : Bool)
    {state : ConnPoolState T} (ok : ObjectOk state) (forgotten : state.connecting = none) :
    Dials (p.setObject (connects k).state state)
      (update connects k { connects k with phase := .done failed }) nextConnect := by
  have elsewhere (j : Nat) (ne : j ≠ k) (inProgress : InProgress connects j) :
      Busy (p.setObject (connects k).state state) nextConnect (connects j).state j := by
    obtain ⟨known, connecting, unshared⟩ := dials.busy inProgress
    have same := setObject_of_ne p (fun same => ne (dials.unique inProgress busy same)) state
    exact ⟨known, same ▸ connecting, same ▸ unshared⟩
  refine .of_busy dials.state ?_ (busy_update (fun ended => absurd rfl (ended failed)) elsewhere) ?_
  · exact (forall_update_iff p.objects fun _ => ObjectOk).mpr
      ⟨ok, fun e _ => dials.object e⟩
  · refine (forall_update_iff p.objects fun _ state => ∀ j, state.connecting = some j →
      j < nextConnect).mpr ⟨fun j h => ?_, fun e _ => dials.bound e⟩
    cases forgotten.symm.trans h

/-- A dial is started for a state object that has neither a dial nor a shared connection. -/
theorem Dials.start {e : Nat} (caller : Nat) (state : p.state = some e)
    (shared : (p.objects e).shared = none) (free : (p.objects e).connecting = none) :
    Dials (p.setObject e { p.objects e with connecting := some nextConnect })
      (update connects nextConnect ⟨e, caller, .dialing⟩) (nextConnect + 1) := by
  have elsewhere (j : Nat) (inProgress : InProgress connects j) :
      Busy (p.setObject e { p.objects e with connecting := some nextConnect }) (nextConnect + 1)
        (connects j).state j := by
    obtain ⟨known, connecting, unshared⟩ := dials.busy inProgress
    have ne : (connects j).state ≠ e := by
      rintro rfl
      cases free.symm.trans connecting
    have same := setObject_of_ne p ne { p.objects e with connecting := some nextConnect }
    exact ⟨⟨lt_succ_of_lt known.1, known.2⟩, same ▸ connecting, same ▸ unshared⟩
  refine .of_busy dials.state ?_ (busy_update (fun _ => ?_) fun j _ => elsewhere j) ?_
  · exact (forall_update_iff p.objects fun _ => ObjectOk).mpr
      ⟨⟨(dials.object e).all, (dials.object e).claimed⟩, fun other _ => dials.object other⟩
  · have self := setObject_self p e { p.objects e with connecting := some nextConnect }
    exact ⟨⟨lt_succ_self _, dials.state e state⟩, by rw [self], by rw [self]; exact shared⟩
  · refine (forall_update_iff p.objects fun _ state => ∀ j, state.connecting = some j →
      j < nextConnect + 1).mpr ⟨fun j h => ?_, fun other _ j h => ?_⟩
    · cases h
      exact lt_succ_self _
    · exact lt_succ_of_lt (dials.bound other j h)

theorem Dials.reset : Dials (Pool.reset p) connects nextConnect := by
  unfold Pool.reset
  split
  case h_1 => exact dials
  case h_2 e state =>
    refine .of_busy (fun other h => ?_) ?_ (fun j inProgress => ?_) ?_
    · cases h
      exact lt_succ_self _
    · exact (forall_update_iff p.objects fun _ => ObjectOk).mpr
        ⟨⟨fun c => by simp [newConnPoolState], fun _ => rfl⟩, fun other _ => dials.object other⟩
    · obtain ⟨known, connecting, unshared⟩ := dials.busy inProgress
      have same := setObject_of_ne p (Nat.ne_of_lt known.2) newConnPoolState
      exact ⟨⟨known.1, lt_succ_of_lt known.2⟩, same ▸ connecting, same ▸ unshared⟩
    · exact (forall_update_iff p.objects fun _ state => ∀ j, state.connecting = some j →
        j < nextConnect).mpr ⟨fun _ h => (by cases h), fun other _ => dials.bound other⟩

theorem Dials.close : Dials (Pool.close p) connects nextConnect := by
  unfold Pool.close
  split
  case h_1 => exact dials
  case h_2 e state =>
    exact { dials with state := nofun }

end

variable [DecidableEq T]

theorem ObjectOk.removeConn {state : ConnPoolState T} (ok : ObjectOk state) (c : T) :
    ObjectOk (removeConn .single state c) := by
  unfold Pool.removeConn
  dsimp only
  split
  case isTrue shared =>
    refine ⟨fun x => iff_of_false (fun mem => ?_) nofun, fun _ => rfl⟩
    obtain ⟨mem, ne⟩ := mem_delete.mp mem
    have same := (ok.all x).mp mem
    rw [shared] at same
    exact ne (Option.some.inj same).symm
  case isFalse other =>
    refine ⟨fun x => ?_, ok.claimed⟩
    rw [mem_delete, ok.all x]
    refine and_iff_left_of_imp fun same isC => other ?_
    rw [← isC]
    exact same

theorem removeConn_shared_none {state : ConnPoolState T} {c : T} (none : state.shared = none) :
    (removeConn .single state c).shared = Option.none := by
  unfold Pool.removeConn
  dsimp only
  split
  · rfl
  · exact none

/-- What a connection given up leaves of a state object. -/
theorem givenUp_object {conn : T} (givenUp : GivenUp .single p conn p') (framed : Framed p p')
    (e : Nat) : p'.objects e = p.objects e ∨
      p.state = some e ∧ p'.objects e = removeConn .single (p.objects e) conn := by
  by_cases here : p.state = some e
  · have isCurrent := current_eq here
    have isCurrent' : p'.current = p'.objects e := current_eq (framed.state.trans here)
    rw [← isCurrent, ← isCurrent']
    cases givenUp with
    | unknown _ current | kept _ current => exact .inl current
    | removed tracked current passed => exact .inr ⟨here, current⟩
  · exact .inl (framed.objects e here)

theorem Dials.givenUp (dials : Dials p connects nextConnect) {conn : T}
    (givenUp : GivenUp .single p conn p') (framed : Framed p p') :
    Dials p' connects nextConnect := by
  refine dials.frame framed fun e => ?_
  rcases givenUp_object givenUp framed e with same | ⟨-, removed⟩
  · rw [same]
    exact ⟨dials.object e, id⟩
  · rw [removed]
    exact ⟨(dials.object e).removeConn conn, removeConn_shared_none⟩

/-- A shared connection that is not alive is removed as one that is given up. -/
theorem givenUp_dead (dials : Dials p connects nextConnect) {e : Nat} {conn : T}
    (state : p.state = some e) (shared : (p.objects e).shared = some conn) :
    GivenUp .single p conn
      ((p.setObject e (removeConn .single (p.objects e) conn)).pass [conn]) := by
  have isCurrent := current_eq state
  refine .removed ?_ ?_ rfl
  · rw [isCurrent]
    exact ((dials.object e).all conn).mpr shared
  · rw [current_pass, current_setObject state, isCurrent]

theorem Dials.moves {s s' : System T} (dials : Dials s.pool s.connects s.nextConnect)
    (moves : Moves s s') : Dials s'.pool s'.connects s'.nextConnect := by
  cases moves with
  | calls => exact dials
  | started caller state shared free => exact dials.start caller state shared free
  | @handed e conn waiting state shared left =>
    refine dials.frame (framed_setObject state rfl) fun other => ?_
    by_cases here : other = e
    · rw [here, setObject_self]
      refine ⟨⟨(dials.object e).all, fun none => ?_⟩, id⟩
      cases shared.symm.trans none
    · rw [setObject_of_ne s.pool here]
      exact ⟨dials.object other, id⟩
  | @dead e conn waiting state shared left =>
    have framed : Framed s.pool
        ((s.pool.setObject e (removeConn .single (s.pool.objects e) conn)).pass [conn]) :=
      (framed_setObject state (removeConn_connecting ..)).pass _
    exact dials.givenUp (givenUp_dead dials state shared) framed
  | dialFailed phase | dialConnected phase => exact dials.phase (inProgress_dialing phase) _
  | dialCancelled phase fresh =>
    exact (dials.phase (inProgress_dialing phase) (.returned none)).pass _
  | @failed k phase =>
    have ok := dials.object (s.connects k).state
    exact dials.finish (inProgress_returned phase) true ⟨ok.all, ok.claimed⟩ rfl
  | @installed k conn phase state =>
    have busy := inProgress_returned phase
    have ok := dials.object (s.connects k).state
    have unshared := dials.unshared k busy
    refine dials.finish busy false ⟨fun c => ?_, nofun⟩ rfl
    rw [mem_insertKey, ok.all c, unshared, Option.some.injEq, eq_comm (a := conn)]
    exact or_iff_right nofun
  | @outdated k conn phase state =>
    have ok := dials.object (s.connects k).state
    refine Dials.pass ?_ _
    exact dials.finish (inProgress_returned phase) true ⟨ok.all, ok.claimed⟩ rfl
  | givenUp givenUp framed => exact dials.givenUp givenUp framed
  | reset => exact dials.reset
  | closed => exact dials.close

end Dials

/-! ## Callers that wait -/

/-- The waiter that is returned the error of a dial has started it. -/
structure Waits (s : System T) : Prop where
  waiting : ∀ w ∈ s.waiting, w.connect < s.nextConnect ∧
    (w.startDial = true → (s.connects w.connect).starter = w.caller)
  received : ∀ r ∈ s.received, r.2 < s.nextConnect ∧ (s.connects r.2).starter = r.1

section Waits

theorem starter_setPhase (s : System T) (k j : Nat) (phase : Phase T) :
    ((setPhase s k phase).connects j).starter = (s.connects j).starter := by
  by_cases here : j = k
  · subst here
    simp [setPhase]
  · simp [setPhase, update_of_ne here]

variable [DecidableEq T] {s s' : System T}

theorem starter_moves (moves : Moves s s') :
    s.nextConnect ≤ s'.nextConnect ∧
      ∀ k < s.nextConnect, (s'.connects k).starter = (s.connects k).starter := by
  cases moves with
  | started caller state shared free =>
    refine ⟨le_succ _, fun k small => ?_⟩
    show (update s.connects s.nextConnect _ k).starter = _
    rw [update_of_ne (Nat.ne_of_lt small)]
  | dialFailed | dialCancelled | dialConnected | failed | installed | outdated =>
    exact ⟨Nat.le_refl _, fun k _ => starter_setPhase s _ k _⟩
  | calls | handed | dead | givenUp | reset | closed =>
    exact ⟨Nat.le_refl _, fun _ _ => rfl⟩

theorem Waits.moves (waits : Waits s) (dials : Dials s.pool s.connects s.nextConnect)
    (moves : Moves s s') : Waits s' := by
  obtain ⟨more, starter⟩ := starter_moves moves
  have waiting : ∀ w ∈ s.waiting, w.connect < s'.nextConnect ∧
      (w.startDial = true → (s'.connects w.connect).starter = w.caller) := by
    intro w mem
    obtain ⟨small, started⟩ := waits.waiting w mem
    refine ⟨Nat.lt_of_lt_of_le small more, fun startDial => ?_⟩
    rw [starter _ small]
    exact started startDial
  have received : ∀ r ∈ s.received, r.2 < s'.nextConnect ∧ (s'.connects r.2).starter = r.1 := by
    intro r mem
    obtain ⟨small, started⟩ := waits.received r mem
    exact ⟨Nat.lt_of_lt_of_le small more, (starter _ small).trans started⟩
  cases moves with
  | calls joined isReceived =>
    refine ⟨fun w mem => ?_, fun r mem => ?_⟩
    · rcases joined w mem with old | ⟨notStarted, e, busy⟩
      · exact waiting w old
      · refine ⟨dials.bound e w.connect busy, fun startDial => ?_⟩
        cases notStarted.symm.trans startDial
    · rcases isReceived r mem with old | ⟨w, isWaiting, startDial, rfl⟩
      · exact received r old
      · exact ⟨(waiting w isWaiting).1, (waiting w isWaiting).2 startDial⟩
  | started caller state shared free =>
    refine ⟨forall_mem_append.mpr ⟨waiting, forall_mem_singleton.mpr ⟨lt_succ_self _,
      fun _ => ?_⟩⟩, received⟩
    show (update s.connects s.nextConnect _ s.nextConnect).starter = caller
    rw [update_self]
  | handed state shared left | dead state shared left =>
    exact ⟨fun w mem => waiting w (left w mem), received⟩
  | dialFailed | dialCancelled | dialConnected | failed | installed | outdated | givenUp | reset
  | closed => exact ⟨waiting, received⟩

end Waits

/-! ## Where a connection is -/

/-- What is known of the shared connection, of those that arrive, and of those that were given to
callers. -/
structure Shares (shared : Option T) (claimed : Bool) (passed : List T)
    (connects : Nat → Connect T) (returned : List T) (handed : List (T × Bool)) : Prop where
  /-- One caller was told that it was the first. -/
  once : ∀ c b, (c, b) ∈ handed → ∃ first second,
    handed = first ++ (c, true) :: second ∧ (∀ b, (c, b) ∉ first) ∧ (c, true) ∉ second
  claim : ∀ c, shared = some c → (claimed = true ↔ ∃ b, (c, b) ∈ handed)
  sharedReturned : ∀ c, shared = some c → c ∈ returned
  handedReturned : ∀ c b, (c, b) ∈ handed → c ∈ returned
  /-- What a dial has returned has not been shared or given to a caller. -/
  arriving : ∀ k c, (connects k).phase = .returned (some c) →
    c ∈ returned ∧ (∀ b, (c, b) ∉ handed) ∧ shared ≠ some c
  unique : ∀ k j c, (connects k).phase = .returned (some c) →
    (connects j).phase = .returned (some c) → k = j
  placed : ∀ c ∈ returned,
    shared = some c ∨ c ∈ passed ∨ ∃ k, (connects k).phase = .returned (some c)

section Shares

variable {shared : Option T} {claimed : Bool} {passed : List T} {connects : Nat → Connect T}
  {returned : List T} {handed : List (T × Bool)}

theorem shares_new : Shares (T := T) none false [] System.new.connects [] [] where
  once := nofun
  claim := nofun
  sharedReturned := nofun
  handedReturned := nofun
  arriving := nofun
  unique := nofun
  placed := nofun

variable {more : List T} {c : T} {k : Nat}

theorem Shares.pass (shares : Shares shared claimed passed connects returned handed)
    (sub : ∀ c ∈ passed, c ∈ more) : Shares shared claimed more connects returned handed :=
  { shares with
    placed := fun c mem => (shares.placed c mem).imp id (Or.imp (sub c) id) }

theorem Shares.hand (shares : Shares (some c) claimed passed connects returned handed) :
    Shares (some c) true passed connects returned (handed ++ [(c, !claimed)]) := { shares with
  once c' b mem := by
    by_cases same : c' = c
    · subst same
      cases claimed with
      | true =>
        obtain ⟨b', before⟩ := (shares.claim c' rfl).mp rfl
        obtain ⟨first, second, split, notFirst, notSecond⟩ := shares.once c' b' before
        refine ⟨first, second ++ [(c', false)], by simp [split], notFirst, ?_⟩
        simp [notSecond]
      | false =>
        refine ⟨handed, [], rfl, fun b' before => ?_, not_mem_nil⟩
        cases (shares.claim c' rfl).mpr ⟨b', before⟩
    · have before : (c', b) ∈ handed := by simpa [same] using mem
      obtain ⟨first, second, split, notFirst, notSecond⟩ := shares.once c' b before
      refine ⟨first, second ++ [(c, !claimed)], by simp [split], notFirst, ?_⟩
      simp [notSecond, same]
  claim c' isShared := by
    cases isShared
    exact iff_of_true rfl ⟨!claimed, by simp⟩
  handedReturned c' b mem := by
    rcases mem_append.mp mem with old | new
    · exact shares.handedReturned c' b old
    · cases mem_singleton.mp new
      exact shares.sharedReturned c rfl
  arriving k c' phase := by
    obtain ⟨isReturned, notHanded, notShared⟩ := shares.arriving k c' phase
    refine ⟨isReturned, fun b mem => ?_, notShared⟩
    rcases mem_append.mp mem with old | new
    · exact notHanded b old
    · cases mem_singleton.mp new
      exact notShared rfl }

variable (shares : Shares shared claimed passed connects returned handed)
include shares

theorem Shares.drop (sub : ∀ c ∈ passed, c ∈ more) (closed : ∀ c, shared = some c → c ∈ more) :
    Shares none false more connects returned handed := { shares with
  claim := nofun
  sharedReturned := nofun
  arriving k c phase :=
    ⟨(shares.arriving k c phase).1, (shares.arriving k c phase).2.1, nofun⟩
  placed c mem := by
    rcases shares.placed c mem with isShared | isPassed | arriving
    · exact .inr (.inl (closed c isShared))
    · exact .inr (.inl (sub c isPassed))
    · exact .inr (.inr arriving) }

/-- A dial changes that has no connection before or after. -/
theorem Shares.connect {connect : Connect T} (before : ∀ c, (connects k).phase ≠ .returned (some c))
    (after : ∀ c, connect.phase ≠ .returned (some c)) :
    Shares shared claimed passed (update connects k connect) returned handed := by
  have same (j : Nat) (c : T) :
      (update connects k connect j).phase = .returned (some c) ↔
        (connects j).phase = .returned (some c) := by
    by_cases here : j = k
    · subst here
      rw [update_self]
      exact iff_of_false (after c) (before c)
    · rw [update_of_ne here]
  exact { shares with
    arriving := fun j c phase => shares.arriving j c ((same j c).mp phase)
    unique := fun j j' c phase phase' =>
      shares.unique j j' c ((same j c).mp phase) ((same j' c).mp phase')
    placed := fun c mem => by
      simp only [same]
      exact shares.placed c mem }

theorem Shares.cancelled (c : T) :
    Shares shared claimed (passed ++ [c]) connects (returned ++ [c]) handed := { shares with
  sharedReturned c' h := mem_append_left _ (shares.sharedReturned c' h)
  handedReturned c' b mem := mem_append_left _ (shares.handedReturned c' b mem)
  arriving k c' phase := by
    obtain ⟨isReturned, rest⟩ := shares.arriving k c' phase
    exact ⟨mem_append_left _ isReturned, rest⟩
  placed c' mem := by
    rcases mem_append.mp mem with old | new
    · exact (shares.placed c' old).imp id (Or.imp (mem_append_left _) id)
    · exact .inr (.inl (mem_append_right _ new)) }

theorem Shares.connected (dialing : (connects k).phase = .dialing) (fresh : c ∉ returned) :
    Shares shared claimed passed
      (update connects k { connects k with phase := .returned (some c) })
      (returned ++ [c]) handed := by
  have cases {j : Nat} {c' : T} (phase : (update connects k
      { connects k with phase := .returned (some c) } j).phase = .returned (some c')) :
      j = k ∧ c' = c ∨ j ≠ k ∧ (connects j).phase = .returned (some c') := by
    refine (phase_update phase).imp_left fun ⟨here, same⟩ => ⟨here, ?_⟩
    cases same
    rfl
  refine { shares with
    sharedReturned := fun c' h => mem_append_left _ (shares.sharedReturned c' h)
    handedReturned := fun c' b mem => mem_append_left _ (shares.handedReturned c' b mem)
    arriving := fun j c' phase => ?_
    unique := fun j j' c' phase phase' => ?_
    placed := fun c' mem => ?_ }
  · rcases cases phase with ⟨rfl, rfl⟩ | ⟨-, old⟩
    · refine ⟨by simp, fun b mem => fresh (shares.handedReturned c' b mem), fun isShared => ?_⟩
      exact fresh (shares.sharedReturned c' isShared)
    · obtain ⟨isReturned, rest⟩ := shares.arriving j c' old
      exact ⟨mem_append_left _ isReturned, rest⟩
  · rcases cases phase with ⟨rfl, rfl⟩ | ⟨-, old⟩ <;>
      rcases cases phase' with ⟨rfl, same⟩ | ⟨-, old'⟩
    · rfl
    · exact absurd (shares.arriving j' c' old').1 fresh
    · subst same
      exact absurd (shares.arriving j c' old).1 fresh
    · exact shares.unique j j' c' old old'
  · rcases mem_append.mp mem with old | new
    · refine (shares.placed c' old).imp id (Or.imp id fun ⟨j, phase⟩ => ⟨j, ?_⟩)
      have ne : j ≠ k := by
        rintro rfl
        cases dialing.symm.trans phase
      rw [update_of_ne ne]
      exact phase
    · rw [mem_singleton.mp new]
      exact .inr (.inr ⟨k, by rw [update_self]⟩)

/-- `connectSingle` is through with its connection, which is shared now or closed. -/
theorem Shares.arrive (arrived : (connects k).phase = .returned (some c)) (failed : Bool)
    (sub : ∀ c ∈ passed, c ∈ more) {shared' : Option T} {claimed' : Bool}
    (next : shared' = shared ∧ claimed' = claimed ∧ c ∈ more ∨
      shared = none ∧ shared' = some c ∧ claimed' = false) :
    Shares shared' claimed' more
      (update connects k { connects k with phase := .done failed }) returned handed := by
  obtain ⟨isReturned, notHanded, notShared⟩ := shares.arriving k c arrived
  have others {j : Nat} {c' : T} (phase : (update connects k
      { connects k with phase := .done failed } j).phase = .returned (some c')) :
      j ≠ k ∧ (connects j).phase = .returned (some c') :=
    (phase_update phase).resolve_left fun ended => by cases ended.2
  have isShared {c' : T} (h : shared' = some c') : shared = some c' ∨ shared = none ∧ c' = c := by
    rcases next with ⟨rfl, -⟩ | ⟨none, rfl, -⟩
    · exact .inl h
    · exact .inr ⟨none, (Option.some.inj h).symm⟩
  refine { shares with
    claim := fun c' h => ?_
    sharedReturned := fun c' h => ?_
    arriving := fun j c' phase => ?_
    unique := fun j j' c' phase phase' =>
      shares.unique j j' c' (others phase).2 (others phase').2
    placed := fun c' mem => ?_ }
  · rcases next with ⟨rfl, rfl, -⟩ | ⟨-, rfl, rfl⟩
    · exact shares.claim c' h
    · cases h
      exact iff_of_false nofun fun ⟨b, mem⟩ => notHanded b mem
  · rcases isShared h with old | ⟨-, rfl⟩
    · exact shares.sharedReturned c' old
    · exact isReturned
  · obtain ⟨ne, old⟩ := others phase
    obtain ⟨isReturned', notHanded', notShared'⟩ := shares.arriving j c' old
    refine ⟨isReturned', notHanded', fun h => ?_⟩
    rcases isShared h with same | ⟨-, rfl⟩
    · exact notShared' same
    · exact ne (shares.unique j k c' old arrived)
  · by_cases same : c' = c
    · subst same
      rcases next with ⟨-, -, closed⟩ | ⟨-, isShared', -⟩
      · exact .inr (.inl closed)
      · exact .inl isShared'
    · rcases shares.placed c' mem with old | isPassed | ⟨j, phase⟩
      · rcases next with ⟨rfl, -⟩ | ⟨none, -⟩
        · exact .inl old
        · cases none.symm.trans old
      · exact .inr (.inl (sub c' isPassed))
      · refine .inr (.inr ⟨j, ?_⟩)
        have ne : j ≠ k := by
          rintro rfl
          cases arrived.symm.trans phase
          exact same rfl
        rw [update_of_ne ne]
        exact phase

end Shares

/-! ## Every reachable state -/

structure Inv (s : System T) : Prop where
  dials : Dials s.pool s.connects s.nextConnect
  waits : Waits s
  shares : Shares s.pool.current.shared s.pool.current.sharedClaimed s.pool.passed s.connects
    s.returned s.handed

section Inv

theorem inv_new : Inv (System.new : System T) :=
  ⟨dials_new, ⟨nofun, nofun⟩, shares_new⟩

variable {p : ConnPool T}

/-- A closed pool has an empty state, so the current one always tracks just its shared
connection. -/
theorem Dials.current {nextConnect : Nat} (dials : Dials p connects nextConnect) :
    ObjectOk p.current := by
  cases state : p.state with
  | none =>
    rw [current_closed state]
    exact ⟨fun c => by simp [newConnPoolState], fun _ => rfl⟩
  | some e =>
    rw [current_eq state]
    exact dials.object e

/-- A state object forgets or gets a dial: the current one shares what it did. -/
theorem current_connecting (p : ConnPool T) (e : Nat) (connecting : Option Nat) :
    (p.setObject e { p.objects e with connecting }).current.shared = p.current.shared ∧
      (p.setObject e { p.objects e with connecting }).current.sharedClaimed =
        p.current.sharedClaimed := by
  simp only [ConnPool.current, ConnPool.setObject]
  split
  case h_1 current state =>
    by_cases here : current = e
    · rw [here, update_self]
      exact ⟨rfl, rfl⟩
    · rw [update_of_ne here]
      exact ⟨rfl, rfl⟩
  case h_2 => exact ⟨rfl, rfl⟩

theorem Inv.emptied {s : System T} (inv : Inv s) (emptied : Emptied s.pool p) :
    Shares p.current.shared p.current.sharedClaimed p.passed s.connects s.returned s.handed := by
  rw [emptied.current, emptied.passed]
  refine inv.shares.drop (fun c => mem_append_left _) fun c shared => ?_
  exact mem_append_right _ ((inv.dials.current.all c).mpr shared)

theorem Inv.installed {s : System T} (inv : Inv s) {k : Nat} {conn : T}
    (phase : (s.connects k).phase = .returned (some conn))
    (state : s.pool.state = some (s.connects k).state) :
    Shares (some conn) (s.pool.objects (s.connects k).state).sharedClaimed s.pool.passed
      (setPhase s k (.done false)).connects s.returned s.handed := by
  have unshared := inv.dials.unshared k (inProgress_returned phase)
  have unclaimed := (inv.dials.object _).claimed unshared
  refine inv.shares.arrive phase false (fun _ => id) (.inr ⟨?_, rfl, unclaimed⟩)
  rw [current_eq state]
  exact unshared

variable [DecidableEq T] {s s' : System T}

theorem removeConn_shared {state : ConnPoolState T} {c : T} (shared : state.shared = some c) :
    (removeConn .single state c).shared = none ∧
      (removeConn .single state c).sharedClaimed = false := by
  simp [removeConn, shared]

theorem Inv.givenUp (inv : Inv s) {conn : T} (givenUp : GivenUp .single s.pool conn p) :
    Shares p.current.shared p.current.sharedClaimed p.passed s.connects s.returned s.handed := by
  cases givenUp with
  | unknown out current passed =>
    rw [current]
    refine inv.shares.pass fun c mem => ?_
    rcases passed with same | more
    · exact same ▸ mem
    · exact more ▸ mem_append_left _ mem
  | removed tracked current passed =>
    have shared := (inv.dials.current.all conn).mp tracked
    obtain ⟨none, unclaimed⟩ := removeConn_shared shared
    rw [current, none, unclaimed, passed]
    refine inv.shares.drop (fun c => mem_append_left _) fun c isShared => ?_
    cases shared.symm.trans isShared
    exact mem_append_right _ (mem_singleton_self conn)
  | kept tracked current passed =>
    rw [current, passed]
    exact inv.shares

theorem Inv.sharesMoves (inv : Inv s) (moves : Moves s s') :
    Shares s'.pool.current.shared s'.pool.current.sharedClaimed s'.pool.passed s'.connects
      s'.returned s'.handed := by
  have shares := inv.shares
  cases moves with
  | calls => exact shares
  | @started e caller state shared free =>
    obtain ⟨sameShared, sameClaimed⟩ := current_connecting s.pool e (some s.nextConnect)
    rw [sameShared, sameClaimed]
    refine shares.connect (fun c phase => ?_) nofun
    exact Nat.lt_irrefl _ (inv.dials.known s.nextConnect (inProgress_returned phase)).1
  | @handed e conn waiting state shared left =>
    rw [current_eq state, shared] at shares
    rw [current_setObject state]
    rw [shared]
    exact shares.hand
  | dead state shared left => exact inv.givenUp (givenUp_dead inv.dials state shared)
  | dialFailed phase =>
    exact shares.connect (fun c => by simp [phase]) (fun c h => by cases h)
  | dialCancelled phase fresh =>
    exact (shares.connect (fun c => by simp [phase]) (fun c h => by cases h)).cancelled _
  | dialConnected phase fresh => exact shares.connected phase fresh
  | @failed k phase =>
    obtain ⟨sameShared, sameClaimed⟩ := current_connecting s.pool (s.connects k).state none
    rw [sameShared, sameClaimed]
    exact shares.connect (fun c => by simp [phase]) nofun
  | installed phase state =>
    rw [current_setObject state]
    exact inv.installed phase state
  | @outdated k conn phase state =>
    obtain ⟨sameShared, sameClaimed⟩ := current_connecting s.pool (s.connects k).state none
    rw [current_pass, sameShared, sameClaimed]
    refine shares.arrive phase true (fun c => mem_append_left _) (.inl ⟨rfl, rfl, ?_⟩)
    exact mem_append_right _ (mem_singleton_self conn)
  | givenUp givenUp framed => exact inv.givenUp givenUp
  | reset => exact inv.emptied (reset_emptied s.pool)
  | closed => exact inv.emptied (close_emptied s.pool)

theorem Inv.moves (inv : Inv s) (moves : Moves s s') : Inv s' :=
  ⟨inv.dials.moves moves, inv.waits.moves inv.dials moves, inv.sharesMoves moves⟩

theorem inv_run {labels : List (Label T)} (run : steps step System.new labels = some s) : Inv s :=
  steps_keeps Inv (fun _ _ _ inv taken => inv.moves (step_moves taken)) inv_new run

end Inv

/-- In every reachable state each state object has at most one dial in progress, none if it has a
shared connection, and tracks at most that connection; of the callers that were given a connection
exactly one was told that it was created; a caller that was returned the error of a dial has started
it; and every connection a dial has returned is the current shared connection, has been passed to
`options.Close`, or is with the `connectSingle` that has dialled it and not taken the lock yet. -/
theorem single_sharing [DecidableEq T] {labels : List (Label T)} {s : System T}
    (run : steps step System.new labels = some s) :
    (∀ k j, InProgress s.connects k → InProgress s.connects j →
      (s.connects k).state = (s.connects j).state → k = j) ∧
    (∀ k, InProgress s.connects k → (s.pool.objects (s.connects k).state).shared = none) ∧
    (∀ e c, c ∈ (s.pool.objects e).all ↔ (s.pool.objects e).shared = some c) ∧
    (∀ c b, (c, b) ∈ s.handed → s.handed.count (c, true) = 1) ∧
    (∀ caller k, (caller, k) ∈ s.received → (s.connects k).starter = caller) ∧
    (∀ c ∈ s.returned, s.pool.current.shared = some c ∨ c ∈ s.pool.passed ∨
      ∃ k, (s.connects k).phase = .returned (some c)) := by
  have inv := inv_run run
  refine ⟨fun k j busy busy' => inv.dials.unique busy busy', inv.dials.unshared, ?_, ?_, ?_,
    inv.shares.placed⟩
  · exact fun e => (inv.dials.object e).all
  · intro c b mem
    obtain ⟨first, second, split, notFirst, notSecond⟩ := inv.shares.once c b mem
    rw [split, count_append, count_cons_self, count_eq_zero.mpr (notFirst true),
      count_eq_zero.mpr notSecond]
  · exact fun caller k mem => (inv.waits.received _ mem).2

/-- Two callers share a dial that is outdated when it returns; one of them is returned its error and
the other starts a new dial, whose connection both are given. -/
def sharedRun : List (Label Nat) :=
  [.acquire 1 true, .acquire 2 true, .reset, .dial 0 (.connected 7), .complete 0,
    .collect ⟨1, 0, 0, true⟩ true, .collect ⟨2, 0, 0, false⟩ true, .acquire 2 true,
    .acquire 1 true, .dial 1 (.connected 8), .complete 1, .collect ⟨1, 1, 1, false⟩ true,
    .collect ⟨2, 1, 1, true⟩ true]

theorem single_sharing_outdated :
    ∃ s, steps step System.new sharedRun = some s ∧ s.received = [(1, 0)] ∧
      s.handed = [(8, true), (8, false)] ∧ s.pool.passed = [7] ∧ s.handed.count (8, true) = 1 := by
  have run : steps step System.new sharedRun = some _ := rfl
  exact ⟨_, run, rfl, rfl, rfl, (single_sharing run).2.2.2.1 8 true (by decide)⟩

end SingBox.Dns.Pool.Single
