import Mathlib.Data.List.Basic

/-!
# The connection pool of DNS transports

`ConnPool` of `dns/transport/conn_pool.go` keeps connections in a state object that `Reset` replaces
as a whole. This module has the pool and the calls both of its modes share: `Release`, `Invalidate`,
`Reset` and `Close`. A call is one section under the lock of the pool together with the closings it
makes right after it, so each is one step here.

`Close` sets `closed` and `state = nil` in one section, and nothing else sets either, so the pool is
closed exactly if it has no state object.

* `givenUp_release`, `givenUp_invalidate` — a connection that is given up is unknown to the pool,
  removed from it, or kept for the next caller;
* `reset_emptied`, `close_emptied` — the current state is empty and its connections are closed.
-/

namespace SingBox.Dns.Pool

open Function

inductive ConnPoolMode where
  | single
  | ordered
  deriving DecidableEq, Repr

variable {T : Type}

/-- `connPoolState`. The maps are lists of their keys, and `connecting` is the number of the
`connPoolConnect`. -/
structure ConnPoolState (T : Type) where
  all : List T
  idle : List T
  idleElements : List T
  shared : Option T
  sharedClaimed : Bool
  connecting : Option Nat

def newConnPoolState : ConnPoolState T := ⟨[], [], [], none, false, none⟩

structure ConnPool (T : Type) where
  /-- The number of the state object. -/
  state : Option Nat
  objects : Nat → ConnPoolState T
  nextObject : Nat
  /-- The connections passed to `options.Close`. -/
  passed : List T

inductive DialResult (T : Type) where
  | failed
  /-- The dial returned a connection, but its context has been cancelled. -/
  | cancelled (conn : T)
  | connected (conn : T)
  deriving DecidableEq, Repr

namespace ConnPool

def new : ConnPool T := ⟨some 0, fun _ => newConnPoolState, 1, []⟩

/-- The current state; a closed pool tracks nothing. -/
def current (p : ConnPool T) : ConnPoolState T :=
  match p.state with
  | some e => p.objects e
  | none => newConnPoolState

def setObject (p : ConnPool T) (e : Nat) (state : ConnPoolState T) : ConnPool T :=
  { p with objects := update p.objects e state }

/-- `options.Close` -/
def pass (p : ConnPool T) (conns : List T) : ConnPool T := { p with passed := p.passed ++ conns }

variable (p : ConnPool T)

@[simp] theorem pass_passed (conns : List T) :
    (p.pass conns).passed = p.passed ++ conns := rfl

@[simp] theorem current_pass (conns : List T) :
    (p.pass conns).current = p.current := rfl

@[simp] theorem setObject_passed (e : Nat) (state : ConnPoolState T) :
    (p.setObject e state).passed = p.passed := rfl

theorem current_eq {p : ConnPool T} {e : Nat} (h : p.state = some e) : p.current = p.objects e := by
  rw [current, h]

theorem current_closed {p : ConnPool T} (h : p.state = none) : p.current = newConnPoolState := by
  rw [current, h]

theorem setObject_self (e : Nat) (state : ConnPoolState T) :
    (p.setObject e state).objects e = state :=
  update_self ..

theorem setObject_of_ne {e other : Nat} (ne : other ≠ e) (state : ConnPoolState T) :
    (p.setObject e state).objects other = p.objects other :=
  update_of_ne ne ..

theorem current_setObject {p : ConnPool T} {e : Nat} (h : p.state = some e)
    (state : ConnPoolState T) : (p.setObject e state).current = state := by
  have there : (p.setObject e state).state = some e := h
  rw [current_eq there, setObject_self]

end ConnPool

open ConnPool

/-! ## `Reset` and `Close` -/

/-- `closeState` closes what the old state object tracks. -/
def reset (p : ConnPool T) : ConnPool T :=
  match p.state with
  | none => p
  | some e =>
      { p.setObject p.nextObject newConnPoolState with
        state := some p.nextObject
        nextObject := p.nextObject + 1 }.pass (p.objects e).all

def close (p : ConnPool T) : ConnPool T :=
  match p.state with
  | none => p
  | some e => { p with state := none }.pass (p.objects e).all

/-- The current state is empty, and what it tracked has been closed. -/
structure Emptied (p p' : ConnPool T) : Prop where
  current : p'.current = newConnPoolState
  passed : p'.passed = p.passed ++ p.current.all

variable (p : ConnPool T)

theorem reset_emptied : Emptied p (reset p) := by
  unfold reset
  cases h : p.state with
  | none => exact ⟨current_closed h, by simp [current_closed h, newConnPoolState]⟩
  | some e =>
    refine ⟨?_, by rw [current_eq h]; rfl⟩
    show update p.objects p.nextObject newConnPoolState p.nextObject = _
    rw [update_self]

theorem close_emptied : Emptied p (close p) := by
  unfold close
  cases h : p.state with
  | none => exact ⟨current_closed h, by simp [current_closed h, newConnPoolState]⟩
  | some e => exact ⟨rfl, by rw [current_eq h]; rfl⟩

/-! ## `Release` and `Invalidate` -/

/-- Only the current state object has changed, and not its dial. -/
structure Framed (p p' : ConnPool T) : Prop where
  state : p'.state = p.state
  objects : ∀ e, p.state ≠ some e → p'.objects e = p.objects e
  connecting : ∀ e, (p'.objects e).connecting = (p.objects e).connecting
  nextObject : p'.nextObject = p.nextObject

theorem Framed.refl : Framed p p := ⟨rfl, fun _ _ => rfl, fun _ => rfl, rfl⟩

theorem Framed.pass {p p' : ConnPool T} (framed : Framed p p') (conns : List T) :
    Framed p (p'.pass conns) :=
  { framed with }

theorem framed_setObject {p : ConnPool T} {e : Nat} (h : p.state = some e)
    {state : ConnPoolState T} (same : state.connecting = (p.objects e).connecting) :
    Framed p (p.setObject e state) where
  state := rfl
  objects other ne := by
    have isOther : other ≠ e := fun same => ne (same ▸ h)
    exact setObject_of_ne p isOther state
  connecting other := by
    by_cases isE : other = e
    · subst isE
      simpa [setObject] using same
    · simp [setObject, update_of_ne isE]
  nextObject := rfl

section Calls

variable [DecidableEq T]

def delete (conn : T) (keys : List T) : List T := keys.filter (· ≠ conn)

theorem mem_delete {conn c : T} {keys : List T} : c ∈ delete conn keys ↔ c ∈ keys ∧ c ≠ conn := by
  simp [delete]

def insertKey (conn : T) (keys : List T) : List T := if conn ∈ keys then keys else keys ++ [conn]

theorem mem_insertKey {conn c : T} {keys : List T} :
    c ∈ insertKey conn keys ↔ c ∈ keys ∨ c = conn := by
  unfold insertKey
  split
  case isTrue mem => exact ⟨.inl, fun h => h.elim id fun same => same ▸ mem⟩
  case isFalse => rw [List.mem_append, List.mem_singleton]

variable (mode : ConnPoolMode)

def removeConn (state : ConnPoolState T) (conn : T) : ConnPoolState T :=
  let state := { state with all := delete conn state.all }
  match mode with
  | .single =>
      if state.shared = some conn then { state with shared := none, sharedClaimed := false }
      else state
  | .ordered =>
      if conn ∈ state.idleElements then
        { state with
          idle := state.idle.erase conn
          idleElements := delete conn state.idleElements }
      else state

/-- What `Release` does with a connection that is to be used again. -/
def reuseConn (state : ConnPoolState T) (conn : T) : ConnPoolState T :=
  match mode with
  | .single => state
  | .ordered =>
      if conn ∈ state.idleElements then state
      else
        { state with
          idle := state.idle ++ [conn]
          idleElements := state.idleElements ++ [conn] }

/-- `alive` is what `options.IsAlive` returns. -/
def release (p : ConnPool T) (conn : T) (reuse alive : Bool) : ConnPool T :=
  match p.state with
  | none => p.pass [conn]
  | some e =>
      let state := p.objects e
      if conn ∉ state.all then p.pass [conn]
      else if !reuse || !alive then (p.setObject e (removeConn mode state conn)).pass [conn]
      else p.setObject e (reuseConn mode state conn)

def invalidate (p : ConnPool T) (conn : T) : ConnPool T :=
  match p.state with
  | none => p.pass [conn]
  | some e =>
      let state := p.objects e
      if conn ∉ state.all then p
      else (p.setObject e (removeConn mode state conn)).pass [conn]

/-! ## What a call does -/

theorem removeConn_connecting (state : ConnPoolState T) (conn : T) :
    (removeConn mode state conn).connecting = state.connecting := by
  unfold removeConn
  cases mode <;> dsimp only <;> split <;> rfl

theorem reuseConn_connecting (state : ConnPoolState T) (conn : T) :
    (reuseConn mode state conn).connecting = state.connecting := by
  unfold reuseConn
  cases mode with
  | single => rfl
  | ordered =>
    dsimp only
    split <;> rfl

/-- A connection is given up: it is not tracked, and may be closed once more; it is removed and
closed; or it is kept. -/
inductive GivenUp (mode : ConnPoolMode) (p : ConnPool T) (conn : T) (p' : ConnPool T) : Prop
  | unknown (out : conn ∉ p.current.all) (current : p'.current = p.current)
      (passed : p'.passed = p.passed ∨ p'.passed = p.passed ++ [conn])
  | removed (tracked : conn ∈ p.current.all)
      (current : p'.current = removeConn mode p.current conn)
      (passed : p'.passed = p.passed ++ [conn])
  | kept (tracked : conn ∈ p.current.all) (current : p'.current = reuseConn mode p.current conn)
      (passed : p'.passed = p.passed)

theorem givenUp_closed {p : ConnPool T} (h : p.state = none) (conn : T) :
    GivenUp mode p conn (p.pass [conn]) ∧ Framed p (p.pass [conn]) := by
  refine ⟨.unknown ?_ rfl (.inr rfl), (Framed.refl p).pass _⟩
  rw [current_closed h]
  exact List.not_mem_nil

theorem givenUp_release (p : ConnPool T) (conn : T) (reuse alive : Bool) :
    GivenUp mode p conn (release mode p conn reuse alive) ∧
      Framed p (release mode p conn reuse alive) := by
  unfold release
  cases h : p.state with
  | none => exact givenUp_closed mode h conn
  | some e =>
    have isCurrent := current_eq h
    dsimp only
    rw [← isCurrent]
    split
    case isTrue out => exact ⟨.unknown out rfl (.inr rfl), (Framed.refl p).pass _⟩
    case isFalse tracked =>
      have tracked := not_not.mp tracked
      split
      · refine ⟨.removed tracked (current_setObject h _) rfl, (framed_setObject h ?_).pass _⟩
        rw [removeConn_connecting, isCurrent]
      · refine ⟨.kept tracked (current_setObject h _) rfl, framed_setObject h ?_⟩
        rw [reuseConn_connecting, isCurrent]

theorem givenUp_invalidate (p : ConnPool T) (conn : T) :
    GivenUp mode p conn (invalidate mode p conn) ∧ Framed p (invalidate mode p conn) := by
  unfold invalidate
  cases h : p.state with
  | none => exact givenUp_closed mode h conn
  | some e =>
    have isCurrent := current_eq h
    dsimp only
    rw [← isCurrent]
    split
    case isTrue out => exact ⟨.unknown out rfl (.inl rfl), Framed.refl p⟩
    case isFalse tracked =>
      refine ⟨.removed (not_not.mp tracked) (current_setObject h _) rfl,
        (framed_setObject h ?_).pass _⟩
      rw [removeConn_connecting, isCurrent]

end Calls

end SingBox.Dns.Pool
