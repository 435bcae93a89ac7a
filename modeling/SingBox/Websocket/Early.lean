import SingBox.Lib.Bytes
import SingBox.Lib.System

/-!
# The connection that is dialed by the first write

`EarlyWebsocketConn` of `transport/v2raywebsocket/conn.go`. The first `Write` dials, and then closes
the channel `create` for which `Read` waits. `Close` only looks whether there is a connection.

* `Inv.moves` — what every step keeps, if `Close` does not come before the creation is over;
* `Close_final` — then nothing waits in vain, is dialed or stays open after `Close`.
-/

namespace SingBox.Websocket

open Lib

/-- How far the one call that comes to `writeRequest` is. It holds `access` until it has ended. -/
inductive Creation where
  | none
  | dialing (lateData : Bytes)
  | writing (lateData : Bytes)
  /-- `writeRequest` has returned; without an error, it has stored the connection before. -/
  | returned (err : Bool)
  /-- `c.err` is set, `create` is closed and `access` is free. -/
  | ended (err : Bool)
  deriving DecidableEq, Repr

structure EarlyWebsocketConn where
  creation : Creation := .none
  /-- The stored connection is open. -/
  opened : Bool := false
  /-- The calls of `Read` at `<-c.create`. -/
  waiting : Nat := 0
  /-- A call of `Close` has returned. -/
  closed : Bool := false
  deriving DecidableEq, Repr

inductive Label where
  | Read
  | created
  /-- `Write` and `WriteBuffer`. -/
  | Write (content : Bytes)
  | dialed (err : Bool)
  | written (err : Bool)
  | unlock
  | Close
  deriving DecidableEq

variable (maxEarlyData : Nat) (c : EarlyWebsocketConn)

def EarlyWebsocketConn.return (err : Bool) : EarlyWebsocketConn :=
  { c with creation := .returned err, opened := !err }

def step : Label → Option EarlyWebsocketConn
  | .Read =>
      match c.creation with
      | .returned false | .ended false => some c
      | _ => some { c with waiting := c.waiting + 1 }
  | .created =>
      match c.creation, c.waiting with
      | .ended _, waiting + 1 => some { c with waiting }
      | _, _ => none
  | .Write content =>
      match c.creation with
      | .none => some { c with creation := .dialing (content.drop maxEarlyData) }
      -- to the connection, or it returns `c.err`
      | .returned false | .ended _ => some c
      -- it waits for `access`
      | _ => none
  | .dialed err =>
      match c.creation with
      | .dialing lateData =>
          if err ∨ lateData = [] then some (c.return err)
          else some { c with creation := .writing lateData }
      | _ => none
  | .written err =>
      match c.creation with
      | .writing _ => some (c.return err)
      | _ => none
  | .unlock =>
      match c.creation with
      | .returned err => some { c with creation := .ended err }
      | _ => none
  | .Close => some { c with opened := false, closed := true }

/-- `writeRequest` has returned. -/
abbrev Over : Prop := ∃ err, c.creation = .returned err ∨ c.creation = .ended err

/-- What should hold once `Close` has returned. -/
structure Final : Prop where
  /-- A `Read` that waits goes on, now or when the first write has unlocked. -/
  reads : 0 < c.waiting → (step maxEarlyData c .created).isSome ∨ (step maxEarlyData c .unlock).isSome
  noDial : ∀ content, ∀ c' ∈ step maxEarlyData c (.Write content), c'.creation = c.creation
  shut : Over c → c.opened = false

/-- The creation is over when `Close` is called. -/
abbrev InTime (l : Label) : Prop := l = .Close → Over c

def Inv : Prop := c.closed → Over c ∧ c.opened = false

variable {maxEarlyData c} {c' : EarlyWebsocketConn} {l : Label}

theorem Inv.moves (inv : Inv c) (inTime : InTime c l) (taken : step maxEarlyData c l = some c') :
    Inv c' := by
  intro closed
  cases l with
  | Close =>
    cases taken
    exact ⟨inTime rfl, rfl⟩
  | _ =>
    simp only [step] at taken
    split at taken <;> grind [Inv, EarlyWebsocketConn.return]

theorem Inv.final (inv : Inv c) (closed : c.closed) : Final maxEarlyData c := by
  obtain ⟨⟨err, past⟩, shut⟩ := inv closed
  refine ⟨fun waits => ?_, fun content c' taken => ?_, fun _ => shut⟩
  · obtain ⟨waiting, more⟩ := Nat.exists_eq_add_one_of_ne_zero waits.ne'
    rcases past with past | past <;> simp [step, past, more]
  · rcases past with past | past <;> cases err <;> simp_all [step]

/-- **Final.** After every run in which each `Close` is called when the connection was stored or
could not be created, what should hold after `Close` does. -/
theorem Close_final (maxEarlyData : Nat) (labels : List Label) (c : EarlyWebsocketConn)
    (inTime : Through (step maxEarlyData) InTime {} labels)
    (run : steps (step maxEarlyData) {} labels = some c) (closed : c.closed) :
    Final maxEarlyData c := by
  have init : Inv {} := nofun
  exact (steps_invariant_through Inv (fun _ _ _ => .moves) init inTime run).final closed

/-- A `Read` waits, the first write fails, and then there is the `Close`. -/
theorem Close_final_failed : Final 8 ⟨.ended true, false, 1, true⟩ :=
  Close_final 8 [.Read, .Write [1], .dialed true, .unlock, .Close] _ (by decide) rfl rfl

/-- `Close` comes first. The `Read` waits on, the next write dials, and its connection stays
open. -/
theorem Close_not_final :
    ∃ c c', steps (step 8) {} [.Read, .Close] = some c ∧ c.closed ∧ 0 < c.waiting ∧
      step 8 c .created = none ∧ step 8 c .unlock = none ∧
      steps (step 8) c [.Write [1], .dialed false, .unlock] = some c' ∧ c'.closed ∧ c'.opened :=
  ⟨_, _, rfl, rfl, by decide, rfl, rfl, rfl, rfl, rfl⟩

end SingBox.Websocket
