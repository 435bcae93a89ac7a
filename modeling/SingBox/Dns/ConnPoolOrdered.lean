import SingBox.Dns.ConnPool
import SingBox.Lib.System
import Mathlib.Data.List.Nodup

/-!
# Who owns a connection of an ordered pool

In `ConnPoolOrdered` mode a connection is given to one caller at a time. `acquireOrdered` takes the
first idle connection or dials, and `dialAndInstall` hands a new connection to the caller only if
the state object for which it was dialled is still the current one.

The steps are the sections under the lock, each with the closings right after it, and the dials. A
dial returns connections it has not returned before. Every caller gives a connection up once at
most, and what it has acquired and not given up it holds; the call that has dialled a connection
and not installed it yet holds it, too.

* `Moves` — what a step can do to the connections;
* `Inv` — where a connection is: idle and tracked, held, or closed;
* `ordered_ownership` — what holds in every reachable state.
-/

namespace SingBox.Dns.Pool.Ordered

open SingBox.Lib List Option
open ConnPool

variable {T : Type}

structure System (T : Type) where
  pool : ConnPool T
  /-- The calls of `dialAndInstall` that are to dial, by the state object they began with. -/
  dialing : List Nat
  /-- The calls of `dialAndInstall` that have a connection and are to take the lock. -/
  dialed : List (T × Nat)
  /-- What the callers have acquired and not given up. -/
  held : List T
  returned : List T

def System.new : System T := ⟨.new, [], [], [], []⟩

inductive Label (T : Type) where
  /-- A turn of the loop of `acquireOrdered`; `alive` is what `IsAlive` says of the first idle
  connection. -/
  | acquire (alive : Bool)
  /-- `acquireSlot` returns an error. -/
  | slotFailed (state : Nat)
  | dial (state : Nat) (result : DialResult T)
  /-- `dialAndInstall` takes the lock. -/
  | install (conn : T) (state : Nat)
  | release (conn : T) (reuse alive : Bool)
  | invalidate (conn : T)
  | reset
  | close
  deriving DecidableEq, Repr

section Step

variable [DecidableEq T]

/-- The state without its first idle connection. -/
def takeIdle (state : ConnPoolState T) (idleConn : T) (rest : List T) : ConnPoolState T :=
  { state with idle := rest, idleElements := delete idleConn state.idleElements }

variable (s : System T)

def acquireStep (alive : Bool) : System T :=
  match s.pool.state with
  | none => s
  | some e =>
      let current := s.pool.objects e
      match current.idle with
      | idleConn :: rest =>
          let taken := takeIdle current idleConn rest
          if alive then
            { s with pool := s.pool.setObject e taken, held := s.held ++ [idleConn] }
          else
            { s with
              pool := (s.pool.setObject e
                { taken with all := delete idleConn taken.all }).pass [idleConn] }
      | [] => { s with dialing := s.dialing ++ [e] }

def step : Label T → Option (System T)
  | .acquire alive => some (acquireStep s alive)
  | .slotFailed e => if e ∈ s.dialing then some { s with dialing := s.dialing.erase e } else none
  | .dial e result =>
      if e ∈ s.dialing then
        let s := { s with dialing := s.dialing.erase e }
        match result with
        | .failed => some s
        | .cancelled conn =>
            if conn ∈ s.returned then none
            else some { s with
              pool := s.pool.pass [conn], returned := s.returned ++ [conn] }
        | .connected conn =>
            if conn ∈ s.returned then none
            else some { s with
              dialed := s.dialed ++ [(conn, e)], returned := s.returned ++ [conn] }
      else none
  | .install conn e =>
      if (conn, e) ∈ s.dialed then
        let s := { s with dialed := s.dialed.erase (conn, e) }
        if s.pool.state = some e then
          let current := s.pool.objects e
          some { s with
            pool := s.pool.setObject e { current with all := insertKey conn current.all }
            held := s.held ++ [conn] }
        else some { s with pool := s.pool.pass [conn] }
      else none
  | .release conn reuse alive =>
      if conn ∈ s.held then
        some { s with
          pool := Pool.release .ordered s.pool conn reuse alive, held := s.held.erase conn }
      else none
  | .invalidate conn =>
      if conn ∈ s.held then
        some { s with
          pool := Pool.invalidate .ordered s.pool conn, held := s.held.erase conn }
      else none
  | .reset => some { s with pool := Pool.reset s.pool }
  | .close => some { s with pool := Pool.close s.pool }

/-- The connection a step returns to a caller of `Acquire`. -/
def handsOut : Label T → Option T
  | .acquire alive => if alive then s.pool.current.idle.head? else none
  | .install conn e => if s.pool.state = some e then some conn else none
  | _ => none

/-! ## What a step does -/

/-- Where the connections are. -/
structure View (T : Type) where
  current : ConnPoolState T
  passed : List T
  dialed : List (T × Nat)
  held : List T
  returned : List T

def System.view : View T :=
  ⟨s.pool.current, s.pool.passed, s.dialed, s.held, s.returned⟩

inductive Moves (s s' : System T) : Prop
  | quiet (view : s'.view = s.view)
  | acquired {idleConn : T} {rest : List T} (idle : s.pool.current.idle = idleConn :: rest)
      (view : s'.view = { s.view with
        current := takeIdle s.pool.current idleConn rest, held := s.held ++ [idleConn] })
  | discarded {idleConn : T} {rest : List T} (idle : s.pool.current.idle = idleConn :: rest)
      (view : s'.view = { s.view with
        current := { takeIdle s.pool.current idleConn rest with
          all := delete idleConn s.pool.current.all }
        passed := s.pool.passed ++ [idleConn] })
  | cancelled {conn : T} (fresh : conn ∉ s.returned)
      (view : s'.view = { s.view with
        passed := s.pool.passed ++ [conn], returned := s.returned ++ [conn] })
  | connected {conn : T} {e : Nat} (fresh : conn ∉ s.returned)
      (view : s'.view = { s.view with
        dialed := s.dialed ++ [(conn, e)], returned := s.returned ++ [conn] })
  | installed {conn : T} {e : Nat} (mem : (conn, e) ∈ s.dialed)
      (view : s'.view = { s.view with
        current := { s.pool.current with all := insertKey conn s.pool.current.all }
        dialed := s.dialed.erase (conn, e)
        held := s.held ++ [conn] })
  | outdated {conn : T} {e : Nat} (mem : (conn, e) ∈ s.dialed)
      (view : s'.view = { s.view with
        dialed := s.dialed.erase (conn, e), passed := s.pool.passed ++ [conn] })
  | givenUp {conn : T} (mem : conn ∈ s.held) (givenUp : GivenUp .ordered s.pool conn s'.pool)
      (view : s'.view = { s.view with
        current := s'.pool.current, passed := s'.pool.passed, held := s.held.erase conn })
  | emptied (view : s'.view = { s.view with
        current := newConnPoolState, passed := s.pool.passed ++ s.pool.current.all })

theorem acquireStep_moves (s : System T) (alive : Bool) : Moves s (acquireStep s alive) := by
  unfold acquireStep
  split
  case h_1 => exact .quiet rfl
  case h_2 e h =>
    have isCurrent := current_eq h
    dsimp only
    rw [← isCurrent]
    split
    case h_1 idleConn rest idle =>
      split
      · refine .acquired idle ?_
        simp only [System.view, current_setObject h, setObject_passed]
      · refine .discarded idle ?_
        simp only [System.view, current_pass, current_setObject h, pass_passed, setObject_passed]
        rfl
    case h_2 => exact .quiet rfl

theorem step_moves {s s' : System T} {label : Label T} (h : step s label = some s') :
    Moves s s' := by
  cases label with
  | acquire alive =>
    cases h
    exact acquireStep_moves s alive
  | slotFailed e =>
    simp only [step] at h
    split at h <;> cases h
    exact .quiet rfl
  | dial e result =>
    simp only [step] at h
    split at h
    case isFalse => cases h
    case isTrue =>
      cases result with
      | failed =>
        cases h
        exact .quiet rfl
      | cancelled conn =>
        obtain ⟨fresh, ⟨⟩⟩ := ite_none_left_eq_some.mp h
        exact .cancelled fresh rfl
      | connected conn =>
        obtain ⟨fresh, ⟨⟩⟩ := ite_none_left_eq_some.mp h
        exact .connected fresh rfl
  | install conn e =>
    obtain ⟨mem, h⟩ := ite_none_right_eq_some.mp h
    split at h
    case isTrue isState =>
      cases h
      refine .installed mem ?_
      simp only [System.view, current_setObject isState, setObject_passed, current_eq isState]
    case isFalse =>
      cases h
      exact .outdated mem rfl
  | release conn reuse alive =>
    obtain ⟨mem, ⟨⟩⟩ := ite_none_right_eq_some.mp h
    exact .givenUp mem (givenUp_release .ordered s.pool conn reuse alive).1 rfl
  | invalidate conn =>
    obtain ⟨mem, ⟨⟩⟩ := ite_none_right_eq_some.mp h
    exact .givenUp mem (givenUp_invalidate .ordered s.pool conn).1 rfl
  | reset =>
    cases h
    obtain ⟨current, passed⟩ := reset_emptied s.pool
    refine .emptied ?_
    simp only [System.view, current, passed]
  | close =>
    cases h
    obtain ⟨current, passed⟩ := close_emptied s.pool
    refine .emptied ?_
    simp only [System.view, current, passed]

end Step

/-! ## Where a connection is -/

/-- The idle list and `idleElements` are the same set, without repetitions, and it is tracked. -/
structure IdleOk (state : ConnPoolState T) : Prop where
  nodup : state.idle.Nodup
  elements : ∀ c, c ∈ state.idle ↔ c ∈ state.idleElements
  tracked : ∀ c ∈ state.idle, c ∈ state.all

/-- The connections of the calls that have dialled and not installed yet. -/
def View.installing (v : View T) : List T := v.dialed.map Prod.fst

structure Inv (v : View T) : Prop where
  idle : IdleOk v.current
  heldNodup : v.held.Nodup
  heldNotIdle : ∀ c ∈ v.held, c ∉ v.current.idle
  /-- What is held is tracked, or was closed when its state object was replaced. -/
  heldKnown : ∀ c ∈ v.held, c ∈ v.current.all ∨ c ∈ v.passed
  trackedOpen : ∀ c ∈ v.current.all, c ∉ v.passed
  installingNodup : v.installing.Nodup
  /-- What is to be installed is nowhere else. -/
  installingNew : ∀ c ∈ v.installing, c ∉ v.current.all ∧ c ∉ v.held ∧ c ∉ v.passed
  returned : ∀ c, c ∈ v.returned ↔
    c ∈ v.current.all ∨ c ∈ v.held ∨ c ∈ v.passed ∨ c ∈ v.installing

section Inv

theorem inv_new : Inv (System.new : System T).view where
  idle := ⟨nodup_nil, fun _ => Iff.rfl, nofun⟩
  heldNodup := nodup_nil
  heldNotIdle := nofun
  heldKnown := nofun
  trackedOpen := nofun
  installingNodup := nodup_nil
  installingNew := nofun
  returned c := by simp [System.view, System.new, ConnPool.new, current, newConnPoolState,
    View.installing]

variable {v : View T} {c : T} {state : ConnPoolState T} {rest : List T} {x : T}

/-- What the invariant says of one connection. -/
def View.Located (v : View T) (c : T) : Prop :=
  (c ∈ v.held → c ∉ v.current.idle ∧ (c ∈ v.current.all ∨ c ∈ v.passed)) ∧
    (c ∈ v.current.all → c ∉ v.passed) ∧
    (c ∈ v.installing → c ∉ v.current.all ∧ c ∉ v.held ∧ c ∉ v.passed) ∧
    (c ∈ v.returned ↔ c ∈ v.current.all ∨ c ∈ v.held ∨ c ∈ v.passed ∨ c ∈ v.installing)

theorem Inv.located (inv : Inv v) (c : T) : v.Located c :=
  ⟨fun mem => ⟨inv.heldNotIdle c mem, inv.heldKnown c mem⟩, inv.trackedOpen c, inv.installingNew c,
    inv.returned c⟩

theorem Inv.of_located (idle : IdleOk v.current) (heldNodup : v.held.Nodup)
    (installingNodup : v.installing.Nodup) (located : ∀ c, v.Located c) : Inv v where
  idle
  heldNodup
  heldNotIdle c mem := ((located c).1 mem).1
  heldKnown c mem := ((located c).1 mem).2
  trackedOpen c := (located c).2.1
  installingNodup
  installingNew c := (located c).2.2.1
  returned c := (located c).2.2.2

theorem Inv.emptied (inv : Inv v) :
    Inv { v with current := newConnPoolState, passed := v.passed ++ v.current.all } := by
  refine .of_located ⟨nodup_nil, fun _ => Iff.rfl, nofun⟩ inv.heldNodup inv.installingNodup
    fun x => ?_
  have before := inv.located x
  have noneIdle : x ∉ (newConnPoolState : ConnPoolState T).idle := not_mem_nil
  have noneTracked : x ∉ (newConnPoolState : ConnPoolState T).all := not_mem_nil
  simp only [View.Located, View.installing, mem_append] at before ⊢
  grind

theorem Inv.cancelled (inv : Inv v) (fresh : c ∉ v.returned) :
    Inv { v with passed := v.passed ++ [c], returned := v.returned ++ [c] } := by
  refine .of_located inv.idle inv.heldNodup inv.installingNodup fun x => ?_
  have before := inv.located x
  simp only [View.Located, View.installing, mem_append, mem_singleton] at before ⊢
  grind

theorem Inv.connected (inv : Inv v) (e : Nat) (fresh : c ∉ v.returned) :
    Inv { v with dialed := v.dialed ++ [(c, e)], returned := v.returned ++ [c] } := by
  have installing : View.installing { v with
      dialed := v.dialed ++ [(c, e)], returned := v.returned ++ [c] } = v.installing ++ [c] := by
    simp [View.installing]
  have new : c ∉ v.installing := fun mem => fresh ((inv.returned c).mpr (by simp [mem]))
  refine .of_located inv.idle inv.heldNodup ?_ fun x => ?_
  · rw [installing]
    exact nodup_append.mpr ⟨inv.installingNodup, nodup_singleton c, by grind⟩
  · have before := inv.located x
    simp only [View.Located, installing, mem_append, mem_singleton] at before ⊢
    grind

variable [DecidableEq T]

theorem IdleOk.takeIdle (ok : IdleOk state) (idle : state.idle = c :: rest) :
    IdleOk (takeIdle state c rest) where
  nodup := (nodup_cons.mp (idle ▸ ok.nodup)).2
  elements x := by
    have first := (nodup_cons.mp (idle ▸ ok.nodup)).1
    have same := ok.elements x
    show x ∈ rest ↔ x ∈ delete c state.idleElements
    rw [mem_delete]
    grind
  tracked x mem := ok.tracked x (by rw [idle]; exact mem_cons_of_mem _ mem)

theorem IdleOk.removeConn (ok : IdleOk state) (c : T) : IdleOk (removeConn .ordered state c) := by
  unfold Pool.removeConn
  dsimp only
  split
  case isTrue =>
    refine ⟨ok.nodup.erase c, fun x => ?_, fun x mem => ?_⟩
    · show x ∈ state.idle.erase c ↔ x ∈ delete c state.idleElements
      rw [ok.nodup.mem_erase_iff, mem_delete, ok.elements x, and_comm]
    · obtain ⟨ne, mem⟩ := ok.nodup.mem_erase_iff.mp mem
      exact mem_delete.mpr ⟨ok.tracked x mem, ne⟩
  case isFalse out =>
    refine ⟨ok.nodup, ok.elements, fun x mem => mem_delete.mpr ⟨ok.tracked x mem, ?_⟩⟩
    rintro rfl
    exact out ((ok.elements x).mp mem)

theorem IdleOk.reuseConn (ok : IdleOk state) (tracked : c ∈ state.all) :
    IdleOk (reuseConn .ordered state c) := by
  unfold Pool.reuseConn
  dsimp only
  split
  case isTrue => exact ok
  case isFalse out =>
    have notIdle : c ∉ state.idle := fun mem => out ((ok.elements c).mp mem)
    refine ⟨?_, fun x => ?_, ?_⟩
    · exact nodup_append.mpr ⟨ok.nodup, nodup_singleton c, by grind⟩
    · simp only [mem_append, ok.elements x]
    · exact forall_mem_append.mpr ⟨ok.tracked, forall_mem_singleton.mpr tracked⟩

theorem mem_removeConn : (x ∈ (removeConn .ordered state c).all ↔ x ∈ state.all ∧ x ≠ c) ∧
    (x ∈ (removeConn .ordered state c).idle → x ∈ state.idle) := by
  rw [← mem_delete]
  unfold Pool.removeConn
  dsimp only
  split
  · exact ⟨.rfl, mem_of_mem_erase⟩
  · exact ⟨.rfl, id⟩

theorem mem_reuseConn : (x ∈ (reuseConn .ordered state c).all ↔ x ∈ state.all) ∧
    (x ∈ (reuseConn .ordered state c).idle → x ∈ state.idle ∨ x = c) := by
  unfold Pool.reuseConn
  dsimp only
  split
  · exact ⟨.rfl, .inl⟩
  · exact ⟨.rfl, fun mem => (mem_append.mp mem).imp_right mem_singleton.mp⟩

theorem Inv.acquired (inv : Inv v) (idle : v.current.idle = c :: rest) :
    Inv { v with current := Ordered.takeIdle v.current c rest, held := v.held ++ [c] } := by
  have isIdle : c ∈ v.current.idle := by simp [idle]
  have tracked := inv.idle.tracked c isIdle
  have notHeld : c ∉ v.held := fun mem => inv.heldNotIdle c mem isIdle
  have first := (nodup_cons.mp (idle ▸ inv.idle.nodup)).1
  refine .of_located (inv.idle.takeIdle idle) ?_ inv.installingNodup fun x => ?_
  · exact nodup_append.mpr ⟨inv.heldNodup, nodup_singleton c, by grind⟩
  · have before := inv.located x
    simp only [View.Located, View.installing, Ordered.takeIdle, idle, mem_append,
      mem_cons] at before ⊢
    grind

theorem Inv.discarded (inv : Inv v) (idle : v.current.idle = c :: rest) :
    Inv { v with
      current := { Ordered.takeIdle v.current c rest with all := delete c v.current.all }
      passed := v.passed ++ [c] } := by
  have isIdle : c ∈ v.current.idle := by simp [idle]
  have tracked := inv.idle.tracked c isIdle
  have taken := inv.idle.takeIdle idle
  have first := (nodup_cons.mp (idle ▸ inv.idle.nodup)).1
  refine .of_located ⟨taken.nodup, taken.elements, fun x mem => mem_delete.mpr
    ⟨taken.tracked x mem, ?_⟩⟩ inv.heldNodup inv.installingNodup fun x => ?_
  · rintro rfl
    exact first mem
  · have before := inv.located x
    simp only [View.Located, View.installing, Ordered.takeIdle, idle, mem_delete, mem_append,
      mem_cons] at before ⊢
    grind

theorem Inv.mem_installing_erase (inv : Inv v) {e : Nat} (mem : (c, e) ∈ v.dialed) (x : T) :
    x ∈ (v.dialed.erase (c, e)).map Prod.fst ↔ x ∈ v.installing ∧ x ≠ c := by
  have perm := (perm_cons_erase mem).map Prod.fst
  have nodup := perm.nodup_iff.mp inv.installingNodup
  rw [View.installing]
  grind

theorem Inv.installed {v : View T} (inv : Inv v) {c : T} {e : Nat} (mem : (c, e) ∈ v.dialed) :
    Inv { v with
      current := { v.current with all := insertKey c v.current.all }
      dialed := v.dialed.erase (c, e)
      held := v.held ++ [c] } := by
  have here := inv.installingNew c (mem_map_of_mem mem)
  refine .of_located ⟨inv.idle.nodup, inv.idle.elements, fun x mem => mem_insertKey.mpr ?_⟩ ?_
    (inv.installingNodup.sublist (erase_sublist.map _)) fun x => ?_
  · exact .inl (inv.idle.tracked x mem)
  · exact nodup_append.mpr ⟨inv.heldNodup, nodup_singleton c, by grind⟩
  · have before := inv.located x
    have left := inv.mem_installing_erase mem x
    have tracked := inv.idle.tracked x
    simp only [View.Located, View.installing, left, mem_insertKey, mem_append,
      mem_singleton] at before ⊢
    grind

theorem Inv.outdated {v : View T} (inv : Inv v) {c : T} {e : Nat} (mem : (c, e) ∈ v.dialed) :
    Inv { v with dialed := v.dialed.erase (c, e), passed := v.passed ++ [c] } := by
  refine .of_located inv.idle inv.heldNodup
    (inv.installingNodup.sublist (erase_sublist.map _)) fun x => ?_
  have before := inv.located x
  have left := inv.mem_installing_erase mem x
  simp only [View.Located, View.installing, left, mem_append, mem_singleton] at before ⊢
  grind

/-- The holder gives up a connection that is not tracked: it has been closed already. -/
theorem Inv.unknown (inv : Inv v) (mem : c ∈ v.held) (out : c ∉ v.current.all) {passed : List T}
    (isPassed : passed = v.passed ∨ passed = v.passed ++ [c]) :
    Inv { v with passed, held := v.held.erase c } := by
  have known := (inv.heldKnown c mem).resolve_left out
  have closed (x : T) : x ∈ passed ↔ x ∈ v.passed := by
    rcases isPassed with rfl | rfl
    · rfl
    · grind
  refine .of_located inv.idle (inv.heldNodup.erase c) inv.installingNodup fun x => ?_
  have before := inv.located x
  simp only [View.Located, View.installing, closed, inv.heldNodup.mem_erase_iff] at before ⊢
  grind

theorem Inv.removed (inv : Inv v) (mem : c ∈ v.held) :
    Inv { v with
      current := removeConn .ordered v.current c
      passed := v.passed ++ [c]
      held := v.held.erase c } := by
  refine .of_located (inv.idle.removeConn c) (inv.heldNodup.erase c) inv.installingNodup
    fun x => ?_
  have before := inv.located x
  obtain ⟨all, idle⟩ := @mem_removeConn _ c v.current x _
  simp only [View.Located, View.installing, all, inv.heldNodup.mem_erase_iff, mem_append,
    mem_singleton] at before ⊢
  grind

theorem Inv.kept (inv : Inv v) (tracked : c ∈ v.current.all) :
    Inv { v with current := reuseConn .ordered v.current c, held := v.held.erase c } := by
  refine .of_located (inv.idle.reuseConn tracked) (inv.heldNodup.erase c) inv.installingNodup
    fun x => ?_
  have before := inv.located x
  obtain ⟨all, idle⟩ := @mem_reuseConn _ c v.current x _
  simp only [View.Located, View.installing, all, inv.heldNodup.mem_erase_iff] at before ⊢
  grind

theorem Inv.moves {s s' : System T} (inv : Inv s.view) (moves : Moves s s') : Inv s'.view := by
  cases moves with
  | quiet view => exact view ▸ inv
  | acquired idle view => exact view ▸ inv.acquired idle
  | discarded idle view => exact view ▸ inv.discarded idle
  | cancelled fresh view => exact view ▸ inv.cancelled fresh
  | connected fresh view => exact view ▸ inv.connected _ fresh
  | installed mem view => exact view ▸ inv.installed mem
  | outdated mem view => exact view ▸ inv.outdated mem
  | emptied view => exact view ▸ inv.emptied
  | givenUp mem givenUp view =>
    cases givenUp with
    | unknown out current passed =>
      rw [view, current]
      exact inv.unknown mem out passed
    | removed tracked current passed =>
      rw [view, current, passed]
      exact inv.removed mem
    | kept tracked current passed =>
      rw [view, current, passed]
      exact inv.kept tracked

theorem inv_run {labels : List (Label T)} {s : System T}
    (run : steps step System.new labels = some s) : Inv s.view :=
  steps_keeps (fun s : System T => Inv s.view)
    (fun _ _ _ inv taken => inv.moves (step_moves taken)) inv_new run

end Inv

/-! ## Ownership -/

/-- In every reachable state no connection is held by two callers or both held and idle, the idle
list and `idleElements` are the same set of tracked connections, no step returns a connection that
has been passed to `options.Close`, and every connection a dial has returned is tracked, held by a
caller or by the call that has dialled it, or has been passed to `options.Close`. -/
theorem ordered_ownership [DecidableEq T] {labels : List (Label T)} {s : System T}
    (run : steps step System.new labels = some s) :
    (s.held ++ s.dialed.map Prod.fst).Nodup ∧
    (∀ c ∈ s.held, c ∉ s.pool.current.idle) ∧
    (∀ c, c ∈ s.pool.current.idle ↔ c ∈ s.pool.current.idleElements) ∧
    (∀ c ∈ s.pool.current.idle, c ∈ s.pool.current.all) ∧
    (∀ label c s', step s label = some s' → handsOut s label = some c → c ∉ s.pool.passed) ∧
    (∀ c ∈ s.returned, c ∈ s.pool.current.all ∨ c ∈ s.held ∨ c ∈ s.dialed.map Prod.fst ∨
      c ∈ s.pool.passed) := by
  have inv := inv_run run
  refine ⟨?_, inv.heldNotIdle, inv.idle.elements, inv.idle.tracked, ?_, ?_⟩
  · refine nodup_append.mpr ⟨inv.heldNodup, inv.installingNodup, ?_⟩
    rintro c held c' new rfl
    exact (inv.installingNew c new).2.1 held
  · intro label c s' taken hands
    cases label with
    | acquire alive =>
      simp only [handsOut] at hands
      split at hands
      · have isIdle : c ∈ s.pool.current.idle := mem_of_head? hands
        exact inv.trackedOpen c (inv.idle.tracked c isIdle)
      · cases hands
    | install conn e =>
      simp only [handsOut] at hands
      split at hands <;> cases hands
      simp only [step] at taken
      split at taken
      case isFalse => cases taken
      case isTrue mem => exact (inv.installingNew c (mem_map_of_mem mem)).2.2
    | slotFailed | dial | release | invalidate | reset | close => cases hands
  · intro c mem
    have placed := (inv.returned c).mp mem
    rcases placed with tracked | held | passed | new
    · exact .inl tracked
    · exact .inr (.inl held)
    · exact .inr (.inr (.inr passed))
    · exact .inr (.inr (.inl new))

/-- A connection is dialled, used again, and in use while the pool is reset. -/
def orderedRun : List (Label Nat) :=
  [.acquire true, .dial 0 (.connected 7), .install 7 0, .release 7 true true, .acquire true, .reset,
    .acquire true, .dial 1 (.connected 8), .release 7 true true, .install 8 1]

theorem ordered_ownership_reset :
    ∃ s, steps step System.new orderedRun = some s ∧ s.held = [8] ∧ s.pool.passed = [7, 7] ∧
      (s.held ++ s.dialed.map Prod.fst).Nodup := by
  have run : steps step System.new orderedRun = some _ := rfl
  exact ⟨_, run, rfl, rfl, (ordered_ownership run).1⟩

end SingBox.Dns.Pool.Ordered
