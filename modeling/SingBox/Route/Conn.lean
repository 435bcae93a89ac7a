import SingBox.Lib.System

/-!
# The close handler of a routed connection

`ConnectionManager.NewConnection` and `NewPacketConnection`: dial, report the handshake, write
early, then copy in both directions in a goroutine each. The handler `onClose` is called from the
early returns and from the goroutines, which swap a shared flag: of a stream the one that ends last
calls it, of a packet connection the one that ends first. A label is what one goroutine does next,
with what the network answers, so a run is an interleaving.

* `onClose_calls` — a connection that has ended has called its handler once, except a packet
  connection whose handshake could not be reported: that one has not called it at all.
-/

namespace SingBox.Route.Conn

open Lib List Option

/-- The two entry functions. -/
inductive Kind where
  | stream
  | packet
  deriving DecidableEq, Repr

/-- What the error texts are made of: addresses and names as they are printed. -/
structure Target where
  destinationAddresses : List String
  destination : String
  /-- The type and the tag of the dialer, if it is an outbound. -/
  outbound : Option (String × String)
  realOutbound : String
  udpConnect : Bool

namespace Target

variable (target : Target)

def remoteString : String :=
  if target.destinationAddresses.length > 0 then
    "[" ++ String.intercalate "," target.destinationAddresses ++ "]"
  else target.destination

def dialerString : String :=
  match target.outbound with
  | none => ""
  | some (type, tag) =>
      " using outbound/" ++ type ++ "[" ++ tag ++ "]" ++
        if type = "balancer" then "[" ++ target.realOutbound ++ "]" else ""

/-- What the error of a dial is wrapped in. -/
def dialFailure : Kind → String
  | .stream => "open connection to " ++ target.remoteString ++ target.dialerString
  | .packet =>
      if target.udpConnect then
        "open packet connection to " ++ target.remoteString ++ target.dialerString
      else "listen packet connection using " ++ target.dialerString

end Target

/-- What is done to the two connections and to the handler. -/
inductive Event where
  | onClose (err : Option String)
  | closeConn
  | closeRemote
  | closeWrite (remote : Bool)
  deriving DecidableEq, Repr

def Event.isOnClose : Event → Bool
  | .onClose _ => true
  | _ => false

/-- What the entry functions use of the library. -/
structure Library where
  /-- `E.Cause`. -/
  cause : String → String → String
  /-- `N.CloseOnHandshakeFailure`. -/
  closeOnHandshakeFailure : String → List Event
  calls_onClose : ∀ err, (closeOnHandshakeFailure err).countP Event.isOnClose = 1

/-- Where the entry function is. -/
inductive MainPc where
  | dial
  | report
  | kickUpload
  | kickDownload
  | goUpload
  | goDownload
  | ended
  deriving DecidableEq, Repr

inductive CopyPc where
  | notStarted
  | copying
  | swapping (err : Option String)
  | calling (err : Option String)
  | closing
  | ended
  deriving DecidableEq, Repr

structure State where
  main : MainPc := .dial
  upload : CopyPc := .notStarted
  download : CopyPc := .notStarted
  done : Bool := false
  events : List Event := []
  deriving DecidableEq, Repr

/-- The goroutine of a direction; `true` is the download, as in the source. -/
def State.copy (s : State) (direction : Bool) : CopyPc :=
  if direction then s.download else s.upload

def State.setCopy (s : State) (direction : Bool) (pc : CopyPc) : State :=
  if direction then { s with download := pc } else { s with upload := pc }

def State.put (s : State) (events : List Event) : State := { s with events := s.events ++ events }

/-- `common.Close(source, destination)`. -/
def closeBoth (direction : Bool) : List Event :=
  if direction then [.closeRemote, .closeConn] else [.closeConn, .closeRemote]

/-- `destination.Close()`. -/
def closeDestination (direction : Bool) : Event := if direction then .closeConn else .closeRemote

/-- What an early write meets. -/
structure Kick where
  /-- `N.NeedHandshakeForWrite`. -/
  need : Bool
  /-- There was a cached payload to write. -/
  cached : Bool
  writeErr : Option String
  /-- `os.ErrInvalid`, `context.DeadlineExceeded`, `io.EOF` or a timeout. -/
  tolerated : Bool

/-- The error with which `kickWriteHandshake` gives up. -/
def Kick.failure (kick : Kick) : Option String :=
  if !kick.need then none
  else
    match kick.writeErr with
    | none => none
    | some err => if !kick.cached && kick.tolerated then none else some err

/-- The end of `kickWriteHandshake` when it gives up. -/
def State.kickFailed (s : State) (direction : Bool) (err : String) : State :=
  let called := if !s.done then s.put [.onClose (some err)] else s
  { called.put (closeBoth direction) with done := true, main := .ended }

/-- How a copy ends; `closeWrite` is what `CloseWrite` returns, if the destination has it. -/
structure Copied where
  err : Option String
  closeWrite : Option (Option String)

/-- What `connectionCopy` and `packetConnectionCopy` do when the copy has ended, and the error
they go on with. -/
def Copied.finish (copied : Copied) (direction : Bool) : Kind → Option String × List Event
  | .packet => (copied.err, [])
  | .stream =>
      match copied.err with
      | some err => (some err, closeBoth direction)
      | none =>
          match copied.closeWrite with
          | none => (none, [closeDestination direction])
          | some none => (none, [.closeWrite (!direction)])
          | some (some err) => (some err, .closeWrite (!direction) :: closeBoth direction)

variable (lib : Library) (kind : Kind)

/-- Whether a goroutine that swapped the flag and got `before` calls the handler. -/
def Kind.calls (before : Bool) : Bool :=
  match kind with
  | .stream => before
  | .packet => !before

/-- Where it goes on if it does not: a packet connection is closed in any case. -/
def Kind.quiet : Kind → CopyPc
  | .stream => .ended
  | .packet => .closing

inductive Label where
  | dialed (err : Option String)
  | reported (err : Option String)
  | kicked (kick : Kick)
  | go
  | copied (direction : Bool) (outcome : Copied)
  | swap (direction : Bool)
  | call (direction : Bool)
  | close (direction : Bool)

/-- The next line of the entry function, after what the label tells. -/
def mainStep (target : Target) (s : State) : Label → Option State
  | .dialed err =>
      if s.main = .dial then
        match err with
        | none => some { s with main := .report }
        | some err =>
            some { s.put (lib.closeOnHandshakeFailure
              (lib.cause err (target.dialFailure kind))) with main := .ended }
      else none
  | .reported err =>
      if s.main = .report then
        match kind, err with
        | .stream, none => some { s with main := .kickUpload }
        | .packet, none => some { s with main := .goUpload }
        | .stream, some err =>
            some { s.put (.closeRemote ::
              lib.closeOnHandshakeFailure (lib.cause err "report handshake success")) with
              main := .ended }
        | .packet, some _ => some { s.put [.closeConn, .closeRemote] with main := .ended }
      else none
  | .kicked kick =>
      match s.main with
      | .kickUpload =>
          match kick.failure with
          | none => some { s with main := .kickDownload }
          | some err => some (s.kickFailed false err)
      | .kickDownload =>
          match kick.failure with
          | none => some { s with main := .goUpload }
          | some err => some (s.kickFailed true err)
      | _ => none
  | .go =>
      match s.main with
      | .goUpload => some { s with main := .goDownload, upload := .copying }
      | .goDownload => some { s with main := .ended, download := .copying }
      | _ => none
  | _ => none

/-- The next line of `connectionCopy` or `packetConnectionCopy`. -/
def copyStep (s : State) : Label → Option State
  | .copied direction outcome =>
      if s.copy direction = .copying then
        let finish := outcome.finish direction kind
        some ((s.put finish.2).setCopy direction (.swapping finish.1))
      else none
  | .swap direction =>
      match s.copy direction with
      | .swapping err =>
          let next := if kind.calls s.done then .calling err else kind.quiet
          some ({ s with done := true }.setCopy direction next)
      | _ => none
  | .call direction =>
      match s.copy direction with
      | .calling err => some ((s.put [.onClose err]).setCopy direction .closing)
      | _ => none
  | .close direction =>
      if s.copy direction = .closing then
        some ((s.put (closeBoth direction)).setCopy direction .ended)
      else none
  | _ => none

def step (target : Target) (s : State) (label : Label) : Option State :=
  (mainStep lib kind target s label).or (copyStep kind s label)

def State.Ended (s : State) : Prop :=
  s.main = .ended ∧ ∀ direction, s.copy direction = .notStarted ∨ s.copy direction = .ended

def State.calls (s : State) : Nat := s.events.countP Event.isOnClose

/-! ## Updates -/

@[simp] theorem calls_put (s : State) (events : List Event) :
    (s.put events).calls = s.calls + events.countP Event.isOnClose := countP_append

@[simp] theorem countP_closeBoth (direction : Bool) :
    (closeBoth direction).countP Event.isOnClose = 0 := by
  cases direction <;> rfl

@[simp] theorem countP_finish (copied : Copied) (direction : Bool) (kind : Kind) :
    (copied.finish direction kind).2.countP Event.isOnClose = 0 := by
  obtain ⟨err, closeWrite⟩ := copied
  cases kind with
  | packet => rfl
  | stream =>
    cases err with
    | some err => exact countP_closeBoth direction
    | none =>
      match closeWrite with
      | none => cases direction <;> rfl
      | some none => rfl
      | some (some err) => cases direction <;> rfl

section SetCopy

variable (s : State) (direction : Bool) (pc : CopyPc)

@[simp] theorem main_setCopy : (s.setCopy direction pc).main = s.main := by
  cases direction <;> rfl

@[simp] theorem done_setCopy : (s.setCopy direction pc).done = s.done := by
  cases direction <;> rfl

@[simp] theorem copy_setCopy : (s.setCopy direction pc).copy direction = pc := by
  cases direction <;> rfl

@[simp] theorem copy_setCopy_not :
    (s.setCopy direction pc).copy (!direction) = s.copy (!direction) := by
  cases direction <;> rfl

end SetCopy

/-! ## The flag and the handler -/

def CopyPc.swapped : CopyPc → Bool
  | .calling _ | .closing | .ended => true
  | _ => false

/-- The goroutine is about to call the handler. -/
def CopyPc.owes : CopyPc → Nat
  | .calling _ => 1
  | _ => 0

/-- How many calls are due when the goroutines have swapped or not. -/
def Kind.due (one other : Bool) : Nat :=
  match kind with
  | .stream => (one && other).toNat
  | .packet => (one || other).toNat

/-- The handshake of a packet connection could not be reported. -/
def Unreported (labels : List Label) : Prop :=
  kind = .packet ∧ ∃ err, Label.reported (some err) ∈ labels

/-- The goroutines and the flag, once the first of them has been started. -/
structure Running (kind : Kind) (s : State) : Prop where
  upload : s.copy false ≠ .notStarted
  main : s.main = .goDownload ∧ s.copy true = .notStarted ∨
    s.main = .ended ∧ s.copy true ≠ .notStarted
  done : s.done = ((s.copy false).swapped || (s.copy true).swapped)
  calls : s.calls + (s.copy false).owes + (s.copy true).owes =
    kind.due (s.copy false).swapped (s.copy true).swapped

/-- The entry function has neither started a goroutine nor returned. -/
def MainPc.early : MainPc → Bool
  | .goDownload | .ended => false
  | _ => true

/-- Before the goroutines are started. -/
structure Starting (s : State) : Prop where
  main : s.main.early
  copies : ∀ direction, s.copy direction = .notStarted
  done : s.done = false
  calls : s.calls = 0

/-- After an early return. -/
structure Failed (s : State) : Prop where
  main : s.main = .ended
  copies : ∀ direction, s.copy direction = .notStarted

/-- What holds after the steps `labels`. -/
inductive Inv (kind : Kind) (labels : List Label) (s : State) : Prop where
  | starting (reported : ¬ Unreported kind labels) (h : Starting s)
  | running (reported : ¬ Unreported kind labels) (h : Running kind s)
  | failed (reported : ¬ Unreported kind labels) (h : Failed s) (calls : s.calls = 1)
  | unreported (unreported : Unreported kind labels) (h : Failed s) (calls : s.calls = 0)

theorem unreported_append {kind : Kind} {labels : List Label} {label : Label}
    (ok : ∀ err, label ≠ .reported (some err)) :
    Unreported kind (labels ++ [label]) ↔ Unreported kind labels := by
  unfold Unreported
  simp only [mem_append, mem_singleton]
  refine and_congr_right fun _ => exists_congr fun err => or_iff_left ?_
  exact fun same => ok err same.symm

theorem go_ne_reported : ∀ err, Label.go ≠ .reported (some err) := nofun

variable {lib : Library} {kind : Kind} {target : Target} {s s' : State} {label : Label}
  {labels : List Label}

/-- What one line of the entry function can do. -/
inductive MainMoves (kind : Kind) (s : State) : Label → State → Prop where
  | advance {label : Label} {main : MainPc} (ok : ∀ err, label ≠ .reported (some err))
      (early : s.main.early) (early' : main.early) : MainMoves kind s label { s with main }
  | fail {label : Label} {s' : State} (ok : ¬ Unreported kind [label]) (early : s.main.early)
      (main : s'.main = .ended) (copies : s'.copy = s.copy)
      (calls : s.done = false → s'.calls = s.calls + 1) : MainMoves kind s label s'
  | unreported {err : String} (packet : kind = .packet) (early : s.main.early) :
      MainMoves kind s (.reported (some err))
        { s.put [.closeConn, .closeRemote] with main := .ended }
  | goUpload (here : s.main = .goUpload) :
      MainMoves kind s .go { s with main := .goDownload, upload := .copying }
  | goDownload (here : s.main = .goDownload) :
      MainMoves kind s .go { s with main := .ended, download := .copying }

theorem not_unreported_of_ne {label : Label} (ok : ∀ err, label ≠ .reported (some err)) :
    ¬ Unreported kind [label] := by
  rintro ⟨-, err, mem⟩
  exact ok err (mem_singleton.mp mem).symm

theorem kickFailed_moves (early : s.main.early) (direction : Bool) (err : String) (kick : Kick) :
    MainMoves kind s (.kicked kick) (s.kickFailed direction err) := by
  refine .fail (not_unreported_of_ne nofun) early rfl ?_ fun open_ => ?_
  · unfold State.kickFailed
    cases s.done <;> rfl
  · unfold State.kickFailed
    rw [open_]
    change ((s.put [.onClose (some err)]).put (closeBoth direction)).calls = _
    simp [Event.isOnClose]

theorem kicked_moves (early : s.main.early) {next : MainPc} (early' : next.early)
    {direction : Bool} {kick : Kick}
    (h : (match kick.failure with
      | none => some { s with main := next }
      | some err => some (s.kickFailed direction err)) = some s') :
    MainMoves kind s (.kicked kick) s' := by
  split at h
  · cases h
    exact .advance nofun early early'
  · cases h
    exact kickFailed_moves early direction _ kick

theorem mainStep_moves (h : mainStep lib kind target s label = some s') :
    MainMoves kind s label s' := by
  cases label with
  | dialed err =>
    simp only [mainStep] at h
    split at h
    · rename_i here
      cases err with
      | none =>
        cases h
        exact .advance nofun (by rw [here]; rfl) rfl
      | some err =>
        cases h
        exact .fail (not_unreported_of_ne nofun) (by rw [here]; rfl) rfl rfl
          fun _ => (calls_put s _).trans (by rw [lib.calls_onClose])
    · cases h
  | reported err =>
    simp only [mainStep] at h
    split at h
    · rename_i here
      have early : s.main.early := by rw [here]; rfl
      cases kind with
      | stream =>
        cases err with
        | none =>
          cases h
          exact .advance nofun early rfl
        | some err =>
          cases h
          exact .fail (fun unreported => absurd unreported.1 (by decide)) early rfl rfl
            fun _ => (calls_put s _).trans (congrArg (s.calls + ·)
              ((countP_cons_of_neg (by decide)).trans (lib.calls_onClose _)))
      | packet =>
        cases err with
        | none =>
          cases h
          exact .advance nofun early rfl
        | some err =>
          cases h
          exact .unreported rfl early
    · cases h
  | kicked kick =>
    simp only [mainStep] at h
    split at h
    case h_3 => cases h
    all_goals
      rename_i here
      exact kicked_moves (by rw [here]; rfl) rfl h
  | go =>
    simp only [mainStep] at h
    split at h
    · rename_i here
      cases h
      exact .goUpload here
    · rename_i here
      cases h
      exact .goDownload here
    · cases h
  | _ => cases h

/-- What one line of a copy goroutine can do. -/
inductive CopyMoves (kind : Kind) (s : State) : Label → State → Prop where
  | copied {direction : Bool} (outcome : Copied) (here : s.copy direction = .copying) :
      CopyMoves kind s (.copied direction outcome)
        ((s.put (outcome.finish direction kind).2).setCopy direction
          (.swapping (outcome.finish direction kind).1))
  | swapCalls {direction : Bool} {err : Option String} (here : s.copy direction = .swapping err)
      (calls : kind.calls s.done = true) :
      CopyMoves kind s (.swap direction) ({ s with done := true }.setCopy direction (.calling err))
  | swapQuiet {direction : Bool} {err : Option String} (here : s.copy direction = .swapping err)
      (quiet : kind.calls s.done = false) :
      CopyMoves kind s (.swap direction) ({ s with done := true }.setCopy direction kind.quiet)
  | call {direction : Bool} {err : Option String} (here : s.copy direction = .calling err) :
      CopyMoves kind s (.call direction) ((s.put [.onClose err]).setCopy direction .closing)
  | close {direction : Bool} (here : s.copy direction = .closing) :
      CopyMoves kind s (.close direction) ((s.put (closeBoth direction)).setCopy direction .ended)

theorem copyStep_moves (h : copyStep kind s label = some s') : CopyMoves kind s label s' := by
  cases label with
  | copied direction outcome =>
    simp only [copyStep] at h
    split at h <;> cases h
    rename_i here
    exact .copied outcome here
  | swap direction =>
    simp only [copyStep] at h
    split at h <;> cases h
    rename_i err here
    cases calls : kind.calls s.done with
    | true => exact .swapCalls here calls
    | false => exact .swapQuiet here calls
  | call direction =>
    simp only [copyStep] at h
    split at h <;> cases h
    rename_i err here
    exact .call here
  | close direction =>
    simp only [copyStep] at h
    split at h <;> cases h
    rename_i here
    exact .close here
  | _ => cases h

theorem step_moves (h : step lib kind target s label = some s') :
    MainMoves kind s label s' ∨ CopyMoves kind s label s' := by
  unfold step at h
  cases main : mainStep lib kind target s label with
  | some s'' =>
    rw [main] at h
    cases h
    exact .inl (mainStep_moves main)
  | none =>
    rw [main] at h
    exact .inr (copyStep_moves h)

/-! ## Steps keep the invariant -/

theorem Kind.due_comm (kind : Kind) (one other : Bool) :
    kind.due one other = kind.due other one := by
  cases kind <;> cases one <;> cases other <;> rfl

theorem Running.at (h : Running kind s) {direction : Bool} {pc : CopyPc}
    (here : s.copy direction = pc) :
    s.done = (pc.swapped || (s.copy !direction).swapped) ∧
    s.calls + pc.owes + (s.copy !direction).owes =
      kind.due pc.swapped (s.copy !direction).swapped := by
  subst here
  cases direction with
  | false => exact ⟨h.done, h.calls⟩
  | true =>
    rw [kind.due_comm, Nat.add_right_comm]
    exact ⟨h.done.trans (Bool.or_comm _ _), h.calls⟩

/-- One goroutine goes on, the other one and the entry function stay where they are. -/
theorem Running.setCopy (h : Running kind s) (t : State) (direction : Bool) (pc : CopyPc)
    (main : t.main = s.main) (copies : t.copy = s.copy)
    (started : s.copy direction ≠ .notStarted) (started' : pc ≠ .notStarted)
    (done : t.done = (pc.swapped || (s.copy !direction).swapped))
    (calls : t.calls + pc.owes + (s.copy !direction).owes =
      kind.due pc.swapped (s.copy !direction).swapped) : Running kind (t.setCopy direction pc) := by
  have here := copy_setCopy t direction pc
  have other := copy_setCopy_not t direction pc
  rw [copies] at other
  cases direction with
  | false =>
    change (t.setCopy false pc).copy true = s.copy true at other
    refine ⟨by rw [here]; exact started', ?_, ?_, ?_⟩
    · rw [main_setCopy, main, other]
      exact h.main
    · rw [other]
      exact done
    · rw [other]
      exact calls
  | true =>
    change (t.setCopy true pc).copy false = s.copy false at other
    refine ⟨by rw [other]; exact h.upload, ?_, ?_, ?_⟩
    · rw [main_setCopy, main]
      exact .inr ⟨(h.main.resolve_left fun both => started both.2).1, started'⟩
    · rw [done_setCopy, other, done]
      exact Bool.or_comm _ _
    · rw [other, kind.due_comm, Nat.add_right_comm]
      exact calls

theorem Kind.quiet_swapped (kind : Kind) : kind.quiet.swapped = true := by cases kind <;> rfl

theorem Kind.quiet_owes (kind : Kind) : kind.quiet.owes = 0 := by cases kind <;> rfl

/-- The goroutine that swaps gets one more call to make exactly if one more is due. -/
theorem Kind.due_swap (kind : Kind) (other : Bool) :
    kind.due true other = kind.due false other + (kind.calls other).toNat := by
  cases kind <;> cases other <;> rfl

theorem Running.copyMoves (h : Running kind s) (moves : CopyMoves kind s label s') :
    Running kind s' := by
  cases moves with
  | @copied direction outcome here =>
    obtain ⟨done, calls⟩ := h.at here
    refine h.setCopy (s.put _) direction (.swapping _) rfl rfl (by rw [here]; nofun) nofun done ?_
    rw [calls_put, countP_finish]
    exact calls
  | @swapCalls direction err here due =>
    obtain ⟨done, calls⟩ := h.at here
    change s.done = (s.copy !direction).swapped at done
    change s.calls + 0 + (s.copy !direction).owes = _ at calls
    refine h.setCopy { s with done := true } direction (.calling err) rfl rfl
      (by rw [here]; nofun) nofun rfl ?_
    change s.calls + 1 + (s.copy !direction).owes = kind.due true _
    rw [kind.due_swap, ← done, due, done]
    change _ = kind.due false _ + 1
    change _ = kind.due false _ at calls
    omega
  | @swapQuiet direction err here quiet =>
    obtain ⟨done, calls⟩ := h.at here
    change s.done = (s.copy !direction).swapped at done
    refine h.setCopy { s with done := true } direction kind.quiet rfl rfl
      (by rw [here]; nofun) (by cases kind <;> nofun) (by rw [kind.quiet_swapped]; rfl) ?_
    rw [kind.quiet_swapped, kind.quiet_owes, kind.due_swap, ← done, quiet, done]
    exact calls
  | @call direction err here =>
    obtain ⟨done, calls⟩ := h.at here
    refine h.setCopy (s.put _) direction .closing rfl rfl (by rw [here]; nofun) nofun done ?_
    rw [calls_put]
    exact calls
  | @close direction here =>
    obtain ⟨done, calls⟩ := h.at here
    refine h.setCopy (s.put _) direction .ended rfl rfl (by rw [here]; nofun) nofun done ?_
    rw [calls_put, countP_closeBoth]
    exact calls

theorem CopyMoves.started (moves : CopyMoves kind s label s') :
    ∃ direction, s.copy direction ≠ .notStarted := by
  cases moves with
  | copied _ here | swapCalls here _ | swapQuiet here _ | call here | close here =>
    exact ⟨_, by rw [here]; nofun⟩

section

variable (inv : Inv kind labels s)
include inv

theorem Inv.of_early (early : s.main.early) : ¬ Unreported kind labels ∧ Starting s := by
  cases inv with
  | starting reported h => exact ⟨reported, h⟩
  | running reported h =>
    rcases h.main with ⟨main, -⟩ | ⟨main, -⟩ <;> rw [main] at early <;> cases early
  | failed reported h | unreported unreported h =>
    rw [h.main] at early
    cases early

theorem Inv.of_goDownload (here : s.main = .goDownload) :
    ¬ Unreported kind labels ∧ Running kind s ∧ s.copy true = .notStarted := by
  cases inv with
  | running reported h =>
    have absent := (h.main.resolve_right fun both => by rw [here] at both; cases both.1).2
    exact ⟨reported, h, absent⟩
  | starting reported h =>
    have early := h.main
    rw [here] at early
    cases early
  | failed reported h | unreported unreported h => cases here.symm.trans h.main

theorem Inv.of_started {direction : Bool} (started : s.copy direction ≠ .notStarted) :
    ¬ Unreported kind labels ∧ Running kind s := by
  cases inv with
  | running reported h => exact ⟨reported, h⟩
  | starting reported h | failed reported h | unreported unreported h =>
    exact absurd (h.copies direction) started

theorem Inv.mainMoves (moves : MainMoves kind s label s') : Inv kind (labels ++ [label]) s' := by
  cases moves with
  | advance ok early early' =>
    obtain ⟨reported, h⟩ := inv.of_early early
    exact .starting (by rwa [unreported_append ok]) ⟨early', h.copies, h.done, h.calls⟩
  | fail ok early main copies calls =>
    obtain ⟨reported, h⟩ := inv.of_early early
    refine .failed (fun unreported => ?_) ⟨main, copies ▸ h.copies⟩ ?_
    · obtain ⟨packet, err, mem⟩ := unreported
      exact (mem_append.mp mem).elim (reported ⟨packet, err, ·⟩) (ok ⟨packet, err, ·⟩)
    · rw [calls h.done, h.calls]
  | @unreported err packet early =>
    obtain ⟨reported, h⟩ := inv.of_early early
    refine .unreported ⟨packet, err, by simp⟩ ⟨rfl, h.copies⟩ ?_
    exact (calls_put s _).trans h.calls
  | goUpload here =>
    obtain ⟨reported, h⟩ := inv.of_early (by rw [here]; rfl)
    refine .running (fun h => reported ((unreported_append go_ne_reported).mp h))
      ⟨nofun, .inl ⟨rfl, h.copies true⟩, ?_, ?_⟩
    · change s.done = (_ || (s.copy true).swapped)
      rw [h.done, h.copies true]
      rfl
    · change s.calls + 0 + (s.copy true).owes = kind.due false (s.copy true).swapped
      rw [h.calls, h.copies true]
      cases kind <;> rfl
  | goDownload here =>
    obtain ⟨reported, h, absent⟩ := inv.of_goDownload here
    have done := h.done
    have calls := h.calls
    rw [absent] at done calls
    exact .running (fun h => reported ((unreported_append go_ne_reported).mp h))
      ⟨h.upload, .inr ⟨rfl, nofun⟩, done, calls⟩

theorem step_inv (h : step lib kind target s label = some s') :
    Inv kind (labels ++ [label]) s' := by
  rcases step_moves h with main | copy
  · exact inv.mainMoves main
  · obtain ⟨direction, started⟩ := copy.started
    obtain ⟨reported, h⟩ := inv.of_started started
    exact .running (by rwa [unreported_append (by cases copy <;> nofun)]) (h.copyMoves copy)

end

theorem run_inv (h : steps (step lib kind target) {} labels = some s) : Inv kind labels s := by
  refine steps_history (Inv kind) (fun done l rest s₁ s₂ _ inv taken => step_inv inv taken) ?_ h
  refine .starting ?_ ⟨rfl, fun direction => by cases direction <;> rfl, rfl, rfl⟩
  rintro ⟨-, err, mem⟩
  cases mem

/-- **The handler is called once.** On every path and for every order in which the directions end,
when all goroutines have ended the handler has been called exactly once, if and only if it is not
the handshake of a packet connection that could not be reported; in that case it has not been called
at all. -/
theorem onClose_calls (lib : Library) (kind : Kind) (target : Target) {labels : List Label}
    {s : State} (run : steps (step lib kind target) {} labels = some s) (ended : s.Ended) :
    (s.calls = 1 ↔ ¬ Unreported kind labels) ∧ (Unreported kind labels → s.calls = 0) := by
  cases run_inv run with
  | starting reported h =>
    have early := h.main
    rw [ended.1] at early
    cases early
  | failed reported h calls => exact ⟨iff_of_true calls reported, fun h => absurd h reported⟩
  | unreported unreported h calls =>
    refine ⟨iff_of_false (by rw [calls]; decide) fun no => no unreported, fun _ => calls⟩
  | running reported h =>
    have upload := (ended.2 false).resolve_left h.upload
    have download := (ended.2 true).resolve_left
      (h.main.resolve_left fun both => by rw [ended.1] at both; cases both.1).2
    have calls := h.calls
    rw [upload, download] at calls
    refine ⟨iff_of_true (calls.trans ?_) reported, fun h => absurd h reported⟩
    cases kind <;> rfl

/-- A connection without an outbound. -/
def direct : Target := ⟨[], "1.1.1.1:53", none, "", false⟩

/-- The handler first, then the connection. -/
def sing : Library where
  cause err text := text ++ ": " ++ err
  closeOnHandshakeFailure err := [.onClose (some err), .closeConn]
  calls_onClose _ := rfl

/-- Both directions of a stream are copied; the download ends last and calls the handler. -/
theorem onClose_calls_copied :
    let kick : Kick := ⟨false, false, none, false⟩
    let labels : List Label := [.dialed none, .reported none, .kicked kick, .kicked kick, .go, .go,
      .copied false ⟨none, some none⟩, .swap false, .copied true ⟨some "reset", none⟩, .swap true,
      .call true, .close true]
    ∃ s, steps (step sing .stream direct) {} labels = some s ∧ s.calls = 1 ∧
      s.events = [.closeWrite true, .closeRemote, .closeConn, .onClose (some "reset"),
        .closeRemote, .closeConn] := by
  intro kick labels
  have run : steps (step sing .stream direct) {} labels = some _ := rfl
  refine ⟨_, run, ?_, by decide⟩
  refine (onClose_calls sing .stream direct run ?_).1.mpr fun unreported => ?_
  · exact ⟨rfl, fun direction => .inr (by cases direction <;> rfl)⟩
  · exact absurd unreported.1 (by decide)

/-- The remote side of a packet connection is there, but the inbound cannot be told so. -/
theorem onClose_not_called :
    ∃ s, steps (step sing .packet direct) {}
        [.dialed none, .reported (some "broken pipe")] = some s ∧ s.Ended ∧ s.calls = 0 ∧
      s.events = [.closeConn, .closeRemote] :=
  ⟨_, rfl, ⟨rfl, fun direction => .inl (by cases direction <;> rfl)⟩, rfl, rfl⟩

end SingBox.Route.Conn
