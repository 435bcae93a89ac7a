import SingBox.Lib.System

/-!
# The test queues of outbound monitoring

`OutboundMonitoring` of `common/monitoring/outbound_monitoring.go` tests outbounds: cycles,
`TestNow` and `InvalidateTest` make tasks, `enqueueTask` puts them into one of two bounded
queues, and workers take them out and run `executeTask`. Two flags of an outbound say that a task
of it is under way. `enqueueTask` sets them before it sends the task and `applyResult` clears
them; as long as one is set, cycles skip the outbound.

The steps are the sections under the lock of an outbound and the operations on the queues. A task
counts from its sending on until the worker that executes it returns; while an outbound is not
ready, its task waits and is sent again with the next cycle number.

* `enqueueTask_cases` — a task is refused, sent, or dropped because the queue is full;
* `inv_step_iff` — a step leaves a flag without a task exactly if it drops the last task of an
  outbound with a flag set;
* `Owned.step` — without full queues, and without tasks of priority that wait, every flag has a
  task that has set it;
* `flags_never_strand_iff` — the two for whole runs.
-/

namespace SingBox.Monitoring

open SingBox.Lib Function List Option

variable {Tag : Type}

/-! ## Tasks and outbounds -/

/-- `testTask`, without the channel for the outcome. -/
structure TestTask (Tag : Type) where
  outboundTag : Tag
  cycleID : Nat
  priority : Bool
  deriving DecidableEq, Repr

/-- The fields of `outboundState` that `enqueueTask` sets. -/
structure Flags where
  queued : Bool
  priorityQueued : Bool
  enqueuedCycle : Nat
  deriving DecidableEq, Repr

namespace Flags

def clear : Flags := ⟨false, false, 0⟩

/-- `collectCycleTargets` skips an outbound with a flag set. -/
def set (f : Flags) : Bool := f.queued || f.priorityQueued

/-- `enqueueTask` takes the task for one that is there already. -/
def refuses (f : Flags) (task : TestTask Tag) : Bool :=
  if task.priority then f.priorityQueued else f.enqueuedCycle == task.cycleID

/-- The flags as `enqueueTask` sets them. -/
def mark (f : Flags) (task : TestTask Tag) : Flags :=
  if task.priority then { f with priorityQueued := true }
  else { f with enqueuedCycle := task.cycleID, queued := true }

@[simp] theorem set_mark (f : Flags) (task : TestTask Tag) : (f.mark task).set = true := by
  unfold mark set
  split <;> simp

end Flags

/-- `outboundState`, without the history. -/
structure OutboundState extends Flags where
  testing : Bool
  invalid : Bool
  deriving DecidableEq, Repr

structure Config (Tag : Type) where
  workersCount : Nat
  priorityCap : Nat
  normalCap : Nat
  /-- The outbound is in `m.groups`. -/
  isGroup : Tag → Bool

/-- A cycle that has begun: its number and its targets so far. -/
structure Cycle (Tag : Type) where
  cycleID : Nat
  tags : List Tag

structure OutboundMonitoring (Tag : Type) where
  outbounds : Tag → OutboundState
  priorityQueue : List (TestTask Tag)
  normalQueue : List (TestTask Tag)
  /-- A worker has taken the task out of its queue. -/
  taken : List (TestTask Tag)
  /-- `executeTask` has set `testing`. -/
  running : List (TestTask Tag)
  /-- The result has been applied and the worker is about to return. -/
  applied : List (TestTask Tag)
  /-- The outbound was not ready and the task waits to be sent again. -/
  waiting : List (TestTask Tag)
  /-- The workers about to return from a task whose outbound was not ready. -/
  returning : List Tag
  /-- `InvalidateTest` has set `invalid` and is about to call `enqueueTask`. -/
  invalidated : List Tag
  cycleSeq : Nat
  cycle : Option (Cycle Tag)

namespace OutboundMonitoring

/-- The monitoring after the start. The source marks every outbound as invalid; here any may be. -/
def init (invalid : Tag → Bool) : OutboundMonitoring Tag where
  outbounds tag := { Flags.clear with testing := false, invalid := invalid tag }
  priorityQueue := []
  normalQueue := []
  taken := []
  running := []
  applied := []
  waiting := []
  returning := []
  invalidated := []
  cycleSeq := 0
  cycle := none

def flags (s : OutboundMonitoring Tag) (tag : Tag) : Flags := (s.outbounds tag).toFlags

/-- The tasks whose result has not been applied. -/
def pending (s : OutboundMonitoring Tag) : List (TestTask Tag) :=
  s.priorityQueue ++ (s.normalQueue ++ (s.taken ++ (s.running ++ s.waiting)))

/-- The tasks in a queue, being executed, or waiting for their retry delay. -/
def tasks (s : OutboundMonitoring Tag) : List (TestTask Tag) := s.pending ++ s.applied

def busy (s : OutboundMonitoring Tag) : Nat :=
  s.taken.length + s.running.length + s.applied.length + s.returning.length

/-- The queue of the task has no room for it. -/
def full (cfg : Config Tag) (s : OutboundMonitoring Tag) (task : TestTask Tag) : Bool :=
  if task.priority then cfg.priorityCap ≤ s.priorityQueue.length
  else cfg.normalCap ≤ s.normalQueue.length

variable [DecidableEq Tag]

def setState (s : OutboundMonitoring Tag) (tag : Tag) (state : OutboundState) :
    OutboundMonitoring Tag :=
  { s with outbounds := update s.outbounds tag state }

/-- `enqueueTask` has set the flag for the task. -/
def marked (s : OutboundMonitoring Tag) (task : TestTask Tag) : OutboundMonitoring Tag :=
  s.setState task.outboundTag
    { s.outbounds task.outboundTag with
      toFlags := (s.outbounds task.outboundTag).mark task }

def enqueueTask (cfg : Config Tag) (task : TestTask Tag) (s : OutboundMonitoring Tag) :
    OutboundMonitoring Tag × Bool :=
  if (s.outbounds task.outboundTag).refuses task then (s, false)
  else
    let s := s.marked task
    if s.full cfg task then (s, false)
    else if task.priority then
      ({ s with priorityQueue := s.priorityQueue ++ [task] }, true)
    else
      ({ s with normalQueue := s.normalQueue ++ [task] }, true)

/-- `failed` is `outcome.err != nil`. -/
def applyResult (s : OutboundMonitoring Tag) (tag : Tag) (failed : Bool) :
    OutboundMonitoring Tag :=
  s.setState tag { s.outbounds tag with toFlags := .clear, invalid := failed }

/-- One turn of the loop of `collectCycleTargets`; `due` says that the last test of the outbound is
older than the interval. The order of the targets by delay does not matter here. -/
def collectCycleTarget (cfg : Config Tag) (s : OutboundMonitoring Tag) (tag : Tag) (due : Bool)
    (tags : List Tag) : List Tag :=
  let state := s.outbounds tag
  if cfg.isGroup tag then tags
  else if state.testing || state.queued || state.priorityQueued then tags
  else if state.invalid || due then tags ++ [tag]
  else tags

end OutboundMonitoring

/-! ## Steps -/

inductive Label (Tag : Type) where
  | startCycle
  | collect (tag : Tag) (due : Bool)
  /-- `runStage` makes a task for one of the targets. A cycle may run several stages. -/
  | cycleTest (tag : Tag)
  | endCycle
  /-- `testNow` makes a task: of priority, or without it for a member of a group. -/
  | testNow (tag : Tag) (priority : Bool)
  /-- `InvalidateTest` sets `invalid`. -/
  | invalidate (tag : Tag)
  /-- `InvalidateTest` makes a task. -/
  | retest (tag : Tag)
  | dequeuePriority
  | dequeueNormal
  /-- `executeTask` sets `testing`. -/
  | start (task : TestTask Tag)
  /-- The outbound is not ready. -/
  | notReady (task : TestTask Tag)
  /-- The test is done and `applyResult` is called. -/
  | result (task : TestTask Tag) (failed : Bool)
  /-- `executeTask` returns after a test. -/
  | finish (task : TestTask Tag)
  /-- `executeTask` returns after it found the outbound not ready. -/
  | returned (tag : Tag)
  /-- The delay of a waiting task is over. -/
  | retry (task : TestTask Tag)
  deriving DecidableEq, Repr

/-- The task as it is sent again. -/
def TestTask.again (task : TestTask Tag) : TestTask Tag := { task with cycleID := task.cycleID + 1 }

section Step

variable [DecidableEq Tag] (cfg : Config Tag)

open OutboundMonitoring

/-- A waiting task is taken back to be sent again. -/
def OutboundMonitoring.without (s : OutboundMonitoring Tag) (task : TestTask Tag) :
    OutboundMonitoring Tag :=
  { s with waiting := s.waiting.erase task }

def step (s : OutboundMonitoring Tag) : Label Tag → Option (OutboundMonitoring Tag)
  | .startCycle =>
      -- `cycleRunning` lets one cycle run at a time
      if s.cycle.isSome then none
      else some { s with cycleSeq := s.cycleSeq + 1, cycle := some ⟨s.cycleSeq + 1, []⟩ }
  | .collect tag due => s.cycle.map fun cycle =>
      { s with cycle := some { cycle with tags := collectCycleTarget cfg s tag due cycle.tags } }
  | .cycleTest tag => s.cycle.bind fun cycle =>
      if tag ∈ cycle.tags then some (enqueueTask cfg ⟨tag, cycle.cycleID, false⟩ s).1 else none
  | .endCycle => s.cycle.map fun _ => { s with cycle := none }
  | .testNow tag priority =>
      if cfg.isGroup tag then none
      else some (enqueueTask cfg ⟨tag, s.cycleSeq, priority⟩ s).1
  | .invalidate tag =>
      some { s.setState tag { s.outbounds tag with invalid := true } with
        invalidated := s.invalidated ++ [tag] }
  | .retest tag =>
      if tag ∈ s.invalidated then
        some (enqueueTask cfg ⟨tag, s.cycleSeq, true⟩
          { s with invalidated := s.invalidated.erase tag }).1
      else none
  | .dequeuePriority =>
      match s.priorityQueue with
      | [] => none
      | task :: rest =>
          if s.busy < cfg.workersCount then
            some { s with priorityQueue := rest, taken := s.taken ++ [task] }
          else none
  | .dequeueNormal =>
      match s.normalQueue with
      | [] => none
      | task :: rest =>
          if s.busy < cfg.workersCount then
            some { s with normalQueue := rest, taken := s.taken ++ [task] }
          else none
  | .start task =>
      if task ∈ s.taken then
        let state := s.outbounds task.outboundTag
        some { s.setState task.outboundTag { state with testing := true } with
          taken := s.taken.erase task, running := s.running ++ [task] }
      else none
  | .notReady task =>
      if task ∈ s.running ∧ task.cycleID < 10 then
        some { s with
          running := s.running.erase task
          waiting := s.waiting ++ [task]
          returning := s.returning ++ [task.outboundTag] }
      else none
  | .result task failed =>
      if task ∈ s.running then
        some { s.applyResult task.outboundTag failed with
          running := s.running.erase task, applied := s.applied ++ [task] }
      else none
  | .finish task =>
      if task ∈ s.applied then
        let state := s.outbounds task.outboundTag
        some { s.setState task.outboundTag { state with testing := false } with
          applied := s.applied.erase task }
      else none
  | .returned tag =>
      if tag ∈ s.returning then
        some { s.setState tag { s.outbounds tag with testing := false } with
          returning := s.returning.erase tag }
      else none
  | .retry task =>
      if task ∈ s.waiting then some (enqueueTask cfg task.again (s.without task)).1 else none

end Step

/-! ## What a step does to the flags and the tasks -/

section Effect

variable [DecidableEq Tag] {cfg : Config Tag} {s s' : OutboundMonitoring Tag}
  {task : TestTask Tag}

open OutboundMonitoring

theorem flags_setState (s : OutboundMonitoring Tag) (tag : Tag) (state : OutboundState) :
    (s.setState tag state).flags = update s.flags tag state.toFlags := by
  funext other
  by_cases same : other = tag
  · subst same
    simp [flags, setState]
  · simp [flags, setState, update_of_ne same]

/-- Changing the other fields of an outbound leaves the flags. -/
theorem flags_setState_same {s : OutboundMonitoring Tag} {tag : Tag} {state : OutboundState}
    (same : state.toFlags = s.flags tag) : (s.setState tag state).flags = s.flags := by
  rw [flags_setState, same, update_eq_self]

theorem count_cons_eq (x t : TestTask Tag) (l : List (TestTask Tag)) :
    (t :: l).count x = [t].count x + l.count x := by
  rw [← count_append]
  rfl

theorem count_of_mem {t : TestTask Tag} {l : List (TestTask Tag)} (mem : t ∈ l)
    (x : TestTask Tag) : l.count x = [t].count x + (l.erase t).count x := by
  rw [(perm_cons_erase mem).count_eq, count_cons_eq]

/-- What `enqueueTask` does to a task: it is refused, sent to its queue, or dropped after its flag
has been set. -/
inductive Enqueued (cfg : Config Tag) (s : OutboundMonitoring Tag) (task : TestTask Tag)
    (s' : OutboundMonitoring Tag) : Prop
  | refused (refused : (s.flags task.outboundTag).refuses task = true) (flags : s'.flags = s.flags)
      (pending : s'.pending.Perm s.pending) (applied : s'.applied = s.applied)
      (waiting : s'.waiting = s.waiting)
  | sent (fresh : (s.flags task.outboundTag).refuses task = false)
      (room : s.full cfg task = false)
      (flags : s'.flags =
        update s.flags task.outboundTag ((s.flags task.outboundTag).mark task))
      (pending : s'.pending.Perm (task :: s.pending)) (applied : s'.applied = s.applied)
      (waiting : s'.waiting = s.waiting)
  | dropped (fresh : (s.flags task.outboundTag).refuses task = false)
      (full : s.full cfg task = true)
      (flags : s'.flags =
        update s.flags task.outboundTag ((s.flags task.outboundTag).mark task))
      (pending : s'.pending.Perm s.pending) (applied : s'.applied = s.applied)
      (waiting : s'.waiting = s.waiting)

theorem enqueueTask_cases (cfg : Config Tag) (task : TestTask Tag) (s : OutboundMonitoring Tag) :
    Enqueued cfg s task (enqueueTask cfg task s).1 := by
  have flags : (s.marked task).flags = update s.flags task.outboundTag
      ((s.flags task.outboundTag).mark task) := flags_setState ..
  unfold enqueueTask
  split
  case isTrue refused => exact .refused refused rfl (Perm.refl _) rfl rfl
  case isFalse fresh =>
    have fresh : (s.flags task.outboundTag).refuses task = false :=
      eq_false_of_ne_true fresh
    dsimp only
    split
    case isTrue full => exact .dropped fresh full flags (Perm.refl _) rfl rfl
    case isFalse room =>
      have room : s.full cfg task = false := eq_false_of_ne_true room
      split
      all_goals
        refine .sent fresh room flags (perm_iff_count.mpr fun x => ?_) rfl rfl
        rw [count_cons_eq]
        simp only [pending, marked, setState, count_append]
        omega

/-- The events that matter to the flags. -/
inductive Event (Tag : Type) where
  /-- No task is made or comes to an end. -/
  | other
  | enqueue (task : TestTask Tag)
  /-- A waiting task is passed to `enqueueTask` again. -/
  | retry (task : TestTask Tag)
  | result (task : TestTask Tag)
  | finish (task : TestTask Tag)
  | wait (task : TestTask Tag)

def event (s : OutboundMonitoring Tag) : Label Tag → Event Tag
  | .cycleTest tag => .enqueue ⟨tag, s.cycle.elim 0 (·.cycleID), false⟩
  | .testNow tag priority => .enqueue ⟨tag, s.cycleSeq, priority⟩
  | .retest tag => .enqueue ⟨tag, s.cycleSeq, true⟩
  | .retry task => .retry task
  | .result task _ => .result task
  | .finish task => .finish task
  | .notReady task => .wait task
  | _ => .other

inductive Effect (cfg : Config Tag) (s s' : OutboundMonitoring Tag) : Event Tag → Prop
  | other (flags : s'.flags = s.flags) (pending : s'.pending.Perm s.pending)
      (applied : s'.applied = s.applied) (waiting : s'.waiting = s.waiting) : Effect cfg s s' .other
  | enqueue {task : TestTask Tag} (enqueued : Enqueued cfg s task s') :
      Effect cfg s s' (.enqueue task)
  | retry {task : TestTask Tag} (mem : task ∈ s.waiting)
      (enqueued : Enqueued cfg (s.without task) task.again s') : Effect cfg s s' (.retry task)
  | result {task : TestTask Tag}
      (flags : s'.flags = update s.flags task.outboundTag .clear)
      (pending : s.pending.Perm (task :: s'.pending))
      (applied : s'.applied.Perm (task :: s.applied)) (waiting : s'.waiting = s.waiting) :
      Effect cfg s s' (.result task)
  | finish {task : TestTask Tag} (flags : s'.flags = s.flags) (pending : s'.pending = s.pending)
      (applied : s.applied.Perm (task :: s'.applied)) (waiting : s'.waiting = s.waiting) :
      Effect cfg s s' (.finish task)
  | wait {task : TestTask Tag} (flags : s'.flags = s.flags)
      (pending : s'.pending.Perm s.pending) (applied : s'.applied = s.applied)
      (waiting : s'.waiting = s.waiting ++ [task]) : Effect cfg s s' (.wait task)

theorem step_effect {label : Label Tag} (h : step cfg s label = some s') :
    Effect cfg s s' (event s label) := by
  cases label with
  | startCycle =>
    simp only [step] at h
    split at h <;> cases h
    exact .other rfl (Perm.refl _) rfl rfl
  | collect | endCycle =>
    obtain ⟨cycle, -, rfl⟩ := map_eq_some_iff.mp h
    exact .other rfl (Perm.refl _) rfl rfl
  | cycleTest tag =>
    obtain ⟨cycle, running, now⟩ := bind_eq_some_iff.mp h
    split at now <;> cases now
    have isTask : event s (.cycleTest tag) = .enqueue ⟨tag, cycle.cycleID, false⟩ := by
      simp [event, running]
    rw [isTask]
    exact .enqueue (enqueueTask_cases ..)
  | testNow tag priority =>
    simp only [step] at h
    split at h <;> cases h
    exact .enqueue (enqueueTask_cases ..)
  | invalidate tag =>
    cases h
    exact .other (flags_setState_same rfl) (Perm.refl _) rfl rfl
  | retest tag =>
    simp only [step] at h
    split at h <;> cases h
    refine .enqueue ?_
    cases enqueueTask_cases cfg ⟨tag, s.cycleSeq, true⟩
      { s with invalidated := s.invalidated.erase tag } with
    | refused refused flags pending applied waiting =>
      exact .refused refused flags pending applied waiting
    | sent fresh room flags pending applied waiting =>
      exact .sent fresh room flags pending applied waiting
    | dropped fresh full flags pending applied waiting =>
      exact .dropped fresh full flags pending applied waiting
  | dequeuePriority | dequeueNormal =>
    simp only [step] at h
    split at h
    case h_1 => cases h
    case h_2 task rest queue =>
      split at h <;> cases h
      refine .other rfl (perm_iff_count.mpr fun x => ?_) rfl rfl
      simp only [pending, queue, count_append]
      rw [count_cons_eq x task rest]
      omega
  | start task =>
    obtain ⟨mem, ⟨⟩⟩ := ite_none_right_eq_some.mp h
    refine .other (flags_setState_same rfl) (perm_iff_count.mpr fun x => ?_) rfl rfl
    simp only [pending, setState, count_append, count_of_mem mem x]
    omega
  | notReady task =>
    obtain ⟨mem, ⟨⟩⟩ := ite_none_right_eq_some.mp h
    refine .wait rfl (perm_iff_count.mpr fun x => ?_) rfl rfl
    simp only [pending, count_append, count_of_mem mem.1 x]
    omega
  | result task failed =>
    obtain ⟨mem, ⟨⟩⟩ := ite_none_right_eq_some.mp h
    refine .result (flags_setState ..) (perm_iff_count.mpr fun x => ?_)
      (perm_append_singleton ..) rfl
    rw [count_cons_eq]
    simp only [pending, applyResult, setState, count_append, count_of_mem mem x]
    omega
  | finish task =>
    obtain ⟨mem, ⟨⟩⟩ := ite_none_right_eq_some.mp h
    exact .finish (flags_setState_same rfl) rfl (perm_cons_erase mem) rfl
  | returned tag =>
    simp only [step] at h
    split at h <;> cases h
    exact .other (flags_setState_same rfl) (Perm.refl _) rfl rfl
  | retry task =>
    obtain ⟨mem, ⟨⟩⟩ := ite_none_right_eq_some.mp h
    exact .retry mem (enqueueTask_cases ..)

end Effect

/-! ## Flags and tasks -/

section Strand

variable {cfg : Config Tag} {s s' : OutboundMonitoring Tag}
  {task : TestTask Tag}

/-- If a flag of the outbound is set, there is a task for it. -/
def Covered (s : OutboundMonitoring Tag) (tag : Tag) : Prop :=
  (s.flags tag).set = true → ∃ t ∈ s.tasks, t.outboundTag = tag

/-- Whenever a flag of an outbound is set, there is a task for it in a queue, being executed, or
waiting for its retry delay. -/
def Inv (s : OutboundMonitoring Tag) : Prop := ∀ tag, Covered s tag

theorem inv_iff_covered {tag : Tag} (others : ∀ other, other ≠ tag → Covered s other) :
    Inv s ↔ Covered s tag := by
  refine ⟨fun inv => inv tag, fun here other => ?_⟩
  by_cases same : other = tag
  · exact same ▸ here
  · exact others other same

theorem tasks_perm (pending : s'.pending.Perm s.pending) (applied : s'.applied.Perm s.applied) :
    s'.tasks.Perm s.tasks :=
  pending.append applied

theorem Covered.mono {tag : Tag} (covered : Covered s tag) (flags : s'.flags tag = s.flags tag)
    (keep : ∀ t ∈ s.tasks, t.outboundTag = tag → t ∈ s'.tasks) : Covered s' tag := by
  intro set
  rw [flags] at set
  obtain ⟨t, mem, same⟩ := covered set
  exact ⟨t, keep t mem same, same⟩

variable [DecidableEq Tag]

/-- `enqueueTask` does not send the task, no other task of the outbound is there, and a flag of it
is set afterwards: a task that is refused leaves the flags as they are, and one that does not find
room has set its own. -/
def Loses (cfg : Config Tag) (s : OutboundMonitoring Tag) (task : TestTask Tag) : Prop :=
  (if (s.flags task.outboundTag).refuses task then (s.flags task.outboundTag).set
    else s.full cfg task) = true ∧
  ∀ t ∈ s.tasks, t.outboundTag ≠ task.outboundTag

instance Loses.decidable : Decidable (Loses cfg s task) := inferInstanceAs (Decidable (_ ∧ _))

/-- The event takes the last task of an outbound away and leaves a flag of it set. -/
def Event.Strands (cfg : Config Tag) (s : OutboundMonitoring Tag) : Event Tag → Prop
  | .enqueue task => Loses cfg s task
  | .retry task => Loses cfg (s.without task) task.again
  | .finish task =>
      (s.flags task.outboundTag).set = true ∧
        ∀ t ∈ s.pending ++ s.applied.erase task, t.outboundTag ≠ task.outboundTag
  | .other | .result _ | .wait _ => False

/-- After `enqueueTask` every flag has a task exactly if the task was not the last one of an
outbound whose flag is then set. -/
theorem inv_enqueued_iff (others : ∀ tag, tag ≠ task.outboundTag → Covered s tag)
    (h : Enqueued cfg s task s') : Inv s' ↔ ¬ Loses cfg s task := by
  cases h with
  | refused refused flags pending applied waiting =>
    have perm := tasks_perm pending (.of_eq applied)
    rw [inv_iff_covered fun tag ne => (others tag ne).mono (congrFun flags tag)
      fun t mem _ => perm.mem_iff.mpr mem]
    simp [Covered, Loses, flags, refused, perm.mem_iff]
  | sent fresh room flags pending applied waiting =>
    have perm : s'.tasks.Perm (task :: s.tasks) := pending.append (.of_eq applied)
    refine iff_of_true ?_ (by simp [Loses, fresh, room])
    rw [inv_iff_covered fun tag ne => (others tag ne).mono
      (by rw [flags, update_of_ne ne])
      fun t mem _ => perm.mem_iff.mpr (mem_cons_of_mem _ mem)]
    exact fun _ => ⟨task, perm.mem_iff.mpr mem_cons_self, rfl⟩
  | dropped fresh full flags pending applied waiting =>
    have perm := tasks_perm pending (.of_eq applied)
    rw [inv_iff_covered fun tag ne => (others tag ne).mono
      (by rw [flags, update_of_ne ne]) fun t mem _ => perm.mem_iff.mpr mem]
    simp [Covered, Loses, flags, fresh, full, perm.mem_iff]

theorem mem_pending_without {t : TestTask Tag} (mem : t ∈ s.pending) (ne : t ≠ task) :
    t ∈ (s.without task).pending := by
  simp only [OutboundMonitoring.pending, OutboundMonitoring.without,
    mem_append, mem_erase_of_ne ne] at mem ⊢
  exact mem

theorem mem_tasks_without {t : TestTask Tag} (mem : t ∈ s.tasks) (ne : t ≠ task) :
    t ∈ (s.without task).tasks := by
  rcases mem_append.mp mem with pending | applied
  · exact mem_append_left _ (mem_pending_without pending ne)
  · exact mem_append_right _ applied

/-- A step leaves a flag without a task exactly if it strands an outbound. -/
theorem inv_step_iff {label : Label Tag} (inv : Inv s) (h : step cfg s label = some s') :
    Inv s' ↔ ¬ (event s label).Strands cfg s := by
  generalize event s label = e, step_effect h = effect
  cases effect with
  | other flags pending applied | wait flags pending applied =>
    have perm := tasks_perm pending (.of_eq applied)
    refine iff_of_true (fun tag => ?_) id
    exact (inv tag).mono (congrFun flags tag) fun t mem _ => perm.mem_iff.mpr mem
  | enqueue enqueued => exact inv_enqueued_iff (fun tag _ => inv tag) enqueued
  | @retry task mem enqueued =>
    refine inv_enqueued_iff (fun tag ne => (inv tag).mono rfl fun t mem same => ?_) enqueued
    refine mem_tasks_without mem fun isTask => ne ?_
    rw [← same, isTask]
    rfl
  | @result task flags pending applied waiting =>
    have perm : s'.tasks.Perm s.tasks := by
      calc s'.tasks
        _ |>.Perm (s'.pending ++ (task :: s.applied)) := (Perm.refl _).append applied
        _ |>.Perm (task :: s'.pending ++ s.applied) := perm_middle
        _ |>.Perm s.tasks := pending.symm.append_right _
    refine iff_of_true ?_ id
    rw [inv_iff_covered fun tag ne => (inv tag).mono
      (by rw [flags, update_of_ne ne]) fun t mem _ => perm.mem_iff.mpr mem]
    intro set
    rw [flags, update_self] at set
    cases set
  | @finish task flags pending applied waiting =>
    have left : (s.applied.erase task).Perm s'.applied := by
      simpa using applied.erase task
    have perm : s'.tasks.Perm (s.pending ++ s.applied.erase task) :=
      (Perm.of_eq pending).append left.symm
    rw [inv_iff_covered fun tag ne => (inv tag).mono (congrFun flags tag)
      fun t mem same => perm.mem_iff.mpr ?_]
    · simp only [Covered, Event.Strands, flags, perm.mem_iff]
      push Not
      rfl
    · have other : t ≠ task := fun isTask => ne (isTask ▸ same.symm)
      rw [mem_append, mem_erase_of_ne other]
      exact mem_append.mp mem

end Strand

/-! ## Runs in which no task is dropped -/

section Owned

variable {cfg : Config Tag} {s s' : OutboundMonitoring Tag}
  {task : TestTask Tag}

/-- A task without priority has set `queued`, and is still under way with the same number. -/
def QueuedOwned (s : OutboundMonitoring Tag) (tag : Tag) : Prop :=
  (s.flags tag).queued = true → ∃ t ∈ s.pending,
    t.outboundTag = tag ∧ t.priority = false ∧ t.cycleID = (s.flags tag).enqueuedCycle

/-- A task of priority has set `priorityQueued`, and is still under way. -/
def PriorityOwned (s : OutboundMonitoring Tag) (tag : Tag) : Prop :=
  (s.flags tag).priorityQueued = true →
    ∃ t ∈ s.pending, t.outboundTag = tag ∧ t.priority = true

/-- Every flag has a task under way that has set it, and no task of priority waits. -/
structure Owned (s : OutboundMonitoring Tag) : Prop where
  queued : ∀ tag, QueuedOwned s tag
  priority : ∀ tag, PriorityOwned s tag
  waiting : ∀ t ∈ s.waiting, t.priority = false

theorem Owned.inv (owned : Owned s) : Inv s := by
  intro tag set
  rcases Bool.or_eq_true_iff.mp set with queued | priority
  · obtain ⟨t, mem, same, -⟩ := owned.queued tag queued
    exact ⟨t, mem_append_left _ mem, same⟩
  · obtain ⟨t, mem, same, -⟩ := owned.priority tag priority
    exact ⟨t, mem_append_left _ mem, same⟩

theorem owned_init (invalid : Tag → Bool) : Owned (.init invalid) where
  queued _ := nofun
  priority _ := nofun
  waiting := nofun

theorem QueuedOwned.mono {tag : Tag} (owned : QueuedOwned s tag)
    (flags : s'.flags tag = s.flags tag)
    (keep : ∀ t ∈ s.pending, t.outboundTag = tag → t.priority = false →
      t.cycleID = (s.flags tag).enqueuedCycle → t ∈ s'.pending) : QueuedOwned s' tag := by
  intro queued
  rw [flags] at queued
  obtain ⟨t, mem, same, normal, number⟩ := owned queued
  exact ⟨t, keep t mem same normal number, same, normal, by rw [flags, number]⟩

theorem PriorityOwned.mono {tag : Tag} (owned : PriorityOwned s tag)
    (flags : (s'.flags tag).priorityQueued = (s.flags tag).priorityQueued)
    (keep : ∀ t ∈ s.pending, t.outboundTag = tag → t.priority = true → t ∈ s'.pending) :
    PriorityOwned s' tag := by
  intro priority
  rw [flags] at priority
  obtain ⟨t, mem, same, isPriority⟩ := owned priority
  exact ⟨t, keep t mem same isPriority, same, isPriority⟩

theorem Owned.keep (owned : Owned s) (flags : s'.flags = s.flags)
    (pending : s'.pending.Perm s.pending) (waiting : ∀ t ∈ s'.waiting, t.priority = false) :
    Owned s' where
  queued tag := (owned.queued tag).mono (congrFun flags tag)
    fun t mem _ _ _ => pending.mem_iff.mpr mem
  priority tag := (owned.priority tag).mono (by rw [flags]) fun t mem _ _ => pending.mem_iff.mpr mem
  waiting := waiting

/-- `enqueueTask` finds room for the task, if it does not refuse it. -/
def Fits (cfg : Config Tag) (s : OutboundMonitoring Tag) (task : TestTask Tag) : Prop :=
  (s.flags task.outboundTag).refuses task = true ∨ s.full cfg task = false

theorem Fits.not_dropped (fits : Fits cfg s task)
    (fresh : (s.flags task.outboundTag).refuses task = false) (full : s.full cfg task = true) :
    False := by
  rcases fits with refused | room
  · exact absurd (fresh.symm.trans refused) (by decide)
  · exact absurd (room.symm.trans full) (by decide)

variable [DecidableEq Tag]

/-- No task meets a full queue, and no task of priority comes to wait. -/
def Event.Calm (cfg : Config Tag) (s : OutboundMonitoring Tag) : Event Tag → Prop
  | .enqueue task => Fits cfg s task
  | .retry task => Fits cfg (s.without task) task.again
  | .wait task => task.priority = false
  | .other | .result _ | .finish _ => True

instance Event.Calm.decidable : (e : Event Tag) → Decidable (e.Calm cfg s)
  | .enqueue _ | .retry _ => inferInstanceAs (Decidable (_ ∨ _))
  | .wait task => inferInstanceAs (Decidable (task.priority = false))
  | .other | .result _ | .finish _ => isTrue trivial

/-- If a task that is refused has another one in its place, and room is found otherwise, the flags
have their tasks after `enqueueTask`. -/
theorem queuedOwned_enqueued (fits : Fits cfg s task) (h : Enqueued cfg s task s')
    {tag : Tag} (owned : (tag = task.outboundTag → task.priority = false →
      (s.flags tag).refuses task = true) → QueuedOwned s tag) : QueuedOwned s' tag := by
  cases h with
  | refused refused flags pending applied waiting =>
    exact (owned fun same _ => same ▸ refused).mono (congrFun flags tag)
      fun t mem _ _ _ => pending.mem_iff.mpr mem
  | sent fresh room flags pending applied waiting =>
    by_cases same : tag = task.outboundTag
    · subst same
      cases isPriority : task.priority with
      | true =>
        have kept := owned fun _ normal => absurd (isPriority.symm.trans normal) (by decide)
        intro queued
        have marked : s'.flags task.outboundTag =
            { s.flags task.outboundTag with priorityQueued := true } := by
          simp [flags, Flags.mark, isPriority]
        rw [marked] at queued ⊢
        obtain ⟨t, mem, rest⟩ := kept queued
        exact ⟨t, pending.mem_iff.mpr (mem_cons_of_mem _ mem), rest⟩
      | false =>
        refine fun _ => ⟨task, pending.mem_iff.mpr mem_cons_self, rfl, isPriority, ?_⟩
        simp [flags, Flags.mark, isPriority]
    · exact (owned fun here _ => absurd here same).mono (by rw [flags, update_of_ne same])
        fun t mem _ _ _ => pending.mem_iff.mpr (mem_cons_of_mem _ mem)
  | dropped fresh full flags pending applied waiting => exact (fits.not_dropped fresh full).elim

theorem priorityOwned_enqueued (fits : Fits cfg s task) (h : Enqueued cfg s task s')
    {tag : Tag} (owned : PriorityOwned s tag) : PriorityOwned s' tag := by
  cases h with
  | refused refused flags pending applied waiting =>
    exact owned.mono (by rw [flags]) fun t mem _ _ => pending.mem_iff.mpr mem
  | sent fresh room flags pending applied waiting =>
    have keep : ∀ t ∈ s.pending, t ∈ s'.pending := fun t mem =>
      pending.mem_iff.mpr (mem_cons_of_mem _ mem)
    by_cases same : tag = task.outboundTag
    · subst same
      cases isPriority : task.priority with
      | true => exact fun _ => ⟨task, pending.mem_iff.mpr mem_cons_self, rfl, isPriority⟩
      | false =>
        exact owned.mono (by simp [flags, Flags.mark, isPriority]) fun t mem _ _ => keep t mem
    · exact owned.mono (by rw [flags, update_of_ne same]) fun t mem _ _ => keep t mem
  | dropped fresh full flags pending applied waiting => exact (fits.not_dropped fresh full).elim

theorem Enqueued.waiting_eq (h : Enqueued cfg s task s') : s'.waiting = s.waiting := by
  cases h <;> assumption

/-- A waiting task without priority is sent again with the next number. If that is refused, another
task has set the flag. -/
theorem Owned.retry (owned : Owned s) (mem : task ∈ s.waiting)
    (fits : Fits cfg (s.without task) task.again)
    (h : Enqueued cfg (s.without task) task.again s') : Owned s' where
  queued tag := by
    have normal := owned.waiting task mem
    refine queuedOwned_enqueued fits h fun refused => ?_
    refine (owned.queued tag).mono rfl fun t mem same _ number => ?_
    refine mem_pending_without mem fun isTask => ?_
    subst isTask
    have taken : (s.flags tag).refuses t.again = true := refused same.symm normal
    have next : ((s.flags tag).enqueuedCycle == t.cycleID + 1) = true := by
      simpa [Flags.refuses, TestTask.again, normal] using taken
    have next := beq_iff_eq.mp next
    omega
  priority tag := by
    refine priorityOwned_enqueued fits h ?_
    refine (owned.priority tag).mono rfl fun t mem' _ isPriority => ?_
    refine mem_pending_without mem' fun isTask => ?_
    exact absurd ((owned.waiting task mem).symm.trans (isTask ▸ isPriority)) (by decide)
  waiting t mem' := by
    rw [h.waiting_eq] at mem'
    exact owned.waiting t (mem_of_mem_erase mem')

theorem Owned.step {label : Label Tag} (owned : Owned s) (calm : (event s label).Calm cfg s)
    (h : step cfg s label = some s') : Owned s' := by
  revert calm
  generalize event s label = e, step_effect h = effect
  intro calm
  cases effect with
  | other flags pending applied waiting =>
    exact owned.keep flags pending (waiting ▸ owned.waiting)
  | enqueue enqueued =>
    exact {
      queued := fun tag => queuedOwned_enqueued calm enqueued fun _ => owned.queued tag
      priority := fun tag => priorityOwned_enqueued calm enqueued (owned.priority tag)
      waiting := fun t mem => owned.waiting t (enqueued.waiting_eq ▸ mem) }
  | retry mem enqueued => exact owned.retry mem calm enqueued
  | @result task flags pending applied waiting =>
    have keep {tag : Tag} (ne : tag ≠ task.outboundTag) :
        ∀ t ∈ s.pending, t.outboundTag = tag → t ∈ s'.pending := by
      intro t mem same
      refine (mem_cons.mp (pending.mem_iff.mp mem)).resolve_left fun isTask => ne ?_
      rw [← same, isTask]
    have flagged (tag : Tag) : QueuedOwned s' tag ∧ PriorityOwned s' tag := by
      by_cases same : tag = task.outboundTag
      · simp [QueuedOwned, PriorityOwned, flags, same, Flags.clear]
      · have others : s'.flags tag = s.flags tag := by rw [flags, update_of_ne same]
        exact ⟨(owned.queued tag).mono others fun t mem here _ _ => keep same t mem here,
          (owned.priority tag).mono (by rw [others]) fun t mem here _ => keep same t mem here⟩
    exact ⟨fun tag => (flagged tag).1, fun tag => (flagged tag).2, waiting ▸ owned.waiting⟩
  | finish flags pending applied waiting =>
    exact owned.keep flags (.of_eq pending) (waiting ▸ owned.waiting)
  | wait flags pending applied waiting =>
    refine owned.keep flags pending fun t mem => ?_
    rw [waiting, mem_append, mem_singleton] at mem
    rcases mem with old | rfl
    · exact owned.waiting t old
    · exact calm

end Owned

/-! ## Runs -/

/-- In every state of a run every flag has a task if and only if no step strands an outbound. None
does as long as no queue is full and no task of priority meets an outbound that is not ready. -/
theorem flags_never_strand_iff [DecidableEq Tag] (cfg : Config Tag) (invalid : Tag → Bool)
    {labels : List (Label Tag)} {s : OutboundMonitoring Tag}
    (run : steps (step cfg) (.init invalid) labels = some s) :
    (Always (step cfg) Inv (.init invalid) labels ↔
      Through (step cfg) (fun s label => ¬ (event s label).Strands cfg s) (.init invalid) labels) ∧
    (Through (step cfg) (fun s label => (event s label).Calm cfg s) (.init invalid) labels →
      Always (step cfg) Inv (.init invalid) labels) := by
  constructor
  · exact always_iff_through Inv (fun s label s' inv taken => inv_step_iff inv taken)
      (owned_init invalid).inv run
  · intro calm
    have owned := always_of_through Owned
      (fun s label s' owned calm taken => owned.step calm taken) (owned_init invalid) calm
    exact owned.imp fun _ => Owned.inv

/-- The defaults: ten workers, and the sizes of the two channels. -/
def defaultConfig : Config String := ⟨10, 1000, 10000, fun _ => false⟩

/-- `TestNow` for an outbound that is not ready. -/
def testNotReady : List (Label String) :=
  [.testNow "proxy" true, .dequeuePriority, .start ⟨"proxy", 0, true⟩,
    .notReady ⟨"proxy", 0, true⟩, .returned "proxy", .retry ⟨"proxy", 0, true⟩]

/-- A test in a cycle of an outbound that is not ready at first. -/
def cycleNotReady : List (Label String) :=
  [.startCycle, .collect "proxy" false, .cycleTest "proxy", .dequeueNormal,
    .start ⟨"proxy", 1, false⟩, .notReady ⟨"proxy", 1, false⟩, .returned "proxy",
    .retry ⟨"proxy", 1, false⟩, .dequeueNormal, .start ⟨"proxy", 2, false⟩,
    .result ⟨"proxy", 2, false⟩ false, .finish ⟨"proxy", 2, false⟩]

/-- The task of a cycle is sent again, and every flag has a task. -/
theorem flags_never_strand_cycle :
    ∃ s, steps (step defaultConfig) (.init fun _ => true) cycleNotReady = some s ∧
      Always (step defaultConfig) Inv (.init fun _ => true) cycleNotReady :=
  ⟨_, rfl, (flags_never_strand_iff defaultConfig (fun _ => true) rfl).2 (by decide)⟩

/-- The task of `TestNow` waits for its delay with `priorityQueued` set, is taken for one that is
there already when it is sent again, and is gone: the flag is set and there is no task. -/
theorem flags_strand :
    ∃ s, steps (step defaultConfig) (.init fun _ => true) testNotReady = some s ∧
      (s.flags "proxy").priorityQueued = true ∧ s.tasks = [] ∧ ¬ Inv s := by
  refine ⟨_, rfl, rfl, rfl, fun inv => ?_⟩
  obtain ⟨t, mem, -⟩ := inv "proxy" rfl
  cases mem

end SingBox.Monitoring
