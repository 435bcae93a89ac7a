import SingBox.Lib.System

/-!
# The records of outbound monitoring and the history storage

`HistoryStorage` of `common/urltest/urltest.go` keeps the pointer it is given first for a tag, and
later stores write into that record. Outbound monitoring gives it the address of its own record of
an outbound, other components give it new ones.

* `StoreURLTestHistory_kept` — a store writes into a record of the monitoring only if the storage
  has it;
* `records_own` — along every run of calls, the monitoring keeps the last result of every outbound,
  if no other component stores for a tag that the monitoring has stored first.
-/

namespace SingBox.Monitoring.History

open SingBox.Lib Function

structure URLTestHistory (Info : Type) where
  time : Int
  delay : UInt16
  ipInfo : Option Info

/-- A pointer: to the record in the state of an outbound, or to one made by another component. -/
inductive Ref (Tag : Type) where
  | own (tag : Tag)
  | made (n : Nat)
  deriving DecidableEq

/-- What `applyResult` is called with. -/
structure TestOutcome (Info : Type) where
  failed : Bool
  history : URLTestHistory Info

/-- The storage, all records, and which outbounds of the monitoring are invalid. -/
structure State (Tag Info : Type) where
  records : Ref Tag → URLTestHistory Info
  delayHistory : Tag → Option (Ref Tag)
  invalid : Tag → Bool
  /-- How many records other components have made. -/
  count : Nat

inductive Call (Tag Info : Type) where
  | applyResult (tag : Tag) (outcome : TestOutcome Info)
  | storeURLTestHistory (tag : Tag) (history : URLTestHistory Info)
  | deleteURLTestHistory (tag : Tag) (now : Int)

variable {Tag Info : Type} [DecidableEq Tag] (s : State Tag Info)

/-- Time and delay of a record are replaced, and the address information if there is a new one. -/
def State.write (ref : Ref Tag) (new : URLTestHistory Info) : State Tag Info :=
  let written := ⟨new.time, new.delay, new.ipInfo.or (s.records ref).ipInfo⟩
  { s with records := update s.records ref written }

def StoreURLTestHistory (tag : Tag) (history : Ref Tag) : State Tag Info :=
  match s.delayHistory tag with
  | some old => s.write old (s.records history)
  | none => { s with delayHistory := update s.delayHistory tag (some history) }

/-- A record is made by another component. -/
def State.make (history : URLTestHistory Info) : State Tag Info :=
  { s with records := update s.records (.made s.count) history, count := s.count + 1 }

def applyResult (tag : Tag) (outcome : TestOutcome Info) : State Tag Info :=
  let s := { s with invalid := update s.invalid tag outcome.failed }
  StoreURLTestHistory (s.write (.own tag) outcome.history) tag (.own tag)

def step : Call Tag Info → Option (State Tag Info)
  | .applyResult tag outcome => some (applyResult s tag outcome)
  | .storeURLTestHistory tag history =>
      some (StoreURLTestHistory (s.make history) tag (.made s.count))
  | .deleteURLTestHistory tag now =>
      some (StoreURLTestHistory (s.make ⟨now, 65535, none⟩) tag (.made s.count))

/-- What `collectCycleTargets` asks of an outbound that is not being tested or queued. -/
def State.retests (now mainInterval : Int) (tag : Tag) : Bool :=
  s.invalid tag || decide (now - (s.records (.own tag)).time ≥ mainInterval)

/-- What the monitoring keeps of a result: its time and its delay, and if it failed. -/
def State.kept (tag : Tag) : Int × UInt16 × Bool :=
  ((s.records (.own tag)).time, (s.records (.own tag)).delay, s.invalid tag)

/-- The last result applied for every outbound, or what was there before. -/
def lastResults (kept : Tag → Int × UInt16 × Bool) (calls : List (Call Tag Info)) :
    Tag → Int × UInt16 × Bool :=
  calls.foldl (fun kept call => match call with
    | .applyResult tag ⟨failed, history⟩ => update kept tag (history.time, history.delay, failed)
    | _ => kept) kept

/-- No other component stores for a tag that the monitoring has stored first. -/
def Apart : Call Tag Info → Prop
  | .applyResult .. => True
  | .storeURLTestHistory tag _ | .deleteURLTestHistory tag _ =>
      s.delayHistory tag ≠ some (.own tag)

instance (s : State Tag Info) (call : Call Tag Info) : Decidable (Apart s call) := by
  cases call <;> unfold Apart <;> infer_instance

/-- The storage has the records of the monitoring under their own tags only. -/
def State.Own : Prop :=
  ∀ tag other, s.delayHistory tag = some (.own other) → other = tag

variable {s s' : State Tag Info} {tag : Tag}

theorem StoreURLTestHistory_kept (own : s.Own) (history : Ref Tag)
    (shared : s.delayHistory tag = some (.own tag) → history = .own tag)
    (fits : ∀ other, history = .own other → other = tag) :
    (StoreURLTestHistory s tag history).Own ∧ (StoreURLTestHistory s tag history).kept = s.kept := by
  unfold StoreURLTestHistory
  split
  · rename_i old there
    refine ⟨own, funext fun other => ?_⟩
    cases old with
    | made n => simp [State.kept, State.write]
    | own o =>
      -- the record is written into itself
      obtain rfl := own tag o there
      rw [shared there]
      by_cases same : other = o <;> simp [State.kept, State.write, same]
  · refine ⟨fun t other h => ?_, rfl⟩
    rcases of_update h with ⟨rfl, isNew⟩ | ⟨-, old⟩
    · exact fits other (Option.some.inj isNew)
    · exact own t other old

theorem step_kept {call : Call Tag Info} (own : s.Own) (apart : Apart s call)
    (taken : step s call = some s') : s'.Own ∧ s'.kept = lastResults s.kept [call] := by
  cases call with
  | applyResult tag outcome =>
    cases taken
    obtain ⟨own', same⟩ := StoreURLTestHistory_kept (s := State.write
      { s with invalid := update s.invalid tag outcome.failed } (.own tag) outcome.history) own
      (.own tag) (fun _ => rfl) fun other h => (Ref.own.inj h).symm
    refine ⟨own', same.trans (funext fun other => ?_)⟩
    by_cases here : other = tag <;> simp [here, State.kept, State.write, lastResults]
  | storeURLTestHistory | deleteURLTestHistory =>
    cases taken
    obtain ⟨own', same⟩ := StoreURLTestHistory_kept (s := s.make _) own (.made s.count)
      (fun h => absurd h apart) nofun
    exact ⟨own', same.trans (funext fun other => by simp [State.kept, State.make, lastResults])⟩

/-- Along every run in which no other component stores for a tag that the monitoring has stored
first, the monitoring keeps the last result of every outbound, and tests the outbound again when
that result has failed or is old. -/
theorem records_own (s s' : State Tag Info) (calls : List (Call Tag Info))
    (own : s.Own) (apart : Through step Apart s calls) (run : steps step s calls = some s') :
    s'.kept = lastResults s.kept calls ∧ ∀ now mainInterval tag,
      s'.retests now mainInterval tag = ((lastResults s.kept calls tag).2.2 ||
        decide (now - (lastResults s.kept calls tag).1 ≥ mainInterval)) := by
  suffices kept : s'.kept = lastResults s.kept calls from ⟨kept, fun _ _ tag => kept ▸ rfl⟩
  induction calls generalizing s with
  | nil =>
    cases run
    rfl
  | cons call rest ih =>
    obtain ⟨middle, now, later⟩ := Option.bind_eq_some_iff.mp run
    obtain ⟨own', kept⟩ := step_kept own apart.1 now
    rw [ih middle own' (apart.2 middle now) later, kept]
    rfl

/-- Nothing is stored, and nothing has been tested. -/
def fresh : State String Unit where
  records _ := ⟨0, 0, none⟩
  delayHistory _ := none
  invalid _ := true
  count := 0

/-- Another component stores first: its later failure does not touch the record. -/
theorem records_own_apart :
    let calls : List (Call String Unit) := [.storeURLTestHistory "a" ⟨1, 50, none⟩,
      .applyResult "a" ⟨false, 2, 100, none⟩, .deleteURLTestHistory "a" 3]
    ∃ s', steps step fresh calls = some s' ∧ s'.kept "a" = (2, 100, false) := by
  intro calls
  refine ⟨_, rfl, ?_⟩
  exact congrFun (records_own fresh _ calls nofun (by decide) rfl).1 "a"

/-- The monitoring stores first: another component's failure goes into its record, and the outbound
is not tested again though its result is an hour old. -/
theorem records_own_shared :
    let calls : List (Call String Unit) :=
      [.applyResult "a" ⟨false, 0, 100, none⟩, .deleteURLTestHistory "a" 3600]
    ∃ s', steps step fresh calls = some s' ∧ s'.kept "a" = (3600, 65535, false) ∧
      s'.retests 3600 600 "a" = false :=
  ⟨_, rfl, rfl, rfl⟩

end SingBox.Monitoring.History
