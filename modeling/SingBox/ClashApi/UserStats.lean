import SingBox.Lib.System
import SingBox.Lib.WriteBack
import Mathlib.Algebra.BigOperators.Group.List.Basic

/-!
# Traffic statistics per user

`UserStatsManager` of `experimental/clashapi/userstats.go` counts bytes and connections per
user and per user and resource in memory. `flush` moves the counters to two tables of a
database in one transaction: it sets a counter to zero when it reads it, then writes the row,
and commits at the end. An error of a row or of the commit is only logged.

The steps are the atomic operations on the counters and the calls of the database. A push adds
to the counters of the user and then to those of the resource, so a flush may come in between;
flushes themselves do not overlap, since one goroutine makes them and `Close` waits for it.
Counters have 64 bits; how the database adds to a column is a parameter that is exact as long as
the sum fits.

* `usersBalance_step`, `resourcesBalance_step` — a push adds its bytes to the balance of its
  counters and every other step keeps all balances, if it loses nothing;
* `bytes_conserved` — with no flush in progress the bytes in the tables and in memory are those
  pushed, if every row with bytes is written and committed and no sum is too large.
-/

namespace SingBox.ClashApi.UserStats

open SingBox.Lib List Option
open SingBox.Lib.WriteBack

/-! ## The counters -/

/-- The fields of `userAccumulator`. -/
inductive Counter where
  | upload
  | download
  | connCount
  deriving DecidableEq, Repr

/-- The order in which `flush` reads the counters of an accumulator. -/
def Counter.order : List Counter := [.upload, .download, .connCount]

theorem Counter.mem_order (c : Counter) : c ∈ order := by
  cases c <;> decide

theorem Counter.nodup_order : order.Nodup := by decide

/-- A call of `PushUploaded`, `PushDownloaded` or `ConnectionOpened`. -/
inductive Push where
  | uploaded (user resource : String) (n : Int64)
  | downloaded (user resource : String) (n : Int64)
  | connectionOpened (user resource : String)
  deriving DecidableEq

namespace Push

def user : Push → String
  | .uploaded user _ _ | .downloaded user _ _ | .connectionOpened user _ => user

def resource : Push → String
  | .uploaded _ resource _ | .downloaded _ resource _ | .connectionOpened _ resource => resource

def counter : Push → Counter
  | .uploaded .. => .upload
  | .downloaded .. => .download
  | .connectionOpened .. => .connCount

def amount : Push → Int64
  | .uploaded _ _ n | .downloaded _ _ n => n
  | .connectionOpened .. => 1

end Push

/-! ## The keys of the resource accumulators -/

def nul : Char := Char.ofNat 0

def resourceKey (user resource : String) : String :=
  user ++ String.ofList [nul] ++ resource

def parseResourceKey (key : String) : String × String :=
  match key.toList.findIdx? (· == nul) with
  | none => (key, "")
  | some i => (String.ofList (key.toList.take i), String.ofList (key.toList.drop (i + 1)))

variable (user resource : String)

theorem toList_resourceKey :
    (resourceKey user resource).toList = user.toList ++ nul :: resource.toList := by
  simp [resourceKey]

variable {user : String} {label : Label}

/-- A user without a NUL is what is before the first NUL of the key. -/
theorem parseResourceKey_resourceKey (plain : nul ∉ user.toList) (resource : String) :
    parseResourceKey (resourceKey user resource) = (user, resource) := by
  have first : (resourceKey user resource).toList.findIdx? (· == nul) =
      some user.toList.length := by
    rw [toList_resourceKey]
    have notIn : user.toList.findIdx? (· == nul) = none := by
      rw [findIdx?_eq_none_iff]
      intro c mem
      exact beq_eq_false_iff_ne.mpr fun same => plain (same ▸ mem)
    simp [notIn, findIdx?_cons]
  rw [parseResourceKey, first]
  simp [toList_resourceKey]

/-- A key with a NUL is the key of the two parts it is taken apart into. -/
theorem resourceKey_parseResourceKey {key : String} (mem : nul ∈ key.toList) :
    resourceKey (parseResourceKey key).1 (parseResourceKey key).2 = key := by
  cases found : key.toList.findIdx? (· == nul) with
  | none =>
    rw [findIdx?_eq_none_iff] at found
    simpa using found nul mem
  | some i =>
    obtain ⟨bound, here, -⟩ := findIdx?_eq_some_iff_getElem.mp found
    have split : key.toList.take i ++ nul :: key.toList.drop (i + 1) = key.toList := by
      rw [← (beq_iff_eq.mp here : key.toList[i] = nul), cons_getElem_drop_succ, take_append_drop]
    rw [← String.toList_inj, toList_resourceKey, parseResourceKey, found]
    simpa using split

theorem nul_notMem_parseResourceKey (key : String) : nul ∉ (parseResourceKey key).1.toList := by
  intro mem
  rw [parseResourceKey] at mem
  split at mem
  case h_1 absent =>
    rw [findIdx?_eq_none_iff] at absent
    simpa using absent nul mem
  case h_2 i found =>
    obtain ⟨bound, -, before⟩ := findIdx?_eq_some_iff_getElem.mp found
    rw [String.toList_ofList] at mem
    obtain ⟨j, small, here⟩ := mem_iff_getElem.mp mem
    rw [length_take] at small
    have earlier : j < i := by omega
    rw [getElem_take] at here
    exact before j earlier (beq_iff_eq.mpr here)

/-- Keys of users without a NUL are different for different pairs. -/
theorem resourceKey_inj {user' resource resource' : String} (plain : nul ∉ user.toList)
    (plain' : nul ∉ user'.toList) (same : resourceKey user resource = resourceKey user' resource') :
    user = user' ∧ resource = resource' := by
  have parsed := congrArg parseResourceKey same
  rw [parseResourceKey_resourceKey plain, parseResourceKey_resourceKey plain'] at parsed
  exact Prod.mk.injEq .. ▸ parsed

/-! ## The manager -/

inductive Phase where
  /-- `Begin` succeeded and the statement for `user_stats_daily` is to be prepared. -/
  | prepareUsers
  /-- In the `Range` over `accumulators`. -/
  | users
  /-- The statement for `user_resources_daily` is to be prepared. -/
  | prepareResources
  /-- In the `Range` over `resourceAccumulators`. -/
  | resources
  /-- `tx.Commit()` is to be called. -/
  | commit
  deriving DecidableEq, Repr

structure Flush where
  today : String
  phase : Phase
  /-- The keys that were there when the `Range` began. -/
  present : List String
  visited : List String

/-- The key of a row of `user_stats_daily`: user and date. -/
abbrev UserKey := String × String

/-- The key of a row of `user_resources_daily`: user, date and resource. -/
abbrev ResourceKey := String × String × String

/-- The rows of the two tables that belong to an accumulator. -/
def UserKey.owner (key : UserKey) : String := key.1

def ResourceKey.owner (key : ResourceKey) : String := resourceKey key.1 key.2.2

/-- The user of a row of `user_resources_daily` is without a NUL. -/
def ResourceKey.Plain (key : ResourceKey) : Prop := nul ∉ key.1.toList

/-- The two tables as the manager finds them. `flush` never writes a user with a NUL to the
second one. -/
structure Database where
  userStatsDaily : List (Row UserKey Counter)
  userResourcesDaily : List (Row ResourceKey Counter)
  plain : ∀ row ∈ userResourcesDaily, row.key.Plain

structure UserStatsManager where
  /-- `accumulators` and `user_stats_daily`. -/
  users : Ledger String UserKey Counter
  /-- `resourceAccumulators` and `user_resources_daily`. -/
  resources : Ledger String ResourceKey Counter
  /-- The pushes that have added to the user's counter and not to the resource's yet. -/
  pushing : List Push
  flush : Option Flush

/-- The manager on a database that holds rows already. -/
def newUserStatsManager (db : Database) : UserStatsManager :=
  ⟨.init db.userStatsDaily, .init db.userResourcesDaily, [], none⟩

inductive Label where
  /-- A push adds to the counter of the user. -/
  | push (p : Push)
  | pushResource (p : Push)
  /-- `flush` is called and begins a transaction. -/
  | begin (today : String) (ok : Bool)
  | prepare (ok : Bool)
  | visit (key : String)
  | swap
  | exec (ok : Bool)
  | rangeEnd
  | commit (ok : Bool)
  deriving DecidableEq

/-- The row of `user_stats_daily` that `stmt.Exec` writes. -/
def userRow (today user : String) : UserKey := (user, today)

/-- The row of `user_resources_daily` that `resStmt.Exec` writes. -/
def resourceRow (today compositeKey : String) : ResourceKey :=
  let (user, resource) := parseResourceKey compositeKey
  (user, today, resource)

theorem plain_resourceRow (today key : String) : (resourceRow today key).Plain :=
  nul_notMem_parseResourceKey key

variable (sum : Sum) (s : UserStatsManager)

def pushStep (p : Push) : UserStatsManager :=
  { s with
    users := s.users.add p.user p.counter p.amount
    pushing := if p.resource = "" then s.pushing else s.pushing ++ [p] }

def pushResourceStep (p : Push) : UserStatsManager :=
  { s with
    resources := s.resources.add (resourceKey p.user p.resource) p.counter p.amount
    pushing := s.pushing.erase p }

/-- A step of `flush`, from where it is. -/
def flushStep (f : Flush) : Label → Option UserStatsManager
  | .prepare ok =>
      match f.phase with
      | .prepareUsers =>
          if ok then
            some { s with flush := some { f with
              phase := .users, present := s.users.keys, visited := [] } }
          -- `tx.Rollback()`: nothing has been written
          else some { s with flush := none }
      | .prepareResources =>
          if ok then
            some { s with flush := some { f with
              phase := .resources, present := s.resources.keys, visited := [] } }
          else some { s with flush := some { f with phase := .commit } }
      | _ => none
  | .visit key =>
      if key ∈ f.visited then none
      else
        match f.phase with
        | .users => (s.users.visit Counter.order key).map fun users =>
            { s with users, flush := some { f with visited := key :: f.visited } }
        | .resources => (s.resources.visit Counter.order key).map fun resources =>
            { s with resources, flush := some { f with visited := key :: f.visited } }
        | _ => none
  | .swap =>
      match f.phase with
      | .users => s.users.swap.map fun users => { s with users }
      | .resources => s.resources.swap.map fun resources => { s with resources }
      | _ => none
  | .exec ok =>
      match f.phase with
      | .users => (s.users.exec Counter.order (userRow f.today) ok).map fun users =>
          { s with users }
      | .resources =>
          (s.resources.exec Counter.order (resourceRow f.today) ok).map fun resources =>
            { s with resources }
      | _ => none
  | .rangeEnd =>
      if ∀ key ∈ f.present, key ∈ f.visited then
        match f.phase with
        | .users =>
            if s.users.hand.isNone then
              some { s with flush := some { f with phase := .prepareResources } }
            else none
        | .resources =>
            if s.resources.hand.isNone then
              some { s with flush := some { f with phase := .commit } }
            else none
        | _ => none
      else none
  | .commit ok =>
      if f.phase = .commit then
        some { s with
          users := s.users.commit sum ok, resources := s.resources.commit sum ok, flush := none }
      else none
  | _ => none

def step : Label → Option UserStatsManager
  | .push p => some (pushStep s p)
  | .pushResource p => if p ∈ s.pushing then some (pushResourceStep s p) else none
  | .begin today ok =>
      if s.flush.isSome then none
      else if ok then some { s with flush := some ⟨today, .prepareUsers, [], []⟩ }
      else some s
  | label => s.flush.bind fun f => flushStep sum s f label

/-! ## What a step of `flush` does -/

/-- The result of `Exec`, where the step is one. -/
def Label.wrote : Label → Bool
  | .exec ok => ok
  | _ => true

/-- A flush moves counters of one of the two ledgers, or only goes on. -/
inductive Moves (s : UserStatsManager) (f : Flush) : Label → UserStatsManager → Prop
  | users {label : Label} {users} {f' : Flush} (phase : f.phase = .users) (same : f'.phase = .users)
      (move : s.users.Move Counter.order (userRow f.today) label.wrote users) :
      Moves s f label { s with users, flush := some f' }
  | resources {label : Label} {resources} {f' : Flush} (phase : f.phase = .resources)
      (same : f'.phase = .resources)
      (move : s.resources.Move Counter.order (resourceRow f.today) label.wrote resources) :
      Moves s f label { s with resources, flush := some f' }
  | rolledBack {label : Label} (phase : f.phase = .prepareUsers) :
      Moves s f label { s with flush := none }
  | goesOn {label : Label} {f' : Flush} (userHand : f.phase = .users → s.users.hand = none)
      (resourceHand : f.phase = .resources → s.resources.hand = none)
      (later : f'.phase ≠ .prepareUsers) : Moves s f label { s with flush := some f' }
  | commits {ok : Bool} (phase : f.phase = .commit) :
      Moves s f (.commit ok) { s with
        users := s.users.commit sum ok, resources := s.resources.commit sum ok, flush := none }

variable {sum}

/-- The hand of a ledger is empty outside its `Range`, and the transaction is empty before the
first one. -/
structure Inv (s : UserStatsManager) : Prop where
  userHand : (∃ f, s.flush = some f ∧ f.phase = .users) ∨ s.users.hand = none
  resourceHand : (∃ f, s.flush = some f ∧ f.phase = .resources) ∨ s.resources.hand = none
  tx : (∃ f, s.flush = some f ∧ f.phase ≠ .prepareUsers) ∨
    s.users.tx = [] ∧ s.resources.tx = []
  userTidy : s.users.Tidy
  resourceTidy : s.resources.Tidy
  keys : ∀ key ∈ s.resources.keys, nul ∈ key.toList
  rows : s.resources.Rows ResourceKey.Plain

/-- The flush itself goes on as it is. -/
theorem ledger_moves {s s' : UserStatsManager} {f : Flush} (flushing : s.flush = some f)
    {users resources} (h : (match f.phase with
      | .users => users.map fun users => { s with users }
      | .resources => resources.map fun resources => { s with resources }
      | _ => none) = some s')
    (moveUsers : ∀ moved, users = some moved →
      s.users.Move Counter.order (userRow f.today) label.wrote moved)
    (moveResources : ∀ moved, resources = some moved →
      s.resources.Move Counter.order (resourceRow f.today) label.wrote moved) :
    Moves sum s f label s' := by
  split at h
  case h_1 phase =>
    obtain ⟨users, moved, rfl⟩ := map_eq_some_iff.mp h
    have moves : Moves sum s f label { s with users, flush := some f } :=
      .users phase phase (moveUsers _ moved)
    rwa [← flushing] at moves
  case h_2 phase =>
    obtain ⟨resources, moved, rfl⟩ := map_eq_some_iff.mp h
    have moves : Moves sum s f label { s with resources, flush := some f } :=
      .resources phase phase (moveResources _ moved)
    rwa [← flushing] at moves
  case h_3 => cases h

theorem flushStep_moves {s s' : UserStatsManager} {f : Flush} (flushing : s.flush = some f)
    (h : flushStep sum s f label = some s') : Moves sum s f label s' := by
  cases label with
  | prepare ok =>
    simp only [flushStep] at h
    split at h
    case h_1 phase =>
      split at h <;> cases h
      · exact .goesOn (by simp [phase]) (by simp [phase]) (by simp)
      · exact .rolledBack phase
    case h_2 phase =>
      split at h <;> cases h <;> exact .goesOn (by simp [phase]) (by simp [phase]) (by simp)
    case h_3 => cases h
  | visit key =>
    simp only [flushStep] at h
    split at h
    case isTrue => cases h
    case isFalse =>
      split at h
      case h_1 phase =>
        obtain ⟨users, moved, rfl⟩ := map_eq_some_iff.mp h
        exact .users phase phase (.visit moved)
      case h_2 phase =>
        obtain ⟨resources, moved, rfl⟩ := map_eq_some_iff.mp h
        exact .resources phase phase (.visit moved)
      case h_3 => cases h
  | swap => exact ledger_moves flushing h (fun _ => .swap) fun _ => .swap
  | exec ok => exact ledger_moves flushing h (fun _ => .exec) fun _ => .exec
  | rangeEnd =>
    simp only [flushStep] at h
    split at h
    case isFalse => cases h
    case isTrue =>
      split at h
      case h_1 phase =>
        split at h <;> cases h
        case isTrue free =>
          exact .goesOn (fun _ => isNone_iff_eq_none.mp free) (by simp [phase]) (by simp)
      case h_2 phase =>
        split at h <;> cases h
        case isTrue free =>
          exact .goesOn (by simp [phase]) (fun _ => isNone_iff_eq_none.mp free) (by simp)
      case h_3 => cases h
  | commit ok =>
    simp only [flushStep] at h
    split at h
    case isTrue phase =>
      cases h
      exact .commits phase
    case isFalse => cases h
  | push | pushResource | begin => cases h

variable (sum) in
/-- What a step does: a push adds, `Begin` may begin a flush, and a flush goes on. -/
inductive Steps (s : UserStatsManager) : Label → UserStatsManager → Prop
  | push (p : Push) : Steps s (.push p) (pushStep s p)
  | pushResource {p : Push} (mem : p ∈ s.pushing) : Steps s (.pushResource p) (pushResourceStep s p)
  | begun {today : String} {ok : Bool} (free : s.flush = none) :
      Steps s (.begin today ok) { s with flush := some ⟨today, .prepareUsers, [], []⟩ }
  | notBegun {today : String} {ok : Bool} : Steps s (.begin today ok) s
  | flush {f : Flush} {label : Label} {s' : UserStatsManager} (flushing : s.flush = some f)
      (quiet : ∀ p, label ≠ .push p) (moves : Moves sum s f label s') : Steps s label s'

theorem step_steps {s s' : UserStatsManager} (h : step sum s label = some s') :
    Steps sum s label s' := by
  cases label with
  | push p =>
    cases h
    exact .push p
  | pushResource p =>
    simp only [step] at h
    split at h
    case isTrue mem =>
      cases h
      exact .pushResource mem
    case isFalse => cases h
  | begin today ok =>
    obtain ⟨busy, h⟩ := ite_none_left_eq_some.mp h
    split at h <;> cases h
    · exact .begun (by simpa using busy)
    · exact .notBegun
  | prepare | visit | swap | exec | rangeEnd | commit =>
    obtain ⟨f, flushing, moved⟩ := bind_eq_some_iff.mp h
    exact .flush flushing nofun (flushStep_moves flushing moved)

/-! ## The invariant -/

theorem inv_new (db : Database) : Inv (newUserStatsManager db) where
  userHand := .inr rfl
  resourceHand := .inr rfl
  tx := .inr ⟨rfl, rfl⟩
  userTidy := Ledger.tidy_of_none rfl
  resourceTidy := Ledger.tidy_of_none rfl
  keys := nofun
  rows := ⟨db.plain, nofun⟩

section Inv

variable {s s' : UserStatsManager} {f : Flush} (inv : Inv s)
include inv

theorem Inv.free (flushing : s.flush = some f) :
    (f.phase ≠ .users → s.users.hand = none) ∧
      (f.phase ≠ .resources → s.resources.hand = none) := by
  have no {phase : Phase} (other : f.phase ≠ phase) :
      ¬ ∃ f', s.flush = some f' ∧ f'.phase = phase := by
    rintro ⟨f', flushing', same⟩
    cases flushing.symm.trans flushing'
    exact other same
  exact ⟨fun other => inv.userHand.resolve_left (no other),
    fun other => inv.resourceHand.resolve_left (no other)⟩

/-- With no flush in progress nothing is in a hand or in a transaction. -/
theorem Inv.idle (free : s.flush = none) :
    (s.users.hand = none ∧ s.resources.hand = none) ∧ s.users.tx = [] ∧ s.resources.tx = [] := by
  have no {P : Flush → Prop} : ¬ ∃ f, s.flush = some f ∧ P f := by
    rintro ⟨f, flushing, -⟩
    cases free.symm.trans flushing
  exact ⟨⟨inv.userHand.resolve_left no, inv.resourceHand.resolve_left no⟩, inv.tx.resolve_left no⟩

theorem Inv.push (p : Push) : Inv (pushStep s p) :=
  { inv with userTidy := inv.userTidy.add .. }

theorem Inv.pushResource (p : Push) : Inv (pushResourceStep s p) :=
  { inv with
    resourceTidy := inv.resourceTidy.add ..
    keys := fun key mem => by
      rcases Ledger.mem_add_keys.mp mem with old | rfl
      · exact inv.keys key old
      · simp [toList_resourceKey]
    rows := inv.rows.add .. }

theorem Inv.moves (flushing : s.flush = some f) (moves : Moves sum s f label s') : Inv s' := by
  cases moves with
  | users phase same move =>
    exact { inv with
      userHand := .inl ⟨_, rfl, same⟩
      resourceHand := .inr ((inv.free flushing).2 (by simp [phase]))
      tx := .inl ⟨_, rfl, by simp [same]⟩
      userTidy := inv.userTidy.move Counter.nodup_order move }
  | resources phase same move =>
    exact { inv with
      userHand := .inr ((inv.free flushing).1 (by simp [phase]))
      resourceHand := .inl ⟨_, rfl, same⟩
      tx := .inl ⟨_, rfl, by simp [same]⟩
      resourceTidy := inv.resourceTidy.move Counter.nodup_order move
      keys := by
        rw [move.keys_eq]
        exact inv.keys
      rows := inv.rows.move inv.resourceTidy (fun key _ => plain_resourceRow f.today key) move }
  | rolledBack phase =>
    have empty := inv.tx.resolve_left fun ⟨f', flushing', later⟩ => by
      cases flushing.symm.trans flushing'
      exact later phase
    exact { inv with
      userHand := .inr ((inv.free flushing).1 (by simp [phase]))
      resourceHand := .inr ((inv.free flushing).2 (by simp [phase]))
      tx := .inr empty }
  | goesOn userHand resourceHand later =>
    exact { inv with
      userHand := .inr (by
        by_cases phase : f.phase = .users
        · exact userHand phase
        · exact (inv.free flushing).1 phase)
      resourceHand := .inr (by
        by_cases phase : f.phase = .resources
        · exact resourceHand phase
        · exact (inv.free flushing).2 phase)
      tx := .inl ⟨_, rfl, later⟩ }
  | @commits ok phase =>
    have userFree := (inv.free flushing).1 (by simp [phase])
    have resourceFree := (inv.free flushing).2 (by simp [phase])
    exact {
      userHand := .inr userFree
      resourceHand := .inr resourceFree
      tx := .inr ⟨rfl, rfl⟩
      userTidy := Ledger.tidy_of_none userFree
      resourceTidy := Ledger.tidy_of_none resourceFree
      keys := inv.keys
      rows := inv.rows.commit ok }

theorem Inv.step (h : step sum s label = some s') : Inv s' := by
  cases step_steps h with
  | push p => exact inv.push p
  | pushResource mem => exact inv.pushResource _
  | begun free =>
    obtain ⟨⟨userFree, resourceFree⟩, empty⟩ := inv.idle free
    exact { inv with
      userHand := .inr userFree
      resourceHand := .inr resourceFree
      tx := .inr empty }
  | notBegun => exact inv
  | flush flushing quiet moves => exact inv.moves flushing moves

end Inv

/-! ## Steps that lose nothing -/

/-- What a push adds to a counter fits. -/
def PushFits {κ : Type} (ledger : Ledger String κ Counter) (key : String) (p : Push) : Prop :=
  Fits ((ledger.held key p.counter).toInt + p.amount.toInt)

/-- The sum in the counter of a user fits, a row of users with anything in it is written, and
written rows are committed with sums that fit. -/
def Label.KeepsUsers (sum : Sum) (s : UserStatsManager) : Label → Prop
  | .push p => PushFits s.users p.user p
  | .exec ok => s.users.ExecKeeps ok
  | .commit ok => s.users.CommitKeeps sum ok
  | _ => True

/-- The same for resources, where a user has no NUL in the name. -/
def Label.KeepsResources (sum : Sum) (s : UserStatsManager) : Label → Prop
  | .push p => nul ∉ p.user.toList
  | .pushResource p => PushFits s.resources (resourceKey p.user p.resource) p
  | .exec ok => s.resources.ExecKeeps ok
  | .commit ok => s.resources.CommitKeeps sum ok
  | _ => True

theorem Label.KeepsUsers.wrote {s : UserStatsManager} (keeps : label.KeepsUsers sum s) :
    s.users.ExecKeeps label.wrote := by
  cases label with
  | exec ok => exact keeps
  | _ => exact .inl rfl

theorem Label.KeepsResources.wrote {s : UserStatsManager} (keeps : label.KeepsResources sum s) :
    s.resources.ExecKeeps label.wrote := by
  cases label with
  | exec ok => exact keeps
  | _ => exact .inl rfl

/-! ## Balances -/

/-- What a step pushes to the counter `c` of the accumulator `user`. -/
def pushedUser (user : String) (c : Counter) : Label → Int
  | .push p => if p.user = user ∧ p.counter = c then p.amount.toInt else 0
  | _ => 0

/-- What a step pushes to the counter `c` of the resource accumulator `key`. -/
def pushedKey (key : String) (c : Counter) : Label → Int
  | .push p =>
      if p.resource ≠ "" ∧ resourceKey p.user p.resource = key ∧ p.counter = c then
        p.amount.toInt
      else 0
  | _ => 0

/-- What a push that has not come to its second addition will add. -/
def inFlight (key : String) (c : Counter) (p : Push) : Int :=
  if resourceKey p.user p.resource = key ∧ p.counter = c then p.amount.toInt else 0

def usersBalance (user : String) (c : Counter) : Int :=
  s.users.balance UserKey.owner user c

/-- Bytes of a push between its two additions count as well. -/
def resourcesBalance (key : String) (c : Counter) : Int :=
  s.resources.balance ResourceKey.owner key c + (s.pushing.map (inFlight key c)).sum

section Balance

variable {s s' : UserStatsManager} {f : Flush} (inv : Inv s)
include inv

theorem usersBalance_moves (keeps : label.KeepsUsers sum s) (moves : Moves sum s f label s')
    (user : String) (c : Counter) : usersBalance s' user c = usersBalance s user c := by
  cases moves with
  | users phase same move =>
    exact Ledger.balance_move Counter.mem_order (fun _ _ => rfl) inv.userTidy keeps.wrote move
      user c
  | commits phase => exact Ledger.balance_commit keeps user c
  | resources | rolledBack | goesOn => rfl

theorem usersBalance_step (keeps : label.KeepsUsers sum s) (h : step sum s label = some s')
    (user : String) (c : Counter) :
    usersBalance s' user c = usersBalance s user c + pushedUser user c label := by
  cases step_steps h with
  | push p => exact Ledger.balance_add keeps user c
  | pushResource | begun | notBegun => exact (Int.add_zero _).symm
  | flush flushing quiet moves =>
    have none : pushedUser user c label = 0 := by
      cases label with
      | push p => exact absurd rfl (quiet p)
      | _ => rfl
    rw [none, Int.add_zero]
    exact usersBalance_moves inv keeps moves user c

theorem resourcesBalance_moves (keeps : label.KeepsResources sum s)
    (moves : Moves sum s f label s') (key : String) (c : Counter) :
    resourcesBalance s' key c = resourcesBalance s key c := by
  unfold resourcesBalance
  cases moves with
  | resources phase same move =>
    rw [Ledger.balance_move Counter.mem_order
      (fun key mem => resourceKey_parseResourceKey (inv.keys key mem)) inv.resourceTidy keeps.wrote
      move]
  | commits phase => rw [Ledger.balance_commit keeps]
  | users | rolledBack | goesOn => rfl

theorem resourcesBalance_step (keeps : label.KeepsResources sum s)
    (h : step sum s label = some s') (key : String) (c : Counter) :
    resourcesBalance s' key c = resourcesBalance s key c + pushedKey key c label := by
  cases step_steps h with
  | push p =>
    unfold resourcesBalance pushedKey
    by_cases named : p.resource = ""
    · simp [pushStep, named]
    · simp [pushStep, named, inFlight, Int.add_assoc]
  | @pushResource p mem =>
    unfold resourcesBalance
    show (s.resources.add _ p.counter p.amount).balance _ key c +
      ((s.pushing.erase p).map _).sum = _ + 0
    rw [Ledger.balance_add keeps, ← sum_map_erase _ mem]
    unfold inFlight
    omega
  | begun | notBegun => exact (Int.add_zero _).symm
  | flush flushing quiet moves =>
    have none : pushedKey key c label = 0 := by
      cases label with
      | push p => exact absurd rfl (quiet p)
      | _ => rfl
    rw [none, Int.add_zero]
    exact resourcesBalance_moves inv keeps moves key c

end Balance

/-! ## Conservation -/

def ResourceKey.pair (key : ResourceKey) : String × String := (key.1, key.2.2)

def userTotal (rows : List (Row UserKey Counter)) (user : String) (c : Counter) : Int :=
  total UserKey.owner user c rows

def resourceTotal (rows : List (Row ResourceKey Counter)) (user resource : String) (c : Counter) :
    Int :=
  total ResourceKey.pair (user, resource) c rows

/-- What a step pushes to the counter `c` of the user and the resource. -/
def pushedResource (user resource : String) (c : Counter) : Label → Int
  | .push p => if p.user = user ∧ p.resource = resource ∧ p.counter = c then p.amount.toInt else 0
  | _ => 0

/-- Among rows of users without a NUL, those of a user and a resource are those of their key. -/
theorem resourceTotal_eq {rows : List (Row ResourceKey Counter)}
    (plainRows : ∀ row ∈ rows, row.key.Plain) (plain : nul ∉ user.toList) (resource : String)
    (c : Counter) :
    total ResourceKey.owner (resourceKey user resource) c rows =
      resourceTotal rows user resource c := by
  refine total_congr fun row mem => ?_
  constructor
  · intro same
    obtain ⟨sameUser, sameResource⟩ := resourceKey_inj (plainRows row mem) plain same
    exact Prod.ext sameUser sameResource
  · intro same
    obtain ⟨sameUser, sameResource⟩ := Prod.mk.injEq .. ▸ same
    rw [ResourceKey.owner, sameUser, sameResource]

theorem pushedKey_eq {resource : String} {c : Counter} (plain : nul ∉ user.toList)
    (named : resource ≠ "") (plainLabel : ∀ p, label = .push p → nul ∉ p.user.toList) :
    pushedKey (resourceKey user resource) c label = pushedResource user resource c label := by
  cases label with
  | push p =>
    have same : (p.resource ≠ "" ∧ resourceKey p.user p.resource = resourceKey user resource ∧
        p.counter = c) ↔ (p.user = user ∧ p.resource = resource ∧ p.counter = c) := by
      constructor
      · rintro ⟨-, key, counter⟩
        obtain ⟨sameUser, sameResource⟩ := resourceKey_inj (plainLabel p rfl) plain key
        exact ⟨sameUser, sameResource, counter⟩
      · rintro ⟨rfl, rfl, rfl⟩
        exact ⟨named, rfl, rfl⟩
    simp only [pushedKey, pushedResource, same]
  | _ => rfl

section Run

variable {db : Database} {labels : List Label} {s : UserStatsManager}

variable (run : steps (step sum) (newUserStatsManager db) labels = some s)
include run

theorem run_inv : Inv s :=
  steps_keeps Inv (fun _ _ _ inv taken => inv.step taken) (inv_new db) run

variable (idle : s.flush = none)
include idle

/-- Every byte pushed to a user is in the table or in memory. -/
theorem user_bytes
    (keeps : Through (step sum) (fun s label => label.KeepsUsers sum s) (newUserStatsManager db)
      labels) (user : String) (c : Counter) :
    userTotal s.users.table user c + (s.users.held user c).toInt =
      userTotal db.userStatsDaily user c + (labels.map (pushedUser user c)).sum := by
  have moved := steps_sum Inv (fun s => usersBalance s user c) (pushedUser user c)
    (fun _ _ _ inv keeps taken => ⟨inv.step taken, usersBalance_step inv keeps taken user c⟩)
    (inv_new db) keeps run
  obtain ⟨⟨free, -⟩, empty, -⟩ := (run_inv run).idle idle
  have now := Ledger.balance_idle UserKey.owner free empty user c
  have start : usersBalance (newUserStatsManager db) user c =
      userTotal db.userStatsDaily user c :=
    (Ledger.balance_idle _ rfl rfl user c).trans (Int.add_zero _)
  rw [start] at moved
  exact now.symm.trans moved

variable (keeps : Through (step sum) (fun s label => label.KeepsResources sum s)
  (newUserStatsManager db) labels)
include keeps

/-- The same for a resource accumulator, where the bytes of a push between its two additions
are in memory as well. -/
theorem key_bytes (key : String) (c : Counter) :
    total ResourceKey.owner key c s.resources.table +
        ((s.resources.held key c).toInt + (s.pushing.map (inFlight key c)).sum) =
      total ResourceKey.owner key c db.userResourcesDaily +
        (labels.map (pushedKey key c)).sum := by
  have moved := steps_sum Inv (fun s => resourcesBalance s key c) (pushedKey key c)
    (fun _ _ _ inv keeps taken => ⟨inv.step taken, resourcesBalance_step inv keeps taken key c⟩)
    (inv_new db) keeps run
  obtain ⟨⟨-, free⟩, -, empty⟩ := (run_inv run).idle idle
  have now := Ledger.balance_idle ResourceKey.owner free empty key c
  have start : resourcesBalance (newUserStatsManager db) key c =
      total ResourceKey.owner key c db.userResourcesDaily := by
    rw [resourcesBalance, Ledger.balance_idle _ rfl rfl]
    exact (Int.add_zero _).trans (Int.add_zero _)
  rw [resourcesBalance] at moved
  omega

/-- If no user has a NUL in the name, a resource accumulator is that of one user and one
resource. -/
theorem resource_bytes {user resource : String} (plain : nul ∉ user.toList)
    (named : resource ≠ "") (c : Counter) :
    resourceTotal s.resources.table user resource c +
        ((s.resources.held (resourceKey user resource) c).toInt +
          (s.pushing.map (inFlight (resourceKey user resource) c)).sum) =
      resourceTotal db.userResourcesDaily user resource c +
        (labels.map (pushedResource user resource c)).sum := by
  have rows := (run_inv run).rows
  have pushed : labels.map (pushedKey (resourceKey user resource) c) =
      labels.map (pushedResource user resource c) := by
    refine map_congr_left fun label mem => pushedKey_eq plain named fun p same => ?_
    obtain ⟨s', kept⟩ := keeps.of_mem run mem
    rw [same] at kept
    exact kept
  rw [← resourceTotal_eq rows.table plain, ← resourceTotal_eq db.plain plain, ← pushed]
  exact key_bytes run idle keeps _ c

end Run

/-- In every run whose steps lose nothing, with no flush in progress, the bytes in the tables and in
memory are those that were there and those pushed, of a user, and of a user and a resource. Errors
of `Begin` and of either `Prepare` lose nothing. -/
theorem bytes_conserved (sum : Sum) (db : Database) {labels : List Label} {s : UserStatsManager}
    (run : steps (step sum) (newUserStatsManager db) labels = some s) (idle : s.flush = none) :
    (Through (step sum) (fun s label => label.KeepsUsers sum s) (newUserStatsManager db) labels →
      ∀ user c, userTotal s.users.table user c + (s.users.held user c).toInt =
        userTotal db.userStatsDaily user c + (labels.map (pushedUser user c)).sum) ∧
    (Through (step sum) (fun s label => label.KeepsResources sum s) (newUserStatsManager db)
        labels →
      ∀ user resource c, nul ∉ user.toList → resource ≠ "" →
        resourceTotal s.resources.table user resource c +
            ((s.resources.held (resourceKey user resource) c).toInt +
              (s.pushing.map (inFlight (resourceKey user resource) c)).sum) =
          resourceTotal db.userResourcesDaily user resource c +
            (labels.map (pushedResource user resource c)).sum) :=
  ⟨user_bytes run idle, fun keeps _ _ c plain named => resource_bytes run idle keeps plain named c⟩

/-- A flush of one user and one resource, in which `stmt.Exec` and `tx.Commit` end as given. -/
def oneFlush (user key : String) (execOk commitOk : Bool) : List Label :=
  [.begin "2025-01-01" true, .prepare true, .visit user, .swap, .swap, .swap, .exec execOk,
    .rangeEnd, .prepare true, .visit key, .swap, .swap, .swap, .exec true, .rangeEnd,
    .commit commitOk]

def emptyDatabase : Database := ⟨[], [], nofun⟩

def upload (user : String) : List Label :=
  [.push (.uploaded user "example.com" 5), .pushResource (.uploaded user "example.com" 5)]

/-- The sum without a limit. -/
def exactSum : Sum := ⟨(· + ·), fun _ _ _ => rfl⟩

/-- A push of five bytes and a flush that succeeds: the five bytes are in both tables. -/
theorem bytes_conserved_flushed :
    ∃ s, steps (step exactSum) (newUserStatsManager emptyDatabase)
        (upload "alice" ++
          oneFlush "alice" (resourceKey "alice" "example.com") true true) = some s ∧
      s.flush = none ∧
      userTotal s.users.table "alice" .upload + (s.users.held "alice" .upload).toInt = 0 + 5 := by
  have run : steps (step exactSum) (newUserStatsManager emptyDatabase) (upload "alice" ++
      oneFlush "alice" (resourceKey "alice" "example.com") true true) = some _ := rfl
  refine ⟨_, run, rfl, (bytes_conserved exactSum emptyDatabase run rfl).1 ?_ "alice" .upload⟩
  refine through_cons (show Fits (0 + 5) by decide) rfl ?_
  iterate 7 refine through_cons trivial rfl ?_
  refine through_cons (.inl rfl) rfl ?_
  iterate 6 refine through_cons trivial rfl ?_
  refine through_cons (.inl rfl) rfl (through_cons trivial rfl ?_)
  exact through_cons (.inr ⟨rfl, nofun, trivial⟩) rfl trivial

/-- Five bytes are pushed and flushed. If the row cannot be written, or the transaction cannot be
committed, they are in neither the table nor memory. If the user has a NUL in the name, the row of
the resource is that of another user, though nothing fails. -/
theorem bytes_not_conserved :
    (∃ s, steps (step exactSum) (newUserStatsManager emptyDatabase)
        (upload "alice" ++
          oneFlush "alice" (resourceKey "alice" "example.com") false true) = some s ∧
      s.flush = none ∧
      userTotal s.users.table "alice" .upload + (s.users.held "alice" .upload).toInt = 0) ∧
    (∃ s, steps (step exactSum) (newUserStatsManager emptyDatabase)
        (upload "alice" ++
          oneFlush "alice" (resourceKey "alice" "example.com") true false) = some s ∧
      s.flush = none ∧
      userTotal s.users.table "alice" .upload + (s.users.held "alice" .upload).toInt = 0 ∧
      resourceTotal s.resources.table "alice" "example.com" .upload +
        (s.resources.held (resourceKey "alice" "example.com") .upload).toInt = 0) ∧
    (∃ s, steps (step exactSum) (newUserStatsManager emptyDatabase)
        (upload (resourceKey "alice" "x") ++
          oneFlush (resourceKey "alice" "x")
            (resourceKey (resourceKey "alice" "x") "example.com") true true) = some s ∧
      s.flush = none ∧
      resourceTotal s.resources.table (resourceKey "alice" "x") "example.com" .upload +
        (s.resources.held (resourceKey (resourceKey "alice" "x") "example.com") .upload).toInt =
          0) :=
  ⟨⟨_, rfl, rfl, by decide +kernel⟩, ⟨_, rfl, rfl, by decide +kernel, by decide +kernel⟩,
    ⟨_, rfl, rfl, by decide +kernel⟩⟩

end SingBox.ClashApi.UserStats
