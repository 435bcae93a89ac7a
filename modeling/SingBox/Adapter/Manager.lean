import SingBox.Lib.Dependents
import SingBox.Lib.System

/-!
# The outbound manager and the DNS transport manager

`Manager` of `adapter/outbound/manager.go` and `TransportManager` of `dns/transport_manager.go`
keep their members in a list, an index by tag, a table of who depends on whom, and a default; the
second also knows the one FakeIP transport. `Create` and `Remove` change these one after the
other and return at the first check that fails.

Both hold their lock for the whole change, so a call is one step. An object is known by its
number: the managers compare objects, not tags. Closing a component succeeds.

* `create_cases`, `remove_cases` — where a call returns, and what it has changed by then;
* `failed_call_unchanged_iff` — a call that fails leaves the manager as it was if and only if it is
  for an unknown tag, or for a component without a tag or that cannot be made or started.
-/

namespace SingBox.Managers

open SingBox.Lib Function

/-! ## Managers -/

/-- An outbound or a DNS transport. -/
structure Member where
  id : Nat
  tag : String
  type : String
  dependencies : List String
  deriving DecidableEq, Repr

inductive Kind where
  | outbound
  | dns
  deriving DecidableEq, Repr

/-- How the errors name a member. -/
def Kind.name : Kind → String
  | .outbound => "outbound"
  | .dns => "server"

/-- The errors of `Create` and `Remove`. -/
inductive Error where
  /-- `os.ErrInvalid` -/
  | invalid
  /-- The registry cannot make the component. -/
  | registry (message : String)
  /-- The component does not start. -/
  | start (message : String)
  | dependedBy (name tag : String) (dependBy : List String)
  | defaultFakeIP
  | multipleFakeIP
  deriving DecidableEq, Repr

def Error.message : Error → String
  | .invalid => "invalid argument"
  | .registry message => message
  | .start message => message
  | .dependedBy name tag dependBy =>
      name ++ "[" ++ tag ++ "] is depended by " ++ ", ".intercalate dependBy
  | .defaultFakeIP => "default server cannot be fakeip"
  | .multipleFakeIP => "multiple fakeip server are not supported"

inductive Outcome where
  | ok
  | error (e : Error)
  | panic
  deriving DecidableEq, Repr

/-- The fields of either manager. The outbound manager has no FakeIP transport. -/
structure Manager where
  defaultTag : String
  started : Bool
  /-- `outbounds` or `transports` -/
  members : List Member
  /-- `outboundByTag` or `transportByTag` -/
  byTag : String → Option Member
  dependByTag : String → List String
  /-- `defaultOutbound` or `defaultTransport` -/
  defaultMember : Option Member
  fakeIPTransport : Option Member
  /-- The number of the next object. -/
  next : Nat

def newManager (defaultTag : String) : Manager :=
  ⟨defaultTag, false, [], fun _ => none, fun _ => [], none, none, 0⟩

def dnsTypeFakeIP : String := "fakeip"

namespace Manager

variable (s : Manager)

/-- The list without the member, and nothing if it is not in the list. -/
def without (member : Member) : Option (List Member) :=
  if s.members.any (·.id == member.id) then some (s.members.eraseP (·.id == member.id))
  else none

def isDefault (member : Member) : Bool :=
  s.defaultMember.any (·.id == member.id)

/-! ## `Remove` -/

/-- The end of `Remove`: the check for dependents, and the table without the member. -/
def unregister (kind : Kind) (s : Manager) (tag : String) (member : Member) : Manager × Outcome :=
  if 0 < (s.dependByTag tag).length then
    (s, .error (.dependedBy kind.name tag (s.dependByTag tag)))
  else ({ s with dependByTag := undepend tag member.dependencies s.dependByTag }, .ok)

def removeOutbound (tag : String) : Manager × Outcome :=
  match s.byTag tag with
  | none => (s, .error .invalid)
  | some outbound =>
      let s := { s with byTag := update s.byTag tag none }
      match s.without outbound with
      | none => (s, .panic)
      | some members =>
          let s := { s with members }
          let s := if s.isDefault outbound then { s with defaultMember := s.members.head? } else s
          s.unregister .outbound tag outbound

/-- `TransportManager.Remove`. The next transport is refused as the default unless it is FakeIP. -/
def removeTransport (tag : String) : Manager × Outcome :=
  match s.byTag tag with
  | none => (s, .error .invalid)
  | some transport =>
      let s := { s with byTag := update s.byTag tag none }
      match s.without transport with
      | none => (s, .panic)
      | some members =>
          let s := { s with members }
          if s.isDefault transport then
            match s.members.head? with
            | some nextTransport =>
                if nextTransport.type ≠ dnsTypeFakeIP then (s, .error .defaultFakeIP)
                else
                  { s with defaultMember := some nextTransport }.unregister .dns tag transport
            | none => { s with defaultMember := none }.unregister .dns tag transport
          else s.unregister .dns tag transport

/-! ## `Create` -/

/-- A call of `Create`, with what the registry makes of it, the type and the dependencies or an
error, and the error of starting the component. -/
structure Request where
  tag : String
  created : Except String (String × List String)
  startError : Option String

/-- The list without the member registered under the tag, if there is one. -/
def replaced (tag : String) : Option (List Member) :=
  match s.byTag tag with
  | none => some s.members
  | some existing => s.without existing

/-- The new member is put into the list, the index and the table. -/
def register (tag : String) (member : Member) (members : List Member) : Manager :=
  { s with
    members := members ++ [member]
    byTag := update s.byTag tag (some member)
    dependByTag := depend tag member.dependencies s.dependByTag
    next := s.next + 1 }

def becomesDefault (tag : String) : Bool :=
  tag == s.defaultTag || (s.defaultTag == "" && s.defaultMember.isNone)

/-- The part of `Create` before the first change: a component that was made and, if the manager has
been started, started. -/
def build (request : Request) : Except Error Member :=
  if request.tag = "" then .error .invalid
  else
    match request.created with
    | .error message => .error (.registry message)
    | .ok (type, dependencies) =>
        match if s.started then request.startError else none with
        | some message => .error (.start message)
        | none => .ok ⟨s.next, request.tag, type, dependencies⟩

def createOutbound (request : Request) : Manager × Outcome :=
  match s.build request with
  | .error e => (s, .error e)
  | .ok outbound =>
      match s.replaced request.tag with
      | none => (s, .panic)
      | some members =>
          let s := s.register request.tag outbound members
          if s.becomesDefault request.tag then ({ s with defaultMember := some outbound }, .ok)
          else (s, .ok)

/-- There is one FakeIP transport at most. -/
def admitFakeIP (transport : Member) : Manager × Outcome :=
  if transport.type == dnsTypeFakeIP then
    if s.fakeIPTransport.isSome then (s, .error .multipleFakeIP)
    else ({ s with fakeIPTransport := some transport }, .ok)
  else (s, .ok)

/-- The end of `TransportManager.Create`: a FakeIP transport is not the default. -/
def settleTransport (tag : String) (transport : Member) : Manager × Outcome :=
  if s.becomesDefault tag then
    if transport.type == dnsTypeFakeIP then (s, .error .defaultFakeIP)
    else { s with defaultMember := some transport }.admitFakeIP transport
  else s.admitFakeIP transport

def createTransport (request : Request) : Manager × Outcome :=
  match s.build request with
  | .error e => (s, .error e)
  | .ok transport =>
      match s.replaced request.tag with
      | none => (s, .panic)
      | some members =>
          (s.register request.tag transport members).settleTransport request.tag transport

/-! ## Start and close -/

/-- What `Start` finds: the endpoint of the default tag, and what the fallback makes. -/
structure Environment where
  endpoint : Option (String × List String)
  fallback : Except String (String × String × List String)

/-- The fallback is registered without a look at the tag, and has no dependents. -/
def addFallback (env : Environment) : Manager × Outcome :=
  match env.fallback with
  | .error message => (s, .error (.start message))
  | .ok (tag, type, dependencies) =>
      let member : Member := ⟨s.next, tag, type, dependencies⟩
      ({ s with
        members := s.members ++ [member]
        byTag := update s.byTag tag (some member)
        defaultMember := some member
        next := s.next + 1 }, .ok)

/-- `Start(StartStateStart)`, as far as it changes the manager. -/
def start (kind : Kind) (s : Manager) (env : Environment) : Manager × Outcome :=
  let s := { s with started := true }
  if s.defaultMember.isSome then (s, .ok)
  else if s.defaultTag = "" then s.addFallback env
  else
    match kind, env.endpoint with
    | .outbound, some (type, dependencies) =>
        ({ s with
          defaultMember := some ⟨s.next, s.defaultTag, type, dependencies⟩
          next := s.next + 1 }, .ok)
    | .outbound, none => (s, .error (.start ("default outbound not found: " ++ s.defaultTag)))
    | .dns, _ => (s, .error (.start ("default DNS server not found: " ++ s.defaultTag)))

/-- `Close` empties the list and leaves the index. -/
def close : Manager :=
  if s.started then { s with started := false, members := [] } else s

end Manager

/-! ## Calls -/

open Manager

inductive Call where
  | create (request : Request)
  | remove (tag : String)

def exec (kind : Kind) (s : Manager) : Call → Manager × Outcome
  | .create request =>
      match kind with
      | .outbound => s.createOutbound request
      | .dns => s.createTransport request
  | .remove tag =>
      match kind with
      | .outbound => s.removeOutbound tag
      | .dns => s.removeTransport tag

/-- What happens to a manager. A stage other than the start only marks it as started. -/
inductive Op where
  | call (call : Call)
  | otherStage
  | start (env : Environment)
  | close

/-- The manager after a step; a panic ends the run. -/
def step (kind : Kind) (s : Manager) : Op → Option Manager
  | .call call =>
      if (exec kind s call).2 = .panic then none else some (exec kind s call).1
  | .otherStage => some { s with started := true }
  | .start env => some (s.start kind env).1
  | .close => some s.close

/-! ## Where a call returns -/

/-- A call without anything to register or to remove: `Create` has no tag, or a component that the
registry cannot make, or that does not start in a manager that has been started. -/
def Idle (s : Manager) : Call → Prop
  | .create request => request.tag = "" ∨ (∃ message, request.created = .error message) ∨
      s.started = true ∧ request.startError.isSome = true
  | .remove tag => s.byTag tag = none

section Cases

variable {kind : Kind} {s : Manager} {request : Request}

theorem idle_create_iff : Idle s (.create request) ↔ ∃ e, s.build request = .error e := by
  unfold Idle build
  by_cases empty : request.tag = ""
  · simp [empty]
  · cases created : request.created with
    | error message => simp [empty, created]
    | ok component =>
      cases starting : s.started <;> cases failure : request.startError <;>
        simp [empty, created, failure]

theorem build_ok {member : Member} (h : s.build request = .ok member) :
    member.id = s.next ∧ member.tag = request.tag ∧
      request.created = .ok (member.type, member.dependencies) := by
  unfold build at h
  split at h
  · cases h
  split at h
  · cases h
  case h_2 created =>
    split at h <;> cases h
    exact ⟨rfl, rfl, created⟩

/-- `Create` fails before it changes anything, or registers the member. It may still fail then. -/
inductive Created (s : Manager) (request : Request) : Manager × Outcome → Prop
  | failed {e : Error} (unbuilt : s.build request = .error e) : Created s request (s, .error e)
  | panics {s' : Manager} : Created s request (s', .panic)
  | registered {member : Member} {members : List Member} {s' : Manager} {outcome : Outcome}
      (built : s.build request = .ok member) (replaced : s.replaced request.tag = some members)
      (list : s'.members = members ++ [member])
      (byTag : s'.byTag = update s.byTag request.tag (some member))
      (dependByTag : s'.dependByTag = depend request.tag member.dependencies s.dependByTag)
      (next : s'.next = s.next + 1) : Created s request (s', outcome)

theorem admitFakeIP_cases {transport : Member} {members : List Member}
    (built : s.build request = .ok transport) (replaced : s.replaced request.tag = some members)
    (defaultMember : Option Member) :
    Created s request (Manager.admitFakeIP
      { s.register request.tag transport members with defaultMember } transport) := by
  unfold admitFakeIP
  split
  · split
    · exact .registered built replaced rfl rfl rfl rfl
    · exact .registered built replaced rfl rfl rfl rfl
  · exact .registered built replaced rfl rfl rfl rfl

theorem create_cases (kind : Kind) (s : Manager) (request : Request) :
    Created s request (exec kind s (.create request)) := by
  dsimp only [exec, createOutbound, createTransport]
  cases built : s.build request with
  | error e => cases kind <;> exact .failed built
  | ok member =>
    cases replaced : s.replaced request.tag with
    | none => cases kind <;> exact .panics
    | some members =>
      cases kind <;> dsimp only [settleTransport] <;> split
      case outbound.isTrue | outbound.isFalse =>
        exact .registered built replaced rfl rfl rfl rfl
      · split
        · exact .registered built replaced rfl rfl rfl rfl
        · exact admitFakeIP_cases built replaced _
      · exact admitFakeIP_cases built replaced s.defaultMember

/-- The DNS manager does not remove its default, if the next transport would be the default and is
not FakeIP. -/
def Blocked (kind : Kind) (s : Manager) (member : Member) (members : List Member) : Prop :=
  kind = .dns ∧ s.isDefault member = true ∧
    ∃ nextTransport, members.head? = some nextTransport ∧ nextTransport.type ≠ dnsTypeFakeIP

/-- `Remove` takes the member from the index and the list, and checks then. -/
inductive Removed (kind : Kind) (s : Manager) (tag : String) : Manager × Outcome → Prop
  | missing (absent : s.byTag tag = none) : Removed kind s tag (s, .error .invalid)
  | panics {member : Member} {s' : Manager} (found : s.byTag tag = some member)
      (unlisted : s.without member = none) : Removed kind s tag (s', .panic)
  | blocked {member : Member} {members : List Member} {s' : Manager}
      (found : s.byTag tag = some member) (listed : s.without member = some members)
      (byTag : s'.byTag = update s.byTag tag none) (next : s'.next = s.next)
      (blocked : Blocked kind s member members) : Removed kind s tag (s', .error .defaultFakeIP)
  | unregistered {member : Member} {members : List Member} {s' : Manager}
      (found : s.byTag tag = some member) (listed : s.without member = some members)
      (list : s'.members = members)
      (byTag : s'.byTag = update s.byTag tag none) (next : s'.next = s.next)
      (dependByTag : s'.dependByTag = s.dependByTag)
      (free : ¬ Blocked kind s member members) :
      Removed kind s tag (s'.unregister kind tag member)

theorem remove_cases (kind : Kind) (s : Manager) (tag : String) :
    Removed kind s tag (exec kind s (.remove tag)) := by
  dsimp only [exec, removeOutbound, removeTransport]
  cases found : s.byTag tag with
  | none => cases kind <;> exact .missing found
  | some member =>
    cases kind <;> dsimp only <;> split
    case h_1 unlisted | h_1 unlisted => exact .panics found unlisted
    case h_2 members listed =>
      have free : ¬ Blocked .outbound s member members := fun blocked =>
        absurd blocked.1 (by decide)
      split <;> exact .unregistered found listed rfl rfl rfl rfl free
    case h_2 members listed =>
      split
      case isTrue isDefault =>
        split
        case h_1 nextTransport head =>
          split
          case isTrue notFakeIP =>
            exact .blocked found listed rfl rfl ⟨rfl, isDefault, nextTransport, head, notFakeIP⟩
          case isFalse fakeIP =>
            refine .unregistered found listed rfl rfl rfl rfl fun blocked => ?_
            obtain ⟨-, -, other, head', notFakeIP⟩ := blocked
            cases (head : members.head? = some nextTransport).symm.trans head'
            exact fakeIP notFakeIP
        case h_2 head =>
          refine .unregistered found listed rfl rfl rfl rfl fun blocked => ?_
          obtain ⟨-, -, other, head', -⟩ := blocked
          cases (head : members.head? = none).symm.trans head'
      case isFalse notDefault =>
        exact .unregistered found listed rfl rfl rfl rfl fun blocked => notDefault blocked.2.1

end Cases

/-! ## Calls that fail -/

/-- The list of members, the index, the default, the FakeIP transport and the dependency table are
the same. -/
structure Same (s s' : Manager) : Prop where
  members : s'.members = s.members
  byTag : s'.byTag = s.byTag
  defaultMember : s'.defaultMember = s.defaultMember
  fakeIPTransport : s'.fakeIPTransport = s.fakeIPTransport
  dependByTag : s'.dependByTag = s.dependByTag

theorem Same.refl (s : Manager) : Same s s := ⟨rfl, rfl, rfl, rfl, rfl⟩

/-- The objects in the index have been numbered. -/
def Numbered (s : Manager) : Prop := ∀ tag member, s.byTag tag = some member → member.id < s.next

section Failed

variable {kind : Kind} {s : Manager}

theorem Numbered.update {s s' : Manager} {tag : String} {new : Option Member}
    (numbered : Numbered s) (byTag : s'.byTag = update s.byTag tag new)
    (next : s.next ≤ s'.next) (fresh : ∀ member, new = some member → member.id < s'.next) :
    Numbered s' := by
  intro other member found
  rw [byTag] at found
  rcases of_update found with ⟨-, isNew⟩ | ⟨-, old⟩
  · exact fresh member isNew
  · exact Nat.lt_of_lt_of_le (numbered other member old) next

/-- A call that panics has no state to go on with. -/
theorem Numbered.called (numbered : Numbered s) {call : Call}
    (noPanic : (exec kind s call).2 ≠ .panic) : Numbered (exec kind s call).1 := by
  cases call with
  | create request =>
    generalize exec kind s (.create request) = result, create_cases kind s request = cases
      at noPanic ⊢
    cases cases with
    | failed unbuilt => exact numbered
    | panics => exact absurd rfl noPanic
    | registered built replaced list byTag dependByTag next =>
      refine numbered.update byTag (next ▸ Nat.le_succ _) fun member same => ?_
      cases same
      rw [(build_ok built).1, next]
      exact Nat.lt_succ_self _
  | remove tag =>
    generalize exec kind s (.remove tag) = result, remove_cases kind s tag = cases at noPanic ⊢
    cases cases with
    | missing absent => exact numbered
    | panics => exact absurd rfl noPanic
    | blocked found listed byTag next blocked =>
      exact numbered.update byTag (next ▸ Nat.le_refl _) nofun
    | unregistered found listed list byTag next dependByTag free =>
      unfold unregister
      split <;> exact numbered.update byTag (next ▸ Nat.le_refl _) nofun

theorem Numbered.start (numbered : Numbered s) (env : Environment) :
    Numbered (s.start kind env).1 := by
  unfold Manager.start addFallback
  dsimp only
  repeat' split
  all_goals try exact numbered
  · refine numbered.update rfl (Nat.le_succ _) fun member same => ?_
    cases same
    exact Nat.lt_succ_self _
  · exact fun tag member found => Nat.lt_succ_of_lt (numbered tag member found)

theorem Numbered.step (numbered : Numbered s) {op : Op} {s' : Manager}
    (h : step kind s op = some s') : Numbered s' := by
  cases op with
  | call call =>
    simp only [Managers.step] at h
    split at h
    case isTrue => cases h
    case isFalse noPanic =>
      cases h
      exact numbered.called noPanic
  | otherStage =>
    cases h
    exact numbered
  | start env =>
    cases h
    exact numbered.start env
  | close =>
    cases h
    unfold close
    split <;> exact numbered

/-- A call that fails later has put a new object into the index, or taken one out. -/
theorem same_iff_idle (numbered : Numbered s) {call : Call} {e : Error}
    (failed : (exec kind s call).2 = .error e) :
    Same s (exec kind s call).1 ↔ Idle s call := by
  cases call with
  | create request =>
    generalize exec kind s (.create request) = result, create_cases kind s request = cases
      at failed ⊢
    cases cases with
    | failed unbuilt => exact iff_of_true (Same.refl s) (idle_create_iff.mpr ⟨_, unbuilt⟩)
    | panics => cases failed
    | @registered member _ _ _ built replaced list byTag dependByTag next =>
      refine iff_of_false (fun same => ?_) fun idle => ?_
      swap
      · obtain ⟨e', unbuilt⟩ := idle_create_iff.mp idle
        cases built.symm.trans unbuilt
      have before : s.byTag request.tag = some member := by
        rw [← same.byTag, byTag, update_self]
      have small := numbered request.tag member before
      rw [(build_ok built).1] at small
      exact absurd small (Nat.lt_irrefl _)
  | remove tag =>
    generalize exec kind s (.remove tag) = result, remove_cases kind s tag = cases at failed ⊢
    cases cases with
    | missing absent => exact iff_of_true (Same.refl s) absent
    | panics => cases failed
    | blocked found listed byTag next blocked =>
      refine iff_of_false (fun same => ?_) fun absent => nomatch found.symm.trans absent
      rw [← same.byTag, byTag, update_self] at found
      cases found
    | @unregistered member members s' found listed list byTag next dependByTag free =>
      have gone : (s'.unregister kind tag member).1.byTag tag = none := by
        unfold unregister
        split <;> rw [byTag, update_self]
      refine iff_of_false (fun same => ?_) fun absent => nomatch found.symm.trans absent
      rw [same.byTag, found] at gone
      cases gone

end Failed

/-- A call of `Create` or `Remove` that fails leaves the list, the index, the default, the FakeIP
transport and the table as they were if and only if there was nothing to register or to remove. A
member that others depend on is refused only after it has been taken out, and so is a default
without a successor. A FakeIP transport is refused only after it has been put in. -/
theorem failed_call_unchanged_iff (kind : Kind) (defaultTag : String) {ops : List Op} {s : Manager}
    (run : steps (step kind) (newManager defaultTag) ops = some s) {call : Call} {e : Error}
    (failed : (exec kind s call).2 = .error e) :
    Same s (exec kind s call).1 ↔ Idle s call := by
  have numbered : Numbered s := steps_keeps Numbered
    (fun _ _ _ numbered taken => numbered.step taken) (by nofun) run
  exact same_iff_idle numbered failed

/-- `Create` of a component that is made and starts. -/
def creates (tag type : String) (dependencies : List String) : Call :=
  .create ⟨tag, .ok (type, dependencies), none⟩

/-- An outbound and another one that depends on it. -/
def twoOutbounds : List Op :=
  [.call (creates "direct" "direct" []), .call (creates "proxy" "vless" ["direct"])]

/-- A tag that is not registered is refused, and nothing has changed. -/
theorem failed_call_unchanged_unknown :
    ∃ s, steps (step .outbound) (newManager "") twoOutbounds = some s ∧
      (exec .outbound s (.remove "block")).2 = .error .invalid ∧
      Same s (exec .outbound s (.remove "block")).1 := by
  have run : steps (step .outbound) (newManager "") twoOutbounds = some _ := rfl
  exact ⟨_, run, rfl, (failed_call_unchanged_iff .outbound "" run rfl).mpr rfl⟩

/-- An outbound that another one depends on is not removed, says the error, but it is not
registered any more. A second FakeIP transport is refused, and registered. -/
theorem failed_call_changes :
    (∃ s, steps (step .outbound) (newManager "") twoOutbounds = some s ∧
      (exec .outbound s (.remove "direct")).2 =
        .error (.dependedBy "outbound" "direct" ["proxy"]) ∧
      (s.byTag "direct").isSome = true ∧
      (exec .outbound s (.remove "direct")).1.byTag "direct" = none) ∧
    (∃ s, steps (step .dns) (newManager "local")
        [.call (creates "local" "local" []), .call (creates "fake" "fakeip" [])] = some s ∧
      (exec .dns s (creates "other" "fakeip" [])).2 = .error .multipleFakeIP ∧
      s.byTag "other" = none ∧
      ((exec .dns s (creates "other" "fakeip" [])).1.byTag "other").isSome = true) :=
  ⟨⟨_, rfl, rfl, rfl, rfl⟩, ⟨_, rfl, rfl, rfl, rfl⟩⟩

end SingBox.Managers
