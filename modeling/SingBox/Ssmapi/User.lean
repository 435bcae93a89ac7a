import Mathlib.Data.List.AList
import SingBox.Lib.System

/-!
# Users of a managed Shadowsocks server

`UserManager` of `service/ssmapi/user.go` holds the users of one server in a map. `Add`, `Update`
and `Delete` edit the map, and send all of it to the server; a list with a malformed key is
refused as a whole. The map is not put back then.

A Go map is ranged over in any order, so a call carries the order it happens to see.

* `mirror_called_iff` — a call keeps the map what the server has accepted exactly if the key it
  writes is well formed;
* `users_mirror_iff` — the same for whole histories, and then no call is refused but for its own
  arguments.
-/

namespace SingBox.Ssmapi

open SingBox.Lib List

/-! ## The server -/

/-- What `MultiInbound` holds of its users: the keys of the service, each under an index, and the
names the indices stand for. -/
structure MultiInbound where
  service : List (Nat × String)
  users : List String

/-- The users that can connect: a key of the service, and the name its index stands for. -/
def MultiInbound.list (h : MultiInbound) : List (String × String) :=
  h.service.filterMap fun (index, uPSK) => (h.users[index]?).map fun name => (name, uPSK)

inductive Error where
  /-- The server refuses a key. -/
  | malformed
  | alreadyExists (username : String)
  deriving DecidableEq, Repr

/-- The text of an error; `refusal` is that of the server. -/
def Error.message (refusal : String) : Error → String
  | .malformed => refusal
  | .alreadyExists username => "user " ++ username ++ " already exists"

section Server

variable (wellFormed : String → Bool)

def MultiInbound.updateUsers (users uPSKs : List String) : Except Error MultiInbound :=
  if uPSKs.all wellFormed then .ok ⟨(users.mapIdx fun index _ => index).zip uPSKs, users⟩
  else .error .malformed

theorem filterMap_index (known users uPSKs : List String) :
    ((range' known.length users.length).zip uPSKs).filterMap
        (fun (index, uPSK) => ((known ++ users)[index]?).map fun name => (name, uPSK)) =
      users.zip uPSKs := by
  -- on the names; those before the index are known
  induction users generalizing known uPSKs with
  | nil => rfl
  | cons name rest ih =>
    cases uPSKs with
    | nil => simp
    | cons uPSK more =>
      have later := ih (known ++ [name]) more
      rw [append_assoc, length_append] at later
      rw [length_cons, range'_succ, zip_cons_cons, filterMap_cons_some (b := (name, uPSK))]
      · exact congrArg _ later
      · simp

variable {wellFormed : String → Bool} {users : List (String × String)}

/-- The server takes a list with well-formed keys, and then its users are those of the list. -/
theorem MultiInbound.updateUsers_ok {h : MultiInbound}
    (accepted : updateUsers wellFormed (users.map (·.1)) (users.map (·.2)) = .ok h) :
    (∀ user ∈ users, wellFormed user.2 = true) ∧ h.list = users := by
  unfold updateUsers at accepted
  split at accepted <;> cases accepted
  case isTrue all =>
    refine ⟨by simpa using all, ?_⟩
    have indices : ((users.map (·.1)).mapIdx fun index _ => index) =
        range' ([] : List String).length (users.map (·.1)).length :=
      ext_getElem (by simp) (by simp)
    rw [indices]
    exact (filterMap_index [] (users.map (·.1)) (users.map (·.2))).trans
      (zip_of_prod rfl rfl).symm

theorem MultiInbound.updateUsers_error {e : Error}
    (refused : updateUsers wellFormed (users.map (·.1)) (users.map (·.2)) = .error e) :
    ∃ user ∈ users, wellFormed user.2 = false := by
  unfold updateUsers at refused
  split at refused
  case isTrue => cases refused
  case isFalse some => simpa using some

end Server

/-! ## The manager -/

/-- An order in which a map is ranged over. -/
structure RangeOrder where
  arrange : List (String × String) → List (String × String)
  perm : ∀ users, (arrange users).Perm users

structure UserManager where
  usersMap : AList fun _ : String => String
  server : MultiInbound

/-- `NewUserManager`, for a server that has no users of its own. -/
def newUserManager : UserManager := ⟨∅, ⟨[], []⟩⟩

inductive Call where
  | add (username password : String)
  | update (username password : String)
  | delete (username : String)

namespace UserManager

def list (order : RangeOrder) (m : UserManager) : List (String × String) :=
  order.arrange (m.usersMap.entries.map fun user => (user.1, user.2))

def get (m : UserManager) (username : String) : Option String := m.usersMap.lookup username

variable (wellFormed : String → Bool)

def postUpdate (order : RangeOrder) (m : UserManager) : UserManager × Option Error :=
  let users := m.list order
  match MultiInbound.updateUsers wellFormed (users.map (·.1)) (users.map (·.2)) with
  | .error e => (m, some e)
  | .ok server => ({ m with server }, none)

def add (order : RangeOrder) (username password : String) (m : UserManager) :
    UserManager × Option Error :=
  if (m.usersMap.lookup username).isSome then (m, some (.alreadyExists username))
  else { m with usersMap := m.usersMap.insert username password }.postUpdate wellFormed order

def update (order : RangeOrder) (username password : String) (m : UserManager) :
    UserManager × Option Error :=
  { m with usersMap := m.usersMap.insert username password }.postUpdate wellFormed order

def delete (order : RangeOrder) (username : String) (m : UserManager) :
    UserManager × Option Error :=
  { m with usersMap := m.usersMap.erase username }.postUpdate wellFormed order

def exec (m : UserManager) (order : RangeOrder) : Call → UserManager × Option Error
  | .add username password => m.add wellFormed order username password
  | .update username password => m.update wellFormed order username password
  | .delete username => m.delete wellFormed order username

end UserManager

/-! ## What a call does -/

/-- `List` and `Get` report the users of the last list that the server accepted. -/
structure Mirror (m : UserManager) : Prop where
  list : ∀ order, (m.list order).Perm m.server.list
  get : ∀ username password, m.get username = some password ↔
    (username, password) ∈ m.server.list

section Mirror

variable {wellFormed : String → Bool} {m : UserManager}

theorem mem_list {order : RangeOrder} {username password : String} :
    (username, password) ∈ m.list order ↔ m.get username = some password := by
  unfold UserManager.list UserManager.get
  rw [(order.perm _).mem_iff, mem_map, ← Option.mem_def, AList.mem_lookup_iff]
  constructor
  · rintro ⟨⟨name, key⟩, mem, same⟩
    cases same
    exact mem
  · intro mem
    exact ⟨⟨username, password⟩, mem, rfl⟩

/-- The keys of the map are well formed. -/
def WellFormed (wellFormed : String → Bool) (m : UserManager) : Prop :=
  ∀ username password, m.get username = some password → wellFormed password = true

/-- The keys of the server are well formed, since it takes no others. -/
def Accepted (wellFormed : String → Bool) (m : UserManager) : Prop :=
  ∀ user ∈ m.server.list, wellFormed user.2 = true

theorem Mirror.allWellFormed (mirror : Mirror m) (accepted : Accepted wellFormed m) :
    WellFormed wellFormed m :=
  fun username password found => accepted _ ((mirror.get username password).mp found)

variable (order : RangeOrder)

theorem wellFormed_list :
    WellFormed wellFormed m ↔ ∀ user ∈ m.list order, wellFormed user.2 = true :=
  ⟨fun all user mem => all user.1 user.2 (mem_list.mp mem),
    fun all _ _ found => all _ (mem_list.mpr found)⟩

/-- The whole map is sent, and taken if all its keys are well formed. -/
inductive Posted (wellFormed : String → Bool) (order : RangeOrder) (m : UserManager) :
    UserManager × Option Error → Prop
  | taken {server : MultiInbound} (all : WellFormed wellFormed m)
      (users : server.list = m.list order) : Posted wellFormed order m ({ m with server }, none)
  | refused {e : Error} (bad : ¬ WellFormed wellFormed m) : Posted wellFormed order m (m, some e)

theorem postUpdate_posted (m : UserManager) :
    Posted wellFormed order m (m.postUpdate wellFormed order) := by
  unfold UserManager.postUpdate
  dsimp only
  split
  case h_1 e refused =>
    obtain ⟨user, mem, bad⟩ := MultiInbound.updateUsers_error refused
    refine .refused fun all => ?_
    cases bad.symm.trans ((wellFormed_list order).mp all user mem)
  case h_2 server taken =>
    obtain ⟨all, users⟩ := MultiInbound.updateUsers_ok taken
    exact .taken ((wellFormed_list order).mpr all) users

theorem mirror_of_list {order : RangeOrder} (users : m.server.list = m.list order) : Mirror m := by
  constructor
  · intro order'
    rw [users]
    exact (order'.perm _).trans (order.perm _).symm
  · intro username password
    rw [users, mem_list]

/-- After an edited map was sent it is what the server has, if and only if the server took it. -/
theorem postUpdate_spec (accepted : Accepted wellFormed m)
    (usersMap : AList fun _ : String => String) :
    let m' : UserManager := { m with usersMap }
    Accepted wellFormed (m'.postUpdate wellFormed order).1 ∧
      (Mirror (m'.postUpdate wellFormed order).1 ↔ WellFormed wellFormed m') ∧
      ((m'.postUpdate wellFormed order).2.isSome = true ↔ ¬ WellFormed wellFormed m') := by
  intro m'
  generalize m'.postUpdate wellFormed order = result, postUpdate_posted order m' = posted
  cases posted with
  | taken all users =>
    refine ⟨fun user mem => ?_, iff_of_true (mirror_of_list users) all,
      iff_of_false nofun (not_not_intro all)⟩
    exact (wellFormed_list order).mp all user (users ▸ mem)
  | refused bad =>
    refine ⟨accepted, iff_of_false (fun mirror => ?_) bad, iff_of_true rfl bad⟩
    exact bad (mirror.allWellFormed accepted)

theorem get_insert (m : UserManager) (username password name : String) :
    ({ m with usersMap := m.usersMap.insert username password } : UserManager).get name =
      if name = username then some password else m.get name := by
  split
  case isTrue same =>
    subst same
    exact AList.lookup_insert _
  case isFalse other => exact AList.lookup_insert_ne other

theorem wellFormed_insert (all : WellFormed wellFormed m) {username password : String} :
    WellFormed wellFormed { m with usersMap := m.usersMap.insert username password } ↔
      wellFormed password = true := by
  constructor
  · intro after
    exact after username password ((get_insert m username password username).trans (if_pos rfl))
  · intro good name key found
    rw [get_insert] at found
    split at found
    case isTrue =>
      cases found
      exact good
    case isFalse => exact all name key found

theorem WellFormed.erase (all : WellFormed wellFormed m) (username : String) :
    WellFormed wellFormed { m with usersMap := m.usersMap.erase username } := by
  intro name key found
  by_cases same : name = username
  · subst same
    cases (AList.lookup_erase _ _).symm.trans found
  · exact all name key ((AList.lookup_erase_ne same).symm.trans found)

end Mirror

/-! ## Histories -/

/-- The key that a call writes into the map is well formed. -/
def Call.WritesWellFormed (wellFormed : String → Bool) (m : UserManager) : Call → Prop
  | .add username password => m.get username = none → wellFormed password = true
  | .update _ password => wellFormed password = true
  | .delete _ => True

/-- The key that a call is given is well formed. -/
def Call.wellFormed (wellFormed : String → Bool) : Call → Bool
  | .add _ password | .update _ password => wellFormed password
  | .delete _ => true

/-- A call with a well-formed key is refused only if it adds a user that the server has. -/
def Call.Fair (wellFormed : String → Bool) (m : UserManager) (order : RangeOrder) (call : Call) :
    Prop :=
  call.wellFormed wellFormed = true → (m.exec wellFormed order call).2.isSome = true →
    ∃ username password, call = .add username password ∧ username ∈ m.server.list.map (·.1)

/-- A call, and the order in which it ranges over the map. -/
def step (wellFormed : String → Bool) (m : UserManager) (label : Call × RangeOrder) :
    Option UserManager :=
  some (m.exec wellFormed label.2 label.1).1

section Histories

variable {wellFormed : String → Bool} {m : UserManager}

theorem accepted_new : Accepted wellFormed newUserManager := nofun

theorem Accepted.exec (accepted : Accepted wellFormed m) (order : RangeOrder) (call : Call) :
    Accepted wellFormed (m.exec wellFormed order call).1 := by
  cases call with
  | add username password =>
    simp only [UserManager.exec, UserManager.add]
    split
    · exact accepted
    · exact (postUpdate_spec order accepted _).1
  | update | delete => exact (postUpdate_spec order accepted _).1

theorem mirror_called_iff (accepted : Accepted wellFormed m) (mirror : Mirror m)
    (order : RangeOrder) (call : Call) :
    Mirror (m.exec wellFormed order call).1 ↔ call.WritesWellFormed wellFormed m := by
  have all := mirror.allWellFormed accepted
  have posted (usersMap : AList fun _ : String => String) :=
    (postUpdate_spec order accepted usersMap).2.1
  cases call with
  | add username password =>
    simp only [UserManager.exec, UserManager.add, Call.WritesWellFormed]
    split
    case isTrue found =>
      refine iff_of_true mirror fun absent => ?_
      rw [UserManager.get] at absent
      rw [absent] at found
      cases found
    case isFalse absent =>
      rw [posted, wellFormed_insert all]
      have new : m.get username = none := Option.not_isSome_iff_eq_none.mp absent
      exact ⟨fun good _ => good, fun good => good new⟩
  | update username password => exact (posted _).trans (wellFormed_insert all)
  | delete username => exact (posted _).trans (iff_of_true (all.erase username) trivial)

theorem Mirror.fair (mirror : Mirror m) (accepted : Accepted wellFormed m) (order : RangeOrder)
    (call : Call) : call.Fair wellFormed m order := by
  have all := mirror.allWellFormed accepted
  have posted (usersMap : AList fun _ : String => String) :=
    (postUpdate_spec order accepted usersMap).2.2
  intro good refused
  cases call with
  | add username password =>
    simp only [UserManager.exec, UserManager.add] at refused
    split at refused
    case isTrue found =>
      obtain ⟨old, found⟩ := Option.isSome_iff_exists.mp found
      have mem := (mirror.get username old).mp found
      exact ⟨username, password, rfl, mem_map_of_mem mem⟩
    case isFalse =>
      exact absurd ((wellFormed_insert all).mpr good) ((posted _).mp refused)
  | update username password =>
    exact absurd ((wellFormed_insert all).mpr good) ((posted _).mp refused)
  | delete username => exact absurd (all.erase username) ((posted _).mp refused)

/-- After every call `List` and `Get` report the users of the last list the server accepted, and no
call with a well-formed key is refused but for a name the server has, if and only if no malformed
key is written: none is given to `Update`, and none to `Add` with a new name. -/
theorem users_mirror_iff (wellFormed : String → Bool) (calls : List (Call × RangeOrder)) :
    Always (step wellFormed) Mirror newUserManager calls ∧
      Through (step wellFormed) (fun m label => label.1.Fair wellFormed m label.2)
        newUserManager calls ↔
    Through (step wellFormed) (fun m label => label.1.WritesWellFormed wellFormed m)
      newUserManager calls := by
  have keep : ∀ m label m', Accepted wellFormed m → step wellFormed m label = some m' →
      Accepted wellFormed m' := by
    intro m label m' accepted taken
    cases taken
    exact accepted.exec label.2 label.1
  have iff : Always (step wellFormed) Mirror newUserManager calls ↔
      Through (step wellFormed) (fun m label => label.1.WritesWellFormed wellFormed m)
        newUserManager calls := by
    refine always_iff_through_of (Accepted wellFormed) Mirror keep (fun _ _ _ => ⟨_, rfl⟩) ?_
      accepted_new (@mirror_of_list newUserManager ⟨id, fun _ => .refl _⟩ rfl)
    intro m label m' accepted mirror taken
    cases taken
    exact mirror_called_iff accepted mirror label.2 label.1
  rw [← iff]
  -- a list that mirrors an accepted one is well formed, so that only the new key can be refused
  refine and_iff_left_of_imp fun always => ?_
  refine Always.through (fun m label both => ?_)
    (Always.and (Accepted wellFormed) keep accepted_new always)
  exact both.2.fair both.1 label.2 label.1

/-- The order of the list itself. -/
def RangeOrder.listed : RangeOrder := ⟨id, fun _ => .refl _⟩

/-- A server whose keys have four letters. -/
def fourLetters (key : String) : Bool := key.length == 4

/-- A malformed key is refused and stays in the map. `List` and `Get` report a user the server does
not have, and the well-formed key of the next user is refused with it. -/
theorem users_not_mirror :
    ∃ m m', steps (step fourLetters) newUserManager
        [(.add "alice" "good", .listed), (.update "bob" "bad", .listed)] = some m ∧
      m.server.list = [("alice", "good")] ∧ m.get "bob" = some "bad" ∧
      m.list .listed = [("bob", "bad"), ("alice", "good")] ∧ ¬ Mirror m ∧
      m.exec fourLetters .listed (.add "carol" "fine") = (m', some .malformed) ∧
      ¬ (Call.add "carol" "fine").Fair fourLetters m .listed := by
  refine ⟨_, _, rfl, by decide, by decide, by decide, fun mirror => ?_, rfl, fun fair => ?_⟩
  · exact absurd ((mirror.get "bob" "bad").mp (by decide)) (by decide)
  · obtain ⟨username, password, same, known⟩ := fair (by decide) (by decide)
    cases same
    exact absurd known (by decide)

end Histories

end SingBox.Ssmapi
