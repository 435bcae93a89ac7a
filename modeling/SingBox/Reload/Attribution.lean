import Mathlib.Data.List.Infix
import SingBox.Lib.System
import SingBox.Reload.Users

/-!
# Whose connection it is

An inbound keeps the secrets of its users in the protocol service and their names in a
list of its own. A connection is authenticated by the service, which yields the index of
the user, and is named later from the list. An update swaps the two one after the other,
so a connection can be authenticated against one list and named from another.

The updates are `ReloadUsers` of vless, which checks that users are only appended, and
`UpdateUsers` of shadowsocks, which its only caller, the user manager of the SSM API,
calls under a lock with its map in any order.

* `step_consistent` — an update that is alone and keeps the names where they are keeps
  every authenticated connection's index pointing at its name;
* `userName_iff` — then a connection is named after its user, or has no name while
  the update that added its user has not yet stored the names.
-/

namespace SingBox.Reload.Attribution

open Lib List

/-! ## Two tables -/

/-- An update of the users, in progress. -/
inductive Update (κ : Type) where
  | pushing (users : List κ)
  | storing (users : List κ)
  deriving DecidableEq

/-- An authenticated connection. The code carries the index only; `user` is whom the
service held at that index at the time. -/
structure Conn (κ : Type) where
  index : Nat
  user : κ
  deriving DecidableEq

/-- `μ` is the state of whoever calls the updates. -/
structure State (κ μ : Type) where
  manager : μ
  /-- The list names are looked up in. -/
  users : List κ
  /-- The list the service was last given. -/
  service : List κ
  updates : List (Update κ)
  conns : Nat → Option (Conn κ)

def State.start {κ μ : Type} (manager : μ) (users : List κ) : State κ μ :=
  ⟨manager, users, users, [], fun _ => none⟩

/-- What an inbound does its own way. -/
structure Protocol (κ μ α : Type) where
  name : κ → String
  secret : κ → String
  /-- An update up to what it pushes, from the names in force and whether another one is
  in progress: `none` if it has to wait, no list if it returns without pushing one. -/
  begins : μ → List κ → Bool → α → Option (μ × Option (List κ))
  fallible : Bool
  /-- What is kept of the users in the list of names. -/
  stored : List κ → List κ
  stored_name : ∀ users, (stored users).map name = users.map name

inductive Label (α : Type) where
  | begins (arg : α)
  | push (update : Nat) (refused : Bool)
  | store (update : Nat)
  | authenticate (conn : Nat) (secret : String)

namespace Protocol

variable {κ μ α : Type} (p : Protocol κ μ α)

def names (users : List κ) : List String := users.map p.name

/-- The index stored with a secret: the service is a map filled in order. -/
def indexOf (service : List κ) (secret : String) : Option (Conn κ) :=
  (service.zipIdx.reverse.find? fun entry => p.secret entry.1 = secret).map fun entry =>
    ⟨entry.2, entry.1⟩

def userName (s : State κ μ) (index : Nat) : String :=
  match s.users[index]? with
  | none => ""
  | some user => p.name user

def step (s : State κ μ) : Label α → Option (State κ μ)
  | .begins arg =>
      match p.begins s.manager s.users (!s.updates.isEmpty) arg with
      | none => none
      | some (manager, none) => some { s with manager }
      | some (manager, some users) =>
          some { s with manager, updates := s.updates ++ [.pushing users] }
  | .push update refused =>
      match s.updates[update]? with
      | some (.pushing users) =>
          if refused then
            if p.fallible then some { s with updates := s.updates.eraseIdx update } else none
          else
            some { s with service := users, updates := s.updates.set update (.storing users) }
      | _ => none
  | .store update =>
      match s.updates[update]? with
      | some (.storing users) =>
          some { s with users := p.stored users, updates := s.updates.eraseIdx update }
      | _ => none
  | .authenticate conn secret =>
      match p.indexOf s.service secret with
      | none => none
      | some found => some { s with conns := Function.update s.conns conn (some found) }

end Protocol

/-! ## The two protocols -/

/-- `ReloadUsers` of vless; nothing keeps two calls apart. -/
def vless : Protocol VLESSUser Unit (List VLESSUser) where
  name := VLESSUser.name
  secret := VLESSUser.uuid
  begins _ current _ users :=
    if !usersAppendOnly current users then some ((), none)
    else if users.length = current.length then some ((), none)
    else some ((), some users)
  fallible := false
  stored := id
  stored_name _ := rfl

/-- The map of a `UserManager`, by name. -/
abbrev UsersMap := List (String × String)

inductive Change where
  | add (username password : String)
  | update (username password : String)
  | delete (username : String)

def UsersMap.without (m : UsersMap) (username : String) : UsersMap :=
  m.filter fun entry => entry.1 ≠ username

/-- `UserManager.Add`, `Update` and `Delete` up to `postUpdate`; adding a user that is
there is refused. -/
def Change.apply (m : UsersMap) : Change → Option UsersMap
  | .add username password =>
      if m.any fun entry => entry.1 = username then none else some ((username, password) :: m)
  | .update username password => some ((username, password) :: m.without username)
  | .delete username => some (m.without username)

/-- `UpdateUsers` of shadowsocks, as `postUpdate` calls it: under the manager's lock and
with the users in the order the map was ranged over. The passwords are not stored. -/
def shadowsocks : Protocol ShadowsocksUser UsersMap (Change × List ShadowsocksUser) where
  name := ShadowsocksUser.name
  secret := ShadowsocksUser.password
  begins m _ running arg :=
    if running then none
    else
      match arg.1.apply m with
      | none => some (m, none)
      | some next =>
          if arg.2.Perm (next.map fun entry => ⟨entry.1, entry.2⟩) then some (next, some arg.2)
          else none
  fallible := true
  stored users := users.map fun user => ⟨user.name, ""⟩
  stored_name users := by simp

/-! ## Updates that keep the names -/

section Orderly

variable {κ μ α : Type} (p : Protocol κ μ α)

def OneAtATime (s : State κ μ) : Label α → Prop
  | .begins _ => s.updates = []
  | _ => True

/-- An update pushes a list that has every name in force where it is now. -/
def KeepsNames (s : State κ μ) : Label α → Prop
  | .begins arg =>
      ∀ users ∈ (p.begins s.manager s.users (!s.updates.isEmpty) arg).bind Prod.snd,
        p.names s.service <+: p.names users
  | _ => True

instance [DecidableEq κ] (s : State κ μ) (l : Label α) : Decidable (OneAtATime s l) := by
  cases l <;> unfold OneAtATime <;> infer_instance

instance (s : State κ μ) (l : Label α) : Decidable (KeepsNames p s l) := by
  cases l <;> unfold KeepsNames <;> infer_instance

/-- How far an update that is alone has come. -/
inductive Progress : List κ → List κ → List (Update κ) → Prop where
  | idle {users service} (same : p.names users = p.names service) : Progress users service []
  | pushing {users service next} (same : p.names users = p.names service)
      (extends_ : p.names service <+: p.names next) : Progress users service [.pushing next]
  | storing {users next} (extends_ : p.names users <+: p.names next) :
      Progress users next [.storing next]

structure Consistent (s : State κ μ) : Prop where
  progress : Progress p s.users s.service s.updates
  attributed : ∀ n c, s.conns n = some c → (p.names s.service)[c.index]? = some (p.name c.user)

variable {p}

theorem Progress.extends_names {users service : List κ} {updates : List (Update κ)}
    (h : Progress p users service updates) : p.names users <+: p.names service := by
  cases h with
  | idle same | pushing same _ => exact same ▸ prefix_refl _
  | storing extends_ => exact extends_

theorem consistent_start (manager : μ) (users : List κ) :
    Consistent p (State.start manager users) :=
  ⟨.idle rfl, by simp [State.start]⟩

variable {c : Conn κ} {s : State κ μ} {n : Nat}

theorem indexOf_getElem {service : List κ} {secret : String}
    (h : p.indexOf service secret = some c) : service[c.index]? = some c.user := by
  obtain ⟨entry, found, rfl⟩ := Option.map_eq_some_iff.mp h
  have mem : entry ∈ service.zipIdx := mem_reverse.mp (mem_of_find?_eq_some found)
  simpa using mem_zipIdx_iff_getElem?.mp mem

/-- The index of a connection stays right when its list is extended. -/
theorem Consistent.attributed_of_extends (inv : Consistent p s) {next : List κ}
    (extends_ : p.names s.service <+: p.names next) (h : s.conns n = some c) :
    (p.names next)[c.index]? = some (p.name c.user) := by
  obtain ⟨rest, append⟩ := extends_
  have there := inv.attributed n c h
  have within := (List.getElem?_eq_some_iff.mp there).1
  rw [← append, getElem?_append_left within, there]

theorem step_consistent {s' : State κ μ} {l : Label α} (inv : Consistent p s)
    (alone : OneAtATime s l) (keeps : KeepsNames p s l) (h : p.step s l = some s') :
    Consistent p s' := by
  obtain ⟨manager, users, service, updates, conns⟩ := s
  have progress : Progress p users service updates := inv.progress
  cases l with
  | begins arg =>
    obtain rfl : updates = [] := alone
    cases progress with | idle same =>
    simp only [Protocol.step] at h
    split at h
    · cases h
    · cases h
      exact ⟨.idle same, inv.attributed⟩
    · rename_i begun
      cases h
      exact ⟨.pushing same (keeps _ (by rw [begun]; rfl)), inv.attributed⟩
  | push update refused =>
    simp only [Protocol.step] at h
    cases progress with
    | idle _ => cases h
    | pushing same extends_ =>
      cases update with
      | succ _ => cases h
      | zero =>
        simp only [getElem?_cons_zero, eraseIdx_cons_zero, set_cons_zero] at h
        split at h
        · split at h
          · cases h
            exact ⟨.idle same, inv.attributed⟩
          · cases h
        · cases h
          exact ⟨.storing (same ▸ extends_), fun n c => inv.attributed_of_extends extends_⟩
    | storing _ => cases update <;> cases h
  | store update =>
    cases progress with
    | idle _ => cases h
    | pushing _ _ => cases update <;> cases h
    | storing _ =>
      cases update with
      | succ _ => cases h
      | zero =>
        cases h
        exact ⟨.idle (p.stored_name _), inv.attributed⟩
  | authenticate conn secret =>
    simp only [Protocol.step] at h
    split at h
    · cases h
    rename_i found matched
    cases h
    refine ⟨progress, fun n c taken => ?_⟩
    by_cases new : n = conn
    · subst new
      obtain rfl : found = c := by simpa using taken
      simp [Protocol.names, indexOf_getElem matched]
    · exact inv.attributed n c (by simpa [Function.update_of_ne new] using taken)

/-- What a connection is named: after its user if the list of names is long enough. -/
theorem Consistent.userName (inv : Consistent p s) (h : s.conns n = some c) :
    p.userName s c.index = if c.index < s.users.length then p.name c.user else "" := by
  unfold Protocol.userName
  split
  · rename_i outside
    rw [if_neg (by simpa using outside)]
  · rename_i user found
    obtain ⟨within, -⟩ := List.getElem?_eq_some_iff.mp found
    rw [if_pos within]
    have named : (p.names s.users)[c.index]? = some (p.name user) := by
      simp [Protocol.names, found]
    obtain ⟨rest, append⟩ := inv.progress.extends_names
    have there := inv.attributed n c h
    rw [← append, getElem?_append_left (by simpa [Protocol.names] using within)] at there
    exact Option.some.inj (named.symm.trans there)

theorem Consistent.within (inv : Consistent p s) (idle : s.updates = []) (h : s.conns n = some c) :
    c.index < s.users.length := by
  obtain ⟨within, -⟩ := List.getElem?_eq_some_iff.mp (inv.attributed n c h)
  have progress := inv.progress
  rw [idle] at progress
  cases progress with
  | idle same =>
    rw [← same] at within
    simpa [Protocol.names] using within

end Orderly

/-! ## Runs -/

/-- The check of `ReloadUsers` keeps the names, if nothing else is in progress. -/
theorem vless_keepsNames {s : State VLESSUser Unit} {l : Label (List VLESSUser)}
    (inv : Consistent vless s) (alone : OneAtATime s l) : KeepsNames vless s l := by
  cases l with
  | begins users =>
    have progress := inv.progress
    rw [show s.updates = [] from alone] at progress
    cases progress with | idle same =>
    intro pushed mem
    simp only [vless] at mem
    split at mem
    · cases mem
    rename_i appended
    split at mem <;> cases mem
    have extends_ := (usersAppendOnly_iff s.users users).mp (by simpa using appended)
    exact same ▸ extends_.map _
  | _ => trivial

/-- The lock of the manager keeps its updates apart. -/
theorem shadowsocks_oneAtATime {s s' : State ShadowsocksUser UsersMap}
    {l : Label (Change × List ShadowsocksUser)} (h : shadowsocks.step s l = some s') :
    OneAtATime s l := by
  cases l with
  | begins arg =>
    cases running : s.updates.isEmpty with
    | true => exact List.isEmpty_iff.mp running
    | false => simp [Protocol.step, shadowsocks, running] at h
  | _ => trivial

section Named

variable {κ μ α : Type} (p : Protocol κ μ α) (s : State κ μ) (c : Conn κ)

/-- A connection is named after its user, and not otherwise, if the index is in the list
of names; it is if no update is in progress. It never has another user's name. -/
structure Named : Prop where
  iff : p.name c.user ≠ "" → (p.userName s c.index = p.name c.user ↔ c.index < s.users.length)
  idle : s.updates = [] → c.index < s.users.length
  never_other : p.userName s c.index = p.name c.user ∨ p.userName s c.index = ""

variable {p s c}

theorem Consistent.named (inv : Consistent p s) {n : Nat} (h : s.conns n = some c) :
    Named p s c := by
  have name := inv.userName h
  refine ⟨fun nonempty => ?_, fun idle => inv.within idle h, ?_⟩
  · rw [name]
    by_cases within : c.index < s.users.length
    · simp [within]
    · simp [within, nonempty.symm]
  · rw [name]
    by_cases within : c.index < s.users.length
    · exact .inl (if_pos within)
    · exact .inr (if_neg within)

end Named

/-- Which name a connection gets, if the reloads of a vless inbound come one at a time,
and if the manager of a shadowsocks inbound ranges over its map so that every name in
force keeps its place. -/
theorem userName_iff (users : List VLESSUser) (reloads : List (Label (List VLESSUser)))
    (m : UsersMap) (accounts : List ShadowsocksUser)
    (changes : List (Label (Change × List ShadowsocksUser))) :
    (∀ s, Through vless.step OneAtATime (.start () users) reloads →
      steps vless.step (.start () users) reloads = some s →
      ∀ n c, s.conns n = some c → Named vless s c) ∧
    (∀ s, Through shadowsocks.step (KeepsNames shadowsocks) (.start m accounts) changes →
      steps shadowsocks.step (.start m accounts) changes = some s →
      ∀ n c, s.conns n = some c → Named shadowsocks s c) := by
  refine ⟨fun s alone run n c => Consistent.named ?_, fun s keeps run n c => Consistent.named ?_⟩
  · refine steps_invariant_through (Consistent vless) ?_ (consistent_start () users) alone run
    exact fun _ _ _ inv alone taken => step_consistent inv alone (vless_keepsNames inv alone) taken
  · refine steps_invariant_through (Consistent shadowsocks) ?_ (consistent_start m accounts) keeps
      run
    exact fun _ _ _ inv keeps taken =>
      step_consistent inv (shadowsocks_oneAtATime taken) keeps taken

/-- A vless user added by a reload connects before the names are stored, and is named
after; a shadowsocks user connects before the password of another one changes. -/
theorem userName_iff_runs :
    (let users : List VLESSUser := [⟨"alice", "a", ""⟩]
    let labels : List (Label (List VLESSUser)) :=
      [.begins (users ++ [⟨"bob", "b", ""⟩]), .push 0 false, .authenticate 0 "b", .store 0]
    ∃ s c, steps vless.step (.start () users) labels = some s ∧ s.conns 0 = some c ∧
      vless.userName s c.index = "bob") ∧
    (let m : UsersMap := [("alice", "a"), ("bob", "b")]
    let users : List ShadowsocksUser := [⟨"alice", "a"⟩, ⟨"bob", "b"⟩]
    let labels : List (Label (Change × List ShadowsocksUser)) :=
      [.authenticate 0 "b", .begins (.update "alice" "c", [⟨"alice", "c"⟩, ⟨"bob", "b"⟩]),
        .push 0 false, .store 0]
    ∃ s c, steps shadowsocks.step (.start m users) labels = some s ∧ s.conns 0 = some c ∧
      shadowsocks.userName s c.index = "bob") := by
  constructor
  · intro users labels
    obtain ⟨s, c, run, conn, user, idle⟩ : ∃ s c,
        steps vless.step (.start () users) labels = some s ∧ s.conns 0 = some c ∧
        vless.name c.user = "bob" ∧ s.updates = [] := ⟨_, _, rfl, rfl, rfl, rfl⟩
    have named := (userName_iff users labels [] [] []).1 s (by decide) run 0 c conn
    refine ⟨s, c, run, conn, ?_⟩
    rw [← user]
    exact (named.iff (by rw [user]; decide)).mpr (named.idle idle)
  · intro m users labels
    obtain ⟨s, c, run, conn, user, idle⟩ : ∃ s c,
        steps shadowsocks.step (.start m users) labels = some s ∧ s.conns 0 = some c ∧
        shadowsocks.name c.user = "bob" ∧ s.updates = [] := ⟨_, _, rfl, rfl, rfl, rfl⟩
    have named := (userName_iff [] [] m users labels).2 s (by decide) run 0 c conn
    refine ⟨s, c, run, conn, ?_⟩
    rw [← user]
    exact (named.iff (by rw [user]; decide)).mpr (named.idle idle)

/-- Connections that do not get the name of their user: one authenticated while a vless
reload has pushed its user and not stored the names, one authenticated before a
shadowsocks update that lists the same users in another order, and one authenticated
while two vless reloads overlap. -/
theorem userName_misattributed :
    (let labels : List (Label (List VLESSUser)) :=
      [.begins [⟨"alice", "a", ""⟩, ⟨"bob", "b", ""⟩], .push 0 false, .authenticate 0 "b"]
    Through vless.step OneAtATime (.start () [⟨"alice", "a", ""⟩]) labels ∧
    ∃ s c, steps vless.step (.start () [⟨"alice", "a", ""⟩]) labels = some s ∧
      s.conns 0 = some c ∧ c.user.name = "bob" ∧ vless.userName s c.index = "") ∧
    (let labels : List (Label (Change × List ShadowsocksUser)) :=
      [.authenticate 0 "b",
        .begins (.add "carol" "c", [⟨"bob", "b"⟩, ⟨"alice", "a"⟩, ⟨"carol", "c"⟩]),
        .push 0 false, .store 0]
    ∃ s c, steps shadowsocks.step
        (.start [("alice", "a"), ("bob", "b")] [⟨"alice", "a"⟩, ⟨"bob", "b"⟩]) labels = some s ∧
      s.conns 0 = some c ∧ c.user.name = "bob" ∧ shadowsocks.userName s c.index = "alice") ∧
    (let labels : List (Label (List VLESSUser)) :=
      [.begins [⟨"alice", "a", ""⟩], .begins [⟨"bob", "b", ""⟩], .push 0 false, .push 1 false,
        .store 1, .store 0, .authenticate 0 "b"]
    ∃ s c, steps vless.step (.start () []) labels = some s ∧
      s.conns 0 = some c ∧ c.user.name = "bob" ∧ vless.userName s c.index = "alice") := by
  refine ⟨⟨by decide, _, _, rfl, rfl, rfl, rfl⟩, ⟨_, _, rfl, rfl, rfl, rfl⟩, ?_⟩
  exact ⟨_, _, rfl, rfl, rfl, rfl⟩

end SingBox.Reload.Attribution
