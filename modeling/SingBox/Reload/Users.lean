import Mathlib.Data.List.Basic
import SingBox.Lib.Except
import SingBox.Lib.Loop

/-!
# Reloading users in place

`ReloadUsers` of the vless, multi-user shadowsocks, snell, hysteria2 and tuic
inbounds, beside the part of their constructors that installs users. A running
inbound is the list it compares new users with and the secrets its protocol
service was last given, both by user index.

The five differ in that list: vless, shadowsocks and snell keep the users
themselves, hysteria2 and tuic only their names.

* `Effect` — everything a call can do to a built inbound, proved once for each protocol;
* `reloadUsers_built` — an inbound is always one that building it from some
  options gives;
* `reload_runs_iff` — after every successful call of a run the users are those of
  the call's options, exactly if no call changes the secret of a hysteria2 or
  tuic user and nothing else.
-/

namespace SingBox.Reload

open Lib List

/-! ## Options -/

structure VLESSUser where
  name : String
  uuid : String
  flow : String := ""
  deriving DecidableEq, Repr

structure ShadowsocksUser where
  name : String
  password : String
  deriving DecidableEq, Repr

structure SnellUser where
  name : String
  userKey : String
  deriving DecidableEq, Repr

structure Hysteria2User where
  name : String
  password : String
  deriving DecidableEq, Repr

structure TUICUser where
  name : String
  uuid : String
  password : String
  deriving DecidableEq, Repr

/-- The users of the options of an inbound; its other options install no user. -/
inductive UserOptions where
  | vless (users : List VLESSUser)
  | shadowsocks (users : List ShadowsocksUser)
  | snell (users : List SnellUser)
  | hysteria2 (users : List Hysteria2User)
  | tuic (users : List TUICUser)

/-- What a protocol service checks a client against. -/
inductive Secret where
  | uuidFlow (uuid flow : String)
  | password (password : String)
  | userKey (userKey : String)
  | uuidPassword (uuid : BitVec 128) (password : String)
  deriving DecidableEq, Repr

def VLESSUser.secret (user : VLESSUser) : Secret := .uuidFlow user.uuid user.flow
def ShadowsocksUser.secret (user : ShadowsocksUser) : Secret := .password user.password
def SnellUser.secret (user : SnellUser) : Secret := .userKey user.userKey
def Hysteria2User.secret (user : Hysteria2User) : Secret := .password user.password

/-- What the inbounds call. The shadowsocks and snell services may refuse a list,
which leaves the one before in force. -/
structure Library where
  uuidFromString : String → Except String (BitVec 128)
  shadowsocksUpdate : List Secret → Except String Unit
  snellUpdate : List Secret → Except String Unit

/-! ## Inbounds -/

/-- The list new users are compared with, and the secrets in the service. -/
structure Running (κ : Type) where
  users : Option (List κ)
  secrets : List Secret

/-- An inbound; `multi` says that the snell service is one with users. -/
inductive Inbound where
  | vless (state : Running VLESSUser)
  | shadowsocks (state : Running ShadowsocksUser)
  | snell (state : Running SnellUser) (multi : Bool)
  | hysteria2 (state : Running String)
  | tuic (state : Running String)

def Inbound.protocol : Inbound → String
  | .vless _ => "vless"
  | .shadowsocks _ => "shadowsocks"
  | .snell _ _ => "snell"
  | .hysteria2 _ => "hysteria2"
  | .tuic _ => "tuic"

/-- The names and the secrets in force, by user index. -/
structure Table where
  names : List String
  secrets : List Secret
  deriving DecidableEq, Repr

def Running.table {κ : Type} (name : κ → String) (state : Running κ) : Table :=
  ⟨(state.users.getD []).map name, state.secrets⟩

def Inbound.table : Inbound → Table
  | .vless state => state.table VLESSUser.name
  | .shadowsocks state => state.table ShadowsocksUser.name
  | .snell state _ => state.table SnellUser.name
  | .hysteria2 state => state.table id
  | .tuic state => state.table id

/-! ## Building -/

namespace Library

variable (lib : Library)

/-- The secrets of tuic users; `context` is what the caller puts before the error. -/
def tuicSecrets (context : String) : Nat → List TUICUser → Except String (List Secret)
  | _, [] => .ok []
  | index, user :: rest =>
      if user.uuid = "" then .error (context ++ "missing uuid for user " ++ toString index)
      else
        match lib.uuidFromString user.uuid with
        | .error err =>
            .error (context ++ "invalid uuid for user " ++ toString index ++ ": " ++ err)
        | .ok uuid =>
            match tuicSecrets context (index + 1) rest with
            | .error err => .error err
            | .ok secrets => .ok (.uuidPassword uuid user.password :: secrets)

/-- The secrets after a service was given a list it may refuse. -/
def updated (update : List Secret → Except String Unit) (secrets : List Secret) :
    Except String (List Secret) :=
  match update secrets with
  | .error err => .error err
  | .ok () => .ok secrets

def buildVLESS (users : List VLESSUser) : Except String (Running VLESSUser) :=
  .ok ⟨some users, users.map VLESSUser.secret⟩

def buildShadowsocks (users : List ShadowsocksUser) : Except String (Running ShadowsocksUser) :=
  if users.length > 0 then
    match updated lib.shadowsocksUpdate (users.map ShadowsocksUser.secret) with
    | .error err => .error err
    | .ok secrets => .ok ⟨some users, secrets⟩
  else .ok ⟨some users, []⟩

def buildSnell (users : List SnellUser) : Except String (Running SnellUser) :=
  if users.length > 0 then
    match updated lib.snellUpdate (users.map SnellUser.secret) with
    | .error err => .error err
    | .ok secrets => .ok ⟨some users, secrets⟩
  else .ok ⟨some users, []⟩

def buildHysteria2 (users : List Hysteria2User) : Except String (Running String) :=
  .ok ⟨some (users.map Hysteria2User.name), users.map Hysteria2User.secret⟩

def buildTUIC (users : List TUICUser) : Except String (Running String) :=
  match lib.tuicSecrets "" 0 users with
  | .error err => .error err
  | .ok secrets => .ok ⟨some (users.map TUICUser.name), secrets⟩

/-- The constructors, as far as users are concerned. -/
def build : UserOptions → Except String Inbound
  | .vless users => (buildVLESS users).map .vless
  | .shadowsocks users => (lib.buildShadowsocks users).map .shadowsocks
  | .snell users =>
      (lib.buildSnell users).map fun state => .snell state (decide (users.length > 0))
  | .hysteria2 users => (buildHysteria2 users).map .hysteria2
  | .tuic users => (lib.buildTUIC users).map .tuic

end Library

/-! ## Reloading -/

def usersAppendOnly {κ : Type} [DecidableEq κ] (old next : List κ) : Bool :=
  decide (old.length ≤ next.length) && (old.zip next).all fun pair => pair.1 == pair.2

namespace Running

variable {κ : Type} (state : Running κ)

/-- Everything after the check for an initialized inbound needs its list. -/
def withCurrent (protocol : String) (continue_ : List κ → Running κ × Option String) :
    Running κ × Option String :=
  match state.users with
  | none => (state, some (protocol ++ ": inbound not initialized"))
  | some current => continue_ current

/-- The end of every `ReloadUsers`. Nothing is pushed if the lengths agree. -/
def appendUsers [DecidableEq κ] (protocol : String) (current next : List κ)
    (update : Except String (List Secret)) : Running κ × Option String :=
  if !usersAppendOnly current next then
    (state, some (protocol ++ ": user list was not append-only, cannot reload in place"))
  else if next.length = current.length then (state, none)
  else
    match update with
    | .error err => (state, some err)
    | .ok secrets => (⟨some next, secrets⟩, none)

end Running

namespace Library

variable (lib : Library)

def reloadVLESS (state : Running VLESSUser) (users : List VLESSUser) :
    Running VLESSUser × Option String :=
  state.withCurrent "vless" fun current =>
    state.appendUsers "vless" current users (.ok (users.map VLESSUser.secret))

def reloadShadowsocks (state : Running ShadowsocksUser) (users : List ShadowsocksUser) :
    Running ShadowsocksUser × Option String :=
  state.withCurrent "shadowsocks" fun current =>
    state.appendUsers "shadowsocks" current users
      (updated lib.shadowsocksUpdate (users.map ShadowsocksUser.secret))

/-- Users can be neither added to a service without them nor dropped. -/
def reloadSnell (state : Running SnellUser) (multi : Bool) (users : List SnellUser) :
    Running SnellUser × Option String :=
  state.withCurrent "snell" fun current =>
    if current.length = 0 ∨ users.length = 0 then
      (state, some "snell: cannot add or drop the user list in place")
    else if !multi then (state, some "snell: service does not support user updates")
    else
      state.appendUsers "snell" current users
        (updated lib.snellUpdate (users.map SnellUser.secret))

/-- Only the names are compared. -/
def reloadHysteria2 (state : Running String) (users : List Hysteria2User) :
    Running String × Option String :=
  state.withCurrent "hysteria2" fun current =>
    state.appendUsers "hysteria2" current (users.map Hysteria2User.name)
      (.ok (users.map Hysteria2User.secret))

/-- Only the names are compared, after the UUIDs have been read. -/
def reloadTUIC (state : Running String) (users : List TUICUser) :
    Running String × Option String :=
  state.withCurrent "tuic" fun current =>
    match lib.tuicSecrets "tuic: " 0 users with
    | .error err => (state, some err)
    | .ok secrets => state.appendUsers "tuic" current (users.map TUICUser.name) (.ok secrets)

/-- `ReloadUsers`; `none` stands for options of any other type. -/
def reloadUsers (inbound : Inbound) (options : Option UserOptions) : Inbound × Option String :=
  match inbound, options with
  | .vless state, some (.vless users) =>
      let result := reloadVLESS state users
      (.vless result.1, result.2)
  | .shadowsocks state, some (.shadowsocks users) =>
      let result := lib.reloadShadowsocks state users
      (.shadowsocks result.1, result.2)
  | .snell state multi, some (.snell users) =>
      let result := lib.reloadSnell state multi users
      (.snell result.1 multi, result.2)
  | .hysteria2 state, some (.hysteria2 users) =>
      let result := reloadHysteria2 state users
      (.hysteria2 result.1, result.2)
  | .tuic state, some (.tuic users) =>
      let result := lib.reloadTUIC state users
      (.tuic result.1, result.2)
  | inbound, _ =>
      (inbound, some (inbound.protocol ++ ": unexpected options type for user reload"))

/-- A call of a run of reloads. -/
def step (inbound : Inbound) (options : Option UserOptions) : Turn Inbound Empty :=
  .next (lib.reloadUsers inbound options).1

end Library

/-! ## One call -/

theorem usersAppendOnly_iff {κ : Type} [DecidableEq κ] (old next : List κ) :
    usersAppendOnly old next = true ↔ old <+: next := by
  induction old generalizing next with
  | nil => simp [usersAppendOnly]
  | cons a old ih =>
    cases next with
    | nil => simp [usersAppendOnly]
    | cons b next =>
      rw [cons_prefix_cons, ← ih next]
      simp only [usersAppendOnly, length_cons, Nat.add_le_add_iff_right, zip_cons_cons,
        all_cons, Bool.and_eq_true, decide_eq_true_eq, beq_iff_eq]
      exact and_left_comm

namespace Running

variable {κ : Type} [DecidableEq κ] (state : Running κ) (protocol : String)
  (current next : List κ) (update : Except String (List Secret))

/-- The ways the end of a reload can go. The same list again is accepted, and nothing
is pushed. -/
theorem appendUsers_cases :
    (next = current ∧ state.appendUsers protocol current next update = (state, none)) ∨
    (next ≠ current ∧
      ((∃ err, state.appendUsers protocol current next update = (state, some err)) ∨
      ∃ secrets, update = .ok secrets ∧ current.length < next.length ∧
        state.appendUsers protocol current next update = (⟨some next, secrets⟩, none))) := by
  have appended := usersAppendOnly_iff current next
  unfold appendUsers
  by_cases same : next = current
  · have accepted := appended.mpr (same ▸ prefix_refl current)
    rw [accepted]
    exact .inl ⟨same, by simp [congrArg length same]⟩
  · refine .inr ⟨same, ?_⟩
    cases accepted : usersAppendOnly current next with
    | false => exact .inl ⟨_, rfl⟩
    | true =>
      have longer : current <+: next := appended.mp accepted
      -- appended to and not the same, so longer: the list is pushed
      have lengths : next.length ≠ current.length := by
        intro equal
        exact same (longer.eq_of_length equal.symm).symm
      have shorter : current.length < next.length :=
        Nat.lt_of_le_of_ne longer.length_le lengths.symm
      cases update with
      | error err => exact .inl ⟨err, by simp [lengths]⟩
      | ok secrets => exact .inr ⟨secrets, rfl, shorter, by simp [lengths]⟩

end Running

namespace Library

variable (lib : Library)

variable {users : List TUICUser} {secrets : List Secret} {state : Running String}
  {current : List String}

/-- Whether the UUIDs are read does not depend on the error text. -/
theorem tuicSecrets_ok {context context' : String} {index : Nat}
    (h : lib.tuicSecrets context index users = .ok secrets) :
    lib.tuicSecrets context' index users = .ok secrets := by
  induction users generalizing index secrets with
  | nil => exact h
  | cons user rest ih =>
    unfold tuicSecrets at h ⊢
    split at h
    · cases h
    rename_i given
    rw [if_neg given]
    cases huuid : lib.uuidFromString user.uuid with
    | error err => simp [huuid] at h
    | ok uuid =>
      cases hrest : lib.tuicSecrets context (index + 1) rest with
      | error err => simp [huuid, hrest] at h
      | ok more =>
        simp only [huuid, hrest] at h ⊢
        rw [ih hrest]
        exact h

/-- The inbound is one that its constructor makes. -/
def Built : Inbound → Prop
  | .vless state => ∃ users, buildVLESS users = .ok state
  | .shadowsocks state => ∃ users, lib.buildShadowsocks users = .ok state
  | .snell state multi =>
      ∃ users, lib.buildSnell users = .ok state ∧ multi = decide (users.length > 0)
  | .hysteria2 state => ∃ users, buildHysteria2 users = .ok state
  | .tuic state => ∃ users, lib.buildTUIC users = .ok state

theorem built_of_build {options : UserOptions} {inbound : Inbound}
    (h : lib.build options = .ok inbound) : lib.Built inbound := by
  cases options with
  | vless users | hysteria2 users =>
    cases h
    exact ⟨users, rfl⟩
  | shadowsocks users | tuic users =>
    obtain ⟨state, made, rfl⟩ := map_eq_ok.mp h
    exact ⟨users, made⟩
  | snell users =>
    obtain ⟨state, made, rfl⟩ := map_eq_ok.mp h
    exact ⟨users, made, rfl⟩

/-- The call, if it succeeds, leaves the users that building from its options installs. -/
def Installs (inbound : Inbound) (call : Option UserOptions) : Prop :=
  (lib.reloadUsers inbound call).2 = none →
    ∃ options built, call = some options ∧ lib.build options = .ok built ∧
      (lib.reloadUsers inbound call).1.table = built.table

/-- The call does not only change secrets: where the names are those in force, for
the protocols that compare nothing else, so are the secrets. -/
def KeepsSecrets (inbound : Inbound) (call : Option UserOptions) : Prop :=
  match inbound, call with
  | .hysteria2 state, some (.hysteria2 users) =>
      state.users = some (users.map Hysteria2User.name) →
        state.secrets = users.map Hysteria2User.secret
  | .tuic state, some (.tuic users) =>
      state.users = some (users.map TUICUser.name) →
        ∀ secrets, lib.tuicSecrets "tuic: " 0 users = .ok secrets → state.secrets = secrets
  | _, _ => True

theorem build_tuic {context : String} (read : lib.tuicSecrets context 0 users = .ok secrets) :
    lib.build (.tuic users) = .ok (.tuic ⟨some (users.map TUICUser.name), secrets⟩) := by
  simp only [build, buildTUIC, lib.tuicSecrets_ok read, Except.map]

/-! ## Every call -/

/-- Between lists of the same names the secrets make the difference. -/
theorem table_eq_iff {names : List String} (known : state.users = some names) :
    state.table id = (⟨some names, secrets⟩ : Running String).table id ↔
      state.secrets = secrets := by
  simp [Running.table, known]

/-- Everything a call can do: it is refused, it leaves what its options build, or it
succeeds without a change. The last happens to an inbound that compares names only. -/
inductive Effect (inbound : Inbound) (call : Option UserOptions) : Prop
  | refused (err : String) (effect : lib.reloadUsers inbound call = (inbound, some err))
      (keeps : lib.KeepsSecrets inbound call)
  | installed (options : UserOptions) (after : Inbound) (given : call = some options)
      (effect : lib.reloadUsers inbound call = (after, none))
      (made : lib.build options = .ok after) (keeps : lib.KeepsSecrets inbound call)
  | unpushed (options : UserOptions) (built : Inbound) (given : call = some options)
      (effect : lib.reloadUsers inbound call = (inbound, none))
      (made : lib.build options = .ok built)
      (keeps_iff : lib.KeepsSecrets inbound call ↔ inbound.table = built.table)

/-! ### The protocols -/

/-- Where users are compared as a whole, a call is refused or leaves what its options build. -/
theorem Effect.of_whole {κ : Type} [DecidableEq κ] (protocol : String) (next : List κ)
    (update : Except String (List Secret)) (make : Running κ → Inbound) {state : Running κ}
    {current : List κ} {construct : List κ → Except String (Running κ)} {options : UserOptions}
    (built : construct current = .ok state)
    (pushed : ∀ secrets, update = .ok secrets → current.length < next.length →
      construct next = .ok ⟨some next, secrets⟩)
    (reload : lib.reloadUsers (make state) (some options) =
      let result := state.appendUsers protocol current next update
      (make result.1, result.2))
    (made : ∀ state, construct next = .ok state → lib.build options = .ok (make state))
    (keeps : lib.KeepsSecrets (make state) (some options)) :
    lib.Effect (make state) (some options) := by
  rcases state.appendUsers_cases protocol current next update with
    ⟨rfl, same⟩ | ⟨_, ⟨err, failed⟩ | ⟨secrets, accepted, longer, done⟩⟩
  · rw [same] at reload
    exact .installed options _ rfl reload (made state built) keeps
  · rw [failed] at reload
    exact .refused err reload keeps
  · rw [done] at reload
    exact .installed options _ rfl reload (made _ (pushed secrets accepted longer)) keeps

theorem reloadUsers_vless {state : Running VLESSUser} {current : List VLESSUser}
    (built : buildVLESS current = .ok state) (users : List VLESSUser) :
    lib.Effect (.vless state) (some (.vless users)) := by
  cases built
  refine .of_whole lib "vless" users (.ok (users.map VLESSUser.secret)) .vless
    (show buildVLESS current = _ from rfl) ?_ rfl ?_ trivial
  · rintro secrets ⟨⟩ _
    rfl
  · intro state made
    simp only [build, made, Except.map]

theorem reloadUsers_shadowsocks {state : Running ShadowsocksUser} {current : List ShadowsocksUser}
    (built : lib.buildShadowsocks current = .ok state) (users : List ShadowsocksUser) :
    lib.Effect (.shadowsocks state) (some (.shadowsocks users)) := by
  have known : state.users = some current := by
    unfold buildShadowsocks at built
    split at built
    · split at built <;> cases built
      rfl
    · cases built
      rfl
  refine .of_whole lib "shadowsocks" users
    (updated lib.shadowsocksUpdate (users.map ShadowsocksUser.secret)) .shadowsocks built ?_ ?_ ?_
    trivial
  · intro secrets accepted longer
    unfold buildShadowsocks
    rw [if_pos (by omega), accepted]
  · simp only [reloadUsers, reloadShadowsocks, Running.withCurrent, known]
  · intro state made
    simp only [build, made, Except.map]

theorem reloadUsers_snell {state : Running SnellUser} {current : List SnellUser}
    (built : lib.buildSnell current = .ok state) (multi : Bool) (users : List SnellUser) :
    lib.Effect (.snell state multi) (some (.snell users)) := by
  have known : state.users = some current := by
    unfold buildSnell at built
    split at built
    · split at built <;> cases built
      rfl
    · cases built
      rfl
  have reload : lib.reloadUsers (.snell state multi) (some (.snell users)) =
      let result := lib.reloadSnell state multi users
      (.snell result.1 multi, result.2) := rfl
  simp only [reloadSnell, Running.withCurrent, known] at reload
  split at reload
  · exact .refused _ reload trivial
  -- a service without users has no way to be given some
  cases multi with
  | false => exact .refused _ reload trivial
  | true =>
    refine .of_whole lib "snell" users (updated lib.snellUpdate _) (.snell · true) built ?_ reload
      ?_ trivial
    · intro secrets accepted longer
      unfold buildSnell
      rw [if_pos (by omega), accepted]
    · intro state made
      have nonempty : 0 < users.length := by omega
      simp [build, made, Except.map, nonempty]

section

variable (known : state.users = some current)
include known

/-- Where only names are compared, a call with the same names succeeds and pushes nothing: the
secrets have to be right already. -/
theorem Effect.of_names (protocol : String) {make : Running String → Inbound}
    {names : List String} {options : UserOptions}
    (table : ∀ state, (make state).table = state.table id)
    (reload : lib.reloadUsers (make state) (some options) =
      let result := state.appendUsers protocol current names (.ok secrets)
      (make result.1, result.2))
    (made : lib.build options = .ok (make ⟨some names, secrets⟩))
    (keeps : lib.KeepsSecrets (make state) (some options) ↔
      (state.users = some names → state.secrets = secrets)) :
    lib.Effect (make state) (some options) := by
  rcases state.appendUsers_cases protocol current names (.ok secrets) with
    ⟨rfl, done⟩ | ⟨changed, done⟩
  · rw [done] at reload
    refine .unpushed options _ rfl reload made ?_
    rw [keeps, table, table, table_eq_iff known]
    exact forall_prop_of_true known
  · have keeps := keeps.mpr fun same =>
      absurd (Option.some.inj (known.symm.trans same)).symm changed
    rcases done with ⟨err, failed⟩ | ⟨_, ⟨⟩, _, pushed⟩
    · rw [failed] at reload
      exact .refused err reload keeps
    · rw [pushed] at reload
      exact .installed options _ rfl reload made keeps

theorem reloadUsers_hysteria2 (users : List Hysteria2User) :
    lib.Effect (.hysteria2 state) (some (.hysteria2 users)) := by
  refine .of_names lib known "hysteria2" (fun _ => rfl) ?_ rfl Iff.rfl
  simp only [reloadUsers, reloadHysteria2, Running.withCurrent, known]

theorem reloadUsers_tuic (users : List TUICUser) :
    lib.Effect (.tuic state) (some (.tuic users)) := by
  cases read : lib.tuicSecrets "tuic: " 0 users with
  | error err =>
    apply Effect.refused err
    · simp only [reloadUsers, reloadTUIC, Running.withCurrent, known, read]
    · intro _ secrets readable
      rw [read] at readable
      cases readable
  | ok secrets =>
    refine .of_names lib known "tuic" (fun _ => rfl) ?_ (lib.build_tuic read) ?_
    · simp only [reloadUsers, reloadTUIC, Running.withCurrent, known, read]
    · simp [KeepsSecrets, read]

end

variable (inbound : Inbound)

section

variable (call : Option UserOptions)
include call

theorem reloadUsers_effect (built : lib.Built inbound) : lib.Effect inbound call := by
  rcases call with _ | options
  · cases inbound <;> exact .refused _ rfl trivial
  cases inbound with
  | vless state =>
    cases options with
    | vless users =>
      obtain ⟨current, made⟩ := built
      exact lib.reloadUsers_vless made users
    | _ => exact .refused _ rfl trivial
  | shadowsocks state =>
    cases options with
    | shadowsocks users =>
      obtain ⟨current, made⟩ := built
      exact lib.reloadUsers_shadowsocks made users
    | _ => exact .refused _ rfl trivial
  | snell state multi =>
    cases options with
    | snell users =>
      obtain ⟨current, made, _⟩ := built
      exact lib.reloadUsers_snell made multi users
    | _ => exact .refused _ rfl trivial
  | hysteria2 state =>
    cases options with
    | hysteria2 users =>
      obtain ⟨current, made⟩ := built
      cases made
      exact lib.reloadUsers_hysteria2 rfl users
    | _ => exact .refused _ rfl trivial
  | tuic state =>
    cases options with
    | tuic users =>
      obtain ⟨current, made⟩ := built
      unfold buildTUIC at made
      split at made <;> cases made
      exact lib.reloadUsers_tuic rfl users
    | _ => exact .refused _ rfl trivial

theorem reloadUsers_built (built : lib.Built inbound) :
    lib.Built (lib.reloadUsers inbound call).1 := by
  cases lib.reloadUsers_effect inbound call built with
  | refused err effect | unpushed options after given effect =>
    rw [effect]
    exact built
  | installed options after given effect made keeps =>
    rw [effect]
    exact lib.built_of_build made

/-- A call installs the users of its options exactly if it does not only change secrets. -/
theorem installs_iff (built : lib.Built inbound) :
    lib.Installs inbound call ↔ lib.KeepsSecrets inbound call := by
  unfold Installs
  cases lib.reloadUsers_effect inbound call built with
  | refused err effect keeps =>
    rw [effect]
    refine iff_of_true ?_ keeps
    intro success
    cases success
  | installed options after given effect made keeps =>
    rw [effect]
    exact iff_of_true (fun _ => ⟨options, after, given, made, rfl⟩) keeps
  | unpushed options after given effect made keeps_iff =>
    rw [effect, keeps_iff]
    constructor
    · intro installs
      obtain ⟨options', after', given', made', tables⟩ := installs rfl
      cases given.symm.trans given'
      cases made.symm.trans made'
      exact tables
    · intro tables _
      exact ⟨options, after, given, made, tables⟩

end

/-- In a run of calls every successful one installs the users of its options,
exactly if none only changes the secret of a hysteria2 or tuic user. -/
theorem reload_runs_iff (options : UserOptions) (inbound : Inbound)
    (h : lib.build options = .ok inbound) (calls : List (Option UserOptions)) :
    Along lib.step lib.Installs inbound calls ↔ Along lib.step lib.KeepsSecrets inbound calls := by
  apply along_congr lib.Built
  · intro inbound call built
    exact lib.installs_iff inbound call built
  · intro inbound call built _
    exact lib.reloadUsers_built inbound call built
  · exact lib.built_of_build h

end Library

/-! ### A changed password -/

/-- Services that accept every list; no UUID is given to read. -/
def acceptingLibrary : Library where
  uuidFromString _ := .error "uuid: incorrect UUID length 0 in string"
  shadowsocksUpdate _ := .ok ()
  snellUpdate _ := .ok ()

def aliceOld : Hysteria2User := ⟨"alice", "old"⟩
def aliceNew : Hysteria2User := ⟨"alice", "new"⟩
def bob : Hysteria2User := ⟨"bob", "secret"⟩

def aliceInbound : Inbound := .hysteria2 ⟨some ["alice"], [.password "old"]⟩

/-- The reload of a changed password succeeds, and the old one stays in force. -/
theorem reloadUsers_keeps_old_password :
    acceptingLibrary.build (.hysteria2 [aliceOld]) = .ok aliceInbound ∧
    (acceptingLibrary.reloadUsers aliceInbound (some (.hysteria2 [aliceNew]))).2 = none ∧
    (acceptingLibrary.reloadUsers aliceInbound (some (.hysteria2 [aliceNew]))).1.table =
      ⟨["alice"], [.password "old"]⟩ ∧
    ¬ acceptingLibrary.Installs aliceInbound (some (.hysteria2 [aliceNew])) := by
  refine ⟨rfl, by decide, by decide, ?_⟩
  intro installs
  obtain ⟨options, built, hcall, hbuild, htable⟩ := installs (by decide)
  cases hcall
  cases hbuild
  exact absurd htable (by decide)

/-- Appending a user, options of another type and the same list again are fine. -/
theorem reload_appended_users :
    Along acceptingLibrary.step acceptingLibrary.Installs aliceInbound
      [some (.hysteria2 [aliceOld, bob]), none, some (.hysteria2 [aliceOld, bob])] := by
  apply (acceptingLibrary.reload_runs_iff (.hysteria2 [aliceOld]) aliceInbound rfl _).mpr
  refine ⟨?_, ?_⟩
  · intro sameNames
    exact absurd sameNames (by decide)
  refine ⟨trivial, ?_⟩
  refine ⟨fun _ => rfl, trivial⟩

end SingBox.Reload
