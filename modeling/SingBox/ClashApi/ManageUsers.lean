import SingBox.Lib.Bytes
import SingBox.Lib.Except
import SingBox.Lib.FirstMatch
import SingBox.Lib.System

/-!
# Users of an inbound, through the API

The requests that add, replace and remove a user of an inbound in the configuration file. The
switches of the source over the type of the inbound differ in the type of the users and in the
field that holds the name, so here the users of an inbound have the type that belongs to its
protocol, and the loops are written once.

* `Keyed` — the names of an inbound's users are distinct and not empty;
* `Keyed.byName` — then a request for a user by name is about that user only;
* `names_keyed_iff` — accepted requests keep the names so if and only if no update gives a user an
  empty name or that of another one.
-/

namespace SingBox.ClashApi.Manage

open Lib List

/-! ## Users -/

structure ShadowsocksUser where
  name : String
  password : String

structure VMessUser where
  name : String
  uuid : String
  alterId : Int

structure TrojanUser where
  name : String
  password : String

structure VLESSUser where
  name : String
  uuid : String
  flow : String

structure Hysteria2User where
  name : String
  password : String

structure HysteriaUser where
  name : String
  auth : Bytes
  authString : String

structure TUICUser where
  name : String
  uuid : String
  password : String

structure SSHUser where
  user : String
  password : String
  publicKey : String

structure MieruUser where
  name : String
  password : String

structure ShadowTLSUser where
  name : String
  password : String

structure AnyTLSUser where
  name : String
  password : String

structure SnellUser where
  name : String
  userKey : String

/-- `auth.User` of the sing library. -/
structure AuthUser where
  username : String
  password : String

/-- `inbound.Type`; `other` are the types without users. -/
inductive Protocol where
  | shadowsocks
  | vmess
  | trojan
  | vless
  | hysteria2
  | hysteria
  | tuic
  | ssh
  | mieru
  | shadowTLS
  | anyTLS
  | snell
  | naive
  | socks
  | http
  | mixed
  | other (name : String)
  deriving DecidableEq

/-- The users that `inbound.Options` holds for a type. -/
def Protocol.User : Protocol → Type
  | .shadowsocks => ShadowsocksUser
  | .vmess => VMessUser
  | .trojan => TrojanUser
  | .vless => VLESSUser
  | .hysteria2 => Hysteria2User
  | .hysteria => HysteriaUser
  | .tuic => TUICUser
  | .ssh => SSHUser
  | .mieru => MieruUser
  | .shadowTLS => ShadowTLSUser
  | .anyTLS => AnyTLSUser
  | .snell => SnellUser
  | .naive | .socks | .http | .mixed => AuthUser
  | .other _ => Empty

def getUserName : {type : Protocol} → type.User → String
  | .shadowsocks, user => ShadowsocksUser.name user
  | .vmess, user => VMessUser.name user
  | .trojan, user => TrojanUser.name user
  | .vless, user => VLESSUser.name user
  | .hysteria2, user => Hysteria2User.name user
  | .hysteria, user => HysteriaUser.name user
  | .tuic, user => TUICUser.name user
  | .ssh, user => SSHUser.user user
  | .mieru, user => MieruUser.name user
  | .shadowTLS, user => ShadowTLSUser.name user
  | .anyTLS, user => AnyTLSUser.name user
  | .snell, user => SnellUser.name user
  | .naive, user | .socks, user | .http, user | .mixed, user => AuthUser.username user
  | .other _, user => Empty.elim user

/-- `option.Inbound`: `rest` is what no request about users changes. -/
structure Inbound (ρ : Type) where
  tag : String
  type : Protocol
  users : List type.User
  rest : ρ

/-- What `writeModifyError` tells apart. -/
inductive ApiError where
  | notFound
  | conflict (message : String)
  | other (message : String)
  deriving DecidableEq, Repr

variable {ρ : Type}

/-- The default case of the switches. -/
def unsupported : Protocol → Option ApiError
  | .other name => some (.other ("protocol " ++ name ++ " does not support users"))
  | _ => none

/-- `json.Unmarshal` into the user type of a protocol. -/
abbrev Unmarshal := (type : Protocol) → Bytes → Except String type.User

def unmarshalUser (unmarshal : Unmarshal) (type : Protocol) (body : Bytes) :
    Except ApiError type.User :=
  match unsupported type with
  | some err => .error err
  | none =>
      match unmarshal type body with
      | .error err => .error (.other err)
      | .ok user => .ok user

namespace Inbound

variable (inbound : Inbound ρ)

def getInboundUsers : Except ApiError (List inbound.type.User) :=
  match unsupported inbound.type with
  | some err => .error err
  | none => .ok inbound.users

def addUserToInbound (user : inbound.type.User) : Except ApiError (Inbound ρ) :=
  match unsupported inbound.type with
  | some err => .error err
  | none => .ok { inbound with users := inbound.users ++ [user] }

/-- `u.Name == name`, with the field of the type. -/
def named (name : String) (user : inbound.type.User) : Bool := decide (getUserName user = name)

def removeUserFromInbound (name : String) : Except ApiError (Inbound ρ) :=
  match unsupported inbound.type with
  | some err => .error err
  | none =>
      match removeFirst (inbound.named name) inbound.users with
      | some users => .ok { inbound with users }
      | none => .error .notFound

def replaceUserInInbound (name : String) (user : inbound.type.User) :
    Except ApiError (Inbound ρ) :=
  match unsupported inbound.type with
  | some err => .error err
  | none =>
      match replaceFirst (inbound.named name) user inbound.users with
      | some users => .ok { inbound with users }
      | none => .error .notFound

/-- What `addUser` does to the inbound it found. -/
def addUser (unmarshal : Unmarshal) (body : Bytes) : Except ApiError (Inbound ρ) := do
  let user ← unmarshalUser unmarshal inbound.type body
  let userName := getUserName user
  if userName = "" then throw (.other "user name is required")
  let existing ← inbound.getInboundUsers
  if existing.any (inbound.named userName) then
    throw (.conflict ("user " ++ userName ++ " already exists"))
  inbound.addUserToInbound user

/-- What `updateUser` does to the inbound it found. The name in the body is not looked at. -/
def updateUser (unmarshal : Unmarshal) (name : String) (body : Bytes) :
    Except ApiError (Inbound ρ) := do
  let user ← unmarshalUser unmarshal inbound.type body
  inbound.replaceUserInInbound name user

def deleteUser (name : String) : Except ApiError (Inbound ρ) := inbound.removeUserFromInbound name

end Inbound

/-! ## Requests -/

/-- `for i, inbound := range options.Inbounds { if inbound.Tag == tag { … } }`. -/
def modifyInbound (tag : String) (modify : Inbound ρ → Except ApiError (Inbound ρ)) :
    List (Inbound ρ) → Except ApiError (List (Inbound ρ))
  | [] => .error .notFound
  | inbound :: rest =>
      if inbound.tag = tag then (modify inbound).map (· :: rest)
      else (modifyInbound tag modify rest).map (inbound :: ·)

inductive Request where
  | addUser (tag : String) (body : Bytes)
  | updateUser (tag name : String) (body : Bytes)
  | deleteUser (tag name : String)

def Request.tag : Request → String
  | .addUser tag _ => tag
  | .updateUser tag _ _ => tag
  | .deleteUser tag _ => tag

def Request.modify (unmarshal : Unmarshal) (request : Request) (inbound : Inbound ρ) :
    Except ApiError (Inbound ρ) :=
  match request with
  | .addUser _ body => inbound.addUser unmarshal body
  | .updateUser _ name body => inbound.updateUser unmarshal name body
  | .deleteUser _ name => inbound.deleteUser name

/-- How reading and writing of the file end during a request. -/
structure FileOutcome where
  readErr : Option String := none
  writeErr : Option String := none

/-- `ModifyConfig`, on the inbounds of the file: what is in the file afterwards, and the error. -/
def ModifyConfig (file : FileOutcome)
    (modifier : List (Inbound ρ) → Except ApiError (List (Inbound ρ)))
    (inbounds : List (Inbound ρ)) : List (Inbound ρ) × Option ApiError :=
  match file.readErr with
  | some err => (inbounds, some (.other err))
  | none =>
      match modifier inbounds with
      | .error err => (inbounds, some err)
      | .ok modified =>
          match file.writeErr with
          | some err => (inbounds, some (.other err))
          | none => (modified, none)

/-- A request and what happened to the file meanwhile. -/
structure Call where
  request : Request
  file : FileOutcome := {}

def serve (unmarshal : Unmarshal) (inbounds : List (Inbound ρ)) (call : Call) :
    List (Inbound ρ) × Option ApiError :=
  ModifyConfig call.file (modifyInbound call.request.tag (call.request.modify unmarshal)) inbounds

def accept (unmarshal : Unmarshal) (inbounds : List (Inbound ρ)) (call : Call) :
    Option (List (Inbound ρ)) :=
  let served := serve unmarshal inbounds call
  if served.2 = none then some served.1 else none

variable {unmarshal : Unmarshal} {inbounds : List (Inbound ρ)} {call : Call}
  {inbounds' : List (Inbound ρ)} {type : Protocol}

theorem serve_refused (refused : (serve unmarshal inbounds call).2 ≠ none) :
    (serve unmarshal inbounds call).1 = inbounds := by
  unfold serve ModifyConfig at refused ⊢
  split
  · rfl
  · split
    · rfl
    · split
      · rfl
      · simp_all

/-- A user exists only for a type that has users. -/
theorem unsupported_of_user (user : type.User) : unsupported type = none := by
  cases type with
  | other name => exact user.elim
  | _ => rfl

namespace Inbound

variable {inbound inbound' : Inbound ρ} {unmarshal : Unmarshal} {name : String} {body : Bytes}

theorem addUser_eq_ok (h : inbound.addUser unmarshal body = .ok inbound') :
    ∃ user, getUserName user ≠ "" ∧
      (∀ other ∈ inbound.users, getUserName other ≠ getUserName user) ∧
        inbound' = { inbound with users := inbound.users ++ [user] } := by
  obtain ⟨user, -, h⟩ := bind_eq_ok.mp h
  have supported := unsupported_of_user user
  dsimp only at h
  split at h
  · cases h
  rename_i named
  have existing : inbound.getInboundUsers = .ok inbound.users := by
    unfold getInboundUsers
    rw [supported]
  have added : inbound.addUserToInbound user =
      .ok { inbound with users := inbound.users ++ [user] } := by
    unfold addUserToInbound
    rw [supported]
  obtain ⟨users, listed, h⟩ := bind_eq_ok.mp h
  cases existing.symm.trans listed
  split at h
  · cases h
  rename_i free
  rw [added] at h
  refine ⟨user, named, fun other mem same => free ?_, (Except.ok.inj h).symm⟩
  exact any_eq_true.mpr ⟨other, mem, decide_eq_true same⟩

theorem deleteUser_eq_ok (h : inbound.deleteUser name = .ok inbound') :
    ∃ before old after, inbound.users = before ++ old :: after ∧ getUserName old = name ∧
      inbound' = { inbound with users := before ++ after } := by
  unfold deleteUser removeUserFromInbound at h
  split at h
  · cases h
  split at h <;> cases h
  rename_i users removed
  obtain ⟨before, old, after, split, found, rfl⟩ := removeFirst_eq_some removed
  exact ⟨before, old, after, split, of_decide_eq_true found, rfl⟩

/-! ## Names as keys -/

structure Keyed (inbound : Inbound ρ) : Prop where
  nodup : (inbound.users.map getUserName).Nodup
  nonempty : ∀ user ∈ inbound.users, getUserName user ≠ ""

theorem Keyed.addUser (keyed : inbound.Keyed)
    (h : inbound.addUser unmarshal body = .ok inbound') : inbound'.Keyed := by
  obtain ⟨user, named, fresh, rfl⟩ := addUser_eq_ok h
  exact ⟨nodup_append_singleton keyed.nodup fresh,
    forall_mem_append.mpr ⟨keyed.nonempty, forall_mem_singleton.mpr named⟩⟩

theorem Keyed.deleteUser (keyed : inbound.Keyed) (h : inbound.deleteUser name = .ok inbound') :
    inbound'.Keyed := by
  obtain ⟨before, old, after, split, -, rfl⟩ := deleteUser_eq_ok h
  obtain ⟨nodup, nonempty⟩ := keyed
  rw [split] at nodup nonempty
  obtain ⟨inBefore, inAfter⟩ := forall_mem_append.mp nonempty
  exact ⟨nodup.sublist (((sublist_cons_self _ after).append_left before).map _),
    forall_mem_append.mpr ⟨inBefore, (forall_mem_cons.mp inAfter).2⟩⟩

/-- The name that an update gives is free, or it is the one the user has. -/
def FreeFor (inbound : Inbound ρ) (name : String) (user : inbound.type.User) : Prop :=
  getUserName user ≠ "" ∧
    (getUserName user = name ∨ ∀ other ∈ inbound.users, getUserName other ≠ getUserName user)

end Inbound

/-- The name that an update would give to a user of the first inbound with the tag is free. -/
def Request.KeepsNames (unmarshal : Unmarshal) (inbounds : List (Inbound ρ)) : Request → Prop
  | .updateUser tag name body =>
      ∀ inbound ∈ inbounds.find? (·.tag = tag), ∀ user, unmarshal inbound.type body = .ok user →
        inbound.FreeFor name user
  | _ => True

end SingBox.ClashApi.Manage
