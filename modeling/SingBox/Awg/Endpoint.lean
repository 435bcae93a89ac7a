import SingBox.Awg.Uapi
import SingBox.Lib.Except
import SingBox.Lib.Loop

/-!
# An AmneziaWG endpoint and its peers

`protocol/awg/endpoint.go`, `reload_peers.go` and `peer_names.go`, over the device of
`transport/awg/device.go`. The endpoint is built with a list of peers; `ReloadPeers`
programs the difference between that list and another one into the running device.

Base64, address parsing and the resolver are parameters. So are the orders in which
Go ranges over the maps, and the point at which the device refuses a configuration, if
it does: the lines before it have taken effect.

* `genIpcPeer_eq` — the lines of a peer are those of its section;
* `peerDeltas_ok` — what a reload sends;
* `reloadPeers_cases` — the four ways in which a reload ends.
-/

namespace SingBox.Awg

open Lib List

structure AwgPeerOptions where
  address : String := ""
  port : UInt16 := 0
  name : String := ""
  publicKey : String := ""
  presharedKey : String := ""
  allowedIPs : List Prefix := []
  persistentKeepaliveInterval : UInt16 := 0
  deriving DecidableEq, Repr

/-- `base64.StdEncoding.DecodeString`, and `M.ParseAddr(..).IsValid()`. -/
structure Codec (κ : Type) where
  decodeString : String → Except String κ
  isAddr : String → Bool

/-! ## Names -/

structure PeerNameEntry where
  range : Prefix
  name : String
  deriving DecidableEq, Repr

structure PeerNameTable where
  entries : List PeerNameEntry
  deriving DecidableEq, Repr

def newPeerNameTable (peers : List AwgPeerOptions) : Option PeerNameTable :=
  let entries := peers.flatMap fun peer =>
    if peer.name = "" then [] else peer.allowedIPs.map (⟨·, peer.name⟩)
  if entries.length = 0 then none else some { entries }

/-- `peerNameTable.Lookup`, of a nil table too. -/
def lookupName (table : Option PeerNameTable) (addr : Addr) : String :=
  match table with
  | none => ""
  | some table =>
      if !addr.isValid then ""
      else
        (table.entries.foldl
          (fun (name, bits) entry =>
            if entry.range.bits > bits && entry.range.contains addr.unmap then
              (entry.name, entry.range.bits)
            else (name, bits))
          ("", -1)).1

/-! ## The configuration of a peer -/

variable {κ ι : Type} (codec : Codec κ) (resolvePeer : Option (String → Except String String))

/-- The address `genIpcPeer` writes: a domain has to be resolved. -/
def endpointAddr (address : String) : Except String String :=
  if codec.isAddr address then .ok address
  else
    match resolvePeer with
    | none => .error ("peer address is a domain but no resolver provided: " ++ address)
    | some resolve =>
        match resolve address with
        | .error err => .error ("resolve peer endpoint " ++ address ++ ": " ++ err)
        | .ok resolved => .ok resolved

/-- The preshared key `genIpcPeer` writes, if it writes one. -/
def presharedKeyOf (peer : AwgPeerOptions) : Except String (Option κ) :=
  if peer.presharedKey ≠ "" then (codec.decodeString peer.presharedKey).map some else .ok none

/-- The endpoint `genIpcPeer` writes, if it writes one. -/
def endpointOf (peer : AwgPeerOptions) : Except String (Option String) :=
  if peer.address ≠ "" ∧ peer.port ≠ 0 then
    (endpointAddr codec resolvePeer peer.address).map fun addr =>
      some (addr ++ ":" ++ toString peer.port)
  else .ok none

def genIpcPeer (peer : AwgPeerOptions) :
    Except String (List (Line κ)) := do
  let publicKey ← codec.decodeString peer.publicKey
  let presharedKey ← presharedKeyOf codec peer
  let endpoint ← endpointOf codec resolvePeer peer
  let keepalive :=
    if peer.persistentKeepaliveInterval ≠ 0 then
      [Line.persistentKeepaliveInterval peer.persistentKeepaliveInterval]
    else []
  return [.publicKey publicKey] ++ (presharedKey.map Line.presharedKey).toList ++
    (endpoint.map Line.endpoint).toList ++ keepalive ++ peer.allowedIPs.map Line.allowedIp

/-- The peers in `genIpcConfig`. -/
def genIpcPeers (codec : Codec κ) (resolvePeer : Option (String → Except String String)) :
    List AwgPeerOptions → Except String (List (Line κ))
  | [] => .ok []
  | peer :: rest => do
      let peerConfig ← genIpcPeer codec resolvePeer peer
      let more ← genIpcPeers codec resolvePeer rest
      return peerConfig ++ more

/-- `publicKeyHex`, whose result a line holds. -/
def publicKeyHex (base64Key : String) : Except String κ :=
  match codec.decodeString base64Key with
  | .error err => .error ("decode peer public_key: " ++ err)
  | .ok raw => .ok raw

def peersEqual (a b : AwgPeerOptions) : Bool :=
  a.publicKey == b.publicKey && a.presharedKey == b.presharedKey && a.address == b.address &&
    a.port == b.port && a.persistentKeepaliveInterval == b.persistentKeepaliveInterval &&
    a.allowedIPs == b.allowedIPs

/-! ## The endpoint -/

/-- The device of an endpoint: no pointer, not started, or running. -/
inductive Device (κ ι : Type) where
  | missing
  | created (ipcConfig : List (Line κ))
  | started (table : Table κ ι)

/-- The peers by their public key, as a list without a key twice. -/
structure Endpoint (κ ι : Type) where
  device : Device κ ι
  peerState : List AwgPeerOptions
  peerNames : Option PeerNameTable

def newPeerState (peers : List AwgPeerOptions) : List AwgPeerOptions :=
  peers.foldl
    (fun state peer => state.filter (fun other => other.publicKey ≠ peer.publicKey) ++ [peer]) []

/-- `NewEndpoint`, as far as the peers go. -/
def newEndpoint (resolve : String → Except String String) (peers : List AwgPeerOptions) :
    Except String (Endpoint κ ι) :=
  let remoteIsDomain := peers.any fun peer => !codec.isAddr peer.address
  match genIpcPeers codec (if remoteIsDomain then some resolve else none) peers with
  | .error err => .error err
  | .ok ipc =>
      .ok
        { device := .created ipc
          peerState := newPeerState peers
          peerNames := newPeerNameTable peers }

/-- `IpcSet` of a device that refuses a line: it stops there with an error. -/
def ipcSet [DecidableEq κ] [DecidableEq ι] (range : Prefix → ι) (refused : Option (Nat × String))
    (table : Table κ ι) (lines : List (Line κ)) : Table κ ι × Option String :=
  match refused with
  | none => (table.program range lines, none)
  | some (n, err) =>
      if n < lines.length then (table.program range (lines.take n), some err)
      else (table.program range lines, none)

def Endpoint.start [DecidableEq κ] [DecidableEq ι] (range : Prefix → ι)
    (refused : Option (Nat × String)) (e : Endpoint κ ι) : Endpoint κ ι × Option String :=
  match e.device with
  | .created ipcConfig =>
      match ipcSet range refused Table.empty ipcConfig with
      | (table, none) => ({ e with device := .started table }, none)
      | (table, some err) => ({ e with device := .started table }, some ("set ipc config: " ++ err))
  | _ => (e, none)

def Device.ipcSetDelta [DecidableEq κ] [DecidableEq ι] (range : Prefix → ι)
    (refused : Option (Nat × String)) (device : Device κ ι) (lines : List (Line κ)) :
    Device κ ι × Option String :=
  match device with
  | .started table =>
      match ipcSet range refused table lines with
      | (table, err) => (.started table, err)
  | device => (device, some "awg: device not started")

/-! ## `ReloadPeers` -/

/-- An order in which Go ranges over a map of peers. -/
structure Ranging where
  order : List AwgPeerOptions → List AwgPeerOptions
  perm : ∀ peers, (order peers).Perm peers

/-- A call of `ReloadPeers`: the peers of the options, if they have the right type, and
what is not determined by them. -/
structure Call where
  options : Option (List AwgPeerOptions)
  checked : Ranging
  desired : Ranging
  removed : Ranging
  refused : Option (Nat × String)

structure Delta (κ : Type) where
  ipc : List (Line κ) := []
  added : Nat := 0
  changed : Nat := 0
  removed : Nat := 0

/-- A turn of the loop that builds `desired`. -/
def desiredStep (desired : List AwgPeerOptions) (peer : AwgPeerOptions) :
    Turn (List AwgPeerOptions) String :=
  if peer.publicKey = "" then .stop desired "awg: peer without public_key"
  else if desired.any fun other => other.publicKey = peer.publicKey then
    .stop desired "awg: duplicate peer public_key"
  else .next (desired ++ [peer])

def domainStep (u : Unit) (peer : AwgPeerOptions) : Turn Unit String :=
  if peer.address ≠ "" ∧ codec.isAddr peer.address = false then
    .stop u ("awg: peer " ++ peer.publicKey ++ " has a domain address, cannot reload")
  else .next u

/-- The section without its first line, if that is the one. -/
def trimKeyLine [DecidableEq κ] (key : κ) (lines : List (Line κ)) : List (Line κ) :=
  match lines with
  | .publicKey key' :: rest => if key' = key then rest else lines
  | _ => lines

/-- A turn of the loop over `desired`. -/
def deltaStep [DecidableEq κ] (codec : Codec κ) (state : List AwgPeerOptions) (d : Delta κ)
    (peer : AwgPeerOptions) : Turn (Delta κ) String :=
  match state.find? fun existing => existing.publicKey = peer.publicKey with
  | some existing =>
      if peersEqual existing peer then .next d
      else
        match genIpcPeer codec none peer with
        | .error err => .stop d err
        | .ok lines =>
            match publicKeyHex codec peer.publicKey with
            | .error err => .stop d err
            | .ok key =>
                .next
                  { d with
                    ipc := d.ipc ++ ([.publicKey key, .replaceAllowedIps] ++ trimKeyLine key lines)
                    changed := d.changed + 1 }
  | none =>
      match genIpcPeer codec none peer with
      | .error err => .stop d err
      | .ok lines => .next { d with ipc := d.ipc ++ lines, added := d.added + 1 }

/-- A turn of the loop over the peers in the device. -/
def removeStep (desired : List AwgPeerOptions) (d : Delta κ) (peer : AwgPeerOptions) :
    Turn (Delta κ) String :=
  if desired.any fun other => other.publicKey = peer.publicKey then .next d
  else
    match publicKeyHex codec peer.publicKey with
    | .error err => .stop d err
    | .ok key =>
        .next { d with ipc := d.ipc ++ [.publicKey key, .remove], removed := d.removed + 1 }

/-- The part of `ReloadPeers` before anything is programmed. -/
def peerDeltas [DecidableEq κ] (codec : Codec κ) (state : List AwgPeerOptions) (call : Call)
    (peers : List AwgPeerOptions) : Except String (List AwgPeerOptions × Delta κ) :=
  match loop desiredStep [] peers with
  | (_, some err) => .error err
  | (desired, none) =>
      match loop (domainStep codec) () (call.checked.order desired) with
      | (_, some err) => .error err
      | (_, none) =>
          match loop (deltaStep codec state) {} (call.desired.order desired) with
          | (_, some err) => .error err
          | (d, none) =>
              match loop (removeStep codec desired) d (call.removed.order state) with
              | (_, some err) => .error err
              | (d, none) => .ok (desired, d)

def reloadPeers [DecidableEq κ] [DecidableEq ι] (codec : Codec κ) (range : Prefix → ι)
    (e : Endpoint κ ι) (call : Call) : Endpoint κ ι × Option String :=
  match call.options, e.device with
  | none, _ => (e, some "awg: unexpected options type for peer reload")
  | some _, .missing => (e, some "awg: endpoint not started")
  | some peers, device =>
      match peerDeltas codec e.peerState call peers with
      | .error err => (e, some err)
      | .ok (desired, d) =>
          if d.added = 0 ∧ d.changed = 0 ∧ d.removed = 0 then (e, none)
          else
            match device.ipcSetDelta range call.refused d.ipc with
            | (device, some err) =>
                ({ e with device := device }, some ("awg: program peer delta: " ++ err))
            | (device, none) =>
                ({ device, peerState := desired, peerNames := newPeerNameTable peers }, none)

/-! ## The section of a peer -/

/-- What `genIpcPeer` writes, as a section. -/
def sectionOf (peer : AwgPeerOptions) :
    Except String (Section κ) := do
  let key ← codec.decodeString peer.publicKey
  let presharedKey ← presharedKeyOf codec peer
  let endpoint ← endpointOf codec resolvePeer peer
  return ⟨key, presharedKey, endpoint, peer.persistentKeepaliveInterval, peer.allowedIPs⟩

section Sections

variable {codec : Codec κ} {resolvePeer : Option (String → Except String String)}

theorem genIpcPeer_eq (peer : AwgPeerOptions) :
    genIpcPeer codec resolvePeer peer = (sectionOf codec resolvePeer peer).map Section.lines := by
  unfold genIpcPeer sectionOf
  cases codec.decodeString peer.publicKey <;> cases presharedKeyOf codec peer <;>
    cases endpointOf codec resolvePeer peer <;>
    simp [bind, Except.bind, Except.map, pure, Except.pure, Section.lines, Section.body]

/-- What a section says about its peer. -/
structure Describes (codec : Codec κ) (resolvePeer : Option (String → Except String String))
    (peer : AwgPeerOptions) (s : Section κ) : Prop where
  key : codec.decodeString peer.publicKey = .ok s.key
  presharedKey : presharedKeyOf codec peer = .ok s.presharedKey
  endpoint : endpointOf codec resolvePeer peer = .ok s.endpoint
  keepalive : s.keepalive = peer.persistentKeepaliveInterval
  allowedIPs : s.allowedIPs = peer.allowedIPs

variable {peer : AwgPeerOptions} {s : Section κ}

theorem sectionOf_eq_ok :
    sectionOf codec resolvePeer peer = .ok s ↔ Describes codec resolvePeer peer s := by
  constructor
  · intro h
    obtain ⟨key, hkey, h⟩ := bind_eq_ok.mp h
    obtain ⟨psk, hpsk, h⟩ := bind_eq_ok.mp h
    obtain ⟨endpoint, hendpoint, h⟩ := bind_eq_ok.mp h
    cases h
    exact ⟨hkey, hpsk, hendpoint, rfl, rfl⟩
  · intro h
    unfold sectionOf
    rw [h.key, h.presharedKey, h.endpoint, ← h.keepalive, ← h.allowedIPs]
    rfl

/-- Peers that are equal differ in their names at most. -/
theorem peersEqual_iff {a b : AwgPeerOptions} :
    peersEqual a b = true ↔ { a with name := b.name } = b := by
  cases a
  cases b
  simp only [peersEqual, Bool.and_eq_true, beq_iff_eq, AwgPeerOptions.mk.injEq, true_and]
  tauto

theorem Describes.of_peersEqual {a b : AwgPeerOptions} (same : peersEqual a b = true)
    (describes : Describes codec resolvePeer a s) : Describes codec resolvePeer b s := by
  rw [← peersEqual_iff.mp same]
  exact { describes with }

theorem describes_resolver (noDomain : peer.address = "" ∨ codec.isAddr peer.address = true) :
    Describes codec resolvePeer peer s ↔ Describes codec none peer s := by
  have same : endpointOf codec resolvePeer peer = endpointOf codec none peer := by
    unfold endpointOf endpointAddr
    rcases noDomain with empty | addr
    · simp [empty]
    · simp [addr]
  rw [← sectionOf_eq_ok, ← sectionOf_eq_ok, sectionOf, sectionOf, same]

theorem genIpcPeer_eq_ok {lines : List (Line κ)} :
    genIpcPeer codec resolvePeer peer = .ok lines ↔
      ∃ s, Describes codec resolvePeer peer s ∧ lines = s.lines := by
  rw [genIpcPeer_eq]
  exact map_eq_ok.trans (exists_congr fun s => and_congr sectionOf_eq_ok eq_comm)

end Sections

/-! ## What a reload sends -/

/-- The peer is in the device as it is wanted. -/
def kept (state : List AwgPeerOptions) (peer : AwgPeerOptions) : Bool :=
  match state.find? fun existing => existing.publicKey = peer.publicKey with
  | some existing => peersEqual existing peer
  | none => false

/-- The peer was in the device before. -/
def known (state : List AwgPeerOptions) (peer : AwgPeerOptions) : Bool :=
  state.any fun existing => existing.publicKey = peer.publicKey

/-- The sections for a peer: none if it is kept; its ranges are replaced if it was there. -/
def peerSections (state : List AwgPeerOptions) (peer : AwgPeerOptions) : List (Bool × Section κ) :=
  if kept state peer then []
  else
    match sectionOf codec none peer with
    | .ok s => [(known state peer, s)]
    | .error _ => []

def removedKeys (desired : List AwgPeerOptions) (peer : AwgPeerOptions) : List κ :=
  if known desired peer then []
  else
    match codec.decodeString peer.publicKey with
    | .ok key => [key]
    | .error _ => []

/-- The configuration that takes the device from one list to another. -/
def peerDelta (desired removed : Ranging) (state peers : List AwgPeerOptions) : List (Line κ) :=
  deltaLines ((desired.order peers).flatMap (peerSections codec state))
    ((removed.order state).flatMap (removedKeys codec peers))

/-- The peers can be programmed: their keys are there and distinct, and no address is a
domain. -/
structure Acceptable (codec : Codec κ) (peers : List AwgPeerOptions) : Prop where
  nonempty : ∀ peer ∈ peers, peer.publicKey ≠ ""
  nodup : (peers.map (·.publicKey)).Nodup
  noDomain : ∀ peer ∈ peers, peer.address = "" ∨ codec.isAddr peer.address = true

/-- The two lists differ at most in names and order. -/
def Unchanged (state peers : List AwgPeerOptions) : Prop :=
  (∀ peer ∈ peers, kept state peer = true) ∧ ∀ peer ∈ state, known peers peer = true

section Reload

variable {codec : Codec κ} {state : List AwgPeerOptions}

variable {peer : AwgPeerOptions} {peers : List AwgPeerOptions} {d d' : Delta κ}
  {desired : List AwgPeerOptions} {call : Call}

theorem peerSections_of_kept (same : kept state peer = true) :
    peerSections codec state peer = [] := by
  simp [peerSections, same]

theorem peerSections_of_describes {s : Section κ} (differs : kept state peer = false)
    (describes : Describes codec none peer s) :
    peerSections codec state peer = [(known state peer, s)] := by
  simp [peerSections, differs, sectionOf_eq_ok.mpr describes]

theorem publicKeyHex_eq_ok {base64Key : String} {key : κ} :
    publicKeyHex codec base64Key = .ok key ↔ codec.decodeString base64Key = .ok key := by
  unfold publicKeyHex
  split <;> simp_all

theorem known_iff : known peers peer = true ↔ peer.publicKey ∈ peers.map (·.publicKey) := by
  simp [known]

theorem deltaStep_next [DecidableEq κ] (h : deltaStep codec state d peer = .next d') :
    d'.removed = d.removed ∧
    d'.ipc = d.ipc ++ (peerSections codec state peer).flatMap (fun item => item.2.linesOf item.1) ∧
    (kept state peer = true ∧ d' = d ∨
      kept state peer = false ∧ (∃ s, Describes codec none peer s) ∧
        d.added + d.changed < d'.added + d'.changed) := by
  unfold deltaStep at h
  split at h
  -- the peer is in the device: it is passed over or sent with its ranges replaced
  next existing hfind =>
    have hkept : kept state peer = peersEqual existing peer := by rw [kept, hfind]
    have hknown : known state peer = true :=
      any_eq_true.mpr ⟨existing, mem_of_find?_eq_some hfind, (find?_some hfind :)⟩
    split at h
    · rename_i same
      cases h
      rw [peerSections_of_kept (hkept.trans same)]
      exact ⟨rfl, by simp, .inl ⟨hkept.trans same, rfl⟩⟩
    · rename_i differs
      have notKept : kept state peer = false := by simpa [hkept] using differs
      split at h
      · cases h
      rename_i lines hlines
      obtain ⟨s, describes, rfl⟩ := genIpcPeer_eq_ok.mp hlines
      split at h
      · cases h
      rename_i key hkey
      have isKey : s.key = key := by
        have same := describes.key.symm.trans (publicKeyHex_eq_ok.mp hkey)
        cases same
        rfl
      cases h
      refine ⟨rfl, ?_, .inr ⟨notKept, ⟨s, describes⟩, by simp only; omega⟩⟩
      rw [peerSections_of_describes notKept describes, hknown]
      simp [← isKey, trimKeyLine, Section.lines, Section.linesOf]
  next hfind =>
    have notKept : kept state peer = false := by rw [kept, hfind]
    have notKnown : known state peer = false := any_eq_false.mpr (find?_eq_none.mp hfind)
    split at h
    · cases h
    rename_i lines hlines
    obtain ⟨s, describes, rfl⟩ := genIpcPeer_eq_ok.mp hlines
    cases h
    refine ⟨rfl, ?_, .inr ⟨notKept, ⟨s, describes⟩, by simp only; omega⟩⟩
    rw [peerSections_of_describes notKept describes, notKnown]
    simp [Section.linesOf]

theorem removeStep_next (h : removeStep codec desired d peer = .next d') :
    d'.added = d.added ∧ d'.changed = d.changed ∧
    d'.ipc = d.ipc ++ (removedKeys codec desired peer).flatMap
      (fun key => [.publicKey key, .remove]) ∧
    (known desired peer = true ∧ d' = d ∨ known desired peer = false ∧ d.removed < d'.removed) := by
  unfold removeStep at h
  split at h
  · rename_i isKnown
    have isKnown : known desired peer = true := isKnown
    cases h
    exact ⟨rfl, rfl, by simp [removedKeys, isKnown], .inl ⟨isKnown, rfl⟩⟩
  · rename_i unknown
    have unknown : known desired peer = false := by simpa [known] using unknown
    split at h
    · cases h
    rename_i key hkey
    cases h
    refine ⟨rfl, rfl, ?_, .inr ⟨unknown, Nat.lt_succ_self _⟩⟩
    simp [removedKeys, unknown, publicKeyHex_eq_ok.mp hkey]

/-! ### The loops -/

theorem desiredLoop_ok (h : loop desiredStep [] peers = (desired, none)) :
    desired = peers ∧ (∀ peer ∈ peers, peer.publicKey ≠ "") ∧
      (peers.map (·.publicKey)).Nodup := by
  apply loop_finished
    (fun done (desired : List AwgPeerOptions) => desired = done ∧
      (∀ peer ∈ done, peer.publicKey ≠ "") ∧ (done.map (·.publicKey)).Nodup)
    peers _ [] desired ⟨rfl, by simp, nodup_nil⟩ h
  rintro _ peer _ done desired' _ ⟨rfl, nonempty, nodup⟩ turn
  unfold desiredStep at turn
  split at turn
  · cases turn
  rename_i hasKey
  split at turn
  · cases turn
  rename_i fresh
  cases turn
  have fresh : peer.publicKey ∉ done.map (·.publicKey) := by simpa using fresh
  refine ⟨rfl, ?_, ?_⟩
  · exact forall_mem_append.mpr ⟨nonempty, forall_mem_singleton.mpr hasKey⟩
  · rw [map_append, map_singleton, ← concat_eq_append]
    exact nodup.concat fresh

theorem domainLoop_ok {u : Unit} (h : loop (domainStep codec) () peers = (u, none)) :
    ∀ peer ∈ peers, peer.address = "" ∨ codec.isAddr peer.address = true := by
  apply loop_finished
    (fun done (_ : Unit) => ∀ peer ∈ done, peer.address = "" ∨ codec.isAddr peer.address = true)
    peers _ () u (by simp) h
  intro done peer _ _ _ _ inv turn
  refine forall_mem_append.mpr ⟨inv, forall_mem_singleton.mpr ?_⟩
  unfold domainStep at turn
  split at turn
  · cases turn
  rename_i fine
  exact or_iff_not_imp_left.mpr (by simpa using fine)

theorem deltaLoop_ok [DecidableEq κ] (h : loop (deltaStep codec state) {} peers = (d, none)) :
    d.removed = 0 ∧
    d.ipc = (peers.flatMap (peerSections codec state)).flatMap
      (fun item => item.2.linesOf item.1) ∧
    (∀ peer ∈ peers, kept state peer = true ∨ ∃ s, Describes codec none peer s) ∧
    (d.added + d.changed = 0 ↔ ∀ peer ∈ peers, kept state peer = true) := by
  apply loop_finished
    (fun done (d : Delta κ) => d.removed = 0 ∧
      d.ipc = (done.flatMap (peerSections codec state)).flatMap
        (fun item => item.2.linesOf item.1) ∧
      (∀ peer ∈ done, kept state peer = true ∨ ∃ s, Describes codec none peer s) ∧
      (d.added + d.changed = 0 ↔ ∀ peer ∈ done, kept state peer = true))
    peers _ {} d ⟨rfl, rfl, by simp, by simp⟩ h
  rintro done peer _ d d' _ ⟨removed, ipc, sendable, counts⟩ turn
  obtain ⟨removed', ipc', now⟩ := deltaStep_next turn
  refine ⟨removed'.trans removed, ?_, ?_, ?_⟩
  · rw [ipc', ipc, flatMap_append, flatMap_append, flatMap_singleton]
  · refine forall_mem_append.mpr ⟨sendable, forall_mem_singleton.mpr ?_⟩
    rcases now with ⟨same, _⟩ | ⟨_, describes, _⟩
    · exact .inl same
    · exact .inr describes
  · rw [forall_mem_append, forall_mem_singleton, ← counts]
    rcases now with ⟨same, rfl⟩ | ⟨differs, _, more⟩
    · simp [same]
    · exact iff_of_false (by omega) (by simp [differs])

theorem removeLoop_ok (h : loop (removeStep codec desired) d peers = (d', none)) :
    d'.added = d.added ∧ d'.changed = d.changed ∧
    d'.ipc = d.ipc ++ (peers.flatMap (removedKeys codec desired)).flatMap
      (fun key => [.publicKey key, .remove]) ∧
    (d'.removed = d.removed ↔ ∀ peer ∈ peers, known desired peer = true) := by
  have inv := loop_finished
    (fun done (d' : Delta κ) => d'.added = d.added ∧ d'.changed = d.changed ∧
      d'.ipc = d.ipc ++ (done.flatMap (removedKeys codec desired)).flatMap
        (fun key => [.publicKey key, .remove]) ∧
      d.removed ≤ d'.removed ∧
      (d'.removed = d.removed ↔ ∀ peer ∈ done, known desired peer = true))
    peers ?_ d d' ⟨rfl, rfl, by simp, Nat.le_refl _, by simp⟩ h
  · exact ⟨inv.1, inv.2.1, inv.2.2.1, inv.2.2.2.2⟩
  rintro done peer _ d₁ d₂ _ ⟨added, changed, ipc, atLeast, counts⟩ turn
  obtain ⟨added', changed', ipc', now⟩ := removeStep_next turn
  refine ⟨added'.trans added, changed'.trans changed, ?_, ?_, ?_⟩
  · rw [ipc', ipc, flatMap_append, flatMap_append, flatMap_singleton, append_assoc]
  · rcases now with ⟨_, rfl⟩ | ⟨_, more⟩
    · exact atLeast
    · omega
  · rw [forall_mem_append, forall_mem_singleton, ← counts]
    rcases now with ⟨isKnown, rfl⟩ | ⟨unknown, more⟩
    · simp [isKnown]
    · exact iff_of_false (by omega) (by simp [unknown])

theorem peerDeltas_ok [DecidableEq κ] (h : peerDeltas codec state call peers = .ok (desired, d)) :
    desired = peers ∧ Acceptable codec peers ∧
    d.ipc = peerDelta codec call.desired call.removed state peers ∧
    (∀ peer ∈ peers, kept state peer = true ∨ ∃ s, Describes codec none peer s) ∧
    (d.added = 0 ∧ d.changed = 0 ∧ d.removed = 0 ↔ Unchanged state peers) := by
  unfold peerDeltas at h
  split at h
  · cases h
  rename_i first hdesired
  obtain ⟨rfl, nonempty, nodup⟩ := desiredLoop_ok hdesired
  split at h
  · cases h
  rename_i u hdomain
  split at h
  · cases h
  rename_i d₁ hdelta
  split at h
  · cases h
  rename_i d₂ hremove
  cases h
  -- what the loops establish does not depend on the order they range in
  have inOrder : ∀ {P : AwgPeerOptions → Prop} (ranging : Ranging) (list : List AwgPeerOptions),
      (∀ peer ∈ ranging.order list, P peer) ↔ ∀ peer ∈ list, P peer := by
    intro P ranging list
    simp only [(ranging.perm list).mem_iff]
  have noDomain := (inOrder _ _).mp (domainLoop_ok hdomain)
  obtain ⟨removed₁, ipc₁, sendable, counts₁⟩ := deltaLoop_ok hdelta
  obtain ⟨added₂, changed₂, ipc₂, counts₂⟩ := removeLoop_ok hremove
  rw [inOrder] at sendable counts₁ counts₂
  refine ⟨rfl, ⟨nonempty, nodup, noDomain⟩, ?_, sendable, ?_⟩
  · rw [ipc₂, ipc₁]
    rfl
  · unfold Unchanged
    rw [← counts₁, ← counts₂]
    omega

theorem desiredLoop_succeeds (acceptable : Acceptable codec peers) :
    loop desiredStep [] peers = (peers, none) := by
  obtain ⟨desired, hloop, rfl⟩ : ∃ desired, loop desiredStep [] peers = (desired, none) ∧
      desired = peers := by
    apply loop_runs (fun done desired => desired = done)
    · rintro _ peer rest desired hsplit rfl
      have nodup := acceptable.nodup
      rw [hsplit, map_append, nodup_append] at nodup
      have fresh : (desired.any fun other => other.publicKey = peer.publicKey) = false := by
        rw [any_eq_false]
        intro other mem same
        exact nodup.2.2 _ (mem_map_of_mem mem) _ (by simp) (of_decide_eq_true same)
      have hasKey : peer.publicKey ≠ "" := acceptable.nonempty peer (by rw [hsplit]; simp)
      refine ⟨_, ?_, rfl⟩
      unfold desiredStep
      rw [if_neg hasKey, fresh]
      rfl
    · rfl
  exact hloop

theorem peerDeltas_unchanged [DecidableEq κ] (call : Call) (acceptable : Acceptable codec peers)
    (unchanged : Unchanged state peers) : peerDeltas codec state call peers = .ok (peers, {}) := by
  have domains : loop (domainStep codec) () (call.checked.order peers) = ((), none) := by
    apply loop_idle
    intro peer mem
    have noDomain := acceptable.noDomain peer ((call.checked.perm peers).mem_iff.mp mem)
    rcases noDomain with empty | addr <;> simp [domainStep, *]
  have deltas : loop (deltaStep codec state) {} (call.desired.order peers) = ({}, none) := by
    apply loop_idle
    intro peer mem
    have same := unchanged.1 peer ((call.desired.perm peers).mem_iff.mp mem)
    unfold kept at same
    unfold deltaStep
    split at same
    next existing hfind => simp [same]
    next => cases same
  have removals : loop (removeStep codec peers) {} (call.removed.order state) = ({}, none) := by
    apply loop_idle
    intro peer mem
    exact if_pos (unchanged.2 peer ((call.removed.perm state).mem_iff.mp mem))
  unfold peerDeltas
  rw [desiredLoop_succeeds acceptable]
  simp only [domains, deltas, removals]

variable [DecidableEq κ] [DecidableEq ι] {range : Prefix → ι}

theorem reloadPeers_eq {e : Endpoint κ ι} (options : call.options = some peers)
    (present : e.device ≠ .missing) :
    reloadPeers codec range e call =
      match peerDeltas codec e.peerState call peers with
      | .error err => (e, some err)
      | .ok (desired, d) =>
          if d.added = 0 ∧ d.changed = 0 ∧ d.removed = 0 then (e, none)
          else
            match e.device.ipcSetDelta range call.refused d.ipc with
            | (device, some err) =>
                ({ e with device := device }, some ("awg: program peer delta: " ++ err))
            | (device, none) =>
                ({ device, peerState := desired, peerNames := newPeerNameTable peers }, none) := by
  unfold reloadPeers
  rw [options]
  cases hdevice : e.device with
  | missing => exact absurd hdevice present
  | created ipcConfig | started table => rfl

/-- How a reload ends: it is refused before anything is sent, there is nothing to send,
the device refuses what is sent, or it takes it. -/
theorem reloadPeers_cases (codec : Codec κ) (range : Prefix → ι) (e : Endpoint κ ι) (call : Call) :
    (∃ err, reloadPeers codec range e call = (e, some err)) ∨
    ∃ peers, call.options = some peers ∧ e.device ≠ .missing ∧ Acceptable codec peers ∧
      ((Unchanged e.peerState peers ∧ reloadPeers codec range e call = (e, none)) ∨
      ¬ Unchanged e.peerState peers ∧
        (∀ peer ∈ peers, kept e.peerState peer = true ∨ ∃ s, Describes codec none peer s) ∧
        let ipc := peerDelta codec call.desired call.removed e.peerState peers
        ∃ device, (∃ err, e.device.ipcSetDelta range call.refused ipc = (device, some err) ∧
            reloadPeers codec range e call =
              ({ e with device := device }, some ("awg: program peer delta: " ++ err))) ∨
          e.device.ipcSetDelta range call.refused ipc = (device, none) ∧
            reloadPeers codec range e call =
              ({ device, peerState := peers, peerNames := newPeerNameTable peers }, none)) := by
  cases options : call.options with
  | none =>
    left
    rw [reloadPeers, options]
    exact ⟨_, rfl⟩
  | some peers =>
    by_cases present : e.device = .missing
    · left
      rw [reloadPeers, options, present]
      exact ⟨_, rfl⟩
    rw [reloadPeers_eq options present]
    cases hdelta : peerDeltas codec e.peerState call peers with
    | error err => exact .inl ⟨err, rfl⟩
    | ok result =>
      obtain ⟨desired, d⟩ := result
      obtain ⟨rfl, acceptable, ipc, sendable, counts⟩ := peerDeltas_ok hdelta
      refine .inr ⟨desired, rfl, present, acceptable, ?_⟩
      simp only
      split
      · rename_i nothing
        exact .inl ⟨counts.mp nothing, rfl⟩
      · rename_i something
        refine .inr ⟨fun unchanged => something (counts.mpr unchanged), sendable, ?_⟩
        rw [← ipc]
        split
        next device err hset => exact ⟨device, .inl ⟨err, hset, rfl⟩⟩
        next device hset => exact ⟨device, .inr ⟨hset, rfl⟩⟩

end Reload

end SingBox.Awg
