import SingBox.Awg.Endpoint
import SingBox.Lib.Keyed

/-!
# The device follows the peer list

`ReloadPeers` renders a changed peer with `genIpcPeer`, which says nothing about a
setting that is not set, so a setting that is taken away stays in the device. A key
that is spelled in another way is sent for the new spelling and then removed for the
old one. A device that refuses a configuration half-way is left with half of it.

* `delta_holds` — where none of this is the case, the delta leads to the table of the
  new list;
* `reloadPeers_right_iff` — from a device in step, a call that succeeds is right exactly
  then;
* `reloadPeers_runs` — along every run of such calls, each successful one leaves the
  table a new device would have.
-/

namespace SingBox.Awg

open Lib List

variable {κ ι : Type} (codec : Codec κ)

def Sections (resolvePeer : Option (String → Except String String)) (peers : List AwgPeerOptions)
    (s : Section κ) : Prop :=
  ∃ peer ∈ peers, Describes codec resolvePeer peer s

/-- The two peers have different keys, and no range in common. -/
structure PeersApart (codec : Codec κ) (range : Prefix → ι) (p q : AwgPeerOptions) : Prop where
  keys : ∀ key, codec.decodeString p.publicKey = .ok key → codec.decodeString q.publicKey ≠ .ok key
  ranges : ∀ a ∈ p.allowedIPs, ∀ b ∈ q.allowedIPs, range a ≠ range b

variable {p q peer : AwgPeerOptions} {s s' : Section κ} {peers : List AwgPeerOptions}
  {lines : List (Line κ)} {state : List AwgPeerOptions}

theorem PeersApart.symm {codec : Codec κ} {range : Prefix → ι}
    (apart : PeersApart codec range p q) : PeersApart codec range q p where
  keys key hq hp := apart.keys key hp hq
  ranges a ha b hb same := apart.ranges b hb a ha same.symm

instance (codec : Codec κ) (range : Prefix → ι) : Std.Symm (PeersApart codec range) where
  symm _ _ := PeersApart.symm

def SeparatePeers (range : Prefix → ι) (peers : List AwgPeerOptions) : Prop :=
  peers.Pairwise (PeersApart codec range)

def AwgPeerOptions.hasEndpoint (peer : AwgPeerOptions) : Prop := peer.address ≠ "" ∧ peer.port ≠ 0

instance (peer : AwgPeerOptions) : Decidable peer.hasEndpoint :=
  inferInstanceAs (Decidable (_ ∧ _))

/-- No peer that stays loses a setting. -/
structure KeepsSettings (state peers : List AwgPeerOptions) : Prop where
  presharedKey : ∀ existing ∈ state, ∀ peer ∈ peers, existing.publicKey = peer.publicKey →
    peer.presharedKey = "" → existing.presharedKey = ""
  endpoint : ∀ existing ∈ state, ∀ peer ∈ peers, existing.publicKey = peer.publicKey →
    ¬ peer.hasEndpoint → ¬ existing.hasEndpoint
  keepalive : ∀ existing ∈ state, ∀ peer ∈ peers, existing.publicKey = peer.publicKey →
    peer.persistentKeepaliveInterval = 0 → existing.persistentKeepaliveInterval = 0

/-- No peer comes back with its key spelled in another way. -/
def SameSpelling (state peers : List AwgPeerOptions) : Prop :=
  ∀ existing ∈ state, ∀ peer ∈ peers, ∀ key, codec.decodeString existing.publicKey = .ok key →
    codec.decodeString peer.publicKey = .ok key → existing.publicKey = peer.publicKey

structure InSync (codec : Codec κ) (range : Prefix → ι)
    (resolvePeer : Option (String → Except String String)) (table : Table κ ι)
    (state : List AwgPeerOptions) : Prop where
  nodup : (state.map (·.publicKey)).Nodup
  described : ∀ peer ∈ state, ∃ s, Describes codec resolvePeer peer s
  holds : table.Holds range (Sections codec resolvePeer state)

variable {codec : Codec κ} {range : Prefix → ι}
  {resolvePeer : Option (String → Except String String)}

theorem Describes.unique (describes : Describes codec resolvePeer peer s)
    (describes' : Describes codec resolvePeer peer s') : s = s' := by
  have same := (sectionOf_eq_ok.mpr describes).symm.trans (sectionOf_eq_ok.mpr describes')
  cases same
  rfl

theorem Describes.key_eq {resolve resolve' : Option (String → Except String String)}
    (same : p.publicKey = q.publicKey) (describes : Describes codec resolve p s)
    (describes' : Describes codec resolve' q s') : s.key = s'.key := by
  have decoded := describes.key
  rw [same, describes'.key] at decoded
  exact (Except.ok.inj decoded).symm

theorem Describes.apart (apart : PeersApart codec range p q)
    (describes : Describes codec resolvePeer p s) (describes' : Describes codec resolvePeer q s') :
    Section.Apart range s s' := by
  constructor
  · intro same
    exact apart.keys s.key describes.key (same ▸ describes'.key)
  · intro i inS inS'
    obtain ⟨a, ha, rfl⟩ := mem_map.mp inS
    obtain ⟨b, hb, same⟩ := mem_map.mp inS'
    rw [describes.allowedIPs] at ha
    rw [describes'.allowedIPs] at hb
    exact apart.ranges a ha b hb same.symm

theorem SeparatePeers.sections (separate : SeparatePeers codec range peers)
    (hs : Sections codec resolvePeer peers s) (hs' : Sections codec resolvePeer peers s') :
    s = s' ∨ Section.Apart range s s' := by
  obtain ⟨p, hp, describes⟩ := hs
  obtain ⟨q, hq, describes'⟩ := hs'
  by_cases same : p = q
  · subst same
    exact .inl (describes.unique describes')
  · exact .inr (describes.apart (separate.forall hp hq same) describes')

theorem sections_resolver
    (noDomain : ∀ peer ∈ peers, peer.address = "" ∨ codec.isAddr peer.address = true) :
    Sections codec resolvePeer peers = Sections codec none peers := by
  funext s
  exact propext (exists_congr fun peer => and_congr_right fun mem =>
    describes_resolver (noDomain peer mem))

/-! ## A new device -/

theorem genIpcPeers_sections (h : genIpcPeers codec resolvePeer peers = .ok lines) :
    ∃ sections, lines = sections.flatMap Section.lines ∧
      Forall₂ (Describes codec resolvePeer) peers sections := by
  induction peers generalizing lines with
  | nil =>
    cases h
    exact ⟨[], rfl, .nil⟩
  | cons peer rest ih =>
    obtain ⟨peerLines, hpeer, h⟩ := bind_eq_ok.mp h
    obtain ⟨restLines, hrest, h⟩ := bind_eq_ok.mp h
    cases h
    obtain ⟨s, describes, rfl⟩ := genIpcPeer_eq_ok.mp hpeer
    obtain ⟨sections, rfl, all⟩ := ih hrest
    exact ⟨s :: sections, rfl, .cons describes all⟩

theorem SeparatePeers.nodup (separate : SeparatePeers codec range peers)
    (described : ∀ peer ∈ peers, ∃ s, Describes codec resolvePeer peer s) :
    (peers.map (·.publicKey)).Nodup := by
  unfold Nodup
  rw [pairwise_map]
  refine separate.imp_of_mem ?_
  intro p q hp _ apart same
  obtain ⟨s, describes⟩ := described p hp
  exact apart.keys s.key describes.key (same ▸ describes.key)

theorem genIpcPeers_succeeds_iff : (∃ lines, genIpcPeers codec resolvePeer peers = .ok lines) ↔
    ∀ peer ∈ peers, ∃ s, Describes codec resolvePeer peer s := by
  induction peers with
  | nil => exact iff_of_true ⟨[], rfl⟩ nofun
  | cons peer rest ih =>
    rw [forall_mem_cons, ← ih]
    cases h : genIpcPeers codec resolvePeer rest <;>
      simp [genIpcPeers, bind_eq_ok, genIpcPeer_eq_ok, h]

theorem sections_iff_mem {sections : List (Section κ)}
    (all : Forall₂ (Describes codec resolvePeer) peers sections) (s : Section κ) :
    Sections codec resolvePeer peers s ↔ s ∈ sections := by
  induction all with
  | nil => simp [Sections]
  | @cons peer first peers sections describes _ ih =>
    rw [mem_cons, ← ih, Sections, exists_mem_cons_iff]
    exact or_congr_left ⟨fun describes' => describes'.unique describes, fun same => same ▸ describes⟩

theorem sections_pairwise {sections : List (Section κ)}
    (all : Forall₂ (Describes codec resolvePeer) peers sections)
    (separate : SeparatePeers codec range peers) : sections.Pairwise (Section.Apart range) := by
  induction all with
  | nil => exact .nil
  | @cons peer first peers sections describes rest ih =>
    obtain ⟨head, tail⟩ := pairwise_cons.mp separate
    refine .cons ?_ (ih tail)
    intro s mem
    obtain ⟨other, hother, describes'⟩ := (sections_iff_mem rest s).mpr mem
    exact describes.apart (head other hother) describes'

theorem holds_genIpcPeers [DecidableEq κ] [DecidableEq ι]
    (separate : SeparatePeers codec range peers)
    (h : genIpcPeers codec resolvePeer peers = .ok lines) :
    (Table.empty.program range lines).Holds range (Sections codec resolvePeer peers) := by
  obtain ⟨sections, rfl, all⟩ := genIpcPeers_sections h
  have isSection : Sections codec resolvePeer peers = (· ∈ sections) :=
    funext fun s => propext (sections_iff_mem all s)
  rw [isSection]
  exact Table.holds_program sections (sections_pairwise all separate)

/-! ## The delta -/

theorem mem_peerSections {item : Bool × Section κ} (mem : item ∈ peerSections codec state peer) :
    kept state peer = false ∧ item.1 = known state peer ∧ Describes codec none peer item.2 := by
  unfold peerSections at mem
  split at mem
  · cases mem
  rename_i differs
  split at mem
  · rename_i s hs
    rw [mem_singleton] at mem
    rw [mem]
    exact ⟨by simpa using differs, rfl, sectionOf_eq_ok.mp hs⟩
  · cases mem

theorem exists_of_kept (same : kept state peer = true) :
    ∃ existing ∈ state, peersEqual existing peer = true := by
  unfold kept at same
  split at same
  next existing hfind => exact ⟨existing, mem_of_find?_eq_some hfind, same⟩
  next => cases same

theorem presharedKeyOf_ok {psk : Option κ} (h : presharedKeyOf codec peer = .ok psk) :
    psk = none ↔ peer.presharedKey = "" := by
  unfold presharedKeyOf at h
  split at h
  · obtain ⟨key, -, rfl⟩ := map_eq_ok.mp h
    simp_all
  · simp_all

theorem endpointOf_ok {endpoint : Option String}
    (h : endpointOf codec resolvePeer peer = .ok endpoint) :
    endpoint = none ↔ ¬ peer.hasEndpoint := by
  unfold endpointOf at h
  unfold AwgPeerOptions.hasEndpoint
  split at h
  · obtain ⟨addr, -, rfl⟩ := map_eq_ok.mp h
    simp_all
  · simp_all

/-- A section for a peer that loses no setting sets them all. -/
theorem KeepsSettings.update_eq (keeps : KeepsSettings state peers) {existing : AwgPeerOptions}
    (hold : existing ∈ state) (mem : peer ∈ peers) (same : existing.publicKey = peer.publicKey)
    {old : Section κ} (describesOld : Describes codec resolvePeer existing old)
    (describes : Describes codec none peer s) : s.update old.settings = s.settings := by
  have psk : s.presharedKey = none → old.presharedKey = none := by
    rw [presharedKeyOf_ok describes.presharedKey, presharedKeyOf_ok describesOld.presharedKey]
    exact keeps.presharedKey existing hold peer mem same
  have endpoint : s.endpoint = none → old.endpoint = none := by
    rw [endpointOf_ok describes.endpoint, endpointOf_ok describesOld.endpoint]
    exact keeps.endpoint existing hold peer mem same
  have keepalive : s.keepalive = 0 → old.keepalive = 0 := by
    rw [describes.keepalive, describesOld.keepalive]
    exact keeps.keepalive existing hold peer mem same
  cases hpsk : s.presharedKey <;> cases hendpoint : s.endpoint <;>
    by_cases zero : s.keepalive = 0 <;> simp_all [Section.update, Section.settings]

theorem peerDelta_unchanged (unchanged : Unchanged state peers) (desired removed : Ranging) :
    peerDelta codec desired removed state peers = [] := by
  unfold peerDelta
  rw [flatMap_eq_nil_iff.mpr fun peer mem => ?_, flatMap_eq_nil_iff.mpr fun peer mem => ?_]
  · rfl
  · simp [removedKeys, unchanged.2 peer ((removed.perm state).mem_iff.mp mem)]
  · exact peerSections_of_kept (unchanged.1 peer ((desired.perm peers).mem_iff.mp mem))

theorem mem_sections {desired : Ranging} {item : Bool × Section κ} :
    item ∈ (desired.order peers).flatMap (peerSections codec state) ↔
      ∃ peer ∈ peers, item ∈ peerSections codec state peer := by
  simp only [mem_flatMap, (desired.perm peers).mem_iff]

theorem mem_sections_of_describes (mem : peer ∈ peers) (differs : ¬ kept state peer = true)
    (describes : Describes codec none peer s) (desired : Ranging) :
    (known state peer, s) ∈ (desired.order peers).flatMap (peerSections codec state) := by
  refine mem_sections.mpr ⟨peer, mem, ?_⟩
  rw [peerSections_of_describes (Bool.eq_false_of_not_eq_true differs) describes]
  exact mem_singleton_self _

theorem mem_keys {removed : Ranging} {key : κ} :
    key ∈ (removed.order state).flatMap (removedKeys codec peers) ↔
      ∃ existing ∈ state, known peers existing = false ∧
        codec.decodeString existing.publicKey = .ok key := by
  rw [mem_flatMap]
  refine exists_congr fun existing => and_congr (removed.perm state).mem_iff ?_
  unfold removedKeys
  cases known peers existing with
  | true => simp
  | false => cases codec.decodeString existing.publicKey <;> simp [eq_comm]

theorem SeparatePeers.sent (separate : SeparatePeers codec range peers)
    (state : List AwgPeerOptions) (desired : Ranging) :
    ((desired.order peers).flatMap (peerSections codec state)).Pairwise
      fun a b => Section.Apart range a.2 b.2 := by
  rw [pairwise_flatMap]
  refine ⟨?_, ?_⟩
  · intro peer _
    unfold peerSections
    split
    · exact .nil
    · split
      · exact pairwise_singleton _ _
      · exact .nil
  · have ordered : SeparatePeers codec range (desired.order peers) :=
      (desired.perm peers).symm.pairwise separate PeersApart.symm
    refine ordered.imp ?_
    intro p q apart a ha b hb
    exact (mem_peerSections ha).2.2.apart apart (mem_peerSections hb).2.2

section Delta

variable {table : Table κ ι} {state peers : List AwgPeerOptions}

variable {peer : AwgPeerOptions} {desired removed : Ranging}

section

variable (sync : InSync codec range resolvePeer table state)
include sync

theorem InSync.describes_kept (acceptable : Acceptable codec peers) (mem : peer ∈ peers)
    (same : kept state peer = true) :
    ∃ s, Describes codec none peer s ∧ Sections codec resolvePeer state s := by
  obtain ⟨existing, hold, equal⟩ := exists_of_kept same
  obtain ⟨s, describes⟩ := sync.described existing hold
  refine ⟨s, ?_, existing, hold, describes⟩
  exact (describes_resolver (acceptable.noDomain peer mem)).mp (describes.of_peersEqual equal)

theorem InSync.described_all (acceptable : Acceptable codec peers)
    (sendable : ∀ peer ∈ peers, kept state peer = true ∨ ∃ s, Describes codec none peer s) :
    ∀ peer ∈ peers, ∃ s, Describes codec none peer s := by
  intro peer mem
  rcases sendable peer mem with same | describes
  · obtain ⟨s, describes, _⟩ := sync.describes_kept acceptable mem same
    exact ⟨s, describes⟩
  · exact describes

/-- The peer of that spelling in the device is the one a kept peer is equal to. -/
theorem InSync.peersEqual_of_kept {existing : AwgPeerOptions} (hold : existing ∈ state)
    (same : existing.publicKey = peer.publicKey) (equal : kept state peer = true) :
    peersEqual existing peer = true := by
  obtain ⟨existing', hold', equal⟩ := exists_of_kept equal
  have isExisting : existing' = existing :=
    inj_on_of_nodup_map sync.nodup hold' hold 
      ((congrArg AwgPeerOptions.publicKey (peersEqual_iff.mp equal)).trans same.symm)
  exact isExisting ▸ equal

/-- The section of a peer sets all that the device keeps for it. -/
theorem InSync.update_eq (keeps : KeepsSettings state peers)
    (spelling : SameSpelling codec state peers) (mem : peer ∈ peers) {s : Section κ}
    (describes : Describes codec none peer s) :
    s.update ((table.peers s.key).getD {}) = s.settings := by
  by_cases wasThere : known state peer = true
  · obtain ⟨existing, hold, same⟩ := mem_map.mp (known_iff.mp wasThere)
    obtain ⟨old, describesOld⟩ := sync.described existing hold
    rw [← describesOld.key_eq same describes,
      sync.holds.settings old ⟨existing, hold, describesOld⟩]
    exact keeps.update_eq hold mem same describesOld describes
  · -- a peer of that key in the device would be spelled the same, and so known
    have absent : table.peers s.key = none := by
      apply sync.holds.noPeer
      rintro old ⟨existing, hold, describesOld⟩ same
      apply wasThere
      rw [known_iff]
      have spelled := spelling existing hold peer mem s.key (same ▸ describesOld.key) describes.key
      exact spelled ▸ mem_map_of_mem hold
    rw [absent]
    exact s.update_default

/-- What becomes of a section in the device: it is one of the new list, its key is removed,
or another section of its key replaces its ranges. -/
theorem InSync.section_cases (acceptable : Acceptable codec peers)
    (sendable : ∀ peer ∈ peers, kept state peer = true ∨ ∃ s, Describes codec none peer s)
    (desired removed : Ranging) {old : Section κ} (hold : Sections codec resolvePeer state old) :
    Sections codec none peers old ∨
      old.key ∈ (removed.order state).flatMap (removedKeys codec peers) ∨
      ∃ item ∈ (desired.order peers).flatMap (peerSections codec state),
        item.1 = true ∧ item.2.key = old.key := by
  obtain ⟨existing, hold, describesOld⟩ := hold
  by_cases stays : known peers existing = true
  · obtain ⟨peer, hpeer, same⟩ := mem_map.mp (known_iff.mp stays)
    -- the peer stays: as it was, or sent again with its ranges replaced
    by_cases equal : kept state peer = true
    · left
      exact ⟨peer, hpeer, (describes_resolver (acceptable.noDomain peer hpeer)).mp
        (describesOld.of_peersEqual (sync.peersEqual_of_kept hold same.symm equal))⟩
    · right
      right
      obtain ⟨s, describes⟩ := (sendable peer hpeer).resolve_left equal
      have isKnown : known state peer = true := by
        rw [known_iff, same]
        exact mem_map_of_mem hold
      exact ⟨_, mem_sections_of_describes hpeer equal describes desired, isKnown,
        describes.key_eq same describesOld⟩
  · right
    left
    rw [mem_keys]
    exact ⟨existing, hold, by simpa using stays, describesOld.key⟩

end

variable [DecidableEq κ] [DecidableEq ι]

/-- The delta leads from the table of one list to that of another. -/
theorem delta_holds (sync : InSync codec range resolvePeer table state)
    (acceptable : Acceptable codec peers) (separate : SeparatePeers codec range peers)
    (keeps : KeepsSettings state peers) (spelling : SameSpelling codec state peers)
    (sendable : ∀ peer ∈ peers, kept state peer = true ∨ ∃ s, Describes codec none peer s)
    (desired removed : Ranging) :
    (table.program range (peerDelta codec desired removed state peers)).Holds range
      (Sections codec none peers) := by
  refine sync.holds.delta ⟨separate.sent state desired, fun s s' => separate.sections, ?_, ?_, ?_, ?_⟩
  · intro item mem
    obtain ⟨peer, hpeer, mem⟩ := mem_sections.mp mem
    obtain ⟨_, _, describes⟩ := mem_peerSections mem
    exact ⟨⟨peer, hpeer, describes⟩, sync.update_eq keeps spelling hpeer describes⟩
  · rintro s ⟨peer, hpeer, describes⟩ unsent
    by_cases same : kept state peer = true
    · obtain ⟨s', describes', hold⟩ := sync.describes_kept acceptable hpeer same
      rw [describes.unique describes']
      exact hold
    · exact absurd (mem_sections_of_describes hpeer same describes desired) (unsent _)
  · -- a key of the list is not removed, as that would be under another spelling
    rintro s ⟨peer, hpeer, describes⟩ mem
    obtain ⟨existing, hold, unknown, decoded⟩ := mem_keys.mp mem
    have spelled := spelling existing hold peer hpeer s.key decoded describes.key
    have isKnown : known peers existing = true := by
      rw [known_iff, spelled]
      exact mem_map_of_mem hpeer
    rw [unknown] at isKnown
    cases isKnown
  · intro s hold
    exact sync.section_cases acceptable sendable desired removed hold

variable (separate : SeparatePeers codec range peers)
  (described : ∀ peer ∈ peers, ∃ s, Describes codec none peer s)
  (holds : (table.program range (peerDelta codec desired removed state peers)).Holds range
    (Sections codec none peers))
include separate described holds

/-- A key spelled in another way is removed after it has been set. -/
theorem sameSpelling_of_holds : SameSpelling codec state peers := by
  intro existing hold peer mem key decoded decoded'
  by_contra differs
  obtain ⟨s, describes⟩ := described peer mem
  obtain rfl : s.key = key := Except.ok.inj (describes.key.symm.trans decoded')
  -- no other peer of the list has the key, so the old spelling is gone
  have gone : known peers existing = false := by
    by_contra stays
    obtain ⟨other, hother, same⟩ :=
      mem_map.mp (known_iff.mp ((Bool.not_eq_false _).mp stays))
    have isOther : other ≠ peer := by
      rintro rfl
      exact differs same.symm
    exact (separate.forall hother mem isOther).keys s.key (same ▸ decoded) decoded'
  have removedKey : s.key ∈ (removed.order state).flatMap (removedKeys codec peers) :=
    mem_keys.mpr ⟨existing, hold, gone, decoded⟩
  have settings := holds.settings s ⟨peer, mem, describes⟩
  unfold peerDelta at settings
  rw [Table.program_delta, Table.deletes_peers, if_pos removedKey] at settings
  cases settings

variable (sync : InSync codec range resolvePeer table state)
include sync

/-- If the delta is right, a peer that stays is as it was or sent with all its settings. -/
theorem InSync.update_of_holds {existing : AwgPeerOptions} (hold : existing ∈ state)
    (mem : peer ∈ peers) (same : existing.publicKey = peer.publicKey) :
    peersEqual existing peer = true ∨
      ∃ old s, Describes codec resolvePeer existing old ∧ Describes codec none peer s ∧
        s.update old.settings = s.settings := by
  obtain ⟨old, describesOld⟩ := sync.described existing hold
  obtain ⟨s, describes⟩ := described peer mem
  by_cases equal : kept state peer = true
  · exact .inl (sync.peersEqual_of_kept hold same equal)
  · refine .inr ⟨old, s, describesOld, describes, ?_⟩
    have sent := mem_sections_of_describes mem equal describes desired
    have settings := holds.settings s ⟨peer, mem, describes⟩
    unfold peerDelta at settings
    rw [Table.program_delta, Table.deletes_peers] at settings
    split at settings
    · cases settings
    rw [Table.puts_peers_mem (separate.sent state desired) sent,
      ← describesOld.key_eq same describes,
      sync.holds.settings old ⟨existing, hold, describesOld⟩] at settings
    exact Option.some.inj settings

/-- A setting that is taken away stays. -/
theorem keepsSettings_of_holds : KeepsSettings state peers := by
  refine ⟨?_, ?_, ?_⟩ <;> intro existing hold peer mem same unset <;>
    rcases sync.update_of_holds separate described holds hold mem same with
      equal | ⟨old, s, describesOld, describes, update⟩
  case inl | inl | inl =>
    rw [← peersEqual_iff.mp equal] at unset
    exact unset
  · have kept : s.presharedKey.or old.presharedKey = s.presharedKey :=
      congrArg Settings.presharedKey update
    rw [(presharedKeyOf_ok describes.presharedKey).mpr unset] at kept
    exact (presharedKeyOf_ok describesOld.presharedKey).mp kept
  · have kept : s.endpoint.or old.endpoint = s.endpoint := congrArg Settings.endpoint update
    rw [(endpointOf_ok describes.endpoint).mpr unset] at kept
    exact (endpointOf_ok describesOld.endpoint).mp kept
  · have kept : (if s.keepalive ≠ 0 then s.keepalive else old.keepalive) = s.keepalive :=
      congrArg Settings.keepalive update
    rw [describes.keepalive, unset, describesOld.keepalive] at kept
    simpa using kept

end Delta

/-! ## Runs -/

/-- What a call asks of the list, given the one in force: it is separate, no peer loses a
setting or comes back under another spelling, and a device that refuses it does so at once. -/
structure Admitted (codec : Codec κ) (range : Prefix → ι) (e : Endpoint κ ι) (call : Call) :
    Prop where
  separate : ∀ peers, call.options = some peers → SeparatePeers codec range peers
  keeps : ∀ peers, call.options = some peers → KeepsSettings e.peerState peers
  spelling : ∀ peers, call.options = some peers → SameSpelling codec e.peerState peers
  atOnce : ∀ n err, call.refused = some (n, err) → n = 0

section Runs

variable [DecidableEq κ] [DecidableEq ι]

/-- If the call succeeds, the device has the table that its list gives a new device. -/
def Right (codec : Codec κ) (range : Prefix → ι) (e : Endpoint κ ι) (call : Call) : Prop :=
  ∀ peers, call.options = some peers → (reloadPeers codec range e call).2 = none →
    ∃ lines, genIpcPeers codec none peers = .ok lines ∧
      (reloadPeers codec range e call).1.device = .started (Table.empty.program range lines)

def step (codec : Codec κ) (range : Prefix → ι) (e : Endpoint κ ι) (call : Call) :
    Turn (Endpoint κ ι) Empty :=
  .next (reloadPeers codec range e call).1

variable {refused : Option (Nat × String)} {table : Table κ ι} {lines : List (Line κ)} {call : Call}

/-- A device that accepts the lines has run them, and one that refuses them at once has not. -/
theorem ipcSetDelta_started {device : Device κ ι} {err : Option String}
    (h : (Device.started table).ipcSetDelta range refused lines = (device, err)) :
    (err = none → device = .started (table.program range lines)) ∧
      ((∀ n err, refused = some (n, err) → n = 0) → err.isSome → device = .started table) := by
  obtain _ | ⟨n, err⟩ := refused
  · cases h
    exact ⟨fun _ => rfl, nofun⟩
  simp only [Device.ipcSetDelta, ipcSet] at h
  split_ifs at h <;> cases h
  · refine ⟨nofun, fun atOnce _ => ?_⟩
    obtain rfl := atOnce n _ rfl
    rfl
  · exact ⟨fun _ => rfl, nofun⟩

variable {e : Endpoint κ ι} {table : Table κ ι} {peers : List AwgPeerOptions}

section

variable (started : e.device = .started table)
include started

theorem reloadPeers_ok (options : call.options = some peers)
    (success : (reloadPeers codec range e call).2 = none) :
    Acceptable codec peers ∧
    (∀ peer ∈ peers, kept e.peerState peer = true ∨ ∃ s, Describes codec none peer s) ∧
    (reloadPeers codec range e call).1.device =
      .started (table.program range
        (peerDelta codec call.desired call.removed e.peerState peers)) := by
  rcases reloadPeers_cases codec range e call with ⟨err, failed⟩ |
    ⟨peers', options', _, acceptable, outcome⟩
  · rw [failed] at success
    cases success
  obtain rfl : peers = peers' := Option.some.inj (options.symm.trans options')
  rcases outcome with ⟨unchanged, done⟩ | ⟨_, sendable, device, sent⟩
  · refine ⟨acceptable, fun peer mem => .inl (unchanged.1 peer mem), ?_⟩
    rw [done, peerDelta_unchanged unchanged]
    exact started
  · refine ⟨acceptable, sendable, ?_⟩
    rw [started] at sent
    rcases sent with ⟨err, _, done⟩ | ⟨accepted, done⟩
    · rw [done] at success
      cases success
    · rw [done]
      exact (ipcSetDelta_started accepted).1 rfl

variable (sync : InSync codec range resolvePeer table e.peerState)
include sync

/-- A call that succeeds is right exactly if no peer loses a setting or changes its
spelling. -/
theorem reloadPeers_right_iff (options : call.options = some peers)
    (separate : SeparatePeers codec range peers)
    (success : (reloadPeers codec range e call).2 = none) :
    Right codec range e call ↔
      KeepsSettings e.peerState peers ∧ SameSpelling codec e.peerState peers := by
  obtain ⟨acceptable, sendable, device⟩ := reloadPeers_ok started options success
  have described := sync.described_all acceptable sendable
  constructor
  · intro right
    obtain ⟨lines, hlines, device'⟩ := right peers options success
    have same : table.program range (peerDelta codec call.desired call.removed e.peerState peers) =
        Table.empty.program range lines := by
      rw [device] at device'
      exact Device.started.inj device'
    have holds := holds_genIpcPeers separate hlines
    rw [← same] at holds
    exact ⟨keepsSettings_of_holds separate described holds sync,
      sameSpelling_of_holds separate described holds⟩
  · rintro ⟨keeps, spelling⟩ peers' options' _
    obtain rfl : peers = peers' := Option.some.inj (options.symm.trans options')
    obtain ⟨lines, hlines⟩ := genIpcPeers_succeeds_iff.mpr described
    have holds :=
      delta_holds sync acceptable separate keeps spelling sendable call.desired call.removed
    exact ⟨lines, hlines, device.trans
      (congrArg Device.started (holds.unique (holds_genIpcPeers separate hlines)))⟩

theorem reloadPeers_sync (admitted : Admitted codec range e call) :
    ∃ table', (reloadPeers codec range e call).1.device = .started table' ∧
      InSync codec range resolvePeer table' (reloadPeers codec range e call).1.peerState := by
  rcases reloadPeers_cases codec range e call with ⟨err, failed⟩ |
    ⟨peers, options, _, acceptable, ⟨_, done⟩ | ⟨_, sendable, device, sent⟩⟩
  · rw [failed]
    exact ⟨table, started, sync⟩
  · rw [done]
    exact ⟨table, started, sync⟩
  · rw [started] at sent
    rcases sent with ⟨err, refused, done⟩ | ⟨accepted, done⟩
    · rw [done, (ipcSetDelta_started refused).2 admitted.atOnce rfl]
      exact ⟨table, rfl, sync⟩
    · rw [done, (ipcSetDelta_started accepted).1 rfl]
      refine ⟨_, rfl, acceptable.nodup, ?_, ?_⟩
      · intro peer mem
        obtain ⟨s, describes⟩ := sync.described_all acceptable sendable peer mem
        exact ⟨s, (describes_resolver (acceptable.noDomain peer mem)).mpr describes⟩
      · rw [sections_resolver acceptable.noDomain]
        exact delta_holds sync acceptable (admitted.separate peers options)
          (admitted.keeps peers options) (admitted.spelling peers options) sendable _ _

end

theorem start_sync {resolve : String → Except String String} {e₀ : Endpoint κ ι}
    (separate : SeparatePeers codec range peers)
    (built : newEndpoint codec resolve peers = .ok e₀) (up : e₀.start range none = (e, none)) :
    ∃ resolvePeer table, e.device = .started table ∧
      InSync codec range resolvePeer table e.peerState := by
  unfold newEndpoint at built
  simp only at built
  split at built
  · cases built
  rename_i ipc hipc
  cases built
  cases up
  have described := genIpcPeers_succeeds_iff.mp ⟨ipc, hipc⟩
  have nodup := separate.nodup described
  refine ⟨if peers.any fun peer => !codec.isAddr peer.address then some resolve else none, _,
    rfl, ?_⟩
  rw [show newPeerState peers = peers from foldl_replace AwgPeerOptions.publicKey nodup]
  exact ⟨nodup, described, holds_genIpcPeers separate hipc⟩

/-- Along every run of admitted calls from a started endpoint, each call that returns no
error leaves the device with the table that its list gives a new device. -/
theorem reloadPeers_runs (codec : Codec κ) (range : Prefix → ι)
    (resolve : String → Except String String) (peers : List AwgPeerOptions) (e₀ e : Endpoint κ ι)
    (separate : SeparatePeers codec range peers)
    (built : newEndpoint codec resolve peers = .ok e₀) (up : e₀.start range none = (e, none))
    (calls : List Call) (admitted : Along (step codec range) (Admitted codec range) e calls) :
    Along (step codec range) (Right codec range) e calls := by
  obtain ⟨resolvePeer, table, started, sync⟩ := start_sync separate built up
  apply along_mono (fun e : Endpoint κ ι => ∃ table, e.device = .started table ∧
    InSync codec range resolvePeer table e.peerState) _ _ e calls ⟨table, started, sync⟩ admitted
  · rintro e call ⟨table, started, sync⟩ now
    intro peers options success
    exact (reloadPeers_right_iff started sync options (now.separate peers options) success).mpr
      ⟨now.keeps peers options, now.spelling peers options⟩ peers options success
  · rintro e call ⟨table, started, sync⟩ now
    exact reloadPeers_sync started sync now

end Runs

/-! ### A keepalive interval taken away

Keys are their own decoding here, and ranges are told apart as they are written. -/

def textCodec : Codec String where
  decodeString := .ok
  isAddr _ := true

def listOrder : Ranging where
  order peers := peers
  perm _ := Perm.refl _

def plainCall (peers : List AwgPeerOptions) : Call where
  options := some peers
  checked := listOrder
  desired := listOrder
  removed := listOrder
  refused := none

def alicePeer (seconds : UInt16) : AwgPeerOptions :=
  { name := "alice", publicKey := "A", persistentKeepaliveInterval := seconds
    allowedIPs := [.v4 0x0a0a0002#32 32] }

def startedEndpoint (peers : List AwgPeerOptions) : Endpoint String Prefix :=
  match newEndpoint textCodec .ok peers with
  | .ok e => (e.start id none).1
  | .error _ => ⟨.missing, [], none⟩

def Device.keepalive (key : String) : Device String Prefix → Option UInt16
  | .started table => (table.peers key).map (·.keepalive)
  | _ => none

/-- The call succeeds, and the device keeps sending keepalives. -/
theorem reloadPeers_keeps_keepalive :
    SeparatePeers textCodec id [alicePeer 0] ∧
    (reloadPeers textCodec id (startedEndpoint [alicePeer 25]) (plainCall [alicePeer 0])).2 = none ∧
    (reloadPeers textCodec id (startedEndpoint [alicePeer 25])
      (plainCall [alicePeer 0])).1.device.keepalive "A" = some 25 ∧
    ¬ Right textCodec id (startedEndpoint [alicePeer 25]) (plainCall [alicePeer 0]) := by
  refine ⟨pairwise_singleton _ _, by decide, by decide, ?_⟩
  intro right
  obtain ⟨lines, hlines, device⟩ := right [alicePeer 0] rfl (by decide)
  cases hlines
  exact absurd (congrArg (Device.keepalive "A") device) (by decide)

theorem textCodec_sameSpelling (state peers : List AwgPeerOptions) :
    SameSpelling textCodec state peers := by
  intro existing _ peer _ key decoded decoded'
  exact Except.ok.inj (decoded.trans decoded'.symm)

/-- The interval changes, and a peer is added. -/
theorem reloadPeers_changes_keepalive :
    Along (step textCodec id) (Right textCodec id) (startedEndpoint [alicePeer 25])
      [plainCall [alicePeer 30], plainCall [alicePeer 30, { publicKey := "B" }]] := by
  apply reloadPeers_runs textCodec id .ok [alicePeer 25] _ _ (pairwise_singleton _ _) rfl rfl
  refine ⟨⟨?_, ?_, fun _ _ => textCodec_sameSpelling _ _, fun _ _ h => by cases h⟩,
    ⟨?_, ?_, fun _ _ => textCodec_sameSpelling _ _, fun _ _ h => by cases h⟩, trivial⟩
  · rintro _ ⟨⟩
    exact pairwise_singleton _ _
  · rintro _ ⟨⟩
    exact ⟨by decide, by decide, by decide⟩
  · rintro _ ⟨⟩
    refine pairwise_pair.mpr ⟨?_, by simp⟩
    intro key decoded decoded'
    have same := Except.ok.inj (decoded.trans decoded'.symm)
    simp [alicePeer] at same
  · rintro _ ⟨⟩
    exact ⟨by decide, by decide, by decide⟩

end SingBox.Awg
