import SingBox.Awg.Sync

/-!
# Names follow the peer list

`ReloadPeers` replaces the name table together with the peers, but it returns before
that when there is nothing to program. Names are not programmed, so a list that only
renames peers leaves the old names in force.

* `lookupName_newPeerNameTable` — the table answers with the first of the longest ranges;
* `names_runs_iff` — the names follow the list along a run exactly if no call that
  programs nothing changes a name.
-/

namespace SingBox.Awg

open Lib List

/-! ## Lookup -/

/-- A turn of the loop in `Lookup`. -/
def better (addr : Addr) (best : String × Int) (entry : PeerNameEntry) : String × Int :=
  if entry.range.bits > best.2 && entry.range.contains addr then (entry.name, entry.range.bits)
  else best

/-- The entries of `newPeerNameTable`. -/
def nameEntries (peers : List AwgPeerOptions) : List PeerNameEntry :=
  peers.flatMap fun peer => if peer.name = "" then [] else peer.allowedIPs.map (⟨·, peer.name⟩)

variable (peers : List AwgPeerOptions)

theorem lookupName_newPeerNameTable (addr : Addr) :
    lookupName (newPeerNameTable peers) addr =
      if addr.isValid then ((nameEntries peers).foldl (better addr.unmap) ("", -1)).1 else "" := by
  unfold newPeerNameTable
  simp only
  split
  · rename_i none
    have empty : nameEntries peers = [] := length_eq_zero_iff.mp none
    rw [empty]
    cases addr.isValid <;> rfl
  · unfold lookupName
    cases addr.isValid <;> rfl

/-! ## Runs -/

variable {κ ι : Type}

/-- An endpoint, and the peers of the last call that returned no error. -/
structure Attributed (κ ι : Type) where
  endpoint : Endpoint κ ι
  last : List AwgPeerOptions

/-- The endpoint names addresses as its list does. -/
def Attributed.Follows (s : Attributed κ ι) : Prop :=
  ∀ addr, lookupName s.endpoint.peerNames addr = lookupName (newPeerNameTable s.last) addr

/-- A call with a list that is accepted, but gives nothing to program, names every
address as the list before did. -/
def NamesKept (codec : Codec κ) (s : Attributed κ ι) (call : Call) : Prop :=
  ∀ peers, call.options = some peers → s.endpoint.device ≠ .missing → Acceptable codec peers →
    Unchanged s.endpoint.peerState peers →
      ∀ addr, lookupName (newPeerNameTable peers) addr = lookupName (newPeerNameTable s.last) addr

section Runs

variable [DecidableEq κ] [DecidableEq ι]

/-- `ReloadPeers`, and the record of its list if it returns no error. -/
def Attributed.reload (codec : Codec κ) (range : Prefix → ι) (s : Attributed κ ι) (call : Call) :
    Attributed κ ι :=
  match reloadPeers codec range s.endpoint call with
  | (e, none) => ⟨e, call.options.getD s.last⟩
  | (e, some _) => ⟨e, s.last⟩

def Attributed.step (codec : Codec κ) (range : Prefix → ι) (s : Attributed κ ι) (call : Call) :
    Turn (Attributed κ ι) Empty :=
  .next (s.reload codec range call)

/-- From an endpoint whose names follow its list, they follow the next one exactly if
a call that programs nothing changes no name. -/
theorem follows_iff (codec : Codec κ) (range : Prefix → ι) (s : Attributed κ ι) (call : Call)
    (follows : s.Follows) : (s.reload codec range call).Follows ↔ NamesKept codec s call := by
  unfold Attributed.reload
  rcases reloadPeers_cases codec range s.endpoint call with ⟨err, failed⟩ |
    ⟨peers, options, present, acceptable, ⟨unchanged, done⟩ | ⟨changed, _, device, sent⟩⟩
  · rw [failed]
    refine ⟨fun _ => ?_, fun _ => follows⟩
    intro peers options present acceptable unchanged
    rw [reloadPeers_eq options present, peerDeltas_unchanged call acceptable unchanged] at failed
    cases failed
  · -- the list is new, the names are not
    rw [done, options]
    constructor
    · intro new peers' options' _ _ _ addr
      obtain rfl : peers = peers' := Option.some.inj (options.symm.trans options')
      exact (new addr).symm.trans (follows addr)
    · intro names addr
      exact (follows addr).trans (names peers options present acceptable unchanged addr).symm
  · -- something was sent, so the condition says nothing about this call
    have vacuous : NamesKept codec s call := by
      intro peers' options' _ _ unchanged
      obtain rfl : peers = peers' := Option.some.inj (options.symm.trans options')
      exact absurd unchanged changed
    rcases sent with ⟨err, _, done⟩ | ⟨_, done⟩
    · rw [done]
      exact ⟨fun _ => vacuous, fun _ => follows⟩
    · rw [done, options]
      exact ⟨fun _ => vacuous, fun _ _ => rfl⟩

/-- Along every run of calls on an endpoint that has been built and started, the names
follow the list of the last call without an error exactly if no call that programs nothing
changes a name. -/
theorem names_runs_iff (codec : Codec κ) (range : Prefix → ι)
    (resolve : String → Except String String) (peers : List AwgPeerOptions) (e₀ : Endpoint κ ι)
    (built : newEndpoint codec resolve peers = .ok e₀) (refused : Option (Nat × String))
    (calls : List Call) :
    Along (Attributed.step codec range) (fun s call => (s.reload codec range call).Follows)
        ⟨(e₀.start range refused).1, peers⟩ calls ↔
      Along (Attributed.step codec range) (NamesKept codec) ⟨(e₀.start range refused).1, peers⟩
        calls := by
  -- the names follow the list before each call, as they did after the one before it
  refine along_congr Attributed.Follows (follows_iff codec range) ?_ _ calls ?_
  · intro s call _ now
    exact now
  have names : (e₀.start range refused).1.peerNames = e₀.peerNames := by
    unfold Endpoint.start
    split
    · split <;> rfl
    · rfl
  unfold newEndpoint at built
  simp only at built
  split at built <;> cases built
  intro addr
  rw [names]

end Runs

/-! ### A peer renamed, and peers reordered -/

def bobPeer : AwgPeerOptions :=
  { name := "bob", publicKey := "B", allowedIPs := [.v4 0x0a0a0003#32 32] }

/-- The call succeeds, and new connections are still counted for the old name. -/
theorem reloadPeers_keeps_name :
    (reloadPeers textCodec id (startedEndpoint [alicePeer 25])
      (plainCall [{ alicePeer 25 with name := "carol" }])).2 = none ∧
    lookupName (newPeerNameTable [{ alicePeer 25 with name := "carol" }]) (.v4 0x0a0a0002#32) =
      "carol" ∧
    lookupName (reloadPeers textCodec id (startedEndpoint [alicePeer 25])
      (plainCall [{ alicePeer 25 with name := "carol" }])).1.peerNames (.v4 0x0a0a0002#32) =
      "alice" ∧
    ¬ Along (Attributed.step textCodec id)
      (fun s call => (s.reload textCodec id call).Follows)
      ⟨startedEndpoint [alicePeer 25], [alicePeer 25]⟩
      [plainCall [{ alicePeer 25 with name := "carol" }]] := by
  refine ⟨by decide, by decide, by decide, ?_⟩
  rintro ⟨follows, _⟩
  exact absurd (follows (.v4 0x0a0a0002#32)) (by decide)

/-- The peers change places; their ranges have the same length, and nothing in common. -/
theorem reloadPeers_reorders :
    Along (Attributed.step textCodec id) (fun s call => (s.reload textCodec id call).Follows)
      ⟨startedEndpoint [alicePeer 25, bobPeer], [alicePeer 25, bobPeer]⟩
      [plainCall [bobPeer, alicePeer 25]] := by
  refine (names_runs_iff textCodec id .ok [alicePeer 25, bobPeer] _ rfl none _).mpr ⟨?_, trivial⟩
  rintro _ ⟨⟩ _ _ _ addr
  rw [lookupName_newPeerNameTable, lookupName_newPeerNameTable]
  have entries : nameEntries [bobPeer, alicePeer 25] =
      [⟨.v4 0x0a0a0003#32 32, "bob"⟩, ⟨.v4 0x0a0a0002#32 32, "alice"⟩] := rfl
  have entries' : nameEntries [alicePeer 25, bobPeer] =
      [⟨.v4 0x0a0a0002#32 32, "alice"⟩, ⟨.v4 0x0a0a0003#32 32, "bob"⟩] := rfl
  -- a range of full length contains one address
  have apart : (Prefix.v4 0x0a0a0003#32 32).contains addr.unmap = false ∨
      (Prefix.v4 0x0a0a0002#32 32).contains addr.unmap = false := by
    cases addr.unmap with
    | v4 a =>
      by_cases bob : a = 0x0a0a0003#32
      · right
        subst bob
        rfl
      · left
        simpa [Prefix.contains] using Ne.symm bob
    | _ => exact .inl rfl
  rw [entries, entries']
  rcases apart with no | no <;> simp [better, no]

end SingBox.Awg
