import SingBox.Sniff.Frames

/-!
# The end of the search for fragments

The `find` loop moves its index to the end of the fragment it has written. The numbers of a
fragment have 62 bits, so that the index grows whenever the fragment is not empty; an empty one
is found again, for ever.

* `Collected` — the lists of fragments that packets can leave;
* `Progresses` — no fragment that is found is empty;
* `reassemble_isSome_iff` — the loop ends if and only if it comes to where no fragment is;
* `reassemble_ends_iff` — for lists that packets leave, if and only if it progresses, and then
  within as many turns as there are fragments.
-/

namespace SingBox.Sniff.Quic

open SingBox.Lib List

/-- The fragments of some packets, those of the last packet first. -/
inductive Collected : List CryptoFragment → Prop where
  | nil : Collected []
  | packet {saved : List CryptoFragment} (earlier : Collected saved) (decrypted : Slice)
      (frames : Frames) (read : readFrames .capacity decrypted = .ok frames) :
      Collected (frames.fragments ++ saved)

/-- The numbers of each fragment have 62 bits. -/
def Small (fragments : List CryptoFragment) : Prop :=
  ∀ fragment ∈ fragments, fragment.offset.toNat < 2 ^ 62 ∧ fragment.length.toNat < 2 ^ 62

theorem Collected.small {fragments : List CryptoFragment} (h : Collected fragments) :
    Small fragments := by
  induction h with
  | nil => exact forall_mem_nil _
  | packet _ decrypted frames read ih =>
    refine forall_mem_append.mpr ⟨fun fragment new => ?_, ih⟩
    have wire := readFrames_wire read fragment new
    exact ⟨wire.offset_lt, wire.length_lt⟩

/-- The end of a fragment does not wrap around. -/
theorem toNat_end {offset length : UInt64} (hoffset : offset.toNat < 2 ^ 62)
    (hlength : length.toNat < 2 ^ 62) : (offset + length).toNat = offset.toNat + length.toNat := by
  rw [UInt64.toNat_add, Nat.mod_eq_of_lt (by omega)]

variable {fragments : List CryptoFragment} {index : UInt64} {fragment : CryptoFragment}
  {search : Search}

theorem fragmentAt_some (h : fragmentAt fragments index = some fragment) :
    fragment ∈ fragments ∧ fragment.offset = index :=
  ⟨mem_of_find?_eq_some h, by simpa using find?_some h⟩

theorem findTurn_some (h : fragmentAt fragments search.index = some fragment) :
    findTurn fragments search =
      .next ⟨fragment.offset + fragment.length, search.buffer.write fragment.payload⟩ := by
  unfold findTurn
  rw [h]

theorem findTurn_none (h : fragmentAt fragments search.index = none) :
    findTurn fragments search = .stop search () := by
  unfold findTurn
  rw [h]

inductive Reaches (fragments : List CryptoFragment) : UInt64 → Prop where
  | start : Reaches fragments 0
  | next {index : UInt64} {fragment : CryptoFragment} (here : Reaches fragments index)
      (found : fragmentAt fragments index = some fragment) :
      Reaches fragments (fragment.offset + fragment.length)

theorem reaches_iff_visits (buffer : Buffer) : Reaches fragments index ↔
    ∃ later, Visits (findTurn fragments) ⟨0, buffer⟩ ⟨index, later⟩ := by
  constructor
  · intro here
    induction here with
    | start => exact ⟨buffer, .refl _⟩
    | next _ found ih =>
      obtain ⟨later, visits⟩ := ih
      exact ⟨_, visits.snoc (findTurn_some found)⟩
  · rintro ⟨later, visits⟩
    refine visits.keeps (fun search => Reaches fragments search.index) (fun s s' turn here => ?_)
      .start
    cases found : fragmentAt fragments s.index with
    | none => cases (findTurn_none found).symm.trans turn
    | some fragment =>
      cases (findTurn_some found).symm.trans turn
      exact .next here found

/-- The fragments from the offset zero on lead to an offset that none has. -/
def Ends (fragments : List CryptoFragment) : Prop :=
  ∃ index, Reaches fragments index ∧ fragmentAt fragments index = none

/-- No fragment that the search finds is empty. -/
def Progresses (fragments : List CryptoFragment) : Prop :=
  ∀ index fragment, Reaches fragments index → fragmentAt fragments index = some fragment →
    fragment.length ≠ 0

/-- The fragments that are not behind the index. -/
def ahead (fragments : List CryptoFragment) (index : UInt64) : Nat :=
  (fragments.filter fun fragment => index.toNat ≤ fragment.offset.toNat).length

/-- A fragment that is not empty is left behind. -/
theorem ahead_lt (found : fragmentAt fragments index = some fragment) {next : UInt64}
    (grows : index.toNat < next.toNat) : ahead fragments next < ahead fragments index := by
  obtain ⟨mem, rfl⟩ := fragmentAt_some found
  have later : (fragments.filter fun other => next.toNat ≤ other.offset.toNat) =
      (fragments.filter fun other => fragment.offset.toNat ≤ other.offset.toNat).filter
        fun other => next.toNat ≤ other.offset.toNat := by
    rw [filter_filter]
    refine filter_congr fun other _ => ?_
    rw [← Bool.decide_and, decide_eq_decide]
    omega
  rw [ahead, ahead, later, length_filter_lt_length_iff_exists]
  exact ⟨fragment, mem_filter.mpr ⟨mem, by simp⟩, by simpa using grows⟩

/-- While no empty fragment is found, the search ends. -/
theorem turns_of_progresses (small : Small fragments) (progresses : Progresses fragments)
    (buffer : Buffer) :
    ∃ search, ∀ fuel, fragments.length < fuel →
      turns (findTurn fragments) fuel ⟨0, buffer⟩ = some (search, ()) := by
  have grows : ∀ search, Reaches fragments search.index → (findTurn fragments search).Leaves
      (fun next => Reaches fragments next.index ∧
        ahead fragments next.index < ahead fragments search.index) fun _ _ => True := by
    intro search here
    cases found : fragmentAt fragments search.index with
    | none =>
      rw [findTurn_none found]
      trivial
    | some fragment =>
      rw [findTurn_some found]
      refine ⟨.next here found, ahead_lt found ?_⟩
      obtain ⟨mem, same⟩ := fragmentAt_some found
      obtain ⟨hoffset, hlength⟩ := small fragment mem
      have nonempty : 0 < fragment.length.toNat := Nat.pos_of_ne_zero fun zero =>
        progresses search.index fragment here found (UInt64.toNat_inj.mp zero)
      rw [← same, toNat_end hoffset hlength]
      omega
  obtain ⟨search, _, ends, -⟩ := turns_ends (fun search : Search => Reaches fragments search.index)
    (fun _ _ => True) (fun search => ahead fragments search.index) grows (s := ⟨0, buffer⟩) .start
  refine ⟨search, fun fuel enough => ends fuel ?_⟩
  exact Nat.lt_of_le_of_lt (length_filter_le _ _) enough

/-- At an empty fragment the search stays where it is. -/
theorem turns_of_empty (found : fragmentAt fragments index = some fragment)
    (empty : fragment.length = 0) (fuel : Nat) (buffer : Buffer) :
    turns (findTurn fragments) fuel ⟨index, buffer⟩ = none := by
  refine turns_never (fun search => search.index = index) (fun search here => ?_) rfl fuel
  rw [← here] at found
  refine ⟨_, findTurn_some found, ?_⟩
  have same := (fragmentAt_some found).2
  rw [empty, UInt64.add_zero, same, here]

/-- The `find` loop ends if and only if it finds no empty fragment, and then within as many
turns as there are fragments. -/
theorem reassemble_ends_iff (collected : Collected fragments) (buffer : Buffer) :
    ((∃ fuel, (reassemble fragments fuel buffer).isSome) ↔ Progresses fragments) ∧
      (Progresses fragments →
        ∃ bytes, ∀ fuel, fragments.length < fuel →
          reassemble fragments fuel buffer = some bytes) := by
  have forward : Progresses fragments →
      ∃ bytes, ∀ fuel, fragments.length < fuel →
        reassemble fragments fuel buffer = some bytes := by
    intro progresses
    obtain ⟨search, ends⟩ := turns_of_progresses collected.small progresses buffer
    refine ⟨search.buffer.bytes, fun fuel enough => ?_⟩
    rw [reassemble, ends fuel enough]
    rfl
  refine ⟨⟨?_, ?_⟩, forward⟩
  · -- from the index of an empty fragment the search would have to end as well
    rintro ⟨fuel, ends⟩ index fragment here found empty
    obtain ⟨later, visits⟩ := (reaches_iff_visits buffer).mp here
    rw [reassemble, visits.never fun fuel => turns_of_empty found empty fuel later] at ends
    cases ends
  · intro progresses
    obtain ⟨bytes, ends⟩ := forward progresses
    exact ⟨fragments.length + 1, by rw [ends _ (Nat.lt_succ_self _)]; rfl⟩

/-- Three bytes in two packets, the end first. -/
theorem reassemble_ends_swapped :
    let fragments : List CryptoFragment := [⟨0, 1, [7]⟩, ⟨1, 2, [8, 9]⟩]
    Collected fragments ∧
      ((∃ fuel, (reassemble fragments fuel ⟨8, []⟩).isSome) ↔ Progresses fragments) := by
  intro fragments
  have collected : Collected fragments :=
    .packet (.packet .nil (.ofBytes [6, 1, 2, 8, 9]) ⟨[6], [⟨1, 2, [8, 9]⟩]⟩ rfl)
      (.ofBytes [6, 0, 1, 7]) ⟨[6], [⟨0, 1, [7]⟩]⟩ rfl
  exact ⟨collected, (reassemble_ends_iff collected ⟨8, []⟩).1⟩

/-- A CRYPTO frame without bytes at the offset zero: the sniffer does not return. -/
theorem reassemble_never :
    Collected [⟨0, 0, []⟩] ∧
      (∀ fuel buffer, reassemble [⟨0, 0, []⟩] fuel buffer = none) ∧
      ∀ compute fuel,
        QUICClientHello .capacity ⟨.clear, compute⟩ fuel {} (initialPacket [6, 0, 0]) = none := by
  have found : fragmentAt [⟨0, 0, []⟩] 0 = some ⟨0, 0, []⟩ := rfl
  have never : ∀ fuel buffer, reassemble [⟨0, 0, []⟩] fuel buffer = none := by
    intro fuel buffer
    rw [reassemble, turns_of_empty found rfl]
    rfl
  refine ⟨.packet .nil (.ofBytes [6, 0, 0]) ⟨[6], [⟨0, 0, []⟩]⟩ rfl, never, fun compute fuel => ?_⟩
  have frames : packetFrames .capacity .clear (initialPacket [6, 0, 0]) =
      .ok ⟨[6], [⟨0, 0, []⟩]⟩ := rfl
  rw [QUICClientHello, frames]
  exact congrArg (Option.map _) (never fuel _)

end SingBox.Sniff.Quic
