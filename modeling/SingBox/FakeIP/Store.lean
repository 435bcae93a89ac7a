import SingBox.FakeIP.Storage
import SingBox.Lib.Block

/-!
# The store of FakeIP addresses

A domain that has no address gets the one after the last address given out. The cursor
begins at the second address of the range, skips the broadcast address and begins again at
the third address once it has left the range. The base of the range is not masked, so it
can be anywhere in its block.

* `Family` — what the code relies on of IPv4 and of IPv6;
* `allocate_roomy`, `allocate_cramped` — where the cursor goes next;
* `Invariant.step` — what holds of every address allocated holds of every address returned;
* `Create_recognised` — for which ranges every address returned is in its range and not the
  broadcast address.
-/

namespace SingBox.FakeIP

open Lib Lib.Bolt FakeIPStorage

/-! ## The store -/

def broadcastAddress (p : Prefix) : Addr :=
  let addr := p.addr
  let raw := addr.as16
  let bits := if addr.is4 then p.bits.toNat + 96 else p.bits.toNat
  let raw := setFrom bits raw
  if addr.is4 then .v4 (raw.setWidth 32) else .v6 raw []

/-- The part of `Store` that is fixed when it is created. -/
structure Store where
  inet4Range : Prefix
  inet6Range : Prefix
  inet4Last : Addr
  inet6Last : Addr
  deriving DecidableEq, Repr

def NewStore (inet4Range inet6Range : Prefix) : Store where
  inet4Range
  inet6Range
  inet4Last := if inet4Range.isValid then broadcastAddress inet4Range else .invalid
  inet6Last := if inet6Range.isValid then broadcastAddress inet6Range else .invalid

def NewTransport (inet4Range inet6Range : Option Prefix) : Except String Store :=
  let inet4Range := inet4Range.getD .invalid
  let inet6Range := inet6Range.getD .invalid
  if !inet4Range.isValid && !inet6Range.isValid then
    .error "at least one of inet4_range or inet6_range must be set"
  else .ok (NewStore inet4Range inet6Range)

structure Started (σ : Type) extends Store where
  storage : σ
  inet4Current : Addr
  inet6Current : Addr

section Code

variable {σ : Type} [FakeIPStorage σ]

/-- `Store.Start`; an error of the reset is dropped. -/
def Store.Start (s : Store) (storage : σ) (readRefused resetRefused : Option Error) : Started σ :=
  let (metadata, storage) := FakeIPMetadata readRefused storage
  let fresh : Started σ :=
    { toStore := s
      storage := (FakeIPReset resetRefused storage).1
      inet4Current := if s.inet4Range.isValid then s.inet4Range.addr.next else .invalid
      inet6Current := if s.inet6Range.isValid then s.inet6Range.addr.next else .invalid }
  match metadata with
  | some m =>
      if m.inet4Range = s.inet4Range ∧ m.inet6Range = s.inet6Range then
        { toStore := s, storage, inet4Current := m.inet4Current, inet6Current := m.inet6Current }
      else fresh
  | none => fresh

def Store.Contains (s : Store) (address : Addr) : Bool :=
  s.inet4Range.contains address || s.inet6Range.contains address

/-- The address after the current one, as `Create` chooses it for either family. -/
def allocate (range : Prefix) (last current : Addr) : Addr :=
  let nextAddress := current.next
  if nextAddress = last ∨ range.contains nextAddress = false then range.addr.next.next
  else nextAddress

theorem allocate_induction {P : Addr → Prop} (next : ∀ {a : Addr}, P a → P a.next) {range : Prefix}
    (base : P range.addr) {last current : Addr} (h : P current) :
    P (allocate range last current) := by
  unfold allocate
  dsimp only
  split_ifs
  · exact next (next base)
  · exact next h

variable (s : Started σ)

/-- The end of `Create`. -/
def Started.save (address : Addr) (domain : Bytes) (refused : Option Error) : Started σ :=
  { s with
    storage := FakeIPSaveMetadataAsync
      { inet4Range := s.inet4Range, inet6Range := s.inet6Range,
        inet4Current := s.inet4Current, inet6Current := s.inet6Current }
      (FakeIPStore refused address domain s.storage).1 }

/-- `Store.Create`. The address is looked up again under the lock, with the same result when
no other call comes in between. -/
def Started.Create (domain : Bytes) (isIPv6 : Bool) (refused : Option Error) :
    Except String Addr × Started σ :=
  match FakeIPLoadDomain s.storage domain isIPv6 with
  | some address => (.ok address, s)
  | none =>
      if !isIPv6 then
        if !s.inet4Current.isValid then (.error "missing IPv4 fakeip address range", s)
        else
          let address := allocate s.inet4Range s.inet4Last s.inet4Current
          (.ok address, { s with inet4Current := address }.save address domain refused)
      else
        if !s.inet6Current.isValid then (.error "missing IPv6 fakeip address range", s)
        else
          let address := allocate s.inet6Range s.inet6Last s.inet6Current
          (.ok address, { s with inet6Current := address }.save address domain refused)

def Started.Lookup (address : Addr) : Option Bytes := FakeIPLoad s.storage address

/-- What happens to a store that was started. -/
inductive Event where
  | create (domain : Bytes) (isIPv6 : Bool) (refused : Option Error)
  /-- The timer that saves the metadata runs out. -/
  | timer (refused : Option Error)

def Started.step : Event → Option (Started σ)
  | .create domain isIPv6 refused => some (s.Create domain isIPv6 refused).2
  | .timer refused => some { s with storage := timer refused s.storage }

end Code

/-! ## Addresses that were allocated are the only ones returned -/

/-- What the cursors of a store keep: `Cursor4` and `Cursor6` hold of them, and `Good` of every
address they go to. -/
structure Allocates (config : Store) (Cursor4 Cursor6 Good : Addr → Prop) : Prop where
  inet4 : ∀ current, Cursor4 current → current.isValid = true →
    Good (allocate config.inet4Range config.inet4Last current) ∧
    Cursor4 (allocate config.inet4Range config.inet4Last current)
  inet6 : ∀ current, Cursor6 current → current.isValid = true →
    Good (allocate config.inet6Range config.inet6Last current) ∧
    Cursor6 (allocate config.inet6Range config.inet6Last current)
  zone : ∀ a, Good a → a.withoutZone = a

structure Invariant {σ : Type} [FakeIPStorage σ] (config : Store)
    (Cursor4 Cursor6 Good : Addr → Prop) (s : Started σ) : Prop where
  store : s.toStore = config
  cursor4 : Cursor4 s.inet4Current
  cursor6 : Cursor6 s.inet6Current
  good : ∀ a, Loads s.storage a → Good a

section Invariant

variable {σ : Type} [FakeIPStorage σ] [LawfulStorage σ] {config : Store}
  {Cursor4 Cursor6 Good : Addr → Prop} {s s' : Started σ}

variable (allocates : Allocates config Cursor4 Cursor6 Good)
include allocates

variable (inv : Invariant config Cursor4 Cursor6 Good s)
include inv

theorem Invariant.save {address : Addr} (good : Good address) (domain : Bytes)
    (refused : Option Error) :
    Invariant config Cursor4 Cursor6 Good (s.save address domain refused) := by
  refine { inv with good := fun a loads => ?_ }
  rcases LawfulStorage.loads_store (LawfulStorage.loads_saveMetadataAsync loads) with
    old | rfl | rfl
  · exact inv.good a old
  · exact good
  · rwa [allocates.zone _ good]

/-- A call keeps the invariant, and the address it returns is good. -/
theorem Invariant.create (domain : Bytes) (isIPv6 : Bool) (refused : Option Error) :
    (∀ address, (s.Create domain isIPv6 refused).1 = .ok address → Good address) ∧
    Invariant config Cursor4 Cursor6 Good (s.Create domain isIPv6 refused).2 := by
  obtain rfl := inv.store
  have saved (moved : Started σ) {a : Addr} (inv : Invariant s.toStore Cursor4 Cursor6 Good moved)
      (good : Good a) : (∀ address, (.ok a : Except String Addr) = .ok address → Good address) ∧ _ :=
    ⟨by rintro _ ⟨⟩; exact good, inv.save allocates good domain refused⟩
  unfold Started.Create
  split
  · rename_i address loaded
    refine ⟨?_, inv⟩
    rintro _ ⟨⟩
    exact inv.good address ⟨domain, isIPv6, loaded⟩
  · split_ifs with family missing missing
    · exact ⟨nofun, inv⟩
    · obtain ⟨good, cursor⟩ := allocates.inet4 _ inv.cursor4 (by simpa using missing)
      exact saved { s with inet4Current := allocate s.inet4Range s.inet4Last s.inet4Current }
        ⟨rfl, cursor, inv.cursor6, inv.good⟩ good
    · exact ⟨nofun, inv⟩
    · obtain ⟨good, cursor⟩ := allocates.inet6 _ inv.cursor6 (by simpa using missing)
      exact saved { s with inet6Current := allocate s.inet6Range s.inet6Last s.inet6Current }
        ⟨rfl, inv.cursor4, cursor, inv.good⟩ good

theorem Invariant.step {event : Event} (h : s.step event = some s') :
    Invariant config Cursor4 Cursor6 Good s' := by
  cases event with
  | create domain isIPv6 refused =>
    cases h
    exact (inv.create allocates domain isIPv6 refused).2
  | timer refused =>
    cases h
    exact { inv with good := fun a loads => inv.good a (LawfulStorage.loads_timer loads) }

theorem Invariant.steps {events : List Event} (run : steps Started.step s events = some s') :
    Invariant config Cursor4 Cursor6 Good s' :=
  steps_keeps (Invariant config Cursor4 Cursor6 Good)
    (fun _ _ _ inv now => inv.step allocates now) inv run

end Invariant

/-! ## The two families -/

/-- The number of an address in its family. -/
def number : Addr → Nat
  | .invalid => 0
  | .v4 ip => ip.toNat
  | .v6 ip _ => ip.toNat

/-- What the code relies on of a family of addresses with `w` bits. -/
structure Family (w : Nat) where
  addr : BitVec w → Addr
  range : BitVec w → Fin (w + 1) → Prefix
  wide : 1 < w
  valid : ∀ ip, (addr ip).isValid = true
  withoutZone : ∀ ip, (addr ip).withoutZone = addr ip
  number : ∀ ip, number (addr ip) = ip.toNat
  injective : ∀ {a b}, addr a = addr b → a = b
  next : ∀ ip, (addr ip).next = if ip + 1#w = 0#w then .invalid else addr (ip + 1#w)
  isValid_range : ∀ base bits, (range base bits).isValid = true
  addr_range : ∀ base bits, (range base bits).addr = addr base
  contains : ∀ base bits a, (range base bits).contains (addr a) = sameBlock (w - bits) base a
  broadcast : BitVec w → Fin (w + 1) → BitVec w
  broadcastAddress : ∀ base bits, broadcastAddress (range base bits) = addr (broadcast base bits)
  toNat_broadcast : ∀ base bits, (broadcast base bits).toNat =
    2 ^ (w - bits) * (base.toNat / 2 ^ (w - bits)) + (2 ^ (w - bits) - 1)

def inet4 : Family 32 where
  addr := .v4
  range := .v4
  wide := by decide
  valid _ := rfl
  withoutZone _ := rfl
  number _ := rfl
  injective h := Addr.v4.inj h
  next _ := rfl
  isValid_range _ _ := rfl
  addr_range _ _ := rfl
  contains _ _ _ := rfl
  broadcast base bits := (setFrom (bits + 96) (Addr.v4 base).as16).setWidth 32
  broadcastAddress _ _ := rfl
  toNat_broadcast base bits := by
    apply toNat_of_low_ones (by omega)
    intro k hk
    have inside : k < 128 := by omega
    rw [BitVec.getLsbD_setWidth, getLsbD_setFrom _ inside]
    have mapped : (Addr.v4 base).as16.getLsbD k = base.getLsbD k := by
      rw [Addr.as16, BitVec.getLsbD_or, BitVec.getLsbD_shiftLeft, BitVec.getLsbD_setWidth]
      simp [hk, inside]
    have host : 128 - (bits.val + 96) = 32 - bits.val := by omega
    simp [hk, mapped, host]

def inet6 : Family 128 where
  addr ip := .v6 ip []
  range := .v6
  wide := by decide
  valid _ := rfl
  withoutZone _ := rfl
  number _ := rfl
  injective h := (Addr.v6.inj h).1
  next _ := rfl
  isValid_range _ _ := rfl
  addr_range _ _ := rfl
  contains _ _ _ := rfl
  broadcast base bits := setFrom bits base
  broadcastAddress _ _ := rfl
  toNat_broadcast base bits := by
    apply toNat_of_low_ones (by omega)
    intro k hk
    exact getLsbD_setFrom base hk

section Cursor

variable {w : Nat} (F : Family w) {base : BitVec w} {bits : Fin (w + 1)}

theorem Family.one_mod (F : Family w) : 1 % 2 ^ w = 1 :=
  Nat.mod_eq_of_lt (Nat.one_lt_two_pow (Nat.ne_of_gt (Nat.lt_trans Nat.one_pos F.wide)))

theorem Family.next_of_lt (ip : BitVec w) (h : ip.toNat + 1 < 2 ^ w) :
    (F.addr ip).next = F.addr (ip + 1#w) ∧ (ip + 1#w).toNat = ip.toNat + 1 := by
  have number : (ip + 1#w).toNat = ip.toNat + 1 := by
    rw [BitVec.toNat_add, BitVec.toNat_ofNat, F.one_mod, Nat.mod_eq_of_lt h]
  refine ⟨?_, number⟩
  rw [F.next, if_neg]
  intro zero
  rw [zero] at number
  simp at number

theorem Family.next_of_last {ip : BitVec w} (h : ¬ ip.toNat + 1 < 2 ^ w) :
    (F.addr ip).next = .invalid := by
  have isLast : ip.toNat + 1 = 2 ^ w := by
    omega
  rw [F.next, if_pos]
  apply BitVec.eq_of_toNat_eq
  rw [BitVec.toNat_add, BitVec.toNat_ofNat, F.one_mod, isLast]
  simp

/-- Between the base and the broadcast address the cursor stays, if there is room for it. -/
theorem allocate_roomy (roomy : base.toNat + 2 < (F.broadcast base bits).toNat)
    {current : BitVec w} (above : base.toNat < current.toNat)
    (below : current.toNat < (F.broadcast base bits).toNat) :
    ∃ a, allocate (F.range base bits) (F.addr (F.broadcast base bits)) (F.addr current) =
        F.addr a ∧ base.toNat < a.toNat ∧ a.toNat < (F.broadcast base bits).toNat := by
  obtain ⟨next, number⟩ := F.next_of_lt current (by omega)
  obtain ⟨next₁, number₁⟩ := F.next_of_lt base (by omega)
  obtain ⟨next₂, number₂⟩ := F.next_of_lt (base + 1#w) (by omega)
  unfold allocate
  simp only [next, F.addr_range, next₁, next₂]
  split_ifs with leaves
  · exact ⟨_, rfl, by omega, by omega⟩
  · refine ⟨_, rfl, by omega, ?_⟩
    rw [not_or] at leaves
    have ne : (current + 1#w).toNat ≠ (F.broadcast base bits).toNat := fun same =>
      leaves.1 (congrArg F.addr (BitVec.eq_of_toNat_eq same))
    omega

theorem Family.contains_of_lt {a : BitVec w} (above : base.toNat < a.toNat)
    (below : a.toNat < (F.broadcast base bits).toNat) :
    (F.range base bits).contains (F.addr a) = true ∧ F.addr a ≠ F.addr (F.broadcast base bits) := by
  refine ⟨?_, fun same => ?_⟩
  · rw [F.contains]
    exact sameBlock_of_le (F.toNat_broadcast base bits) (by omega) (by omega)
  · rw [F.injective same] at below
    omega

/-- If there is no room, the first address is the broadcast address, none or outside. -/
theorem allocate_cramped (cramped : ¬ base.toNat + 2 < (F.broadcast base bits).toNat)
    (first : base.toNat + 1 < 2 ^ w) :
    let a := allocate (F.range base bits) (F.addr (F.broadcast base bits)) (F.addr base).next
    a = F.addr (F.broadcast base bits) ∨ a = .invalid ∨
      ∃ ip, a = F.addr ip ∧ (F.range base bits).contains (F.addr ip) = false := by
  intro a
  have isNext : a = (F.addr base).next.next := by
    show allocate _ _ _ = _
    unfold allocate
    simp only [F.addr_range]
    split_ifs <;> rfl
  obtain ⟨next₁, number₁⟩ := F.next_of_lt base first
  rw [isNext, next₁]
  by_cases second : base.toNat + 2 < 2 ^ w
  · obtain ⟨next₂, number₂⟩ := F.next_of_lt (base + 1#w) (by omega)
    rw [next₂]
    by_cases isLast : (base + 1#w + 1#w).toNat = (F.broadcast base bits).toNat
    · exact .inl (congrArg F.addr (BitVec.eq_of_toNat_eq isLast))
    · refine .inr (.inr ⟨_, rfl, ?_⟩)
      rw [F.contains]
      exact not_sameBlock_of_lt (F.toNat_broadcast base bits) (by omega)
  · exact .inr (.inl (F.next_of_last (by omega)))

/-- A range of the family, or none. -/
def Family.ofOption (range : Option (BitVec w × Fin (w + 1))) : Option Prefix :=
  range.map fun r => F.range r.1 r.2

/-- The cursor is between the base and the broadcast address, or there is no cursor. -/
def Family.Cursor (range : Option (BitVec w × Fin (w + 1))) (current : Addr) : Prop :=
  current.isValid = true → ∃ base bits a, range = some (base, bits) ∧ current = F.addr a ∧
    base.toNat < a.toNat ∧ a.toNat < (F.broadcast base bits).toNat

end Cursor

/-! ## Addresses that are recognised -/

/-- There is room for a cursor: the broadcast address is at least three after the base. A base
that has no next address is never used. -/
def Roomy (range : Option Prefix) : Prop :=
  ∀ p, range = some p → p.addr.next.isValid = true →
    number p.addr + 2 < number (broadcastAddress p)

/-- The address is in a range of the store and not the broadcast address of a range. -/
def Store.Recognises (config : Store) (address : Addr) : Prop :=
  config.Contains address = true ∧ address ≠ config.inet4Last ∧ address ≠ config.inet6Last

/-- Every address that the store ever returns is recognised. -/
def Recognised {σ : Type} [FakeIPStorage σ] (storage : σ) (inet4Range inet6Range : Option Prefix) :
    Prop :=
  ∀ config, NewTransport inet4Range inet6Range = .ok config →
    ∀ readRefused resetRefused events s,
      steps Started.step (config.Start storage readRefused resetRefused) events = some s →
      ∀ domain isIPv6 refused address, (s.Create domain isIPv6 refused).1 = .ok address →
        config.Recognises address

structure Fresh {σ : Type} [FakeIPStorage σ] (storage : σ) : Prop where
  metadata : ∀ refused, FakeIPMetadata refused storage = (none, storage)
  loads : ∀ a, ¬ Loads storage a

theorem MemoryStorage.new_fresh : Fresh MemoryStorage.new := by
  refine ⟨fun _ => rfl, ?_⟩
  rintro a ⟨domain, isIPv6, loaded⟩
  cases isIPv6 <;> cases loaded

theorem CacheFile.opened_fresh [Buckets] : Fresh (CacheFile.opened .empty) := by
  refine ⟨?_, ?_⟩
  · intro refused
    show CacheFile.FakeIPMetadata refused (CacheFile.opened .empty) = _
    cases refused <;> simp [CacheFile.FakeIPMetadata, CacheFile.metadataTx, CacheFile.opened]
  · rintro a ⟨domain, isIPv6, loaded⟩
    have none (is4 : Bool) : CacheFile.viewDomain .empty domain is4 = none := by
      simp [CacheFile.viewDomain, DB.get_of_not_hasBucket, Addr.fromIP, Addr.isValid]
    cases isIPv6 <;> cases (none _).symm.trans loaded

section Recognised

variable {w : Nat} (F : Family w) (range : Option (BitVec w × Fin (w + 1)))

/-- The last address as `NewStore` sets it. -/
def lastOf (range : Option Prefix) : Addr :=
  let p := range.getD .invalid
  if p.isValid then broadcastAddress p else .invalid

/-- The first cursor as `Start` sets it. -/
def firstOf (range : Option Prefix) : Addr :=
  let p := range.getD .invalid
  if p.isValid then p.addr.next else .invalid

@[simp] theorem lastOf_some (base : BitVec w) (bits : Fin (w + 1)) :
    lastOf (F.ofOption (some (base, bits))) = F.addr (F.broadcast base bits) := by
  simp [lastOf, Family.ofOption, F.isValid_range, F.broadcastAddress]

@[simp] theorem firstOf_some (base : BitVec w) (bits : Fin (w + 1)) :
    firstOf (F.ofOption (some (base, bits))) = (F.addr base).next := by
  simp [firstOf, Family.ofOption, F.isValid_range, F.addr_range]

theorem Family.roomy_some {base : BitVec w} {bits : Fin (w + 1)} :
    Roomy (F.ofOption (some (base, bits))) ↔
      (base.toNat + 1 < 2 ^ w → base.toNat + 2 < (F.broadcast base bits).toNat) := by
  have next : (F.addr base).next.isValid = true ↔ base.toNat + 1 < 2 ^ w := by
    by_cases first : base.toNat + 1 < 2 ^ w
    · rw [(F.next_of_lt base first).1, F.valid]
      exact iff_of_true rfl first
    · rw [F.next_of_last first]
      exact iff_of_false nofun first
  simp [Roomy, Family.ofOption, F.addr_range, F.number, F.broadcastAddress, next]

variable {F range}

theorem Family.first_cursor (roomy : Roomy (F.ofOption range)) :
    F.Cursor range (firstOf (F.ofOption range)) := by
  intro valid
  cases range with
  | none => cases valid
  | some r =>
    obtain ⟨base, bits⟩ := r
    rw [F.roomy_some] at roomy
    rw [firstOf_some] at valid ⊢
    by_cases first : base.toNat + 1 < 2 ^ w
    · obtain ⟨next, number⟩ := F.next_of_lt base first
      exact ⟨base, bits, base + 1#w, rfl, next, by omega, by omega⟩
    · rw [F.next_of_last first] at valid
      cases valid

theorem Family.allocate_cursor (roomy : Roomy (F.ofOption range)) {current : Addr}
    (cursor : F.Cursor range current) (valid : current.isValid = true) :
    ∃ ip, allocate ((F.ofOption range).getD .invalid) (lastOf (F.ofOption range)) current =
        F.addr ip ∧
      ((F.ofOption range).getD .invalid).contains (F.addr ip) = true ∧
      F.addr ip ≠ lastOf (F.ofOption range) ∧ F.Cursor range (F.addr ip) := by
  obtain ⟨base, bits, a, rfl, rfl, above, below⟩ := cursor valid
  have room := F.roomy_some.mp roomy (by have := a.isLt; omega)
  rw [lastOf_some]
  obtain ⟨ip, isNext, above', below'⟩ := allocate_roomy F room above below
  obtain ⟨contained, ne⟩ := F.contains_of_lt above' below'
  exact ⟨ip, isNext, contained, ne, fun _ => ⟨base, bits, ip, rfl, rfl, above', below'⟩⟩

/-- Without room there is a first cursor, and the address after it is not a good one, whatever
the range of the other family is. -/
theorem Family.cramped_first (cramped : ¬ Roomy (F.ofOption range)) :
    (firstOf (F.ofOption range)).isValid = true ∧
    let a := allocate ((F.ofOption range).getD .invalid) (lastOf (F.ofOption range))
      (firstOf (F.ofOption range))
    ∀ other : Option Prefix, (∀ ip, (other.getD .invalid).contains (F.addr ip) = false) →
      (((F.ofOption range).getD .invalid).contains a || (other.getD .invalid).contains a) = true →
      ¬ a ≠ lastOf (F.ofOption range) := by
  cases range with
  | none => exact absurd nofun cramped
  | some r =>
    obtain ⟨base, bits⟩ := r
    rw [F.roomy_some, Classical.not_imp] at cramped
    obtain ⟨first, cramped⟩ := cramped
    rw [lastOf_some, firstOf_some]
    refine ⟨by rw [(F.next_of_lt base first).1, F.valid], ?_⟩
    intro a other apart contained ne
    rcases allocate_cramped F cramped first with isLast | invalid | ⟨ip, isNext, outside⟩
    · exact ne isLast
    · rw [show a = .invalid from invalid, Prefix.contains_invalid, Prefix.contains_invalid]
        at contained
      cases contained
    · rw [show a = F.addr ip from isNext, apart] at contained
      simp [Family.ofOption, outside] at contained

end Recognised

theorem NewTransport_ok {inet4Range inet6Range : Option Prefix} {config : Store}
    (h : NewTransport inet4Range inet6Range = .ok config) :
    config = ⟨inet4Range.getD .invalid, inet6Range.getD .invalid, lastOf inet4Range,
      lastOf inet6Range⟩ := by
  unfold NewTransport at h
  dsimp only at h
  split at h <;> cases h
  rfl

/-- A fresh storage is empty after `Start` too, and the cursors are at their beginning. -/
theorem Start_fresh {σ : Type} [FakeIPStorage σ] [LawfulStorage σ] {storage : σ}
    (fresh : Fresh storage) (config : Store) (readRefused resetRefused : Option Error) :
    ∃ storage', config.Start storage readRefused resetRefused =
        ⟨config, storage',
          if config.inet4Range.isValid then config.inet4Range.addr.next else .invalid,
          if config.inet6Range.isValid then config.inet6Range.addr.next else .invalid⟩ ∧
      ∀ a, ¬ Loads storage' a := by
  refine ⟨(FakeIPReset resetRefused storage).1, ?_, ?_⟩
  · simp [Store.Start, fresh.metadata]
  · exact fun a loads => fresh.loads a (LawfulStorage.loads_reset loads)

section Both

variable {range4 : Option (BitVec 32 × Fin 33)} {range6 : Option (BitVec 128 × Fin 129)}

theorem allocates_recognised (roomy4 : Roomy (inet4.ofOption range4))
    (roomy6 : Roomy (inet6.ofOption range6)) {config : Store}
    (h : NewTransport (inet4.ofOption range4) (inet6.ofOption range6) = .ok config) :
    Allocates config (inet4.Cursor range4) (inet6.Cursor range6) fun a =>
      a.withoutZone = a ∧ config.Recognises a := by
  obtain rfl := NewTransport_ok h
  have other4 : ∀ ip, inet4.addr ip ≠ lastOf (inet6.ofOption range6) := by
    intro ip
    cases range6 <;> nofun
  have other6 : ∀ ip, inet6.addr ip ≠ lastOf (inet4.ofOption range4) := by
    intro ip
    cases range4 <;> nofun
  refine ⟨?_, ?_, fun a good => good.1⟩
  · intro current cursor valid
    obtain ⟨ip, isNext, contained, ne, cursor'⟩ := Family.allocate_cursor roomy4 cursor valid
    rw [isNext]
    refine ⟨⟨inet4.withoutZone ip, ?_, ne, other4 ip⟩, cursor'⟩
    simp [Store.Contains, contained]
  · intro current cursor valid
    obtain ⟨ip, isNext, contained, ne, cursor'⟩ := Family.allocate_cursor roomy6 cursor valid
    rw [isNext]
    refine ⟨⟨inet6.withoutZone ip, ?_, other6 ip, ne⟩, cursor'⟩
    simp [Store.Contains, contained]

variable {σ : Type} [FakeIPStorage σ] [LawfulStorage σ] {storage : σ}

theorem recognised_of_roomy (fresh : Fresh storage) (roomy4 : Roomy (inet4.ofOption range4))
    (roomy6 : Roomy (inet6.ofOption range6)) :
    Recognised storage (inet4.ofOption range4) (inet6.ofOption range6) := by
  intro config h readRefused resetRefused events s run domain isIPv6 refused address returned
  have allocates := allocates_recognised roomy4 roomy6 h
  obtain ⟨storage', start, empty⟩ := Start_fresh fresh config readRefused resetRefused
  rw [start] at run
  have inv : Invariant config (inet4.Cursor range4) (inet6.Cursor range6)
      (fun a => a.withoutZone = a ∧ config.Recognises a) s := by
    refine Invariant.steps allocates ⟨rfl, ?_, ?_, fun a loads => absurd loads (empty a)⟩ run
    · rw [NewTransport_ok h]
      exact Family.first_cursor roomy4
    · rw [NewTransport_ok h]
      exact Family.first_cursor roomy6
  exact ((inv.create allocates domain isIPv6 refused).1 address returned).2

omit [LawfulStorage σ] in
theorem Create_new {s : Started σ} (empty : ∀ a, ¬ Loads s.storage a) (domain : Bytes)
    (refused : Option Error) :
    (s.inet4Current.isValid = true → (s.Create domain false refused).1 =
      .ok (allocate s.inet4Range s.inet4Last s.inet4Current)) ∧
    (s.inet6Current.isValid = true → (s.Create domain true refused).1 =
      .ok (allocate s.inet6Range s.inet6Last s.inet6Current)) := by
  have absent : ∀ isIPv6, FakeIPLoadDomain s.storage domain isIPv6 = none := by
    intro isIPv6
    cases h : FakeIPLoadDomain s.storage domain isIPv6 with
    | none => rfl
    | some a => exact absurd ⟨domain, isIPv6, h⟩ (empty a)
  constructor <;>
  · intro valid
    simp [Started.Create, absent, valid]

theorem NewTransport_of_first {inet4Range inet6Range : Option Prefix}
    (first : (firstOf inet4Range).isValid = true ∨ (firstOf inet6Range).isValid = true) :
    ∃ config, NewTransport inet4Range inet6Range = .ok config := by
  have valid : ∀ range, (firstOf range).isValid = true →
      (range.getD .invalid).isValid = true := by
    intro range h
    unfold firstOf at h
    by_contra invalid
    rw [if_neg invalid] at h
    cases h
  unfold NewTransport
  rw [if_neg]
  · exact ⟨_, rfl⟩
  · rcases first with first | first <;> simp [valid _ first]

/-- The first address of each family is recognised, if every one is. -/
theorem Recognised.first {inet4Range inet6Range : Option Prefix} (fresh : Fresh storage)
    (h : Recognised storage inet4Range inet6Range)
    (first : (firstOf inet4Range).isValid = true ∨ (firstOf inet6Range).isValid = true) :
    ∃ config, NewTransport inet4Range inet6Range = .ok config ∧
    ((firstOf inet4Range).isValid = true → config.Recognises
      (allocate (inet4Range.getD .invalid) (lastOf inet4Range) (firstOf inet4Range))) ∧
    ((firstOf inet6Range).isValid = true → config.Recognises
      (allocate (inet6Range.getD .invalid) (lastOf inet6Range) (firstOf inet6Range))) := by
  obtain ⟨config, isConfig⟩ := NewTransport_of_first first
  obtain ⟨storage', start, empty⟩ := Start_fresh fresh config none none
  have recognised := h config isConfig none none [] _ rfl []
  rw [start] at recognised
  obtain ⟨returns4, returns6⟩ := Create_new (s := ⟨config, storage', _, _⟩) empty [] none
  obtain rfl := NewTransport_ok isConfig
  exact ⟨_, isConfig, fun valid => recognised false none _ (returns4 valid),
    fun valid => recognised true none _ (returns6 valid)⟩

theorem roomy_of_recognised (fresh : Fresh storage)
    (h : Recognised storage (inet4.ofOption range4) (inet6.ofOption range6)) :
    Roomy (inet4.ofOption range4) ∧ Roomy (inet6.ofOption range6) := by
  constructor
  · by_contra cramped
    obtain ⟨first, bad⟩ := Family.cramped_first cramped
    obtain ⟨config, isConfig, recognised, -⟩ := h.first fresh (.inl first)
    obtain ⟨contained, ne, _⟩ := recognised first
    obtain rfl := NewTransport_ok isConfig
    refine bad (inet6.ofOption range6) ?_ contained ne
    cases range6 <;> exact fun _ => rfl
  · by_contra cramped
    obtain ⟨first, bad⟩ := Family.cramped_first cramped
    obtain ⟨config, isConfig, -, recognised⟩ := h.first fresh (.inr first)
    obtain ⟨contained, _, ne⟩ := recognised first
    obtain rfl := NewTransport_ok isConfig
    refine bad (inet4.ofOption range4) ?_ ((Bool.or_comm _ _).trans contained) ne
    cases range4 <;> exact fun _ => rfl

/-- Every address that `Create` returns is recognised as one of the store if and only if there
is room for the cursor in each range. -/
theorem Create_recognised [Buckets] (range4 : Option (BitVec 32 × Fin 33))
    (range6 : Option (BitVec 128 × Fin 129)) :
    (Recognised MemoryStorage.new (inet4.ofOption range4) (inet6.ofOption range6) ↔
      Roomy (inet4.ofOption range4) ∧ Roomy (inet6.ofOption range6)) ∧
    (Recognised (CacheFile.opened .empty) (inet4.ofOption range4) (inet6.ofOption range6) ↔
      Roomy (inet4.ofOption range4) ∧ Roomy (inet6.ofOption range6)) :=
  ⟨⟨roomy_of_recognised MemoryStorage.new_fresh,
      fun roomy => recognised_of_roomy MemoryStorage.new_fresh roomy.1 roomy.2⟩,
    ⟨roomy_of_recognised CacheFile.opened_fresh,
      fun roomy => recognised_of_roomy CacheFile.opened_fresh roomy.1 roomy.2⟩⟩

end Both

/-- With a fresh storage, the first address that `Create` returns from the range is outside
of it or is its broadcast address. -/
def Unrecognised (range : Prefix) (first : Addr) : Prop :=
  ∃ config, NewTransport (some range) none = .ok config ∧
    ((config.Start MemoryStorage.new none none).Create [97] false none).1 = .ok first ∧
    (config.Contains first = false ∨ first = config.inet4Last)

/-- The ranges `10.0.0.254/24`, `10.0.0.0/31`, `10.0.0.0/32` and `10.0.0.1/30`: the first
address returned is `10.0.1.0`, `10.0.0.2`, `10.0.0.2` and `10.0.0.3`. The last one is the
broadcast address of its range and the others are outside of theirs. -/
theorem Create_not_recognised :
    Unrecognised (.v4 0x0a0000fe#32 24) (.v4 0x0a000100#32) ∧
    Unrecognised (.v4 0x0a000000#32 31) (.v4 0x0a000002#32) ∧
    Unrecognised (.v4 0x0a000000#32 32) (.v4 0x0a000002#32) ∧
    Unrecognised (.v4 0x0a000001#32 30) (.v4 0x0a000003#32) := by
  refine ⟨?_, ?_, ?_, ?_⟩ <;> exact ⟨_, rfl, by decide, by decide⟩

end SingBox.FakeIP
