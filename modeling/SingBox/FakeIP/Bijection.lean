import SingBox.FakeIP.Store
import SingBox.Lib.Pool

/-!
# Which domain has which address

With its storage in memory, a store keeps a table of the domain of each address, and one for
each family of the address of each domain. `Create` stores an address for a domain that has
none of the family, and takes it from the domain that had it.

* `Create_cases` — what a call of `Create` can do;
* `Inverse.create` — the tables stay inverse to each other;
* `allocate_cursorAt` — the addresses of a masked range are allocated in a cycle;
* `Create_bijection` — in every run, a domain keeps its address until that is allocated again,
  and it is allocated again only after all others.
-/

namespace SingBox.FakeIP

open Lib Lib.Bolt FakeIPStorage Function Nat

/-! ## One family of a store -/

section Families

variable {σ : Type}

def Store.range (s : Store) (isIPv6 : Bool) : Prefix := if isIPv6 then s.inet6Range else s.inet4Range

def Store.last (s : Store) (isIPv6 : Bool) : Addr := if isIPv6 then s.inet6Last else s.inet4Last

def Started.current (s : Started σ) (isIPv6 : Bool) : Addr :=
  if isIPv6 then s.inet6Current else s.inet4Current

/-- The address that the next new domain of the family gets. -/
def Started.nextAddress (s : Started σ) (isIPv6 : Bool) : Addr :=
  allocate (s.range isIPv6) (s.last isIPv6) (s.current isIPv6)

variable [FakeIPStorage σ]

/-- The address that an event allocates, if it allocates one of the family. -/
def Started.allocated (isIPv6 : Bool) (s : Started σ) : Event → Option Addr
  | .create domain isIPv6' refused =>
      if isIPv6' = isIPv6 ∧ FakeIPLoadDomain s.storage domain isIPv6 = none then
        (s.Create domain isIPv6 refused).1.toOption
      else none
  | .timer _ => none

/-- The addresses of the family that a run allocates, in order. -/
def allocations (isIPv6 : Bool) (s : Started σ) (events : List Event) : List Addr :=
  outputs Started.step (Started.allocated isIPv6) s events

/-- What a call of `Create` does when it allocates an address. -/
structure Allocated (s : Started σ) (domain : Bytes) (isIPv6 : Bool) (refused : Option Error)
    (s' : Started σ) : Prop where
  unknown : FakeIPLoadDomain s.storage domain isIPv6 = none
  toStore : s'.toStore = s.toStore
  current : s'.current isIPv6 = s.nextAddress isIPv6
  other : s'.current (!isIPv6) = s.current !isIPv6
  storage : s'.storage = FakeIPSaveMetadataAsync
    ⟨s'.inet4Range, s'.inet6Range, s'.inet4Current, s'.inet6Current⟩
    (FakeIPStore refused (s.nextAddress isIPv6) domain s.storage).1

/-- A call of `Create` finds the address, has no range to allocate from, or allocates. -/
theorem Create_cases (s : Started σ) (domain : Bytes) (isIPv6 : Bool) (refused : Option Error) :
    (∃ a, FakeIPLoadDomain s.storage domain isIPv6 = some a ∧
      s.Create domain isIPv6 refused = (.ok a, s)) ∨
    ((∃ e, s.Create domain isIPv6 refused = (.error e, s)) ∧ (s.current isIPv6).isValid = false ∧
      FakeIPLoadDomain s.storage domain isIPv6 = none) ∨
    (∃ s', s.Create domain isIPv6 refused = (.ok (s.nextAddress isIPv6), s') ∧
      (s.current isIPv6).isValid = true ∧ Allocated s domain isIPv6 refused s') := by
  unfold Started.Create
  cases loaded : FakeIPLoadDomain s.storage domain isIPv6 with
  | some a => exact .inl ⟨a, rfl, rfl⟩
  | none =>
    refine .inr ?_
    cases isIPv6 with
    | false | true =>
      simp only [Bool.not_false, Bool.not_true, Bool.false_eq_true, if_true, if_false]
      split_ifs with missing
      · exact .inl ⟨⟨_, rfl⟩, by simpa [Started.current] using missing, trivial⟩
      · exact .inr ⟨_, rfl, by simpa [Started.current] using missing, loaded, rfl, rfl, rfl, rfl⟩

theorem allocated_create (isIPv6 : Bool) (s : Started σ) (domain : Bytes) (isIPv6' : Bool)
    (refused : Option Error) :
    s.allocated isIPv6 (.create domain isIPv6' refused) =
      if isIPv6' = isIPv6 ∧ FakeIPLoadDomain s.storage domain isIPv6 = none ∧
        (s.current isIPv6).isValid = true then some (s.nextAddress isIPv6) else none := by
  unfold Started.allocated
  rcases Create_cases s domain isIPv6 refused with
    ⟨a, loaded, _⟩ | ⟨⟨e, result⟩, missing, unknown⟩ | ⟨s', result, valid, allocated⟩
  · simp [loaded]
  · simp [result, missing, Except.toOption]
  · simp [result, valid, allocated.unknown, Except.toOption]

end Families

/-! ## The tables are inverse to each other -/

/-- A domain has an address of a family if and only if the address has the domain. -/
structure Inverse (s : MemoryStorage) : Prop where
  inet4 : InverseOn (fun a : Addr => a.is4 = true) s.domainCache4 s.addressCache
  inet6 : InverseOn (fun a : Addr => a.is4 = false) s.domainCache6 s.addressCache

namespace MemoryStorage

theorem evict_eq_forget (old : Option Bytes) (f : Bytes → Option Addr) :
    evict old f = forget old f := by
  cases old <;> rfl

theorem FakeIPLoadDomain_store (s : MemoryStorage) (address : Addr) (domain domain' : Bytes)
    (isIPv6 : Bool) :
    FakeIPLoadDomain (MemoryStorage.FakeIPStore address domain s) domain' isIPv6 =
      if address.is4 = isIPv6 then FakeIPLoadDomain s domain' isIPv6
      else if domain' = domain then some address
      else if s.addressCache address = some domain' then none
      else FakeIPLoadDomain s domain' isIPv6 := by
  have table : ∀ f : Bytes → Option Addr,
      update (forget (s.addressCache address) f) domain (some address) domain' =
        if domain' = domain then some address
        else if s.addressCache address = some domain' then none else f domain' := by
    intro f
    rcases forget_cases (s.addressCache address) f domain' with ⟨lost, old⟩ | ⟨kept, other⟩
    · rw [update_apply, lost, if_pos old]
    · rw [update_apply, kept, if_neg other]
  cases family : address.is4 <;> cases isIPv6 <;>
    simp [FakeIPLoadDomain, MemoryStorage.FakeIPStore, family, evict_eq_forget, table]

end MemoryStorage

section Inverse

variable {s : MemoryStorage}

theorem Inverse.new : Inverse MemoryStorage.new := by
  constructor <;>
  · intro domain a
    exact iff_of_false nofun fun h => nomatch h.2

theorem Inverse.loadDomain (inv : Inverse s) (domain : Bytes) (isIPv6 : Bool) (a : Addr) :
    FakeIPLoadDomain s domain isIPv6 = some a ↔ a.is4 = !isIPv6 ∧ FakeIPLoad s a = some domain := by
  cases isIPv6 with
  | false => exact inv.inet4 domain a
  | true => exact inv.inet6 domain a

theorem Inverse.store (inv : Inverse s) {domain : Bytes} {isIPv6 : Bool} {address : Addr}
    (unknown : FakeIPLoadDomain s domain isIPv6 = none) (family : address.is4 = !isIPv6) :
    Inverse (MemoryStorage.FakeIPStore address domain s) := by
  unfold MemoryStorage.FakeIPStore
  cases isIPv6 with
  | false =>
    simp only [family, Bool.not_false, if_true, MemoryStorage.evict_eq_forget]
    exact ⟨inv.inet4.store unknown family, inv.inet6.store_other (by simp [family])⟩
  | true =>
    simp only [family, Bool.not_true, Bool.false_eq_true, if_false, MemoryStorage.evict_eq_forget]
    exact ⟨inv.inet4.store_other (by simp [family]), inv.inet6.store unknown family⟩

end Inverse

/-! ## Addresses are allocated in turn -/

/-- The addresses of a family are allocated in the order `place`, from the second on. -/
structure Cycle (config : Store) (isIPv6 : Bool) (place : Nat → Addr) : Prop where
  next : ∀ k, (place k).isValid = true →
    allocate (config.range isIPv6) (config.last isIPv6) (place k) = place (k + 1)
  is4 : ∀ k, (place k).isValid = true → (place (k + 1)).is4 = !isIPv6

/-- Where a store is: `k isIPv6` addresses of the family have been allocated. -/
structure InTurn (config : Store) (place : Bool → Nat → Addr) (k : Bool → Nat)
    (s : Started MemoryStorage) : Prop where
  toStore : s.toStore = config
  current : ∀ isIPv6, s.current isIPv6 = place isIPv6 (k isIPv6)
  inverse : Inverse s.storage

section InTurn

variable {config : Store} {place : Bool → Nat → Addr} {k : Bool → Nat}
  {s s' : Started MemoryStorage}

variable {isIPv6 : Bool} {domain : Bytes} {refused : Option Error} {event : Event} {a : Addr}

/-- An event changes nothing, or it is a call that allocates an address. -/
theorem step_cases (h : s.step event = some s') :
    (s' = s ∧ ∀ isIPv6, s.allocated isIPv6 event = none) ∨
    ∃ domain isIPv6 refused, event = .create domain isIPv6 refused ∧
      (s.current isIPv6).isValid = true ∧ Allocated s domain isIPv6 refused s' := by
  cases event with
  | timer refused =>
    cases h
    exact .inl ⟨rfl, fun _ => rfl⟩
  | create domain isIPv6 refused =>
    cases h
    rcases Create_cases s domain isIPv6 refused with
      ⟨a, loaded, result⟩ | ⟨⟨e, result⟩, missing, unknown⟩ | ⟨s', result, valid, allocated⟩
    · refine .inl ⟨by rw [result], fun isIPv6' => ?_⟩
      rw [allocated_create, if_neg]
      rintro ⟨rfl, unknown, _⟩
      rw [loaded] at unknown
      cases unknown
    · refine .inl ⟨by rw [result], fun isIPv6' => ?_⟩
      rw [allocated_create, if_neg]
      rintro ⟨rfl, _, valid⟩
      rw [missing] at valid
      cases valid
    · rw [result]
      exact .inr ⟨domain, isIPv6, refused, rfl, valid, allocated⟩

variable (cycle : ∀ isIPv6, Cycle config isIPv6 (place isIPv6)) (inTurn : InTurn config place k s)
include cycle inTurn

theorem InTurn.nextAddress (valid : (s.current isIPv6).isValid = true) :
    s.nextAddress isIPv6 = place isIPv6 (k isIPv6 + 1) ∧ (s.nextAddress isIPv6).is4 = !isIPv6 := by
  rw [inTurn.current] at valid
  have isNext : s.nextAddress isIPv6 = place isIPv6 (k isIPv6 + 1) := by
    unfold Started.nextAddress
    rw [inTurn.toStore, inTurn.current]
    exact (cycle isIPv6).next _ valid
  exact ⟨isNext, isNext ▸ (cycle isIPv6).is4 _ valid⟩

/-- An address that is allocated is the next one of its family, and the cursor of the other
family stays. -/
theorem InTurn.allocate (valid : (s.current isIPv6).isValid = true)
    (allocated : Allocated s domain isIPv6 refused s') :
    InTurn config place (update k isIPv6 (k isIPv6 + 1)) s' := by
  obtain ⟨isNext, family⟩ := inTurn.nextAddress cycle valid
  refine ⟨allocated.toStore.trans inTurn.toStore, ?_, ?_⟩
  · intro isIPv6'
    by_cases same : isIPv6' = isIPv6
    · subst same
      rw [allocated.current, isNext, update_self]
    · rw [Bool.eq_not.mpr same, allocated.other, inTurn.current, update_of_ne (by simp)]
  · rw [allocated.storage]
    exact inTurn.inverse.store allocated.unknown family

/-- One event: what it allocates is the next address of the family. -/
theorem InTurn.step (h : s.step event = some s') :
    ∃ k', InTurn config place k' s' ∧ ∀ isIPv6,
      s.allocated isIPv6 event = none ∧ k' isIPv6 = k isIPv6 ∨
      s.allocated isIPv6 event = some (place isIPv6 (k isIPv6 + 1)) ∧ k' isIPv6 = k isIPv6 + 1 := by
  rcases step_cases h with ⟨rfl, none⟩ | ⟨domain, isIPv6, refused, rfl, valid, allocated⟩
  · exact ⟨k, inTurn, fun isIPv6 => .inl ⟨none isIPv6, rfl⟩⟩
  · refine ⟨_, inTurn.allocate cycle valid allocated, fun isIPv6' => ?_⟩
    by_cases same : isIPv6 = isIPv6'
    · subst same
      refine .inr ⟨?_, update_self ..⟩
      rw [allocated_create, if_pos ⟨rfl, allocated.unknown, valid⟩,
        (inTurn.nextAddress cycle valid).1]
    · refine .inl ⟨?_, update_of_ne (Ne.symm same) ..⟩
      rw [allocated_create, if_neg fun h => same h.1]

/-- A run allocates the addresses of a family in order. -/
theorem InTurn.run {events : List Event} (run : steps Started.step s events = some s') :
    ∃ k', InTurn config place k' s' ∧ ∀ isIPv6, ∃ n,
      allocations isIPv6 s events =
        (List.range' (k isIPv6) n).map fun i => place isIPv6 (i + 1) := by
  induction events generalizing s k with
  | nil =>
    cases run
    exact ⟨k, inTurn, fun isIPv6 => ⟨0, rfl⟩⟩
  | cons event rest ih =>
    obtain ⟨middle, now, later⟩ := Option.bind_eq_some_iff.mp run
    obtain ⟨k₁, inTurn₁, moved⟩ := inTurn.step cycle now
    obtain ⟨k', inTurn', order⟩ := ih inTurn₁ later
    refine ⟨k', inTurn', fun isIPv6 => ?_⟩
    obtain ⟨n, order⟩ := order isIPv6
    unfold allocations at order ⊢
    rw [outputs_cons now, order]
    rcases moved isIPv6 with ⟨none, stays⟩ | ⟨some, moves⟩
    · exact ⟨n, by rw [none, stays]; rfl⟩
    · exact ⟨n + 1, by rw [some, moves]; rfl⟩

/-! ### A domain keeps its address -/

/-- What an allocated address changes: its family only, where the new domain has it and the one
that had it has none. -/
theorem InTurn.loadDomain_allocated (valid : (s.current isIPv6).isValid = true)
    (allocated : Allocated s domain isIPv6 refused s') (domain' : Bytes) (isIPv6' : Bool) :
    FakeIPLoadDomain s'.storage domain' isIPv6' =
      if isIPv6' ≠ isIPv6 then FakeIPLoadDomain s.storage domain' isIPv6'
      else if domain' = domain then some (s.nextAddress isIPv6)
      else if FakeIPLoadDomain s.storage domain' isIPv6 = some (s.nextAddress isIPv6) then none
      else FakeIPLoadDomain s.storage domain' isIPv6' := by
  obtain ⟨_, family⟩ := inTurn.nextAddress cycle valid
  have had : s.storage.addressCache (s.nextAddress isIPv6) = some domain' ↔
      FakeIPLoadDomain s.storage domain' isIPv6 = some (s.nextAddress isIPv6) := by
    rw [inTurn.inverse.loadDomain]
    exact ⟨fun h => ⟨family, h⟩, fun h => h.2⟩
  rw [allocated.storage]
  refine (MemoryStorage.FakeIPLoadDomain_store ..).trans ?_
  simp only [family, had]
  cases isIPv6 <;> cases isIPv6' <;> simp

/-- A domain that has an address, or for which no call is made, keeps what it has or loses it to
another one. -/
theorem InTurn.keeps_or_evicted (h : s.step event = some s')
    (other : FakeIPLoadDomain s.storage domain isIPv6 ≠ none ∨
      ∀ refused, event ≠ .create domain isIPv6 refused) :
    FakeIPLoadDomain s'.storage domain isIPv6 = FakeIPLoadDomain s.storage domain isIPv6 ∨
      FakeIPLoadDomain s'.storage domain isIPv6 = none ∧
        s.allocated isIPv6 event = FakeIPLoadDomain s.storage domain isIPv6 := by
  rcases step_cases h with ⟨rfl, _⟩ | ⟨domain', isIPv6', refused, rfl, valid, allocated⟩
  · exact .inl rfl
  · rw [inTurn.loadDomain_allocated cycle valid allocated, allocated_create]
    by_cases family : isIPv6 = isIPv6'
    · subst family
      have ne : domain ≠ domain' := by
        rintro rfl
        exact other.elim (absurd allocated.unknown) fun noCall => noCall refused rfl
      rw [if_neg (not_not.mpr rfl), if_neg ne]
      by_cases again : FakeIPLoadDomain s.storage domain isIPv6 = some (s.nextAddress isIPv6)
      · exact .inr ⟨if_pos again, (if_pos ⟨rfl, allocated.unknown, valid⟩).trans again.symm⟩
      · exact .inl (if_neg again)
    · exact .inl (if_pos family)

/-- The domain has no address of the family. -/
def Evicted (s : Started MemoryStorage) (domain : Bytes) (isIPv6 : Bool) : Prop :=
  FakeIPLoadDomain s.storage domain isIPv6 = none

/-- What holds from the moment `a` was returned for a domain: as long as `a` is not allocated
again, or the domain is not evicted and no other call is made for it, the domain is found by
the address and the address is returned for the domain, which changes nothing. -/
def Lasts (s : Started MemoryStorage) (domain : Bytes) (isIPv6 : Bool) (a : Addr) : Prop :=
  ∀ later s', steps Started.step s later = some s' →
    (a ∉ allocations isIPv6 s later ∨
      (∀ refused, Event.create domain isIPv6 refused ∉ later) ∧ ¬ Evicted s' domain isIPv6) →
    s'.Lookup a = some domain ∧ ∀ refused, s'.Create domain isIPv6 refused = (.ok a, s')

theorem InTurn.keeps_steps (has : FakeIPLoadDomain s.storage domain isIPv6 = some a)
    {later : List Event} (run : steps Started.step s later = some s')
    (kept : a ∉ allocations isIPv6 s later) :
    FakeIPLoadDomain s'.storage domain isIPv6 = some a := by
  induction later generalizing s k with
  | nil =>
    cases run
    exact has
  | cons event rest ih =>
    obtain ⟨middle, now, after⟩ := Option.bind_eq_some_iff.mp run
    obtain ⟨k₁, inTurn₁, _⟩ := inTurn.step cycle now
    unfold allocations at kept ih
    rw [outputs_cons now, List.mem_append, not_or, Option.mem_toList] at kept
    have known : FakeIPLoadDomain s.storage domain isIPv6 ≠ none := by simp [has]
    rcases inTurn.keeps_or_evicted cycle now (.inl known) with same | ⟨-, again⟩
    · exact ih inTurn₁ (same.trans has) after kept.2
    · exact absurd (again.trans has) kept.1

theorem InTurn.keeps_or_evicted_steps {later : List Event}
    (run : steps Started.step s later = some s')
    (others : ∀ refused, Event.create domain isIPv6 refused ∉ later) :
    FakeIPLoadDomain s'.storage domain isIPv6 = FakeIPLoadDomain s.storage domain isIPv6 ∨
      FakeIPLoadDomain s'.storage domain isIPv6 = none := by
  obtain ⟨⟨k', _⟩, kept⟩ := steps_invariant
    (fun t => (∃ k, InTurn config place k t) ∧
      (FakeIPLoadDomain t.storage domain isIPv6 = FakeIPLoadDomain s.storage domain isIPv6 ∨
        FakeIPLoadDomain t.storage domain isIPv6 = none))
    (fun event => ∀ refused, event ≠ .create domain isIPv6 refused)
    (by
      rintro t event t' ⟨⟨k, inTurn⟩, kept⟩ other now
      obtain ⟨k', inTurn', _⟩ := inTurn.step cycle now
      refine ⟨⟨k', inTurn'⟩, ?_⟩
      rcases inTurn.keeps_or_evicted cycle now (.inr other) with same | ⟨none, -⟩
      · rwa [same]
      · exact .inr none)
    ⟨⟨k, inTurn⟩, .inl rfl⟩ (fun event mem refused same => others refused (by rwa [← same])) run
  exact kept

theorem InTurn.lasts (has : FakeIPLoadDomain s.storage domain isIPv6 = some a) :
    Lasts s domain isIPv6 a := by
  intro later s' run alive
  have has' : FakeIPLoadDomain s'.storage domain isIPv6 = some a := by
    rcases alive with kept | ⟨others, alive⟩
    · exact inTurn.keeps_steps cycle has run kept
    · rcases inTurn.keeps_or_evicted_steps cycle run others with same | none
      · exact same.trans has
      · exact absurd none alive
  obtain ⟨k', inTurn', _⟩ := inTurn.run cycle run
  refine ⟨((inTurn'.inverse.loadDomain ..).mp has').2, fun refused => ?_⟩
  unfold Started.Create
  rw [has']

theorem InTurn.create (h : s.Create domain isIPv6 refused = (.ok a, s')) :
    Lasts s' domain isIPv6 a := by
  have now : s.step (.create domain isIPv6 refused) = some s' :=
    congrArg (fun r => some (Prod.snd r)) h
  obtain ⟨k', inTurn', _⟩ := inTurn.step cycle now
  refine inTurn'.lasts cycle ?_
  rcases Create_cases s domain isIPv6 refused with
    ⟨a', loaded, result⟩ | ⟨⟨e, result⟩, _⟩ | ⟨s'', result, valid, allocated⟩
  · cases result.symm.trans h
    exact loaded
  · cases result.symm.trans h
  · cases result.symm.trans h
    rw [inTurn.loadDomain_allocated cycle valid allocated, if_neg (not_not.mpr rfl), if_pos rfl]

end InTurn

/-! ## A masked range -/

/-- The range has no bit set after its length, and at least two bits there. -/
def Family.Masked {w : Nat} (F : Family w) (range : Option (BitVec w × Fin (w + 1))) : Prop :=
  ∀ base bits, range = some (base, bits) →
    (F.range base bits).masked = F.range base bits ∧ bits.val + 2 ≤ w

section Masked

variable {w : Nat} (F : Family w) (base : BitVec w) (bits : Fin (w + 1))

/-- The cursor after `k` addresses were allocated from a masked range: the second address first,
then the third to the last but one, over and over. -/
def Family.cursorAt : Nat → Addr
  | 0 => F.addr (base + BitVec.ofNat w 1)
  | k + 1 => F.addr (base + BitVec.ofNat w (2 + k % (2 ^ (w - bits) - 3)))

variable {F base bits} (aligned : 2 ^ (w - bits) ∣ base.toNat) (roomy : bits.val + 2 ≤ w)

include roomy in
theorem four_le_block : 4 ≤ 2 ^ (w - bits.val) :=
  calc 4 = 2 ^ 2 := rfl
    _ ≤ 2 ^ (w - bits.val) := Nat.pow_le_pow_right Nat.two_pos (by omega)

include aligned in
theorem block_le : base.toNat + 2 ^ (w - bits.val) ≤ 2 ^ w := by
  obtain ⟨q, isMultiple⟩ := aligned
  have split : 2 ^ w = 2 ^ (w - bits.val) * 2 ^ bits.val := by
    rw [← Nat.pow_add, Nat.sub_add_cancel (le_of_lt_succ bits.isLt)]
  have below := base.isLt
  rw [isMultiple, split] at below
  rw [isMultiple, split, ← mul_succ]
  exact Nat.mul_le_mul_left _ (Nat.lt_of_mul_lt_mul_left below)

include aligned in
theorem toNat_place {p : Nat} (h : p < 2 ^ (w - bits.val)) :
    (base + BitVec.ofNat w p).toNat = base.toNat + p := by
  have fits := block_le aligned
  rw [BitVec.toNat_add, BitVec.toNat_ofNat, mod_eq_of_lt (b := 2 ^ w) (a := p) (by omega),
    mod_eq_of_lt (by omega)]

include aligned in
theorem toNat_broadcast_aligned :
    (F.broadcast base bits).toNat = base.toNat + (2 ^ (w - bits.val) - 1) := by
  rw [F.toNat_broadcast, Nat.mul_div_cancel' aligned]

include aligned in
theorem allocate_place {p : Nat} (above : 1 ≤ p) (below : p + 1 < 2 ^ (w - bits.val)) :
    allocate (F.range base bits) (F.addr (F.broadcast base bits))
        (F.addr (base + BitVec.ofNat w p)) =
      F.addr (base + BitVec.ofNat w (if p + 2 = 2 ^ (w - bits.val) then 2 else p + 1)) := by
  have fits := block_le aligned
  have succ : ∀ q, q + 1 < 2 ^ (w - bits.val) →
      (F.addr (base + BitVec.ofNat w q)).next = F.addr (base + BitVec.ofNat w (q + 1)) := by
    intro q inside
    have place := toNat_place aligned (p := q) (by omega)
    obtain ⟨next, number⟩ := F.next_of_lt (base + BitVec.ofNat w q) (by omega)
    rw [next]
    congr 1
    apply BitVec.eq_of_toNat_eq
    rw [number, place, toNat_place aligned inside, Nat.add_assoc]
  have zero : base + BitVec.ofNat w 0 = base := by simp
  have first := succ 0 (by omega)
  rw [zero] at first
  have second := succ 1 (by omega)
  have isLast : F.addr (base + BitVec.ofNat w (p + 1)) = F.addr (F.broadcast base bits) ↔
      p + 2 = 2 ^ (w - bits.val) := by
    have place := toNat_place aligned below
    have last := toNat_broadcast_aligned (F := F) aligned
    constructor
    · intro same
      rw [F.injective same] at place
      omega
    · intro same
      congr 1
      apply BitVec.eq_of_toNat_eq
      omega
  have inside : (F.range base bits).contains (F.addr (base + BitVec.ofNat w (p + 1))) = true := by
    have place := toNat_place aligned below
    rw [F.contains]
    refine sameBlock_of_le (F.toNat_broadcast base bits) (by omega) ?_
    rw [toNat_broadcast_aligned aligned]
    omega
  unfold allocate
  simp only [succ p below, F.addr_range, first, second, isLast, inside, Bool.true_eq_false, or_false]
  split_ifs <;> rfl

include aligned roomy in
theorem allocate_cursorAt (k : Nat) :
    allocate (F.range base bits) (F.addr (F.broadcast base bits)) (F.cursorAt base bits k) =
      F.cursorAt base bits (k + 1) := by
  have four := four_le_block roomy
  cases k with
  | zero =>
    refine (allocate_place aligned (Nat.le_refl 1) (by omega)).trans ?_
    rw [if_neg (by omega)]
    simp [Family.cursorAt]
  | succ k =>
    have inside := mod_lt k (show 0 < 2 ^ (w - bits.val) - 3 by omega)
    refine (allocate_place aligned (by omega) (by omega)).trans ?_
    congr 3
    -- the last but one is the end of the cycle
    rw [add_mod_eq_ite]
    generalize 2 ^ (w - bits.val) = block at four inside ⊢
    rcases Nat.lt_or_ge 1 (block - 3) with more | one
    · rw [mod_eq_of_lt more]
      split_ifs <;> omega
    · have isOne : block - 3 = 1 := by omega
      rw [isOne] at inside ⊢
      simp only [mod_one]
      split_ifs <;> omega

include aligned roomy in
theorem cursorAt_succ_inj {i j : Nat}
    (same : F.cursorAt base bits (i + 1) = F.cursorAt base bits (j + 1)) :
    i % (2 ^ (w - bits.val) - 3) = j % (2 ^ (w - bits.val) - 3) := by
  have four := four_le_block roomy
  have here : ∀ k, 2 + k % (2 ^ (w - bits.val) - 3) < 2 ^ (w - bits.val) := by
    intro k
    have inside := mod_lt k (show 0 < 2 ^ (w - bits.val) - 3 by omega)
    omega
  have number := congrArg BitVec.toNat (F.injective same)
  rw [toNat_place aligned (here i), toNat_place aligned (here j)] at number
  omega

end Masked

section Places

variable {w : Nat} (F : Family w) (range : Option (BitVec w × Fin (w + 1)))

/-- The cursor of a family with a range or without one. -/
def Family.place (k : Nat) : Addr :=
  match range with
  | none => .invalid
  | some (base, bits) => F.cursorAt base bits k

variable {F range}

theorem aligned_of_shift {base : BitVec w} {host : Nat} (h : base >>> host <<< host = base) :
    2 ^ host ∣ base.toNat := by
  have number := congrArg BitVec.toNat h
  rw [BitVec.toNat_shiftLeft, BitVec.toNat_ushiftRight, shiftRight_eq_div_pow,
    shiftLeft_eq, mod_eq_of_lt] at number
  · exact Dvd.intro_left _ number
  · exact Nat.lt_of_le_of_lt (div_mul_le_self _ _) base.isLt

/-- A masked range of either family is aligned. -/
structure Family.Aligned (F : Family w) (range : Option (BitVec w × Fin (w + 1))) : Prop where
  aligned : ∀ base bits, range = some (base, bits) → 2 ^ (w - bits.val) ∣ base.toNat
  roomy : ∀ base bits, range = some (base, bits) → bits.val + 2 ≤ w

theorem aligned4 {range : Option (BitVec 32 × Fin 33)} (masked : inet4.Masked range) :
    inet4.Aligned range where
  aligned base bits h := aligned_of_shift (Prefix.v4.inj (masked base bits h).1).1
  roomy base bits h := (masked base bits h).2

theorem aligned6 {range : Option (BitVec 128 × Fin 129)} (masked : inet6.Masked range) :
    inet6.Aligned range where
  aligned base bits h := aligned_of_shift (Prefix.v6.inj (masked base bits h).1).1
  roomy base bits h := (masked base bits h).2

theorem Family.Aligned.cycle (aligned : F.Aligned range) {config : Store} {isIPv6 : Bool}
    (isRange : config.range isIPv6 = (F.ofOption range).getD .invalid)
    (isLast : config.last isIPv6 = lastOf (F.ofOption range))
    (family : ∀ ip, (F.addr ip).is4 = !isIPv6) : Cycle config isIPv6 (F.place range) := by
  cases range with
  | none => exact ⟨nofun, nofun⟩
  | some r =>
    obtain ⟨base, bits⟩ := r
    refine ⟨fun k _ => ?_, fun k _ => family _⟩
    rw [isRange, isLast, lastOf_some]
    exact allocate_cursorAt (aligned.aligned base bits rfl) (aligned.roomy base bits rfl) k

theorem Family.Aligned.first (aligned : F.Aligned range) :
    firstOf (F.ofOption range) = F.place range 0 := by
  cases range with
  | none => rfl
  | some r =>
    obtain ⟨base, bits⟩ := r
    have fits := block_le (aligned.aligned base bits rfl)
    have four := four_le_block (aligned.roomy base bits rfl)
    rw [firstOf_some, (F.next_of_lt base (by omega)).1]
    rfl

end Places

section Runs

variable {range4 : Option (BitVec 32 × Fin 33)} {range6 : Option (BitVec 128 × Fin 129)}

/-- The cursors of both families. -/
def places (range4 : Option (BitVec 32 × Fin 33)) (range6 : Option (BitVec 128 × Fin 129)) :
    Bool → Nat → Addr
  | false => inet4.place range4
  | true => inet6.place range6

/-- With masked ranges that have at least two bits after their length, in every state that a
store in memory reaches the tables are inverse to each other; an address that is returned for
a domain lasts; and the addresses of a family are allocated again only after all others. -/
theorem Create_bijection (range4 : Option (BitVec 32 × Fin 33))
    (range6 : Option (BitVec 128 × Fin 129)) (masked4 : inet4.Masked range4)
    (masked6 : inet6.Masked range6) {config : Store}
    (isConfig : NewTransport (inet4.ofOption range4) (inet6.ofOption range6) = .ok config)
    (readRefused resetRefused : Option Error) {events : List Event} {s : Started MemoryStorage}
    (run : steps Started.step (config.Start MemoryStorage.new readRefused resetRefused) events =
      some s) :
    Inverse s.storage ∧
    (∀ domain isIPv6 refused a s', s.Create domain isIPv6 refused = (.ok a, s') →
      Lasts s' domain isIPv6 a) ∧
    (∀ base bits, range4 = some (base, bits) → ∀ window,
      window <:+: allocations false (config.Start MemoryStorage.new readRefused resetRefused)
        events → window.length ≤ 2 ^ (32 - bits.val) - 3 → window.Nodup) ∧
    (∀ base bits, range6 = some (base, bits) → ∀ window,
      window <:+: allocations true (config.Start MemoryStorage.new readRefused resetRefused)
        events → window.length ≤ 2 ^ (128 - bits.val) - 3 → window.Nodup) := by
  have aligned4 := aligned4 masked4
  have aligned6 := aligned6 masked6
  have cycle : ∀ isIPv6, Cycle config isIPv6 (places range4 range6 isIPv6) := by
    obtain rfl := NewTransport_ok isConfig
    exact Bool.forall_bool.mpr
      ⟨aligned4.cycle rfl rfl fun _ => rfl, aligned6.cycle rfl rfl fun _ => rfl⟩
  have inTurn : InTurn config (places range4 range6) (fun _ => 0)
      (config.Start MemoryStorage.new readRefused resetRefused) := by
    obtain rfl := NewTransport_ok isConfig
    exact ⟨rfl, Bool.forall_bool.mpr ⟨aligned4.first, aligned6.first⟩, Inverse.new⟩
  obtain ⟨k, inTurn', order⟩ := inTurn.run cycle run
  refine ⟨inTurn'.inverse, fun _ _ _ _ _ h => inTurn'.create cycle h, ?_, ?_⟩
  · rintro base bits rfl window part short
    obtain ⟨n, order⟩ := order false
    rw [order] at part
    exact nodup_of_infix_cycle (fun i j same => cursorAt_succ_inj (aligned4.aligned base bits rfl)
      (aligned4.roomy base bits rfl) same) part short
  · rintro base bits rfl window part short
    obtain ⟨n, order⟩ := order true
    rw [order] at part
    exact nodup_of_infix_cycle (fun i j same => cursorAt_succ_inj (aligned6.aligned base bits rfl)
      (aligned6.roomy base bits rfl) same) part short

/-- Two domains get addresses of `10.0.0.0/29`, which has five to allocate. -/
theorem Create_bijection_29 : ∃ config s,
    NewTransport (some (.v4 0x0a000000#32 29)) none = .ok config ∧
    steps Started.step (config.Start MemoryStorage.new none none)
      [.create [97] false none, .create [98] false none, .create [97] false none] = some s ∧
    Inverse s.storage ∧
    ((s.Create [98] false none).1 = .ok (.v4 0x0a000003#32) ∧
      Lasts (s.Create [98] false none).2 [98] false (.v4 0x0a000003#32)) ∧
    (allocations false (config.Start MemoryStorage.new none none)
      [.create [97] false none, .create [98] false none, .create [97] false none]).Nodup := by
  have masked4 : inet4.Masked (some (0x0a000000#32, 29)) := by
    rintro _ _ ⟨⟩
    exact ⟨by decide, by decide⟩
  obtain ⟨inverse, lasts, nodup, _⟩ := Create_bijection (some (0x0a000000#32, 29)) none masked4 nofun
    rfl none none (rfl : steps Started.step _
      [.create [97] false none, .create [98] false none, .create [97] false none] = _)
  exact ⟨_, _, rfl, rfl, inverse, ⟨by decide, lasts _ _ none _ _ (Prod.ext (by decide) rfl)⟩,
    nodup _ _ rfl _ (List.infix_refl _) (by decide)⟩

end Runs

end SingBox.FakeIP
