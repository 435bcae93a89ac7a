import SingBox.FakeIP.Store

/-!
# Resetting the storage in the cache file

`FakeIPReset` deletes three buckets in one transaction. `FakeIPStore` creates the bucket of
the addresses and that of the domains of one family, so the third bucket may be missing; the
transaction then fails and everything is kept. `Start` drops the error.

* `Filled` — what a series of calls leaves in the database;
* `FakeIPReset_resets` — a reset leaves nothing if and only if addresses of both families were
  stored, or none; and then the store returns new addresses only;
* `FakeIPReset_keeps` — a store with a new range that returns an address of the old one.
-/

namespace SingBox.FakeIP

open Lib Lib.Bolt List

/-- The calls that fill the database. -/
inductive Call where
  | store (address : Addr) (domain : Bytes) (refused : Option Error)
  | saveMetadata (metadata : Metadata) (refused : Option Error)

open CacheFile

/-- The address that the call stores. A call that fails stores none. -/
def Call.stores : Call → Option Addr
  | .store address domain refused =>
      if refused = none ∧ Storable address domain then some address else none
  | .saveMetadata .. => none

theorem Call.stores_store {address : Addr} {domain : Bytes} (storable : Storable address domain) :
    (Call.store address domain none).stores = some address :=
  if_pos ⟨rfl, storable⟩

def StoresFamily (calls : List Call) (is4 : Bool) : Prop :=
  ∃ call ∈ calls, ∃ a, call.stores = some a ∧ a.is4 = is4

variable {calls : List Call}

theorem storesFamily_concat {call : Call} {is4 : Bool} :
    StoresFamily (calls ++ [call]) is4 ↔
      StoresFamily calls is4 ∨ ∃ a, call.stores = some a ∧ a.is4 = is4 := by
  simp [StoresFamily, or_and_right, exists_or]

theorem not_storesFamily_nil (is4 : Bool) : ¬ StoresFamily [] is4 :=
  fun ⟨_, mem, _⟩ => absurd mem not_mem_nil

theorem storesFamily_concat_none {call : Call} (none : call.stores = none) {is4 : Bool} :
    StoresFamily (calls ++ [call]) is4 ↔ StoresFamily calls is4 := by
  simp [storesFamily_concat, none]

theorem domainBucket_injective {is4 is4' : Bool} :
    [domainBucket is4] = [domainBucket is4'] ↔ is4 = is4' := by
  cases is4 <;> cases is4' <;> decide

/-- Addresses of both families were stored, or none at all. -/
def Complete (calls : List Call) : Prop :=
  (∀ is4, ¬ StoresFamily calls is4) ∨ ∀ is4, StoresFamily calls is4

/-! ## The cursors -/

/-- The address is one that the cursor of the store goes to. -/
def Store.Allocated (config : Store) (address : Addr) : Prop :=
  (∃ n, address =
    (allocate config.inet4Range config.inet4Last)^[n + 1] config.inet4Range.addr.next) ∨
  (∃ n, address =
    (allocate config.inet6Range config.inet6Last)^[n + 1] config.inet6Range.addr.next)

theorem withoutZone_next {a : Addr} (h : a.withoutZone = a) : a.next.withoutZone = a.next := by
  cases a with
  | invalid => rfl
  | v4 ip =>
    rw [Addr.next]
    split_ifs <;> rfl
  | v6 ip zone =>
    have none : [] = zone := (Addr.v6.inj h).2
    subst none
    rw [Addr.next]
    split_ifs <;> rfl

theorem withoutZone_addr (p : Prefix) : p.addr.withoutZone = p.addr := by
  cases p <;> rfl

/-- The places where a cursor has been after some allocations. -/
def Visited (p : Prefix) (last : Addr) (current : Addr) : Prop :=
  current.withoutZone = current ∧ ∃ n, current = (allocate p last)^[n] p.addr.next

theorem Visited.allocate {p : Prefix} {last current : Addr} (visited : Visited p last current) :
    (∃ n, allocate p last current = (allocate p last)^[n + 1] p.addr.next) ∧
    Visited p last (allocate p last current) := by
  obtain ⟨zone, n, rfl⟩ := visited
  have next := (Function.iterate_succ_apply' (FakeIP.allocate p last) n p.addr.next).symm
  exact ⟨⟨n, next⟩, allocate_induction (P := fun a => a.withoutZone = a) withoutZone_next
    (withoutZone_addr p) zone, n + 1, next⟩

theorem allocates_allocated (config : Store) :
    Allocates config (Visited config.inet4Range config.inet4Last)
      (Visited config.inet6Range config.inet6Last)
      fun a => a.withoutZone = a ∧ config.Allocated a := by
  refine ⟨?_, ?_, fun a good => good.1⟩
  · intro current visited _
    obtain ⟨isNext, visited'⟩ := visited.allocate
    exact ⟨⟨visited'.1, .inl isNext⟩, visited'⟩
  · intro current visited _
    obtain ⟨isNext, visited'⟩ := visited.allocate
    exact ⟨⟨visited'.1, .inr isNext⟩, visited'⟩

theorem visited_first (p : Prefix) (last : Addr) :
    Visited p last (if p.isValid then p.addr.next else .invalid) := by
  have first : (if p.isValid then p.addr.next else .invalid) = p.addr.next := by
    cases p <;> rfl
  rw [first]
  exact ⟨withoutZone_next (withoutZone_addr p), 0, rfl⟩

/-! ## The database after the calls -/

section

variable [Buckets]

namespace CacheFile

def call (c : CacheFile) : Call → CacheFile
  | .store address domain refused => (FakeIPStore refused address domain c).1
  | .saveMetadata metadata refused => (FakeIPSaveMetadata refused metadata c).1

/-- The cache file after some calls on an empty database. -/
def afterCalls (calls : List Call) : CacheFile := calls.foldl call (opened .empty)

end CacheFile

structure NoRecords (db : DB) : Prop where
  get_address : ∀ a : Addr, db.get [bucketFakeIP] a.asSlice = none
  get_domain : ∀ is4 key, db.get [domainBucket is4] key = none

/-- What a series of calls leaves: a bucket of domains for each family stored, and a record if
there was any. -/
structure Filled (calls : List Call) (c : CacheFile) : Prop where
  opened : c = CacheFile.opened c.db
  hasBucket : ∀ is4, c.db.hasBucket [domainBucket is4] = true ↔ StoresFamily calls is4
  records : (NoRecords c.db ∧ ∀ is4, ¬ StoresFamily calls is4) ∨
    ((∃ is4, StoresFamily calls is4) ∧ c.db.hasBucket [bucketFakeIP] = true ∧
      ∃ (a : Addr) (domain : Bytes), c.db.get [bucketFakeIP] a.asSlice = some domain ∧ domain ≠ [])

variable {c : CacheFile}

theorem Filled.stored (filled : Filled calls c) {call : Call} {address : Addr} {domain : Bytes}
    {db' : DB} (stores : call.stores = some address) (ne : domain ≠ [])
    (stored : Stored address domain c.db db') : Filled (calls ++ [call]) { c with db := db' } := by
  refine ⟨?_, ?_, .inr ⟨⟨address.is4, ?_⟩, ?_, address, domain, ?_, ne⟩⟩
  · rw [filled.opened]
    rfl
  · intro is4
    rw [storesFamily_concat, ← filled.hasBucket]
    have ne := (bucketFakeIP_ne_domainBucket is4).symm
    simp only [stored.hasBucket, Bool.or_eq_true, decide_eq_true_eq, ne, false_or,
      domainBucket_injective, stores, Option.some.injEq, exists_eq_left']
    exact ⟨fun h => h.symm.imp_right Eq.symm, fun h => h.symm.imp_left Eq.symm⟩
  · exact storesFamily_concat.mpr (.inr ⟨address, stores, rfl⟩)
  · simp [stored.hasBucket]
  · simp [stored.get_address]

theorem Filled.sameRecords (filled : Filled calls c) {call : Call} {db' : DB}
    (stores : call.stores = none) (same : SameRecords c.db db')
    (domains : ∀ is4, db'.hasBucket [domainBucket is4] = c.db.hasBucket [domainBucket is4])
    (addresses : c.db.hasBucket [bucketFakeIP] = true → db'.hasBucket [bucketFakeIP] = true) :
    Filled (calls ++ [call]) { c with db := db' } := by
  refine ⟨?_, ?_, ?_⟩
  · rw [filled.opened]
    rfl
  · intro is4
    rw [storesFamily_concat_none stores, ← filled.hasBucket, domains]
  · rcases filled.records with ⟨⟨get_address, get_domain⟩, none⟩ |
      ⟨⟨is4, some⟩, there, a, domain, get, ne⟩
    · refine .inl ⟨⟨?_, ?_⟩, ?_⟩
      · exact fun a => (same.get_address a).trans (get_address a)
      · exact fun is4 key => (same.get_domain is4 key).trans (get_domain is4 key)
      · exact fun is4 h => none is4 ((storesFamily_concat_none stores).mp h)
    · exact .inr ⟨⟨is4, (storesFamily_concat_none stores).mpr some⟩, addresses there, a, domain,
        (same.get_address a).trans get, ne⟩

theorem Filled.call (filled : Filled calls c) (call : Call) :
    Filled (calls ++ [call]) (c.call call) := by
  cases call with
  | store address domain refused =>
    rcases FakeIPStore_cases refused address domain c with ⟨ok, db', eq, stored⟩ | ⟨failed, eq⟩
    · rw [CacheFile.call, eq]
      exact filled.stored (if_pos ok) ok.2.2.1 stored
    · rw [CacheFile.call, eq]
      exact filled.sameRecords (if_neg failed) (.refl _) (fun _ => rfl) id
  | saveMetadata metadata refused =>
    obtain ⟨db', eq, same, hasBucket⟩ := FakeIPSaveMetadata_frame refused metadata c
    rw [CacheFile.call, eq]
    refine filled.sameRecords rfl same (fun is4 => ?_) fun there => ?_
    · simp [hasBucket, (bucketFakeIP_ne_domainBucket is4).symm]
    · simp [hasBucket, there]

theorem filled_afterCalls (calls : List Call) : Filled calls (afterCalls calls) := by
  induction calls using reverseRecOn with
  | nil =>
    refine ⟨rfl, fun is4 => iff_of_false ?_ (not_storesFamily_nil is4),
      .inl ⟨⟨fun _ => DB.get_of_not_hasBucket _ _ _ (DB.hasBucket_empty _),
        fun _ _ => DB.get_of_not_hasBucket _ _ _ (DB.hasBucket_empty _)⟩, not_storesFamily_nil⟩⟩
    exact Bool.eq_false_iff.mp (DB.hasBucket_empty [domainBucket is4])
  | append_singleton calls call filled =>
    rw [afterCalls, foldl_append]
    exact filled.call call

/-! ## A reset -/

def NothingLoaded (c : CacheFile) : Prop :=
  (∀ address, c.FakeIPLoad address = none) ∧
  ∀ domain isIPv6, c.FakeIPLoadDomain domain isIPv6 = none

theorem nothingLoaded_of_noRecords {db : DB} (none : NoRecords db) :
    NothingLoaded (CacheFile.opened db) := by
  refine ⟨fun address => ?_, fun domain isIPv6 => ?_⟩
  · simp [FakeIPLoad, CacheFile.opened, none.get_address]
  · simp [FakeIPLoadDomain, CacheFile.opened, viewDomain, none.get_domain, Addr.fromIP,
      Addr.isValid]

/-- A reset leaves nothing when all buckets are there, or no record is. -/
theorem reset_nothingLoaded {db : DB}
    (h : (∀ name ∈ buckets, db.hasBucket [name] = true) ∨ NoRecords db) :
    NothingLoaded (FakeIPReset none (CacheFile.opened db)).1 := by
  rcases FakeIPReset_cases none (CacheFile.opened db) with ⟨_, db', eq, gone⟩ | ⟨missing, eq⟩
  · rw [eq]
    exact nothingLoaded_of_noRecords ⟨fun _ => gone _ (by simp [buckets]) _,
      fun is4 _ => gone _ (by cases is4 <;> simp [buckets, domainBucket]) _⟩
  · rw [eq]
    exact nothingLoaded_of_noRecords (h.resolve_left fun all => missing ⟨rfl, all⟩)

theorem Filled.of_complete (filled : Filled calls c) (complete : Complete calls) :
    (∀ name ∈ buckets, c.db.hasBucket [name] = true) ∨ NoRecords c.db := by
  rcases filled.records with ⟨none, _⟩ | ⟨⟨is4, some⟩, there, _⟩
  · exact .inr none
  · have both := complete.resolve_left fun none => none is4 some
    have has4 := (filled.hasBucket true).mpr (both true)
    have has6 := (filled.hasBucket false).mpr (both false)
    left
    simp only [buckets, mem_cons, not_mem_nil, or_false]
    rintro name (rfl | rfl | rfl)
    · exact there
    · exact has4
    · exact has6

theorem Filled.complete (filled : Filled calls c) (nothing : NothingLoaded (c.FakeIPReset none).1) :
    Complete calls := by
  rcases FakeIPReset_cases none c with ⟨⟨_, all⟩, _⟩ | ⟨_, eq⟩
  · refine .inr fun is4 => (filled.hasBucket is4).mp (all _ ?_)
    cases is4 <;> simp [buckets, domainBucket]
  · rw [eq] at nothing
    rcases filled.records with ⟨_, none⟩ | ⟨_, _, a, domain, get, ne⟩
    · exact .inl none
    · have loaded := nothing.1 a
      rw [filled.opened] at loaded
      simp [FakeIPLoad, CacheFile.opened, get, ne] at loaded

/-- A store that is started with other ranges than those stored returns addresses that it
has allocated itself, and no others. -/
def OnlyAllocated (c : CacheFile) : Prop :=
  ∀ inet4Range inet6Range config, NewTransport inet4Range inet6Range = .ok config →
    ∀ readRefused, (∀ m, (c.FakeIPMetadata readRefused).1 = some m →
      ¬ (m.inet4Range = config.inet4Range ∧ m.inet6Range = config.inet6Range)) →
    ∀ events s, steps Started.step (config.Start c readRefused none) events = some s →
      ∀ domain isIPv6 refused address, (s.Create domain isIPv6 refused).1 = .ok address →
        config.Allocated address

theorem Start_reset {config : Store} {readRefused : Option Error}
    (differs : ∀ m, (c.FakeIPMetadata readRefused).1 = some m →
      ¬ (m.inet4Range = config.inet4Range ∧ m.inet6Range = config.inet6Range)) :
    config.Start c readRefused none =
      ⟨config, ((c.FakeIPMetadata readRefused).2.FakeIPReset none).1,
        if config.inet4Range.isValid then config.inet4Range.addr.next else .invalid,
        if config.inet6Range.isValid then config.inet6Range.addr.next else .invalid⟩ := by
  unfold Store.Start
  have method : FakeIPStorage.FakeIPMetadata readRefused c = c.FakeIPMetadata readRefused := rfl
  rw [method]
  cases read : c.FakeIPMetadata readRefused with
  | mk metadata storage =>
    rw [read] at differs
    cases metadata with
    | none => rfl
    | some m => exact if_neg (differs m rfl)

theorem Filled.onlyAllocated (filled : Filled calls c) (complete : Complete calls) :
    OnlyAllocated c := by
  intro inet4Range inet6Range config _ readRefused differs events s run domain isIPv6 refused
    address returned
  -- reading the metadata leaves the buckets and the records as they are
  obtain ⟨db', read, same, hasBucket⟩ := FakeIPMetadata_frame readRefused c
  have nothing : NothingLoaded ((c.FakeIPMetadata readRefused).2.FakeIPReset none).1 := by
    rw [read, filled.opened]
    refine reset_nothingLoaded ((filled.of_complete complete).imp ?_ ?_)
    · intro all name mem
      rw [hasBucket]
      exact all name mem
    · exact fun none => ⟨fun a => (same.get_address a).trans (none.get_address a),
        fun is4 key => (same.get_domain is4 key).trans (none.get_domain is4 key)⟩
  rw [Start_reset differs] at run
  have allocates := allocates_allocated config
  have inv : Invariant config _ _ (fun a => a.withoutZone = a ∧ config.Allocated a) s :=
    Invariant.steps allocates ⟨rfl, visited_first _ _, visited_first _ _,
      fun a ⟨domain, isIPv6, loaded⟩ => nomatch (nothing.2 domain isIPv6).symm.trans loaded⟩ run
  exact ((inv.create allocates domain isIPv6 refused).1 address returned).2

/-- A reset leaves nothing if and only if addresses of both families were stored, or none at
all. In that case a store that is started with new ranges returns new addresses only. -/
theorem FakeIPReset_resets (calls : List Call) :
    (NothingLoaded ((afterCalls calls).FakeIPReset none).1 ↔ Complete calls) ∧
    (Complete calls → OnlyAllocated (afterCalls calls)) := by
  have filled := filled_afterCalls calls
  refine ⟨⟨filled.complete, fun complete => ?_⟩, filled.onlyAllocated⟩
  rw [filled.opened]
  exact reset_nothingLoaded (filled.of_complete complete)

end

/-- An address of each family is stored, and nothing is loaded after the reset. -/
theorem FakeIPReset_resets_both :
    let calls : List Call :=
      [.store (.v4 0x0a000002#32) [97] none, .store (.v6 2#128 []) [97] none]
    Complete calls ∧ OnlyAllocated (afterCalls calls) := by
  intro calls
  have complete : Complete calls := by
    refine .inr fun is4 => ?_
    cases is4 with
    | true => exact ⟨_, mem_cons_self, _, Call.stores_store (by decide), rfl⟩
    | false =>
      exact ⟨_, mem_cons_of_mem _ mem_cons_self, _, Call.stores_store (by decide), rfl⟩
  exact ⟨complete, (FakeIPReset_resets calls).2 complete⟩

/-- Only an IPv4 address is stored, from the range `10.0.0.0/8`. The reset keeps it, and a
store with the range `198.18.0.0/15` returns it. -/
theorem FakeIPReset_keeps :
    let calls : List Call :=
      [.store (.v4 0x0a000002#32) [97] none,
        .saveMetadata ⟨.v4 0x0a000000#32 8, .invalid, .v4 0x0a000002#32, .invalid⟩ none]
    ((afterCalls calls).FakeIPReset none).1.FakeIPLoad (.v4 0x0a000002#32) = some [97] ∧
    ∃ config, NewTransport (some (.v4 0xc6120000#32 15)) none = .ok config ∧
      ((config.Start (afterCalls calls) none none).Create [97] false none).1 =
        .ok (.v4 0x0a000002#32) ∧
      config.Contains (.v4 0x0a000002#32) = false :=
  ⟨by decide, _, rfl, by decide, by decide⟩

end SingBox.FakeIP
