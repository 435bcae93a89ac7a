import SingBox.Lib.Bolt
import SingBox.Lib.Slice
import SingBox.Lib.System
import SingBox.Netip

/-!
# The storage of FakeIP

Which address was given to which domain is kept in memory, or in the database of the cache
file. Both implement `FakeIPStorage`, and what the store of addresses relies on is the same
for both.

* `UnmarshalBinary_MarshalBinary` — metadata is read back as it was written;
* `FakeIPStore_cases` — what storing an address does to the database;
* `LawfulStorage` — nothing is loaded from a storage that was not stored, for both of them.
-/

namespace SingBox

open Lib Lib.Bolt Function List Option

/-! ## Addresses and prefixes as bytes -/

namespace Addr

theorem asSlice_eq_nil {a : Addr} : a.asSlice = [] ↔ a.isValid = false := by
  cases a <;> simp [asSlice, isValid, putUint]

def MarshalBinary (a : Addr) : Bytes :=
  match a with
  | .v6 _ zone => a.asSlice ++ zone
  | _ => a.asSlice

def UnmarshalBinary (b : Bytes) : Except Error Addr :=
  if b.length = 0 ∨ b.length = 4 ∨ b.length = 16 then .ok (fromIP b)
  else if 16 < b.length then .ok (.v6 (BitVec.ofNat 128 (uint (b.take 16))) (b.drop 16))
  else .error (.failed "unexpected slice size")

theorem UnmarshalBinary_MarshalBinary (a : Addr) : UnmarshalBinary a.MarshalBinary = .ok a := by
  cases a with
  | invalid => rfl
  | v4 ip =>
    have back := fromIP_asSlice (.v4 ip)
    simp [MarshalBinary, UnmarshalBinary, asSlice] at back ⊢
    exact back
  | v6 ip zone =>
    have length : ((Addr.v6 ip zone).MarshalBinary).length = 16 + zone.length := by
      simp [MarshalBinary, asSlice]
    unfold UnmarshalBinary
    by_cases empty : zone = []
    · subst empty
      rw [if_pos (by simp [length])]
      simp only [MarshalBinary, append_nil, fromIP_asSlice, withoutZone]
    · have long : 0 < zone.length := length_pos_iff.mpr empty
      rw [if_neg (by omega), if_pos (by omega)]
      simp only [MarshalBinary, asSlice]
      rw [drop_left' (by simp), take_left' (by simp), uint_putUint_toNat 16 ip (by norm_num)]

end Addr

namespace Prefix

def MarshalBinary (p : Prefix) : Bytes := p.addr.MarshalBinary ++ [UInt8.ofNat (p.bits % 256).toNat]

def UnmarshalBinary (b : Bytes) : Except Error Prefix :=
  match b.getLast? with
  | none => .error (.failed "unexpected slice size")
  | some bits => do
      let addr ← Addr.UnmarshalBinary b.dropLast
      .ok (ofAddr addr bits.toNat)

theorem UnmarshalBinary_MarshalBinary (p : Prefix) : UnmarshalBinary p.MarshalBinary = .ok p := by
  unfold UnmarshalBinary MarshalBinary
  simp only [getLast?_append, getLast?_singleton, some_or,
    dropLast_concat, Addr.UnmarshalBinary_MarshalBinary]
  cases p with
  | invalid => rfl
  | v4 ip bits | v6 ip bits =>
    have fits : ((bits.val : Int) % 256).toNat % 256 = bits.val := by omega
    simp [addr, Prefix.bits, ofAddr, bind, Except.bind, fits]

end Prefix

namespace FakeIP

structure Metadata where
  inet4Range : Prefix
  inet6Range : Prefix
  inet4Current : Addr
  inet6Current : Addr
  deriving DecidableEq, Repr

namespace Metadata

/-- An element with its length before it, in 16 bits. -/
def element (data : Bytes) : Bytes := putUint 2 data.length ++ data

def MarshalBinary (m : Metadata) : Bytes :=
  element m.inet4Range.MarshalBinary ++ (element m.inet6Range.MarshalBinary ++
    (element m.inet4Current.MarshalBinary ++ element m.inet6Current.MarshalBinary))

/-- Read one element, and what is left. `common.Must` panics if there is no length. -/
def readElement (b : Bytes) : Except (Stop Error) (Bytes × Bytes) :=
  if b.length < 2 then .error .panic
  else
    let length := uint (b.take 2)
    if (b.drop 2).length < length then
      .error (.error (.failed (if b.length = 2 then "EOF" else "unexpected EOF")))
    else .ok ((b.drop 2).take length, (b.drop 2).drop length)

def UnmarshalBinary (data : Bytes) : Except (Stop Error) Metadata := do
  let (data, reader) ← readElement data
  let inet4Range ← liftError (Prefix.UnmarshalBinary data)
  let (data, reader) ← readElement reader
  let inet6Range ← liftError (Prefix.UnmarshalBinary data)
  let (data, reader) ← readElement reader
  let inet4Current ← liftError (Addr.UnmarshalBinary data)
  let (data, _) ← readElement reader
  let inet6Current ← liftError (Addr.UnmarshalBinary data)
  .ok { inet4Range, inet6Range, inet4Current, inet6Current }

theorem readElement_element {data : Bytes} (fits : data.length < 256 ^ 2) (rest : Bytes) :
    readElement (element data ++ rest) = .ok (data, rest) := by
  have take : (element data ++ rest).take 2 = putUint 2 data.length := by
    rw [element, append_assoc, take_left' (by simp)]
  have drop : (element data ++ rest).drop 2 = data ++ rest := by
    rw [element, append_assoc, drop_left' (by simp)]
  have length : (element data ++ rest).length = 2 + data.length + rest.length := by
    simp [element]
    omega
  unfold readElement
  rw [take, drop, uint_putUint fits, if_neg (by omega)]
  simp

/-- The zone of an address is short enough for its length to be written. -/
def Short (a : Addr) : Prop := a.MarshalBinary.length < 256 ^ 2

theorem length_prefixBytes_lt (p : Prefix) : p.MarshalBinary.length < 256 ^ 2 := by
  cases p <;> simp [Prefix.MarshalBinary, Prefix.addr, Addr.MarshalBinary, Addr.asSlice]

theorem UnmarshalBinary_MarshalBinary (m : Metadata) (short4 : Short m.inet4Current)
    (short6 : Short m.inet6Current) : UnmarshalBinary m.MarshalBinary = .ok m := by
  have last := readElement_element short6 []
  rw [append_nil] at last
  unfold UnmarshalBinary MarshalBinary
  simp only [readElement_element (length_prefixBytes_lt _), readElement_element short4, last, bind,
    Except.bind, Prefix.UnmarshalBinary_MarshalBinary, Addr.UnmarshalBinary_MarshalBinary,
    liftError]

end Metadata

/-! ## The interface -/

/-- `adapter.FakeIPStorage`. A domain is given by its bytes; `refused` is the error that the
database answers with by itself, if any. -/
class FakeIPStorage (σ : Type) where
  FakeIPMetadata : Option Error → σ → Option Metadata × σ
  FakeIPSaveMetadataAsync : Metadata → σ → σ
  FakeIPStore : Option Error → Addr → Bytes → σ → σ × Option Error
  FakeIPLoad : σ → Addr → Option Bytes
  FakeIPLoadDomain : σ → Bytes → Bool → Option Addr
  FakeIPReset : Option Error → σ → σ × Option Error
  /-- The timer that `FakeIPSaveMetadataAsync` has set runs out. -/
  timer : Option Error → σ → σ

open FakeIPStorage

/-- The storage gives the address for some domain. -/
def Loads {σ : Type} [FakeIPStorage σ] (s : σ) (a : Addr) : Prop :=
  ∃ domain isIPv6, FakeIPLoadDomain s domain isIPv6 = some a

/-- What is loaded has been stored. -/
class LawfulStorage (σ : Type) [FakeIPStorage σ] : Prop where
  loads_metadata : ∀ {refused s a}, Loads (FakeIPMetadata refused s : _ × σ).2 a → Loads s a
  loads_saveMetadataAsync : ∀ {m a} {s : σ}, Loads (FakeIPSaveMetadataAsync m s) a → Loads s a
  loads_store : ∀ {refused address domain a} {s : σ},
    Loads (FakeIPStore refused address domain s).1 a →
      Loads s a ∨ a = address ∨ a = address.withoutZone
  loads_reset : ∀ {refused a} {s : σ}, Loads (FakeIPReset refused s).1 a → Loads s a
  loads_timer : ∀ {refused a} {s : σ}, Loads (timer refused s) a → Loads s a

/-! ## In memory -/

structure MemoryStorage where
  addressCache : Addr → Option Bytes
  domainCache4 : Bytes → Option Addr
  domainCache6 : Bytes → Option Addr

namespace MemoryStorage

def new : MemoryStorage where
  addressCache _ := none
  domainCache4 _ := none
  domainCache6 _ := none

/-- Forget the domain that had the address. -/
def evict (oldDomain : Option Bytes) (domainCache : Bytes → Option Addr) : Bytes → Option Addr :=
  match oldDomain with
  | some old => update domainCache old none
  | none => domainCache

def FakeIPStore (address : Addr) (domain : Bytes) (s : MemoryStorage) : MemoryStorage :=
  let oldDomain := s.addressCache address
  let addressCache := update s.addressCache address (some domain)
  if address.is4 then
    { s with
      addressCache
      domainCache4 := update (evict oldDomain s.domainCache4) domain (some address) }
  else
    { s with
      addressCache
      domainCache6 := update (evict oldDomain s.domainCache6) domain (some address) }

instance : FakeIPStorage MemoryStorage where
  FakeIPMetadata _ s := (none, s)
  FakeIPSaveMetadataAsync _ s := s
  FakeIPStore _ address domain s := (FakeIPStore address domain s, none)
  FakeIPLoad s address := s.addressCache address
  FakeIPLoadDomain s domain isIPv6 := if !isIPv6 then s.domainCache4 domain else s.domainCache6 domain
  FakeIPReset _ _ := (new, none)
  timer _ s := s

variable {domainCache : Bytes → Option Addr}

theorem update_evict_eq_some {oldDomain : Option Bytes} {domain domain' : Bytes} {address a : Addr}
    (h : update (evict oldDomain domainCache) domain (some address) domain' = some a) :
    domainCache domain' = some a ∨ a = address := by
  obtain ⟨-, new⟩ | ⟨-, kept⟩ := of_update h
  · exact .inr (some.inj new).symm
  · unfold evict at kept
    split at kept
    · obtain ⟨-, ⟨⟩⟩ | ⟨-, kept⟩ := of_update kept
      exact .inl kept
    · exact .inl kept

instance : LawfulStorage MemoryStorage where
  loads_metadata loads := loads
  loads_saveMetadataAsync loads := loads
  loads_store {refused address domain a s} := by
    rintro ⟨domain', isIPv6, loaded⟩
    suffices before : FakeIPLoadDomain s domain' isIPv6 = some a ∨ a = address from
      before.elim (fun loaded => .inl ⟨domain', isIPv6, loaded⟩) fun same => .inr (.inl same)
    simp only [FakeIPLoadDomain, FakeIPStorage.FakeIPStore, FakeIPStore] at loaded ⊢
    -- the map of the other family is as it was
    by_cases family : address.is4 = true
    · rw [if_pos family] at loaded
      cases isIPv6 with
      | false => exact update_evict_eq_some loaded
      | true => exact .inl loaded
    · rw [if_neg family] at loaded
      cases isIPv6 with
      | false => exact .inl loaded
      | true => exact update_evict_eq_some loaded
  loads_reset {refused a s} := by
    rintro ⟨domain, isIPv6, loaded⟩
    cases isIPv6 <;> cases loaded
  loads_timer loads := loads

end MemoryStorage

/-! ## In the cache file -/

def bucketFakeIP : Bytes := goBytes "fakeip_address"
def bucketFakeIPDomain4 : Bytes := goBytes "fakeip_domain4"
def bucketFakeIPDomain6 : Bytes := goBytes "fakeip_domain6"
def keyMetadata : Bytes := goBytes "fakeip_metadata"

namespace CacheFile

def domainBucket (is4 : Bool) : Bytes := if is4 then bucketFakeIPDomain4 else bucketFakeIPDomain6

theorem bucketFakeIP_ne_domainBucket (is4 : Bool) : [bucketFakeIP] ≠ [domainBucket is4] := by
  cases is4 <;> decide

/-- The key of the metadata is that of no address. -/
theorem asSlice_ne_keyMetadata (a : Addr) : a.asSlice ≠ keyMetadata := by
  intro h
  have length := congrArg length h
  have metadata : keyMetadata.length = 15 := by decide
  cases a <;> simp [Addr.asSlice, metadata] at length

def buckets : List Bytes := [bucketFakeIP, bucketFakeIPDomain4, bucketFakeIPDomain6]

/-- What the database accepts. -/
def Storable (address : Addr) (domain : Bytes) : Prop :=
  address.isValid = true ∧ domain ≠ [] ∧ domain.length ≤ maxKeySize

instance (address : Addr) (domain : Bytes) : Decidable (Storable address domain) :=
  inferInstanceAs (Decidable (_ ∧ _ ∧ _))

end CacheFile

variable [Buckets]

/-- The part of `CacheFile` that is about FakeIP. The maps are filled by `FakeIPStoreAsync`
only, which nothing calls. -/
structure CacheFile where
  db : DB
  saveDomain : Addr → Option Bytes
  saveAddress4 : Bytes → Option Addr
  saveAddress6 : Bytes → Option Addr
  /-- What the timer saves when it runs out: the metadata it was created with. -/
  saveMetadataTimer : Option Metadata

namespace CacheFile

/-- A database just opened. -/
def opened (db : DB) : CacheFile where
  db
  saveDomain _ := none
  saveAddress4 _ := none
  saveAddress6 _ := none
  saveMetadataTimer := none

def metadataTx (db : DB) : Except (Stop Error) (Metadata × DB) :=
  let metadataBinary := (db.get [bucketFakeIP] keyMetadata).getD []
  if !db.hasBucket [bucketFakeIP] then .error (.error (.failed "file does not exist"))
  else if metadataBinary.length = 0 then .error (.error (.failed "invalid argument"))
  else do
    let db ← liftError (delete [bucketFakeIP] keyMetadata db)
    let metadata ← Metadata.UnmarshalBinary metadataBinary
    .ok (metadata, db)

variable (refused : Option Error) (c : CacheFile)

/-- Reading the metadata deletes it. A file whose metadata ends before a length, where the source
panics, is not told apart from one without metadata. -/
def FakeIPMetadata : Option Metadata × CacheFile :=
  match refused, metadataTx c.db with
  | none, .ok (metadata, db) => (some metadata, { c with db })
  | _, _ => (none, c)

variable (metadata : Metadata)

def saveMetadataTx (db : DB) : Except Error DB := do
  let db ← createBucketIfNotExists [] bucketFakeIP db
  put [bucketFakeIP] keyMetadata metadata.MarshalBinary db

def FakeIPSaveMetadata (c : CacheFile) : CacheFile × Option Error :=
  let result := batch refused (saveMetadataTx metadata) c.db
  ({ c with db := result.1 }, result.2)

/-- The timer keeps the metadata of the call that created it. -/
def FakeIPSaveMetadataAsync (c : CacheFile) : CacheFile :=
  { c with saveMetadataTimer := some (c.saveMetadataTimer.getD metadata) }

def timer : CacheFile :=
  match c.saveMetadataTimer with
  | none => c
  | some metadata => (FakeIPSaveMetadata refused metadata c).1

/-- Forget the domain that had the address. -/
def evict (bucket : Bytes) (oldDomain : Option Bytes) (db : DB) : Except Error DB :=
  match oldDomain with
  | some old => delete [bucket] old db
  | none => .ok db

def storeTx (address : Addr) (domain : Bytes) (db : DB) : Except Error DB := do
  let db ← createBucketIfNotExists [] bucketFakeIP db
  let oldDomain := db.get [bucketFakeIP] address.asSlice
  let db ← put [bucketFakeIP] address.asSlice domain db
  let bucket := domainBucket address.is4
  let db ← createBucketIfNotExists [] bucket db
  let db ← evict bucket oldDomain db
  put [bucket] domain address.asSlice db

def FakeIPStore (address : Addr) (domain : Bytes) (c : CacheFile) :
    CacheFile × Option Error :=
  let result := batch refused (storeTx address domain) c.db
  ({ c with db := result.1 }, result.2)

/-- A domain that is stored as the empty text counts as not loaded. -/
def FakeIPLoad (address : Addr) : Option Bytes :=
  match c.saveDomain address with
  | some cachedDomain => some cachedDomain
  | none =>
      let domain := (c.db.get [bucketFakeIP] address.asSlice).getD []
      if domain = [] then none else some domain

/-- The part of `FakeIPLoadDomain` that looks into the database. -/
def viewDomain (db : DB) (domain : Bytes) (is4 : Bool) : Option Addr :=
  let address := Addr.fromIP ((db.get [domainBucket is4] domain).getD [])
  if address.isValid then some address else none

def FakeIPLoadDomain (domain : Bytes) (isIPv6 : Bool) : Option Addr :=
  match if !isIPv6 then c.saveAddress4 domain else c.saveAddress6 domain with
  | some cachedAddress => some cachedAddress
  | none => viewDomain c.db domain !isIPv6

def resetTx (db : DB) : Except Error DB := do
  let db ← deleteBucket [] bucketFakeIP db
  let db ← deleteBucket [] bucketFakeIPDomain4 db
  deleteBucket [] bucketFakeIPDomain6 db

def FakeIPReset : CacheFile × Option Error :=
  let result := batch refused resetTx c.db
  ({ c with db := result.1 }, result.2)

instance : FakeIPStorage CacheFile where
  FakeIPMetadata := FakeIPMetadata
  FakeIPSaveMetadataAsync := FakeIPSaveMetadataAsync
  FakeIPStore := FakeIPStore
  FakeIPLoad := FakeIPLoad
  FakeIPLoadDomain := FakeIPLoadDomain
  FakeIPReset := FakeIPReset
  timer := timer

/-! ### What storing an address does -/

/-- The database after an address was stored: the address has the domain, the domain that had
it before has none, and both buckets are there. -/
structure Stored (address : Addr) (domain : Bytes) (db db' : DB) : Prop where
  get_address : ∀ key, db'.get [bucketFakeIP] key =
    if key = address.asSlice then some domain else db.get [bucketFakeIP] key
  get_domain : ∀ key, db'.get [domainBucket address.is4] key =
    if key = domain then some address.asSlice
    else if db.get [bucketFakeIP] address.asSlice = some key then none
    else db.get [domainBucket address.is4] key
  get_other : ∀ key, db'.get [domainBucket !address.is4] key =
    db.get [domainBucket !address.is4] key
  hasBucket : ∀ path, db'.hasBucket path = (decide (path = [domainBucket address.is4]) ||
    (decide (path = [bucketFakeIP]) || db.hasBucket path))

/-- The database that `storeTx` leaves. -/
def storedDB (address : Addr) (domain : Bytes) (db : DB) : DB :=
  let bucket := domainBucket address.is4
  let db₁ := (db.ensure [] bucketFakeIP db.canHold_top).set [bucketFakeIP] address.asSlice
    (some domain)
  let db₂ := db₁.ensure [] bucket db₁.canHold_top
  let db₃ := match db.get [bucketFakeIP] address.asSlice with
    | some old => db₂.set [bucket] old none
    | none => db₂
  db₃.set [bucket] domain (some address.asSlice)

variable {address : Addr} {domain : Bytes} {db db' : DB} {a : Addr}

theorem storeTx_ok (storable : Storable address domain) (db : DB) :
    storeTx address domain db = .ok (storedDB address domain db) := by
  obtain ⟨valid, ne, short⟩ := storable
  have name : bucketFakeIP ≠ [] := by decide
  have name' : domainBucket address.is4 ≠ [] := by cases address.is4 <;> decide
  have key : address.asSlice ≠ [] := by
    rw [Ne, Addr.asSlice_eq_nil, valid]
    nofun
  have keyShort : address.asSlice.length ≤ maxKeySize := by
    cases address <;> simp [Addr.asSlice, maxKeySize]
  have putAddress : ∀ db, put [bucketFakeIP] address.asSlice domain db =
      .ok (db.set [bucketFakeIP] address.asSlice (some domain)) :=
    fun _ => put_eq_ok.mpr ⟨key, keyShort, rfl⟩
  have putDomain : ∀ db, put [domainBucket address.is4] domain address.asSlice db =
      .ok (db.set [domainBucket address.is4] domain (some address.asSlice)) :=
    fun _ => put_eq_ok.mpr ⟨ne, short, rfl⟩
  simp only [storeTx, storedDB, createBucketIfNotExists_top name,
    createBucketIfNotExists_top name', putAddress, DB.get_ensure, bind, Except.bind]
  cases db.get [bucketFakeIP] address.asSlice <;> simp only [evict, delete, putDomain]

theorem storeTx_error (notStorable : ¬ Storable address domain) (db : DB) :
    ∃ err, storeTx address domain db = .error err := by
  cases h : storeTx address domain db with
  | error err => exact ⟨err, rfl⟩
  | ok db' =>
    obtain ⟨_, _, h⟩ := bind_eq_ok.mp h
    obtain ⟨_, putAddress, h⟩ := bind_eq_ok.mp h
    obtain ⟨_, _, h⟩ := bind_eq_ok.mp h
    obtain ⟨_, _, putDomain⟩ := bind_eq_ok.mp h
    obtain ⟨key, _, _⟩ := put_eq_ok.mp putAddress
    obtain ⟨ne, short, _⟩ := put_eq_ok.mp putDomain
    refine absurd ⟨?_, ne, short⟩ notStorable
    rwa [Ne, Addr.asSlice_eq_nil, Bool.not_eq_false] at key

theorem stored_storedDB (address : Addr) (domain : Bytes) (db : DB) :
    Stored address domain db (storedDB address domain db) := by
  have ne := bucketFakeIP_ne_domainBucket address.is4
  have ne' : [domainBucket !address.is4] ≠ [domainBucket address.is4] := by
    cases address.is4 <;> decide
  have ne'' := bucketFakeIP_ne_domainBucket !address.is4
  unfold storedDB
  cases h : db.get [bucketFakeIP] address.asSlice with
  | none | some old =>
    constructor
    · intro key
      simp [DB.get_set, ne]
    · intro key
      simp [DB.get_set, ne.symm, h, eq_comm]
    · intro key
      simp [DB.get_set, ne', ne''.symm]
    · intro path
      simp

theorem FakeIPStore_cases (address : Addr) (domain : Bytes) (c : CacheFile) :
    ((refused = none ∧ Storable address domain) ∧
      ∃ db', (FakeIPStore refused address domain c).1 = { c with db := db' } ∧
        Stored address domain c.db db') ∨
    (¬ (refused = none ∧ Storable address domain) ∧
      (FakeIPStore refused address domain c).1 = c) := by
  unfold FakeIPStore batch
  cases refused with
  | some err => exact .inr ⟨fun h => some_ne_none _ h.1, rfl⟩
  | none =>
    by_cases storable : Storable address domain
    · refine .inl ⟨⟨rfl, storable⟩, storedDB address domain c.db, ?_, stored_storedDB ..⟩
      simp [storeTx_ok storable]
    · obtain ⟨err, failed⟩ := storeTx_error storable c.db
      refine .inr ⟨fun h => storable h.2, ?_⟩
      simp [failed]

/-! ### What the other calls do -/

/-- Domains and addresses are the same in both. -/
structure SameRecords (db db' : DB) : Prop where
  get_address : ∀ a : Addr, db'.get [bucketFakeIP] a.asSlice = db.get [bucketFakeIP] a.asSlice
  get_domain : ∀ is4 key, db'.get [domainBucket is4] key = db.get [domainBucket is4] key

theorem SameRecords.refl (db : DB) : SameRecords db db := ⟨fun _ => rfl, fun _ _ => rfl⟩

theorem sameRecords_set (there : db.hasBucket [bucketFakeIP] = true) (value : Option Bytes) :
    SameRecords db (db.set [bucketFakeIP] keyMetadata value) := by
  refine ⟨fun a => ?_, fun is4 key => ?_⟩
  · rw [DB.get_set _ _ _ _ _ _ there, if_neg fun h => asSlice_ne_keyMetadata a h.2]
  · rw [DB.get_set _ _ _ _ _ _ there, if_neg fun h => bucketFakeIP_ne_domainBucket is4 h.1.symm]

theorem FakeIPMetadata_frame (c : CacheFile) :
    ∃ db', (FakeIPMetadata refused c).2 = { c with db := db' } ∧ SameRecords c.db db' ∧
      ∀ path, db'.hasBucket path = c.db.hasBucket path := by
  unfold FakeIPMetadata
  split
  · rename_i metadata db' htx
    refine ⟨db', rfl, ?_⟩
    simp only [metadataTx] at htx
    split_ifs at htx with absent
    obtain ⟨deleted, hdelete, htx⟩ := bind_eq_ok.mp htx
    obtain ⟨_, _, result⟩ := bind_eq_ok.mp htx
    cases hdelete
    cases result
    exact ⟨sameRecords_set (by simpa using absent) none, fun path => DB.hasBucket_set ..⟩
  · exact ⟨c.db, rfl, .refl _, fun _ => rfl⟩

theorem saveMetadataTx_ok (metadata : Metadata) (db : DB) :
    saveMetadataTx metadata db = .ok ((db.ensure [] bucketFakeIP db.canHold_top).set
      [bucketFakeIP] keyMetadata (some metadata.MarshalBinary)) := by
  have name : keyMetadata ≠ [] ∧ keyMetadata.length ≤ maxKeySize := by decide
  exact put_eq_ok.mpr ⟨name.1, name.2, rfl⟩

theorem FakeIPSaveMetadata_frame (metadata : Metadata) (c : CacheFile) :
    ∃ db', (FakeIPSaveMetadata refused metadata c).1 = { c with db := db' } ∧
      SameRecords c.db db' ∧
      ∀ path, db'.hasBucket path =
        (decide (refused = none ∧ path = [bucketFakeIP]) || c.db.hasBucket path) := by
  unfold FakeIPSaveMetadata batch
  cases refused with
  | some err => exact ⟨c.db, rfl, .refl _, by simp⟩
  | none =>
    refine ⟨_, by rw [saveMetadataTx_ok], ?_, by simp⟩
    have there :
        (c.db.ensure [] bucketFakeIP c.db.canHold_top).hasBucket [bucketFakeIP] = true := by
      simp
    obtain ⟨get_address, get_domain⟩ := sameRecords_set there (some metadata.MarshalBinary)
    exact ⟨fun a => by rw [get_address, DB.get_ensure], fun is4 key => by
      rw [get_domain, DB.get_ensure]⟩

/-- All three buckets have to be there. -/
theorem resetTx_eq_ok :
    resetTx db = .ok db' ↔ (∀ name ∈ buckets, db.hasBucket [name] = true) ∧
      db' = ((db.remove [bucketFakeIP]).remove [bucketFakeIPDomain4]).remove
        [bucketFakeIPDomain6] := by
  have ne4 : ¬ [bucketFakeIP] <+: [bucketFakeIPDomain4] := by decide
  have ne6 : ¬ [bucketFakeIP] <+: [bucketFakeIPDomain6] := by decide
  have ne46 : ¬ [bucketFakeIPDomain4] <+: [bucketFakeIPDomain6] := by decide
  unfold resetTx
  simp only [bind_eq_ok, deleteBucket_eq_ok, nil_append]
  constructor
  · rintro ⟨_, ⟨has, rfl⟩, _, ⟨has4, rfl⟩, has6, rfl⟩
    rw [DB.hasBucket_remove, if_neg ne4] at has4
    rw [DB.hasBucket_remove, if_neg ne46, DB.hasBucket_remove, if_neg ne6] at has6
    exact ⟨by simp [buckets, has, has4, has6], rfl⟩
  · rintro ⟨has, rfl⟩
    refine ⟨_, ⟨has _ (by simp [buckets]), rfl⟩, _, ⟨?_, rfl⟩, ?_, rfl⟩
    · rw [DB.hasBucket_remove]
      exact has _ (by simp [buckets])
    · rw [DB.hasBucket_remove, DB.hasBucket_remove, if_neg ne6]
      exact has _ (by simp [buckets])

/-- A reset removes everything if all three buckets are there, and nothing otherwise. -/
theorem FakeIPReset_cases (c : CacheFile) :
    ((refused = none ∧ ∀ name ∈ buckets, c.db.hasBucket [name] = true) ∧
      ∃ db', (FakeIPReset refused c).1 = { c with db := db' } ∧
        ∀ name ∈ buckets, ∀ key, db'.get [name] key = none) ∨
    (¬ (refused = none ∧ ∀ name ∈ buckets, c.db.hasBucket [name] = true) ∧
      (FakeIPReset refused c).1 = c) := by
  unfold FakeIPReset batch
  cases refused with
  | some err => exact .inr ⟨fun h => some_ne_none _ h.1, rfl⟩
  | none =>
    cases htx : resetTx c.db with
    | ok db' =>
      obtain ⟨has, rfl⟩ := resetTx_eq_ok.mp htx
      refine .inl ⟨⟨rfl, has⟩, _, rfl, ?_⟩
      simp [buckets, DB.get_remove]
    | error err =>
      refine .inr ⟨fun has => ?_, rfl⟩
      cases htx.symm.trans (resetTx_eq_ok.mpr ⟨has.2, rfl⟩)

/-- What is loaded after a change of the database alone. -/
theorem loads_of_view {c : CacheFile} {P : Prop}
    (view : ∀ domain is4, viewDomain db' domain is4 = some a →
      viewDomain c.db domain is4 = some a ∨ P)
    (loads : Loads { c with db := db' } a) : Loads c a ∨ P := by
  obtain ⟨domain, isIPv6, loaded⟩ := loads
  simp only [FakeIPStorage.FakeIPLoadDomain, FakeIPLoadDomain] at loaded
  split at loaded
  · rename_i cached hcached
    refine .inl ⟨domain, isIPv6, ?_⟩
    simp only [FakeIPStorage.FakeIPLoadDomain, FakeIPLoadDomain, hcached]
    exact loaded
  · rename_i hcached
    refine (view domain _ loaded).imp_left fun same => ⟨domain, isIPv6, ?_⟩
    simp only [FakeIPStorage.FakeIPLoadDomain, FakeIPLoadDomain, hcached]
    exact same

theorem viewDomain_eq_some {is4 : Bool} :
    viewDomain db domain is4 = some a ↔
      ∃ b, db.get [domainBucket is4] domain = some b ∧ Addr.fromIP b = a ∧ a.isValid = true := by
  unfold viewDomain
  cases db.get [domainBucket is4] domain with
  | none => simp [Addr.fromIP, Addr.isValid]
  | some b =>
    simp only [getD_some, some.injEq, exists_eq_left']
    split_ifs with valid
    · simp only [some.injEq]
      constructor
      · rintro rfl
        exact ⟨rfl, valid⟩
      · exact fun h => h.1
    · constructor
      · intro h
        cases h
      · rintro ⟨rfl, valid'⟩
        exact absurd valid' valid

theorem loads_of_sameRecords {c : CacheFile} (same : SameRecords c.db db')
    (loads : Loads { c with db := db' } a) : Loads c a := by
  refine (loads_of_view (P := False) (fun domain is4 viewed => ?_) loads).resolve_right id
  rw [viewDomain, same.get_domain] at viewed
  exact .inl viewed

theorem view_of_stored {domain' : Bytes} {is4 : Bool} (stored : Stored address domain db db')
    (viewed : viewDomain db' domain' is4 = some a) :
    viewDomain db domain' is4 = some a ∨ a = address.withoutZone := by
  rw [viewDomain_eq_some] at viewed ⊢
  obtain ⟨b, there, rfl, valid⟩ := viewed
  by_cases family : is4 = address.is4
  · subst family
    rw [stored.get_domain] at there
    split_ifs at there
    · cases there
      exact .inr address.fromIP_asSlice
    · exact .inl ⟨b, there, rfl, valid⟩
  · obtain rfl : is4 = !address.is4 := by
      rwa [Bool.eq_not]
    rw [stored.get_other] at there
    exact .inl ⟨b, there, rfl, valid⟩

instance : LawfulStorage CacheFile where
  loads_metadata {refused c a} loads := by
    obtain ⟨db', eq, same, _⟩ := FakeIPMetadata_frame refused c
    exact loads_of_sameRecords same (eq ▸ loads)
  loads_saveMetadataAsync loads := loads
  loads_store {refused address domain a c} loads := by
    change Loads (FakeIPStore refused address domain c).1 a at loads
    rcases FakeIPStore_cases refused address domain c with ⟨_, db', eq, stored⟩ | ⟨_, eq⟩
    · rw [eq] at loads
      exact (loads_of_view (fun _ _ => view_of_stored stored) loads).imp_right .inr
    · rw [eq] at loads
      exact .inl loads
  loads_reset {refused a c} loads := by
    change Loads (FakeIPReset refused c).1 a at loads
    rcases FakeIPReset_cases refused c with ⟨_, db', eq, gone⟩ | ⟨_, eq⟩
    · rw [eq] at loads
      refine (loads_of_view (P := False) (fun domain is4 viewed => ?_) loads).resolve_right id
      obtain ⟨b, there, _⟩ := viewDomain_eq_some.mp viewed
      rw [gone _ (by cases is4 <;> simp [buckets, domainBucket])] at there
      cases there
    · rw [eq] at loads
      exact loads
  loads_timer {refused a c} loads := by
    change Loads (timer refused c) a at loads
    unfold timer at loads
    split at loads
    · exact loads
    · obtain ⟨db', eq, same, _⟩ := FakeIPSaveMetadata_frame refused _ c
      rw [eq] at loads
      exact loads_of_sameRecords same loads

end CacheFile

end FakeIP

end SingBox
