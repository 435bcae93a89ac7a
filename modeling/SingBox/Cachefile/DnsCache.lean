import SingBox.Lib.Bolt
import SingBox.Lib.System

/-!
# The DNS cache of the cache file

A response is first put into a map of pending entries, from which a goroutine for its key,
the *flusher*, writes it to the database. `LoadDNSCache` looks into the map and then
into the database. A flusher reads the pending entry, saves it, and deletes it if its sequence
number has not moved in between; the three are separate steps, and anything may happen
between them.

* `SaveDNSCache_ok` — what a save that succeeds changes in the database;
* `step_keeps` — a step keeps the invariant of a key, `Settled`;
* `read_your_writes` — along every run without `ClearDNSCache` in which every save of the key
  succeeds, what was queued last is loaded, and there is at most one flusher;
* `load_integrity` — a load gets only what was queued for its key.
-/

namespace SingBox.Cachefile

open Lib Lib.Bolt Function List Option

/-! ## Keys and values -/

/-- `time.Time`, in nanoseconds since the epoch. -/
abbrev Time := Int

/-- `Time.Unix`, as it is stored: the whole seconds, in 64 bits. -/
def Time.unix (t : Time) : BitVec 64 := BitVec.ofInt 64 (t / 1000000000)

/-- `time.Unix(seconds, 0)`. -/
def Time.ofUnix (seconds : BitVec 64) : Time := seconds.toInt * 1000000000

/-- What is left of a time in the database. -/
def Time.stored (t : Time) : Time := Time.ofUnix (Time.unix t)

structure SaveCacheKey where
  transportName : String
  questionName : String
  qType : UInt16
  deriving DecidableEq, Repr

/-- A message and the time it expires at. -/
abbrev Value := Bytes × Time

def bucketDNSCache : Bytes := goBytes "dns_cache"

variable (cacheID : Option Bytes)

/-- Where `c.bucket(tx, bucketDNSCache)` is. -/
def dnsCachePath : List Bytes := cacheID.toList ++ [bucketDNSCache]

namespace SaveCacheKey

variable (key : SaveCacheKey)

/-- The bucket of the transport. -/
def path (cacheID : Option Bytes) : List Bytes :=
  dnsCachePath cacheID ++ [goBytes key.transportName]

/-- The key in that bucket: the type, and then the name. -/
def dbKey : Bytes := putUint 2 key.qType.toNat ++ goBytes key.questionName

theorem eq_of_place {key key' : SaveCacheKey} {cacheID : Option Bytes}
    (samePath : key.path cacheID = key'.path cacheID) (sameKey : key.dbKey = key'.dbKey) :
    key = key' := by
  have transport : key.transportName = key'.transportName := by
    apply goBytes_injective
    have := (append_inj samePath rfl).2
    simpa using this
  obtain ⟨type, name⟩ := append_inj sameKey (by simp)
  have fits : ∀ t : UInt16, t.toNat < 256 ^ 2 := fun t => t.toNat_lt
  have type : key.qType = key'.qType :=
    UInt16.toNat_inj.mp (putUint_injective (fits _) (fits _) type)
  have name : key.questionName = key'.questionName := goBytes_injective name
  cases key
  cases key'
  simp_all

end SaveCacheKey

/-- The value written for a message: the time, and then the message. -/
def dbValue (value : Value) : Bytes := putUint 8 (Time.unix value.2).toNat ++ value.1

/-! ## What is queued -/

structure SaveDNSCacheEntry where
  rawMessage : Bytes := []
  expireAt : Time := 0
  sequence : UInt64 := 0
  saving : Bool := false
  deriving DecidableEq, Repr

def SaveDNSCacheEntry.value (entry : SaveDNSCacheEntry) : Value :=
  (entry.rawMessage, entry.expireAt)

/-- Where a flusher is in the loop of `flushPendingDNSCacheWith`. -/
inductive Phase where
  | read
  | save (entry : SaveDNSCacheEntry)
  | compare (entry : SaveDNSCacheEntry)
  deriving DecidableEq, Repr

/-- A goroutine that runs `flushPendingDNSCache`. -/
structure Flusher where
  key : SaveCacheKey
  phase : Phase
  deriving DecidableEq, Repr

inductive Label where
  /-- `SaveDNSCacheAsync`; `id` is for the flusher, if one is started. -/
  | queue (id : Nat) (key : SaveCacheKey) (value : Value)
  /-- The next step of a flusher; `refused` is what the database answers a save with. -/
  | flush (id : Nat) (refused : Option Error)
  /-- The two steps of `ClearDNSCache`. -/
  | clearPending
  | deleteBucket (refused : Option Error)

def queued (key : SaveCacheKey) (labels : List Label) : List Value :=
  labels.filterMap fun
    | .queue _ key' value => if key' = key then some value else none
    | _ => none

def Label.isClear : Label → Bool
  | .clearPending => true
  | .deleteBucket _ => true
  | _ => false

theorem queued_append (key : SaveCacheKey) (first second : List Label) :
    queued key (first ++ second) = queued key first ++ queued key second := by
  simp [queued]

/-- An entry read earlier: the pending one, or one with a smaller number. -/
def SaveDNSCacheEntry.Before (old entry : SaveDNSCacheEntry) : Prop :=
  old.sequence.toNat ≤ entry.sequence.toNat ∧ (old.sequence = entry.sequence → old = entry)

/-- What the time before can have left for a key: an entry that still waits, with the number
of values queued for it, and a value in the database. -/
structure Past where
  count : Nat
  Entry : Value → Prop
  Stored : Option Value → Prop
  stored_of_entry : ∀ value, Entry value → Stored (some (value.1, Time.stored value.2))

/-- What the database has when nothing is pending: the last value queued, or what was
there before. -/
def Past.Expected (past : Past) (values : List Value) (loaded : Option Value) : Prop :=
  match values.getLast? with
  | none => past.Stored loaded
  | some value => loaded = some (value.1, Time.stored value.2)

/-- What is pending: the last value queued, or what was waiting before. -/
def Past.Waits (past : Past) (values : List Value) (value : Value) : Prop :=
  match values.getLast? with
  | none => past.Entry value
  | some last => value = last

variable {value : Value} {past : Past} {values : List Value}

/-- Once saved, what is pending is what the database is expected to have. -/
theorem Past.Waits.expected (waits : past.Waits values value) :
    past.Expected values (some (value.1, Time.stored value.2)) := by
  unfold Past.Waits at waits
  unfold Past.Expected
  split at waits
  · exact past.stored_of_entry value waits
  · rw [waits]

/-- How far a flusher can be, beside the pending entry and what the database has. -/
def Phase.Fits (past : Past) (values : List Value) (entry : SaveDNSCacheEntry)
    (loaded : Option Value) : Phase → Prop
  | .read => True
  | .save old => old.Before entry
  | .compare old =>
      old.Before entry ∧ (old.sequence = entry.sequence → past.Expected values loaded)

variable {entry : SaveDNSCacheEntry} {loaded : Option Value}

/-- What a flusher has read stays behind when the number grows. -/
theorem Phase.Fits.newer {values' : List Value} {entry' : SaveDNSCacheEntry} {phase : Phase}
    (fits : phase.Fits past values entry loaded)
    (newer : entry.sequence.toNat < entry'.sequence.toNat) :
    phase.Fits past values' entry' loaded := by
  have differs : ∀ old : SaveDNSCacheEntry, old.Before entry → old.sequence ≠ entry'.sequence :=
    fun old before same =>
      Nat.ne_of_lt (Nat.lt_of_le_of_lt before.1 newer) (congrArg UInt64.toNat same)
  have behind : ∀ old : SaveDNSCacheEntry, old.Before entry → old.Before entry' :=
    fun old before => ⟨Nat.le_trans before.1 (Nat.le_of_lt newer),
      fun same => absurd same (differs old before)⟩
  cases phase with
  | read => trivial
  | save old => exact behind old fits
  | compare old => exact ⟨behind old fits.1, fun same => absurd same (differs old fits.1)⟩

/-- A loaded value is one that was queued, but for parts of a second. -/
def Value.LoadedAs (value loaded : Value) : Prop :=
  loaded.1 = value.1 ∧ (loaded.2 = value.2 ∨ loaded.2 = Time.stored value.2)

theorem Past.expected_last (last : values.getLast? = some value) :
    past.Expected values loaded ↔ loaded = some (value.1, Time.stored value.2) := by
  simp [Past.Expected, last]

/-- At first nothing waits, and the database has what it has. -/
def Past.start (loaded : Option Value) : Past where
  count := 0
  Entry _ := False
  Stored now := now = loaded
  stored_of_entry _ none := none.elim

/-! ## The database -/

section File

variable [Buckets]

def createBucket (name : Bytes) (db : DB) : Except Error DB :=
  match cacheID with
  | none => createBucketIfNotExists [] name db
  | some id => do
      let db ← createBucketIfNotExists [] id db
      createBucketIfNotExists [id] name db

/-- The transaction of `SaveDNSCache`. -/
def saveTx (key : SaveCacheKey) (value : Value) (db : DB) :
    Except Error DB := do
  let db ← createBucket cacheID bucketDNSCache db
  let db ← createBucketIfNotExists (dnsCachePath cacheID) (goBytes key.transportName) db
  put (key.path cacheID) key.dbKey (dbValue value) db

def SaveDNSCache (refused : Option Error) (key : SaveCacheKey) (value : Value) (db : DB) :
    DB × Option Error :=
  batch refused (saveTx cacheID key value) db

/-- The part of `LoadDNSCache` that looks into the database. -/
def loadDB (db : DB) (key : SaveCacheKey) : Option Value :=
  match db.get (key.path cacheID) key.dbKey with
  | none => none
  | some content =>
      if content.length < 8 then none
      else some (content.drop 8, Time.ofUnix (BitVec.ofNat 64 (uint (content.take 8))))

/-- The transaction of `ClearDNSCache`. -/
def clearTx (db : DB) : Except Error DB :=
  match cacheID with
  | none =>
      if !db.hasBucket [bucketDNSCache] then .ok db
      else deleteBucket [] bucketDNSCache db
  | some id =>
      if !db.hasBucket [id] || !db.hasBucket [id, bucketDNSCache] then .ok db
      else deleteBucket [id] bucketDNSCache db

section Database

variable {cacheID : Option Bytes} {refused : Option Error} {key : SaveCacheKey} {value : Value}
  {db db' : DB}

/-- What was written is read back, but for parts of a second. -/
theorem loadDB_of_get (h : db.get (key.path cacheID) key.dbKey = some (dbValue value)) :
    loadDB cacheID db key = some (value.1, Time.stored value.2) := by
  have fits : (Time.unix value.2).toNat < 256 ^ 8 := (Time.unix value.2).isLt
  unfold loadDB
  rw [h]
  simp [dbValue, take_left', drop_left', uint_putUint fits, Time.stored]

theorem createBucket_get {name : Bytes} (h : createBucket cacheID name db = .ok db')
    (path : List Bytes) (key : Bytes) : db'.get path key = db.get path key := by
  cases cacheID with
  | none =>
    obtain ⟨_, _, rfl⟩ := createBucketIfNotExists_eq_ok.mp h
    simp
  | some id =>
    obtain ⟨middle, first, second⟩ := bind_eq_ok.mp h
    obtain ⟨_, _, rfl⟩ := createBucketIfNotExists_eq_ok.mp first
    obtain ⟨_, _, rfl⟩ := createBucketIfNotExists_eq_ok.mp second
    simp

theorem SaveDNSCache_ok (h : SaveDNSCache cacheID refused key value db = (db', none)) :
    loadDB cacheID db' key = some (value.1, Time.stored value.2) ∧
    ∀ other, other ≠ key → loadDB cacheID db' other = loadDB cacheID db other := by
  obtain ⟨_, htx⟩ := batch_eq_ok.mp h
  obtain ⟨db₁, outer, htx⟩ := bind_eq_ok.mp htx
  obtain ⟨db₂, inner, htx⟩ := bind_eq_ok.mp htx
  obtain ⟨_, there, rfl⟩ := createBucketIfNotExists_eq_ok.mp inner
  obtain ⟨_, _, rfl⟩ := put_eq_ok.mp htx
  have created : (db₁.ensure (dnsCachePath cacheID) (goBytes key.transportName) there).hasBucket
      (key.path cacheID) = true := by
    simp [SaveCacheKey.path]
  refine ⟨loadDB_of_get ?_, ?_⟩
  · rw [DB.get_set _ _ _ _ _ _ created]
    simp
  · intro other differs
    unfold loadDB
    rw [DB.get_set _ _ _ _ _ _ created, if_neg, DB.get_ensure, createBucket_get outer]
    rintro ⟨samePath, sameKey⟩
    exact differs (SaveCacheKey.eq_of_place samePath sameKey)

variable (cacheID : Option Bytes)

/-- A save changes what is loaded of its own key only, and that if it succeeds. -/
theorem loadDB_save (refused : Option Error) (key : SaveCacheKey)
    (value : Value) (db : DB) (other : SaveCacheKey) :
    loadDB cacheID (SaveDNSCache cacheID refused key value db).1 other = loadDB cacheID db other ∨
      key = other ∧ loadDB cacheID (SaveDNSCache cacheID refused key value db).1 other =
        some (value.1, Time.stored value.2) := by
  cases h : (SaveDNSCache cacheID refused key value db).2 with
  | some err =>
    left
    unfold SaveDNSCache at h ⊢
    rw [batch_error (by rw [h]; nofun)]
  | none =>
    obtain ⟨own, others⟩ := SaveDNSCache_ok (Prod.ext rfl h)
    by_cases same : other = key
    · exact .inr ⟨same.symm, same ▸ own⟩
    · exact .inl (others other same)

/-- What the transaction of `ClearDNSCache` leaves. -/
theorem clear_db (db : DB) :
    (batch none (clearTx cacheID) db).1 =
      if db.hasBucket (dnsCachePath cacheID) then db.remove (dnsCachePath cacheID) else db := by
  cases cacheID with
  | none =>
    cases there : db.hasBucket [bucketDNSCache] <;>
    simp [batch, clearTx, deleteBucket, dnsCachePath, there]
  | some id =>
    cases there : db.hasBucket [id, bucketDNSCache] with
    | false => simp [batch, clearTx, dnsCachePath, there]
    | true =>
      have outer : db.hasBucket [id] = true :=
        (Buckets.hasBucket_parent db [id] bucketDNSCache there).resolve_left (by simp)
      simp [batch, clearTx, deleteBucket, dnsCachePath, there, outer]

theorem loadDB_clear (db : DB) (key : SaveCacheKey) :
    loadDB cacheID (batch none (clearTx cacheID) db).1 key = none := by
  have gone : (batch none (clearTx cacheID) db).1.get (key.path cacheID) key.dbKey = none := by
    rw [clear_db]
    split
    · rw [DB.get_remove, if_pos]
      exact ⟨[goBytes key.transportName], rfl⟩
    · rename_i absent
      exact DB.get_nested db _ _ (by simp [dnsCachePath]) (Bool.eq_false_iff.mpr absent)
  unfold loadDB
  rw [gone]

end Database

/-! ## The map of pending entries -/

/-- The part of `CacheFile` that is about the DNS cache. -/
structure CacheFile where
  cacheID : Option Bytes
  db : DB
  saveDNSCache : SaveCacheKey → Option SaveDNSCacheEntry

namespace CacheFile

def LoadDNSCache (c : CacheFile) (key : SaveCacheKey) : Option Value :=
  match c.saveDNSCache key with
  | some entry => some entry.value
  | none => loadDB c.cacheID c.db key

/-- The new state, and whether a flusher is to be started. -/
def queueDNSCacheSave (c : CacheFile) (key : SaveCacheKey) (value : Value) : CacheFile × Bool :=
  let entry := (c.saveDNSCache key).getD {}
  let queued : SaveDNSCacheEntry :=
    { rawMessage := value.1, expireAt := value.2, sequence := entry.sequence + 1, saving := true }
  ({ c with saveDNSCache := update c.saveDNSCache key (some queued) }, !entry.saving)

end CacheFile

/-! ## Steps -/

/-- The cache file, the flushers that run, and the warnings logged. -/
structure Sys where
  file : CacheFile
  flushers : Nat → Option Flusher
  warnings : List (SaveCacheKey × Error)

namespace Sys

def start (cacheID : Option Bytes) (db : DB) : Sys where
  file := { cacheID, db, saveDNSCache := fun _ => none }
  flushers _ := none
  warnings := []

variable (s : Sys)

def withFlusher (id : Nat) (flusher : Option Flusher) : Sys :=
  { s with flushers := update s.flushers id flusher }

/-- `delete(c.saveDNSCache, saveKey)`. -/
def forget (key : SaveCacheKey) : Sys :=
  { s with
    file := { s.file with saveDNSCache := update s.file.saveDNSCache key none } }

def SaveDNSCacheAsync (id : Nat) (key : SaveCacheKey) (value : Value) : Option Sys :=
  let result := s.file.queueDNSCacheSave key value
  let queued := { s with file := result.1 }
  if !result.2 then some queued
  else if (s.flushers id).isSome then none
  else some (queued.withFlusher id (some ⟨key, .read⟩))

/-- The loop body of `flushPendingDNSCacheWith`, one step at a time. -/
def flushPendingDNSCacheWith (id : Nat) (refused : Option Error) : Flusher → Sys
  | ⟨key, .read⟩ =>
      match s.file.saveDNSCache key with
      | none => s.withFlusher id none
      | some entry => s.withFlusher id (some ⟨key, .save entry⟩)
  | ⟨key, .save entry⟩ =>
      match SaveDNSCache s.file.cacheID refused key entry.value s.file.db with
      | (db, err) =>
          { s with
            file := { s.file with db }
            warnings := s.warnings ++ err.toList.map fun err => (key, err) }.withFlusher id
              (some ⟨key, .compare entry⟩)
  | ⟨key, .compare entry⟩ =>
      match s.file.saveDNSCache key with
      | none => s.withFlusher id none
      | some currentEntry =>
          if currentEntry.sequence ≠ entry.sequence then s.withFlusher id (some ⟨key, .read⟩)
          else
            (s.forget key).withFlusher id none

def step : Label → Option Sys
  | .queue id key value => s.SaveDNSCacheAsync id key value
  | .flush id refused => (s.flushers id).map (s.flushPendingDNSCacheWith id refused)
  | .clearPending => some { s with file := { s.file with saveDNSCache := fun _ => none } }
  | .deleteBucket refused =>
      some { s with
        file := { s.file with db := (batch refused (clearTx s.file.cacheID) s.file.db).1 } }

def failures (key : SaveCacheKey) : Nat := s.warnings.countP fun w => w.1 = key

def Flushing (key : SaveCacheKey) : Prop :=
  ∃ id flusher, s.flushers id = some flusher ∧ flusher.key = key

end Sys

/-! ## The invariant of a key -/

variable {refused : Option Error} {key : SaveCacheKey} {s s' : Sys} {id : Nat}

/-- The state of a key after some values were queued for it. -/
inductive Settled (key : SaveCacheKey) (past : Past) (values : List Value) (s : Sys) : Prop where
  | idle (absent : s.file.saveDNSCache key = none) (quiet : ¬ s.Flushing key)
      (loaded : past.Expected values (loadDB s.file.cacheID s.file.db key))
  | busy (entry : SaveDNSCacheEntry) (id : Nat) (phase : Phase)
      (pending : s.file.saveDNSCache key = some entry) (saving : entry.saving = true)
      (waits : past.Waits values entry.value)
      (number : entry.sequence.toNat ≤ past.count + values.length)
      (runs : s.flushers id = some ⟨key, phase⟩)
      (only : ∀ id' flusher, s.flushers id' = some flusher → flusher.key = key → id' = id)
      (fits : phase.Fits past values entry (loadDB s.file.cacheID s.file.db key))

/-- Flushers of other keys come and go. -/
theorem flushers_withFlusher {flusher : Option Flusher}
    (before : ∀ f, s.flushers id = some f → f.key ≠ key)
    (after : ∀ f, flusher = some f → f.key ≠ key) (id' : Nat) (f : Flusher) (same : f.key = key) :
    (s.withFlusher id flusher).flushers id' = some f ↔ s.flushers id' = some f := by
  unfold Sys.withFlusher
  by_cases h : id' = id
  · subst h
    simp only [update_self]
    exact ⟨fun now => absurd same (after f now), fun now => absurd same (before f now)⟩
  · simp [h]

/-- Queueing for a key that has an entry starts no flusher. -/
theorem SaveDNSCacheAsync_cases (h : s.SaveDNSCacheAsync id key value = some s') :
    (((s.file.saveDNSCache key).getD {}).saving = true ∧
      s' = { s with file := (s.file.queueDNSCacheSave key value).1 }) ∨
    (((s.file.saveDNSCache key).getD {}).saving = false ∧ s.flushers id = none ∧
      s' = { s with file := (s.file.queueDNSCacheSave key value).1 }.withFlusher id
        (some ⟨key, .read⟩)) := by
  unfold Sys.SaveDNSCacheAsync at h
  simp only [CacheFile.queueDNSCacheSave, Bool.not_not] at h ⊢
  split at h
  · rename_i saving
    cases h
    exact .inl ⟨saving, rfl⟩
  · rename_i notSaving
    split at h <;> cases h
    rename_i free
    exact .inr ⟨by simpa using notSaving, by simpa using free, rfl⟩

/-- A step of a flusher touches its own key only. -/
theorem flush_frame (s : Sys) (id : Nat) (refused : Option Error) (flusher : Flusher)
    (differs : flusher.key ≠ key) :
    (s.flushPendingDNSCacheWith id refused flusher).file.saveDNSCache key =
      s.file.saveDNSCache key ∧
    loadDB (s.flushPendingDNSCacheWith id refused flusher).file.cacheID
        (s.flushPendingDNSCacheWith id refused flusher).file.db key =
      loadDB s.file.cacheID s.file.db key ∧
    ∃ next : Option Flusher,
      (s.flushPendingDNSCacheWith id refused flusher).flushers =
        (s.withFlusher id next).flushers ∧ ∀ f, next = some f → f.key = flusher.key := by
  obtain ⟨key', phase⟩ := flusher
  cases phase with
  | read =>
    cases h : s.file.saveDNSCache key' <;> simp only [Sys.flushPendingDNSCacheWith, h]
    · exact ⟨rfl, rfl, none, rfl, nofun⟩
    · exact ⟨rfl, rfl, _, rfl, fun f h => by cases h; rfl⟩
  | save entry =>
    refine ⟨rfl, ?_, some ⟨key', .compare entry⟩, rfl, fun f h => by cases h; rfl⟩
    exact (loadDB_save _ _ key' _ _ key).resolve_right fun own => differs own.1
  | compare entry =>
    cases h : s.file.saveDNSCache key' <;> simp only [Sys.flushPendingDNSCacheWith, h]
    · exact ⟨rfl, rfl, none, rfl, nofun⟩
    · split_ifs
      · exact ⟨rfl, rfl, _, rfl, fun f h => by cases h; rfl⟩
      · exact ⟨update_of_ne differs.symm _ _, rfl, none, rfl, nofun⟩

theorem failures_le {l : Label} (h : s.step l = some s') (key : SaveCacheKey) :
    s.failures key ≤ s'.failures key := by
  apply Sublist.countP_le
  cases l with
  | queue id key value =>
    rcases SaveDNSCacheAsync_cases h with ⟨_, rfl⟩ | ⟨_, _, rfl⟩ <;> exact .refl _
  | flush id refused =>
    obtain ⟨⟨key, phase⟩, _, rfl⟩ := map_eq_some_iff.mp h
    cases phase with
    | save entry => exact sublist_append_left ..
    | read | compare entry =>
      simp only [Sys.flushPendingDNSCacheWith]
      repeat' split
      all_goals exact .refl _
  | clearPending | deleteBucket refused => cases h; exact .refl _

theorem failures_le_of_steps {labels : List Label} (run : steps Sys.step s labels = some s')
    (key : SaveCacheKey) : s.failures key ≤ s'.failures key :=
  steps_keeps (fun s' => s.failures key ≤ s'.failures key)
    (fun _ _ _ le now => Nat.le_trans le (failures_le now key)) (Nat.le_refl _) run

section Keeps

variable (inv : Settled key past values s)
include inv

/-- What does not touch the key keeps its state. -/
theorem Settled.frame (pending : s'.file.saveDNSCache key = s.file.saveDNSCache key)
    (loaded : loadDB s'.file.cacheID s'.file.db key = loadDB s.file.cacheID s.file.db key)
    (flushers : ∀ id flusher, flusher.key = key →
      (s'.flushers id = some flusher ↔ s.flushers id = some flusher)) :
    Settled key past values s' := by
  cases inv with
  | idle absent quiet hloaded =>
    refine .idle (pending.trans absent) ?_ (loaded ▸ hloaded)
    rintro ⟨id, flusher, runs, same⟩
    exact quiet ⟨id, flusher, (flushers id flusher same).mp runs, same⟩
  | busy entry id phase hpending saving waits number runs only fits =>
    refine .busy entry id phase (pending.trans hpending) saving waits number
      ((flushers id _ rfl).mpr runs) ?_ (loaded ▸ fits)
    intro id' flusher runs' same
    exact only id' flusher ((flushers id' flusher same).mp runs') same

theorem Settled.queue_other {key' : SaveCacheKey} (differs : key' ≠ key)
    (h : s.SaveDNSCacheAsync id key' value = some s') : Settled key past values s' := by
  have pending : (s.file.queueDNSCacheSave key' value).1.saveDNSCache key =
      s.file.saveDNSCache key := by
    simp [CacheFile.queueDNSCacheSave, differs.symm]
  rcases SaveDNSCacheAsync_cases h with ⟨_, rfl⟩ | ⟨_, free, rfl⟩
  · exact inv.frame pending rfl fun _ _ _ => Iff.rfl
  · refine inv.frame pending rfl (flushers_withFlusher ?_ ?_)
    · intro f runs
      cases free.symm.trans runs
    · rintro f ⟨⟩
      exact differs

theorem Settled.queue_self (few : past.count + (values ++ [value]).length < 2 ^ 64)
    (h : s.SaveDNSCacheAsync id key value = some s') :
    Settled key past (values ++ [value]) s' := by
  rw [length_append, length_singleton] at few
  have waitsNow : past.Waits (values ++ [value]) value := by simp [Past.Waits]
  rcases inv with ⟨absent, quiet, loaded⟩ |
    ⟨entry, id₀, phase, pending, saving, waits, number, runs, only, fits⟩
  · -- the entry is new, and so is its flusher
    rcases SaveDNSCacheAsync_cases h with ⟨saving, _⟩ | ⟨_, free, rfl⟩
    · simp [absent] at saving
    · refine .busy ⟨value.1, value.2, 1, true⟩ id .read ?_ rfl waitsNow ?_ ?_ ?_ trivial
      · simp [CacheFile.queueDNSCacheSave, Sys.withFlusher, absent]
      · show 1 ≤ _
        rw [length_append, length_singleton]
        omega
      · simp [Sys.withFlusher]
      · intro id' flusher runs same
        by_contra differs
        refine quiet ⟨id', flusher, ?_, same⟩
        simpa [Sys.withFlusher, differs] using runs
  · -- the flusher of the entry goes on, and the number moves away from what it has read
    rcases SaveDNSCacheAsync_cases h with ⟨_, rfl⟩ | ⟨notSaving, _⟩
    · have next : (entry.sequence + 1).toNat = entry.sequence.toNat + 1 := by
        rw [UInt64.toNat_add, Nat.mod_eq_of_lt]
        · rfl
        · have : (1 : UInt64).toNat = 1 := rfl
          omega
      refine .busy ⟨value.1, value.2, entry.sequence + 1, true⟩ id₀ phase ?_ rfl waitsNow ?_
        runs only ?_
      · simp [CacheFile.queueDNSCacheSave, pending]
      · show (entry.sequence + 1).toNat ≤ _
        rw [length_append, length_singleton]
        omega
      · refine fits.newer ?_
        show entry.sequence.toNat < (entry.sequence + 1).toNat
        omega
    · simp [pending, saving] at notSaving

theorem Settled.flush_other {flusher : Flusher} (runs : s.flushers id = some flusher)
    (differs : flusher.key ≠ key) :
    Settled key past values (s.flushPendingDNSCacheWith id refused flusher) := by
  obtain ⟨pending, loaded, next, flushers, sameKey⟩ := flush_frame s id refused flusher differs
  refine inv.frame pending loaded ?_
  rw [flushers]
  apply flushers_withFlusher
  · intro f runs'
    cases runs.symm.trans runs'
    exact differs
  · intro f isNext
    rw [sameKey f isNext]
    exact differs

/-- A step of the flusher of the key. If it saves, the save succeeds. -/
theorem Settled.flush_self {phase : Phase} (runs : s.flushers id = some ⟨key, phase⟩)
    (saved : (s.flushPendingDNSCacheWith id refused ⟨key, phase⟩).failures key ≤ s.failures key) :
    Settled key past values (s.flushPendingDNSCacheWith id refused ⟨key, phase⟩) := by
  rcases inv with ⟨_, quiet, _⟩ |
    ⟨entry, id₀, phase₀, pending, saving, waits, number, runs₀, only, fits⟩
  · exact absurd ⟨id, _, runs, rfl⟩ quiet
  obtain rfl : id = id₀ := only id _ runs rfl
  cases runs.symm.trans runs₀
  have onlyNext : ∀ (next : Flusher) (id' : Nat) (flusher : Flusher),
      (s.withFlusher id (some next)).flushers id' = some flusher → flusher.key = key →
        id' = id := by
    intro next id' flusher runs' same
    rcases of_update runs' with ⟨here, -⟩ | ⟨-, old⟩
    · exact here
    · exact only id' flusher old same
  cases phase with
  | read =>
    simp only [Sys.flushPendingDNSCacheWith, pending]
    refine .busy entry id (.save entry) pending saving waits number ?_ (onlyNext _) ?_
    · simp [Sys.withFlusher]
    · exact ⟨Nat.le_refl _, fun _ => rfl⟩
  | save old =>
    have before : old.Before entry := fits
    cases hsave : SaveDNSCache s.file.cacheID refused key old.value s.file.db with
    | mk db err =>
      simp only [Sys.flushPendingDNSCacheWith, hsave] at saved ⊢
      cases err with
      | some err => simp [Sys.failures, Sys.withFlusher] at saved
      | none =>
        refine .busy entry id (.compare old) pending saving waits number ?_ (onlyNext _) ?_
        · simp [Sys.withFlusher]
        · refine ⟨before, fun same => ?_⟩
          have loaded := (SaveDNSCache_ok hsave).1
          rw [before.2 same] at loaded
          show past.Expected values (loadDB s.file.cacheID db key)
          rw [loaded]
          exact waits.expected
  | compare old =>
    obtain ⟨before, loaded⟩ := fits
    simp only [Sys.flushPendingDNSCacheWith, pending]
    split_ifs with moved
    · refine .busy entry id .read pending saving waits number ?_ (onlyNext _) trivial
      simp [Sys.withFlusher]
    · -- nothing was queued since: what was saved is the last value
      refine .idle (update_self ..) ?_ (loaded (not_not.mp moved).symm)
      rintro ⟨id', flusher, runs', sameKey⟩
      rcases of_update runs' with ⟨-, ⟨⟩⟩ | ⟨differs, old⟩
      exact differs (only id' flusher old sameKey)

/-- A step keeps the invariant, as long as nothing is cleared, no save of the key fails
and the sequence number does not wrap. -/
theorem step_keeps {l : Label} (h : s.step l = some s') (noClear : l.isClear = false)
    (saved : s'.failures key ≤ s.failures key)
    (few : past.count + (values ++ queued key [l]).length < 2 ^ 64) :
    Settled key past (values ++ queued key [l]) s' := by
  cases l with
  | queue id key' value =>
    by_cases same : key' = key
    · subst same
      have now : queued key' [.queue id key' value] = [value] := by simp [queued]
      rw [now] at few ⊢
      exact inv.queue_self few h
    · have now : queued key [.queue id key' value] = [] := by simp [queued, same]
      rw [now, append_nil]
      exact inv.queue_other same h
  | flush id refused =>
    have now : queued key [.flush id refused] = [] := rfl
    rw [now, append_nil]
    obtain ⟨⟨key', phase⟩, runs, rfl⟩ := map_eq_some_iff.mp h
    by_cases same : key' = key
    · subst same
      exact inv.flush_self runs saved
    · exact inv.flush_other runs same
  | clearPending | deleteBucket refused => cases noClear

theorem Settled.not_flushing (absent : s.file.saveDNSCache key = none) : ¬ s.Flushing key := by
  cases inv with
  | idle _ quiet _ => exact quiet
  | busy entry _ _ pending => cases absent.symm.trans pending

/-- When no flusher runs, nothing is pending and the database has the last value. -/
theorem Settled.of_not_flushing (quiet : ¬ s.Flushing key) :
    s.file.saveDNSCache key = none ∧
    past.Expected values (loadDB s.file.cacheID s.file.db key) := by
  cases inv with
  | idle absent _ loaded => exact ⟨absent, loaded⟩
  | busy _ id phase _ _ _ _ runs => exact absurd ⟨id, _, runs, rfl⟩ quiet

end Keeps

/-! ## What can be loaded at all -/

/-- Every value that a load of the key can meet, now or once it is saved, is in `P`; what the
database had at first was in `First`. -/
structure Sound (key : SaveCacheKey) (P : Value → Prop) (First : Option Value → Prop) (s : Sys) :
    Prop where
  pending : ∀ entry, s.file.saveDNSCache key = some entry → P entry.value
  saves : ∀ id entry, s.flushers id = some ⟨key, .save entry⟩ → P entry.value
  stored : First (loadDB s.file.cacheID s.file.db key) ∨
    ∃ value, P value ∧ loadDB s.file.cacheID s.file.db key = some (value.1, Time.stored value.2)

section Sound

variable {P : Value → Prop} {First : Option Value → Prop}

theorem Sound.mono {P' : Value → Prop} (imp : ∀ value, P value → P' value)
    (sound : Sound key P First s) : Sound key P' First s where
  pending entry h := imp _ (sound.pending entry h)
  saves id entry h := imp _ (sound.saves id entry h)
  stored := sound.stored.imp_right fun ⟨value, known, h⟩ => ⟨value, imp _ known, h⟩

/-- When the database was empty at first, what it has comes from `P`. -/
theorem Sound.load_stored (sound : Sound key P (· = none) s) {loaded : Value}
    (h : loadDB s.file.cacheID s.file.db key = some loaded) :
    ∃ value, P value ∧ value.LoadedAs loaded := by
  rcases sound.stored with none | ⟨value, known, stored⟩
  · cases none.symm.trans h
  · cases stored.symm.trans h
    exact ⟨value, known, rfl, .inr rfl⟩

theorem Sound.load (sound : Sound key P (· = none) s) {loaded : Value}
    (h : s.file.LoadDNSCache key = some loaded) : ∃ value, P value ∧ value.LoadedAs loaded := by
  unfold CacheFile.LoadDNSCache at h
  split at h
  · rename_i entry pending
    cases h
    exact ⟨entry.value, sound.pending entry pending, rfl, .inl rfl⟩
  · exact sound.load_stored h

variable (sound : Sound key P First s)
include sound

theorem Sound.queue {key' : SaveCacheKey} (known : key' = key → P value)
    (h : s.SaveDNSCacheAsync id key' value = some s') : Sound key P First s' := by
  have pending : ∀ entry, (s.file.queueDNSCacheSave key' value).1.saveDNSCache key = some entry →
      P entry.value := by
    intro entry now
    rcases of_update now with ⟨same, ⟨⟩⟩ | ⟨-, old⟩
    · exact known same.symm
    · exact sound.pending entry old
  rcases SaveDNSCacheAsync_cases h with ⟨_, rfl⟩ | ⟨_, _, rfl⟩
  · exact ⟨pending, sound.saves, sound.stored⟩
  · refine ⟨pending, ?_, sound.stored⟩
    intro id' entry runs
    rcases of_update runs with ⟨-, ⟨⟩⟩ | ⟨-, old⟩
    exact sound.saves id' entry old

theorem Sound.saves_withFlusher {next : Option Flusher}
    (new : ∀ entry, next = some ⟨key, .save entry⟩ → P entry.value) (id' : Nat)
    (entry : SaveDNSCacheEntry)
    (runs : (s.withFlusher id next).flushers id' = some ⟨key, .save entry⟩) : P entry.value := by
  rcases of_update runs with ⟨-, isNext⟩ | ⟨-, old⟩
  · exact new entry isNext
  · exact sound.saves id' entry old

theorem Sound.flush {flusher : Flusher} (runs : s.flushers id = some flusher) :
    Sound key P First (s.flushPendingDNSCacheWith id refused flusher) := by
  obtain ⟨key', phase⟩ := flusher
  cases phase with
  | read =>
    cases h : s.file.saveDNSCache key' <;> simp only [Sys.flushPendingDNSCacheWith, h]
    · exact ⟨sound.pending, sound.saves_withFlusher nofun, sound.stored⟩
    · refine ⟨sound.pending, sound.saves_withFlusher ?_, sound.stored⟩
      rintro _ ⟨⟩
      exact sound.pending _ h
  | save entry =>
    refine ⟨sound.pending, sound.saves_withFlusher nofun, ?_⟩
    rcases loadDB_save s.file.cacheID refused key' entry.value s.file.db key with
      same | ⟨rfl, own⟩
    · exact same.symm ▸ sound.stored
    · exact .inr ⟨entry.value, sound.saves id entry runs, own⟩
  | compare entry =>
    simp only [Sys.flushPendingDNSCacheWith]
    split
    · exact ⟨sound.pending, sound.saves_withFlusher nofun, sound.stored⟩
    split_ifs
    · exact ⟨sound.pending, sound.saves_withFlusher nofun, sound.stored⟩
    · refine ⟨fun entry' still => ?_, sound.saves_withFlusher nofun, sound.stored⟩
      rcases of_update still with ⟨-, ⟨⟩⟩ | ⟨-, old⟩
      exact sound.pending entry' old

/-- A step keeps this. A clear may have to be excluded, for what was there at first. -/
theorem step_sound {l : Label} (h : s.step l = some s') (queues : ∀ value ∈ queued key [l], P value)
    (clears : First none ∨ l.isClear = false) : Sound key P First s' := by
  cases l with
  | queue id key' value => exact sound.queue (fun same => queues value (by simp [queued, same])) h
  | flush id refused =>
    obtain ⟨flusher, runs, rfl⟩ := map_eq_some_iff.mp h
    exact sound.flush runs
  | clearPending =>
    cases h
    exact ⟨nofun, sound.saves, sound.stored⟩
  | deleteBucket refused =>
    cases h
    refine ⟨sound.pending, sound.saves, ?_⟩
    cases refused with
    | some err => exact sound.stored
    | none =>
      left
      rw [loadDB_clear]
      exact clears.resolve_right nofun

theorem sound_of_steps {labels : List Label} (run : steps Sys.step s labels = some s')
    (queues : ∀ value ∈ queued key labels, P value)
    (clears : First none ∨ ∀ l ∈ labels, l.isClear = false) : Sound key P First s' := by
  refine steps_invariant (Sound key P First)
    (fun l => (∀ value ∈ queued key [l], P value) ∧ (First none ∨ l.isClear = false))
    (fun _ _ _ sound allowed now => ?_) sound (fun l mem => ⟨?_, ?_⟩) run
  · exact step_sound sound now allowed.1 allowed.2
  · intro value now
    apply queues
    obtain ⟨before, after, rfl⟩ := append_of_mem mem
    rw [append_cons, queued_append, queued_append]
    exact mem_append_left _ (mem_append_right _ now)
  · exact clears.imp id fun noClear => noClear l mem

end Sound

/-! ## Runs -/

/-- After a run without `ClearDNSCache` in which no save of the key failed, the key is in
the state that the values queued for it give. -/
theorem settled_of_steps {labels : List Label} (inv : Settled key past [] s)
    (run : steps Sys.step s labels = some s') (noClear : ∀ l ∈ labels, l.isClear = false)
    (saved : s'.failures key ≤ s.failures key)
    (few : past.count + (queued key labels).length < 2 ^ 64) :
    Settled key past (queued key labels) s' := by
  suffices general : s'.failures key ≤ s.failures key →
      s.failures key ≤ s'.failures key ∧ Settled key past (queued key labels) s' from
    (general saved).2
  refine steps_history (fun done s₁ => s₁.failures key ≤ s.failures key →
    s.failures key ≤ s₁.failures key ∧ Settled key past (queued key done) s₁) ?_ ?_ run
  · intro done l rest s₁ s₂ split inv now saved
    have more := failures_le now key
    obtain ⟨atLeast, settled⟩ := inv (Nat.le_trans more saved)
    refine ⟨Nat.le_trans atLeast more, ?_⟩
    rw [queued_append]
    refine step_keeps settled now ?_ (Nat.le_trans saved atLeast) ?_
    · apply noClear
      rw [split]
      simp
    · rw [split, append_cons, queued_append, queued_append] at few
      refine Nat.lt_of_le_of_lt ?_ few
      simp only [length_append]
      omega
  · intro _
    exact ⟨Nat.le_refl _, inv⟩

theorem Settled.load (inv : Settled key past values s) (last : values.getLast? = some value) :
    ∃ loaded, s.file.LoadDNSCache key = some loaded ∧ value.LoadedAs loaded := by
  unfold CacheFile.LoadDNSCache
  cases inv with
  | idle absent _ loaded =>
    rw [absent]
    exact ⟨_, (Past.expected_last last).mp loaded, rfl, .inr rfl⟩
  | busy entry _ _ pending _ waits =>
    rw [pending]
    unfold Past.Waits at waits
    rw [last] at waits
    exact ⟨entry.value, rfl, by rw [waits], .inl (by rw [waits])⟩

theorem settled_start (cacheID : Option Bytes) (db : DB) (key : SaveCacheKey) :
    Settled key (.start (loadDB cacheID db key)) [] (Sys.start cacheID db) := by
  refine .idle rfl ?_ rfl
  rintro ⟨id, flusher, runs, _⟩
  cases runs

theorem Settled.load_start (inv : Settled key (.start loaded) [] s) :
    s.file.LoadDNSCache key = loaded := by
  unfold CacheFile.LoadDNSCache
  cases inv with
  | idle absent _ stored =>
    rw [absent]
    exact stored
  | busy _ _ _ _ _ waits => exact waits.elim

/-- In every state of every run without `ClearDNSCache` in which every save of the key
succeeds and fewer than 2^64 values are queued for it: what was queued last is loaded, at most
one flusher runs, and when none runs nothing is pending and the database has that value.

`LoadDNSCache` looks into the database some time after it found nothing pending. What it then
gets was the last value at some time in between. -/
theorem read_your_writes (cacheID : Option Bytes) (db : DB) (key : SaveCacheKey)
    (labels : List Label) (s : Sys)
    (run : steps Sys.step (Sys.start cacheID db) labels = some s)
    (noClear : ∀ l ∈ labels, l.isClear = false) (saved : s.failures key = 0)
    (few : (queued key labels).length < 2 ^ 64) :
    (∀ value, (queued key labels).getLast? = some value →
      ∃ loaded, s.file.LoadDNSCache key = some loaded ∧ value.LoadedAs loaded) ∧
    (∀ value more s', (queued key labels).getLast? = some value →
      s.file.saveDNSCache key = none → steps Sys.step s more = some s' →
      (∀ l ∈ more, l.isClear = false) →
      ∃ value' ∈ value :: queued key more,
        loadDB s'.file.cacheID s'.file.db key = some (value'.1, Time.stored value'.2)) ∧
    (∀ id id' flusher flusher', s.flushers id = some flusher → s.flushers id' = some flusher' →
      flusher.key = key → flusher'.key = key → id = id') ∧
    (¬ s.Flushing key → s.file.saveDNSCache key = none ∧
      ∀ value, (queued key labels).getLast? = some value →
        loadDB s.file.cacheID s.file.db key = some (value.1, Time.stored value.2)) := by
  have inv := settled_of_steps (settled_start cacheID db key) run noClear
    (by rw [saved]; exact Nat.zero_le _)
    (by simpa [Past.start] using few)
  refine ⟨fun value last => inv.load last, ?_, ?_, ?_⟩
  · intro value more s' last absent later noClear'
    have quiet := inv.not_flushing absent
    have stored := (Past.expected_last last).mp (inv.of_not_flushing quiet).2
    have sound : Sound key (· ∈ queued key more)
        (· = some (value.1, Time.stored value.2)) s := by
      refine ⟨?_, ?_, .inl stored⟩
      · intro entry pending
        cases absent.symm.trans pending
      · intro id entry runs
        exact absurd ⟨id, _, runs, rfl⟩ quiet
    rcases (sound_of_steps sound later (fun _ mem => mem) (.inr noClear')).stored with
      same | ⟨value', mem, eq⟩
    · exact ⟨value, mem_cons_self, same⟩
    · exact ⟨value', mem_cons_of_mem _ mem, eq⟩
  · intro id id' flusher flusher' runs runs' same same'
    cases inv with
    | idle _ quiet _ => exact absurd ⟨id, flusher, runs, same⟩ quiet
    | busy _ _ _ _ _ _ _ _ only => rw [only _ _ runs same, only _ _ runs' same']
  · intro quiet
    obtain ⟨absent, loaded⟩ := inv.of_not_flushing quiet
    exact ⟨absent, fun value last => (Past.expected_last last).mp loaded⟩

end File

/-- A response that is queued and saved is loaded from the database. -/
theorem read_your_writes_saved :
    let labels : List Label :=
      [.queue 0 ⟨"dns", "a.", 1⟩ ([7], 5), .flush 0 none, .flush 0 none, .flush 0 none]
    ∃ s, steps Sys.step (Sys.start none .empty) labels = some s ∧
      ∃ loaded, s.file.LoadDNSCache ⟨"dns", "a.", 1⟩ = some loaded ∧
        Value.LoadedAs ([7], 5) loaded := by
  intro labels
  have run : ∃ s, steps Sys.step (Sys.start none .empty) labels = some s ∧
      s.failures ⟨"dns", "a.", 1⟩ = 0 := ⟨_, rfl, by decide⟩
  obtain ⟨s, run, saved⟩ := run
  refine ⟨s, run, ?_⟩
  exact (read_your_writes none .empty ⟨"dns", "a.", 1⟩ labels s run (by decide) saved
    (by decide)).1 ([7], 5) (by decide)

/-- Whatever is cleared, fails or wraps: what a load of a key gets, from the map or from the
database, was queued for this key or was in the database at first. -/
theorem load_integrity [Buckets] (cacheID : Option Bytes) (db : DB) (key : SaveCacheKey)
    (labels : List Label) (s : Sys) (loaded : Value)
    (run : steps Sys.step (Sys.start cacheID db) labels = some s)
    (got : s.file.LoadDNSCache key = some loaded ∨
      loadDB s.file.cacheID s.file.db key = some loaded) :
    loadDB cacheID db key = some loaded ∨ ∃ value ∈ queued key labels, value.LoadedAs loaded := by
  have first : Sound key (· ∈ queued key labels)
      (fun now => ∀ loaded, now = some loaded → loadDB cacheID db key = some loaded)
      (Sys.start cacheID db) := ⟨nofun, nofun, .inl fun _ same => same⟩
  have sound := sound_of_steps first run (fun _ mem => mem) (.inl nofun)
  have stored (now : loadDB s.file.cacheID s.file.db key = some loaded) :
      loadDB cacheID db key = some loaded ∨
        ∃ value ∈ queued key labels, value.LoadedAs loaded := by
    refine sound.stored.imp (fun first => first _ now) fun ⟨value, mem, eq⟩ => ?_
    cases eq.symm.trans now
    exact ⟨value, mem, rfl, .inr rfl⟩
  refine got.elim (fun now => ?_) stored
  unfold CacheFile.LoadDNSCache at now
  split at now
  · rename_i entry pending
    cases now
    exact .inr ⟨entry.value, sound.pending entry pending, rfl, .inl rfl⟩
  · exact stored now

/-- A value that was saved is loaded from the database, with another key still pending. -/
theorem load_integrity_saved :
    let labels : List Label := [.queue 0 ⟨"dns", "a.", 1⟩ ([7], 0), .flush 0 none, .flush 0 none,
      .flush 0 none, .queue 1 ⟨"dns", "b.", 1⟩ ([8], 0)]
    ∃ s, steps Sys.step (Sys.start none .empty) labels = some s ∧
      s.file.saveDNSCache ⟨"dns", "a.", 1⟩ = none ∧
      s.file.LoadDNSCache ⟨"dns", "a.", 1⟩ = some ([7], 0) ∧
      ∃ value ∈ queued ⟨"dns", "a.", 1⟩ labels, value.LoadedAs ([7], 0) :=
  ⟨_, rfl, rfl, by decide, (load_integrity none .empty ⟨"dns", "a.", 1⟩ _ _ ([7], 0) rfl
    (.inl (by decide))).resolve_left (by decide)⟩

variable {key : SaveCacheKey}

/-- Queueing for a key that has an entry only moves the entry on. -/
theorem step_queue [Buckets] {s : Sys} (id : Nat) (value : Value)
    (pending : s.file.saveDNSCache key = some entry) (saving : entry.saving = true) :
    ∃ map, s.step (.queue id key value) =
        some { s with file := { s.file with saveDNSCache := map } } ∧
      map key = some ⟨value.1, value.2, entry.sequence + 1, true⟩ := by
  refine ⟨(s.file.queueDNSCacheSave key value).1.saveDNSCache, ?_, ?_⟩
  · simp [Sys.step, Sys.SaveDNSCacheAsync, CacheFile.queueDNSCacheSave, pending, saving]
  · simp [CacheFile.queueDNSCacheSave, pending]

theorem steps_queue [Buckets] {s : Sys} (id : Nat) (value : Value)
    (pending : s.file.saveDNSCache key = some entry) (saving : entry.saving = true) (n : Nat) :
    ∃ map, steps Sys.step s (replicate (n + 1) (.queue id key value)) =
        some { s with file := { s.file with saveDNSCache := map } } ∧
      map key = some ⟨value.1, value.2, entry.sequence + UInt64.ofNat (n + 1), true⟩ := by
  induction n with
  | zero =>
    obtain ⟨map, now, there⟩ := step_queue id value pending saving
    exact ⟨map, (steps_singleton ..).trans now, there⟩
  | succ n ih =>
    obtain ⟨map, run, there⟩ := ih
    obtain ⟨map', now, there'⟩ :=
      step_queue (s := { s with file := { s.file with saveDNSCache := map } }) id value there rfl
    rw [replicate_succ']
    refine ⟨map', steps_trans run ((steps_singleton ..).trans now), there'.trans ?_⟩
    rw [UInt64.ofNat_add (n + 1) 1, ← UInt64.add_assoc]
    rfl

/-- A flusher that compares after the number went round deletes what was queued unsaved. -/
theorem flush_wrapped [Buckets] {s : Sys} {id n : Nat} (value : Value)
    (pending : s.file.saveDNSCache key = some entry) (saving : entry.saving = true)
    (runs : s.flushers id = some ⟨key, .compare entry⟩) (round : UInt64.ofNat (n + 1) = 0) :
    ∃ s', steps Sys.step s (replicate (n + 1) (.queue id key value) ++ [.flush id none]) =
        some s' ∧
      s'.warnings = s.warnings ∧ s'.flushers id = none ∧
      s'.file.LoadDNSCache key = loadDB s.file.cacheID s.file.db key := by
  obtain ⟨map, run, there⟩ := steps_queue id value pending saving n
  rw [round] at there
  have deleted : steps Sys.step { s with file := { s.file with saveDNSCache := map } }
      [.flush id none] =
        some (({ s with file := { s.file with saveDNSCache := map } }.forget key).withFlusher id
          none) := by
    rw [steps_singleton, Sys.step, runs]
    simp [Sys.flushPendingDNSCacheWith, there]
  refine ⟨_, steps_trans run deleted, ?_⟩
  simp [Sys.forget, Sys.withFlusher, CacheFile.LoadDNSCache]

/-- 2^64 values are queued while a flusher is between its save and its comparison: the
sequence number is back where it was, and what was queued is deleted unsaved. -/
theorem read_your_writes_wraps :
    let labels : List Label :=
      [.queue 0 ⟨"dns", "a.", 1⟩ ([7], 0), .flush 0 none, .flush 0 none] ++
      (replicate (2 ^ 64) (.queue 0 ⟨"dns", "a.", 1⟩ ([8], 0)) ++ [.flush 0 none])
    (∀ l ∈ labels, l.isClear = false) ∧
    (queued ⟨"dns", "a.", 1⟩ labels).getLast? = some ([8], 0) ∧
    ∃ s, steps Sys.step (Sys.start none .empty) labels = some s ∧ s.warnings = [] ∧
      s.flushers 0 = none ∧
      s.file.LoadDNSCache ⟨"dns", "a.", 1⟩ = some ([7], 0) := by
  obtain ⟨n, round⟩ : ∃ n, 2 ^ 64 = n + 1 := ⟨2 ^ 64 - 1, by decide⟩
  have zero : UInt64.ofNat (n + 1) = 0 := by
    rw [← round]
    decide
  rw [round]
  refine ⟨?_, ?_, ?_⟩
  · intro l mem
    simp only [mem_append, mem_cons, mem_replicate, not_mem_nil] at mem
    rcases mem with (rfl | rfl | rfl | h) | ⟨_, rfl⟩ | rfl | h <;>
    first | rfl | exact h.elim
  · have again : queued ⟨"dns", "a.", 1⟩
        (replicate (n + 1) (.queue 0 ⟨"dns", "a.", 1⟩ ([8], 0))) =
          replicate (n + 1) ([8], 0) :=
      filterMap_replicate_of_some (by simp)
    have flush : queued ⟨"dns", "a.", 1⟩ [.flush 0 none] = [] := rfl
    rw [queued_append, queued_append, again, flush, append_nil, getLast?_append,
      getLast?_replicate, if_neg (Nat.succ_ne_zero n), some_or]
  · have before : ∃ s, steps Sys.step (Sys.start none .empty)
          [.queue 0 ⟨"dns", "a.", 1⟩ ([7], 0), .flush 0 none, .flush 0 none] = some s ∧
        s.file.saveDNSCache ⟨"dns", "a.", 1⟩ = some ⟨[7], 0, 1, true⟩ ∧
        s.flushers 0 = some ⟨⟨"dns", "a.", 1⟩, .compare ⟨[7], 0, 1, true⟩⟩ ∧ s.warnings = [] ∧
        loadDB s.file.cacheID s.file.db ⟨"dns", "a.", 1⟩ = some ([7], 0) :=
      ⟨_, rfl, rfl, rfl, rfl, by decide⟩
    obtain ⟨s, run, pending, runs, warnings, stored⟩ := before
    obtain ⟨s', run', warnings', gone, loaded⟩ := flush_wrapped ([8], 0) pending rfl runs zero
    exact ⟨s', steps_trans run run', warnings'.trans warnings, gone, loaded.trans stored⟩

end SingBox.Cachefile
