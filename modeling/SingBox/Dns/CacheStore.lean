import SingBox.Cachefile.DnsCache
import SingBox.Dns.Message

/-!
# Where responses are cached

The client keeps responses in memory, or in the cache file if there is one. `CacheStore` is
what it does with either; `loadResponse` and `storeCache` are written once, over it.

The memory may drop an entry at any time. The cache file packs messages, forgets the class
of the question, and goes on writing entries to its database after they were queued.

* `Lawful` — what is loaded was saved under the same key;
* `loadResponse_of_holds` — so what `loadResponse` returns was saved, with the lifetime that
  is left of it.
-/

namespace SingBox.Dns

open Lib Lib.Bolt Cachefile Function

def second : Int := 1000000000

/-- What `loadResponse` and `storeCache` use. The identifier in `save` is for a goroutine the
store may start; `none` if it is taken. `internal` is what the store does by itself. -/
structure CacheStore (κ τ ι : Type) where
  key : Question → String → κ
  load : τ → κ → Option (Msg × Time)
  save : τ → Nat → κ → Msg → Time → Option τ
  remove : τ → κ → τ
  internal : τ → ι → Option τ

/-! ## Memory -/

inductive MemoryLabel where
  | evict (key : Question × String)
  | purge

abbrev Memory := Question × String → Option (Msg × Time)

/-- `freelru`, keyed by `dnsCacheKey`. An entry without a lifetime is one whose time is never
looked at. -/
def memoryStore : CacheStore (Question × String) Memory MemoryLabel where
  key question transportTag := (question, transportTag)
  load cache key := cache key
  save cache _ key message expireAt :=
    some (update cache key (some (message, expireAt)))
  remove cache key := update cache key none
  internal cache
    | .evict key => some (update cache key none)
    | .purge => some fun _ => none

/-! ## The cache file -/

/-- `Pack` and `Unpack`. A message that cannot be packed is not cached. -/
structure Codec where
  pack : Msg → Option Bytes
  unpack : Bytes → Option Msg
  unpack_pack : ∀ message raw, pack message = some raw → unpack raw = some message

instance : Inhabited Codec := ⟨fun _ => none, fun _ => none, nofun⟩

def persistentStore (codec : Codec) : CacheStore SaveCacheKey Sys Label where
  key question transportTag := ⟨transportTag, question.name, question.qtype⟩
  load s key :=
    match s.file.LoadDNSCache key with
    | none => none
    | some (raw, expireAt) => (codec.unpack raw).map fun message => (message, expireAt)
  save s id key message expireAt :=
    match codec.pack message with
    | none => some s
    | some raw => s.SaveDNSCacheAsync id key (raw, expireAt)
  remove s _ := s
  internal s
    | .queue _ _ _ => none
    | l => s.step l

/-! ## What is loaded was saved -/

/-- `Holds P` says that every entry that a load can meet, now or later, is in `P`. -/
structure CacheStore.Lawful {κ τ ι : Type} (store : CacheStore κ τ ι) (start : τ) where
  Holds : (κ → Msg → Time → Prop) → τ → Prop
  key_tag : ∀ {q q' : Question} {t t' : String}, store.key q t = store.key q' t' → t = t'
  key_qtype : ∀ {q q' : Question} {t t' : String},
    store.key q t = store.key q' t' → q.qtype = q'.qtype
  start_holds : ∀ P, Holds P start
  mono : ∀ {P P' : κ → Msg → Time → Prop} {s : τ}, (∀ k m t, P k m t → P' k m t) →
    Holds P s → Holds P' s
  save : ∀ {P : κ → Msg → Time → Prop} {s s' : τ} {id k m t}, Holds P s → P k m t →
    store.save s id k m t = some s' → Holds P s'
  remove : ∀ {P : κ → Msg → Time → Prop} {s : τ} (k), Holds P s → Holds P (store.remove s k)
  internal : ∀ {P : κ → Msg → Time → Prop} {s s' : τ} {l}, Holds P s →
    store.internal s l = some s' → Holds P s'
  load : ∀ {P : κ → Msg → Time → Prop} {s : τ} {k m t}, Holds P s →
    store.load s k = some (m, t) → ∃ saved, P k m saved ∧ (t = saved ∨ t = Time.stored saved)

def memoryLawful : memoryStore.Lawful fun _ => none where
  Holds P cache := ∀ key message expireAt, cache key = some (message, expireAt) →
    P key message expireAt
  key_tag h := (Prod.mk.inj h).2
  key_qtype h := congrArg Question.qtype (Prod.mk.inj h).1
  start_holds _ _ _ _ h := nomatch h
  mono imp holds key message expireAt h := imp _ _ _ (holds key message expireAt h)
  save := by
    intro P cache cache' _ key message expireAt holds new h key' message' expireAt' found
    cases h
    rcases of_update found with ⟨rfl, ⟨⟩⟩ | ⟨-, old⟩
    · exact new
    · exact holds _ _ _ old
  remove := by
    intro P cache key holds key' message expireAt found
    rcases of_update found with ⟨-, ⟨⟩⟩ | ⟨-, old⟩
    exact holds _ _ _ old
  internal := by
    intro P cache cache' l holds h key' message expireAt found
    cases l with
    | evict key =>
      cases h
      rcases of_update found with ⟨-, ⟨⟩⟩ | ⟨-, old⟩
      exact holds _ _ _ old
    | purge =>
      cases h
      cases found
  load := by
    intro P cache key message expireAt holds h
    exact ⟨expireAt, holds _ _ _ h, .inl rfl⟩

/-- The messages whose packed form is in a set of values. -/
def Codec.Unpacked (codec : Codec) (P : Msg → Time → Prop) (value : Value) : Prop :=
  ∀ message, codec.unpack value.1 = some message → P message value.2

/-- The cache file, from a database that has no responses. -/
def persistentLawful (codec : Codec) (cacheID : Option Bytes) (db : DB)
    (empty : ∀ key, loadDB cacheID db key = none) :
    (persistentStore codec).Lawful (Sys.start cacheID db) where
  Holds P s := ∀ key, Sound key (codec.Unpacked (P key)) (· = none) s
  key_tag h := congrArg SaveCacheKey.transportName h
  key_qtype h := congrArg SaveCacheKey.qType h
  start_holds P key := ⟨nofun, nofun, .inl (empty key)⟩
  mono imp holds key :=
    (holds key).mono fun _ known message h => imp _ _ _ (known message h)
  save := by
    intro P s s' id key message expireAt holds new h key'
    simp only [persistentStore] at h
    split at h
    · cases h
      exact holds key'
    · rename_i raw packed
      refine (holds key').queue (fun same message' unpacked => ?_) h
      subst same
      cases (codec.unpack_pack message raw packed).symm.trans unpacked
      exact new
  remove _ holds := holds
  internal := by
    intro P s s' l holds h key
    cases l with
    | queue id key' value => cases h
    | flush id refused =>
      exact step_sound (l := .flush id refused) (holds key) h (by simp [queued]) (.inl rfl)
    | clearPending =>
      exact step_sound (l := .clearPending) (holds key) h (by simp [queued]) (.inl rfl)
    | deleteBucket refused =>
      exact step_sound (l := .deleteBucket refused) (holds key) h (by simp [queued]) (.inl rfl)
  load := by
    intro P s key message expireAt holds h
    simp only [persistentStore] at h
    split at h
    · cases h
    rename_i raw time loaded
    obtain ⟨message', unpacked, eq⟩ := Option.map_eq_some_iff.mp h
    cases eq
    obtain ⟨value, known, sameRaw, sameTime⟩ := (holds key).load loaded
    exact ⟨value.2, known message (sameRaw ▸ unpacked), sameTime⟩

/-! ## Loading and storing -/

/-- The settings of a `Client`. `rdrc` says that there is a store of rejected responses. -/
structure Config where
  disableCache : Bool := false
  disableExpire : Bool := false
  optimisticTimeout : Time := 0
  clientSubnet : Prefix := .invalid
  rdrc : Bool := false

section LoadStore

variable {κ τ ι : Type} (store : CacheStore κ τ ι) (c : Config)

/-- `int(expireAt.Sub(timeNow).Seconds())`, as a TTL. -/
def remaining (expireAt now : Time) : UInt32 := UInt32.ofNat ((expireAt - now) / second).toNat

/-- What becomes of an entry: the response and whether it is stale, or nothing if it is
too old. -/
def readEntry (now : Time) (response : Msg) (expireAt : Time) : Option (Msg × Bool) :=
  if c.disableExpire then some (response, false)
  else if now > expireAt then
    if c.optimisticTimeout > 0 ∧ now < expireAt + c.optimisticTimeout then
      some (response.normalizeTTL 1, true)
    else none
  else some (response.normalizeTTL (remaining expireAt now), false)

/-- `loadResponse` and `loadPersistentResponse`. -/
def loadResponse (s : τ) (now : Time) (question : Question) (transportTag : String) :
    Option (Msg × Bool) × τ :=
  match store.load s (store.key question transportTag) with
  | none => (none, s)
  | some (response, expireAt) =>
      match readEntry c now response expireAt with
      | none => (none, store.remove s (store.key question transportTag))
      | some found => (some found, s)

def storeCache (s : τ) (id : Nat) (now : Time) (question : Question) (transportTag : String)
    (message : Msg) (timeToLive : UInt32) : Option τ :=
  if timeToLive = 0 then some s
  else
    store.save s id (store.key question transportTag) message
      (now + timeToLive.toNat * second)

end LoadStore

/-! ## What is loaded, over either store -/

/-- The times that `time.Unix` gives back: not before the epoch, and in 64 bits. -/
def InRange (t : Int) : Prop := 0 ≤ t ∧ t < 2 ^ 63 * second

theorem stored_eq {t : Int} (h : InRange t) : Time.stored t = t / second * second := by
  obtain ⟨nonneg, small⟩ := h
  unfold second at *
  unfold Time.stored Time.ofUnix Time.unix
  rw [BitVec.toInt_ofInt, Int.bmod_eq_of_le (by omega) (by omega)]

section Load

variable {κ τ ι : Type} {store : CacheStore κ τ ι} {start : τ} (lawful : store.Lawful start)
  (c : Config) {s : τ} {now : Int} {question : Question} {transportTag : String}

theorem loadResponse_holds {P : κ → Msg → Time → Prop} (now : Int) (question : Question)
    (transportTag : String) (holds : lawful.Holds P s) :
    lawful.Holds P (loadResponse store c s now question transportTag).2 := by
  unfold loadResponse
  split
  · exact holds
  · split
    · exact lawful.remove _ holds
    · exact holds

theorem loadResponse_eq_some {found : Msg × Bool}
    (h : (loadResponse store c s now question transportTag).1 = some found) :
    ∃ response expireAt,
      store.load s (store.key question transportTag) = some (response, expireAt) ∧
      readEntry c now response expireAt = some found := by
  unfold loadResponse at h
  split at h
  · cases h
  rename_i response expireAt loaded
  split at h <;> cases h
  rename_i read
  exact ⟨response, expireAt, loaded, read⟩

/-- An entry is a message with one TTL, which was saved with a lifetime that long. -/
def Entry {κ : Type} (P : κ → Msg → UInt32 → Prop) (now : Int) (key : κ)
    (message : Msg) (expireAt : Time) : Prop :=
  ∃ body timeToLive, ∃ saved : Int,
    P key body timeToLive ∧ timeToLive ≠ 0 ∧ 0 ≤ saved ∧ saved ≤ now ∧
    message = body.normalizeTTL timeToLive ∧ expireAt = saved + timeToLive.toNat * second

theorem remaining_le {now expireAt saved : Int} {timeToLive : UInt32}
    (before : saved ≤ now) (within : expireAt ≤ saved + timeToLive.toNat * second) :
    remaining expireAt now ≤ timeToLive := by
  have short : ((expireAt - now) / second).toNat ≤ timeToLive.toNat := by
    unfold second at *
    omega
  have fits : timeToLive.toNat < 2 ^ 32 := timeToLive.toNat_lt
  rw [UInt32.le_iff_toNat_le]
  unfold remaining
  rw [UInt32.toNat_ofNat', Nat.mod_eq_of_lt (Nat.lt_of_le_of_lt short fits)]
  exact short

/-- What `loadResponse` returns is an entry of the key with a TTL not above the one saved. -/
theorem loadResponse_of_holds {P : κ → Msg → UInt32 → Prop}
    (holds : lawful.Holds (Entry P now) s) (range : now + 2 ^ 32 * second < 2 ^ 63 * second)
    {response : Msg} {stale : Bool}
    (h : (loadResponse store c s now question transportTag).1 = some (response, stale)) :
    ∃ body timeToLive ttl, P (store.key question transportTag) body timeToLive ∧
      ttl ≤ timeToLive ∧ response = body.normalizeTTL ttl := by
  obtain ⟨message, expireAt, loaded, read⟩ := loadResponse_eq_some c h
  obtain ⟨_, ⟨body, timeToLive, saved, known, nonzero, start, before, rfl, rfl⟩, time⟩ :=
    lawful.load holds loaded
  have within : expireAt ≤ saved + timeToLive.toNat * second := by
    rcases time with rfl | rfl
    · exact Int.le_refl _
    · have fits : timeToLive.toNat < 2 ^ 32 := timeToLive.toNat_lt
      rw [stored_eq]
      · exact Int.ediv_mul_le _ (by decide)
      · unfold InRange second at *
        omega
  unfold readEntry at read
  split at read
  · cases read
    exact ⟨body, timeToLive, timeToLive, known, UInt32.le_refl _, rfl⟩
  · split at read
    · split at read
      · cases read
        refine ⟨body, timeToLive, 1, known, ?_, by simp⟩
        exact Nat.one_le_iff_ne_zero.mpr fun zero => nonzero (UInt32.toNat_inj.mp zero)
      · cases read
    · cases read
      exact ⟨body, timeToLive, _, known, remaining_le before within, by simp⟩

end Load

end SingBox.Dns
