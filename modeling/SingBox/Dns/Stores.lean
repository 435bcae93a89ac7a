import SingBox.Dns.CacheStore

/-!
# The two caches side by side

The same calls of `storeCache` and `loadResponse` made on the memory cache and on the cache
file. Beside the calls, goroutines write to the database, and time passes in whole seconds.
The memory is keyed by the question and the transport; the cache file leaves out the class.

* `MemoryKeeps`, `step_memory` — the memory has what was stored last for a question, or
  dropped it when it was too old;
* `step_persistent` — and the cache file what was stored last for a name and a type;
* `loads_agree_iff` — so a load gives the same from both, if what was stored last for the name
  and the type was for the class asked for.
-/

namespace SingBox.Dns.Stores

open Lib Lib.Bolt Cachefile List

structure Saved where
  question : Question
  transportTag : String
  message : Msg
  expireAt : Int

def Saved.memoryKey (saved : Saved) : Question × String := (saved.question, saved.transportTag)

def Saved.persistentKey (saved : Saved) : SaveCacheKey :=
  ⟨saved.transportTag, saved.question.name, saved.question.qtype⟩

/-- The two caches; `saves` is all that was stored, in order. -/
structure State where
  memory : Memory
  persistent : Sys
  now : Int
  saves : List Saved

inductive Label where
  | store (id : Nat) (question : Question) (transportTag : String) (message : Msg)
      (timeToLive : UInt32)
  | load (question : Question) (transportTag : String)
  | flush (id : Nat) (refused : Option Error)
  | tick (now : Int)

section Steps

variable (codec : Codec) (c : Config)

/-- What a call of `storeCache` adds. -/
def savedBy (now : Int) (question : Question) (transportTag : String) (message : Msg)
    (timeToLive : UInt32) : List Saved :=
  if timeToLive = 0 then []
  else [⟨question, transportTag, message, now + timeToLive.toNat * second⟩]

def step (s : State) : Label → Option State
  | .store id question transportTag message timeToLive =>
      match storeCache memoryStore s.memory id s.now question transportTag message timeToLive,
        storeCache (persistentStore codec) s.persistent id s.now question transportTag message
          timeToLive with
      | some memory, some persistent =>
          some { s with
            memory, persistent
            saves := s.saves ++ savedBy s.now question transportTag message timeToLive }
      | _, _ => none
  | .load question transportTag =>
      some { s with
        memory := (loadResponse memoryStore c s.memory s.now question transportTag).2
        persistent :=
          (loadResponse (persistentStore codec) c s.persistent s.now question transportTag).2 }
  | .flush id refused =>
      ((persistentStore codec).internal s.persistent (.flush id refused)).map fun persistent =>
        { s with persistent }
  | .tick now => some { s with now }

def State.start (cacheID : Option Bytes) (db : DB) (now : Int) : State :=
  ⟨fun _ => none, Sys.start cacheID db, now, []⟩

/-- Time passes in whole seconds, does not go back, and stays in range. -/
def Passes (s : State) : Label → Prop
  | .tick now => s.now ≤ now ∧ second ∣ now ∧ now + 2 ^ 32 * second < 2 ^ 63 * second
  | _ => True

def last {κ : Type} [DecidableEq κ] (key : Saved → κ) (k : κ) (saves : List Saved) :
    Option Saved :=
  (saves.filter fun saved => key saved = k).getLast?

/-- What a load makes of it. -/
def read (now : Int) (saved : Option Saved) : Option (Msg × Bool) :=
  saved.bind fun saved => readEntry c now saved.message saved.expireAt

variable {codec c}

theorem last_append {κ : Type} [DecidableEq κ] (key : Saved → κ) (k : κ) (saves : List Saved)
    (saved : Saved) :
    last key k (saves ++ [saved]) = if key saved = k then some saved else last key k saves := by
  unfold last
  by_cases same : key saved = k <;> simp [same]

/-! ## The memory -/

theorem readEntry_none_mono {now now' : Int} {message : Msg} {expireAt : Time}
    (later : now ≤ now') (none : readEntry c now message expireAt = none) :
    readEntry c now' message expireAt = Option.none := by
  unfold readEntry at none ⊢
  split_ifs at none with expires expired notStale
  have expired' : now' > expireAt := Int.lt_of_lt_of_le expired later
  have notStale' : ¬ (c.optimisticTimeout > 0 ∧ now' < expireAt + c.optimisticTimeout) :=
    fun stale => notStale ⟨stale.1, Int.lt_of_le_of_lt later stale.2⟩
  rw [if_neg expires, if_pos expired', if_neg notStale']

/-- The memory has what was stored last, or nothing if that is too old. -/
def MemoryKeeps (c : Config) (s : State) : Prop :=
  ∀ k, s.memory k = (last Saved.memoryKey k s.saves).map
      (fun saved => (saved.message, saved.expireAt)) ∨
    s.memory k = none ∧ read c s.now (last Saved.memoryKey k s.saves) = none

variable {s : State} {persistent : Sys} {s' : State} {l : Label}

section

variable (keeps : MemoryKeeps c s)
include keeps

theorem MemoryKeeps.load (question : Question) (transportTag : String) :
    (loadResponse memoryStore c s.memory s.now question transportTag).1 =
      read c s.now (last Saved.memoryKey (question, transportTag) s.saves) := by
  unfold loadResponse
  rcases keeps (question, transportTag) with has | ⟨none, old⟩
  · simp only [memoryStore, has]
    cases last Saved.memoryKey (question, transportTag) s.saves with
    | none => rfl
    | some saved =>
      simp only [Option.map_some, read, Option.bind_some]
      split <;> simp_all
  · simp [memoryStore, none, old]

theorem MemoryKeeps.store {memory : Memory} {id : Nat} {question : Question} {transportTag : String}
    {message : Msg} {timeToLive : UInt32}
    (stored : storeCache memoryStore s.memory id s.now question transportTag message timeToLive =
      some memory) :
    MemoryKeeps c { s with
      memory, persistent
      saves := s.saves ++ savedBy s.now question transportTag message timeToLive } := by
  unfold storeCache at stored
  unfold savedBy
  split at stored
  · rename_i zero
    cases stored
    simp only [zero, if_true, append_nil]
    exact keeps
  · rename_i nonzero
    cases stored
    intro k
    simp only [nonzero, if_false, last_append]
    by_cases same : k = (question, transportTag)
    · left
      simp [same, Saved.memoryKey, memoryStore]
    · have other : Saved.memoryKey ⟨question, transportTag, message,
          s.now + timeToLive.toNat * second⟩ ≠ k := Ne.symm same
      simp only [other, if_false, memoryStore, Function.update_of_ne same]
      exact keeps k

/-- A load evicts an entry only if nothing is read from it any more. -/
theorem MemoryKeeps.evict (question : Question) (transportTag : String) :
    MemoryKeeps c { s with
      memory := (loadResponse memoryStore c s.memory s.now question transportTag).2
      persistent } := by
  intro k
  unfold loadResponse
  split
  · exact keeps k
  · rename_i response expireAt loaded
    split
    · rename_i tooOld
      by_cases same : k = (question, transportTag)
      · right
        subst same
        refine ⟨by simp [memoryStore], ?_⟩
        rw [← keeps.load]
        simp [loadResponse, loaded, tooOld]
      · simp only [memoryStore, Function.update_of_ne same]
        exact keeps k
    · exact keeps k

theorem MemoryKeeps.tick {now : Int} (later : s.now ≤ now) : MemoryKeeps c { s with now } := by
  intro k
  rcases keeps k with has | ⟨none, old⟩
  · exact .inl has
  · refine .inr ⟨none, ?_⟩
    cases found : last Saved.memoryKey k s.saves with
    | none => rfl
    | some saved =>
      rw [found] at old
      exact readEntry_none_mono later old

theorem step_memory (passes : Passes s l) (h : step codec c s l = some s') : MemoryKeeps c s' := by
  cases l with
  | store id question transportTag message timeToLive =>
    simp only [step] at h
    split at h <;> cases h
    rename_i memory persistent stored _
    exact keeps.store stored
  | load question transportTag =>
    cases h
    exact keeps.evict question transportTag
  | flush id refused =>
    obtain ⟨_, _, rfl⟩ := Option.map_eq_some_iff.mp h
    exact keeps
  | tick now =>
    cases h
    exact keeps.tick passes.1

end

/-! ## The cache file -/

/-- What was queued for a key. A response that cannot be packed was not. -/
def queuedFor (codec : Codec) (key : SaveCacheKey) (saves : List Saved) : List Value :=
  (saves.filter fun saved => saved.persistentKey = key).filterMap fun saved =>
    (codec.pack saved.message).map fun raw => (raw, saved.expireAt)

/-- The cache file has it, as long as no save of the key failed. -/
def PersistentKeeps (codec : Codec) (key : SaveCacheKey) (s : State) : Prop :=
  s.persistent.failures key = 0 → (queuedFor codec key s.saves).length < 2 ^ 64 →
    Settled key (.start none) (queuedFor codec key s.saves) s.persistent

theorem persistent_loadResponse (s : Sys) (now : Int) (question : Question)
    (transportTag : String) :
    (loadResponse (persistentStore codec) c s now question transportTag).2 = s := by
  unfold loadResponse
  split
  · rfl
  · split <;> rfl

/-- The cache file makes a step of its own and the history grows by what was queued in it. -/
theorem PersistentKeeps.step {key : SaveCacheKey} {saves : List Saved} {l : Cachefile.Label}
    (keeps : PersistentKeeps codec key s) (h : s.persistent.step l = some persistent)
    (noClear : l.isClear = false)
    (grows : queuedFor codec key saves = queuedFor codec key s.saves ++ queued key [l]) :
    PersistentKeeps codec key { s with persistent, saves } := by
  intro noFailures few
  have fewer := failures_le h key
  have before : s.persistent.failures key = 0 := Nat.le_zero.mp (noFailures ▸ fewer)
  rw [grows] at few ⊢
  have settled := keeps before (by rw [length_append] at few; omega)
  refine step_keeps settled h noClear (by rw [before]; exact Nat.le_of_eq noFailures) ?_
  simpa [Past.start] using few

theorem step_persistent {key : SaveCacheKey} (keeps : PersistentKeeps codec key s)
    (h : step codec c s l = some s') : PersistentKeeps codec key s' := by
  cases l with
  | store id question transportTag message timeToLive =>
    simp only [Stores.step] at h
    split at h <;> cases h
    rename_i memory persistent _ stored
    unfold storeCache at stored
    unfold savedBy
    split at stored
    · rename_i zero
      cases stored
      simp only [zero, if_true, append_nil]
      exact keeps
    · rename_i nonzero
      simp only [nonzero, if_false]
      simp only [persistentStore] at stored
      split at stored
      · rename_i unpackable
        cases stored
        have same : queuedFor codec key (s.saves ++ [⟨question, transportTag, message,
            s.now + timeToLive.toNat * second⟩]) = queuedFor codec key s.saves := by
          by_cases own : Saved.persistentKey ⟨question, transportTag, message,
              s.now + timeToLive.toNat * second⟩ = key <;> simp [queuedFor, own, unpackable]
        intro noFailures few
        rw [same] at few ⊢
        exact keeps noFailures few
      · rename_i raw packed
        refine PersistentKeeps.step (l := .queue id _ _) keeps stored rfl ?_
        by_cases own : (⟨transportTag, question.name, question.qtype⟩ : SaveCacheKey) = key <;>
          simp [queuedFor, queued, Saved.persistentKey, own, packed]
  | load question transportTag =>
    cases h
    rw [persistent_loadResponse]
    exact keeps
  | flush id refused =>
    obtain ⟨persistent, flushed, rfl⟩ := Option.map_eq_some_iff.mp h
    exact PersistentKeeps.step (l := .flush id refused) keeps flushed rfl (by simp [queued])
  | tick now =>
    cases h
    exact keeps

/-! ## Times -/

/-- All times are whole seconds that the database can hold. -/
structure Timed (s : State) : Prop where
  epoch : 0 ≤ s.now
  range : s.now + 2 ^ 32 * second < 2 ^ 63 * second
  whole : second ∣ s.now
  saves : ∀ saved ∈ s.saves, second ∣ saved.expireAt ∧ InRange saved.expireAt

theorem step_timed (timed : Timed s) (passes : Passes s l) (h : step codec c s l = some s') :
    Timed s' := by
  cases l with
  | store id question transportTag message timeToLive =>
    simp only [Stores.step] at h
    split at h
    · cases h
      refine { timed with saves := fun saved mem => ?_ }
      rcases mem_append.mp mem with old | new
      · exact timed.saves saved old
      · unfold savedBy at new
        split at new
        · cases new
        obtain rfl := mem_singleton.mp new
        have fits : timeToLive.toNat < 2 ^ 32 := timeToLive.toNat_lt
        have epoch := timed.epoch
        have range := timed.range
        refine ⟨Int.dvd_add timed.whole (Int.dvd_mul_left _ _), ?_, ?_⟩ <;>
          (dsimp only; unfold second at *; omega)
    · cases h
  | load question transportTag =>
    cases h
    exact { timed with }
  | flush id refused =>
    obtain ⟨_, _, rfl⟩ := Option.map_eq_some_iff.mp h
    exact { timed with }
  | tick now =>
    cases h
    exact ⟨Int.le_trans timed.epoch passes.1, passes.2.2, passes.2.1, timed.saves⟩

theorem stored_of_whole {t : Int} (whole : second ∣ t) (range : InRange t) :
    Time.stored t = t := by
  rw [stored_eq range]
  exact Int.ediv_mul_cancel whole

/-! ## Loads -/

/-- When every response packs, what was queued last is what was stored last. -/
theorem getLast_queuedFor (key : SaveCacheKey) {saves : List Saved}
    (packs : ∀ saved ∈ saves, (codec.pack saved.message).isSome) :
    (queuedFor codec key saves).getLast? = (last Saved.persistentKey key saves).bind fun saved =>
      (codec.pack saved.message).map fun raw => (raw, saved.expireAt) := by
  unfold queuedFor last
  have packs' : ∀ saved ∈ saves.filter fun saved => saved.persistentKey = key,
      (codec.pack saved.message).isSome :=
    fun saved mem => packs saved (mem_filter.mp mem).1
  generalize (saves.filter fun saved => saved.persistentKey = key) = own at packs'
  rcases eq_nil_or_concat own with rfl | ⟨before, saved, rfl⟩
  · rfl
  · obtain ⟨raw, packed⟩ := Option.isSome_iff_exists.mp (packs' saved (by simp))
    simp [filterMap_append, packed]

theorem PersistentKeeps.load {question : Question} {transportTag : String}
    (keeps : PersistentKeeps codec ⟨transportTag, question.name, question.qtype⟩ s)
    (timed : Timed s) (packs : ∀ saved ∈ s.saves, (codec.pack saved.message).isSome)
    (noFailures : s.persistent.failures ⟨transportTag, question.name, question.qtype⟩ = 0)
    (few : s.saves.length < 2 ^ 64) :
    (loadResponse (persistentStore codec) c s.persistent s.now question transportTag).1 =
      read c s.now
        (last Saved.persistentKey ⟨transportTag, question.name, question.qtype⟩ s.saves) := by
  have short : (queuedFor codec ⟨transportTag, question.name, question.qtype⟩ s.saves).length <
      2 ^ 64 :=
    Nat.lt_of_le_of_lt (Nat.le_trans (length_filterMap_le _ _) (length_filter_le _ _)) few
  have settled := keeps noFailures short
  have lastQueued := getLast_queuedFor ⟨transportTag, question.name, question.qtype⟩ packs
  unfold loadResponse
  cases found : last Saved.persistentKey ⟨transportTag, question.name, question.qtype⟩ s.saves with
  | none =>
    rw [found, Option.bind_none, getLast?_eq_none_iff] at lastQueued
    rw [lastQueued] at settled
    simp [persistentStore, settled.load_start, read]
  | some saved =>
    have mem : saved ∈ s.saves := (mem_filter.mp (mem_of_getLast? found)).1
    obtain ⟨raw, packed⟩ := Option.isSome_iff_exists.mp (packs saved mem)
    rw [found, Option.bind_some, packed] at lastQueued
    obtain ⟨⟨raw', time⟩, loaded, sameRaw, sameTime⟩ := settled.load lastQueued
    have whole := timed.saves saved mem
    have exact_ : time = saved.expireAt :=
      sameTime.elim id fun stored => stored.trans (stored_of_whole whole.1 whole.2)
    obtain rfl : raw' = raw := sameRaw
    simp only [persistentStore, loaded, codec.unpack_pack _ _ packed, Option.map_some, read,
      Option.bind_some]
    split <;> simp_all

end Steps

/-! ## Runs -/

/-- One load gives a response if and only if the other does, and they answer the same question. -/
def Agree (memory persistent : Option (Msg × Bool)) : Prop :=
  memory.map (fun loaded => loaded.1.question) = persistent.map fun loaded => loaded.1.question

/-- What was stored last for a name and a type, if it was for the question, is what was stored
last for the question. -/
theorem last_memoryKey {question : Question} {transportTag : String} {saves : List Saved}
    (own : ∀ saved, last Saved.persistentKey ⟨transportTag, question.name, question.qtype⟩ saves =
      some saved → saved.question = question) :
    last Saved.memoryKey (question, transportTag) saves =
      last Saved.persistentKey ⟨transportTag, question.name, question.qtype⟩ saves := by
  unfold last at own ⊢
  -- what is for the question is among what is for its name and type
  have among : (saves.filter fun saved => saved.memoryKey = (question, transportTag)) =
      (saves.filter fun saved => saved.persistentKey =
        ⟨transportTag, question.name, question.qtype⟩).filter fun saved =>
          saved.memoryKey = (question, transportTag) := by
    rw [filter_filter]
    refine filter_congr fun saved _ => ?_
    by_cases same : saved.memoryKey = (question, transportTag)
    · obtain ⟨rfl, rfl⟩ := Prod.mk.inj same
      simp [Saved.memoryKey, Saved.persistentKey]
    · simp [same]
  rw [among]
  have key : ∀ saved ∈ saves.filter fun saved => saved.persistentKey =
      ⟨transportTag, question.name, question.qtype⟩, saved.transportTag = transportTag := by
    intro saved mem
    have same := of_decide_eq_true (mem_filter.mp mem).2
    exact congrArg SaveCacheKey.transportName same
  generalize (saves.filter fun saved => saved.persistentKey =
    ⟨transportTag, question.name, question.qtype⟩) = kept at own key
  rcases eq_nil_or_concat kept with rfl | ⟨before, saved, rfl⟩
  · rfl
  · have isOwn : saved.memoryKey = (question, transportTag) :=
      Prod.ext (own saved (by simp)) (key saved (by simp))
    simp [filter_append, isOwn]

theorem readEntry_question {c : Config} {now : Int} {message : Msg} {expireAt : Time}
    {loaded : Msg × Bool} (h : readEntry c now message expireAt = some loaded) :
    loaded.1.question = message.question := by
  unfold readEntry at h
  split_ifs at h <;> cases h <;> rfl

/-- When responses are stored for the question they answer, what is loaded answers the question
that it was stored for. -/
theorem read_question {c : Config} {now : Int} {saves : List Saved} {stored : Option Saved}
    {loaded : Msg × Bool} (answers : ∀ saved ∈ saves, saved.message.question = [saved.question])
    (mem : ∀ saved, stored = some saved → saved ∈ saves) (h : read c now stored = some loaded) :
    ∃ saved, stored = some saved ∧ loaded.1.question = [saved.question] := by
  obtain ⟨saved, rfl, entry⟩ := Option.bind_eq_some_iff.mp h
  exact ⟨saved, rfl, (readEntry_question entry).trans (answers saved (mem saved rfl))⟩

theorem mem_of_last {κ : Type} [DecidableEq κ] {key : Saved → κ} {k : κ} {saves : List Saved}
    {saved : Saved} (h : last key k saves = some saved) : saved ∈ saves ∧ key saved = k := by
  have mem := mem_filter.mp (mem_of_getLast? h)
  exact ⟨mem.1, of_decide_eq_true mem.2⟩

/-- Along every run in which time passes in whole seconds and does not go back, every response
can be packed and no save of the key fails: a load gives the same from both caches if what was
stored last for the transport, the name and the type was for the question, its class included.

If responses are stored for the question they answer, then only so do the loads agree, or if
neither gives a response. -/
theorem loads_agree_iff (codec : Codec) (c : Config) (cacheID : Option Bytes) (db : DB)
    (now : Int) (labels : List Label) (s : State) (question : Question) (transportTag : String)
    (empty : loadDB cacheID db ⟨transportTag, question.name, question.qtype⟩ = none)
    (epoch : 0 ≤ now) (whole : second ∣ now) (range : now + 2 ^ 32 * second < 2 ^ 63 * second)
    (passes : Through (step codec c) Passes (.start cacheID db now) labels)
    (run : steps (step codec c) (.start cacheID db now) labels = some s)
    (packs : ∀ saved ∈ s.saves, (codec.pack saved.message).isSome)
    (noFailures : s.persistent.failures ⟨transportTag, question.name, question.qtype⟩ = 0)
    (few : s.saves.length < 2 ^ 64) :
    let memory := (loadResponse memoryStore c s.memory s.now question transportTag).1
    let persistent :=
      (loadResponse (persistentStore codec) c s.persistent s.now question transportTag).1
    let sameClass := ∀ saved, last Saved.persistentKey
      ⟨transportTag, question.name, question.qtype⟩ s.saves = some saved → saved.question = question
    (sameClass → memory = persistent) ∧
    ((∀ saved ∈ s.saves, saved.message.question = [saved.question]) →
      (Agree memory persistent ↔ sameClass ∨ memory = none ∧ persistent = none)) := by
  intro memory persistent sameClass
  have start : MemoryKeeps c (.start cacheID db now) ∧
      PersistentKeeps codec ⟨transportTag, question.name, question.qtype⟩ (.start cacheID db now) ∧
      Timed (.start cacheID db now) := by
    refine ⟨fun _ => .inl rfl, fun _ _ => ?_, epoch, range, whole, fun _ mem => nomatch mem⟩
    exact empty ▸ settled_start cacheID db _
  obtain ⟨inMemory, inFile, timed⟩ := steps_invariant_through
    (fun s => MemoryKeeps c s ∧
      PersistentKeeps codec ⟨transportTag, question.name, question.qtype⟩ s ∧ Timed s)
    (fun _ _ _ ⟨inMemory, inFile, timed⟩ passes taken => ⟨step_memory inMemory passes taken,
      step_persistent inFile taken, step_timed timed passes taken⟩) start passes run
  have memory_eq : memory = _ := inMemory.load question transportTag
  have persistent_eq : persistent = _ := inFile.load timed packs noFailures few
  have equal : sameClass → memory = persistent := by
    intro own
    rw [memory_eq, persistent_eq, last_memoryKey own]
  refine ⟨equal, fun answers => ⟨fun agree => ?_, ?_⟩⟩
  · cases loaded : persistent with
    | none =>
      rw [Agree, loaded, Option.map_none, Option.map_eq_none_iff] at agree
      exact .inr ⟨agree, rfl⟩
    | some response =>
      left
      intro saved isLast
      obtain ⟨response', loaded', same⟩ : ∃ response', memory = some response' ∧
          response'.1.question = response.1.question := by
        rw [loaded] at agree
        exact Option.map_eq_some_iff.mp agree
      obtain ⟨saved₁, isLast₁, question₁⟩ := read_question answers
        (fun _ h => (mem_of_last h).1) (persistent_eq.symm.trans loaded)
      obtain ⟨saved₂, isLast₂, question₂⟩ := read_question answers
        (fun _ h => (mem_of_last h).1) (memory_eq.symm.trans loaded')
      cases isLast.symm.trans isLast₁
      have forQuestion : saved₂.question = question :=
        (Prod.mk.inj (mem_of_last isLast₂).2).1
      rw [question₁, question₂, forQuestion] at same
      exact (cons.inj same).1.symm
  · rintro (own | ⟨none, none'⟩)
    · rw [equal own]
      rfl
    · rw [none, none']
      rfl

def codecOf (message : Msg) : Codec where
  pack other := if other = message then some [1] else none
  unpack raw := if raw = [1] then some message else none
  unpack_pack other raw packed := by
    split at packed <;> cases packed
    rename_i same
    rw [if_pos rfl, same]

/-- A response that was stored and written to the database is loaded from both. -/
theorem loads_agree_iff_once :
    let question : Question := ⟨"a.", typeA, classINET⟩
    let message : Msg := { response := true, question := [question] }
    let labels : List Label :=
      [.store 0 question "dns" message 60, .flush 0 none, .flush 0 none, .flush 0 none]
    ∃ s, steps (step (codecOf message) {}) (.start none .empty 0) labels = some s ∧
      (loadResponse memoryStore {} s.memory s.now question "dns").1 =
        (loadResponse (persistentStore (codecOf message)) {} s.persistent s.now question "dns").1 := by
  intro question message labels
  obtain ⟨s, run, saves, noFailures⟩ : ∃ s,
      steps (step (codecOf message) {}) (.start none .empty 0) labels = some s ∧
      s.saves = [⟨question, "dns", message, 60 * second⟩] ∧
      s.persistent.failures ⟨"dns", "a.", typeA⟩ = 0 := ⟨_, rfl, rfl, by decide⟩
  have passes : Through (step (codecOf message) {}) Passes (.start none .empty 0) labels := by
    refine through_of_forall fun l mem s => ?_
    simp only [labels, mem_cons, not_mem_nil, or_false] at mem
    rcases mem with rfl | rfl | rfl | rfl <;> trivial
  refine ⟨s, run, ?_⟩
  refine (loads_agree_iff (codecOf message) {} none .empty 0 labels s question "dns" (by decide)
    (by decide) (by decide) (by decide) passes run ?_ noFailures ?_).1 ?_
  · rw [saves]
    decide
  · rw [saves]
    decide
  · rw [saves]
    intro saved isLast
    obtain rfl := Option.some.inj isLast
    rfl

/-- A response stored for one class is loaded from the cache file for another, and not from
the memory. -/
theorem loads_disagree :
    let question : Question := ⟨"a.", typeA, classINET⟩
    let message : Msg := { response := true, question := [question] }
    let other : Question := { question with qclass := 3 }
    ∃ s, steps (step (codecOf message) {}) (.start none .empty 0)
        [.store 0 question "dns" message 60] = some s ∧
      (loadResponse memoryStore {} s.memory s.now other "dns").1 = none ∧
      (loadResponse (persistentStore (codecOf message)) {} s.persistent s.now other "dns").1 =
        some (message, false) :=
  ⟨_, rfl, rfl, rfl⟩

end SingBox.Dns.Stores
