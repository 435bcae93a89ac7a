import SingBox.FakeIP.Bijection

/-!
# The cursors that are saved later

Each time `Create` allocates an address it hands the ranges and cursors to
`FakeIPSaveMetadataAsync`. The cache file sets a timer that saves them; the timer is created by
the first of these calls, with the metadata of that call, and the later ones only set it again.

* `saveMetadataTimer_run` — the timer keeps the metadata of the first call;
* `timer_saves_latest` — when what the timer saves is the metadata of the last call;
* `timer_saves_stale` — it is not, after two calls;
* `restart_resumes` — after `Close`, the next start goes on from where the store was.
-/

namespace SingBox.FakeIP

open Lib Lib.Bolt FakeIPStorage List

section Calls

variable {σ : Type}

/-- What `Create` saves of a store. -/
def Started.metadata (s : Started σ) : Metadata where
  inet4Range := s.inet4Range
  inet6Range := s.inet6Range
  inet4Current := s.inet4Current
  inet6Current := s.inet6Current

variable [FakeIPStorage σ]

/-- The metadata that an event hands to `FakeIPSaveMetadataAsync`, if it calls it. -/
def Started.saves (s : Started σ) : Event → Option Metadata
  | .create domain isIPv6 refused =>
      (s.allocated isIPv6 (.create domain isIPv6 refused)).map fun _ =>
        (s.Create domain isIPv6 refused).2.metadata
  | .timer _ => none

/-- The metadata of all calls of `FakeIPSaveMetadataAsync` in a run, in order. -/
def saveCalls (s : Started σ) (events : List Event) : List Metadata :=
  outputs Started.step Started.saves s events

/-- An event leaves the store and its cursors, or it allocates an address and saves. -/
theorem saves_cases {s s' : Started σ} {event : Event} (h : s.step event = some s') :
    (s'.toStore = s.toStore ∧ (∀ isIPv6, s'.current isIPv6 = s.current isIPv6) ∧
      s.saves event = none ∧
      (s'.storage = s.storage ∨ ∃ refused, s'.storage = timer refused s.storage)) ∨
    ∃ domain isIPv6 refused, Allocated s domain isIPv6 refused s' ∧
      (s.current isIPv6).isValid = true ∧ s.saves event = some s'.metadata := by
  cases event with
  | timer refused =>
    cases h
    exact .inl ⟨rfl, fun _ => rfl, rfl, .inr ⟨refused, rfl⟩⟩
  | create domain isIPv6 refused =>
    cases h
    simp only [Started.saves]
    rw [allocated_create]
    rcases Create_cases s domain isIPv6 refused with
      ⟨a, loaded, result⟩ | ⟨⟨e, result⟩, missing, unknown⟩ | ⟨s', result, valid, allocated⟩
    · rw [result, if_neg (by simp [loaded])]
      exact .inl ⟨rfl, fun _ => rfl, rfl, .inl rfl⟩
    · rw [result, if_neg (by simp [missing])]
      exact .inl ⟨rfl, fun _ => rfl, rfl, .inl rfl⟩
    · rw [result, if_pos ⟨rfl, allocated.unknown, valid⟩]
      exact .inr ⟨domain, isIPv6, refused, allocated, valid, rfl⟩

end Calls

/-! ## Addresses that can be saved -/

theorem short_invalid : Metadata.Short .invalid := by
  unfold Metadata.Short
  decide

theorem short_next {a : Addr} (h : Metadata.Short a) : Metadata.Short a.next := by
  cases a with
  | invalid => exact h
  | v4 | v6 =>
    simp only [Addr.next]
    split_ifs
    · exact short_invalid
    · simp_all [Metadata.Short, Addr.MarshalBinary, Addr.asSlice]

theorem short_range_addr (p : Prefix) : Metadata.Short p.addr := by
  cases p <;> simp [Metadata.Short, Prefix.addr, Addr.MarshalBinary, Addr.asSlice]

/-- What is read of an address is not longer than the bytes it is read from. -/
theorem length_marshal_unmarshal {b : Bytes} {a : Addr} (h : Addr.UnmarshalBinary b = .ok a) :
    a.MarshalBinary.length ≤ b.length := by
  unfold Addr.UnmarshalBinary at h
  split_ifs at h with fixed long <;> cases h
  · unfold Addr.fromIP
    split_ifs with four sixteen
    · simp [Addr.MarshalBinary, Addr.asSlice, four]
    · simp [Addr.MarshalBinary, Addr.asSlice, sixteen]
    · simp [Addr.MarshalBinary, Addr.asSlice]
  · simp only [Addr.MarshalBinary, Addr.asSlice, length_append, length_putUint, length_drop]
    omega

theorem length_readElement {b data rest : Bytes}
    (h : Metadata.readElement b = .ok (data, rest)) : data.length < 256 ^ 2 := by
  unfold Metadata.readElement at h
  dsimp only at h
  split_ifs at h with short missing
  cases h
  have two : (b.take 2).length = 2 := by
    rw [length_take]
    omega
  have fits := uint_lt (b.take 2)
  rw [two] at fits
  exact Nat.lt_of_le_of_lt (length_take_le ..) fits

theorem short_unmarshal {b : Bytes} {m : Metadata} (h : Metadata.UnmarshalBinary b = .ok m) :
    Metadata.Short m.inet4Current ∧ Metadata.Short m.inet6Current := by
  unfold Metadata.UnmarshalBinary at h
  simp only [bind_eq_ok, liftError_eq_ok] at h
  obtain ⟨_, _, _, _, _, _, _, _, ⟨data4, _⟩, read4, a4, is4, ⟨data6, _⟩, read6, a6, is6, ok⟩ := h
  cases ok
  exact ⟨Nat.lt_of_le_of_lt (length_marshal_unmarshal is4) (length_readElement read4),
    Nat.lt_of_le_of_lt (length_marshal_unmarshal is6) (length_readElement read6)⟩

/-! ## What the timer saves -/

/-- The store is the one that was started, and its cursors can be saved and read back. -/
structure Savable {σ : Type} (config : Store) (s : Started σ) : Prop where
  toStore : s.toStore = config
  short : ∀ isIPv6, Metadata.Short (s.current isIPv6)

section Savable

variable {σ : Type} [FakeIPStorage σ] {config : Store} {s s' : Started σ}
    (savable : Savable config s)
include savable

theorem Savable.step {event : Event} (h : s.step event = some s') : Savable config s' := by
  rcases saves_cases h with ⟨store, current, _⟩ | ⟨domain, isIPv6, refused, allocated, _, _⟩
  · exact ⟨store.trans savable.toStore, fun isIPv6 => current isIPv6 ▸ savable.short isIPv6⟩
  · refine ⟨allocated.toStore.trans savable.toStore, fun isIPv6' => ?_⟩
    by_cases same : isIPv6' = isIPv6
    · rw [same, allocated.current]
      exact allocate_induction (P := Metadata.Short) short_next (short_range_addr _)
        (savable.short isIPv6)
    · rw [Bool.eq_not.mpr same, allocated.other]
      exact savable.short _

/-- The metadata of a store that was started with `config`. -/
structure IsMetadata (config : Store) (m : Metadata) : Prop where
  inet4Range : m.inet4Range = config.inet4Range
  inet6Range : m.inet6Range = config.inet6Range
  inet4Current : Metadata.Short m.inet4Current
  inet6Current : Metadata.Short m.inet6Current

omit [FakeIPStorage σ] in
theorem Savable.metadata : IsMetadata config s.metadata where
  inet4Range := congrArg Store.inet4Range savable.toStore
  inet6Range := congrArg Store.inet6Range savable.toStore
  inet4Current := savable.short false
  inet6Current := savable.short true

theorem Savable.saveCalls (events : List Event) :
    ∀ m ∈ saveCalls s events, IsMetadata config m := by
  refine outputs_invariant (Savable config) (fun _ _ _ savable now => savable.step now) ?_ savable
  intro s event m savable saves
  obtain ⟨s', now⟩ : ∃ s', s.step event = some s' := by
    cases event <;> exact ⟨_, rfl⟩
  rcases saves_cases now with ⟨_, _, none, _⟩ | ⟨_, _, _, _, _, some⟩
  · cases none.symm.trans saves
  · cases some.symm.trans saves
    exact (savable.step now).metadata

end Savable

section Runs

variable [Buckets]

namespace CacheFile

/-- The metadata that the database gives back at the next start. -/
def savedMetadata (c : CacheFile) : Except (Stop Error) Metadata :=
  Metadata.UnmarshalBinary ((c.db.get [bucketFakeIP] keyMetadata).getD [])

theorem get_FakeIPSaveMetadata (m : Metadata) (c : CacheFile) :
    (FakeIPSaveMetadata none m c).1.db.get [bucketFakeIP] keyMetadata = some m.MarshalBinary := by
  simp [FakeIPSaveMetadata, batch, saveMetadataTx_ok, DB.get_set]

end CacheFile

variable {s s' : Started CacheFile}

theorem saveMetadataTimer_step {event : Event} (h : s.step event = some s') :
    s'.storage.saveMetadataTimer = s.storage.saveMetadataTimer.or (s.saves event) := by
  rcases saves_cases h with ⟨_, _, none, same | ⟨refused, fired⟩⟩ |
    ⟨domain, isIPv6, refused, allocated, _, some⟩
  · rw [none, same, Option.or_none]
  · rw [none, fired, Option.or_none]
    show (CacheFile.timer refused s.storage).saveMetadataTimer = _
    unfold CacheFile.timer
    split <;> rfl
  · rw [some, allocated.storage]
    show Option.some (s.storage.saveMetadataTimer.getD s'.metadata) = _
    cases s.storage.saveMetadataTimer <;> rfl

/-- The timer keeps the metadata of the first call. -/
theorem saveMetadataTimer_run {events : List Event}
    (run : steps Started.step s events = some s') :
    s'.storage.saveMetadataTimer =
      s.storage.saveMetadataTimer.or (saveCalls s events).head? := by
  induction events generalizing s with
  | nil =>
    cases run
    exact (Option.or_none).symm
  | cons event rest ih =>
    obtain ⟨middle, now, later⟩ := Option.bind_eq_some_iff.mp run
    rw [ih later, saveMetadataTimer_step now, Option.or_assoc]
    congr 1
    unfold saveCalls
    rw [outputs_cons now]
    cases s.saves event <;> rfl

variable (config : Store) (storage : CacheFile) (readRefused resetRefused : Option Error)

theorem saveMetadataTimer_Start :
    (config.Start storage readRefused resetRefused).storage.saveMetadataTimer =
      storage.saveMetadataTimer := by
  have read : (CacheFile.FakeIPMetadata readRefused storage).2.saveMetadataTimer =
      storage.saveMetadataTimer := by
    unfold CacheFile.FakeIPMetadata
    split <;> rfl
  unfold Store.Start
  dsimp only [FakeIPStorage.FakeIPMetadata, FakeIPStorage.FakeIPReset]
  split
  · split_ifs <;> exact read
  · exact read

theorem fresh_savable (storage : CacheFile) : Savable config
    ⟨config, storage, if config.inet4Range.isValid then config.inet4Range.addr.next else .invalid,
      if config.inet6Range.isValid then config.inet6Range.addr.next else .invalid⟩ := by
  have first : ∀ p : Prefix, Metadata.Short (if p.isValid then p.addr.next else .invalid) := by
    intro p
    split_ifs
    · exact short_next (short_range_addr p)
    · exact short_invalid
  refine ⟨rfl, fun isIPv6 => ?_⟩
  cases isIPv6 with
  | false => exact first config.inet4Range
  | true => exact first config.inet6Range

theorem short_FakeIPMetadata {refused : Option Error} {c : CacheFile} {m : Metadata}
    (read : (CacheFile.FakeIPMetadata refused c).1 = some m) :
    Metadata.Short m.inet4Current ∧ Metadata.Short m.inet6Current := by
  unfold CacheFile.FakeIPMetadata at read
  split at read <;> cases read
  rename_i metadata db ok
  unfold CacheFile.metadataTx at ok
  dsimp only at ok
  split_ifs at ok
  obtain ⟨_, _, ok⟩ := bind_eq_ok.mp ok
  obtain ⟨_, unmarshal, ok⟩ := bind_eq_ok.mp ok
  cases ok
  exact short_unmarshal unmarshal

theorem Start_savable : Savable config (config.Start storage readRefused resetRefused) := by
  unfold Store.Start
  dsimp only [FakeIPStorage.FakeIPMetadata, FakeIPStorage.FakeIPReset]
  split
  · rename_i m read
    by_cases same : m.inet4Range = config.inet4Range ∧ m.inet6Range = config.inet6Range
    · rw [if_pos same]
      refine ⟨rfl, fun isIPv6 => ?_⟩
      cases isIPv6 with
      | false => exact (short_FakeIPMetadata read).1
      | true => exact (short_FakeIPMetadata read).2
    · rw [if_neg same]
      exact fresh_savable config _
  · exact fresh_savable config _

/-- When the timer fires, what it writes is the metadata of the first call after the cache file
was opened. It is that of the last call if and only if both cursors are again where they were
then. -/
theorem timer_saves_latest (unset : storage.saveMetadataTimer = none) (events : List Event)
    {s : Started CacheFile}
    (run : steps Started.step (config.Start storage readRefused resetRefused) events = some s)
    (first last : Metadata)
    (isFirst : (saveCalls (config.Start storage readRefused resetRefused) events).head? =
      some first)
    (isLast : (saveCalls (config.Start storage readRefused resetRefused) events).getLast? =
      some last) :
    (CacheFile.timer none s.storage).savedMetadata = .ok first ∧
    ((CacheFile.timer none s.storage).savedMetadata = .ok last ↔
      last.inet4Current = first.inet4Current ∧ last.inet6Current = first.inet6Current) := by
  have started := Start_savable config storage readRefused resetRefused
  have first_ok := started.saveCalls events first (mem_of_mem_head? isFirst)
  have last_ok := started.saveCalls events last (mem_of_getLast? isLast)
  have set : s.storage.saveMetadataTimer = some first := by
    rw [saveMetadataTimer_run run, saveMetadataTimer_Start, unset, Option.none_or, isFirst]
  have saved : (CacheFile.timer none s.storage).savedMetadata = .ok first := by
    unfold CacheFile.savedMetadata CacheFile.timer
    rw [set, CacheFile.get_FakeIPSaveMetadata]
    exact Metadata.UnmarshalBinary_MarshalBinary first first_ok.inet4Current first_ok.inet6Current
  refine ⟨saved, ?_⟩
  rw [saved, Except.ok.injEq]
  constructor
  · rintro rfl
    exact ⟨rfl, rfl⟩
  · rintro ⟨same4, same6⟩
    obtain ⟨range4, range6, current4, current6⟩ := first
    cases same4
    cases same6
    congr 1
    · exact first_ok.inet4Range.trans last_ok.inet4Range.symm
    · exact first_ok.inet6Range.trans last_ok.inet6Range.symm

end Runs

/-- The store for `10.0.0.0/8`, started on a database. -/
def startedOn (db : DB) : Started CacheFile :=
  (NewStore (.v4 0x0a000000#32 8) .invalid).Start (CacheFile.opened db) none none

/-- The metadata of that store with its cursor at an address. -/
def cursorMetadata (current : BitVec 32) : Metadata :=
  ⟨.v4 0x0a000000#32 8, .invalid, .v4 current, .invalid⟩

/-- After one call, that call is the last. -/
theorem timer_saves_only_call : ∃ s,
    steps Started.step (startedOn .empty) [.create [97] false none] = some s ∧
    (CacheFile.timer none s.storage).savedMetadata = .ok (cursorMetadata 0x0a000002#32) := by
  refine ⟨_, rfl, ?_⟩
  exact (timer_saves_latest (NewStore (.v4 0x0a000000#32 8) .invalid) (CacheFile.opened .empty) none
    none rfl [.create [97] false none] rfl (cursorMetadata 0x0a000002#32)
    (cursorMetadata 0x0a000002#32) (by decide) (by decide)).2.mpr ⟨rfl, rfl⟩

/-- Two domains get `10.0.0.2` and `10.0.0.3`, and the timer writes the cursor of the first call.
A store that is started on that database gives `10.0.0.3` to a third domain. -/
theorem timer_saves_stale : ∃ s,
    steps Started.step (startedOn .empty) [.create [97] false none, .create [98] false none] =
      some s ∧
    (saveCalls (startedOn .empty) [.create [97] false none, .create [98] false none]).getLast? =
      some (cursorMetadata 0x0a000003#32) ∧
    (CacheFile.timer none s.storage).savedMetadata = .ok (cursorMetadata 0x0a000002#32) ∧
    (s.Create [98] false none).1 = .ok (.v4 0x0a000003#32) ∧
    ((startedOn (CacheFile.timer none s.storage).db).Create [99] false none).1 =
      .ok (.v4 0x0a000003#32) := by
  exact ⟨_, rfl, by decide, by decide, by decide, by decide⟩

/-! ## Restarts -/

section Restarts

variable [Buckets] {s s' : Started CacheFile} (config : Store)
  (readRefused resetRefused : Option Error)

/-- `Store.Close`. -/
def Started.Close (s : Started CacheFile) (refused : Option Error) : CacheFile × Option Error :=
  CacheFile.FakeIPSaveMetadata refused s.metadata s.storage

namespace CacheFile

/-- The database was opened, and nothing is in the maps. -/
def Unbuffered (c : CacheFile) : Prop :=
  c = { opened c.db with saveMetadataTimer := c.saveMetadataTimer }

/-- The metadata is read back, and the records stay. -/
theorem FakeIPMetadata_saved {m : Metadata} (c : CacheFile)
    (read : Metadata.UnmarshalBinary m.MarshalBinary = .ok m) : ∃ db', SameRecords c.db db' ∧
      FakeIPMetadata none (opened (FakeIPSaveMetadata none m c).1.db) = (some m, opened db') := by
  obtain ⟨saved, eq, same, has⟩ := FakeIPSaveMetadata_frame none m c
  obtain ⟨db', frame, same', _⟩ := FakeIPMetadata_frame none (opened saved)
  have there : saved.get [bucketFakeIP] keyMetadata = some m.MarshalBinary := by
    rw [← show _ = saved from congrArg CacheFile.db eq]
    exact get_FakeIPSaveMetadata m c
  have long : m.MarshalBinary.length ≠ 0 := by
    simp [Metadata.MarshalBinary, Metadata.element]
  have found : (FakeIPMetadata none (opened saved)).1 = some m := by
    simp [FakeIPMetadata, metadataTx, opened, there, has, long, delete, liftError, read, bind,
      Except.bind]
  rw [eq]
  exact ⟨db', ⟨fun a => (same'.get_address a).trans (same.get_address a),
    fun is4 key => (same'.get_domain is4 key).trans (same.get_domain is4 key)⟩,
    Prod.ext found frame⟩

theorem Unbuffered.loads {c : CacheFile} {db' : DB} (unbuffered : c.Unbuffered)
    (same : SameRecords c.db db') :
    (opened db').FakeIPLoad = c.FakeIPLoad ∧
      (opened db').FakeIPLoadDomain = c.FakeIPLoadDomain := by
  rw [unbuffered]
  constructor
  · funext a
    simp only [FakeIPLoad, opened, same.get_address]
    rfl
  · funext domain isIPv6
    simp only [FakeIPLoadDomain, opened, viewDomain, same.get_domain]
    rfl

end CacheFile

theorem Start_unbuffered (db : DB) :
    (config.Start (CacheFile.opened db) readRefused resetRefused).storage.Unbuffered := by
  obtain ⟨db', eq, _⟩ := CacheFile.FakeIPMetadata_frame readRefused (CacheFile.opened db)
  unfold Store.Start
  dsimp only [FakeIPStorage.FakeIPMetadata, FakeIPStorage.FakeIPReset]
  rw [eq]
  split
  · split_ifs <;> rfl
  · rfl

theorem step_unbuffered {event : Event} (unbuffered : s.storage.Unbuffered)
    (h : s.step event = some s') : s'.storage.Unbuffered := by
  rcases saves_cases h with ⟨_, _, _, same | ⟨refused, fired⟩⟩ | ⟨domain, _, refused, allocated, _⟩
  · rwa [same]
  · rw [fired]
    show (CacheFile.timer refused s.storage).Unbuffered
    rw [unbuffered]
    unfold CacheFile.timer
    split <;> rfl
  · rw [allocated.storage, unbuffered]
    rfl

/-- A store that is closed and started again, on the same database and with the same ranges, goes
on from the same cursors and knows the same addresses. -/
theorem restart_resumes (db : DB) (events : List Event)
    (run : steps Started.step (config.Start (CacheFile.opened db) readRefused resetRefused) events =
      some s) :
    let again := config.Start (CacheFile.opened (s.Close none).1.db) none none
    again.metadata = s.metadata ∧ again.Lookup = s.Lookup ∧
      FakeIPLoadDomain again.storage = FakeIPLoadDomain s.storage := by
  obtain ⟨savable, unbuffered⟩ := steps_keeps
    (fun s => Savable config s ∧ s.storage.Unbuffered)
    (fun _ _ _ inv now => ⟨inv.1.step now, step_unbuffered inv.2 now⟩)
    ⟨Start_savable config _ readRefused resetRefused, Start_unbuffered config _ _ db⟩ run
  have ok := savable.metadata
  obtain ⟨db', same, read⟩ := s.storage.FakeIPMetadata_saved
    (Metadata.UnmarshalBinary_MarshalBinary _ ok.inet4Current ok.inet6Current)
  have started : config.Start (CacheFile.opened (s.Close none).1.db) none none =
      ⟨config, CacheFile.opened db', s.inet4Current, s.inet6Current⟩ := by
    unfold Store.Start Started.Close
    dsimp only [FakeIPStorage.FakeIPMetadata]
    rw [read]
    exact if_pos ⟨ok.inet4Range, ok.inet6Range⟩
  intro again
  rw [show again = _ from started]
  refine ⟨?_, unbuffered.loads same⟩
  obtain rfl := savable.toStore
  rfl

end Restarts

theorem restart_resumes_create : ∃ s,
    steps Started.step (startedOn .empty) [.create [97] false none] = some s ∧
    (startedOn (s.Close none).1.db).metadata = cursorMetadata 0x0a000002#32 :=
  ⟨_, rfl, (restart_resumes (NewStore (.v4 0x0a000000#32 8) .invalid) none none .empty
    [.create [97] false none] rfl).1⟩

end SingBox.FakeIP
