import SingBox.Cachefile.DnsCache

/-!
# Clearing the DNS cache

`ClearDNSCache` empties the map of pending entries and then deletes the bucket. It does not
wait for the flushers: one that has read an entry before may save it after the clear, and
as the sequence numbers begin again at one, it may take a new entry for the one it has read.

* `deleteBucket_settled` — what the second half leaves, when the first half found no flusher;
* `ClearDNSCache_barrier` — after a clear that found no flusher of the key, only what was
  queued since is loaded, and what was queued after it ends up in the database;
* `ClearDNSCache_not_barrier` — the two ways in which this fails when there is a flusher.
-/

namespace SingBox.Cachefile

open Lib Lib.Bolt List

/-- The time before a clear leaves nothing pending, and whatever the database has. -/
def Past.cleared : Past where
  count := 0
  Entry _ := False
  Stored _ := True
  stored_of_entry _ none := none.elim

/-- Deleting the bucket leaves what was queued since the map was emptied, if it still waits. -/
def Past.deleted (values : List Value) : Past where
  count := values.length
  Entry value := value ∈ values
  Stored loaded := loaded = none ∨ ∃ value ∈ values, loaded = some (value.1, Time.stored value.2)
  stored_of_entry value mem := .inr ⟨value, mem, rfl⟩

section Clear

variable [Buckets] {key : SaveCacheKey} {s s' : Sys}

theorem clearPending_settled (quiet : ¬ s.Flushing key) (h : s.step .clearPending = some s') :
    Settled key .cleared [] s' := by
  cases h
  exact .idle rfl quiet trivial

theorem deleteBucket_settled {values : List Value} (inv : Settled key .cleared values s)
    (h : s.step (.deleteBucket none) = some s') : Settled key (.deleted values) [] s' := by
  cases h
  have gone := loadDB_clear s.file.cacheID s.file.db key
  rcases inv with ⟨absent, quiet, _⟩ |
    ⟨entry, id, phase, pending, saving, waits, number, runs, only, fits⟩
  · exact .idle absent quiet (.inl gone)
  · have mem : entry.value ∈ values := by
      unfold Past.Waits at waits
      split at waits
      · exact waits.elim
      · rename_i last isLast
        rw [waits]
        exact mem_of_getLast? isLast
    refine .busy entry id phase pending saving mem
      (by simpa [Past.deleted, Past.cleared] using number) runs only ?_
    cases phase with
    | read => trivial
    | save old => exact fits
    | compare old => exact ⟨fits.1, fun _ => .inl gone⟩

variable {s₁ s₂ s₃ : Sys} {during after : List Label}

/-- Nothing from before the clear is left, whatever else happens. -/
theorem sound_of_clear (quiet : ¬ s.Flushing key) (empties : s.step .clearPending = some s₁)
    (runDuring : steps Sys.step s₁ during = some s₂)
    (deletes : s₂.step (.deleteBucket none) = some s₃)
    (runAfter : steps Sys.step s₃ after = some s') :
    Sound key (· ∈ queued key (during ++ after)) (· = none) s' := by
  have sound₁ : Sound key (· ∈ queued key (during ++ after)) (fun _ => True) s₁ := by
    cases empties
    refine ⟨nofun, ?_, .inl trivial⟩
    intro id entry runs
    exact absurd ⟨id, _, runs, rfl⟩ quiet
  rw [queued_append] at sound₁ ⊢
  have sound₂ := sound_of_steps sound₁ runDuring (fun _ mem => mem_append_left _ mem)
    (.inl trivial)
  have sound₃ : Sound key (· ∈ queued key during ++ queued key after) (· = none) s₃ := by
    cases deletes
    exact ⟨sound₂.pending, sound₂.saves, .inl (loadDB_clear ..)⟩
  exact sound_of_steps sound₃ runAfter (fun _ mem => mem_append_right _ mem) (.inl rfl)

theorem settled_of_clear (quiet : ¬ s.Flushing key) (empties : s.step .clearPending = some s₁)
    (runDuring : steps Sys.step s₁ during = some s₂)
    (deletes : s₂.step (.deleteBucket none) = some s₃)
    (runAfter : steps Sys.step s₃ after = some s')
    (noClear : ∀ l ∈ during ++ after, l.isClear = false)
    (saved : s'.failures key ≤ s.failures key)
    (few : (queued key (during ++ after)).length < 2 ^ 64) :
    Settled key (.deleted (queued key during)) (queued key after) s' := by
  -- the two halves of the clear fail no save, so no step in between may have failed one
  have le₁ : s.failures key ≤ s₁.failures key := failures_le empties key
  have le₂ := failures_le_of_steps runDuring key
  have le₃ : s₂.failures key ≤ s₃.failures key := failures_le deletes key
  have le₄ := failures_le_of_steps runAfter key
  rw [queued_append, length_append] at few
  have inv₂ := settled_of_steps (clearPending_settled quiet empties) runDuring
    (fun l mem => noClear l (mem_append_left _ mem)) (by omega)
    (by simp only [Past.cleared]; omega)
  exact settled_of_steps (deleteBucket_settled inv₂ deletes) runAfter
    (fun l mem => noClear l (mem_append_right _ mem)) (by omega) few

end Clear

/-- What a clear that found no flusher of the key means for the loads and for the database
in any later state.

* Only values queued since the clear began are loaded, also by a `LoadDNSCache` that looks
  into the database some time after it looked into the map. Saves may fail and there may be
  other clears.
* Without these, the last value queued after the clear ends up in the database. -/
theorem ClearDNSCache_barrier [Buckets] (key : SaveCacheKey) (s s' : Sys)
    (during after : List Label)
    (run : steps Sys.step s (.clearPending :: during ++ .deleteBucket none :: after) = some s')
    (quiet : ¬ s.Flushing key) :
    (∀ loaded, s'.file.LoadDNSCache key = some loaded →
      ∃ value ∈ queued key (during ++ after), value.LoadedAs loaded) ∧
    (∀ loaded, loadDB s'.file.cacheID s'.file.db key = some loaded →
      ∃ value ∈ queued key (during ++ after), value.LoadedAs loaded) ∧
    ((∀ l ∈ during ++ after, l.isClear = false) → s'.failures key ≤ s.failures key →
      (queued key (during ++ after)).length < 2 ^ 64 → ¬ s'.Flushing key →
      s'.file.saveDNSCache key = none ∧
      match (queued key after).getLast? with
      | some value =>
          loadDB s'.file.cacheID s'.file.db key = some (value.1, Time.stored value.2)
      | none =>
          loadDB s'.file.cacheID s'.file.db key = none ∨
          ∃ value ∈ queued key during,
            loadDB s'.file.cacheID s'.file.db key = some (value.1, Time.stored value.2)) := by
  obtain ⟨s₂, run₁, run₂⟩ := steps_split run
  obtain ⟨s₁, empties, runDuring⟩ := Option.bind_eq_some_iff.mp run₁
  obtain ⟨s₃, deletes, runAfter⟩ := Option.bind_eq_some_iff.mp run₂
  have sound := sound_of_clear quiet empties runDuring deletes runAfter
  refine ⟨fun _ h => sound.load h, fun _ h => sound.load_stored h, ?_⟩
  intro noClear saved few quiet'
  have inv := settled_of_clear quiet empties runDuring deletes runAfter noClear saved few
  obtain ⟨absent, stored⟩ := inv.of_not_flushing quiet'
  refine ⟨absent, ?_⟩
  cases last : (queued key after).getLast? with
  | some value => exact (Past.expected_last last).mp stored
  | none =>
    unfold Past.Expected at stored
    rw [last] at stored
    exact stored

/-- A response was saved before the clear, and another one is queued after it. -/
theorem ClearDNSCache_barrier_saved :
    let before : List Label :=
      [.queue 0 ⟨"dns", "a.", 1⟩ ([7], 0), .flush 0 none, .flush 0 none, .flush 0 none]
    let after : List Label := [.queue 1 ⟨"dns", "a.", 1⟩ ([8], 0), .flush 1 none]
    ∃ s s', steps Sys.step (Sys.start none .empty) before = some s ∧
      s.file.LoadDNSCache ⟨"dns", "a.", 1⟩ = some ([7], 0) ∧
      steps Sys.step s (.clearPending :: [] ++ .deleteBucket none :: after) = some s' ∧
      ∀ loaded, s'.file.LoadDNSCache ⟨"dns", "a.", 1⟩ = some loaded →
        ∃ value ∈ queued ⟨"dns", "a.", 1⟩ ([] ++ after), value.LoadedAs loaded := by
  intro before after
  obtain ⟨s, s', run, loaded, ended, cleared⟩ : ∃ s s',
      steps Sys.step (Sys.start none .empty) before = some s ∧
      s.file.LoadDNSCache ⟨"dns", "a.", 1⟩ = some ([7], 0) ∧ (∀ id, s.flushers id = none) ∧
      steps Sys.step s (.clearPending :: [] ++ .deleteBucket none :: after) = some s' := by
    refine ⟨_, _, rfl, by decide, fun id => ?_, rfl⟩
    by_cases same : id = 0
    · subst same
      rfl
    · iterate 4 refine (Function.update_of_ne same ..).trans ?_
      rfl
  refine ⟨s, s', run, loaded, cleared, (ClearDNSCache_barrier _ s s' [] after cleared ?_).1⟩
  rintro ⟨id, flusher, runs, _⟩
  cases (ended id).symm.trans runs

/-- A flusher that has read an entry before the clear saves it after the clear; and one that
has saved an entry before the clear takes the entry queued after it for its own and
deletes it, so that what was queued is neither pending nor in the database. -/
theorem ClearDNSCache_not_barrier :
    (∃ s, steps Sys.step (Sys.start none .empty)
        [.queue 0 ⟨"dns", "a.", 1⟩ ([7], 0), .flush 0 none,
          .clearPending, .deleteBucket none, .flush 0 none, .flush 0 none] = some s ∧
      s.flushers 0 = none ∧ s.file.LoadDNSCache ⟨"dns", "a.", 1⟩ = some ([7], 0)) ∧
    (∃ s, steps Sys.step (Sys.start none .empty)
        [.queue 0 ⟨"dns", "a.", 1⟩ ([7], 0), .flush 0 none, .flush 0 none,
          .clearPending, .deleteBucket none, .queue 1 ⟨"dns", "a.", 1⟩ ([8], 0),
          .flush 0 none, .flush 1 none] = some s ∧
      s.flushers 0 = none ∧ s.flushers 1 = none ∧ s.warnings = [] ∧
      s.file.LoadDNSCache ⟨"dns", "a.", 1⟩ = none) :=
  ⟨⟨_, rfl, rfl, by decide⟩, ⟨_, rfl, rfl, rfl, rfl, by decide⟩⟩

end SingBox.Cachefile
