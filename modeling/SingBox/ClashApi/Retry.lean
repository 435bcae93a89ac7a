import SingBox.ClashApi.Settled

/-!
# Retrying a failed apply

A failed apply leaves a mixture of the snapshot's definitions and the file's. As
long as the file is not edited, that mixture is settled, so the apply can be tried
again until it succeeds.

* `applyEntries_mixed` — whatever fails, everything that runs is from the snapshot
  or from the file;
* `retry_runs` — if the file is only edited while the instance runs its snapshot,
  every successful apply makes the instance match the file.
-/

namespace SingBox.ClashApi

open Lib Option

variable {ρ φ : Type}

/-- The entry is from one of the lists, and the tag is its own. -/
def FromEither (applied desired : List (Entry ρ φ)) (tag : String) (entry : Entry ρ φ) : Prop :=
  entry.tag = tag ∧ (entry ∈ applied ∨ entry ∈ desired)

/-- Everything of the kind that runs is an entry of one of the lists, under its tag. -/
def Mixed (kind : Kind) (w : World ρ φ) (applied desired : List (Entry ρ φ)) : Prop :=
  ∀ tag entry, w.running kind tag = some entry → FromEither applied desired tag entry

variable {kind : Kind} {w : World ρ φ} {applied : List (Entry ρ φ)} {s : State ρ φ}

variable {desired : List (Entry ρ φ)}

theorem Mixed.moves {w' : World ρ φ} (mixed : Mixed kind w applied desired)
    (moves : Moves kind (FromEither applied desired) w w') : Mixed kind w' applied desired := by
  intro tag entry h
  rcases moves.running h with before | new
  · exact mixed tag entry before
  · exact new

/-- An entry that runs under a tag of both lists is the one of them. -/
theorem Mixed.eq_or_eq (mixed : Mixed kind w applied desired) (nodupApplied : NodupTags applied)
    (nodupDesired : NodupTags desired) {have_ want current : Entry ρ φ} (memHave : have_ ∈ applied)
    (memWant : want ∈ desired) (same : have_.tag = want.tag)
    (running : w.running kind want.tag = some current) : current = have_ ∨ current = want := by
  obtain ⟨tag, inApplied | inDesired⟩ := mixed want.tag current running
  · left
    exact List.inj_on_of_nodup_map nodupApplied inApplied memHave (tag.trans same.symm)
  · right
    exact List.inj_on_of_nodup_map nodupDesired inDesired memWant tag

namespace Env

variable [DecidableEq ρ] [DecidableEq φ] (env : Env ρ φ)

/-- A turn of the loop over the file brings up nothing else: a reload leaves the wanted
entry, as what runs has its rest. -/
theorem applyStep_mixed {kind : Kind} {applied : List (Entry ρ φ)}
    (nodupApplied : NodupTags applied) (nodupDesired : NodupTags desired) (p : Progress ρ φ)
    (want : Entry ρ φ) (memWant : want ∈ desired) (sub : ∀ entry ∈ p.applied, entry ∈ applied)
    (mixed : Mixed kind p.world applied desired) :
    (∀ entry ∈ (env.applyStep kind p want).state.applied, entry ∈ applied) ∧
      Moves kind (FromEither applied desired) p.world
        (env.applyStep kind p want).state.world := by
  have okWant : FromEither applied desired want.tag want := ⟨rfl, .inr memWant⟩
  have okReload : ∀ have_ ∈ p.applied, have_.SameRest want →
      ∀ current, p.world.running kind want.tag = some current →
        FromEither applied desired want.tag { current with field := want.field } := by
    intro have_ memHave sameRest current hcurrent
    have currentRest : current.SameRest want := by
      rcases mixed.eq_or_eq nodupApplied nodupDesired (sub have_ memHave) memWant sameRest.1
        hcurrent with rfl | rfl
      · exact sameRest
      · exact ⟨rfl, rfl, rfl⟩
    rw [currentRest.with_field]
    exact okWant
  obtain ⟨applied_eq, moves⟩ := env.applyStep_moves kind p want okWant
    (fun have_ mem => ⟨rfl, .inl (sub have_ mem)⟩) okReload
  refine ⟨?_, moves⟩
  rw [applied_eq]
  intro entry mem
  exact sub entry (List.mem_filter.mp mem).1

/-- Whatever fails, everything that runs is from the snapshot or from the file. -/
theorem applyEntries_mixed {kind : Kind} {w : World ρ φ} {applied : List (Entry ρ φ)}
    (nodupApplied : NodupTags applied) (nodupDesired : NodupTags desired)
    (mixed : Mixed kind w applied desired) :
    Mixed kind (env.applyEntries kind w applied desired).1 applied desired := by
  have first := loop_invariant
    (fun p : Progress ρ φ => (∀ entry ∈ p.applied, entry ∈ applied) ∧
      Moves kind (FromEither applied desired) w p.world)
    (fun p want inv mem => by
      obtain ⟨sub, moves⟩ := inv
      obtain ⟨sub', more⟩ := env.applyStep_mixed nodupApplied nodupDesired p want mem sub
        (mixed.moves moves)
      exact ⟨sub', moves.trans more⟩)
    { world := w, applied := byTag applied } desired
    ⟨by rw [byTag_of_nodup nodupApplied]; exact fun _ mem => mem, .refl w⟩ (along_mem _ desired)
  exact mixed.moves (env.applyEntries_moves_of_loop kind first.2)

theorem applyEntries_keeps (kind : Kind) {applied desired : Kind → List (Entry ρ φ)}
    (nodupApplied : ∀ kind, NodupTags (applied kind))
    (nodupDesired : ∀ kind, NodupTags (desired kind))
    (mixed : ∀ kind, Mixed kind w (applied kind) (desired kind)) (other : Kind) :
    Mixed other (env.applyEntries kind w (applied kind) (desired kind)).1 (applied other)
      (desired other) := by
  by_cases isKind : other = kind
  · subst isKind
    exact env.applyEntries_mixed (nodupApplied other) (nodupDesired other) (mixed other)
  · intro tag entry h
    rw [(env.applyEntries_moves kind w _ _).other isKind] at h
    exact mixed other tag entry h

end Env

/-! ## Runs -/

/-- No inbound shares its tag with an endpoint. -/
def Config.Apart (config : Config ρ φ) : Prop :=
  ∀ inbound ∈ config.inbounds, ∀ endpoint ∈ config.endpoints, inbound.tag ≠ endpoint.tag

/-- The tags of the file and of the snapshot are in order, and the instance runs a
mixture of the two. -/
structure State.Consistent (s : State ρ φ) : Prop where
  fileTags : s.file.WellTagged
  fileApart : s.file.Apart
  appliedTags : s.applied.WellTagged
  appliedApart : s.applied.Apart
  mixed : ∀ kind, Mixed kind s.world (s.applied.entries kind) (s.file.entries kind)

theorem Mixed.of_running (nodup : NodupTags applied)
    (running : ∀ tag, w.running kind tag = lookup applied tag) (desired : List (Entry ρ φ)) :
    Mixed kind w applied desired := by
  intro tag entry h
  rw [running] at h
  obtain ⟨mem, same⟩ := (lookup_eq_some nodup).mp h
  exact ⟨same, .inl mem⟩

/-- A mixture is settled: the file has not moved since the apply that made it. -/
theorem State.Consistent.allSettled (consistent : s.Consistent) : s.AllSettled := by
  intro kind
  have mixed := consistent.mixed kind
  have nodupApplied := consistent.appliedTags.nodup kind
  have nodupFile := consistent.fileTags.nodup kind
  refine ⟨?_, ?_, ?_⟩
  · intro tag runs
    obtain ⟨entry, hentry⟩ := ne_none_iff_exists'.mp runs
    obtain ⟨rfl, inApplied | inFile⟩ := mixed tag entry hentry
    · exact .inl (List.mem_map_of_mem inApplied)
    · exact .inr (List.mem_map_of_mem inFile)
  · intro entry inApplied inFile
    cases hrunning : s.world.running kind entry.tag with
    | some current =>
      left
      rcases mixed.eq_or_eq nodupApplied nodupFile inApplied inFile rfl hrunning with rfl | rfl <;>
        rfl
    | none =>
      right
      unfold World.get
      rw [hrunning]
      cases kind with
      | endpoint => rfl
      | inbound =>
        -- an endpoint of that tag would be in the snapshot or in the file with the inbound
        by_contra runs
        obtain ⟨other, hother⟩ := ne_none_iff_exists'.mp runs
        obtain ⟨same, otherApplied | otherFile⟩ := consistent.mixed .endpoint _ other hother
        · exact consistent.appliedApart entry inApplied other otherApplied same.symm
        · exact consistent.fileApart entry inFile other otherFile same.symm
  · intro have_ inApplied want inFile _ sameRest current hcurrent
    rcases mixed.eq_or_eq nodupApplied nodupFile inApplied inFile sameRest.1 hcurrent with rfl | rfl
    · exact sameRest
    · exact ⟨rfl, rfl, rfl⟩

variable [DecidableEq ρ] [DecidableEq φ]

/-- What applying the inbounds and applying the endpoints both keep, an apply keeps. -/
theorem applyConfig_keeps (env : Env ρ φ) {P : World ρ φ → Prop} (before : P s.world)
    (keeps : ∀ kind w, P w →
      P (env.applyEntries kind w (s.applied.entries kind) (s.file.entries kind)).1) :
    P (applyConfig env s).1.world := by
  have inbounds := keeps .inbound _ before
  unfold applyConfig Env.applyInbounds Env.applyEndpoints
  split
  all_goals
    rename_i hinbounds
    simp only [Config.entries, hinbounds] at inbounds
  · exact inbounds
  · have endpoints := keeps .endpoint _ inbounds
    split
    all_goals
      rename_i hendpoints
      simp only [Config.entries, hendpoints] at endpoints
      exact endpoints

/-- Whether or not it fails, an apply leaves a mixture of the snapshot and the file. -/
theorem applyConfig_mixed (env : Env ρ φ) (consistent : s.Consistent) :
    ∀ kind, Mixed kind (applyConfig env s).1.world (s.applied.entries kind)
      (s.file.entries kind) :=
  applyConfig_keeps (P := fun w => ∀ kind, Mixed kind w _ _) env consistent.mixed fun kind _ =>
    env.applyEntries_keeps kind consistent.appliedTags.nodup consistent.fileTags.nodup

theorem applyConfig_consistent (env : Env ρ φ) (consistent : s.Consistent) :
    (applyConfig env s).1.Consistent := by
  have mixed := applyConfig_mixed env consistent
  have complete := applyConfig_complete env s consistent.fileTags consistent.appliedTags
    consistent.allSettled
  have file := applyConfig_file env s
  have fileTags := file.symm ▸ consistent.fileTags
  have fileApart := file.symm ▸ consistent.fileApart
  rcases applyConfig_ends env s with ⟨_, _, same⟩ | ⟨response, success, moved⟩
  · refine ⟨fileTags, fileApart, ?_, ?_, ?_⟩
    · rw [same]
      exact consistent.appliedTags
    · rw [same]
      exact consistent.appliedApart
    · rw [file, same]
      exact mixed
  · refine ⟨fileTags, fileApart, moved ▸ consistent.fileTags, moved ▸ consistent.fileApart, ?_⟩
    rw [moved]
    intro kind
    exact .of_running (consistent.fileTags.nodup kind) (complete response success kind) _

/-- The file is edited only while the instance runs its snapshot, and stays in order. -/
def EditedWhenApplied (s : State ρ φ) : Action ρ φ → Prop
  | .edit file => s.world.Matches s.applied ∧ file.WellTagged ∧ file.Apart
  | .apply _ => True

/-- If a failed apply is retried until it succeeds before the file is edited again,
every successful apply makes the instance match the file. -/
theorem retry_runs (config : Config ρ φ) (tagged : config.WellTagged) (apart : config.Apart)
    (actions : List (Action ρ φ))
    (edited : Along step EditedWhenApplied (State.started config) actions) :
    Along step Complete (State.started config) actions := by
  have started : (State.started config).Consistent :=
    ⟨tagged, apart, tagged, apart, fun kind => .of_running (tagged.nodup kind) (fun _ => rfl) _⟩
  apply along_mono State.Consistent _ _ _ actions started edited
  · rintro s (file | env) consistent _
    · trivial
    · exact applyConfig_complete env s consistent.fileTags consistent.appliedTags
        consistent.allSettled
  · rintro s (file | env) consistent now
    · obtain ⟨runs, fileTags, fileApart⟩ := now
      exact ⟨fileTags, fileApart, consistent.appliedTags, consistent.appliedApart,
        fun kind => .of_running (consistent.appliedTags.nodup kind) (runs kind) _⟩
    · exact applyConfig_consistent env consistent

/-- The second port is taken at the first attempt. -/
theorem retry_runs_twice :
    Along step Complete (State.started (twoInbounds 1 10))
      [.edit (twoInbounds 2 20), .apply (portEnv (some 20)), .apply (portEnv none)] := by
  apply retry_runs _ (twoInbounds_wellTagged 1 10) nofun
  exact ⟨⟨fun _ _ => rfl, twoInbounds_wellTagged 2 20, nofun⟩, trivial, trivial, trivial⟩

end SingBox.ClashApi
