import SingBox.ClashApi.Moves
import SingBox.Lib.FirstMatch
import SingBox.Lib.Keyed

/-!
# When a successful apply is a complete one

A successful apply leaves alone what the snapshot says is right already. After an
apply that failed half-way the snapshot may be wrong about that, and it stays wrong
if the file is edited before the next apply.

* `applyEntries_ok` — what one kind of component runs after a successful apply, from
  a settled state;
* `apply_runs` — in every run whose applies start settled, each successful one makes
  the instance match the file.
-/

namespace SingBox.ClashApi

open Lib Function List

variable {ρ φ : Type}

/-! ## Lists by tag -/

def NodupTags (entries : List (Entry ρ φ)) : Prop := (entries.map (·.tag)).Nodup

def lookup (entries : List (Entry ρ φ)) (tag : String) : Option (Entry ρ φ) :=
  entries.find? fun entry => entry.tag = tag

variable {entries : List (Entry ρ φ)}

theorem lookup_eq_some (nodup : NodupTags entries) {tag : String} {entry : Entry ρ φ} :
    lookup entries tag = some entry ↔ entry ∈ entries ∧ entry.tag = tag := by
  refine ⟨fun h => ⟨mem_of_find?_eq_some h, by simpa using find?_some h⟩, ?_⟩
  rintro ⟨mem, rfl⟩
  obtain ⟨before, after, rfl⟩ := append_of_mem mem
  exact find?_item nodup

theorem NodupTags.filter (nodup : NodupTags entries) {keep : Entry ρ φ → Bool} :
    NodupTags (entries.filter keep) :=
  Nodup.sublist (filter_sublist.map _) nodup

theorem NodupTags.fresh {done rest : List (Entry ρ φ)} {entry : Entry ρ φ}
    (nodup : NodupTags entries) (hsplit : entries = done ++ entry :: rest) :
    entry.tag ∉ done.map (·.tag) := by
  unfold NodupTags at nodup
  rw [hsplit, map_append, map_cons, nodup_middle, nodup_cons] at nodup
  exact fun mem => nodup.1 (mem_append_left _ mem)

theorem filter_snoc (entries done : List (Entry ρ φ)) (want : Entry ρ φ) :
    (entries.filter fun entry => entry.tag ∉ done.map (·.tag)).filter
        (fun entry => entry.tag ≠ want.tag) =
      entries.filter fun entry => entry.tag ∉ (done ++ [want]).map (·.tag) := by
  rw [filter_filter]
  apply filter_congr
  intro entry _
  by_cases hdone : entry.tag ∈ done.map (·.tag) <;> by_cases hwant : entry.tag = want.tag <;>
    simp_all

theorem lookup_eq_none {tag : String} : lookup entries tag = none ↔ tag ∉ entries.map (·.tag) := by
  simp [lookup]

theorem byTag_of_nodup (nodup : NodupTags entries) : byTag entries = entries :=
  foldl_replace Entry.tag nodup

/-! ## Settled states -/

/-- Where an apply can succeed without being complete: it removes nothing that only
runs, it touches no unchanged entry that is live, and it reloads a field whatever
the rest of the running definition is. None of this does harm if -/
structure Settled (kind : Kind) (w : World ρ φ) (applied desired : List (Entry ρ φ)) : Prop where
  /-- what runs is in the snapshot or in the file; -/
  known : ∀ tag, w.running kind tag ≠ none →
    tag ∈ applied.map (·.tag) ∨ tag ∈ desired.map (·.tag)
  /-- an entry that did not change runs as it is, or is down and found to be; -/
  unchanged : ∀ entry ∈ applied, entry ∈ desired →
    w.running kind entry.tag = some entry ∨ w.get kind entry.tag = none
  /-- one that changed in its field runs, if at all, with the rest that it has in the file. -/
  reloadable : ∀ have_ ∈ applied, ∀ want ∈ desired, have_ ≠ want → have_.SameRest want →
    ∀ current, w.running kind want.tag = some current → current.SameRest want

/-- What a loop over the file has done. -/
structure Processed (kind : Kind) (w : World ρ φ) (applied done : List (Entry ρ φ))
    (p : Progress ρ φ) : Prop where
  applied_eq : p.applied = applied.filter fun entry => entry.tag ∉ done.map (·.tag)
  running : ∀ entry ∈ done, p.world.running kind entry.tag = some entry
  untouched : ∀ tag, tag ∉ done.map (·.tag) → p.world.running kind tag = w.running kind tag
  other : ∀ kind', kind' ≠ kind → p.world.running kind' = w.running kind'

namespace Processed

variable {kind : Kind} {w : World ρ φ} {applied done : List (Entry ρ φ)} {p p' : Progress ρ φ}

theorem init (w : World ρ φ) (applied : List (Entry ρ φ)) :
    Processed kind w applied [] { world := w, applied } :=
  ⟨by simp, by simp, fun _ _ => rfl, fun _ _ => rfl⟩

variable (inv : Processed kind w applied done p)
include inv

theorem set {want : Entry ρ φ} (fresh : want.tag ∉ done.map (·.tag))
    (happlied : p'.applied = p.applied.filter fun entry => entry.tag ≠ want.tag)
    (hrunning : p'.world.running = (p.world.set kind want.tag (some want)).running) :
    Processed kind w applied (done ++ [want]) p' where
  applied_eq := by
    rw [happlied, inv.applied_eq]
    exact filter_snoc applied done want
  running := by
    intro entry mem
    rw [hrunning, World.running_set]
    rcases mem_append.mp mem with before | last
    · have differs : entry.tag ≠ want.tag := by
        intro same
        exact fresh (same ▸ mem_map_of_mem before)
      rw [update_of_ne differs]
      exact inv.running entry before
    · rw [mem_singleton.mp last, update_self]
  untouched := by
    intro tag hnot
    rw [map_append, mem_append, not_or] at hnot
    have differs : tag ≠ want.tag := by simpa using hnot.2
    rw [hrunning, World.running_set, update_of_ne differs]
    exact inv.untouched tag hnot.1
  other := by
    intro kind' hkind
    rw [hrunning, World.running_set_ne _ hkind]
    exact inv.other kind' hkind

/-- `Get` sees the same thing as before the loop, for an entry still to come. -/
theorem get_eq {tag : String} (fresh : tag ∉ done.map (·.tag)) :
    p.world.get kind tag = w.get kind tag := by
  unfold World.get
  rw [inv.untouched tag fresh]
  cases kind with
  | inbound => rw [inv.other .endpoint (by decide)]
  | endpoint => rfl

theorem mem_of_find {want have_ : Entry ρ φ}
    (found : p.applied.find? (fun entry => entry.tag = want.tag) = some have_) :
    have_ ∈ applied := by
  have mem := mem_of_find?_eq_some found
  rw [inv.applied_eq] at mem
  exact (mem_filter.mp mem).1

theorem mem_tags {tag : String} :
    tag ∈ p.applied.map (·.tag) ↔ tag ∈ applied.map (·.tag) ∧ tag ∉ done.map (·.tag) := by
  rw [inv.applied_eq]
  constructor
  · intro mem
    obtain ⟨entry, hentry, rfl⟩ := mem_map.mp mem
    obtain ⟨mem, hnot⟩ := mem_filter.mp hentry
    exact ⟨mem_map_of_mem mem, by simpa using hnot⟩
  · rintro ⟨mem, hnot⟩
    obtain ⟨entry, hentry, rfl⟩ := mem_map.mp mem
    exact mem_map_of_mem (mem_filter.mpr ⟨hentry, by simpa using hnot⟩)

end Processed

variable (env : Env ρ φ)

/-- The loop over what is gone empties exactly its tags. -/
theorem Env.removeLoop_ok {kind : Kind} {p last : Progress ρ φ}
    {tags : List String} (h : loop (env.removeStep kind) p tags = (last, none)) :
    (∀ tag ∈ tags, last.world.running kind tag = none) ∧
      ∀ tag ∉ tags, last.world.running kind tag = p.world.running kind tag := by
  apply loop_finished
    (fun done (q : Progress ρ φ) => (∀ tag ∈ done, q.world.running kind tag = none) ∧
      ∀ tag ∉ done, q.world.running kind tag = p.world.running kind tag)
    tags _ p last ⟨by simp, fun _ _ => rfl⟩ h
  intro done tag rest q q' _ inv turn
  obtain ⟨gone, kept⟩ := inv
  have running := env.removeStep_next turn
  refine ⟨?_, ?_⟩
  · intro tag' mem
    rw [running, World.running_set]
    by_cases same : tag' = tag
    · rw [same, update_self]
    · rw [update_of_ne same]
      exact gone tag' (by simpa [same] using mem)
  · intro tag' hnot
    rw [mem_append, not_or] at hnot
    have differs : tag' ≠ tag := by simpa using hnot.2
    rw [running, World.running_set, update_of_ne differs]
    exact kept tag' hnot.1

namespace Env

variable [DecidableEq ρ] [DecidableEq φ] (env : Env ρ φ)

variable {kind : Kind} {w : World ρ φ} {applied desired : List (Entry ρ φ)}

/-- From a settled state every turn that goes on leaves its entry running as wanted. -/
theorem applyStep_processed (settled : Settled kind w applied desired) {done : List (Entry ρ φ)}
    {want : Entry ρ φ} (mem : want ∈ desired) (fresh : want.tag ∉ done.map (·.tag))
    {p p' : Progress ρ φ} (inv : Processed kind w applied done p)
    (h : env.applyStep kind p want = .next p') : Processed kind w applied (done ++ [want]) p' := by
  obtain ⟨happlied, outcome⟩ := env.applyStep_next h
  rcases outcome with created | ⟨hfind, live, idle⟩ |
    ⟨have_, current, hfind, differs, sameRest, hcurrent, reloaded⟩
  · exact inv.set fresh happlied created.running
  · -- nothing was done, and nothing had to be
    have running : w.running kind want.tag = some want := by
      rcases settled.unchanged want (inv.mem_of_find hfind) mem with running | down
      · exact running
      · rw [inv.get_eq fresh, down] at live
        exact absurd rfl live
    apply inv.set fresh happlied
    rw [idle]
    simp [World.set, inv.untouched want.tag fresh, ← running]
  · rw [inv.untouched want.tag fresh] at hcurrent
    have currentRest := settled.reloadable have_ (inv.mem_of_find hfind) want mem differs sameRest
      current hcurrent
    rw [currentRest.with_field] at reloaded
    exact inv.set fresh happlied reloaded

/-- The same for the loop, at any split of the file. -/
theorem applyStep_keeps (nodup : NodupTags desired) (settled : Settled kind w applied desired)
    (done : List (Entry ρ φ)) (want : Entry ρ φ) (rest : List (Entry ρ φ)) (p p' : Progress ρ φ)
    (hsplit : desired = done ++ want :: rest) (inv : Processed kind w applied done p)
    (turn : env.applyStep kind p want = .next p') : Processed kind w applied (done ++ [want]) p' :=
  env.applyStep_processed settled (by rw [hsplit]; simp) (nodup.fresh hsplit) inv turn

theorem applyEntries_ok {w' : World ρ φ} {outcome : Outcome} (nodupApplied : NodupTags applied)
    (nodupDesired : NodupTags desired) (settled : Settled kind w applied desired)
    (h : env.applyEntries kind w applied desired = (w', .ok outcome)) :
    ∀ tag, w'.running kind tag = lookup desired tag := by
  unfold applyEntries at h
  rw [byTag_of_nodup nodupApplied] at h
  split at h
  · cases h
  rename_i p hfirst
  split at h
  · cases h
  rename_i last hsecond
  cases h
  have first : Processed kind w applied desired p :=
    loop_finished (Processed kind w applied) desired (env.applyStep_keeps nodupDesired settled) _ p
      (.init w applied) hfirst
  obtain ⟨gone, kept⟩ := env.removeLoop_ok hsecond
  have leftover : ∀ tag, tag ∈ env.order (p.applied.map (·.tag)) ↔
      tag ∈ applied.map (·.tag) ∧ tag ∉ desired.map (·.tag) := by
    intro tag
    rw [(env.order_perm _).mem_iff]
    exact first.mem_tags
  intro tag
  cases hlookup : lookup desired tag with
  | some want =>
    -- the second loop leaves the tags of the file alone
    obtain ⟨mem, rfl⟩ := (lookup_eq_some nodupDesired).mp hlookup
    have inFile : want.tag ∈ desired.map (·.tag) := mem_map_of_mem mem
    rw [kept want.tag (fun hmem => ((leftover _).mp hmem).2 inFile)]
    exact first.running want mem
  | none =>
    -- a tag that is gone was in the snapshot, and taken down, or did not run at all
    have notInFile := lookup_eq_none.mp hlookup
    by_cases inSnapshot : tag ∈ applied.map (·.tag)
    · exact gone tag ((leftover tag).mpr ⟨inSnapshot, notInFile⟩)
    · rw [kept tag (fun hmem => inSnapshot ((leftover tag).mp hmem).1),
        first.untouched tag notInFile]
      by_contra runs
      rcases settled.known tag runs with h | h
      · exact inSnapshot h
      · exact notInFile h

end Env

/-! ## Runs -/

/-- The tags of each kind are distinct and not empty. -/
structure Config.WellTagged (config : Config ρ φ) : Prop where
  nodup : ∀ kind, NodupTags (config.entries kind)
  nonempty : ∀ kind, ∀ entry ∈ config.entries kind, entry.tag ≠ ""

/-- The instance runs the entries of the config, and nothing else. -/
def World.Matches (w : World ρ φ) (config : Config ρ φ) : Prop :=
  ∀ kind tag, w.running kind tag = lookup (config.entries kind) tag

namespace State

/-- The instance built from a config, before any edit. -/
def started (config : Config ρ φ) : State ρ φ where
  file := config
  applied := config
  world := { running := fun kind tag => lookup (config.entries kind) tag, log := [] }

def AllSettled (s : State ρ φ) : Prop :=
  ∀ kind, Settled kind s.world (s.applied.entries kind) (s.file.entries kind)

end State

/-- The endpoints are settled in whatever world runs the same endpoints. -/
theorem Settled.endpoint_congr {w w' : World ρ φ} {applied desired : List (Entry ρ φ)}
    (settled : Settled .endpoint w applied desired)
    (same : w'.running .endpoint = w.running .endpoint) :
    Settled .endpoint w' applied desired where
  known := by
    rw [same]
    exact settled.known
  unchanged := by
    have get_eq : ∀ tag, w'.get .endpoint tag = w.get .endpoint tag := by
      intro tag
      unfold World.get
      rw [same]
    intro entry inApplied inDesired
    rw [same, get_eq]
    exact settled.unchanged entry inApplied inDesired
  reloadable := by
    rw [same]
    exact settled.reloadable

/-- An instance that runs its snapshot is settled, whatever the file says. -/
theorem Settled.of_running {kind : Kind} {w : World ρ φ} {applied desired : List (Entry ρ φ)}
    (nodup : NodupTags applied) (running : ∀ tag, w.running kind tag = lookup applied tag) :
    Settled kind w applied desired where
  known := by
    intro tag runs
    left
    by_contra absent
    exact runs ((running tag).trans (lookup_eq_none.mpr absent))
  unchanged := by
    intro entry mem _
    left
    rw [running]
    exact (lookup_eq_some nodup).mpr ⟨mem, rfl⟩
  reloadable := by
    intro have_ mem want _ _ sameRest current hcurrent
    rw [running, ← sameRest.1, (lookup_eq_some nodup).mpr ⟨mem, rfl⟩] at hcurrent
    cases hcurrent
    exact sameRest

/-- What happens to an instance: its file is edited, or applied. -/
inductive Action (ρ φ : Type) where
  | edit (file : Config ρ φ)
  | apply (env : Env ρ φ)

variable [DecidableEq ρ] [DecidableEq φ] (s : State ρ φ)

def step : Action ρ φ → Turn (State ρ φ) Empty
  | .edit file => .next { s with file := file }
  | .apply env => .next (applyConfig env s).1

/-- An edit keeps the tags in order; an apply starts from a settled state. -/
def Admitted : Action ρ φ → Prop
  | .edit file => file.WellTagged
  | .apply _ => s.AllSettled

/-- A successful apply makes the instance match the file. -/
def Complete : Action ρ φ → Prop
  | .edit _ => True
  | .apply env =>
      ∀ response, (applyConfig env s).2 = .ok response →
        (applyConfig env s).1.world.Matches s.file

theorem applyConfig_file :
    (applyConfig env s).1.file = s.file := by
  unfold applyConfig
  split
  · rfl
  · split <;> rfl

/-- The snapshot moves to the file exactly when the apply succeeds. -/
theorem applyConfig_ends :
    (∃ err, (applyConfig env s).2 = .error err ∧ (applyConfig env s).1.applied = s.applied) ∨
      ∃ response, (applyConfig env s).2 = .ok response ∧
        (applyConfig env s).1.applied = s.file := by
  unfold applyConfig
  split
  · exact .inl ⟨_, rfl, rfl⟩
  · split
    · exact .inl ⟨_, rfl, rfl⟩
    · exact .inr ⟨_, rfl, rfl⟩

/-- A successful apply is one of the inbounds and one of the endpoints. -/
theorem applyConfig_ok {response : Response} (success : (applyConfig env s).2 = .ok response) :
    ∃ w inbounds endpoints,
      env.applyEntries .inbound s.world s.applied.inbounds s.file.inbounds = (w, .ok inbounds) ∧
      env.applyEntries .endpoint w s.applied.endpoints s.file.endpoints =
        ((applyConfig env s).1.world, .ok endpoints) ∧
      Moves .inbound (fun _ _ => True) s.world w ∧
      Moves .endpoint (fun _ _ => True) w (applyConfig env s).1.world := by
  have first := env.applyEntries_moves .inbound s.world s.applied.inbounds s.file.inbounds
  unfold applyConfig Env.applyInbounds Env.applyEndpoints at success ⊢
  split at success
  · cases success
  rename_i w inbounds hinbounds
  have second := env.applyEntries_moves .endpoint w s.applied.endpoints s.file.endpoints
  split at success
  · cases success
  rename_i w' endpoints hendpoints
  rw [hinbounds] at first
  rw [hendpoints] at second
  exact ⟨w, inbounds, endpoints, hinbounds, hendpoints, first, second⟩

theorem applyConfig_complete (file : s.file.WellTagged)
    (applied : s.applied.WellTagged) (settled : s.AllSettled) : Complete s (.apply env) := by
  intro response success
  obtain ⟨w, _, _, hinbounds, hendpoints, first, second⟩ := applyConfig_ok env s success
  intro kind
  cases kind with
  | inbound =>
    rw [second.other (by decide)]
    exact env.applyEntries_ok (applied.nodup .inbound) (file.nodup .inbound) (settled .inbound)
      hinbounds
  | endpoint =>
    exact env.applyEntries_ok (applied.nodup .endpoint) (file.nodup .endpoint)
      ((settled .endpoint).endpoint_congr (first.other (by decide))) hendpoints

/-- In every run whose edits keep the tags in order and whose applies start from a
settled state, every successful apply makes the instance match the file. -/
theorem apply_runs (config : Config ρ φ) (tagged : config.WellTagged)
    (actions : List (Action ρ φ)) (admitted : Along step Admitted (State.started config) actions) :
    Along step Complete (State.started config) actions := by
  apply along_mono (fun s : State ρ φ => s.file.WellTagged ∧ s.applied.WellTagged) _ _ _ actions
    ⟨tagged, tagged⟩ admitted
  · rintro s (file | env) ⟨hfile, happlied⟩ now
    · trivial
    · exact applyConfig_complete env s hfile happlied now
  · rintro s (file | env) ⟨hfile, happlied⟩ now
    · exact ⟨now, happlied⟩
    · show (applyConfig env s).1.file.WellTagged ∧ (applyConfig env s).1.applied.WellTagged
      rw [applyConfig_file]
      refine ⟨hfile, ?_⟩
      rcases applyConfig_ends env s with ⟨_, _, same⟩ | ⟨_, _, moved⟩
      · rw [same]
        exact happlied
      · rw [moved]
        exact hfile

/-! ### An edit taken back

Inbounds with their port as the rest and user names as the field. -/

def portEntry (tag : String) (port : Nat) : Entry Nat (List String) := ⟨tag, "vless", port, []⟩

def twoInbounds (a b : Nat) : Config Nat (List String) where
  inbounds := [portEntry "a" a, portEntry "b" b]
  endpoints := []

/-- Every call succeeds, but for creating an inbound at the port that is taken. -/
def portEnv (taken : Option Nat) : Env Nat (List String) where
  marshalError _ := none
  createError _ _ entry :=
    if taken = some entry.rest then some "bind: address already in use" else none
  closeError _ _ _ := none
  reloader _ _ _ := false
  reloadError _ _ _ := none
  order tags := tags
  order_perm tags := Perm.refl tags

theorem twoInbounds_wellTagged (a b : Nat) : (twoInbounds a b).WellTagged where
  nodup := by
    intro kind
    cases kind with
    | inbound => show ["a", "b"].Nodup; decide
    | endpoint => exact nodup_nil
  nonempty := by
    intro kind entry mem
    cases kind with
    | inbound =>
      simp only [Config.entries, twoInbounds, mem_cons, not_mem_nil, or_false] at mem
      rcases mem with rfl | rfl <;> simp [portEntry]
    | endpoint => cases mem

/-- Both ports move and the second is taken; the edit is then taken back. The last
apply finds nothing to do, with the first inbound at the port it was moved to. -/
def takenBack : List (Action Nat (List String)) :=
  [.edit (twoInbounds 2 20), .apply (portEnv (some 20)), .edit (twoInbounds 1 10),
    .apply (portEnv none)]

theorem apply_reports_stale_success :
    (twoInbounds 1 10).WellTagged ∧ (twoInbounds 2 20).WellTagged ∧
    (loop step (State.started (twoInbounds 1 10)) takenBack).1.file.inbounds =
      [portEntry "a" 1, portEntry "b" 10] ∧
    (loop step (State.started (twoInbounds 1 10)) takenBack).1.world.running .inbound "a" =
      some (portEntry "a" 2) ∧
    ¬ Along step Complete (State.started (twoInbounds 1 10)) takenBack := by
  refine ⟨twoInbounds_wellTagged 1 10, twoInbounds_wellTagged 2 20, rfl, by decide, ?_⟩
  rintro ⟨_, _, _, last, _⟩
  have asInFile := last ⟨"no changes to apply", {}, {}⟩ rfl .inbound "a"
  exact absurd asInFile (by decide)

/-- A first edit starts from an instance that runs its snapshot. -/
theorem apply_moves_ports :
    Along step Complete (State.started (twoInbounds 1 10))
      [.edit (twoInbounds 2 20), .apply (portEnv none)] := by
  apply apply_runs _ (twoInbounds_wellTagged 1 10)
  refine ⟨twoInbounds_wellTagged 2 20, ?_, trivial⟩
  intro kind
  exact Settled.of_running ((twoInbounds_wellTagged 1 10).nodup kind) fun _ => rfl

end SingBox.ClashApi
