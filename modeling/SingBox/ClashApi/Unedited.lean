import SingBox.ClashApi.Settled

/-!
# Applying a file that nobody edited

`box.New` names an entry without a tag by its position in the list. An apply keys the
snapshot, the file and the managers by the tag that is written, so it looks for such
an entry under the empty tag, where nothing runs.

* `newBox_runs` — what runs after start-up, under the names it gives;
* `apply_unedited_iff` — an apply of the unedited file makes no call, and says so, if
  and only if every inbound and endpoint is written with a tag.
-/

namespace SingBox.ClashApi

open Lib List

variable {ρ φ : Type}

/-! ## Start-up -/

/-- The tag `box.New` gives the entry at a position. -/
def Entry.effectiveTag (entry : Entry ρ φ) (i : Nat) : String :=
  if entry.tag ≠ "" then entry.tag else toString i

/-- The entry as `box.New` creates it. -/
def Entry.named (entry : Entry ρ φ) (i : Nat) : Entry ρ φ :=
  { entry with tag := entry.effectiveTag i }

/-- The entries of a list as `box.New` creates them. -/
def named (entries : List (Entry ρ φ)) : List (Entry ρ φ) :=
  entries.zipIdx.map fun (entry, i) => entry.named i

/-- The loop of `checkInbounds` and the two of `checkOutbounds`: the tags seen, or the
error. -/
def checkTags (what : String) (seen : List String) (entries : List (Entry ρ φ)) :
    List String × Option String :=
  loop
    (fun seen (entry, i) =>
      let tag := entry.effectiveTag i
      if tag ∈ seen then .stop seen ("duplicate " ++ what ++ " tag: " ++ tag)
      else .next (tag :: seen))
    seen entries.zipIdx

def checkInbounds (inbounds : List (Entry ρ φ)) : Option String :=
  (checkTags "inbound" [] inbounds).2

/-- Outbounds and endpoints share their tags. -/
def checkOutbounds (outbounds endpoints : List (Entry ρ φ)) : Option String :=
  match checkTags "outbound/endpoint" [] outbounds with
  | (_, some err) => some err
  | (seen, none) => (checkTags "outbound/endpoint" seen endpoints).2

/-- The part of `checkOptions` that looks at inbounds and endpoints. -/
def checkOptions (outbounds : List (Entry ρ φ)) (config : Config ρ φ) : Option String :=
  match checkInbounds config.inbounds with
  | some err => some err
  | none => checkOutbounds outbounds config.endpoints

namespace Env

variable (env : Env ρ φ)

def newStep (kind : Kind) (w : World ρ φ) (item : Entry ρ φ × Nat) : Turn (World ρ φ) String :=
  match env.create kind w (some (item.1.named item.2)) with
  | (w, none) => .next w
  | (w, some err) =>
      .stop w ("initialize " ++ kind.name ++ "[" ++ toString item.2 ++ "]: " ++ err)

/-- The two loops of `box.New` that create the endpoints and the inbounds. -/
def newBox (config : Config ρ φ) : World ρ φ × Option String :=
  match loop (env.newStep .endpoint) { running := fun _ _ => none, log := [] }
      config.endpoints.zipIdx with
  | (w, some err) => (w, some err)
  | (w, none) => loop (env.newStep .inbound) w config.inbounds.zipIdx

end Env

theorem effectiveTag_ne_empty (entry : Entry ρ φ) (i : Nat) : entry.effectiveTag i ≠ "" := by
  unfold Entry.effectiveTag
  split
  · assumption
  · exact Nat.repr_ne_empty

variable {entries : List (Entry ρ φ)}

theorem named_of_tagged (tagged : ∀ entry ∈ entries, entry.tag ≠ "") : named entries = entries := by
  have same : entries.zipIdx.map (fun (entry, i) => entry.named i) = entries.zipIdx.map (·.1) := by
    apply map_congr_left
    rintro ⟨entry, i⟩ mem
    have written : entry.tag ≠ "" := tagged entry (fst_mem_of_mem_zipIdx mem)
    simp [Entry.named, Entry.effectiveTag, written]
  unfold named
  rw [same, zipIdx_map_fst]

theorem lookup_named_empty (entries : List (Entry ρ φ)) : lookup (named entries) "" = none := by
  rw [lookup_eq_none]
  intro mem
  obtain ⟨entry, hentry, empty⟩ := mem_map.mp mem
  obtain ⟨⟨written, i⟩, _, rfl⟩ := mem_map.mp hentry
  exact effectiveTag_ne_empty written i empty

theorem checkTags_nodup {what : String} {seen : List String}
    (h : (checkTags what seen entries).2 = none) : NodupTags (named entries) := by
  -- the tags done are distinct, and all of them have been seen
  have inv := loop_finished
    (fun done seen => (done.map fun (item : Entry ρ φ × Nat) => item.1.effectiveTag item.2).Nodup ∧
      ∀ item ∈ done, item.1.effectiveTag item.2 ∈ seen)
    entries.zipIdx ?_ seen _ ?_ (Prod.ext rfl h)
  · have nodup := inv.1
    unfold NodupTags named
    rw [map_map]
    exact nodup
  · rintro done ⟨entry, i⟩ _ seen seen' _ ⟨nodup, known⟩ turn
    simp only at turn
    split at turn
    · cases turn
    rename_i fresh
    cases turn
    refine ⟨?_, ?_⟩
    · rw [map_append, map_singleton, ← concat_eq_append]
      refine nodup.concat fun mem => fresh ?_
      obtain ⟨item, hitem, same⟩ := mem_map.mp mem
      exact same ▸ known item hitem
    · exact forall_mem_append.mpr ⟨fun item mem => mem_cons_of_mem _ (known item mem),
        forall_mem_singleton.mpr mem_cons_self⟩
  · exact ⟨nodup_nil, by simp⟩

theorem checkOptions_nodup {outbounds : List (Entry ρ φ)} {config : Config ρ φ}
    (accepted : checkOptions outbounds config = none) (kind : Kind) :
    NodupTags (named (config.entries kind)) := by
  unfold checkOptions at accepted
  split at accepted
  · cases accepted
  rename_i inbounds
  cases kind with
  | inbound => exact checkTags_nodup inbounds
  | endpoint =>
    unfold checkOutbounds at accepted
    split at accepted
    · cases accepted
    · exact checkTags_nodup accepted

theorem update_lookup {entry : Entry ρ φ} (fresh : entry.tag ∉ entries.map (·.tag)) :
    Function.update (lookup entries) entry.tag (some entry) = lookup (entries ++ [entry]) := by
  funext tag
  unfold lookup
  rw [find?_append]
  by_cases same : tag = entry.tag
  · have absent := lookup_eq_none.mpr fresh
    unfold lookup at absent
    rw [same, absent]
    simp
  · rw [Function.update_of_ne same]
    have differs : ¬ entry.tag = tag := fun h => same h.symm
    simp [differs]

theorem Env.newStep_runs (env : Env ρ φ) {kind : Kind} {w w' : World ρ φ}
    (nodup : NodupTags (named entries)) (empty : ∀ tag, w.running kind tag = none)
    (h : loop (env.newStep kind) w entries.zipIdx = (w', none)) :
    w'.running kind = lookup (named entries) ∧
      ∀ kind', kind' ≠ kind → w'.running kind' = w.running kind' := by
  apply loop_finished
    (fun done (v : World ρ φ) =>
      v.running kind = lookup (done.map fun (entry, i) => entry.named i) ∧
        ∀ kind', kind' ≠ kind → v.running kind' = w.running kind')
    entries.zipIdx _ w w' ⟨funext empty, fun _ _ => rfl⟩ h
  rintro done ⟨entry, i⟩ rest v v' hsplit ⟨running, other⟩ turn
  have named_eq := congrArg (map fun (entry, i) => entry.named i) hsplit
  rw [map_append, map_cons] at named_eq
  have fresh := nodup.fresh named_eq
  have created : v'.running = (v.set kind (entry.named i).tag (some (entry.named i))).running := by
    unfold newStep at turn
    split at turn <;> cases turn
    rename_i hcreate
    exact (env.create_ok hcreate).running
  refine ⟨?_, ?_⟩
  · rw [created, World.running_set, running, update_lookup fresh, map_append]
    rfl
  · intro kind' hkind
    rw [created, World.running_set_ne _ hkind]
    exact other kind' hkind

theorem Env.newBox_runs (env : Env ρ φ) {config : Config ρ φ} {w : World ρ φ}
    (nodup : ∀ kind, NodupTags (named (config.entries kind)))
    (built : env.newBox config = (w, none)) (kind : Kind) :
    w.running kind = lookup (named (config.entries kind)) := by
  unfold newBox at built
  split at built
  · cases built
  rename_i w₁ hendpoints
  obtain ⟨endpoints, noInbounds⟩ := env.newStep_runs (nodup .endpoint) (fun _ => rfl) hendpoints
  obtain ⟨inbounds, sameEndpoints⟩ := env.newStep_runs (nodup .inbound)
    (fun tag => by rw [noInbounds .inbound (by decide)]) built
  cases kind with
  | inbound => exact inbounds
  | endpoint =>
    rw [sameEndpoints .endpoint (by decide)]
    exact endpoints

/-! ## The apply -/

namespace Env

variable (env : Env ρ φ)

variable {w : World ρ φ} {want : Entry ρ φ} {kind : Kind}

/-- A component that is down is created, or the apply fails: either way there is a call. -/
theorem recreate_log (kind : Kind) (have_ : Option (Entry ρ φ))
    (down : w.get kind want.tag = none) :
    w.log.length < (env.recreate kind w have_ want).1.log.length := by
  have created : w.log.length < (env.create kind w (some want)).1.log.length := by
    unfold create
    simp only
    split <;> simp [World.logged, World.set]
  unfold recreate
  rw [down]
  unfold createOrRollback
  simp only
  split
  all_goals
    rename_i hcreate
    rw [hcreate] at created
    exact created

variable [DecidableEq ρ] [DecidableEq φ]

theorem applyStep_log {p p' : Progress ρ φ} (down : p.world.get kind want.tag = none)
    (h : env.applyStep kind p want = .next p') : p.world.log.length < p'.world.log.length := by
  have recreated : ∀ (applied : List (Entry ρ φ)) (have_ : Option (Entry ρ φ))
      (record : Outcome → Outcome),
      env.recreateStep kind { p with applied } have_ want record = .next p' →
        p.world.log.length < p'.world.log.length := by
    intro applied have_ record turn
    have longer := env.recreate_log kind have_ down
    unfold recreateStep at turn
    split at turn
    · cases turn
    rename_i w' hrecreate
    rw [hrecreate] at longer
    cases turn
    exact longer
  unfold applyStep at h
  simp only [down, Option.isNone_none, if_true] at h
  split at h
  · exact recreated _ _ _ h
  · split at h
    · cases h
    · exact recreated _ _ _ h

/-- If an apply succeeds without a call, it found everything in the file live. -/
theorem applyEntries_live {w' : World ρ φ} {applied desired : List (Entry ρ φ)}
    {outcome : Outcome} (h : env.applyEntries kind w applied desired = (w', .ok outcome))
    (silent : w'.log.length ≤ w.log.length) : ∀ want ∈ desired, w.get kind want.tag ≠ none := by
  unfold applyEntries at h
  split at h
  · cases h
  rename_i p hfirst
  -- the second loop only adds calls
  have rest : Moves kind (fun _ _ => True) p.world _ :=
    env.removeLoop_moves kind p (env.order (p.applied.map (·.tag)))
  split at h
  · cases h
  rename_i q hsecond
  rw [hsecond] at rest
  cases h
  have first := loop_finished
    (fun done (p : Progress ρ φ) => Moves kind (fun _ _ => True) w p.world ∧
      (p.world.log.length ≤ w.log.length → ∀ want ∈ done, w.get kind want.tag ≠ none))
    desired ?_ _ p ⟨.refl w, by simp⟩ hfirst
  · exact first.2 (Nat.le_trans rest.log_le silent)
  · rintro done want _ p p' _ ⟨moves, live⟩ turn
    have moved := env.applyStep_moves_any kind p want
    rw [turn] at moved
    refine ⟨moves.trans moved, ?_⟩
    intro noCall
    have noCallBefore : p.world.log.length ≤ w.log.length := Nat.le_trans moved.log_le noCall
    refine forall_mem_append.mpr ⟨live noCallBefore, forall_mem_singleton.mpr fun down => ?_⟩
    -- nothing has moved so far, and this turn would have made a call
    have same : p.world = w := by
      rcases moves.eq_or_log with same | longer
      · exact same
      · omega
    have longer := env.applyStep_log (same ▸ down) turn
    rw [same] at longer
    omega

theorem applyStep_unchanged {p : Progress ρ φ}
    (found : p.applied.find? (fun entry => entry.tag = want.tag) = some want)
    (marshals : env.marshalError want = none) (live : p.world.get kind want.tag ≠ none) :
    env.applyStep kind p want =
      .next { p with applied := p.applied.filter fun entry => entry.tag ≠ want.tag } := by
  unfold applyStep
  simp only [found, diffOptions, marshals, if_true, Option.isNone_iff_eq_none, live, if_false]
  rfl

theorem applyEntries_unchanged {entries : List (Entry ρ φ)} (nodup : NodupTags entries)
    (marshals : ∀ entry ∈ entries, env.marshalError entry = none)
    (live : ∀ entry ∈ entries, w.get kind entry.tag ≠ none) :
    env.applyEntries kind w entries entries = (w, .ok {}) := by
  obtain ⟨p, hloop, hp⟩ : ∃ p, loop (env.applyStep kind) ⟨w, entries, {}⟩ entries = (p, none) ∧
      p = ⟨w, entries.filter fun entry => entry.tag ∉ entries.map (·.tag), {}⟩ := by
    apply loop_runs (fun (done : List (Entry ρ φ)) (p : Progress ρ φ) =>
      p = ⟨w, entries.filter fun entry => entry.tag ∉ done.map (·.tag), {}⟩)
    · rintro done want rest p hsplit rfl
      have mem : want ∈ entries := by
        rw [hsplit]
        simp
      have fresh : want.tag ∉ done.map (·.tag) := nodup.fresh hsplit
      have found : (entries.filter fun entry => entry.tag ∉ done.map (·.tag)).find?
          (fun entry => entry.tag = want.tag) = some want :=
        (lookup_eq_some nodup.filter).mpr ⟨mem_filter.mpr ⟨mem, by simpa using fresh⟩, rfl⟩
      refine ⟨_, env.applyStep_unchanged found (marshals want mem) (live want mem), ?_⟩
      rw [filter_snoc]
    · simp
  have nothing : p.applied = [] := by
    rw [hp]
    simp only [filter_eq_nil_iff]
    intro entry mem
    simpa using ⟨entry, mem, rfl⟩
  have noOrder : env.order [] = [] := (env.order_perm []).eq_nil
  unfold applyEntries
  rw [byTag_of_nodup nodup, hloop]
  simp only [nothing, map_nil, noOrder, loop]
  rw [hp]

end Env

variable [DecidableEq ρ] [DecidableEq φ]

/-- The apply makes no call, and reports that. -/
def Quiet (env : Env ρ φ) (s : State ρ φ) : Prop :=
  (applyConfig env s).1.world.log = s.world.log ∧
    ∃ response, (applyConfig env s).2 = .ok response ∧ response.message = "no changes to apply"

theorem applyConfig_live {env : Env ρ φ} {s : State ρ φ} {response : Response}
    (success : (applyConfig env s).2 = .ok response)
    (silent : (applyConfig env s).1.world.log = s.world.log) (kind : Kind) :
    ∀ want ∈ s.file.entries kind, s.world.get kind want.tag ≠ none := by
  obtain ⟨w, _, _, hinbounds, hendpoints, first, second⟩ := applyConfig_ok env s success
  have noCall : w.log.length ≤ s.world.log.length := silent ▸ second.log_le
  have same : w = s.world := by
    rcases first.eq_or_log with same | longer
    · exact same
    · exact absurd longer (Nat.not_lt.mpr noCall)
  cases kind with
  | inbound => exact env.applyEntries_live hinbounds noCall
  | endpoint =>
    rw [← same]
    exact env.applyEntries_live hendpoints (Nat.le_of_eq (by rw [silent, same]))

/-- An instance built from a config, with the file and so the snapshot as they were. -/
def State.built (config : Config ρ φ) (w : World ρ φ) : State ρ φ where
  file := config
  applied := config
  world := w

/-- An apply of the unedited file makes no call, and reports no changes, if and only if
every inbound and every endpoint is written with a tag. -/
theorem apply_unedited_iff (build env : Env ρ φ) (outbounds : List (Entry ρ φ))
    (config : Config ρ φ) (w : World ρ φ) (accepted : checkOptions outbounds config = none)
    (built : build.newBox config = (w, none))
    (marshals : ∀ kind, ∀ entry ∈ config.entries kind, env.marshalError entry = none) :
    Quiet env (State.built config w) ↔ ∀ kind, ∀ entry ∈ config.entries kind, entry.tag ≠ "" := by
  have nodup := checkOptions_nodup accepted
  have runs := build.newBox_runs nodup built
  constructor
  · rintro ⟨silent, response, success, _⟩ kind entry mem empty
    -- nothing is named by the empty tag
    have down : w.get kind entry.tag = none := by
      unfold World.get
      rw [empty, runs, lookup_named_empty]
      cases kind with
      | inbound =>
        rw [runs, lookup_named_empty]
      | endpoint => rfl
    exact applyConfig_live success silent kind entry mem down
  · intro tagged
    have nodupWritten : ∀ kind, NodupTags (config.entries kind) := by
      intro kind
      rw [← named_of_tagged (tagged kind)]
      exact nodup kind
    have live : ∀ kind, ∀ entry ∈ config.entries kind, w.get kind entry.tag ≠ none := by
      intro kind entry mem
      have running : w.running kind entry.tag = some entry := by
        rw [runs, named_of_tagged (tagged kind)]
        exact (lookup_eq_some (nodupWritten kind)).mpr ⟨mem, rfl⟩
      unfold World.get
      rw [running]
      exact Option.some_ne_none entry
    have inbounds := env.applyEntries_unchanged (nodupWritten .inbound) (marshals .inbound)
      (live .inbound)
    have endpoints := env.applyEntries_unchanged (nodupWritten .endpoint) (marshals .endpoint)
      (live .endpoint)
    have done : applyConfig env (State.built config w) =
        (State.built config w, .ok ⟨"no changes to apply", {}, {}⟩) := by
      unfold applyConfig
      rw [show env.applyInbounds (State.built config w).world
        (State.built config w).applied.inbounds (State.built config w).file.inbounds = _ from
        inbounds]
      simp only
      rw [show env.applyEndpoints w (State.built config w).applied.endpoints
        (State.built config w).file.endpoints = _ from endpoints]
      rfl
    unfold Quiet
    rw [done]
    exact ⟨rfl, _, rfl, rfl⟩

/-- Two inbounds that start up as `a` and `1`. -/
def secondUntagged : Config Nat (List String) where
  inbounds := [portEntry "a" 1, portEntry "" 2]
  endpoints := []

/-- The apply creates a second component for the inbound that runs as `1`. -/
theorem apply_unedited_creates :
    checkOptions [] secondUntagged = none ∧ ((portEnv none).newBox secondUntagged).2 = none ∧
    (applyConfig (portEnv none)
      (State.built secondUntagged ((portEnv none).newBox secondUntagged).1)).1.world.log =
      [.create .inbound "a", .create .inbound "1", .create .inbound ""] ∧
    ¬ Quiet (portEnv none)
      (State.built secondUntagged ((portEnv none).newBox secondUntagged).1) := by
  refine ⟨by decide, by decide, by decide, ?_⟩
  rintro ⟨silent, _⟩
  exact absurd silent (by decide)

/-- With tags written the apply is quiet. -/
theorem apply_unedited_quiet :
    Quiet (portEnv none)
      (State.built (twoInbounds 1 10) ((portEnv none).newBox (twoInbounds 1 10)).1) :=
  (apply_unedited_iff (portEnv none) (portEnv none) [] (twoInbounds 1 10) _ (by decide) rfl
    (fun _ _ _ => rfl)).mpr (twoInbounds_wellTagged 1 10).nonempty

end SingBox.ClashApi
