import SingBox.ClashApi.Settled

/-!
# Listen addresses during an apply

An apply creates in the order of the file and removes what is gone only afterwards, so
an inbound may find its address held by one whose turn is still to come.

* `applyStep_succeeds` — a turn goes on if the wanted inbound can be created;
* `reaches_iff` — which configs can be reached from which, when creating an inbound fails
  only on an address that another one holds.
-/

namespace SingBox.ClashApi

open Lib List Option

variable {ρ φ α : Type}

def Held (listen : ρ → α) (w : World ρ φ) (entry : Entry ρ φ) : Prop :=
  ∃ tag other, w.running .inbound tag = some other ∧ tag ≠ entry.tag ∧
    listen other.rest = listen entry.rest

/-- Nothing fails, but for creating an inbound at an address that another one holds;
reloads may fail as well. -/
structure Env.Binds (env : Env ρ φ) (listen : ρ → α) : Prop where
  marshal : ∀ entry, env.marshalError entry = none
  close : ∀ w tag, env.closeError w .inbound tag = none
  create : ∀ w entry, env.createError w .inbound entry ≠ none → Held listen w entry

def NodupAddresses (listen : ρ → α) (entries : List (Entry ρ φ)) : Prop :=
  (entries.map fun entry => listen entry.rest).Nodup

/-- The apply succeeds and leaves exactly the inbounds of the file running. -/
def Reaches [DecidableEq ρ] [DecidableEq φ] (env : Env ρ φ) (w : World ρ φ)
    (applied desired : List (Entry ρ φ)) : Prop :=
  ∃ w' outcome, env.applyInbounds w applied desired = (w', .ok outcome) ∧
    ∀ tag, w'.running .inbound tag = lookup desired tag

theorem Reaches.isOk [DecidableEq ρ] [DecidableEq φ] {env : Env ρ φ} {w : World ρ φ}
    {applied desired : List (Entry ρ φ)} (reaches : Reaches env w applied desired) :
    (env.applyInbounds w applied desired).2.isOk = true := by
  obtain ⟨w', outcome, success, _⟩ := reaches
  rw [success]
  rfl

/-- Each address that an inbound of the file takes from another one is freed by an
earlier turn; the tags new in the file are not those of endpoints. -/
structure InOrder (listen : ρ → α) (w : World ρ φ) (applied desired : List (Entry ρ φ)) : Prop where
  freed : ∀ done want rest, desired = done ++ want :: rest →
    ∀ holder ∈ applied, holder.tag ≠ want.tag → listen holder.rest = listen want.rest →
      holder.tag ∈ done.map (·.tag)
  noEndpoint : ∀ want ∈ desired, want.tag ∉ applied.map (·.tag) →
    w.running .endpoint want.tag = none

theorem NodupAddresses.eq_of_mem {listen : ρ → α} {entries : List (Entry ρ φ)}
    (nodup : NodupAddresses listen entries) {a b : Entry ρ φ} (memA : a ∈ entries)
    (memB : b ∈ entries) (same : listen a.rest = listen b.rest) : a = b :=
  inj_on_of_nodup_map nodup memA memB same

/-! ## Turns that go on -/

namespace Env

variable (env : Env ρ φ)

/-- What creating the entry can meet, if only its own tag has been touched. -/
def Creates (kind : Kind) (w : World ρ φ) (want : Entry ρ φ) : Prop :=
  ∀ v : World ρ φ, (∀ tag, tag ≠ want.tag → v.running kind tag = w.running kind tag) →
    env.createError v kind want = none

variable {kind : Kind} {w : World ρ φ} {want : Entry ρ φ}

theorem createOrRollback_succeeds
    (creates : env.createError (w.logged (.create kind want.tag)) kind want = none)
    (existed : Bool) (have_ : Option (Entry ρ φ)) :
    ∃ w', env.createOrRollback kind existed w have_ want = (w', none) := by
  unfold createOrRollback create
  simp only [creates]
  exact ⟨_, rfl⟩

variable (close : ∀ w tag, env.closeError w kind tag = none)
include close

theorem remove_succeeds {tag : String} (runs : w.running kind tag ≠ none) :
    ∃ w', env.remove kind w tag = (w', none) := by
  obtain ⟨entry, hentry⟩ := ne_none_iff_exists'.mp runs
  unfold remove
  simp only [World.running_logged, hentry, close]
  exact ⟨_, rfl⟩

theorem recreate_succeeds (creates : env.Creates kind w want)
    (own : w.get kind want.tag ≠ none → w.running kind want.tag ≠ none)
    (have_ : Option (Entry ρ φ)) : ∃ w', env.recreate kind w have_ want = (w', none) := by
  unfold recreate
  split
  · exact env.createOrRollback_succeeds (creates _ fun _ _ => rfl) false have_
  · rename_i live
    have runs : w.running kind want.tag ≠ none := own (by rw [live]; exact some_ne_none _)
    obtain ⟨w₁, hremove⟩ := env.remove_succeeds close runs
    rw [hremove]
    apply env.createOrRollback_succeeds
    apply creates
    intro tag differs
    rw [World.running_logged, env.remove_ok hremove, World.running_set,
      Function.update_of_ne differs]

variable {p : Progress ρ φ} (creates : env.Creates kind p.world want)
  (own : p.world.get kind want.tag ≠ none → p.world.running kind want.tag ≠ none)
include creates own

theorem recreateStep_succeeds (have_ : Option (Entry ρ φ)) (record : Outcome → Outcome) :
    ∃ p', env.recreateStep kind p have_ want record = .next p' := by
  obtain ⟨w', hrecreate⟩ := env.recreate_succeeds close creates own have_
  unfold recreateStep
  rw [hrecreate]
  exact ⟨_, rfl⟩

/-- A refused reload changes nothing, so the entry can be recreated then as before. -/
theorem changedStep_succeeds (have_ : Entry ρ φ) (fieldOnly : Bool) :
    ∃ p', env.changedStep kind p have_ want fieldOnly = .next p' := by
  unfold changedStep
  split
  next current hcurrent =>
    split
    · split
      · exact ⟨_, rfl⟩
      · rename_i w' err hreload
        have same := env.reload_refused hreload
        apply env.recreateStep_succeeds close
        · intro v others
          exact creates v fun tag differs => by rw [others tag differs, same]
        · intro _
          rw [same, hcurrent]
          exact some_ne_none current
    · exact env.recreateStep_succeeds close creates own _ _
  next => exact env.recreateStep_succeeds close creates own _ _

variable [DecidableEq ρ] [DecidableEq φ]

/-- A turn goes on if the entry can be created whenever that is tried. -/
theorem applyStep_succeeds (marshal : ∀ entry, env.marshalError entry = none) :
    ∃ p', env.applyStep kind p want = .next p' := by
  have recreated := fun applied =>
    env.recreateStep_succeeds (p := ⟨p.world, applied, p.outcome⟩) close creates own
  have changed := fun applied =>
    env.changedStep_succeeds (p := ⟨p.world, applied, p.outcome⟩) close creates own
  unfold applyStep
  simp only
  split
  · exact recreated _ _ _
  · split
    · rename_i hdiff
      unfold diffOptions at hdiff
      simp only [marshal] at hdiff
      split at hdiff <;> cases hdiff
    · split
      · exact recreated _ _ _
      · split
        · exact ⟨_, rfl⟩
        · exact changed _ _ _

end Env

/-! ## Configs in reach -/

section Reach

variable {listen : ρ → α} {w : World ρ φ} {applied desired : List (Entry ρ φ)} {env : Env ρ φ}

variable {done : List (Entry ρ φ)} {want : Entry ρ φ} {p : Progress ρ φ}

theorem Env.removeLoop_succeeds (env : Env ρ φ) {kind : Kind}
    (close : ∀ w tag, env.closeError w kind tag = none) (p : Progress ρ φ) {tags : List String}
    (nodup : tags.Nodup) (running : ∀ tag ∈ tags, p.world.running kind tag ≠ none) :
    ∃ q, loop (env.removeStep kind) p tags = (q, none) := by
  obtain ⟨q, hloop, _⟩ : ∃ q, loop (env.removeStep kind) p tags = (q, none) ∧
      ∀ tag ∉ tags, q.world.running kind tag = p.world.running kind tag := by
    apply loop_runs (fun done (q : Progress ρ φ) =>
      ∀ tag ∉ done, q.world.running kind tag = p.world.running kind tag)
    · intro done tag rest q hsplit same
      have fresh : tag ∉ done := by
        rw [hsplit, nodup_middle, nodup_cons] at nodup
        exact fun mem => nodup.1 (mem_append_left _ mem)
      have runs : q.world.running kind tag ≠ none := by
        rw [same tag fresh]
        exact running tag (by rw [hsplit]; simp)
      obtain ⟨w', hremove⟩ := env.remove_succeeds close runs
      have turn : ∃ q', env.removeStep kind q tag = .next q' := by
        unfold removeStep
        rw [hremove]
        split <;> exact ⟨_, rfl⟩
      obtain ⟨q', turn⟩ := turn
      refine ⟨q', turn, ?_⟩
      intro tag' hnot
      rw [mem_append, not_or] at hnot
      have differs : tag' ≠ tag := by simpa using hnot.2
      rw [env.removeStep_next turn, World.running_set, Function.update_of_ne differs]
      exact same tag' hnot.1
    · exact fun _ _ => rfl
  exact ⟨q, hloop⟩

/-- Creating an inbound fails whenever its address is held. -/
noncomputable def strictEnv (listen : ρ → α) : Env ρ φ where
  marshalError _ := none
  createError w _ entry :=
    open Classical in
    if Held listen w entry then some "bind: address already in use" else none
  closeError _ _ _ := none
  reloader _ _ _ := false
  reloadError _ _ _ := none
  order tags := tags
  order_perm tags := Perm.refl tags

theorem strictEnv_createError {v : World ρ φ} {kind : Kind} {entry : Entry ρ φ} :
    (strictEnv listen).createError v kind entry = none ↔ ¬ Held listen v entry := by
  unfold strictEnv
  simp

theorem strictEnv_binds : (strictEnv listen : Env ρ φ).Binds listen where
  marshal _ := rfl
  close _ _ := rfl
  create v entry fails := by
    by_contra free
    exact fails (strictEnv_createError.mpr free)

section Turns

variable (runs : ∀ tag, w.running .inbound tag = lookup applied tag)
  (inv : Processed .inbound w applied done p)
include runs inv

/-- In order, nothing holds the address of an entry when its turn comes. -/
theorem InOrder.creates (inOrder : InOrder listen w applied desired) (binds : env.Binds listen)
    (nodupApplied : NodupTags applied) (addresses : NodupAddresses listen desired)
    {rest : List (Entry ρ φ)} (hsplit : desired = done ++ want :: rest) :
    env.Creates .inbound p.world want := by
  intro v others
  by_contra fails
  obtain ⟨tag, other, hother, differs, same⟩ := binds.create v want fails
  rw [others tag differs] at hother
  have memWant : want ∈ desired := by
    rw [hsplit]
    simp
  by_cases inDone : tag ∈ done.map (·.tag)
  · -- the holder is of the file too, where the addresses differ
    obtain ⟨entry, mem, rfl⟩ := mem_map.mp inDone
    obtain rfl : entry = other := some.inj ((inv.running entry mem).symm.trans hother)
    have memEntry : entry ∈ desired := by
      rw [hsplit]
      exact mem_append_left _ mem
    exact differs (congrArg Entry.tag (addresses.eq_of_mem memEntry memWant same))
  · -- the holder is of the snapshot, and has not had its turn
    rw [inv.untouched tag inDone, runs] at hother
    obtain ⟨mem, rfl⟩ := (lookup_eq_some nodupApplied).mp hother
    exact inDone (inOrder.freed done want rest hsplit other mem differs same)

/-- `Get` does not fall through to an endpoint when an entry has its turn. -/
theorem InOrder.own (inOrder : InOrder listen w applied desired) (mem : want ∈ desired)
    (fresh : want.tag ∉ done.map (·.tag)) :
    p.world.get .inbound want.tag ≠ none → p.world.running .inbound want.tag ≠ none := by
  intro live down
  have absent : want.tag ∉ applied.map (·.tag) := by
    rw [← lookup_eq_none, ← runs, ← inv.untouched _ fresh]
    exact down
  apply live
  unfold World.get
  rw [down, inv.other .endpoint (by decide)]
  exact inOrder.noEndpoint want mem absent

variable [DecidableEq ρ] [DecidableEq φ]

/-- A turn does not go on if an inbound of the snapshot that has not had its turn holds
the address. -/
theorem freed_of_turn (nodupApplied : NodupTags applied) (addresses : NodupAddresses listen applied)
    {holder : Entry ρ φ} {p' : Progress ρ φ}
    (turn : (strictEnv listen).applyStep .inbound p want = .next p') (mem : holder ∈ applied)
    (differs : holder.tag ≠ want.tag) (same : listen holder.rest = listen want.rest) :
    holder.tag ∈ done.map (·.tag) := by
  by_contra later
  have holds : p.world.running .inbound holder.tag = some holder := by
    rw [inv.untouched _ later, runs]
    exact (lookup_eq_some nodupApplied).mpr ⟨mem, rfl⟩
  rcases ((strictEnv listen).applyStep_next turn).2 with created | ⟨hfind, _, _⟩ |
    ⟨have_, current, hfind, _, sameRest, _, _⟩
  · obtain ⟨v, others, accepted⟩ := created.accepted
    apply strictEnv_createError.mp accepted
    exact ⟨holder.tag, holder, by rw [others _ differs, holds], differs, same⟩
  · -- an unchanged entry has its address in the snapshot already
    exact differs (congrArg Entry.tag (addresses.eq_of_mem mem (inv.mem_of_find hfind) same))
  · -- so has one that only changed in its field
    rw [← sameRest.2.2] at same
    have isHave := addresses.eq_of_mem mem (inv.mem_of_find hfind) same
    exact differs ((congrArg Entry.tag isHave).trans sameRest.1)

/-- A turn does not go on if the tag is new and an endpoint has it. -/
theorem noEndpoint_of_turn {p' : Progress ρ φ} (fresh : want.tag ∉ done.map (·.tag))
    (turn : env.applyStep .inbound p want = .next p')
    (absent : want.tag ∉ applied.map (·.tag)) : w.running .endpoint want.tag = none := by
  by_contra runsEndpoint
  obtain ⟨endpoint, hendpoint⟩ := ne_none_iff_exists'.mp runsEndpoint
  have down : p.world.running .inbound want.tag = none := by
    rw [inv.untouched _ fresh, runs]
    exact lookup_eq_none.mpr absent
  have found : p.world.get .inbound want.tag = some endpoint := by
    unfold World.get
    rw [down, inv.other .endpoint (by decide)]
    exact hendpoint
  have notThere : p.applied.find? (fun entry => entry.tag = want.tag) = none :=
    lookup_eq_none.mpr fun mem => absent (inv.mem_tags.mp mem).1
  -- so the turn tries to remove an inbound that is not there
  unfold Env.applyStep at turn
  simp only [notThere] at turn
  unfold Env.recreateStep Env.recreate Env.remove at turn
  simp only [found, World.running_logged, down] at turn
  cases turn

omit inv in
theorem InOrder.reaches (inOrder : InOrder listen w applied desired) (binds : env.Binds listen)
    (nodupApplied : NodupTags applied) (nodupDesired : NodupTags desired)
    (addresses : NodupAddresses listen desired) : Reaches env w applied desired := by
  have settled : Settled .inbound w applied desired := .of_running nodupApplied runs
  obtain ⟨p, hfirst, inv⟩ : ∃ p,
      loop (env.applyStep .inbound) ⟨w, applied, {}⟩ desired = (p, none) ∧
        Processed .inbound w applied desired p := by
    -- every turn goes on, as its entry can be created when it comes
    apply loop_runs (Processed .inbound w applied)
    · intro done want rest p hsplit inv
      have fresh := nodupDesired.fresh hsplit
      have mem : want ∈ desired := by
        rw [hsplit]
        simp
      obtain ⟨p', turn⟩ := env.applyStep_succeeds binds.close
        (inOrder.creates runs inv binds nodupApplied addresses hsplit)
        (inOrder.own runs inv mem fresh) binds.marshal
      exact ⟨p', turn, env.applyStep_keeps nodupDesired settled done want rest p p' hsplit inv turn⟩
    · exact .init w applied
  have perm := env.order_perm (p.applied.map (·.tag))
  have nodupLeft : (env.order (p.applied.map (·.tag))).Nodup := by
    rw [perm.nodup_iff, inv.applied_eq]
    exact nodupApplied.filter
  -- what is left of the snapshot still runs, so it can be removed
  have running : ∀ tag ∈ env.order (p.applied.map (·.tag)),
      p.world.running .inbound tag ≠ none := by
    intro tag mem down
    obtain ⟨inApplied, gone⟩ := inv.mem_tags.mp (perm.mem_iff.mp mem)
    rw [inv.untouched tag gone, runs] at down
    exact lookup_eq_none.mp down inApplied
  obtain ⟨q, hsecond⟩ := env.removeLoop_succeeds binds.close p nodupLeft running
  have success : env.applyInbounds w applied desired = (q.world, .ok q.outcome) := by
    unfold Env.applyInbounds Env.applyEntries
    rw [byTag_of_nodup nodupApplied, hfirst]
    simp only [hsecond]
  exact ⟨q.world, q.outcome, success,
    env.applyEntries_ok nodupApplied nodupDesired settled success⟩

end Turns

variable [DecidableEq ρ] [DecidableEq φ]

/-- From a config that runs, an apply succeeds and leaves exactly the inbounds of the
file running, whatever else happens, if and only if the addresses are freed in order and no
new tag is that of an endpoint. -/
theorem reaches_iff (listen : ρ → α) (w : World ρ φ) (applied desired : List (Entry ρ φ))
    (nodupApplied : NodupTags applied) (nodupDesired : NodupTags desired)
    (addressesApplied : NodupAddresses listen applied)
    (addressesDesired : NodupAddresses listen desired)
    (runs : ∀ tag, w.running .inbound tag = lookup applied tag) :
    (∀ env : Env ρ φ, env.Binds listen → Reaches env w applied desired) ↔
      InOrder listen w applied desired := by
  refine ⟨?_, fun inOrder env binds =>
    inOrder.reaches runs binds nodupApplied nodupDesired addressesDesired⟩
  intro reaches
  obtain ⟨w', outcome, success, _⟩ := reaches (strictEnv listen) strictEnv_binds
  have settled : Settled .inbound w applied desired := .of_running nodupApplied runs
  unfold Env.applyInbounds Env.applyEntries at success
  rw [byTag_of_nodup nodupApplied] at success
  split at success
  · cases success
  rename_i last hloop
  have turns := fun {done rest want} (hsplit : desired = done ++ want :: rest) =>
    loop_turn (Processed .inbound w applied) desired
      ((strictEnv listen).applyStep_keeps nodupDesired settled) _ last (.init w applied) hloop
      hsplit
  constructor
  · intro done want rest hsplit holder mem differs same
    obtain ⟨p, p', inv, turn⟩ := turns hsplit
    exact freed_of_turn runs inv nodupApplied addressesApplied turn mem differs same
  · intro want mem absent
    obtain ⟨done, rest, hsplit⟩ := append_of_mem mem
    obtain ⟨p, p', inv, turn⟩ := turns hsplit
    exact noEndpoint_of_turn runs inv (nodupDesired.fresh hsplit) turn absent

end Reach

/-! ### A renamed inbound, and ports swapped

The port is the rest of an inbound, and its address. -/

/-- Creating an inbound fails if one of the tagged ones holds its port. -/
def bindEnv (tags : List String) : Env Nat (List String) where
  marshalError _ := none
  createError w _ entry :=
    if ∃ tag ∈ tags, ∃ other ∈ w.running .inbound tag,
        tag ≠ entry.tag ∧ other.rest = entry.rest then
      some "bind: address already in use"
    else none
  closeError _ _ _ := none
  reloader _ _ _ := false
  reloadError _ _ _ := none
  order tags := tags
  order_perm tags := Perm.refl tags

theorem bindEnv_binds (tags : List String) : (bindEnv tags).Binds fun port : Nat => port where
  marshal _ := rfl
  close _ _ := rfl
  create w entry fails := by
    unfold bindEnv at fails
    simp only [ne_eq, ite_eq_right_iff, reduceCtorEq, imp_false, not_not] at fails
    obtain ⟨tag, _, other, hother, differs, same⟩ := fails
    exact ⟨tag, other, hother, differs, same⟩

def runningInbounds (inbounds : List (Entry Nat (List String))) : World Nat (List String) :=
  (State.started { inbounds, endpoints := [] }).world

/-- The new tag wants the port while the old one still holds it, and so does each of two
inbounds that swap their ports. -/
theorem applyInbounds_stuck :
    (bindEnv ["a", "b"]).Binds (fun port : Nat => port) ∧
    ¬ Reaches (bindEnv ["a", "b"]) (runningInbounds [portEntry "a" 1]) [portEntry "a" 1]
      [portEntry "b" 1] ∧
    ¬ Reaches (bindEnv ["a", "b"]) (runningInbounds [portEntry "a" 1, portEntry "b" 2])
      [portEntry "a" 1, portEntry "b" 2] [portEntry "a" 2, portEntry "b" 1] := by
  refine ⟨bindEnv_binds _, ?_, ?_⟩
  all_goals
    intro reaches
    exact absurd reaches.isOk (by decide)

/-- The first inbound leaves its port before the second takes it. -/
theorem reaches_handed_port :
    Reaches (bindEnv ["a", "b"]) (runningInbounds [portEntry "a" 1, portEntry "b" 10])
      [portEntry "a" 1, portEntry "b" 10] [portEntry "a" 2, portEntry "b" 1] := by
  refine (reaches_iff (fun port : Nat => port) _ _ _ ?_ ?_ ?_ ?_ (fun _ => rfl)).mpr ⟨?_, ?_⟩
    (bindEnv ["a", "b"]) (bindEnv_binds _)
  · show ["a", "b"].Nodup
    decide
  · show ["a", "b"].Nodup
    decide
  · show [1, 10].Nodup
    decide
  · show [2, 1].Nodup
    decide
  · intro done want rest hsplit holder mem differs same
    have isFirst : holder = portEntry "a" 1 ∧ want = portEntry "b" 1 := by
      have memWant : want ∈ [portEntry "a" 2, portEntry "b" 1] := by
        rw [hsplit]
        simp
      simp only [mem_cons, not_mem_nil, or_false] at mem memWant
      rcases mem with rfl | rfl <;> rcases memWant with rfl | rfl <;> simp_all [portEntry]
    obtain ⟨rfl, rfl⟩ := isFirst
    cases done with
    | nil => simp [portEntry] at hsplit
    | cons first _ =>
      obtain ⟨rfl, _⟩ := cons.inj hsplit
      exact mem_cons_self
  · intro want _ _
    rfl

end SingBox.ClashApi
