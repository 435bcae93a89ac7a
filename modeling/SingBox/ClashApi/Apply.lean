import Mathlib.Data.List.Basic
import SingBox.Lib.Loop

/-!
# Applying the config file

`experimental/clashapi/apply.go`, `apply_diff.go` and the snapshot of
`config_manager.go`, over the inbound and endpoint managers. An apply compares the
file with the snapshot of what was last applied and reloads, recreates, adds and
removes what differs; the snapshot moves to the file only if all of that succeeds.

`applyInbounds` and `applyEndpoints` are one function of the kind of component.
They differ in the names their errors use and in `Get`: the inbound manager falls
through to the endpoints.

Calls of the managers may fail. `Env` says which do; as it sees the log of the
calls made so far, nothing is assumed about when they fail.
-/

namespace SingBox.ClashApi

open Lib Function

inductive Kind where
  | inbound
  | endpoint
  deriving DecidableEq, Repr

def Kind.name : Kind → String
  | .inbound => "inbound"
  | .endpoint => "endpoint"

/-- `option.Inbound` or `option.Endpoint`, as its JSON object: the reloadable field
(`users` or `peers`) apart from the rest. -/
structure Entry (ρ φ : Type) where
  tag : String
  type : String
  rest : ρ
  field : φ
  deriving DecidableEq

/-- A call of a manager or a component. -/
inductive Call where
  | create (kind : Kind) (tag : String)
  | remove (kind : Kind) (tag : String)
  | reload (kind : Kind) (tag : String)
  deriving DecidableEq, Repr

/-- What runs under each tag, and the calls made so far. -/
structure World (ρ φ : Type) where
  running : Kind → String → Option (Entry ρ φ)
  log : List Call

/-- Which calls fail, and with what; the order in which Go ranges over a map. -/
structure Env (ρ φ : Type) where
  marshalError : Entry ρ φ → Option String
  createError : World ρ φ → Kind → Entry ρ φ → Option String
  closeError : World ρ φ → Kind → String → Option String
  /-- The component implements `UserReloader` or `PeerReloader`. -/
  reloader : World ρ φ → Kind → String → Bool
  reloadError : World ρ φ → Kind → Entry ρ φ → Option String
  order : List String → List String
  order_perm : ∀ tags, (order tags).Perm tags

structure Outcome where
  reloaded : List String := []
  recreated : List String := []
  added : List String := []
  removed : List String := []
  deriving DecidableEq, Repr

def Outcome.empty (outcome : Outcome) : Bool :=
  outcome.reloaded.length == 0 && outcome.recreated.length == 0 && outcome.added.length == 0 &&
    outcome.removed.length == 0

def Outcome.add (tag : String) (outcome : Outcome) : Outcome :=
  { outcome with added := outcome.added ++ [tag] }

def Outcome.recreate (tag : String) (outcome : Outcome) : Outcome :=
  { outcome with recreated := outcome.recreated ++ [tag] }

def Outcome.reload (tag : String) (outcome : Outcome) : Outcome :=
  { outcome with reloaded := outcome.reloaded ++ [tag] }

def Outcome.remove (tag : String) (outcome : Outcome) : Outcome :=
  { outcome with removed := outcome.removed ++ [tag] }

variable {ρ φ : Type}

/-- The two entries agree but for the reloadable field. -/
def Entry.SameRest (a b : Entry ρ φ) : Prop := a.tag = b.tag ∧ a.type = b.type ∧ a.rest = b.rest

instance [DecidableEq ρ] (a b : Entry ρ φ) : Decidable (a.SameRest b) :=
  inferInstanceAs (Decidable (_ ∧ _ ∧ _))

/-- Replacing the field of an entry that agrees with another but for that. -/
theorem Entry.SameRest.with_field {a b : Entry ρ φ} (same : a.SameRest b) :
    { a with field := b.field } = b := by
  obtain ⟨tag, type, rest⟩ := same
  cases a
  cases b
  simp_all

/-- What the loop over the file carries: `appliedByTag`, less the tags it has met. -/
structure Progress (ρ φ : Type) where
  world : World ρ φ
  applied : List (Entry ρ φ)
  outcome : Outcome := {}

/-- `appliedByTag`: a later entry of the same tag replaces an earlier one. -/
def byTag (entries : List (Entry ρ φ)) : List (Entry ρ φ) :=
  entries.foldl (fun m entry => m.filter (fun other => other.tag ≠ entry.tag) ++ [entry]) []

/-! ## The managers -/

namespace World

variable (w : World ρ φ)

def logged (call : Call) : World ρ φ := { w with log := w.log ++ [call] }

def set (kind : Kind) (tag : String) (entry : Option (Entry ρ φ)) : World ρ φ :=
  { w with running := update w.running kind (update (w.running kind) tag entry) }

@[simp] theorem running_logged (call : Call) : (w.logged call).running = w.running := rfl

@[simp] theorem running_set (kind : Kind) (tag : String) (entry : Option (Entry ρ φ)) :
    (w.set kind tag entry).running kind = update (w.running kind) tag entry := by
  simp [set]

theorem running_set_ne {kind kind' : Kind} (h : kind' ≠ kind) (tag : String)
    (entry : Option (Entry ρ φ)) : (w.set kind tag entry).running kind' = w.running kind' := by
  simp [set, h]

def get (kind : Kind) (tag : String) : Option (Entry ρ φ) :=
  match w.running kind tag with
  | some entry => some entry
  | none =>
      match kind with
      | .inbound => w.running .endpoint tag
      | .endpoint => none

end World

namespace Env

variable (env : Env ρ φ)

/-- `Manager.Remove`: the component is gone even if closing it fails. -/
def remove (kind : Kind) (w : World ρ φ) (tag : String) : World ρ φ × Option String :=
  let w := w.logged (.remove kind tag)
  match w.running kind tag with
  | none => (w, some "invalid argument")
  | some _ => (w.set kind tag none, env.closeError w kind tag)

/-- `Manager.Create`, under a tag that its manager does not run. A missing entry is
the zero value, whose type no registry has. -/
def create (kind : Kind) (w : World ρ φ) : Option (Entry ρ φ) → World ρ φ × Option String
  | none => (w.logged (.create kind ""), some "outbound type not found: ")
  | some entry =>
      let w := w.logged (.create kind entry.tag)
      match env.createError w kind entry with
      | some err => (w, some err)
      | none => (w.set kind entry.tag (some entry), none)

/-- `ReloadUsers` or `ReloadPeers` of a running component, which refuses the options
of another type. -/
def reload (kind : Kind) (w : World ρ φ) (current want : Entry ρ φ) : World ρ φ × Option String :=
  let w := w.logged (.reload kind want.tag)
  if current.type ≠ want.type then (w, some "unexpected options type")
  else
    match env.reloadError w kind want with
    | some err => (w, some err)
    | none => (w.set kind want.tag (some { current with field := want.field }), none)

/-! ## One entry -/

/-- The end of `recreate`, after the old component is gone if there was one. -/
def createOrRollback (kind : Kind) (existed : Bool) (w : World ρ φ) (have_ : Option (Entry ρ φ))
    (want : Entry ρ φ) : World ρ φ × Option String :=
  match env.create kind w (some want) with
  | (w, none) => (w, none)
  | (w, some err) =>
      if existed then
        match env.create kind w have_ with
        | (w, some backErr) =>
            (w, some ("create " ++ kind.name ++ " " ++ want.tag ++ " (rollback also failed: " ++
              backErr ++ "; " ++ kind.name ++ " is DOWN): " ++ err))
        | (w, none) => (w, some ("create " ++ kind.name ++ " " ++ want.tag ++ ": " ++ err))
      else (w, some ("create " ++ kind.name ++ " " ++ want.tag ++ ": " ++ err))

def recreate (kind : Kind) (w : World ρ φ) (have_ : Option (Entry ρ φ)) (want : Entry ρ φ) :
    World ρ φ × Option String :=
  match w.get kind want.tag with
  | none => env.createOrRollback kind false w have_ want
  | some _ =>
      match env.remove kind w want.tag with
      | (w, some err) => (w, some ("remove " ++ kind.name ++ " " ++ want.tag ++ ": " ++ err))
      | (w, none) => env.createOrRollback kind true w have_ want

/-- `recreate`, and the list that records it. -/
def recreateStep (kind : Kind) (p : Progress ρ φ) (have_ : Option (Entry ρ φ)) (want : Entry ρ φ)
    (record : Outcome → Outcome) : Turn (Progress ρ φ) String :=
  match env.recreate kind p.world have_ want with
  | (w, some err) => .stop { p with world := w } err
  | (w, none) => .next { p with world := w, outcome := record p.outcome }

/-- The in-place reload of a changed entry, or its recreation. -/
def changedStep (kind : Kind) (p : Progress ρ φ) (have_ want : Entry ρ φ) (fieldOnly : Bool) :
    Turn (Progress ρ φ) String :=
  -- only the manager's own components have a reloader of its kind
  match p.world.running kind want.tag with
  | some current =>
      if fieldOnly && decide (want.type = have_.type) && env.reloader p.world kind want.tag then
        match env.reload kind p.world current want with
        | (w, none) => .next { p with world := w, outcome := Outcome.reload want.tag p.outcome }
        | (w, some _) =>
            env.recreateStep kind { p with world := w } (some have_) want
              (Outcome.recreate want.tag)
      else env.recreateStep kind p (some have_) want (Outcome.recreate want.tag)
  | none => env.recreateStep kind p (some have_) want (Outcome.recreate want.tag)

/-- One turn of the loop over what is gone from the file. -/
def removeStep (kind : Kind) (p : Progress ρ φ) (tag : String) : Turn (Progress ρ φ) String :=
  if (p.world.get kind tag).isNone then .next p
  else
    match env.remove kind p.world tag with
    | (w, some err) =>
        .stop { p with world := w } ("remove " ++ kind.name ++ " " ++ tag ++ ": " ++ err)
    | (w, none) => .next { p with world := w, outcome := Outcome.remove tag p.outcome }

/-! ### What success means -/

/-- The manager accepted the wanted entry, with the other tags as they were, and it
runs now. -/
structure Created (kind : Kind) (w : World ρ φ) (want : Entry ρ φ) (w' : World ρ φ) : Prop where
  accepted : ∃ v : World ρ φ,
    (∀ tag, tag ≠ want.tag → v.running kind tag = w.running kind tag) ∧
      env.createError v kind want = none
  running : w'.running = (w.set kind want.tag (some want)).running

variable {kind : Kind} {w w' : World ρ φ} {want : Entry ρ φ} {have_ : Option (Entry ρ φ)}
  {p p' : Progress ρ φ}

/-- What was done about the tag of the entry before does not matter. -/
theorem Created.of_set {env : Env ρ φ} {w₁ : World ρ φ} {entry : Option (Entry ρ φ)}
    (created : env.Created kind w₁ want w')
    (before : w₁.running = (w.set kind want.tag entry).running) :
    env.Created kind w want w' where
  accepted := by
    obtain ⟨v, same, accepted⟩ := created.accepted
    refine ⟨v, ?_, accepted⟩
    intro tag differs
    rw [same tag differs, before, World.running_set, update_of_ne differs]
  running := by
    rw [created.running]
    simp [World.set, before]

theorem create_ok {entry : Entry ρ φ} (h : env.create kind w (some entry) = (w', none)) :
    env.Created kind w entry w' := by
  unfold create at h
  simp only at h
  split at h <;> cases h
  rename_i accepted
  exact ⟨⟨w.logged _, fun _ _ => rfl, accepted⟩, rfl⟩

theorem remove_ok {tag : String} (h : env.remove kind w tag = (w', none)) :
    w'.running = (w.set kind tag none).running := by
  unfold remove at h
  simp only at h
  split at h
  · cases h
  · obtain ⟨rfl, _⟩ := Prod.mk.inj h
    rfl

theorem createOrRollback_ok {existed : Bool}
    (h : env.createOrRollback kind existed w have_ want = (w', none)) :
    env.Created kind w want w' := by
  unfold createOrRollback at h
  split at h
  next w₁ hcreate =>
    cases h
    exact env.create_ok hcreate
  next w₁ err hcreate =>
    split at h
    · split at h <;> cases h
    · cases h

theorem recreate_ok (h : env.recreate kind w have_ want = (w', none)) :
    env.Created kind w want w' := by
  unfold recreate at h
  split at h
  · exact env.createOrRollback_ok h
  · split at h
    · cases h
    · rename_i w₁ hremove
      exact (env.createOrRollback_ok h).of_set (env.remove_ok hremove)

theorem recreateStep_next {record : Outcome → Outcome}
    (h : env.recreateStep kind p have_ want record = .next p') :
    p'.applied = p.applied ∧ env.Created kind p.world want p'.world := by
  unfold recreateStep at h
  split at h <;> cases h
  rename_i w' hrecreate
  exact ⟨rfl, env.recreate_ok hrecreate⟩

theorem reload_refused {current : Entry ρ φ} {err : String}
    (h : env.reload kind w current want = (w', some err)) : w'.running = w.running := by
  unfold reload at h
  simp only at h
  split at h
  · cases h
    rfl
  · split at h
    · cases h
      rfl
    · cases h

/-- How a changed entry that runs is dealt with: by a reload, or by recreating it. -/
theorem changedStep_next {have_ : Entry ρ φ} {fieldOnly : Bool}
    (h : env.changedStep kind p have_ want fieldOnly = .next p') :
    p'.applied = p.applied ∧
      (env.Created kind p.world want p'.world ∨
        fieldOnly = true ∧ ∃ current, p.world.running kind want.tag = some current ∧
          p'.world.running =
            (p.world.set kind want.tag (some { current with field := want.field })).running) := by
  unfold changedStep at h
  split at h
  next current hcurrent =>
    split at h
    · rename_i reloads
      split at h
      · rename_i w' hreload
        cases h
        unfold reload at hreload
        simp only at hreload
        split at hreload
        · cases hreload
        split at hreload <;> cases hreload
        simp only [Bool.and_eq_true] at reloads
        exact ⟨rfl, .inr ⟨reloads.1.1, current, hcurrent, rfl⟩⟩
      · rename_i w' err hreload
        obtain ⟨applied, created⟩ := env.recreateStep_next h
        -- the refused reload has changed nothing
        have same : w'.running = (p.world.set kind want.tag (some current)).running := by
          rw [env.reload_refused hreload]
          simp [World.set, ← hcurrent]
        exact ⟨applied, .inl (created.of_set same)⟩
    · exact (env.recreateStep_next h).imp_right .inl
  next => exact (env.recreateStep_next h).imp_right .inl

theorem removeStep_next {tag : String} (h : env.removeStep kind p tag = .next p') :
    p'.world.running = (p.world.set kind tag none).running := by
  unfold removeStep at h
  split at h
  · rename_i down
    cases h
    have absent : p.world.running kind tag = none := by
      unfold World.get at down
      split at down
      · simp at down
      · assumption
    simp [World.set, ← absent]
  · split at h
    · cases h
    · rename_i w' hremove
      cases h
      exact env.remove_ok hremove

/-! ## The whole file -/

variable [DecidableEq ρ] [DecidableEq φ]

/-- `diffOptions`: whether the entries differ, and only in the field. -/
def diffOptions (have_ want : Entry ρ φ) : Except String (Bool × Bool) :=
  match env.marshalError have_, env.marshalError want with
  | some err, _ => .error ("marshal current options: " ++ err)
  | none, some err => .error ("marshal desired options: " ++ err)
  | none, none =>
      if have_ = want then .ok (false, false) else .ok (true, decide (have_.SameRest want))

theorem diffOptions_sameRest {have_ : Entry ρ φ} {changed : Bool}
    (h : env.diffOptions have_ want = .ok (changed, true)) : have_.SameRest want := by
  unfold diffOptions at h
  split at h
  · cases h
  · cases h
  · split at h
    · cases h
    · exact (by simpa using h : _ ∧ _).2

/-- One turn of the loop over the file. -/
def applyStep (kind : Kind) (p : Progress ρ φ) (want : Entry ρ φ) : Turn (Progress ρ φ) String :=
  let found := p.applied.find? fun entry => entry.tag = want.tag
  let p := { p with applied := p.applied.filter fun entry => entry.tag ≠ want.tag }
  match found with
  | none => env.recreateStep kind p none want (Outcome.add want.tag)
  | some have_ =>
      match env.diffOptions have_ want with
      | .error err => .stop p err
      | .ok (changed, fieldOnly) =>
          if (p.world.get kind want.tag).isNone then
            env.recreateStep kind p (some have_) want (Outcome.recreate want.tag)
          else if !changed then .next p
          else env.changedStep kind p have_ want fieldOnly

/-- Everything a turn that goes on can have done: the wanted definition runs now, or
nothing was done about an unchanged entry, or the field alone was replaced. -/
theorem applyStep_next (h : env.applyStep kind p want = .next p') :
    p'.applied = p.applied.filter (fun entry => entry.tag ≠ want.tag) ∧
    (env.Created kind p.world want p'.world ∨
      (p.applied.find? (fun entry => entry.tag = want.tag) = some want ∧
        p.world.get kind want.tag ≠ none ∧ p'.world.running = p.world.running) ∨
      ∃ have_ current, p.applied.find? (fun entry => entry.tag = want.tag) = some have_ ∧
        have_ ≠ want ∧ have_.SameRest want ∧ p.world.running kind want.tag = some current ∧
        p'.world.running =
          (p.world.set kind want.tag (some { current with field := want.field })).running) := by
  unfold applyStep at h
  simp only at h
  split at h
  next hfind => exact (env.recreateStep_next h).imp_right .inl
  next have_ hfind =>
    unfold diffOptions at h
    split at h
    · cases h
    rename_i changed fieldOnly hdiff
    -- what is down is created whether it changed or not
    split at h
    · exact (env.recreateStep_next h).imp_right .inl
    · rename_i live
      split at hdiff
      · cases hdiff
      · cases hdiff
      · split at hdiff
        · rename_i same
          cases hdiff
          cases h
          subst same
          refine ⟨rfl, .inr (.inl ⟨hfind, ?_, rfl⟩)⟩
          intro down
          simp [down] at live
        · rename_i differs
          cases hdiff
          obtain ⟨applied, created | ⟨rest, current, hcurrent, running⟩⟩ := env.changedStep_next h
          · exact ⟨applied, .inl created⟩
          · refine ⟨applied, .inr (.inr ⟨have_, current, hfind, differs, ?_, hcurrent, running⟩)⟩
            simpa using rest

/-- `applyInbounds` and `applyEndpoints`. -/
def applyEntries (kind : Kind) (w : World ρ φ) (applied desired : List (Entry ρ φ)) :
    World ρ φ × Except String Outcome :=
  match loop (env.applyStep kind) { world := w, applied := byTag applied } desired with
  | (p, some err) => (p.world, .error err)
  | (p, none) =>
      match loop (env.removeStep kind) p (env.order (p.applied.map (·.tag))) with
      | (p, some err) => (p.world, .error err)
      | (p, none) => (p.world, .ok p.outcome)

def applyInbounds (w : World ρ φ) (applied desired : List (Entry ρ φ)) :
    World ρ φ × Except String Outcome := env.applyEntries .inbound w applied desired

def applyEndpoints (w : World ρ φ) (applied desired : List (Entry ρ φ)) :
    World ρ φ × Except String Outcome := env.applyEntries .endpoint w applied desired

end Env

/-- The part of `option.Options` an apply looks at. -/
structure Config (ρ φ : Type) where
  inbounds : List (Entry ρ φ)
  endpoints : List (Entry ρ φ)

def Config.entries (config : Config ρ φ) : Kind → List (Entry ρ φ)
  | .inbound => config.inbounds
  | .endpoint => config.endpoints

/-- The file, the snapshot and the instance. -/
structure State (ρ φ : Type) where
  file : Config ρ φ
  applied : Config ρ φ
  world : World ρ φ

/-- What `applyConfig` answers. -/
structure Response where
  message : String
  inbounds : Outcome
  endpoints : Outcome
  deriving DecidableEq, Repr

def applyConfig [DecidableEq ρ] [DecidableEq φ] (env : Env ρ φ) (s : State ρ φ) :
    State ρ φ × Except String Response :=
  match env.applyInbounds s.world s.applied.inbounds s.file.inbounds with
  | (w, .error err) => ({ s with world := w }, .error err)
  | (w, .ok inbounds) =>
      match env.applyEndpoints w s.applied.endpoints s.file.endpoints with
      | (w, .error err) => ({ s with world := w }, .error err)
      | (w, .ok endpoints) =>
          ({ s with world := w, applied := s.file }, .ok
              { message :=
                  if inbounds.empty && endpoints.empty then "no changes to apply"
                  else "config applied"
                inbounds, endpoints })

end SingBox.ClashApi
