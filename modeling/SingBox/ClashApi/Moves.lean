import SingBox.ClashApi.Apply
import SingBox.Lib.System

/-!
# What an apply can do to the instance

Every change of what runs comes with a call of a manager or of a component. `Moves`
says so of every step of an apply, whether it fails or not; what can come up under a
tag is a parameter.

* `Moves.eq_or_log` — without a call nothing has changed;
* `Moves.running` — what runs was running before, or may come up;
* `applyEntries_moves` — an apply only moves.
-/

namespace SingBox.ClashApi

open Lib Function

variable {ρ φ : Type}

/-- Calls for components of the kind lead from one world to the other, and only bring
up entries that `ok` admits for their tag. -/
inductive Moves (kind : Kind) (ok : String → Entry ρ φ → Prop) : World ρ φ → World ρ φ → Prop
  | refl (w : World ρ φ) : Moves kind ok w w
  | failed {w w' : World ρ φ} (call : Call) (before : Moves kind ok w w') :
      Moves kind ok w (w'.logged call)
  | down {w w' : World ρ φ} (call : Call) (tag : String) (before : Moves kind ok w w') :
      Moves kind ok w ((w'.logged call).set kind tag none)
  | up {w w' : World ρ φ} (call : Call) {tag : String} {entry : Entry ρ φ} (admits : ok tag entry)
      (before : Moves kind ok w w') : Moves kind ok w ((w'.logged call).set kind tag (some entry))

namespace Moves

variable {kind : Kind} {ok : String → Entry ρ φ → Prop} {w w' w'' : World ρ φ}

theorem trans (first : Moves kind ok w w') (second : Moves kind ok w' w'') :
    Moves kind ok w w'' := by
  induction second with
  | refl => exact first
  | failed call _ ih => exact .failed call ih
  | down call tag _ ih => exact .down call tag ih
  | up call admits _ ih => exact .up call admits ih

variable (moves : Moves kind ok w w')
include moves

theorem other {kind' : Kind} (hkind : kind' ≠ kind) : w'.running kind' = w.running kind' := by
  induction moves with
  | refl => rfl
  | failed call _ ih => exact ih
  | down call tag _ ih | up call _ _ ih =>
    rw [World.running_set_ne _ hkind]
    exact ih

theorem running {tag : String} {entry : Entry ρ φ} (runs : w'.running kind tag = some entry) :
    w.running kind tag = some entry ∨ ok tag entry := by
  induction moves with
  | refl => exact .inl runs
  | failed call _ ih => exact ih runs
  | down call gone _ ih =>
    rw [World.running_set] at runs
    obtain ⟨-, ⟨⟩⟩ | ⟨-, kept⟩ := of_update runs
    exact ih kept
  | @up _ _ new _ admits _ ih =>
    rw [World.running_set] at runs
    obtain ⟨same, ⟨⟩⟩ | ⟨-, kept⟩ := of_update runs
    · exact .inr (same ▸ admits)
    · exact ih kept

/-- Without a call nothing has changed. -/
theorem eq_or_log : w' = w ∨ w.log.length < w'.log.length := by
  have lengthen : ∀ {v : World ρ φ} (call : Call), v = w ∨ w.log.length < v.log.length →
      w.log.length < (v.log ++ [call]).length := by
    intro v call before
    rw [List.length_append]
    rcases before with rfl | longer
    · exact Nat.lt_succ_self _
    · exact Nat.lt_succ_of_lt longer
  induction moves with
  | refl => exact .inl rfl
  | failed call _ ih | down call _ _ ih | up call _ _ ih => exact .inr (lengthen call ih)

theorem log_le : w.log.length ≤ w'.log.length := by
  rcases moves.eq_or_log with rfl | longer
  · exact Nat.le_refl _
  · exact Nat.le_of_lt longer

end Moves

namespace Env

variable (env : Env ρ φ) (kind : Kind) {ok : String → Entry ρ φ → Prop} (w : World ρ φ)

theorem create_moves (entry : Option (Entry ρ φ))
    (admits : ∀ e, entry = some e → ok e.tag e) :
    Moves kind ok w (env.create kind w entry).1 := by
  cases entry with
  | none => exact .failed _ (.refl w)
  | some entry =>
    unfold create
    simp only
    split
    · exact .failed _ (.refl w)
    · exact .up _ (admits entry rfl) (.refl w)

theorem remove_moves (tag : String) :
    Moves kind ok w (env.remove kind w tag).1 := by
  unfold remove
  simp only
  split
  · exact .failed _ (.refl w)
  · exact .down _ tag (.refl w)

theorem createOrRollback_moves (existed : Bool) (w : World ρ φ) (have_ : Option (Entry ρ φ))
    (want : Entry ρ φ) (okHave : ∀ e, have_ = some e → ok e.tag e) (okWant : ok want.tag want) :
    Moves kind ok w (env.createOrRollback kind existed w have_ want).1 := by
  have created : Moves kind ok w (env.create kind w (some want)).1 := by
    apply env.create_moves
    rintro _ ⟨⟩
    exact okWant
  unfold createOrRollback
  generalize env.create kind w (some want) = result at created ⊢
  obtain ⟨w₁, _ | err⟩ := result
  · exact created
  · dsimp only
    split
    · have back := env.create_moves kind w₁ have_ okHave
      generalize env.create kind w₁ have_ = result at back ⊢
      obtain ⟨w₂, _ | backErr⟩ := result <;> exact created.trans back
    · exact created

theorem recreate_moves (have_ : Option (Entry ρ φ)) (want : Entry ρ φ)
    (okHave : ∀ e, have_ = some e → ok e.tag e) (okWant : ok want.tag want) :
    Moves kind ok w (env.recreate kind w have_ want).1 := by
  unfold recreate
  split
  · exact env.createOrRollback_moves kind false w have_ want okHave okWant
  · have removed : Moves kind ok w (env.remove kind w want.tag).1 :=
      env.remove_moves kind w want.tag
    generalize env.remove kind w want.tag = result at removed ⊢
    obtain ⟨w₁, _ | err⟩ := result
    · exact removed.trans (env.createOrRollback_moves kind true w₁ have_ want okHave okWant)
    · exact removed

variable (p : Progress ρ φ)

theorem recreateStep_moves (have_ : Option (Entry ρ φ)) (want : Entry ρ φ)
    (record : Outcome → Outcome) (okHave : ∀ e, have_ = some e → ok e.tag e)
    (okWant : ok want.tag want) :
    (env.recreateStep kind p have_ want record).state.applied = p.applied ∧
      Moves kind ok p.world (env.recreateStep kind p have_ want record).state.world := by
  have moves := env.recreate_moves kind p.world have_ want okHave okWant
  unfold recreateStep
  generalize env.recreate kind p.world have_ want = result at moves ⊢
  obtain ⟨w, _ | err⟩ := result <;> exact ⟨rfl, moves⟩

theorem reload_moves (current want : Entry ρ φ)
    (okReload : ok want.tag { current with field := want.field }) :
    Moves kind ok w (env.reload kind w current want).1 := by
  unfold reload
  simp only
  split
  · exact .failed _ (.refl w)
  · split
    · exact .failed _ (.refl w)
    · exact .up _ okReload (.refl w)

theorem changedStep_moves (have_ want : Entry ρ φ) (fieldOnly : Bool)
    (okReload : fieldOnly = true → ∀ current, p.world.running kind want.tag = some current →
      ok want.tag { current with field := want.field })
    (okHave : ok have_.tag have_) (okWant : ok want.tag want) :
    (env.changedStep kind p have_ want fieldOnly).state.applied = p.applied ∧
      Moves kind ok p.world (env.changedStep kind p have_ want fieldOnly).state.world := by
  have okSome : ∀ e, some have_ = some e → ok e.tag e := by
    rintro _ ⟨⟩
    exact okHave
  unfold changedStep
  split
  next current hcurrent =>
    split
    · rename_i reloads
      simp only [Bool.and_eq_true] at reloads
      have moves := env.reload_moves kind p.world current want
        (okReload reloads.1.1 current hcurrent)
      generalize env.reload kind p.world current want = result at moves ⊢
      obtain ⟨w, _ | err⟩ := result
      · exact ⟨rfl, moves⟩
      · obtain ⟨applied, more⟩ := env.recreateStep_moves kind { p with world := w } (some have_)
          want (Outcome.recreate want.tag) okSome okWant
        exact ⟨applied, moves.trans more⟩
    · exact env.recreateStep_moves kind p (some have_) want _ okSome okWant
  next => exact env.recreateStep_moves kind p (some have_) want _ okSome okWant

theorem removeStep_moves (tag : String) :
    Moves kind ok p.world (env.removeStep kind p tag).state.world := by
  unfold removeStep
  split
  · exact .refl _
  · have moves : Moves kind ok p.world (env.remove kind p.world tag).1 :=
      env.remove_moves kind p.world tag
    generalize env.remove kind p.world tag = result at moves ⊢
    obtain ⟨w, _ | err⟩ := result <;> exact moves

theorem removeLoop_moves (tags : List String) :
    Moves kind ok p.world (loop (env.removeStep kind) p tags).1.world :=
  loop_keeps (fun q : Progress ρ φ => Moves kind ok p.world q.world)
    (fun q tag moves => moves.trans (env.removeStep_moves kind q tag)) p tags (.refl _)

variable [DecidableEq ρ] [DecidableEq φ]

theorem applyStep_moves (want : Entry ρ φ) (okWant : ok want.tag want)
    (okHave : ∀ have_ ∈ p.applied, ok have_.tag have_)
    (okReload : ∀ have_ ∈ p.applied, have_.SameRest want →
      ∀ current, p.world.running kind want.tag = some current →
        ok want.tag { current with field := want.field }) :
    (env.applyStep kind p want).state.applied =
        p.applied.filter (fun entry => entry.tag ≠ want.tag) ∧
      Moves kind ok p.world (env.applyStep kind p want).state.world := by
  unfold applyStep
  simp only
  split
  next hfind =>
    exact env.recreateStep_moves kind _ none want (Outcome.add want.tag) (by rintro _ ⟨⟩) okWant
  next have_ hfind =>
    have memHave := List.mem_of_find?_eq_some hfind
    split
    · exact ⟨rfl, .refl _⟩
    · rename_i changed fieldOnly hdiff
      split
      · exact env.recreateStep_moves kind _ (some have_) want (Outcome.recreate want.tag)
          (by rintro _ ⟨⟩; exact okHave have_ memHave) okWant
      · split
        · exact ⟨rfl, .refl _⟩
        · apply env.changedStep_moves kind _ have_ want fieldOnly _ (okHave have_ memHave) okWant
          intro only current hcurrent
          exact okReload have_ memHave (env.diffOptions_sameRest (only ▸ hdiff)) current hcurrent

theorem applyStep_moves_any (want : Entry ρ φ) :
    Moves kind (fun _ _ => True) p.world (env.applyStep kind p want).state.world :=
  (env.applyStep_moves kind p want trivial (fun _ _ => trivial) (fun _ _ _ _ _ => trivial)).2

/-- What the loop over the file brings up is all that an apply brings up. -/
theorem applyEntries_moves_of_loop {w : World ρ φ} {applied desired : List (Entry ρ φ)}
    (first : Moves kind ok w
      (loop (env.applyStep kind) { world := w, applied := byTag applied } desired).1.world) :
    Moves kind ok w (env.applyEntries kind w applied desired).1 := by
  unfold applyEntries
  generalize loop (env.applyStep kind) { world := w, applied := byTag applied } desired = result
    at first ⊢
  obtain ⟨p, _ | err⟩ := result
  · have second := first.trans
      (env.removeLoop_moves kind p (env.order (p.applied.map (·.tag))))
    dsimp only
    generalize loop (env.removeStep kind) p (env.order (p.applied.map (·.tag))) = result
      at second ⊢
    obtain ⟨q, _ | err⟩ := result <;> exact second
  · exact first

theorem applyEntries_moves (applied desired : List (Entry ρ φ)) :
    Moves kind (fun _ _ => True) w (env.applyEntries kind w applied desired).1 := by
  apply env.applyEntries_moves_of_loop
  exact loop_keeps (fun p : Progress ρ φ => Moves kind (fun _ _ => True) w p.world)
    (fun p want moves => moves.trans (env.applyStep_moves_any kind p want))
    { world := w, applied := byTag applied } desired (.refl w)

end Env

end SingBox.ClashApi
