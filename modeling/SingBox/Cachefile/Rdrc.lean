import SingBox.Cachefile.DnsCache

/-!
# The rejected DNS responses of the cache file

`SaveRDRC` stores until when a name is rejected, and `LoadRDRC` reads it. A load that finds the
time past deletes the entry, but in a second transaction, and by its key.

* `Inv.step` — what a load that is about to delete has found stays so, if nothing is saved;
* `LoadRDRC_deletes` — a deleted entry is expired, if no save
  commits between the two transactions of a load.
-/

namespace SingBox.Cachefile.Rdrc

open Lib Option

/-- A `SaveRDRC` that has not committed; `async` if a goroutine of `SaveRDRCAsync` runs it. -/
structure Save where
  expiresAt : Time
  async : Bool
  deriving DecidableEq

/-- The cache file as the calls for one transport, name and type see it, the clock, and how many
calls are at each point. -/
structure State where
  now : Time
  rdrcTimeout : Time
  /-- What the database has under the key. -/
  content : Option Time := none
  /-- If the key is in the map. -/
  saveRDRC : Bool := false
  /-- Loads before their first transaction, and loads with `deleteCache` set. -/
  viewing : Nat := 0
  deleting : Nat := 0
  /-- Goroutines of `SaveRDRCAsync` before and after their `SaveRDRC`. -/
  queued : Nat := 0
  saved : Nat := 0
  saves : List Save := []

inductive Label where
  | tick (elapsed : Nat)
  | LoadRDRC
  | view (refused : Bool)
  | delete (refused : Bool)
  | SaveRDRC (async : Bool)
  | batch (save : Save) (refused : Bool)
  | SaveRDRCAsync
  | forget

variable (s : State)

def step : Label → Option State
  | .tick elapsed => some { s with now := s.now + elapsed }
  | .LoadRDRC => some (if s.saveRDRC then s else { s with viewing := s.viewing + 1 })
  | .view refused =>
      if s.viewing = 0 then none
      else
        let deleteCache := !refused && s.content.any (· < s.now)
        some { s with
          viewing := s.viewing - 1
          deleting := if deleteCache then s.deleting + 1 else s.deleting }
  | .delete refused =>
      if s.deleting = 0 then none
      else some { s with
        deleting := s.deleting - 1
        content := if refused then s.content else none }
  | .SaveRDRC async =>
      if async ∧ s.queued = 0 then none
      else some { s with
        queued := if async then s.queued - 1 else s.queued
        saves := ⟨Time.stored (s.now + s.rdrcTimeout), async⟩ :: s.saves }
  | .batch save refused =>
      if save ∉ s.saves then none
      else some { s with
        saves := s.saves.erase save
        content := if refused then s.content else some save.expiresAt
        saved := if save.async then s.saved + 1 else s.saved }
  | .SaveRDRCAsync => some { s with saveRDRC := true, queued := s.queued + 1 }
  | .forget =>
      if s.saved = 0 then none else some { s with saved := s.saved - 1, saveRDRC := false }

/-- No save commits while a load is between its two transactions. -/
def Calm : Label → Prop
  | .batch _ refused => refused = true ∨ s.deleting = 0
  | _ => True

/-- What a load deletes is expired. -/
def Expired : Label → Prop
  | .delete _ => s.deleting ≠ 0 → ∀ expiresAt ∈ s.content, expiresAt < s.now
  | _ => True

instance (s : State) (l : Label) : Decidable (Calm s l) := by
  cases l <;> unfold Calm <;> infer_instance

instance (s : State) (l : Label) : Decidable (Expired s l) := by
  cases l <;> unfold Expired <;> infer_instance

def Inv : Prop := s.deleting ≠ 0 → ∀ expiresAt ∈ s.content, expiresAt < s.now

theorem Inv.step {s s' : State} {l : Label} (inv : Inv s) (calm : Calm s l)
    (taken : step s l = some s') : Inv s' := by
  cases l with
  | tick elapsed =>
    cases taken
    intro deleting expiresAt mem
    have later : s.now ≤ s.now + elapsed := Int.le_add_of_nonneg_right (Int.natCast_nonneg _)
    exact Int.lt_of_lt_of_le (inv deleting expiresAt mem) later
  | view refused =>
    obtain ⟨-, ⟨⟩⟩ := ite_none_left_eq_some.mp taken
    cases passed : !refused && s.content.any (· < s.now) with
    | true =>
      -- this load is the one that found the entry expired
      intro _ expiresAt mem
      simp_all
    | false => exact inv
  | delete refused =>
    obtain ⟨running, ⟨⟩⟩ := ite_none_left_eq_some.mp taken
    intro _ expiresAt mem
    cases refused with
    | true => exact inv running expiresAt mem
    | false => cases mem
  | batch save refused =>
    obtain ⟨-, ⟨⟩⟩ := ite_none_left_eq_some.mp taken
    intro deleting
    rcases calm with rfl | none
    · exact inv deleting
    · exact absurd none deleting
  | LoadRDRC =>
    cases taken
    split <;> exact inv
  | SaveRDRCAsync =>
    cases taken
    exact inv
  | SaveRDRC _ | forget =>
    obtain ⟨-, ⟨⟩⟩ := ite_none_left_eq_some.mp taken
    exact inv

theorem LoadRDRC_deletes (now rdrcTimeout : Time) (content : Option Time) (labels : List Label)
    (calm : Through step Calm { now, rdrcTimeout, content } labels) :
    Through step Expired { now, rdrcTimeout, content } labels := by
  have always := always_of_through Inv (fun _ _ _ => Inv.step) (fun none => absurd rfl none) calm
  refine always.through fun s l inv => ?_
  cases l with
  | delete refused => exact inv
  | _ => trivial

/-- A rejection for a minute is saved, found expired and deleted. -/
def deletion (between : List Label) : List Label :=
  [.SaveRDRC false, .batch ⟨60000000000, false⟩ false, .tick 61000000000, .LoadRDRC, .view false] ++
    between ++ [.delete false]

theorem LoadRDRC_deletes_once :
    (steps step { now := 0, rdrcTimeout := 60000000000 } (deletion [])).isSome = true ∧
      Through step Expired { now := 0, rdrcTimeout := 60000000000 } (deletion []) :=
  ⟨by decide, LoadRDRC_deletes 0 60000000000 none _ (by decide)⟩

/-- The rejection is saved again between the two transactions. -/
theorem LoadRDRC_deletes_resaved :
    let between := [.SaveRDRC false, .batch ⟨121000000000, false⟩ false]
    (steps step { now := 0, rdrcTimeout := 60000000000 } (deletion between)).isSome = true ∧
      ¬ Through step Expired { now := 0, rdrcTimeout := 60000000000 } (deletion between) := by
  decide

end SingBox.Cachefile.Rdrc
