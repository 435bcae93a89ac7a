import Mathlib.Data.List.Nodup
import SingBox.Lib.System

/-!
# Connect attempts of a realm session

`protocol/hysteria2/realm_server.go`. `handleConnect` registers an attempt under its nonce, and when
it returns it deletes what is registered under the nonce. A response deletes the entry before the
attempt has returned, so that by then the nonce may be another attempt's.

* `Inv.moves` — what a step ends, and when attempts that have not returned keep different nonces;
* `attempts_own` — an entry goes only by a response, by the return of its own attempt or with its
  session, if no attempt takes the nonce of another one that has not returned.
-/

namespace SingBox.Hysteria2.Realm

open Lib List

def maxPendingAttempts : Nat := 16

/-- A call of `handleConnect`, by its nonce and its channel. -/
structure Attempt (Nonce : Type) where
  nonce : Nonce
  channel : Nat
  deriving DecidableEq

structure Session (Nonce : Type) where
  closed : Bool := false
  pending : List (Attempt Nonce) := []
  /-- The calls that were accepted and have not returned. -/
  running : List (Attempt Nonce) := []
  nextChannel : Nat := 0

inductive Label (Nonce : Type) where
  | registerPending (nonce : Nonce)
  | deliverPending (nonce : Nonce)
  | cancelPending (attempt : Attempt Nonce)
  | removeSessionLocked
  deriving DecidableEq

variable {Nonce : Type} [DecidableEq Nonce] (s : Session Nonce)

def Session.attempt (nonce : Nonce) : Attempt Nonce := ⟨nonce, s.nextChannel⟩

/-- `registerPending` does not accept the nonce. -/
abbrev Session.Refuses (nonce : Nonce) : Prop :=
  s.closed ∨ maxPendingAttempts ≤ s.pending.length ∨ nonce ∈ s.pending.map (·.nonce)

def Session.delete (nonce : Nonce) : Session Nonce :=
  { s with pending := s.pending.filter (·.nonce ≠ nonce) }

def step : Label Nonce → Option (Session Nonce)
  | .registerPending nonce =>
      if s.Refuses nonce then some s
      else some { s with
        pending := s.attempt nonce :: s.pending
        running := s.attempt nonce :: s.running
        nextChannel := s.nextChannel + 1 }
  | .deliverPending nonce => some (if s.closed then s else s.delete nonce)
  | .cancelPending attempt =>
      -- deferred by `handleConnect`, which may return at any time after it was accepted
      if attempt ∉ s.running then none
      else some { s.delete attempt.nonce with running := s.running.erase attempt }
  | .removeSessionLocked => some (if s.closed then s else { s with closed := true, pending := [] })

/-- The attempt gets a response or returns, or its session is closed. -/
abbrev Ends (l : Label Nonce) (attempt : Attempt Nonce) : Prop :=
  l = .deliverPending attempt.nonce ∨ l = .cancelPending attempt ∨ l = .removeSessionLocked

/-- An attempt that does not end stays registered. -/
abbrev Own (l : Label Nonce) : Prop :=
  ∀ s' ∈ step s l, ∀ attempt ∈ s.pending, attempt ∈ s'.pending ∨ Ends l attempt

/-- The nonce of an attempt that has not returned is not accepted. -/
def Fresh : Label Nonce → Prop
  | .registerPending nonce => nonce ∈ s.running.map (·.nonce) → s.Refuses nonce
  | _ => True

instance (l : Label Nonce) : Decidable (Fresh s l) := by
  cases l <;> unfold Fresh <;> infer_instance

structure Inv : Prop where
  registered : s.pending ⊆ s.running
  nonces : (s.running.map (·.nonce)).Nodup

variable {s} {s' : Session Nonce} {l : Label Nonce}

theorem Inv.moves (inv : Inv s) (taken : step s l = some s') :
    (∀ attempt ∈ s.pending, attempt ∈ s'.pending ∨ Ends l attempt) ∧ (Fresh s l → Inv s') := by
  cases l with
  | registerPending nonce =>
    by_cases refused : s.Refuses nonce
    · cases (if_pos refused).symm.trans taken
      exact ⟨fun _ mem => .inl mem, fun _ => inv⟩
    · cases (if_neg refused).symm.trans taken
      refine ⟨fun _ mem => .inl (mem_cons_of_mem _ mem), fun fresh => ?_⟩
      exact ⟨cons_subset_cons _ inv.registered,
        nodup_cons.mpr ⟨fun mem => refused (fresh mem), inv.nonces⟩⟩
  | deliverPending nonce =>
    cases taken
    split
    · exact ⟨fun _ mem => .inl mem, fun _ => inv⟩
    · refine ⟨fun attempt mem => ?_, fun _ => ⟨fun _ mem => ?_, inv.nonces⟩⟩
      · by_cases same : attempt.nonce = nonce
        · exact .inr (.inl (same ▸ rfl))
        · exact .inl (mem_filter.mpr ⟨mem, decide_eq_true same⟩)
      · exact inv.registered (mem_filter.mp mem).1
  | cancelPending returned =>
    obtain ⟨running, ⟨⟩⟩ := Option.ite_none_left_eq_some.mp taken
    refine ⟨fun attempt mem => ?_, fun _ => ⟨fun attempt mem => ?_, ?_⟩⟩
    · by_cases same : attempt.nonce = returned.nonce
      · -- neither has returned before
        obtain rfl := inj_on_of_nodup_map inv.nonces (inv.registered mem) (not_not.mp running) same
        exact .inr (.inr (.inl rfl))
      · exact .inl (mem_filter.mpr ⟨mem, decide_eq_true same⟩)
    · obtain ⟨there, other⟩ := mem_filter.mp mem
      refine (mem_erase_of_ne ?_).mpr (inv.registered there)
      rintro rfl
      simp at other
    · exact inv.nonces.sublist (erase_sublist.map _)
  | removeSessionLocked =>
    cases taken
    refine ⟨fun _ _ => .inr (.inr (.inr rfl)), fun _ => ?_⟩
    split
    · exact inv
    · exact ⟨nil_subset _, inv.nonces⟩

/-- As long as no attempt takes the nonce of another one that has not returned, an attempt stays
registered until it gets a response or returns, or its session is closed. -/
theorem attempts_own (labels : List (Label Nonce)) (fresh : Through step Fresh {} labels) :
    Through step Own {} labels := by
  have init : Inv ({} : Session Nonce) := ⟨nil_subset _, nodup_nil⟩
  have always := always_of_through Inv (fun _ _ _ inv fresh taken => (inv.moves taken).2 fresh)
    init fresh
  exact always.through fun s l inv s' taken => (inv.moves taken).1

/-- An attempt is answered and returns, and then another one takes its nonce. -/
theorem attempts_own_later :
    let labels : List (Label Nat) :=
      [.registerPending 7, .deliverPending 7, .cancelPending ⟨7, 0⟩, .registerPending 7]
    (steps step {} labels).isSome = true ∧ Through step Own {} labels :=
  ⟨by decide, attempts_own _ (by decide)⟩

/-- The other one takes the nonce before the first returns, which deletes the entry. -/
theorem attempts_own_reused :
    let labels : List (Label Nat) :=
      [.registerPending 7, .deliverPending 7, .registerPending 7, .cancelPending ⟨7, 0⟩]
    (steps step {} labels).isSome = true ∧ ¬ Through step Own {} labels := by
  decide

end SingBox.Hysteria2.Realm
