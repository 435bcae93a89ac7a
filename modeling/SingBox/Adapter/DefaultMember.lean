import Mathlib.Data.List.Nodup
import SingBox.Adapter.DependTable

/-!
# The default of the managers

`defaultOutbound`, `defaultTransport` and `fakeIPTransport` are pointers beside the index. `Create`
moves the default only for the configured tag, or for the first member if none is configured;
`Remove` moves it only if the default itself is removed. The FakeIP transport is set once.

Both managers close what is replaced, and what has been removed without an error, once they are
started. A call whose component cannot be closed returns before it changes anything, as one whose
component cannot be made.

* `Sound` — the list and the index have the same members, and none of them has been closed: this
  holds whatever the calls are, so no object is closed twice (`members_open`);
* `live_event_iff` — a call leaves the default a live member exactly under a condition on the tag;
* `default_live_iff` — the same for whole sequences of calls.
-/

namespace SingBox.Managers

open SingBox.Lib Function Option
open Manager

/-! ## Runs with the objects that were closed -/

/-- A call, or a stage of the start that only marks the manager as started. -/
inductive Event where
  | call (call : Call)
  | started

def Event.op : Event → Op
  | .call asked => .call asked
  | .started => .otherStage

/-- A manager, and the objects it has closed so far. -/
structure History where
  manager : Manager
  closed : List Nat

/-- The member under the tag, if `closes`. -/
def closedAt (s : Manager) (tag : String) (closes : Bool) : List Nat :=
  if closes then (s.byTag tag).toList.map (·.id) else []

variable (kind : Kind)

def closedBy (s : Manager) : Event → List Nat
  | .call (.create request) => closedAt s request.tag (s.started && (s.build request).toBool)
  | .call (.remove tag) =>
      closedAt s tag (s.started && decide ((exec kind s (.remove tag)).2 = .ok))
  | .started => []

theorem mem_closedAt {s : Manager} {tag : String} {closes : Bool} {id : Nat}
    (h : id ∈ closedAt s tag closes) : ∃ old, s.byTag tag = some old ∧ id = old.id := by
  unfold closedAt at h
  split at h
  · obtain ⟨old, found, rfl⟩ := List.mem_map.mp h
    exact ⟨old, mem_toList.mp found, rfl⟩
  · cases h

def eventStep (w : History) (event : Event) : Option History :=
  (step kind w.manager event.op).map fun s' => ⟨s', w.closed ++ closedBy kind w.manager event⟩

def newHistory (defaultTag : String) : History := ⟨newManager defaultTag, []⟩

/-- The default is no member or the one registered under its tag, and has not been closed; the
default of the DNS manager is not FakeIP; the FakeIP transport is registered, if there is one. -/
structure Live (kind : Kind) (w : History) : Prop where
  registered : ∀ d, w.manager.defaultMember = some d → w.manager.byTag d.tag = some d
  notClosed : ∀ d, w.manager.defaultMember = some d → d.id ∉ w.closed
  notFakeIP : kind = .dns → ∀ d, w.manager.defaultMember = some d → d.type ≠ dnsTypeFakeIP
  fakeIP : ∀ f, w.manager.fakeIPTransport = some f → w.manager.byTag f.tag = some f

/-- A component that replaces the default becomes the default, and none replaces the FakeIP
transport. The DNS manager removes its default only as the last transport, and does not remove
the FakeIP transport. -/
def Event.KeepsLive (s : Manager) : Event → Prop
  | .call (.create request) => ∀ member ∈ (s.build request).toOption,
      (∀ d ∈ s.defaultMember, d.tag = request.tag → s.becomesDefault request.tag = true ∧
        (kind = .dns → member.type ≠ dnsTypeFakeIP)) ∧
      ∀ f ∈ s.fakeIPTransport, f.tag ≠ request.tag
  | .call (.remove tag) => kind = .dns →
      (∀ d ∈ s.defaultMember, d.tag = tag → s.members.length = 1) ∧
      ∀ f ∈ s.fakeIPTransport, f.tag ≠ tag
  | .started => True

instance Event.KeepsLive.decidable (kind : Kind) (s : Manager) :
    (event : Event) → Decidable (event.KeepsLive kind s)
  | .call (.create _) => inferInstanceAs (Decidable (∀ _ ∈ _, _))
  | .call (.remove _) => inferInstanceAs (Decidable (_ → _))
  | .started => inferInstanceAs (Decidable True)

/-! ## What a call does to the default -/

def createdDefault (s : Manager) (tag : String) (member : Member) : Option Member :=
  if s.becomesDefault tag && !(kind == .dns && member.type == dnsTypeFakeIP) then some member
  else s.defaultMember

def createdFakeIP (s : Manager) (tag : String) (member : Member) : Option Member :=
  if kind == .dns && member.type == dnsTypeFakeIP && !s.becomesDefault tag &&
    s.fakeIPTransport.isNone then some member else s.fakeIPTransport

/-- The default after `Remove` of the default, with the rest of the list. The DNS manager returns
before it sets a transport that is not FakeIP. -/
def nextDefault (s : Manager) (members : List Member) : Option Member :=
  match kind, members.head? with
  | _, none => none
  | .outbound, some next => some next
  | .dns, some next => if next.type ≠ dnsTypeFakeIP then s.defaultMember else some next

open List

section Default

variable {kind : Kind} {s : Manager}

/-- What `Create` leaves once the component has been made, whether it returns an error or not. -/
structure Put (kind : Kind) (s : Manager) (tag : String) (member : Member) (members : List Member)
    (result : Manager × Outcome) : Prop where
  noPanic : result.2 ≠ .panic
  list : result.1.members = members ++ [member]
  byTag : result.1.byTag = update s.byTag tag (some member)
  next : result.1.next = s.next + 1
  defaultMember : result.1.defaultMember = createdDefault kind s tag member
  fakeIPTransport : result.1.fakeIPTransport = createdFakeIP kind s tag member

variable {members : List Member} {member : Member}

theorem create_put {request : Request} (built : s.build request = .ok member)
    (replaced : s.replaced request.tag = some members) :
    Put kind s request.tag member members (exec kind s (.create request)) := by
  have asked : (s.register request.tag member members).becomesDefault request.tag =
      s.becomesDefault request.tag := rfl
  cases kind with
  | outbound =>
    simp only [exec, createOutbound, built, replaced, asked]
    split <;> refine ⟨nofun, rfl, rfl, rfl, ?_, rfl⟩ <;> simp_all [createdDefault, register]
  | dns =>
    simp only [exec, createTransport, built, replaced, settleTransport, admitFakeIP, asked]
    cases becomes : s.becomesDefault request.tag <;>
      cases fakeIP : member.type == dnsTypeFakeIP <;>
      cases present : s.fakeIPTransport <;>
      refine ⟨?_, ?_, ?_, ?_, ?_, ?_⟩ <;>
      simp [createdDefault, createdFakeIP, register, becomes, fakeIP, present]

/-- What `Remove` leaves, whether it returns an error or not. -/
structure Left (kind : Kind) (s : Manager) (tag : String) (member : Member) (members : List Member)
    (result : Manager × Outcome) : Prop where
  noPanic : result.2 ≠ .panic
  list : result.1.members = members
  byTag : result.1.byTag = update s.byTag tag none
  next : result.1.next = s.next
  defaultMember : result.1.defaultMember =
    if s.isDefault member then nextDefault kind s members else s.defaultMember
  fakeIPTransport : result.1.fakeIPTransport = s.fakeIPTransport

theorem Left.unregister {s' : Manager} {tag : String}
    (left : Left kind s tag member members (s', .ok)) :
    Left kind s tag member members (s'.unregister kind tag member) := by
  unfold Manager.unregister
  split <;> exact { left with noPanic := nofun }

theorem remove_left {tag : String} (found : s.byTag tag = some member)
    (listed : s.without member = some members) :
    Left kind s tag member members (exec kind s (.remove tag)) := by
  -- the list is searched, and the default asked for, after the index has changed
  have listed' : ({ s with byTag := update s.byTag tag none } : Manager).without member =
      some members := listed
  have asked : ({ s with byTag := update s.byTag tag none, members } :
    Manager).isDefault member = s.isDefault member := rfl
  cases kind with
  | outbound =>
    simp only [exec, removeOutbound, found, listed', asked]
    split
    case isTrue yes =>
      refine Left.unregister ⟨nofun, rfl, rfl, rfl, ?_, rfl⟩
      cases members <;> exact (if_pos yes).symm
    case isFalse no => exact Left.unregister ⟨nofun, rfl, rfl, rfl, (if_neg no).symm, rfl⟩
  | dns =>
    simp only [exec, removeTransport, found, listed', asked]
    split
    case isTrue yes =>
      cases members with
      | nil => exact Left.unregister ⟨nofun, rfl, rfl, rfl, (if_pos yes).symm, rfl⟩
      | cons next rest =>
        dsimp only [head?_cons]
        split
        case isTrue other =>
          exact ⟨nofun, rfl, rfl, rfl, ((if_pos yes).trans (if_pos other)).symm, rfl⟩
        case isFalse fakeIP =>
          refine Left.unregister ⟨nofun, rfl, rfl, rfl, ?_, rfl⟩
          exact ((if_pos yes).trans (if_neg fakeIP)).symm
    case isFalse no => exact Left.unregister ⟨nofun, rfl, rfl, rfl, (if_neg no).symm, rfl⟩

end Default

/-! ## What holds whatever is called -/

/-- The list and the index have the same members, under their own tags. An object is in the list
once, and has not been closed. -/
structure Sound (kind : Kind) (w : History) : Prop where
  listed : ∀ member, member ∈ w.manager.members ↔ w.manager.byTag member.tag = some member
  tagged : ∀ tag member, w.manager.byTag tag = some member → member.tag = tag
  numbered : Numbered w.manager
  unique : (w.manager.members.map (·.id)).Nodup
  closed : ∀ id ∈ w.closed, id < w.manager.next ∧
    ∀ tag member, w.manager.byTag tag = some member → member.id ≠ id
  noFakeIP : kind = .outbound → w.manager.fakeIPTransport = none

theorem sound_new (kind : Kind) (defaultTag : String) : Sound kind (newHistory defaultTag) :=
  ⟨fun _ => ⟨nofun, nofun⟩, nofun, nofun, .nil, nofun, fun _ => rfl⟩

theorem mem_eraseP_id {members : List Member} (unique : (members.map (·.id)).Nodup) {n : Nat}
    {x : Member} : x ∈ members.eraseP (·.id == n) ↔ x ∈ members ∧ x.id ≠ n := by
  induction members with
  | nil => simp
  | cons y rest ih =>
    obtain ⟨others, later⟩ := nodup_cons.mp unique
    by_cases here : y.id = n
    · have apart : x ∈ rest → x.id ≠ n := fun mem same =>
        others (mem_map.mpr ⟨x, mem, same.trans here.symm⟩)
      rw [eraseP_cons_of_pos (by simpa using here), mem_cons]
      grind
    · rw [eraseP_cons_of_neg (by simpa using here), mem_cons, mem_cons, ih later]
      grind

/-- A call that changes the list and the index under one tag: the member there goes, and `new`
comes if there is one. -/
structure Moved (w w' : History) (tag : String) (new : Option Member) : Prop where
  mem : ∀ x, x ∈ w'.manager.members ↔ (x ∈ w.manager.members ∧ x.tag ≠ tag) ∨ new = some x
  unique : (w'.manager.members.map (·.id)).Nodup
  byTag : w'.manager.byTag = update w.manager.byTag tag new
  next : w.manager.next ≤ w'.manager.next
  fresh : ∀ member, new = some member →
    member.tag = tag ∧ member.id = w.manager.next ∧ w.manager.next < w'.manager.next
  closed : ∀ id ∈ w'.closed, id ∈ w.closed ∨ ∃ old, w.manager.byTag tag = some old ∧ id = old.id

section Sound

variable {kind : Kind} {w w' : History}

variable {tag : String} {member : Member}

theorem Sound.mem_of_registered (sound : Sound kind w) (found : w.manager.byTag tag = some member) :
    member ∈ w.manager.members := by
  exact (sound.listed member).mpr (sound.tagged tag member found ▸ found)

theorem Sound.eq_of_id (sound : Sound kind w) {t t' : String} {x y : Member}
    (hx : w.manager.byTag t = some x) (hy : w.manager.byTag t' = some y) (same : x.id = y.id) :
    x = y :=
  inj_on_of_nodup_map sound.unique (sound.mem_of_registered hx) (sound.mem_of_registered hy)
    same

/-- A registered member is found in the list, and what is left are the members with other tags. -/
theorem Sound.without (sound : Sound kind w) (found : w.manager.byTag tag = some member) :
    ∃ members, w.manager.without member = some members ∧ (members.map (·.id)).Nodup ∧
      ∀ x, x ∈ members ↔ x ∈ w.manager.members ∧ x.tag ≠ tag := by
  have mem := sound.mem_of_registered found
  refine ⟨_, if_pos ?_, sound.unique.sublist (eraseP_sublist.map _), fun x => ?_⟩
  · exact any_eq_true.mpr ⟨member, mem, beq_self_eq_true _⟩
  · rw [mem_eraseP_id sound.unique]
    refine and_congr_right fun here => not_congr ?_
    have registered := (sound.listed x).mp here
    constructor
    · intro same
      rw [sound.eq_of_id registered found same]
      exact sound.tagged tag member found
    · intro same
      rw [same] at registered
      cases registered.symm.trans found
      rfl

theorem Sound.moved {new : Option Member} (sound : Sound kind w) (moved : Moved w w' tag new)
    (noFakeIP : kind = .outbound → w'.manager.fakeIPTransport = w.manager.fakeIPTransport) :
    Sound kind w' := by
  have there {t : String} {member : Member} (found : w'.manager.byTag t = some member) :
      t = tag ∧ new = some member ∨ t ≠ tag ∧ w.manager.byTag t = some member :=
    of_update (moved.byTag ▸ found)
  refine ⟨fun member => ?_, fun t member found => ?_, ?_, moved.unique, fun id mem => ?_,
    fun outbound => (noFakeIP outbound).trans (sound.noFakeIP outbound)⟩
  · rw [moved.mem, moved.byTag, sound.listed]
    by_cases here : member.tag = tag
    · rw [here, update_self]
      exact ⟨fun h => h.elim (fun h => absurd rfl h.2) id, .inr⟩
    · rw [update_of_ne here]
      refine ⟨fun h => h.elim (fun h => h.1) fun h => ?_, fun h => .inl ⟨h, here⟩⟩
      exact absurd (moved.fresh member h).1 here
  · rcases there found with ⟨rfl, isNew⟩ | ⟨-, before⟩
    · exact (moved.fresh member isNew).1
    · exact sound.tagged t member before
  · refine sound.numbered.update moved.byTag moved.next fun member isNew => ?_
    obtain ⟨-, number, more⟩ := moved.fresh member isNew
    exact number ▸ more
  · have known : id < w.manager.next ∧ ∀ t member, t ≠ tag →
        w.manager.byTag t = some member → member.id ≠ id := by
      rcases moved.closed id mem with before | ⟨old, found, rfl⟩
      · obtain ⟨small, other⟩ := sound.closed id before
        exact ⟨small, fun t member _ => other t member⟩
      · refine ⟨sound.numbered tag old found, fun t member ne found' same => ne ?_⟩
        rw [← sound.tagged t member found', sound.eq_of_id found' found same]
        exact sound.tagged tag old found
    refine ⟨Nat.lt_of_lt_of_le known.1 moved.next, fun t member found => ?_⟩
    rcases there found with ⟨-, isNew⟩ | ⟨ne, before⟩
    · rw [(moved.fresh member isNew).2.1]
      exact (Nat.ne_of_lt known.1).symm
    · exact known.2 t member ne before

/-! ## One call -/

theorem eventStep_call {call : Call} (noPanic : (exec kind w.manager call).2 ≠ .panic) :
    eventStep kind w (.call call) =
      some ⟨(exec kind w.manager call).1, w.closed ++ closedBy kind w.manager (.call call)⟩ := by
  simp only [eventStep, Event.op, step, if_neg noPanic, map_some]

theorem Sound.replaced (sound : Sound kind w) (tag : String) :
    ∃ members, w.manager.replaced tag = some members ∧ (members.map (·.id)).Nodup ∧
      ∀ x, x ∈ members ↔ x ∈ w.manager.members ∧ x.tag ≠ tag := by
  unfold Manager.replaced
  cases found : w.manager.byTag tag with
  | some existing => exact sound.without found
  | none =>
    refine ⟨_, rfl, sound.unique, fun x => (and_iff_left_of_imp fun mem same => ?_).symm⟩
    cases found.symm.trans (same ▸ (sound.listed x).mp mem)

theorem eventStep_create (sound : Sound kind w) (request : Request) :
    (w.manager.build request).toOption = none ∧
        eventStep kind w (.call (.create request)) = some w ∨
      ∃ member w', w.manager.build request = .ok member ∧
        eventStep kind w (.call (.create request)) = some w' ∧
        Moved w w' request.tag (some member) ∧
        w'.manager.defaultMember = createdDefault kind w.manager request.tag member ∧
        w'.manager.fakeIPTransport = createdFakeIP kind w.manager request.tag member := by
  cases built : w.manager.build request with
  | error e =>
    refine .inl ⟨rfl, ?_⟩
    have failed : exec kind w.manager (.create request) = (w.manager, .error e) := by
      cases kind <;> simp only [exec, createOutbound, createTransport, built]
    rw [eventStep_call (by rw [failed]; nofun), failed]
    simp [closedBy, closedAt, built, Except.toBool]
  | ok member =>
    obtain ⟨members, replaced, unique, others⟩ := sound.replaced request.tag
    have put := @create_put kind _ _ _ _ built replaced
    obtain ⟨number, tagged, -⟩ := build_ok built
    refine .inr ⟨member, _, rfl, eventStep_call put.noPanic, ?_, put.defaultMember,
      put.fakeIPTransport⟩
    refine ⟨fun x => ?_, ?_, put.byTag, put.next ▸ Nat.le_succ _, ?_, fun id mem => ?_⟩
    · show x ∈ (exec kind w.manager (.create request)).1.members ↔ _
      rw [put.list, mem_append, others, mem_singleton, some.injEq]
      exact or_congr_right eq_comm
    · show ((exec kind w.manager (.create request)).1.members.map (·.id)).Nodup
      rw [put.list, map_append, map_singleton, ← concat_eq_append]
      refine unique.concat fun mem => ?_
      obtain ⟨x, here, same⟩ := mem_map.mp mem
      have small := sound.numbered _ x ((sound.listed x).mp ((others x).mp here).1)
      rw [same, number] at small
      exact Nat.lt_irrefl _ small
    · intro new isNew
      cases isNew
      exact ⟨tagged, number, put.next ▸ Nat.lt_succ_self _⟩
    · exact (mem_append.mp mem).imp_right mem_closedAt

theorem eventStep_remove (sound : Sound kind w) (tag : String) :
    w.manager.byTag tag = none ∧ eventStep kind w (.call (.remove tag)) = some w ∨
      ∃ member w', w.manager.byTag tag = some member ∧
        eventStep kind w (.call (.remove tag)) = some w' ∧ Moved w w' tag none ∧
        w'.manager.defaultMember = (if w.manager.isDefault member then
          nextDefault kind w.manager w'.manager.members else w.manager.defaultMember) ∧
        w'.manager.fakeIPTransport = w.manager.fakeIPTransport := by
  cases found : w.manager.byTag tag with
  | none =>
    refine .inl ⟨rfl, ?_⟩
    have failed : exec kind w.manager (.remove tag) = (w.manager, .error .invalid) := by
      cases kind <;> simp only [exec, removeOutbound, removeTransport, found]
    rw [eventStep_call (by rw [failed]; nofun), failed]
    simp [closedBy, closedAt, found]
  | some member =>
    obtain ⟨members, listed, unique, others⟩ := sound.without found
    have left := @remove_left kind _ _ _ _ found listed
    refine .inr ⟨member, _, rfl, eventStep_call left.noPanic, ?_, ?_, left.fakeIPTransport⟩
    · refine ⟨fun x => ?_, ?_, left.byTag, left.next ▸ Nat.le_refl _, nofun, fun id mem => ?_⟩
      · exact (left.list ▸ others x).trans (or_iff_left (some_ne_none x).symm).symm
      · exact left.list ▸ unique
      · exact (mem_append.mp mem).imp_right mem_closedAt
    · show (exec kind w.manager (.remove tag)).1.defaultMember = _
      rw [left.defaultMember, left.list]

theorem eventStep_started : eventStep kind w .started =
    some ⟨{ w.manager with started := true }, w.closed⟩ := by
  simp [eventStep, Event.op, step, closedBy]

/-- Every event can happen, and leaves the list and the index sound. -/
theorem Sound.event (sound : Sound kind w) (event : Event) :
    ∃ w', eventStep kind w event = some w' ∧ Sound kind w' := by
  match event with
  | .call (.create request) =>
    rcases eventStep_create sound request with ⟨-, taken⟩ | ⟨member, w', -, taken, moved, -, fakeIP⟩
    · exact ⟨w, taken, sound⟩
    · refine ⟨w', taken, sound.moved moved fun outbound => ?_⟩
      subst outbound
      exact fakeIP
  | .call (.remove tag) =>
    rcases eventStep_remove sound tag with ⟨-, taken⟩ | ⟨member, w', -, taken, moved, -, fakeIP⟩
    · exact ⟨w, taken, sound⟩
    · exact ⟨w', taken, sound.moved moved fun _ => fakeIP⟩
  | .started =>
    exact ⟨_, eventStep_started, { sound with }⟩

end Sound

/-! ## The default after a call -/

section Live

variable {kind : Kind} {w w' : History}

/-- What is registered has not been closed. -/
theorem live_iff (sound : Sound kind w) : Live kind w ↔
    (∀ d, w.manager.defaultMember = some d →
      w.manager.byTag d.tag = some d ∧ (kind = .dns → d.type ≠ dnsTypeFakeIP)) ∧
    ∀ f, w.manager.fakeIPTransport = some f → w.manager.byTag f.tag = some f := by
  constructor
  · intro live
    exact ⟨fun d h => ⟨live.registered d h, fun dns => live.notFakeIP dns d h⟩, live.fakeIP⟩
  · rintro ⟨default, fakeIP⟩
    refine ⟨fun d h => (default d h).1, fun d h mem => ?_, fun dns d h => (default d h).2 dns,
      fakeIP⟩
    exact (sound.closed d.id mem).2 d.tag d (default d h).1 rfl

variable {tag : String} {member : Member}

theorem Moved.kept_iff {new : Option Member} (sound : Sound kind w) (moved : Moved w w' tag new)
    {d : Member} (before : w.manager.byTag d.tag = some d) :
    w'.manager.byTag d.tag = some d ↔ d.tag ≠ tag := by
  rw [moved.byTag]
  constructor
  · intro after same
    rw [same, update_self] at after
    have number := (moved.fresh d after).2.1
    have small := sound.numbered d.tag d before
    rw [number] at small
    exact Nat.lt_irrefl _ small
  · intro ne
    rw [update_of_ne ne]
    exact before

theorem Moved.new_registered (moved : Moved w w' tag (some member)) :
    w'.manager.byTag member.tag = some member := by
  rw [moved.byTag, (moved.fresh member rfl).1, update_self]

variable (sound : Sound kind w)
include sound

/-- The default is left alone unless the new member takes over. -/
theorem default_created_iff (live : Live kind w) (moved : Moved w w' tag (some member)) :
    (∀ d, createdDefault kind w.manager tag member = some d →
      w'.manager.byTag d.tag = some d ∧ (kind = .dns → d.type ≠ dnsTypeFakeIP)) ↔
    ∀ d ∈ w.manager.defaultMember, d.tag = tag →
      w.manager.becomesDefault tag = true ∧ (kind = .dns → member.type ≠ dnsTypeFakeIP) := by
  have takes : (w.manager.becomesDefault tag &&
      !(kind == .dns && member.type == dnsTypeFakeIP)) = true ↔
      w.manager.becomesDefault tag = true ∧ (kind = .dns → member.type ≠ dnsTypeFakeIP) := by
    simp [imp_iff_not_or]
  unfold createdDefault
  split
  case isTrue yes =>
    refine iff_of_true (fun d isNew => ?_) fun _ _ _ => takes.mp yes
    cases isNew
    exact ⟨moved.new_registered, (takes.mp yes).2⟩
  case isFalse no =>
    refine forall_congr' fun d => imp_congr_right fun isDefault => ?_
    rw [moved.kept_iff sound (live.registered d isDefault),
      and_iff_left fun dns => live.notFakeIP dns d isDefault]
    exact imp_congr_right fun _ => iff_of_false not_false (mt takes.mpr no)

theorem fakeIP_created_iff (live : Live kind w) (moved : Moved w w' tag (some member)) :
    (∀ f, createdFakeIP kind w.manager tag member = some f → w'.manager.byTag f.tag = some f) ↔
    ∀ f ∈ w.manager.fakeIPTransport, f.tag ≠ tag := by
  unfold createdFakeIP
  split
  case isTrue yes =>
    have absent : w.manager.fakeIPTransport = none := by
      simp only [Bool.and_eq_true, isNone_iff_eq_none] at yes
      exact yes.2
    refine iff_of_true (fun f isNew => ?_) fun f present => ?_
    · cases isNew
      exact moved.new_registered
    · cases absent.symm.trans present
  case isFalse no =>
    exact forall_congr' fun f => imp_congr_right fun present =>
      moved.kept_iff sound (live.fakeIP f present)

theorem live_create_iff (sound' : Sound kind w') (live : Live kind w) {request : Request}
    (taken : eventStep kind w (.call (.create request)) = some w') :
    Live kind w' ↔ (Event.call (.create request)).KeepsLive kind w.manager := by
  obtain ⟨failed, same⟩ | ⟨member, w'', built, step, moved, default, fakeIP⟩ :=
    eventStep_create sound request
  · cases same.symm.trans taken
    refine iff_of_true live fun member made => ?_
    cases failed.symm.trans made
  · cases step.symm.trans taken
    rw [live_iff sound', default, fakeIP, default_created_iff sound live moved,
      fakeIP_created_iff sound live moved]
    simp only [Event.KeepsLive, built, Except.toOption, mem_some_iff, forall_eq']

theorem Sound.isDefault_iff (live : Live kind w) (found : w.manager.byTag tag = some member) :
    w.manager.isDefault member = true ↔ w.manager.defaultMember = some member := by
  unfold isDefault
  constructor
  · intro yes
    obtain ⟨d, isDefault, same⟩ := (any_eq_true _ _).mp yes
    rw [isDefault, sound.eq_of_id (live.registered d isDefault) found (beq_iff_eq.mp same)]
  · intro isDefault
    rw [isDefault]
    exact beq_self_eq_true _

theorem Moved.empty_iff (found : w.manager.byTag tag = some member) (moved : Moved w w' tag none) :
    w'.manager.members = [] ↔ w.manager.members.length = 1 := by
  have here := sound.mem_of_registered found
  have tagged := sound.tagged tag member found
  rw [eq_nil_iff_forall_not_mem]
  constructor
  · intro none
    have only : ∀ x ∈ w.manager.members, x = member := by
      intro x mem
      have same : x.tag = tag := by
        by_contra ne
        exact none x ((moved.mem x).mpr (.inl ⟨mem, ne⟩))
      have registered := (sound.listed x).mp mem
      rw [same, found] at registered
      exact (some.inj registered).symm
    have nodup := sound.unique.of_map
    rw [eq_replicate_of_mem only, nodup_replicate] at nodup
    exact Nat.le_antisymm nodup (length_pos_of_mem here)
  · intro one x mem
    obtain ⟨only, single⟩ := length_eq_one_iff.mp one
    rcases (moved.mem x).mp mem with ⟨before, ne⟩ | isNew
    · rw [single, mem_singleton] at before here
      exact ne ((before.trans here.symm).symm ▸ tagged)
    · cases isNew

/-- The default is moved only if it is removed itself, and then to a live member unless the DNS
manager has another transport. -/
theorem default_removed_iff (sound' : Sound kind w') (live : Live kind w)
    (found : w.manager.byTag tag = some member) (moved : Moved w w' tag none) :
    (∀ d, (if w.manager.isDefault member then nextDefault kind w.manager w'.manager.members
        else w.manager.defaultMember) = some d →
      w'.manager.byTag d.tag = some d ∧ (kind = .dns → d.type ≠ dnsTypeFakeIP)) ↔
    (kind = .dns → ∀ d ∈ w.manager.defaultMember, d.tag = tag → w.manager.members.length = 1) := by
  have tagged := sound.tagged tag member found
  have isDefault := sound.isDefault_iff live found
  split
  case isTrue yes =>
    have default := isDefault.mp yes
    rw [← moved.empty_iff sound found, default]
    unfold nextDefault
    cases members : w'.manager.members with
    | nil =>
      refine iff_of_true (fun d h => ?_) fun _ _ _ _ => rfl
      cases kind <;> cases h
    | cons next rest =>
      have registered : w'.manager.byTag next.tag = some next :=
        (sound'.listed next).mp (members ▸ mem_cons_self)
      cases kind with
      | outbound =>
        refine iff_of_true (fun d h => ?_) fun dns => absurd dns (by decide)
        cases h
        exact ⟨registered, fun dns => absurd dns (by decide)⟩
      | dns =>
        -- the default is kept though it has left, or a FakeIP transport takes its place
        refine iff_of_false (fun all => ?_) fun one => ?_
        · dsimp only [head?_cons] at all
          split at all
          case isTrue other =>
            have kept := (moved.kept_iff sound (tagged ▸ found)).mp (all member default).1
            exact kept tagged
          case isFalse fakeIP => exact (all next rfl).2 rfl (not_not.mp fakeIP)
        · cases one rfl member rfl tagged
  case isFalse no =>
    have other : ∀ d, w.manager.defaultMember = some d → d.tag ≠ tag := by
      intro d h same
      have registered := live.registered d h
      rw [same, found] at registered
      cases registered
      exact no (isDefault.mpr h)
    refine iff_of_true (fun d h => ?_) fun _ d h same => absurd same (other d h)
    exact ⟨(moved.kept_iff sound (live.registered d h)).mpr (other d h),
      fun dns => live.notFakeIP dns d h⟩

theorem live_remove_iff (sound' : Sound kind w') (live : Live kind w)
    (taken : eventStep kind w (.call (.remove tag)) = some w') :
    Live kind w' ↔ (Event.call (.remove tag)).KeepsLive kind w.manager := by
  obtain ⟨missing, same⟩ | ⟨member, w'', found, step, moved, default, fakeIP⟩ :=
    eventStep_remove sound tag
  · cases same.symm.trans taken
    refine iff_of_true live fun _ => ⟨fun d isDefault same => ?_, fun f present same => ?_⟩
    · cases missing.symm.trans (same ▸ live.registered d isDefault)
    · cases missing.symm.trans (same ▸ live.fakeIP f present)
  · cases step.symm.trans taken
    rw [live_iff sound', default, fakeIP, default_removed_iff sound sound' live found moved]
    have gone : (∀ f, w.manager.fakeIPTransport = some f → w'.manager.byTag f.tag = some f) ↔
        (kind = .dns → ∀ f ∈ w.manager.fakeIPTransport, f.tag ≠ tag) := by
      cases kind with
      | outbound =>
        refine iff_of_true (fun f present => ?_) fun dns => absurd dns (by decide)
        cases (sound.noFakeIP rfl).symm.trans present
      | dns =>
        rw [forall_prop_of_true rfl]
        exact forall_congr' fun f => imp_congr_right fun present =>
          moved.kept_iff sound (live.fakeIP f present)
    rw [gone, ← forall_and]
    rfl

theorem live_event_iff (live : Live kind w) {event : Event}
    (taken : eventStep kind w event = some w') : Live kind w' ↔ event.KeepsLive kind w.manager := by
  obtain ⟨w₂, again, sound'⟩ := sound.event event
  cases taken.symm.trans again
  -- `started` only sets a flag
  match event with
  | .call (.create request) => exact live_create_iff sound sound' live taken
  | .call (.remove tag) => exact live_remove_iff sound sound' live taken
  | .started =>
    cases eventStep_started.symm.trans taken
    exact iff_of_true { live with } trivial

end Live

/-! ## Sequences of calls -/

/-- Any sequence of calls can be made, whether they return an error or not. The default is a live
member after every one of them if and only if a component that replaces the default always becomes
the default, the DNS manager never removes its default while it has another transport, and its
FakeIP transport is neither replaced nor removed. -/
theorem default_live_iff (kind : Kind) (defaultTag : String) (events : List Event) :
    (∃ w, steps (eventStep kind) (newHistory defaultTag) events = some w) ∧
    (Always (eventStep kind) (Live kind) (newHistory defaultTag) events ↔
      Through (eventStep kind) (fun w event => event.KeepsLive kind w.manager)
        (newHistory defaultTag) events) := by
  have keep : ∀ w event w', Sound kind w → eventStep kind w event = some w' → Sound kind w' := by
    intro w event w' sound taken
    obtain ⟨w₂, again, sound'⟩ := sound.event event
    cases taken.symm.trans again
    exact sound'
  have total : ∀ w event, Sound kind w → ∃ w', eventStep kind w event = some w' :=
    fun w event sound => (sound.event event).imp fun _ h => h.1
  have sound := sound_new kind defaultTag
  exact ⟨steps_total (Sound kind) keep total sound events,
    always_iff_through_of (Sound kind) (Live kind) keep total
      (fun w event w' sound live taken => live_event_iff sound live taken) sound
      ⟨nofun, nofun, fun _ => nofun, nofun⟩⟩

/-- Without a configured default the first outbound is the default. Its replacement is not, and the
default is an outbound that has been closed. The DNS manager does not let go of a default it has
removed, makes FakeIP the default if that is what is left, and returns a FakeIP transport that is
not registered any more. -/
theorem default_not_live :
    (∃ w old new, steps (eventStep .outbound) (newHistory "")
        [.call (creates "proxy" "vless" []), .started, .call (creates "proxy" "trojan" [])] =
          some w ∧
      w.manager.defaultMember = some old ∧ w.manager.byTag old.tag = some new ∧ new ≠ old ∧
      old.id ∈ w.closed ∧ ¬ Live .outbound w) ∧
    (∃ w old, steps (eventStep .dns) (newHistory "")
        [.call (creates "local" "local" []), .call (creates "remote" "udp" []),
          .call (.remove "local")] = some w ∧
      w.manager.defaultMember = some old ∧ w.manager.byTag old.tag = none ∧ ¬ Live .dns w) ∧
    (∃ w d, steps (eventStep .dns) (newHistory "")
        [.call (creates "local" "local" []), .call (creates "fake" "fakeip" []),
          .call (.remove "local")] = some w ∧
      w.manager.defaultMember = some d ∧ d.type = dnsTypeFakeIP ∧ ¬ Live .dns w) ∧
    (∃ w f, steps (eventStep .dns) (newHistory "")
        [.call (creates "local" "local" []), .call (creates "fake" "fakeip" []),
          .call (.remove "fake")] = some w ∧
      w.manager.fakeIPTransport = some f ∧ w.manager.byTag f.tag = none ∧ ¬ Live .dns w) := by
  refine ⟨⟨_, _, _, rfl, rfl, rfl, by decide, by decide, fun live => ?_⟩,
    ⟨_, _, rfl, rfl, rfl, fun live => ?_⟩, ⟨_, _, rfl, rfl, rfl, fun live => ?_⟩,
    ⟨_, _, rfl, rfl, rfl, fun live => ?_⟩⟩
  · exact live.notClosed _ rfl (by decide)
  · cases live.registered _ rfl
  · exact live.notFakeIP rfl _ rfl rfl
  · cases live.fakeIP _ rfl

/-- Where the configured default is replaced, the replacement takes over. -/
example : Through (eventStep .outbound) (fun w event => event.KeepsLive .outbound w.manager)
    (newHistory "proxy") [.call (creates "direct" "direct" []), .call (creates "proxy" "vless" []),
      .started, .call (creates "proxy" "trojan" []), .call (.remove "proxy")] := by
  decide

end SingBox.Managers
