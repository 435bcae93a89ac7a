import SingBox.Adapter.Manager

/-!
# The dependency table of the managers

`dependByTag` is kept step by step: `Create` appends the tag to the list of every dependency of the
new member, `Remove` takes it out of the lists of the dependencies of the old one. A member that is
replaced leaves its entries behind, and a list of length one is deleted without a look at who is in
it, which happens to the wrong one when a member names a dependency twice.

* `exact_called_iff` — a call without an error keeps the table exact exactly under a condition on
  what is replaced or removed;
* `remove_refused_iff` — on an exact table `Remove` is refused if a member depends on the tag, or
  if the DNS manager refuses the next default;
* `dependents_exact_iff` — the two for whole sequences of calls.
-/

namespace SingBox.Managers

open SingBox.Lib Function List
open Manager

/-- A tag is in the list of `d` exactly if the member registered under it lists `d` among its
dependencies. -/
def Exact (s : Manager) : Prop :=
  ∀ t d, t ∈ s.dependByTag d ↔ ∃ member, s.byTag t = some member ∧ d ∈ member.dependencies

/-- A registered member depends on the tag. -/
def HasDependents (s : Manager) (tag : String) : Prop :=
  ∃ t other, s.byTag t = some other ∧ tag ∈ other.dependencies

/-- A call that returns no error. -/
def callStep (kind : Kind) (s : Manager) (call : Call) : Option Manager :=
  if (exec kind s call).2 = .ok then some (exec kind s call).1 else none

/-- A member that is replaced has no dependency the new one is without; and where a member that is
removed lists a dependency twice, there is not exactly one other entry. -/
def Call.KeepsExact (s : Manager) : Call → Prop
  | .create request => ∀ old ∈ s.byTag request.tag, ∀ made ∈ request.created.toOption,
      ∀ d ∈ old.dependencies, d ∈ made.2
  | .remove tag => ∀ member ∈ s.byTag tag, ∀ d ∈ member.dependencies,
      2 ≤ member.dependencies.count d → ((s.dependByTag d).filter (· ≠ tag)).length ≠ 1

instance Call.KeepsExact.decidable (s : Manager) : (call : Call) → Decidable (call.KeepsExact s)
  | .create _ => inferInstanceAs (Decidable (∀ _ ∈ _, _))
  | .remove _ => inferInstanceAs (Decidable (∀ _ ∈ _, _))

/-! ## What a call without an error does -/

section Step

variable {kind : Kind} {s s' : Manager}

theorem callStep_create {request : Request} (h : callStep kind s (.create request) = some s') :
    ∃ member members, s.build request = .ok member ∧ s.replaced request.tag = some members ∧
      s'.members = members ++ [member] ∧
      s'.byTag = update s.byTag request.tag (some member) ∧
      s'.dependByTag = depend request.tag member.dependencies s.dependByTag ∧
      s'.next = s.next + 1 := by
  unfold callStep at h
  split at h <;> cases h
  case isTrue ok =>
    generalize exec kind s (.create request) = result, create_cases kind s request = cases at ok ⊢
    cases cases with
    | failed | panics => cases ok
    | registered built replaced list byTag dependByTag next =>
      exact ⟨_, _, built, replaced, list, byTag, dependByTag, next⟩

theorem callStep_remove {tag : String} (h : callStep kind s (.remove tag) = some s') :
    ∃ member members, s.byTag tag = some member ∧ s.without member = some members ∧
      s'.members = members ∧ s'.byTag = update s.byTag tag none ∧
      s.dependByTag tag = [] ∧
      s'.dependByTag = undepend tag member.dependencies s.dependByTag ∧ s'.next = s.next := by
  unfold callStep at h
  split at h <;> cases h
  case isTrue ok =>
    generalize exec kind s (.remove tag) = result, remove_cases kind s tag = cases at ok ⊢
    cases cases with
    | missing | panics | blocked => cases ok
    | unregistered found listed list byTag next dependByTag free =>
      unfold unregister at ok ⊢
      split at ok
      case isTrue => cases ok
      case isFalse none =>
        rw [if_neg none]
        rw [dependByTag] at none
        have empty : s.dependByTag tag = [] := by simpa using none
        refine ⟨_, _, found, listed, list, byTag, empty, ?_, next⟩
        rw [dependByTag]

/-- After `Create` the table is exact if the member that was replaced, if any, has left no entry
that the new one would not make. -/
theorem exact_create_iff {request : Request} (exact : Exact s)
    (h : callStep kind s (.create request) = some s') :
    Exact s' ↔ (Call.create request).KeepsExact s := by
  obtain ⟨member, members, built, -, -, byTag, dependByTag, -⟩ := callStep_create h
  have made := (build_ok built).2.2
  constructor
  · intro exact' old found made' isMade d mem
    rw [made] at isMade
    cases isMade
    have entry : request.tag ∈ s.dependByTag d := (exact _ _).mpr ⟨old, found, mem⟩
    obtain ⟨member', found', mem'⟩ := (exact' request.tag d).mp
      (by rw [dependByTag, mem_depend]; exact .inl entry)
    rw [byTag, update_self] at found'
    cases found'
    exact mem'
  · intro keeps t d
    rw [dependByTag, mem_depend, byTag]
    by_cases same : t = request.tag
    · subst same
      rw [update_self]
      constructor
      · rintro (entry | ⟨-, mem⟩)
        · obtain ⟨old, found, mem⟩ := (exact _ _).mp entry
          exact ⟨member, rfl, keeps old found _ (by rw [made]; rfl) d mem⟩
        · exact ⟨member, rfl, mem⟩
      · rintro ⟨member', isMember, mem⟩
        cases isMember
        exact .inr ⟨rfl, mem⟩
    · rw [update_of_ne same, ← exact t d]
      exact ⟨fun h => h.elim id fun h => absurd h.1 same, .inl⟩

theorem undepend_exact {tag d : String} {member : Member} (exact : Exact s)
    (found : s.byTag tag = some member) :
    undepend tag member.dependencies s.dependByTag d =
      if 2 ≤ member.dependencies.count d ∧ ((s.dependByTag d).filter (· ≠ tag)).length = 1 then []
      else (s.dependByTag d).filter (· ≠ tag) := by
  by_cases mem : d ∈ member.dependencies
  · have entry : tag ∈ s.dependByTag d := (exact tag d).mpr ⟨member, found, mem⟩
    obtain ⟨n, count⟩ := Nat.exists_eq_succ_of_ne_zero
      (Nat.pos_iff_ne_zero.mp (count_pos_iff.mpr mem))
    rw [undepend_apply, count, iterate_turn entry]
    have more : 0 < n ↔ 2 ≤ n + 1 := by omega
    simp only [more]
  · have noEntry : tag ∉ s.dependByTag d := by
      intro entry
      obtain ⟨member', found', mem'⟩ := (exact tag d).mp entry
      cases found.symm.trans found'
      exact mem mem'
    have kept : (s.dependByTag d).filter (· ≠ tag) = s.dependByTag d :=
      filter_eq_self.mpr fun x xmem => decide_eq_true fun same => noEntry (same ▸ xmem)
    rw [undepend_apply, kept, count_eq_zero_of_not_mem mem]
    simp

/-- After `Remove` the table is exact unless an entry of another member went with a dependency that
was listed twice. -/
theorem exact_remove_iff {tag : String} (exact : Exact s)
    (h : callStep kind s (.remove tag) = some s') :
    Exact s' ↔ (Call.remove tag).KeepsExact s := by
  obtain ⟨member, members, found, -, -, byTag, -, dependByTag, -⟩ := callStep_remove h
  have table (d : String) : s'.dependByTag d = _ :=
    (congrFun dependByTag d).trans (undepend_exact exact found)
  constructor
  · intro exact' member' found' d mem twice one
    cases found.symm.trans found'
    obtain ⟨u, only⟩ := length_eq_one_iff.mp one
    have entry : u ∈ (s.dependByTag d).filter (· ≠ tag) := only ▸ mem_singleton_self u
    obtain ⟨here, other⟩ := mem_filter.mp entry
    obtain ⟨owner, registered, depends⟩ := (exact u d).mp here
    have gone : u ∈ s'.dependByTag d := by
      refine (exact' u d).mpr ⟨owner, ?_, depends⟩
      rw [byTag, update_of_ne (of_decide_eq_true other)]
      exact registered
    rw [table, if_pos ⟨twice, one⟩] at gone
    cases gone
  · intro keeps t d
    have kept : s'.dependByTag d = (s.dependByTag d).filter (· ≠ tag) := by
      rw [table, if_neg]
      rintro ⟨twice, one⟩
      have mem : d ∈ member.dependencies :=
        count_pos_iff.mp (Nat.lt_of_lt_of_le Nat.two_pos twice)
      exact keeps member found d mem twice one
    rw [kept, mem_filter, decide_eq_true_iff, exact t d, byTag]
    by_cases same : t = tag
    · subst same
      simp
    · rw [update_of_ne same]
      exact and_iff_left same

theorem exact_called_iff {call : Call} (exact : Exact s) (h : callStep kind s call = some s') :
    Exact s' ↔ call.KeepsExact s := by
  cases call with
  | create request => exact exact_create_iff exact h
  | remove tag => exact exact_remove_iff exact h

end Step

/-! ## The list and the index -/

/-- Every member of the index is in the list, and under one tag only. -/
structure Indexed (s : Manager) : Prop where
  numbered : Numbered s
  distinct : ∀ t t' member member', s.byTag t = some member → s.byTag t' = some member' →
    member.id = member'.id → t = t'
  listed : ∀ t member, s.byTag t = some member → ∃ x ∈ s.members, x.id = member.id

section Indexed

variable {kind : Kind} {s s' : Manager}

variable {member : Member} {tag : String}

variable (indexed : Indexed s)
include indexed

theorem Indexed.without (found : s.byTag tag = some member) :
    s.without member = some (s.members.eraseP (·.id == member.id)) := by
  obtain ⟨x, mem, same⟩ := indexed.listed tag member found
  have there : (x.id == member.id) = true := beq_iff_eq.mpr same
  exact if_pos (any_eq_true.mpr ⟨x, mem, there⟩)

theorem Indexed.listed_without {t : String} {other : Member} {members : List Member}
    (found : s.byTag tag = some member) (listed : s.without member = some members) (ne : t ≠ tag)
    (found' : s.byTag t = some other) : ∃ x ∈ members, x.id = other.id := by
  obtain ⟨x, mem, same⟩ := indexed.listed t other found'
  refine ⟨x, ?_, same⟩
  have distinct : ¬ (x.id == member.id) = true := by
    intro equal
    have number : other.id = member.id := same.symm.trans (beq_iff_eq.mp equal)
    exact ne (indexed.distinct t tag other member found' found number)
  obtain ⟨-, ⟨⟩⟩ := Option.ite_none_right_eq_some.mp listed
  refine (mem_eraseP_of_neg ?_).mpr mem
  exact distinct

theorem Indexed.create {request : Request} (h : callStep kind s (.create request) = some s') :
    Indexed s' := by
  obtain ⟨member, members, built, replaced, list, byTag, -, next⟩ := callStep_create h
  have fresh := (build_ok built).1
  have kept : ∀ t other, t ≠ request.tag → s.byTag t = some other →
      ∃ x ∈ members, x.id = other.id := by
    intro t other ne found
    unfold Manager.replaced at replaced
    split at replaced
    case h_1 =>
      cases replaced
      exact indexed.listed t other found
    case h_2 existing foundOld => exact indexed.listed_without foundOld replaced ne found
  refine ⟨?_, ?_, ?_⟩
  · refine indexed.numbered.update byTag (next ▸ Nat.le_succ _) fun new isNew => ?_
    cases isNew
    rw [fresh, next]
    exact Nat.lt_succ_self _
  · -- the new object has a number no other has
    have number : ∀ t other, s.byTag t = some other → other.id ≠ member.id := by
      intro t other found same
      have small := indexed.numbered t other found
      rw [same, fresh] at small
      exact absurd small (Nat.lt_irrefl _)
    intro t t' one two foundOne foundTwo same
    rw [byTag] at foundOne foundTwo
    rcases of_update foundOne with ⟨here, ⟨⟩⟩ | ⟨-, old⟩ <;>
      rcases of_update foundTwo with ⟨here', ⟨⟩⟩ | ⟨-, old'⟩
    · rw [here, here']
    · exact absurd same.symm (number t' two old')
    · exact absurd same (number t one old)
    · exact indexed.distinct t t' one two old old' same
  · intro t other found
    rw [byTag] at found
    rw [list]
    rcases of_update found with ⟨-, ⟨⟩⟩ | ⟨ne, old⟩
    · exact ⟨member, mem_append_right _ (mem_singleton_self _), rfl⟩
    · obtain ⟨x, mem, same⟩ := kept t other ne old
      exact ⟨x, mem_append_left _ mem, same⟩

theorem Indexed.remove (h : callStep kind s (.remove tag) = some s') : Indexed s' := by
  obtain ⟨member, members, found, listed, list, byTag, -, -, next⟩ := callStep_remove h
  have old {t : String} {other : Member} (foundOther : s'.byTag t = some other) :
      t ≠ tag ∧ s.byTag t = some other :=
    (of_update (byTag ▸ foundOther)).resolve_left fun ⟨_, gone⟩ => by cases gone
  refine ⟨?_, ?_, ?_⟩
  · exact indexed.numbered.update byTag (next ▸ Nat.le_refl _) nofun
  · intro t t' one two foundOne foundTwo
    exact indexed.distinct t t' one two (old foundOne).2 (old foundTwo).2
  · intro t other foundOther
    obtain ⟨ne, before⟩ := old foundOther
    rw [list]
    exact indexed.listed_without found listed ne before

theorem Indexed.called {call : Call} (h : callStep kind s call = some s') : Indexed s' := by
  cases call with
  | create request => exact indexed.create h
  | remove tag => exact indexed.remove h

/-- On an exact table `Remove` of a registered tag fails if a registered member depends on it, or if
it is the default of the DNS manager and the next transport is not FakeIP. -/
theorem remove_refused_iff (exact : Exact s) (found : s.byTag tag = some member) :
    (∃ e, (exec kind s (.remove tag)).2 = .error e) ↔
      HasDependents s tag ∨ Blocked kind s member (s.members.eraseP (·.id == member.id)) := by
  have listed := indexed.without found
  have dependents : HasDependents s tag ↔ 0 < (s.dependByTag tag).length := by
    rw [length_pos_iff_exists_mem]
    exact exists_congr fun t => (exact t tag).symm
  rw [dependents]
  generalize exec kind s (.remove tag) = result, remove_cases kind s tag = cases
  cases cases with
  | missing absent => cases absent.symm.trans found
  | panics found' unlisted =>
    cases found.symm.trans found'
    cases listed.symm.trans unlisted
  | blocked found' listed' byTag next blocked =>
    cases found.symm.trans found'
    cases listed.symm.trans listed'
    exact iff_of_true ⟨_, rfl⟩ (.inr blocked)
  | unregistered found' listed' list byTag next dependByTag free =>
    cases found.symm.trans found'
    cases listed.symm.trans listed'
    rw [or_iff_left free]
    unfold unregister
    rw [dependByTag]
    split
    case isTrue some => exact iff_of_true ⟨_, rfl⟩ some
    case isFalse none => exact iff_of_false nofun none

end Indexed

/-! ## Sequences of calls -/

/-- `Remove` of a registered tag fails exactly if a registered member depends on it. -/
def RefusesDependents (kind : Kind) (s : Manager) : Prop :=
  ∀ tag member, s.byTag tag = some member →
    ((∃ e, (exec kind s (.remove tag)).2 = .error e) ↔ HasDependents s tag)

/-- A default that the DNS manager keeps because of the next transport has dependents. -/
def BlockedDepended (kind : Kind) (s : Manager) : Prop :=
  ∀ tag member, s.byTag tag = some member →
    Blocked kind s member (s.members.eraseP (·.id == member.id)) → HasDependents s tag

/-- Along a sequence of calls without an error the table is exact and `Remove` is refused exactly
for what a registered member depends on, at every point, if and only if no member is replaced by one
without one of its dependencies, no member is removed that lists a dependency twice which exactly
one other entry shares, and no default that the DNS manager would keep is without dependents. The
first two conditions are those for the table alone; and where the table is exact, only such a
default makes a difference. -/
theorem dependents_exact_iff (kind : Kind) (defaultTag : String) {calls : List Call} {s : Manager}
    (run : steps (callStep kind) (newManager defaultTag) calls = some s) :
    (Always (callStep kind) (fun s => Exact s ∧ RefusesDependents kind s) (newManager defaultTag)
        calls ↔
      Through (callStep kind) (fun s call => call.KeepsExact s) (newManager defaultTag) calls ∧
        Always (callStep kind) (BlockedDepended kind) (newManager defaultTag) calls) ∧
    (Always (callStep kind) Exact (newManager defaultTag) calls ↔
      Through (callStep kind) (fun s call => call.KeepsExact s) (newManager defaultTag) calls) ∧
    (Exact s → ∀ tag member, s.byTag tag = some member →
      ((∃ e, (exec kind s (.remove tag)).2 = .error e) ↔ HasDependents s tag ∨
        Blocked kind s member (s.members.eraseP (·.id == member.id)))) := by
  have indexed {calls : List Call} {s : Manager}
      (run : steps (callStep kind) (newManager defaultTag) calls = some s) : Indexed s :=
    steps_keeps Indexed (fun _ _ _ indexed taken => indexed.called taken)
      ⟨by nofun, by nofun, by nofun⟩ run
  have table : Always (callStep kind) Exact (newManager defaultTag) calls ↔
      Through (callStep kind) (fun s call => call.KeepsExact s) (newManager defaultTag) calls :=
    always_iff_through Exact (fun s call s' exact taken => exact_called_iff exact taken)
      (fun t d => by simp [newManager]) run
  refine ⟨⟨fun always => ⟨table.mp (always.imp fun _ h => h.1), ?_⟩, ?_⟩, table, ?_⟩
  · intro first second middle split reached tag member found blocked
    obtain ⟨exact, refuses⟩ := always first second middle split reached
    refine (refuses tag member found).mp ?_
    exact (remove_refused_iff (indexed reached) exact found).mpr (.inr blocked)
  · rintro ⟨through, depended⟩ first second middle split reached
    have exact := table.mpr through first second middle split reached
    refine ⟨exact, fun tag member found => ?_⟩
    refine (remove_refused_iff (indexed reached) exact found).trans (or_iff_left_of_imp ?_)
    exact depended first second middle split reached tag member found
  · exact fun exact tag member found => remove_refused_iff (indexed run) exact found

/-- A replacement that keeps the dependency, and a removal. -/
def exactCalls : List Call :=
  [creates "direct" "direct" [], creates "proxy" "vless" ["direct"],
    creates "proxy" "trojan" ["direct"], creates "auto" "urltest" ["proxy", "direct"],
    .remove "auto"]

theorem dependents_exact_replaced :
    ∃ s, steps (callStep .outbound) (newManager "") exactCalls = some s ∧
      Always (callStep .outbound) (fun s => Exact s ∧ RefusesDependents .outbound s)
        (newManager "") exactCalls := by
  have run : steps (callStep .outbound) (newManager "") exactCalls = some _ := rfl
  refine ⟨_, run, (dependents_exact_iff .outbound "" run).1.mpr ⟨by decide, ?_⟩⟩
  exact fun _ _ _ _ _ _ _ _ blocked => nomatch blocked.1

/-- A replaced outbound leaves its entry, and `Remove` refuses a tag no one depends on. A group that
lists an outbound twice takes the entry of another one with it, and `Remove` takes away what a
registered outbound depends on. The DNS manager does not remove its default, though no one depends
on it. -/
theorem dependents_not_exact :
    (∃ s, steps (callStep .outbound) (newManager "")
        [creates "direct" "direct" [], creates "proxy" "vless" ["direct"],
          creates "proxy" "vless" []] = some s ∧
      s.dependByTag "direct" = ["proxy"] ∧ (s.byTag "proxy").map (·.dependencies) = some [] ∧
      (exec .outbound s (.remove "direct")).2 =
        .error (.dependedBy "outbound" "direct" ["proxy"])) ∧
    (∃ s, steps (callStep .outbound) (newManager "")
        [creates "direct" "direct" [], creates "auto" "urltest" ["direct", "direct"],
          creates "proxy" "vless" ["direct"], .remove "auto"] = some s ∧
      s.dependByTag "direct" = [] ∧ (s.byTag "proxy").map (·.dependencies) = some ["direct"] ∧
      (exec .outbound s (.remove "direct")).2 = .ok) ∧
    (∃ s, steps (callStep .dns) (newManager "local")
        [creates "local" "local" [], creates "remote" "udp" []] = some s ∧
      (exec .dns s (.remove "local")).2 = .error .defaultFakeIP) :=
  ⟨⟨_, rfl, rfl, rfl, rfl⟩, ⟨_, rfl, rfl, rfl, rfl⟩, ⟨_, rfl, rfl⟩⟩

end SingBox.Managers
