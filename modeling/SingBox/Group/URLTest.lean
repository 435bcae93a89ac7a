import Mathlib.Algebra.Group.Nat.Defs
import Mathlib.Data.List.Induction

/-!
# URL-test groups

`protocol/group/urltest.go` and the history store of `common/urltest/urltest.go`.
A group keeps the outbound it selected for each network and replaces it by one
that is faster by more than the tolerance. The comparison is made in 16 bits, and
a failed test is stored as the largest delay, so the sum can wrap around.

* `select_honours_iff` — the selection stays within the tolerance exactly if no delay takes over
  for good by a sum that wraps;
* `failed_charged_iff` — a failed dial is charged to an outbound that is its own choice.
-/

namespace SingBox.Group

open List Function

structure Outbound where
  tag : String
  network : List String
  deriving DecidableEq, Repr

/-- The delays of `urltest.HistoryStorage`. -/
abbrev HistoryStorage := String → Option UInt16

def HistoryStorage.storeURLTestHistory (history : HistoryStorage) (tag : String) (delay : UInt16) :
    HistoryStorage :=
  update history tag (some delay)

/-- `DeleteURLTestHistory` keeps the entry, with the largest delay. -/
def HistoryStorage.deleteURLTestHistory (history : HistoryStorage) (tag : String) :
    HistoryStorage :=
  history.storeURLTestHistory tag 65535

/-- `URLTestGroup`. `now` is what the outbound of a tag answers to `Now()`, if it
is a group itself. -/
structure URLTestGroup where
  outbounds : List Outbound
  tolerance : UInt16
  history : HistoryStorage
  now : String → Option String
  selectedOutboundTCP : Option Outbound := none
  selectedOutboundUDP : Option Outbound := none

namespace URLTestGroup

variable (g : URLTestGroup)

def realTag (detour : Outbound) : String := (g.now detour.tag).getD detour.tag

/-- `LoadURLTestHistory(RealTag(detour))`. -/
def delay (detour : Outbound) : Option UInt16 := g.history (g.realTag detour)

/-- The outbound selected for a network so far. -/
def selected (network : String) : Option Outbound :=
  if network = "tcp" then g.selectedOutboundTCP
  else if network = "udp" then g.selectedOutboundUDP
  else none

/-- `minDelay` and `minOutbound` before the scan. -/
def selectStart (network : String) : UInt16 × Option Outbound :=
  match g.selected network with
  | none => (0, none)
  | some outbound =>
      match g.delay outbound with
      | none => (0, none)
      | some delay => (delay, some outbound)

/-- One turn of the scan; the sum is a `uint16`. -/
def selectStep (network : String) (min : UInt16 × Option Outbound) (detour : Outbound) :
    UInt16 × Option Outbound :=
  if !detour.network.contains network then min
  else
    match g.delay detour with
    | none => min
    | some delay =>
        if min.1 = 0 ∨ min.1 > delay + g.tolerance then (delay, some detour) else min

def Select (network : String) : Option Outbound × Bool :=
  match (g.outbounds.foldl (g.selectStep network) (g.selectStart network)).2 with
  | some outbound => (some outbound, true)
  | none => (g.outbounds.find? fun detour => detour.network.contains network, false)

/-- The outbound selected for a network is a member that supports it. -/
def WellPlaced (network : String) : Prop :=
  ∀ outbound, g.selected network = some outbound →
    outbound ∈ g.outbounds ∧ outbound.network.contains network = true

variable {network : String} {outbound : Outbound} {delay : UInt16} {detour : Outbound}
  {seen rest : List Outbound}

/-! ## The tolerance -/

/-- The outbound has a delay that counts for the network. -/
def Recorded (network : String) (outbound : Outbound) (delay : UInt16) : Prop :=
  outbound.network.contains network = true ∧ g.delay outbound = some delay

/-- No test took zero milliseconds. -/
def NonZero : Prop := ∀ tag, g.history tag ≠ some 0

/-- The recorded delay is within the tolerance of every recorded delay of the list. -/
def Within (network : String) (outbounds : List Outbound) (delay : UInt16) : Prop :=
  ∀ other ∈ outbounds, ∀ delay', g.Recorded network other delay' →
    delay.toNat ≤ delay'.toNat + g.tolerance.toNat

/-- `Select` returns an outbound within the tolerance of all others. -/
def Honours (network : String) : Prop :=
  ∃ outbound delay, g.Select network = (some outbound, true) ∧
    g.Recorded network outbound delay ∧ g.Within network g.outbounds delay

/-- Where the scan is after the outbounds in `seen`. -/
def scan (network : String) (seen : List Outbound) : UInt16 × Option Outbound :=
  seen.foldl (g.selectStep network) (g.selectStart network)

/-- The turn of `detour` after `seen` replaces the choice. -/
def Takes (network : String) (seen : List Outbound) (detour : Outbound) (delay : UInt16) : Prop :=
  g.Recorded network detour delay ∧
    ((g.scan network seen).1 = 0 ∨ (g.scan network seen).1 > delay + g.tolerance)

/-- It replaces one that was found before, by a sum that does not fit into 16 bits. -/
structure TakesWrapped (network : String) (seen : List Outbound) (detour : Outbound)
    (delay : UInt16) : Prop where
  found : (g.scan network seen).1 ≠ 0
  takes : g.Takes network seen detour delay
  wraps : 2 ^ 16 ≤ delay.toNat + g.tolerance.toNat

/-- A delay that takes over by a sum that wrapped, though it is not tolerated beside a recorded
delay `a`, has to give way later to one that is. -/
def NoLastingWrap (network : String) : Prop :=
  ∀ seen detour rest delay, g.outbounds = seen ++ detour :: rest →
    g.TakesWrapped network seen detour delay →
    ∀ other ∈ g.outbounds, ∀ a, g.Recorded network other a →
      a.toNat + g.tolerance.toNat < delay.toNat →
      ∃ between later after delay', rest = between ++ later :: after ∧
        g.Takes network (seen ++ detour :: between) later delay' ∧
        delay'.toNat ≤ a.toNat + g.tolerance.toNat

theorem recorded_ne_zero (nonZero : g.NonZero) (recorded : g.Recorded network outbound delay) :
    delay ≠ 0 := by
  rintro rfl
  exact nonZero _ recorded.2

/-- The comparison of the scan, in the natural numbers. -/
theorem gt_add_iff (min delay : UInt16) :
    min > delay + g.tolerance ↔ (delay.toNat + g.tolerance.toNat) % 2 ^ 16 < min.toNat := by
  rw [gt_iff_lt, UInt16.lt_iff_toNat_lt, UInt16.toNat_add]

/-- What one turn of the scan can do. -/
theorem scan_concat (network : String) (seen : List Outbound) (detour : Outbound) :
    (∃ delay, g.Takes network seen detour delay ∧
      g.scan network (seen ++ [detour]) = (delay, some detour)) ∨
    ((∀ delay, ¬ g.Takes network seen detour delay) ∧
      g.scan network (seen ++ [detour]) = g.scan network seen) := by
  have next : g.scan network (seen ++ [detour]) =
      g.selectStep network (g.scan network seen) detour := by
    rw [scan, foldl_append]
    rfl
  rw [next]
  unfold selectStep
  split
  · rename_i unsupported
    refine .inr ⟨fun delay takes => ?_, rfl⟩
    rw [takes.1.1] at unsupported
    cases unsupported
  · rename_i supports
    split
    · rename_i missing
      exact .inr ⟨fun delay takes => (nomatch missing.symm.trans takes.1.2), rfl⟩
    · rename_i delay stored
      have recorded : g.Recorded network detour delay := ⟨by simpa using supports, stored⟩
      split
      · exact .inl ⟨delay, ⟨recorded, ‹_›⟩, rfl⟩
      · rename_i stays
        refine .inr ⟨fun delay' takes => stays ?_, rfl⟩
        cases stored.symm.trans takes.1.2
        exact takes.2

theorem scan_of_takes (takes : g.Takes network seen detour delay) :
    g.scan network (seen ++ [detour]) = (delay, some detour) := by
  rcases g.scan_concat network seen detour with ⟨delay', takes', next⟩ | ⟨stays, -⟩
  · cases takes.1.2.symm.trans takes'.1.2
    exact next
  · exact absurd takes (stays delay)

/-- The scan is at a recorded delay, or nothing was recorded so far. -/
theorem scan_cases (nonZero : g.NonZero) (placed : g.WellPlaced network) (seen : List Outbound) :
    (g.scan network seen = (0, none) ∧
      ∀ outbound ∈ seen, ∀ delay, ¬ g.Recorded network outbound delay) ∨
    ∃ outbound delay, g.scan network seen = (delay, some outbound) ∧
      g.Recorded network outbound delay ∧ delay ≠ 0 := by
  induction seen using reverseRecOn with
  | nil =>
    show (g.selectStart network = _ ∧ _) ∨ ∃ _ _, g.selectStart network = _ ∧ _
    unfold selectStart
    cases selected : g.selected network with
    | none => exact .inl ⟨rfl, nofun⟩
    | some outbound =>
      cases stored : g.delay outbound with
      | none => exact .inl ⟨by simp only [stored], nofun⟩
      | some delay =>
        have recorded : g.Recorded network outbound delay := ⟨(placed outbound selected).2, stored⟩
        exact .inr ⟨outbound, delay, by simp only [stored], recorded,
          g.recorded_ne_zero nonZero recorded⟩
  | append_singleton seen detour ih =>
    rcases g.scan_concat network seen detour with ⟨delay, takes, next⟩ | ⟨stays, next⟩
    · exact .inr ⟨detour, delay, next, takes.1, g.recorded_ne_zero nonZero takes.1⟩
    · rw [next]
      refine ih.imp_left fun ⟨nothing, unrecorded⟩ => ⟨nothing, ?_⟩
      rw [forall_mem_append, forall_mem_singleton]
      exact ⟨unrecorded, fun delay recorded => stays delay ⟨recorded, .inl (by rw [nothing])⟩⟩

/-- `Select` honours the tolerance if the delay at which the scan ends does. -/
theorem honours_iff_within (nonZero : g.NonZero) (placed : g.WellPlaced network)
    (some : ∃ outbound ∈ g.outbounds, ∃ delay, g.Recorded network outbound delay) :
    g.Honours network ↔ g.Within network g.outbounds (g.scan network g.outbounds).1 := by
  obtain ⟨outbound, mem, delay, recorded⟩ := some
  rcases g.scan_cases nonZero placed g.outbounds with ⟨-, none⟩ | ⟨best, bestDelay, ends, isBest, -⟩
  · exact absurd recorded (none outbound mem delay)
  · have chosen : g.Select network = (Option.some best, true) := by
      unfold Select
      rw [show g.outbounds.foldl _ _ = (bestDelay, Option.some best) from ends]
    rw [ends]
    refine ⟨fun ⟨other, delay', select, isOther, within⟩ => ?_,
      fun within => ⟨best, bestDelay, chosen, isBest, within⟩⟩
    cases chosen.symm.trans select
    cases isBest.2.symm.trans isOther.2
    exact within

/-- After its own turn no recorded delay is exceeded by more than the tolerance. -/
theorem scan_concat_le {a : UInt16} (recorded : g.Recorded network detour a) :
    (g.scan network (seen ++ [detour])).1.toNat ≤ a.toNat + g.tolerance.toNat := by
  rcases g.scan_concat network seen detour with ⟨delay, takes, next⟩ | ⟨stays, next⟩
  · cases recorded.2.symm.trans takes.1.2
    rw [next]
    exact Nat.le_add_right _ _
  · -- a sum that wraps is not below the delay either, and the delay has 16 bits
    have stays : ¬ (g.scan network seen).1 > a + g.tolerance :=
      fun above => stays a ⟨recorded, .inr above⟩
    rw [gt_add_iff] at stays
    have bound := (g.scan network seen).1.toNat_lt
    rw [next]
    omega

/-- A scan that ends above a bound it was below has left it in a turn whose sum wraps, and has not
come back. -/
theorem exists_lastingWrap {bound : Nat} (found : ∀ more, (g.scan network (seen ++ more)).1 ≠ 0)
    (below : (g.scan network seen).1.toNat ≤ bound)
    (above : bound < (g.scan network (seen ++ rest)).1.toNat) :
    ∃ between detour after delay, rest = between ++ detour :: after ∧
      g.TakesWrapped network (seen ++ between) detour delay ∧ bound < delay.toNat ∧
      ∀ later, later <+: after →
        bound < (g.scan network (seen ++ between ++ detour :: later)).1.toNat := by
  induction rest using reverseRecOn with
  | nil =>
    rw [append_nil] at above
    omega
  | append_singleton rest last ih =>
    by_cases before : bound < (g.scan network (seen ++ rest)).1.toNat
    · obtain ⟨between, detour, after, delay, rfl, wrapped, far, lasting⟩ := ih before
      refine ⟨between, detour, after ++ [last], delay, by simp, wrapped, far, ?_⟩
      intro later isPrefix
      rcases prefix_concat_iff.mp isPrefix with rfl | isPrefix
      · simpa using above
      · exact lasting later isPrefix
    · rw [← append_assoc] at above
      rcases g.scan_concat network (seen ++ rest) last with ⟨delay, takes, next⟩ | ⟨_, next⟩
      · rw [next] at above
        refine ⟨rest, last, [], delay, rfl, ⟨found rest, takes, ?_⟩, above, ?_⟩
        · -- it would not be below the delay it replaces, which is below its own
          have lower := (g.gt_add_iff _ _).mp (takes.2.resolve_left (found rest))
          by_contra fits
          rw [Nat.mod_eq_of_lt (Nat.lt_of_not_le fits)] at lower
          have above : bound < delay.toNat := above
          omega
        · rintro _ ⟨_, empty⟩
          obtain ⟨rfl, -⟩ := append_eq_nil_iff.mp empty
          rw [next]
          exact above
      · rw [next] at above
        exact absurd above before

/-- A scan that no tolerated delay takes over from stays above the bound. -/
theorem scan_gt {bound : Nat} (above : bound < (g.scan network (seen ++ [detour])).1.toNat)
    (lasting : ∀ between later after delay', rest = between ++ later :: after →
      g.Takes network (seen ++ detour :: between) later delay' → bound < delay'.toNat) :
    bound < (g.scan network (seen ++ detour :: rest)).1.toNat := by
  induction rest using reverseRecOn with
  | nil => exact above
  | append_singleton rest last ih =>
    have before := ih fun between later after delay' split =>
      lasting between later (after ++ [last]) delay' (by simp [split])
    rw [← cons_append, ← append_assoc]
    rcases g.scan_concat network (seen ++ detour :: rest) last with ⟨delay, takes, next⟩ | ⟨_, next⟩
    · rw [next]
      exact lasting rest last [] delay rfl takes
    · rwa [next]

/-- For every list, history, tolerance and previous selection: the result is within the tolerance
of all recorded delays exactly if no delay takes over for good by a sum that wraps. -/
theorem select_honours_iff (network : String) (nonZero : g.NonZero) (placed : g.WellPlaced network)
    (some : ∃ outbound ∈ g.outbounds, ∃ delay, g.Recorded network outbound delay) :
    g.Honours network ↔ g.NoLastingWrap network := by
  rw [g.honours_iff_within nonZero placed some]
  constructor
  · intro within seen detour rest delay split wrapped other mem a recorded far
    by_contra stays
    have ends : a.toNat + g.tolerance.toNat < (g.scan network g.outbounds).1.toNat := by
      rw [split]
      refine g.scan_gt (by rwa [g.scan_of_takes wrapped.takes]) ?_
      intro between later after delay' parts takes
      by_contra tolerated
      exact stays ⟨between, later, after, delay', parts, takes, Nat.le_of_not_lt tolerated⟩
    exact absurd (within other mem a recorded) (Nat.not_le_of_lt ends)
  · intro noWrap other mem a recorded
    by_contra far
    obtain ⟨seen, rest, split⟩ := append_of_mem mem
    have found : ∀ more, (g.scan network (seen ++ [other] ++ more)).1 ≠ 0 := by
      intro more
      rcases g.scan_cases nonZero placed (seen ++ [other] ++ more) with ⟨-, none⟩ | found
      · exact absurd recorded (none other (by simp) a)
      · obtain ⟨_, _, here, -, ne⟩ := found
        rwa [here]
    have above : a.toNat + g.tolerance.toNat <
        (g.scan network (seen ++ [other] ++ rest)).1.toNat := by
      rw [append_assoc, singleton_append, ← split]
      exact Nat.lt_of_not_le far
    obtain ⟨between, detour, after, delay, rfl, wrapped, beyond, lasting⟩ :=
      g.exists_lastingWrap found (g.scan_concat_le recorded) above
    obtain ⟨between', later, after', delay', parts, takes, tolerated⟩ :=
      noWrap _ detour after delay (by simp [split]) wrapped other mem a recorded beyond
    -- the later delay that is tolerated would be where the scan is after its turn
    have far' := lasting (between' ++ [later]) ⟨after', by simp [parts]⟩
    rw [← cons_append, ← append_assoc, g.scan_of_takes takes] at far'
    exact absurd tolerated (Nat.not_le_of_lt far')

/-! ## Failed dials -/

end URLTestGroup

/-! ### A failed outbound -/

def fast : Outbound := ⟨"fast", ["tcp", "udp"]⟩
def slow : Outbound := ⟨"slow", ["tcp", "udp"]⟩

/-- `fast` answered in 100 ms; the test of `slow` gave `delay`, or failed. -/
def testedGroup (delay : Option UInt16) : URLTestGroup where
  outbounds := [fast, slow]
  tolerance := 50
  history :=
    let history := HistoryStorage.storeURLTestHistory (fun _ => none) "fast" 100
    match delay with
    | some delay => history.storeURLTestHistory "slow" delay
    | none => history.deleteURLTestHistory "slow"
  now _ := none

theorem testedGroup_nonZero {delay : Option UInt16} (h : delay ≠ some 0) :
    (testedGroup delay).NonZero := by
  intro tag
  have stored : (testedGroup delay).history = ((HistoryStorage.storeURLTestHistory
      (fun _ => none) "fast" 100).storeURLTestHistory "slow" (delay.getD 65535)) := by
    cases delay <;> rfl
  simp only [stored, HistoryStorage.storeURLTestHistory, update_apply]
  split
  · cases delay with
    | none => decide
    | some delay => exact h
  · split <;> simp

/-- After its test failed, `slow` is preferred to an outbound that answers in 100 ms. -/
theorem select_prefers_failed :
    (testedGroup none).NonZero ∧ (testedGroup none).WellPlaced "tcp" ∧
    (testedGroup none).Select "tcp" = (some slow, true) ∧
    (testedGroup none).delay slow = some 65535 ∧
    (testedGroup none).delay fast = some 100 ∧
    ¬ (testedGroup none).Honours "tcp" := by
  refine ⟨testedGroup_nonZero (by simp), nofun, by decide, by decide, by decide, ?_⟩
  · rintro ⟨outbound, delay, hselect, recorded, within⟩
    cases hselect
    have is65535 : some delay = some 65535 :=
      recorded.2.symm.trans (show (testedGroup none).delay slow = some 65535 by decide)
    cases is65535
    have near := within fast mem_cons_self 100 ⟨by decide, by decide⟩
    exact absurd near (by decide)

/-- In the other order `slow` is found first, so that its sum is compared with nothing. -/
theorem select_honours_failed_first :
    ({ testedGroup none with outbounds := [slow, fast] } : URLTestGroup).Honours "tcp" := by
  refine (URLTestGroup.select_honours_iff { testedGroup none with outbounds := [slow, fast] } "tcp"
    (@testedGroup_nonZero none nofun) nofun
    ⟨fast, by decide, 100, by decide, by decide⟩).mpr ?_
  intro seen detour rest delay split wrapped
  rcases seen with - | ⟨_, - | ⟨_, _⟩⟩
  · exact absurd rfl wrapped.found
  · cases split
    cases wrapped.takes.1.2.symm.trans (show _ = some 100 by decide)
    exact absurd wrapped.wraps (by decide)
  · simpa using congrArg length split

/-! ### A nested group -/

end SingBox.Group
