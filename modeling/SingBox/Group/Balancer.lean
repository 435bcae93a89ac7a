import Mathlib.Data.List.Rotate
import SingBox.Group.URLTest

/-!
# Balancers

`protocol/group/balancer`. An outbound is alive if its delay is acceptable next to the least one.
The consistent hash picks the last bucket of an increasing sequence that depends on the key alone.
A sticky session keeps the index of an outbound for a key, and round robin a cursor for each
network.

* `alive_acceptable_iff` — only outbounds with an acceptable delay are alive, and the fastest is,
  exactly if the raw delays that are compared say the same as the effective ones.
* `jumpHash_consistent` — the sequence ends in a bucket, and one more bucket takes keys from the
  others and moves none between them.
* `StickySession.select_sticky` — a session keeps its outbound, as long as the other network does
  not choose another index for it.
* `RoundRobin.select_fair` — the acceptable outbounds have their turns one after the other.
-/

namespace SingBox.Group.Balancer

open List Function Nat

/-! ## Delays -/

structure URLTestHistory where
  delay : UInt16
  isFromCache : Bool

/-- The maps that are passed to `UpdateOutboundsInfo`; an entry may be `nil`. -/
abbrev Histories := String → Option (Option URLTestHistory)

def timeoutDelay : UInt16 := 65535

def getModifiedDelay (his : URLTestHistory) : UInt16 :=
  let delay := if his.delay = 0 then timeoutDelay else his.delay
  if his.isFromCache ∧ delay < 20000 then delay + 20000 else delay

def getTagDelay (history : Histories) (tag : String) : UInt16 :=
  ((history tag).join.map getModifiedDelay).getD timeoutDelay

def getMinDelay (outs : List Outbound) (history : Histories) : UInt16 :=
  outs.foldl (fun minDelay out =>
    let d := getTagDelay history out.tag
    if d ≤ minDelay then d else minDelay) timeoutDelay

def getDelayMap (history : Histories) (tag : String) : Option UInt16 :=
  (history tag).map fun his => (his.map URLTestHistory.delay).getD timeoutDelay

/-- The largest acceptable delay; the ratio is `num / den`. -/
def acceptableDelay (num den : Nat) (minDelay : UInt16) : UInt16 :=
  .ofNat (max 100 minDelay.toNat * num / den)

/-- What `ConsistentHashing` and `StickySession` have of the histories. -/
structure Delays where
  delays : String → Option UInt16
  maxAcceptableDelay : String → UInt16

/-- `UpdateOutboundsInfo` of both. -/
def updateOutboundsInfo (outbounds : String → List Outbound) (num den : Nat) (history : Histories) :
    Delays where
  delays := getDelayMap history
  maxAcceptableDelay net := acceptableDelay num den (getMinDelay (outbounds net) history)

/-- `Alive` of both. -/
def Delays.alive (s : Delays) (proxy : Outbound) (net : String) : Bool :=
  (s.delays proxy.tag).any (· ≤ s.maxAcceptableDelay net)

theorem getMinDelay_eq {outs : List Outbound} {history : Histories} {least : Outbound}
    (mem : least ∈ outs)
    (isLeast : ∀ out ∈ outs, getTagDelay history least.tag ≤ getTagDelay history out.tag) :
    getMinDelay outs history = getTagDelay history least.tag := by
  refine UInt16.le_antisymm ?_ (foldlRecOn _ _ (UInt16.le_iff_toNat_le.mpr ?_) ?_)
  · obtain ⟨before, after, rfl⟩ := append_of_mem mem
    rw [getMinDelay, foldl_append, foldl_cons]
    refine foldlRecOn (motive := (· ≤ getTagDelay history least.tag)) _ _ ?_ ?_ <;> grind
  · exact le_of_lt_succ (UInt16.toNat_lt _)
  · grind

/-- The largest acceptable delay, before it is converted to 16 bits. -/
def exactDelay (num den : Nat) (minDelay : UInt16) : Nat := max 100 minDelay.toNat * num / den

/-- Next to a limit, which is compared in 16 bits, the raw delay says the same as the effective
one: the limit is beyond all delays if the outbound has not been tested, and an entry from the cache
is beyond the limit in 16 bits or acceptable with the 20000 on top. -/
structure URLTestHistory.Fair (limit : Nat) (his : URLTestHistory) : Prop where
  untested : his.delay = 0 → 65535 ≤ limit
  cached : his.isFromCache = true → his.delay ≠ 0 → his.delay < 20000 →
    limit % 2 ^ 16 < his.delay.toNat ∨ his.delay.toNat + 20000 ≤ limit

theorem toNat_getModifiedDelay (his : URLTestHistory) : (getModifiedDelay his).toNat =
    if his.delay = 0 then 65535
    else if his.isFromCache = true ∧ his.delay < 20000 then his.delay.toNat + 20000
    else his.delay.toNat := by
  unfold getModifiedDelay
  by_cases untested : his.delay = 0
  · have late : ¬ (his.isFromCache = true ∧ timeoutDelay < 20000) :=
      fun cached => absurd cached.2 (by decide)
    simp only [if_pos untested, if_neg late]
    rfl
  · simp only [if_neg untested]
    split_ifs with cached
    · have lt := UInt16.lt_iff_toNat_lt.mp cached.2
      rw [UInt16.toNat_add]
      exact mod_eq_of_lt (Nat.lt_trans (Nat.add_lt_add_right lt _) (by decide))
    · rfl

theorem delay_le_getModifiedDelay (his : URLTestHistory) :
    his.delay.toNat ≤ (getModifiedDelay his).toNat := by
  rw [toNat_getModifiedDelay]
  split_ifs with untested
  · rw [untested]
    exact Nat.zero_le _
  · exact Nat.le_add_right _ _
  · exact Nat.le_refl _

theorem fair_iff (limit : Nat) (his : URLTestHistory) :
    (his.delay.toNat ≤ limit % 2 ^ 16 → (getModifiedDelay his).toNat ≤ limit) ↔ his.Fair limit := by
  rw [toNat_getModifiedDelay]
  split_ifs with untested cached
  · rw [untested]
    constructor
    · intro alive
      exact ⟨fun _ => alive (Nat.zero_le _), fun _ tested => absurd untested tested⟩
    · intro fair _
      exact fair.untested untested
  · constructor
    · intro alive
      exact ⟨fun zero => absurd zero untested, fun _ _ _ => (Nat.lt_or_ge _ _).imp id alive⟩
    · intro fair le
      exact (fair.cached cached.1 untested cached.2).resolve_left (Nat.not_lt_of_le le)
  · refine iff_of_true (fun le => Nat.le_trans le (mod_le _ _)) ?_
    exact ⟨fun zero => absurd zero untested, fun isCached _ lt => absurd ⟨isCached, lt⟩ cached⟩

theorem alive_iff (outbounds : String → List Outbound) (num den : Nat) (history : Histories)
    (net : String) {least : Outbound} (mem : least ∈ outbounds net)
    (isLeast : ∀ out ∈ outbounds net,
      getTagDelay history least.tag ≤ getTagDelay history out.tag) (out : Outbound) :
    (updateOutboundsInfo outbounds num den history).alive out net = true ↔
      ∃ delay, getDelayMap history out.tag = some delay ∧
        delay.toNat ≤ exactDelay num den (getTagDelay history least.tag) % 2 ^ 16 := by
  simp only [Delays.alive, updateOutboundsInfo, acceptableDelay, getMinDelay_eq mem isLeast,
    Option.any_eq_true, decide_eq_true_eq, UInt16.le_iff_toNat_le]
  rfl

section Entry

variable {history : Histories} {tag : String} {his : URLTestHistory}

theorem getTagDelay_of_entry (entry : history tag = some (some his)) :
    getTagDelay history tag = getModifiedDelay his := by
  rw [getTagDelay, entry]
  rfl

theorem getDelayMap_of_entry (entry : history tag = some (some his)) :
    getDelayMap history tag = some his.delay := by
  rw [getDelayMap, entry]
  rfl

/-- What the raw delay admits has an acceptable delay exactly if the entry is fair. -/
theorem acceptable_iff (limit : Nat) :
    ((∃ delay, getDelayMap history tag = some delay ∧ delay.toNat ≤ limit % 2 ^ 16) →
      (getTagDelay history tag).toNat ≤ limit) ↔
    ∀ his, history tag = some (some his) → his.Fair limit := by
  rcases entry : history tag with _ | _ | his
  · simp [getDelayMap, entry]
  · refine iff_of_true ?_ nofun
    rintro ⟨delay, raw, le⟩
    -- an entry that is `nil` counts as timed out in both
    have timeout : timeoutDelay = delay := by simpa [getDelayMap, entry] using raw
    rw [getTagDelay, entry]
    exact Nat.le_trans (timeout ▸ le) (mod_le _ _)
  · rw [getTagDelay_of_entry entry, getDelayMap_of_entry entry]
    constructor
    · rintro acceptable _ ⟨⟩
      exact (fair_iff limit his).mp fun le => acceptable ⟨_, rfl, le⟩
    · rintro fair ⟨_, ⟨⟩, le⟩
      exact (fair_iff limit his).mpr (fair his rfl) le

end Entry

/-- Only outbounds with an acceptable delay are alive, and one with the least delay is, unless it
timed out, exactly if every entry is fair and the limit, once it is converted to 16 bits, is not
below the raw delay of that one. -/
theorem alive_acceptable_iff (outbounds : String → List Outbound) (num den : Nat)
    (positive : 0 < den) (ratio : den ≤ num) (history : Histories) (net : String)
    (least : Outbound) (mem : least ∈ outbounds net)
    (isLeast : ∀ out ∈ outbounds net,
      getTagDelay history least.tag ≤ getTagDelay history out.tag) :
    let s := updateOutboundsInfo outbounds num den history
    let limit := exactDelay num den (getTagDelay history least.tag)
    ((∀ out ∈ outbounds net, s.alive out net → (getTagDelay history out.tag).toNat * den ≤
        max 100 (getTagDelay history least.tag).toNat * num) ∧
      (getTagDelay history least.tag < timeoutDelay → s.alive least net)) ↔
    (∀ out ∈ outbounds net, ∀ his, history out.tag = some (some his) → his.Fair limit) ∧
      ∀ his, history least.tag = some (some his) → getModifiedDelay his < timeoutDelay →
        limit < 2 ^ 16 ∨ his.delay.toNat ≤ limit % 2 ^ 16 := by
  intro s limit
  have exact : max 100 (getTagDelay history least.tag).toNat * num / den = limit := rfl
  simp only [s, alive_iff outbounds num den history net mem isLeast,
    ← Nat.le_div_iff_mul_le positive, exact]
  refine and_congr (forall₂_congr fun out _ => acceptable_iff limit) ?_
  have least_le : (getTagDelay history least.tag).toNat ≤ limit :=
    (Nat.le_div_iff_mul_le positive).mpr (Nat.mul_le_mul (Nat.le_max_right ..) ratio)
  rcases entry : history least.tag with _ | _ | his
  · simp [getTagDelay, entry]
  · simp [getTagDelay, entry]
  · have effective := getTagDelay_of_entry entry
    have raw := getDelayMap_of_entry entry
    rw [effective] at least_le
    constructor
    · rintro alive _ ⟨⟩ answered
      obtain ⟨_, same, le⟩ := alive (effective ▸ answered)
      cases raw.symm.trans same
      exact .inr le
    · intro compared answered
      refine ⟨_, raw, ?_⟩
      rcases compared his rfl (effective ▸ answered) with fits | le
      · show _ ≤ limit % 2 ^ 16
        rw [mod_eq_of_lt fits]
        exact Nat.le_trans (delay_le_getModifiedDelay his) least_le
      · exact le

/-- The entries of an outbound that answered, of one that has not been tested, and of one that
answered before the last restart. -/
def tested : Histories
  | "tested" => some (some ⟨50, false⟩)
  | "untested" => some (some ⟨0, false⟩)
  | "cached" => some (some ⟨500, true⟩)
  | _ => none

/-- The only outbound is alive, by its raw delay. -/
theorem alive_acceptable_cached :
    let s := updateOutboundsInfo (fun _ => [⟨"cached", []⟩]) 1 1 tested
    s.alive ⟨"cached", []⟩ "tcp" :=
  ((alive_acceptable_iff (fun _ => [⟨"cached", []⟩]) 1 1 (by decide) (by decide) tested "tcp" _
    mem_cons_self (by decide)).mpr ⟨by
      rintro out (_ | ⟨_, ⟨⟩⟩) his ⟨⟩
      exact ⟨by decide, by decide⟩, by rintro his ⟨⟩; decide⟩).2 (by decide)

/-- An outbound that has not been tested is alive. -/
theorem untested_alive :
    let s := updateOutboundsInfo (fun _ => [⟨"tested", []⟩, ⟨"untested", []⟩]) 2 1 tested
    s.alive ⟨"untested", []⟩ "tcp" ∧ getTagDelay tested "untested" = 65535 ∧
      getMinDelay [⟨"tested", []⟩, ⟨"untested", []⟩] tested = 50 := by
  decide

def filterOutbounds (outbounds : List Outbound) (network : String) : List Outbound :=
  let res := outbounds.filter (·.network.contains network)
  if res.length = 0 then outbounds else res

def networkOf (net : String) : String := if net ≠ "tcp" ∧ net ≠ "udp" then "tcp" else net

/-! ## The consistent hash -/

/-- The key of the next turn. -/
def rehash (key : UInt64) : UInt64 := key * 2862933555777941757 + 1

/-- The quotient that the source computes in floating point, rounded down. -/
def jump (b : Nat) (key : UInt64) : Nat := (b + 1) * 2 ^ 31 / ((key >>> 33).toNat + 1)

theorem lt_jump (b : Nat) (key : UInt64) : b < jump b key := by
  have small : (key >>> 33).toNat + 1 ≤ 2 ^ 31 := by
    have bound := key.toNat_lt
    simp [UInt64.toNat_shiftRight, shiftRight_eq_div_pow]
    omega
  exact (Nat.le_div_iff_mul_le (succ_pos _)).mpr (Nat.mul_le_mul_left _ small)

/-- The loop of `jumpHash`; `j` does not leave 62 bits. -/
def jumpHashFrom (buckets b j : Nat) (key : UInt64) : Nat :=
  if j < buckets then jumpHashFrom buckets j (jump j (rehash key)) (rehash key) else b
termination_by buckets - j
decreasing_by
  have := lt_jump j (rehash key)
  omega

def jumpHash (key : UInt64) (buckets : Nat) : Nat := jumpHashFrom buckets 0 0 key

variable {buckets b j : Nat} {key : UInt64}

theorem jumpHashFrom_lt (h : b < buckets) : jumpHashFrom buckets b j key < buckets := by
  fun_induction jumpHashFrom buckets b j key with
  | case1 b j key next ih => exact ih next
  | case2 => exact h

theorem jumpHashFrom_succ :
    jumpHashFrom (buckets + 1) b j key = jumpHashFrom buckets b j key ∨
      jumpHashFrom (buckets + 1) b j key = buckets := by
  fun_induction jumpHashFrom buckets b j key with
  | case1 b j key next ih =>
    rw [jumpHashFrom, if_pos (lt_succ_of_lt next)]
    exact ih
  | case2 b j key last =>
    rw [jumpHashFrom]
    split
    · -- only the new bucket is left, and the sequence has passed it
      have here : j = buckets := by omega
      have past := lt_jump j (rehash key)
      rw [jumpHashFrom, if_neg (by omega)]
      exact .inr here
    · exact .inl rfl

/-- For every key and every number of buckets the hash is one of them, and with one more bucket it
stays or is the new one. -/
theorem jumpHash_consistent (key : UInt64) (buckets : Nat) (some : 1 ≤ buckets) :
    jumpHash key buckets < buckets ∧
      (jumpHash key (buckets + 1) = jumpHash key buckets ∨
        jumpHash key (buckets + 1) = buckets) :=
  ⟨jumpHashFrom_lt some, jumpHashFrom_succ⟩

theorem jumpHash_consistent_ten : jumpHash 7 10 < 10 ∧
    (jumpHash 7 11 = jumpHash 7 10 ∨ jumpHash 7 11 = 10) :=
  jumpHash_consistent 7 10 (by decide)

/-! ## Sticky sessions -/

structure StickySession extends Delays where
  outbounds : String → List Outbound
  /-- One less than `maxRetry`, or 0. -/
  turns : Nat

/-- The hash of the key, and the times that are read. -/
structure Call where
  key : UInt64
  net : String
  now : Nat → UInt64

abbrev Cache := UInt64 → Option Nat

namespace StickySession

variable (s : StickySession)

def outs (call : Call) : List Outbound := s.outbounds (networkOf call.net)

/-- An index from the clock, which is read once for each number of turns left. -/
def pick (call : Call) (left : Nat) : Nat :=
  jumpHash (call.key + call.now left) (s.outs call).length

/-- The index that the loop of `Select` begins with. -/
def idx (cache : Cache) (call : Call) : Nat :=
  match cache call.key with
  | none => s.pick call s.turns
  | some i => if i ≥ (s.outs call).length then s.pick call s.turns else i

/-- The loop: the last index, and whether its outbound was found alive. -/
def retry (call : Call) : Nat → Nat → Nat × Bool
  | 0, nowIdx => (nowIdx, false)
  | left + 1, nowIdx =>
      if (s.outs call)[nowIdx]?.any (s.alive · (networkOf call.net)) then (nowIdx, true)
      else retry call left (s.pick call left)

/-- No outbound for an index that is out of range. -/
def Select (cache : Cache) (call : Call) : Option Outbound × Cache :=
  let (nowIdx, alive) := s.retry call s.turns (s.idx cache call)
  ((s.outs call)[nowIdx]?, if alive ∧ (cache call.key).isSome ∧ nowIdx = s.idx cache call then cache
    else update cache call.key (some nowIdx))

/-- The index that is stored for the key is that of an outbound that is alive. -/
def Holds (cache : Cache) (key : UInt64) (net : String) (out : Outbound) : Prop :=
  ∃ i, cache key = some i ∧ (s.outbounds net)[i]? = some out ∧ s.alive out net

variable {s} {cache : Cache} {call : Call} {out : Outbound}

theorem idx_eq {i : Nat} (stored : cache call.key = some i) (lt : i < (s.outs call).length) :
    s.idx cache call = i := by
  simp [idx, stored, Nat.not_le.mpr lt]

theorem Holds.select (holds : s.Holds cache call.key (networkOf call.net) out) :
    s.Select cache call = (some out, cache) := by
  obtain ⟨i, stored, found, alive⟩ := holds
  change (s.outs call)[i]? = _ at found
  have start : s.idx cache call = i := idx_eq stored (List.getElem?_eq_some_iff.mp found).1
  unfold Select
  cases s.turns with
  | zero => simp [start, retry, found, ← stored]
  | succ turns => simp [start, stored, retry, found, alive]

theorem Select.holds (returns : (s.Select cache call).1 = some out)
    (alive : s.alive out (networkOf call.net))
    (inside : ∀ i, cache call.key = some i → i < (s.outs call).length) :
    s.Holds (s.Select cache call).2 call.key (networkOf call.net) out := by
  refine ⟨_, ?_, returns, alive⟩
  simp only [Select]
  split
  case isTrue found =>
    obtain ⟨i, stored⟩ := Option.isSome_iff_exists.mp found.2.1
    rw [found.2.2, stored, idx_eq stored (inside i stored)]
  case isFalse => exact update_self ..

/-- Between two calls for a key and a network others come for other keys, for the network, or for
the other network if it holds the key as well. -/
theorem select_sticky (s : StickySession) (cache : Cache) (call call' : Call) (out : Outbound)
    (key : call'.key = call.key) (net : networkOf call'.net = networkOf call.net)
    (returns : (s.Select cache call).1 = some out) (alive : s.alive out (networkOf call.net))
    (inside : ∀ i, cache call.key = some i → i < (s.outs call).length) (calls : List Call)
    (others : ∀ other ∈ calls, other.key = call.key → networkOf other.net = networkOf call.net ∨
      ∃ out', s.Holds (s.Select cache call).2 call.key (networkOf other.net) out') :
    (s.Select (calls.foldl (fun cache call => (s.Select cache call).2) (s.Select cache call).2)
      call').1 = some out := by
  have first := Select.holds returns alive inside
  -- the index of the key stays
  have kept : calls.foldl (fun cache call => (s.Select cache call).2) (s.Select cache call).2
      call.key = (s.Select cache call).2 call.key := by
    refine foldlRecOn (motive := fun later : Cache => later call.key = _) _ _ rfl ?_
    intro later kept other mem
    by_cases own : other.key = call.key
    · obtain ⟨out', holds⟩ := (others other mem own).elim (fun same => ⟨out, same ▸ first⟩) id
      rw [Holds, ← kept, ← own] at holds
      rw [Holds.select holds]
      exact kept
    · simp only [Select]
      split
      exacts [kept, (update_of_ne (Ne.symm own) ..).trans kept]
  rw [Holds, ← kept, ← key, ← net] at first
  rw [Holds.select first]

/-- The fast outbound is for UDP only. -/
def twoNetworks : String → List Outbound :=
  filterOutbounds [⟨"slow", ["tcp", "udp"]⟩, ⟨"other", ["tcp"]⟩, ⟨"fast", ["udp"]⟩]

/-- After a test, the slow outbound is alive for TCP. -/
def slowForUDP : StickySession where
  toDelays := updateOutboundsInfo twoNetworks 1 1 fun tag =>
    some (some ⟨if tag = "fast" then 10 else 1000, false⟩)
  outbounds := twoNetworks
  turns := 2

/-- Calls for another key, one of them for UDP, and one for the session itself come in between. -/
theorem select_sticky_tcp :
    (slowForUDP.Select
      ([⟨1, "udp", fun _ => 4⟩, ⟨0, "tcp", fun _ => 9⟩, ⟨1, "tcp", fun _ => 2⟩].foldl
        (fun cache call => (slowForUDP.Select cache call).2)
        (slowForUDP.Select (fun _ => none) ⟨0, "tcp", fun _ => 0⟩).2)
      ⟨0, "tcp", fun _ => 4⟩).1 = some ⟨"slow", ["tcp", "udp"]⟩ :=
  select_sticky slowForUDP (fun _ => none) ⟨0, "tcp", fun _ => 0⟩ ⟨0, "tcp", fun _ => 4⟩ _ rfl rfl
    (by decide +kernel) (by decide) (fun _ => nofun) _
    (by
      simp only [forall_mem_cons]
      exact ⟨nofun, fun _ => .inl trivial, nofun, nofun⟩)

/-- A call for UDP in between moves the session to the other outbound. -/
theorem not_sticky :
    let cache := (slowForUDP.Select (fun _ => none) ⟨0, "tcp", fun _ => 0⟩).2
    let cache' := (slowForUDP.Select cache ⟨0, "udp", fun _ => 4⟩).2
    (slowForUDP.Select (fun _ => none) ⟨0, "tcp", fun _ => 0⟩).1 =
        some ⟨"slow", ["tcp", "udp"]⟩ ∧
      slowForUDP.alive ⟨"slow", ["tcp", "udp"]⟩ "tcp" ∧
      (slowForUDP.Select cache' ⟨0, "tcp", fun _ => 0⟩).1 = some ⟨"other", ["tcp"]⟩ := by
  decide +kernel

end StickySession

/-! ## Round robin -/

def sortOutboundsByDelay (outs : List Outbound) (history : Histories) : List Outbound :=
  outs.mergeSort fun a b => getTagDelay history a.tag ≤ getTagDelay history b.tag

def getAcceptableIndex (num den : Nat) (outs : List Outbound) (history : Histories) : Nat :=
  let minDelay := (outs.head?.map (getTagDelay history ·.tag)).getD 0
  outs.zipIdx.foldl (fun maxAvailableIndex (outbound, i) =>
    if getTagDelay history outbound.tag ≤ acceptableDelay num den minDelay then i
    else maxAvailableIndex) 0

structure RoundRobin where
  outbounds : String → List Outbound
  sortedOutbounds : String → List Outbound
  /-- One more than `maxAcceptableIndex`. -/
  acceptable : String → Nat
  idx : String → Nat

def newRoundRobin (outbounds : List Outbound) : RoundRobin :=
  ⟨filterOutbounds outbounds, filterOutbounds outbounds,
    fun net => (filterOutbounds outbounds net).length, fun _ => 0⟩

namespace RoundRobin

def UpdateOutboundsInfo (num den : Nat) (s : RoundRobin) (history : Histories) : RoundRobin :=
  let sorted net := sortOutboundsByDelay (s.outbounds net) history
  { s with
    sortedOutbounds := sorted
    acceptable net := getAcceptableIndex num den (sorted net) history + 1 }

/-- No outbound for `nil`, or an index that is out of range. -/
def Select (s : RoundRobin) (net : String) (touch : Bool) : Option Outbound × RoundRobin :=
  let net := networkOf net
  let length := s.acceptable net
  if length = 0 then (none, s)
  else
    let id := (s.idx net + 1) % length
    ((s.sortedOutbounds net)[id]?, if touch then { s with idx := update s.idx net id } else s)

inductive Label where
  | update (history : Histories)
  | select (net : String) (touch : Bool)

def step (num den : Nat) (s : RoundRobin) : Label → RoundRobin
  | .update history => s.UpdateOutboundsInfo num den history
  | .select net touch => (s.Select net touch).2

def best (s : RoundRobin) (net : String) : List Outbound :=
  (s.sortedOutbounds net).take (s.acceptable net)

/-- What the touching calls for a network return. -/
def returned (net : String) (s : RoundRobin) : List (String × Bool) → List (Option Outbound)
  | [] => []
  | (other, touch) :: calls =>
      let later := (s.Select other touch).2.returned net calls
      if networkOf other = net ∧ touch then (s.Select other touch).1 :: later else later

/-- What the calls keep. -/
structure Inv (outbounds : List Outbound) (s : RoundRobin) : Prop where
  outbounds : s.outbounds = filterOutbounds outbounds
  sorted : ∀ net, (s.sortedOutbounds net).Perm (s.outbounds net)
  pos : ∀ net, 0 < s.acceptable net
  length : ∀ net, (s.best net).length = s.acceptable net

variable {outbounds : List Outbound} {s : RoundRobin} {net : String} {num den : Nat}

theorem filterOutbounds_ne_nil (nonempty : outbounds ≠ []) :
    filterOutbounds outbounds net ≠ [] := by
  simp only [filterOutbounds, length_eq_zero_iff]
  split
  exacts [nonempty, ‹_›]

theorem getAcceptableIndex_lt {outs : List Outbound} (pos : 0 < outs.length)
    (history : Histories) : getAcceptableIndex num den outs history < outs.length := by
  refine foldlRecOn (motive := (· < outs.length)) _ _ pos fun index lt entry mem => ?_
  dsimp only
  split
  · simpa using (mem_zipIdx' mem).1
  · exact lt

theorem Inv.select (inv : Inv outbounds s) (net : String) (touch : Bool) :
    Inv outbounds (s.Select net touch).2 := by
  simp only [Select, if_neg (Nat.ne_of_gt (inv.pos _))]
  split
  exacts [{ inv with }, inv]

theorem Inv.update (inv : Inv outbounds s) (history : Histories) :
    Inv outbounds (s.UpdateOutboundsInfo num den history) := by
  have sorted (net : String) := mergeSort_perm (s.outbounds net)
    fun a b => getTagDelay history a.tag ≤ getTagDelay history b.tag
  refine ⟨inv.outbounds, sorted, fun _ => succ_pos _, fun net => length_take_of_le ?_⟩
  refine getAcceptableIndex_lt ?_ _
  have pos := inv.pos net
  rw [← inv.length, best, length_take, (inv.sorted net).length_eq] at pos
  exact (sorted net).length_eq ▸ (by omega)

theorem inv_run (nonempty : outbounds ≠ []) (labels : List Label) :
    Inv outbounds (labels.foldl (step num den) (newRoundRobin outbounds)) := by
  refine foldlRecOn _ _ ⟨rfl, fun _ => .refl _, fun net => ?_, fun net => ?_⟩
    fun s inv label _ => ?_
  · exact length_pos_iff.mpr (filterOutbounds_ne_nil nonempty)
  · exact length_take_of_le (Nat.le_refl _)
  · cases label with
    | update history => exact inv.update history
    | select net touch => exact inv.select net touch

/-- The acceptable outbounds, from the next one on. -/
def ring (s : RoundRobin) (net : String) : List Outbound := (s.best net).rotate (s.idx net + 1)

theorem Inv.ring_length (inv : Inv outbounds s) (net : String) :
    (s.ring net).length = s.acceptable net := by
  rw [ring, length_rotate, inv.length]

theorem Inv.select_ring (inv : Inv outbounds s) (net : String) (touch : Bool) :
    (s.Select net touch).1 = (s.ring (networkOf net)).head? ∧ ∀ other,
      (s.Select net touch).2.ring other =
        if networkOf net = other ∧ touch then (s.ring other).rotate 1 else s.ring other := by
  have pos := inv.pos (networkOf net)
  simp only [Select, if_neg (Nat.ne_of_gt pos)]
  refine ⟨?_, fun other => ?_⟩
  · have lt := mod_lt (s.idx (networkOf net) + 1) pos
    rw [ring, ← rotate_mod, inv.length, head?_rotate (inv.length _ ▸ lt), best,
      getElem?_take_of_lt lt]
  · cases touch with
    | false => simp
    | true =>
      rw [ring, ring]
      by_cases same : networkOf net = other
      · subst same
        have turned := rotate_mod (s.best (networkOf net)) (s.idx (networkOf net) + 1)
        rw [inv.length] at turned
        simp [best] at turned ⊢
        rw [← rotate_rotate, turned, rotate_rotate]
      · simp [best, same, update_of_ne (Ne.symm same)]

/-- The touching calls go round. -/
theorem Inv.returned_eq (inv : Inv outbounds s) {calls : List (String × Bool)}
    (few : (s.returned net calls).length ≤ (s.ring net).length) :
    s.returned net calls = ((s.ring net).take (s.returned net calls).length).map some := by
  induction calls generalizing s with
  | nil => rfl
  | cons call calls ih =>
    obtain ⟨other, touch⟩ := call
    obtain ⟨first, ring⟩ := inv.select_ring other touch
    replace ih := ih (inv.select other touch)
    rw [ring] at ih
    unfold returned at few ⊢
    split at few
    case isTrue touched =>
      rw [if_pos touched] at ih ⊢
      rw [first, touched.1]
      cases eq : s.ring net with
      | nil => simp [eq] at few
      | cons out rest =>
        rw [eq] at few ih
        have short := le_of_succ_le_succ few
        rw [rotate_cons_succ, rotate_zero, length_append, take_append_of_le_length short] at ih
        exact congrArg (cons (some out)) (ih (le_add_right_of_le short))
    case isFalse untouched =>
      rw [if_neg untouched] at ih ⊢
      exact ih few

/-- In every run of updates and calls, from any outbounds, a call returns one of its network, and as
many touching calls as there are acceptable outbounds, with no update between them, return each
once. -/
theorem select_fair (outbounds : List Outbound) (nonempty : outbounds ≠ [])
    (num den : Nat) (labels : List Label) :
    let s := labels.foldl (step num den) (newRoundRobin outbounds)
    (∀ net touch, ∃ out ∈ filterOutbounds outbounds (networkOf net),
      (s.Select net touch).1 = some out) ∧
    ∀ net calls, (s.returned net calls).length = s.acceptable net →
      (s.returned net calls).Perm ((s.best net).map some) := by
  intro s
  have inv : Inv outbounds s := inv_run nonempty labels
  refine ⟨fun net touch => ?_, fun net calls all => ?_⟩
  · rw [(inv.select_ring net touch).1]
    cases eq : s.ring (networkOf net) with
    | nil => exact absurd (inv.ring_length (networkOf net)) (by simp [eq, (inv.pos _).ne])
    | cons out rest =>
      refine ⟨out, ?_, rfl⟩
      rw [← inv.outbounds, ← (inv.sorted _).mem_iff]
      exact mem_of_mem_take (((rotate_perm ..).mem_iff).mp (eq ▸ mem_cons_self))
  · rw [inv.returned_eq (by rw [all, inv.ring_length]), all, ← inv.ring_length, take_length]
    exact (rotate_perm ..).map _

theorem select_fair_two :
    (returned "tcp" (newRoundRobin [⟨"a", ["tcp"]⟩, ⟨"b", ["tcp"]⟩])
      [("tcp", true), ("tcp", true)]).Perm [some ⟨"a", ["tcp"]⟩, some ⟨"b", ["tcp"]⟩] :=
  (select_fair [⟨"a", ["tcp"]⟩, ⟨"b", ["tcp"]⟩] (by simp) 1 1 []).2 "tcp"
    [("tcp", true), ("tcp", true)] (by decide)

end RoundRobin

end SingBox.Group.Balancer
