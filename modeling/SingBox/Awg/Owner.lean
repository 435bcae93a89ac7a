import Mathlib.Data.List.TakeWhile
import SingBox.Awg.PeerNames
import SingBox.Lib.Longest
import SingBox.Lib.System

/-!
# The owner of a tunnel address

An address belongs to the peer with the longest range that contains it, and a range that two
peers list to the later of them. `Lookup` and `PeerEndpointFor` scan a table from which the
peers without a name, or without an endpoint, were dropped, and keep the first of the longest
ranges. The addresses of a dropped peer then go to a peer with a wider range, if there is one.

* `lookupName_eq` — the name that `Lookup` finds;
* `parsePeerRoutes_eq` — the table that a dump is turned into;
* `PeerEndpointFor_tracks` — the table in force is that of the dump read last;
* `attributed_iff` — when the name and the endpoint are those of the owner.
-/

namespace SingBox.Awg

open Lib List Function

-- the order of `Int` that can be evaluated, whichever others are in scope
attribute [local instance] Int.instLinearOrder

/-! ## Owners -/

section Owner

variable {ρ β : Type}

/-- The ranges that contain an address, in the order in which they are listed. -/
def containing (ranges : List (ρ × Prefix)) (addr : Addr) : List (ρ × Prefix) :=
  ranges.filter fun entry => entry.2.contains addr

/-- The range that an address belongs to, and its peer. -/
def owner (ranges : List (ρ × Prefix)) (addr : Addr) : Option (ρ × Prefix) :=
  lastLongest (fun entry => entry.2.bits) (containing ranges addr)

/-- The longest range that contains the address has no label only if none that contains it
has one; and if it has one, the first range of its length with a label has the same. -/
def Attributable (label : ρ × Prefix → Option β) (ranges : List (ρ × Prefix)) (addr : Addr) :
    Prop :=
  LabelsAgree (fun entry => entry.2.bits) label (containing ranges addr)

/-- The label that a scan of the ranges with a label finds. -/
def scanned (label : ρ × Prefix → Option β) (ranges : List (ρ × Prefix)) (addr : Addr) : Option β :=
  labelOfFirst (fun entry => entry.2.bits) label (containing ranges addr)

theorem bits_nonneg_of_contains {range : Prefix} {addr : Addr}
    (contains : range.contains addr = true) : 0 ≤ range.bits := by
  cases range with
  | invalid => cases contains
  | v4 | v6 => exact Int.natCast_nonneg _

theorem foldl_table {τ ν : Type} {label : ρ × Prefix → Option β} (entry : ρ × Prefix → τ)
    (range : τ → Prefix) (value : τ → ν) (result : β → ν)
    (hrange : ∀ e, range (entry e) = e.2)
    (hvalue : ∀ e b, label e = some b → value (entry e) = result b)
    (ranges : List (ρ × Prefix)) (addr : Addr) (start : ν) :
    (((ranges.filter fun e => (label e).isSome).map entry).foldl
      (longer (fun t => (range t).contains addr) (fun t => (range t).bits) value)
      (start, -1)).1 = ((scanned label ranges addr).map result).getD start := by
  have turn : ∀ best e, longer (fun t => (range t).contains addr) (fun t => (range t).bits) value
      best (entry e) = longer (fun e => e.2.contains addr) (fun e => e.2.bits)
        (fun e => value (entry e)) best e := by
    intro best e
    simp only [longer, hrange]
  rw [foldl_map]
  simp only [turn]
  rw [foldl_longer _ (fun e contains => Int.lt_of_lt_of_le (by decide)
    (bits_nonneg_of_contains contains)), filter_filter]
  have swap : (ranges.filter fun e => e.2.contains addr && (label e).isSome) =
      (containing ranges addr).filter fun e => (label e).isSome := by
    simp only [containing, filter_filter, Bool.and_comm]
  rw [swap, scanned, labelOfFirst]
  cases found : ((containing ranges addr).filter fun e => (label e).isSome).argmax
      fun e => e.2.bits with
  | none => rfl
  | some e =>
    obtain ⟨b, labelled⟩ := Option.isSome_iff_exists.mp
      (mem_filter.mp (argmax_mem found)).2
    simp [labelled, hvalue e b labelled]

end Owner

/-! ## Names -/

def allowedRanges (peers : List AwgPeerOptions) : List (AwgPeerOptions × Prefix) :=
  peers.flatMap fun peer => peer.allowedIPs.map fun range => (peer, range)

def nameOf (entry : AwgPeerOptions × Prefix) : Option String :=
  if entry.1.name = "" then none else some entry.1.name

/-- The name of the peer that owns the address, or the empty one. -/
def ownerName (peers : List AwgPeerOptions) (addr : Addr) : String :=
  ((owner (allowedRanges peers) addr.unmap).bind nameOf).getD ""

theorem nameOf_ne_empty {o : Option (AwgPeerOptions × Prefix)} : o.bind nameOf ≠ some "" := by
  intro h
  obtain ⟨e, _, named⟩ := Option.bind_eq_some_iff.mp h
  unfold nameOf at named
  split at named
  · cases named
  · rename_i ne
    exact ne (Option.some.inj named)

theorem getD_empty_injective {o o' : Option String} (h : o ≠ some "") (h' : o' ≠ some "")
    (same : o.getD "" = o'.getD "") : o = o' := by
  cases o with
  | none =>
    cases o' with
    | none => rfl
    | some n => exact absurd (congrArg some same.symm) h'
  | some n =>
    cases o' with
    | none => exact absurd (congrArg some same) h
    | some n' => exact congrArg some same

variable (peers : List AwgPeerOptions)

theorem nameEntries_eq :
    nameEntries peers = ((allowedRanges peers).filter fun e => (nameOf e).isSome).map fun e =>
      ⟨e.2, e.1.name⟩ := by
  unfold nameEntries allowedRanges
  induction peers with
  | nil => rfl
  | cons peer rest ih =>
    rw [flatMap_cons, ih]
    by_cases unnamed : peer.name = "" <;> simp [nameOf, unnamed, filter_map, comp_def]

theorem lookupName_eq (addr : Addr) :
    lookupName (newPeerNameTable peers) addr =
      (scanned nameOf (allowedRanges peers) addr.unmap).getD "" := by
  rw [lookupName_newPeerNameTable]
  cases valid : addr.isValid with
  | false =>
    have zero : addr.unmap = .invalid := by
      cases addr <;> first | rfl | cases valid
    simp [zero, scanned, containing, Prefix.contains_invalid, labelOfFirst]
  | true =>
    have named : ∀ (e : AwgPeerOptions × Prefix) (n : String), nameOf e = some n →
        e.1.name = id n := by
      intro e n h
      unfold nameOf at h
      split at h
      · cases h
      · exact Option.some.inj h
    have scan := foldl_table (fun e => ⟨e.2, e.1.name⟩) PeerNameEntry.range PeerNameEntry.name id
      (fun _ => rfl) named (allowedRanges peers) addr.unmap ""
    rw [nameEntries_eq]
    rw [Option.map_id] at scan
    exact scan

/-! ## Dumps -/

/-- `netip.ParseAddrPort` and `netip.ParsePrefix`. -/
structure Parsers where
  parseAddrPort : String → Option (Addr × UInt16)
  parsePrefix : String → Option Prefix

def isSpace (c : Char) : Bool :=
  c.toNat ∈ [9, 10, 11, 12, 13, 32, 0x85, 0xa0, 0x1680, 0x2028, 0x2029, 0x202f, 0x205f, 0x3000] ||
    (0x2000 ≤ c.toNat && c.toNat ≤ 0x200a)

def trimSpace (s : List Char) : List Char :=
  ((s.dropWhile isSpace).reverse.dropWhile isSpace).reverse

/-- `strings.Cut` at the first equals sign. -/
def cut (s : List Char) : Option (List Char × List Char) :=
  match s.span (· ≠ '=') with
  | (key, _ :: value) => some (key, value)
  | (_, []) => none

/-- A line of a dump, as far as `parsePeerRoutes` looks at it. -/
inductive DumpLine where
  | publicKey
  | endpoint (value : String)
  | allowedIp (value : String)
  | other
  deriving DecidableEq, Repr

def dumpLine (line : List Char) : DumpLine :=
  match cut (trimSpace line) with
  | none => .other
  | some (key, value) =>
      if key = "public_key".toList then .publicKey
      else if key = "endpoint".toList then .endpoint (String.ofList value)
      else if key = "allowed_ip".toList then .allowedIp (String.ofList value)
      else .other

def dumpLines (dump : String) : List DumpLine := (dump.toList.splitOn '\n').map dumpLine

structure PeerRoute where
  range : Prefix
  endpoint : Addr
  deriving DecidableEq, Repr

section Dump

variable (parsers : Parsers)

/-- A turn of the loop in `parsePeerRoutes`. -/
def routeLine (state : List PeerRoute × Addr) (line : DumpLine) : List PeerRoute × Addr :=
  let (routes, current) := state
  match line with
  | .publicKey => (routes, .invalid)
  | .endpoint value =>
      match parsers.parseAddrPort value with
      | some (addr, _) => (routes, addr.unmap)
      | none => (routes, current)
  | .allowedIp value =>
      if !current.isValid then (routes, current)
      else
        match parsers.parsePrefix value with
        | some range => (routes ++ [⟨range, current⟩], current)
        | none => (routes, current)
  | .other => (routes, current)

def parsePeerRoutes (dump : String) : List PeerRoute :=
  ((dumpLines dump).foldl (routeLine parsers) ([], .invalid)).1

/-! ### What a dump says -/

/-- The lines before the first public key, and those after each of them. -/
def sections : List DumpLine → List DumpLine × List (List DumpLine)
  | [] => ([], [])
  | .publicKey :: rest => ([], (sections rest).1 :: (sections rest).2)
  | line :: rest => (line :: (sections rest).1, (sections rest).2)

/-- The lines of each peer. -/
def bodies (dump : String) : List (List DumpLine) :=
  (sections (dumpLines dump)).1 :: (sections (dumpLines dump)).2

def endpointsIn (body : List DumpLine) : List Addr :=
  body.filterMap fun
    | .endpoint value => (parsers.parseAddrPort value).map fun parsed => parsed.1.unmap
    | _ => none

/-- The endpoint of a peer, not valid if it has none. -/
def endpointIn (body : List DumpLine) : Addr := ((endpointsIn parsers body).getLast?).getD .invalid

def rangesIn (body : List DumpLine) : List Prefix :=
  body.filterMap fun
    | .allowedIp value => parsers.parsePrefix value
    | _ => none

def DumpLine.isEndpoint : DumpLine → Bool
  | .endpoint _ => true
  | _ => false

def DumpLine.isAllowedIp : DumpLine → Bool
  | .allowedIp _ => true
  | _ => false

/-- A dump of the device: the endpoint of a peer stands before its allowed ranges. -/
structure Dump where
  text : String
  ordered : ∀ body ∈ bodies text,
    ∀ line ∈ body.dropWhile fun line => !line.isAllowedIp, line.isEndpoint = false

/-- The allowed ranges of all peers, with the endpoint of the peer. -/
def Dump.ranges (dump : Dump) : List (Addr × Prefix) :=
  (bodies dump.text).flatMap fun body =>
    (rangesIn parsers body).map fun range => (endpointIn parsers body, range)

def endpointLabel (entry : Addr × Prefix) : Option Addr :=
  if entry.1.isValid then some entry.1 else none

/-- The table entry of a range. -/
def routeOf (entry : Addr × Prefix) : PeerRoute := ⟨entry.2, entry.1⟩

variable {parsers} (routes : List PeerRoute) (current : Addr)

theorem routeLine_append (line : DumpLine) :
    routeLine parsers (routes, current) line =
      (routes ++ (routeLine parsers ([], current) line).1,
        (routeLine parsers ([], current) line).2) := by
  cases line with
  | publicKey => simp [routeLine]
  | endpoint value =>
    simp only [routeLine]
    cases parsers.parseAddrPort value <;> simp
  | allowedIp value =>
    simp only [routeLine]
    split_ifs
    · simp
    · cases parsers.parsePrefix value <;> simp
  | other => simp [routeLine]

variable (lines : List DumpLine)

theorem foldl_routeLine_append :
    lines.foldl (routeLine parsers) (routes, current) =
      (routes ++ (lines.foldl (routeLine parsers) ([], current)).1,
        (lines.foldl (routeLine parsers) ([], current)).2) := by
  induction lines generalizing routes current with
  | nil => simp
  | cons line rest ih =>
    rw [foldl_cons, foldl_cons, routeLine_append routes, ih]
    obtain ⟨more, next⟩ := routeLine parsers ([], current) line
    rw [ih more, append_assoc]

theorem foldl_sections :
    (lines.foldl (routeLine parsers) (routes, current)).1 =
      ((sections lines).1.foldl (routeLine parsers) (routes, current)).1 ++
        (sections lines).2.flatMap fun body =>
          (body.foldl (routeLine parsers) ([], .invalid)).1 := by
  induction lines generalizing routes current with
  | nil => simp [sections]
  | cons line rest ih =>
    rw [foldl_cons, ih]
    cases line with
    | publicKey =>
      simp only [sections, foldl_nil, flatMap_cons]
      rw [routeLine, foldl_routeLine_append, append_assoc]
    | endpoint value | allowedIp value | other => simp only [sections, foldl_cons]

theorem publicKey_notMem_sections :
    ∀ body ∈ (sections lines).1 :: (sections lines).2, .publicKey ∉ body := by
  induction lines with
  | nil => simp [sections]
  | cons line rest ih =>
    rw [forall_mem_cons] at ih
    cases line <;> simp [sections, ih] <;> exact ih.2

variable {body : List DumpLine}

section

variable (noKey : .publicKey ∉ body)
include noKey

theorem foldl_before (noRange : ∀ value, .allowedIp value ∉ body) (routes : List PeerRoute)
    (current : Addr) :
    body.foldl (routeLine parsers) (routes, current) =
      (routes, ((endpointsIn parsers body).getLast?).getD current) := by
  induction body generalizing current with
  | nil => rfl
  | cons line rest ih =>
    simp only [mem_cons, not_or] at noKey noRange
    have ih := fun current => ih noKey.2 (fun value => (noRange value).2) current
    cases line with
    | publicKey => exact absurd rfl noKey.1
    | allowedIp value => exact absurd rfl (noRange value).1
    | other =>
      rw [foldl_cons, routeLine, ih]
      rfl
    | endpoint value =>
      rw [foldl_cons]
      simp only [routeLine]
      cases parsed : parsers.parseAddrPort value with
      | none => simp only [ih, endpointsIn, filterMap_cons, parsed, Option.map_none]
      | some addr =>
        simp only [ih, endpointsIn, filterMap_cons, parsed, Option.map_some,
          getLast?_cons, Option.getD_some]

theorem foldl_after (noEndpoint : ∀ value, .endpoint value ∉ body) (routes : List PeerRoute)
    (current : Addr) :
    body.foldl (routeLine parsers) (routes, current) =
      (routes ++ if current.isValid then
        (rangesIn parsers body).map fun range => ⟨range, current⟩ else [], current) := by
  induction body generalizing routes with
  | nil => simp [rangesIn]
  | cons line rest ih =>
    simp only [mem_cons, not_or] at noKey noEndpoint
    have ih := fun routes => ih noKey.2 (fun value => (noEndpoint value).2) routes
    cases line with
    | publicKey => exact absurd rfl noKey.1
    | endpoint value => exact absurd rfl (noEndpoint value).1
    | other =>
      rw [foldl_cons, routeLine, ih]
      rfl
    | allowedIp value =>
      rw [foldl_cons]
      simp only [routeLine]
      cases valid : current.isValid with
      | false => simp [ih, valid]
      | true => cases parsed : parsers.parsePrefix value <;> simp [ih, valid, rangesIn, parsed]

/-- The routes of a peer: its ranges, if it has an endpoint. -/
theorem foldl_body
    (ordered : ∀ line ∈ body.dropWhile fun line => !line.isAllowedIp, line.isEndpoint = false) :
    (body.foldl (routeLine parsers) ([], .invalid)).1 =
      (((rangesIn parsers body).map fun range => (endpointIn parsers body, range)).filter
        fun e => (endpointLabel e).isSome).map routeOf := by
  obtain ⟨before, after, rfl, noRange, noEndpoint⟩ : ∃ before after, body = before ++ after ∧
      (∀ value, .allowedIp value ∉ before) ∧ ∀ value, .endpoint value ∉ after := by
    refine ⟨_, _, (takeWhile_append_dropWhile (p := fun line => !line.isAllowedIp)).symm,
      fun value mem => ?_, fun value mem => ?_⟩
    · cases mem_takeWhile_imp mem
    · cases ordered _ mem
  rw [mem_append, not_or] at noKey
  have endpoint : endpointsIn parsers (before ++ after) = endpointsIn parsers before := by
    have none : endpointsIn parsers after = [] := by
      refine filterMap_eq_nil_iff.mpr fun line mem => ?_
      cases line with
      | endpoint value => exact absurd mem (noEndpoint value)
      | _ => rfl
    rw [endpointsIn, filterMap_append]
    exact (congrArg _ none).trans (append_nil _)
  have ranges : rangesIn parsers (before ++ after) = rangesIn parsers after := by
    have none : rangesIn parsers before = [] := by
      refine filterMap_eq_nil_iff.mpr fun line mem => ?_
      cases line with
      | allowedIp value => exact absurd mem (noRange value)
      | _ => rfl
    rw [rangesIn, filterMap_append]
    exact congrArg (· ++ _) none
  rw [foldl_append, foldl_before noKey.1 noRange, foldl_after noKey.2 noEndpoint, endpointIn,
    endpoint, ranges]
  cases valid : (((endpointsIn parsers before).getLast?).getD .invalid).isValid <;>
  simp [endpointLabel, valid, filter_map, comp_def, routeOf]

end

theorem parsePeerRoutes_eq (dump : Dump) :
    parsePeerRoutes parsers dump.text =
      ((dump.ranges parsers).filter fun e => (endpointLabel e).isSome).map routeOf := by
  unfold parsePeerRoutes Dump.ranges
  rw [foldl_sections, filter_flatMap, map_flatMap]
  have each : ∀ body ∈ bodies dump.text, (body.foldl (routeLine parsers) ([], .invalid)).1 = _ :=
    fun body mem => foldl_body (publicKey_notMem_sections (dumpLines dump.text) body mem)
      (dump.ordered body mem)
  exact flatMap_congr each

end Dump

/-! ## Endpoints -/

/-- Three seconds. -/
def peerEndpointCacheTTL : Int := 3000000000

structure PeerEndpointCache where
  expires : Int
  routes : List PeerRoute

/-- A call of `PeerEndpointFor`: whether there is a device, what the clock says when it is
read first and when it is read again, and what the device answers. -/
structure EndpointCall where
  addr : Addr
  present : Bool
  now : Int
  later : Int
  ipcGet : Except String Dump

section Endpoints

variable (parsers : Parsers)

/-- The cache that a call looks into; none if the device does not answer. -/
def PeerEndpointCache.refresh (cache : PeerEndpointCache) (call : EndpointCall) :
    Option PeerEndpointCache :=
  if call.now > cache.expires then
    match call.ipcGet with
    | .error _ => none
    | .ok dump =>
        some
          { routes := parsePeerRoutes parsers dump.text
            expires := call.later + peerEndpointCacheTTL }
  else some cache

/-- The loop over the routes. -/
def longestRoute (routes : List PeerRoute) (addr : Addr) : Option Addr :=
  (routes.foldl
    (fun (best, bestBits) route =>
      if route.range.bits > bestBits && route.range.contains addr then
        (some route.endpoint, route.range.bits)
      else (best, bestBits))
    (none, -1)).1

def PeerEndpointFor (cache : PeerEndpointCache) (call : EndpointCall) :
    Option Addr × PeerEndpointCache :=
  if !call.addr.isValid || !call.present then (none, cache)
  else
    match cache.refresh parsers call with
    | none => (none, cache)
    | some cache => (longestRoute cache.routes call.addr.unmap, cache)

/-- The cache, and the dump read last. -/
structure Tracked where
  cache : PeerEndpointCache
  dump : Dump

def Tracked.start : Tracked where
  cache := { expires := -62135596800000000000, routes := [] }
  dump := ⟨"", by decide⟩

/-- A call, and the dump that is in force after it. -/
def Tracked.ask (s : Tracked) (call : EndpointCall) : Option Addr × Tracked :=
  match PeerEndpointFor parsers s.cache call with
  | (result, cache) =>
      let reads := call.addr.isValid && call.present && decide (call.now > s.cache.expires)
      (result,
        { cache
          dump := if reads then (call.ipcGet.toOption).getD s.dump else s.dump })

def Tracked.step (s : Tracked) (call : EndpointCall) : Option Tracked := some (s.ask parsers call).2

/-- The endpoint of the peer that owns the address, if it has one. -/
def ownerEndpoint (dump : Dump) (addr : Addr) : Option Addr :=
  (owner (dump.ranges parsers) addr.unmap).bind endpointLabel

variable {parsers}

/-- The table in force is that of the dump read last. -/
def Tracked.Consistent (parsers : Parsers) (s : Tracked) : Prop :=
  s.cache.routes = parsePeerRoutes parsers s.dump.text

/-- What a call answers, if it answers: the longest route of the dump in force. -/
theorem Tracked.ask_spec {s : Tracked} (consistent : s.Consistent parsers) (call : EndpointCall) :
    (s.ask parsers call).2.Consistent parsers ∧
    ((s.ask parsers call).1 = none ∨
      (s.ask parsers call).1 = longestRoute
        (parsePeerRoutes parsers (s.ask parsers call).2.dump.text) call.addr.unmap) := by
  unfold Tracked.ask PeerEndpointFor PeerEndpointCache.refresh
  cases valid : call.addr.isValid with
  | false => exact ⟨consistent, .inl rfl⟩
  | true =>
    cases present : call.present with
    | false => exact ⟨consistent, .inl rfl⟩
    | true =>
      by_cases old : call.now > s.cache.expires
      · cases answer : call.ipcGet with
        | error err => simpa [old, answer, Except.toOption] using consistent
        | ok dump => simp [old, Except.toOption, Tracked.Consistent]
      · have same : s.cache.routes = parsePeerRoutes parsers s.dump.text := consistent
        simp [old, Tracked.Consistent, same]

theorem PeerEndpointFor_tracks {s : Tracked} {calls : List EndpointCall}
    (run : steps (Tracked.step parsers) .start calls = some s) : s.Consistent parsers :=
  steps_keeps (Tracked.Consistent parsers)
    (fun _ _ _ consistent now => by
      cases now
      exact (Tracked.ask_spec consistent _).1)
    (by rfl) run

theorem longestRoute_parsePeerRoutes (dump : Dump) (addr : Addr) :
    longestRoute (parsePeerRoutes parsers dump.text) addr =
      scanned endpointLabel (dump.ranges parsers) addr := by
  have labelled : ∀ (e : Addr × Prefix) (a : Addr), endpointLabel e = some a →
      some (routeOf e).endpoint = some a := by
    intro e a h
    unfold endpointLabel at h
    split at h
    · exact h
    · cases h
  have scan := foldl_table routeOf PeerRoute.range (fun route => some route.endpoint) some
    (fun _ => rfl) labelled (dump.ranges parsers) addr none
  rw [parsePeerRoutes_eq]
  refine scan.trans ?_
  cases scanned endpointLabel (dump.ranges parsers) addr <;> rfl

end Endpoints

/-- When a tunnel address is attributed to its owner: `Lookup` gives the name of the owner, and
in any run of calls an answer of `PeerEndpointFor` is the endpoint of the owner in the dump
read last. -/
theorem attributed_iff (parsers : Parsers) :
    (∀ peers addr, lookupName (newPeerNameTable peers) addr = ownerName peers addr ↔
      Attributable nameOf (allowedRanges peers) addr.unmap) ∧
    (∀ calls s call, steps (Tracked.step parsers) .start calls = some s →
      ((∀ endpoint, (s.ask parsers call).1 = some endpoint →
          ownerEndpoint parsers (s.ask parsers call).2.dump call.addr = some endpoint) ↔
        ((s.ask parsers call).1 ≠ none →
          Attributable endpointLabel ((s.ask parsers call).2.dump.ranges parsers)
            call.addr.unmap))) := by
  refine ⟨fun peers addr => ?_, fun calls s call run => ?_⟩
  · unfold ownerName owner Attributable
    rw [lookupName_eq, ← labelOfFirst_eq_iff]
    constructor
    · intro same
      exact getD_empty_injective nameOf_ne_empty nameOf_ne_empty same
    · intro same
      rw [← same]
      rfl
  · rcases (Tracked.ask_spec (PeerEndpointFor_tracks run) call).2 with none | found
    · rw [none]
      exact iff_of_true nofun (absurd rfl)
    · rw [longestRoute_parsePeerRoutes] at found
      have agree : (∀ endpoint, (s.ask parsers call).1 = some endpoint →
          ownerEndpoint parsers (s.ask parsers call).2.dump call.addr = some endpoint) ↔
          Attributable endpointLabel ((s.ask parsers call).2.dump.ranges parsers)
            call.addr.unmap := by
        rw [found]
        exact labelOfFirst_only_iff
      refine ⟨fun only _ => agree.mp only, fun attributable endpoint answer => ?_⟩
      exact agree.mpr (attributable (by rw [answer]; nofun)) endpoint answer

/-- The parsers, as far as the dumps below need them. -/
def someParsers : Parsers where
  parseAddrPort s :=
    if s = "192.0.2.1:51820" then some (.v4 0xc0000201#32, 51820)
    else if s = "192.0.2.2:51820" then some (.v4 0xc0000202#32, 51820)
    else none
  parsePrefix s :=
    if s = "10.0.0.0/24" then some (.v4 0x0a000000#32 24)
    else if s = "10.0.0.2/32" then some (.v4 0x0a000002#32 32)
    else none

/-- A dump with two peers, the second of which has a range inside that of the first. -/
theorem attributed_iff_nested :
    ∃ dump : Dump,
      dump.text = "public_key=a\nendpoint=192.0.2.1:51820\nallowed_ip=10.0.0.0/24\n" ++
        "public_key=b\nendpoint=192.0.2.2:51820\nallowed_ip=10.0.0.2/32\n" ∧
      (Tracked.start.ask someParsers ⟨.v4 0x0a000002#32, true, 0, 0, .ok dump⟩).1 =
        some (.v4 0xc0000202#32) ∧
      ownerEndpoint someParsers dump (.v4 0x0a000002#32) = some (.v4 0xc0000202#32) := by
  refine ⟨⟨_, by decide +kernel⟩, rfl, by decide +kernel, ?_⟩
  exact ((attributed_iff someParsers).2 [] .start
    ⟨.v4 0x0a000002#32, true, 0, 0, .ok ⟨_, by decide +kernel⟩⟩ rfl).mpr
    (fun _ => labelOfFirst_eq_iff.mp (by decide +kernel)) _ (by decide +kernel)

/-- A peer without a name, and one without an endpoint, whose range is part of that of another
peer: its address is attributed to the other one. -/
theorem attributed_wrong :
    let peers : List AwgPeerOptions :=
      [{ name := "alice", allowedIPs := [.v4 0x0a000000#32 24] },
        { allowedIPs := [.v4 0x0a000002#32 32] }]
    lookupName (newPeerNameTable peers) (.v4 0x0a000002#32) = "alice" ∧
    ownerName peers (.v4 0x0a000002#32) = "" ∧
    ∃ dump : Dump,
      dump.text = "public_key=a\nendpoint=192.0.2.1:51820\nallowed_ip=10.0.0.0/24\n" ++
        "public_key=b\nallowed_ip=10.0.0.2/32\n" ∧
      (Tracked.start.ask someParsers ⟨.v4 0x0a000002#32, true, 0, 0, .ok dump⟩).1 =
        some (.v4 0xc0000201#32) ∧
      ownerEndpoint someParsers dump (.v4 0x0a000002#32) = none := by
  refine ⟨by decide, by decide, ⟨_, ?_⟩, rfl, ?_, ?_⟩ <;> decide +kernel

end SingBox.Awg
