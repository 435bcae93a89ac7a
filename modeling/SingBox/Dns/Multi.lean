import SingBox.Dns.Message
import SingBox.Lib.FirstMatch

/-!
# Several DNS servers behind one

The multi transport of `dns/transport/multi/multi.go` asks its servers one after the other, or all
at once, and takes the first response that has a record left once the addresses in the ignored
ranges have been dropped. What is left may be a `CNAME` alone.

* `exchange_first` — either mode returns the first response with a record left;
* `multi_prefers_usable_iff` — no address in an ignored range is returned; that a usable address
  is returned if a server has one holds exactly if no response is taken for a record that is no
  address.
-/

namespace SingBox.Dns.Multi

open Lib List

/-- A server is what it answers to a message. -/
structure Transport where
  transports : List (Msg → Except String Msg)
  parallel : Bool
  ignoredRanges : List Prefix

/-- What a loop of the transport comes to next: the result of a server, or that the transport was
closed, or that the context is done. -/
inductive Arrival where
  | result (r : Except String Msg)
  | closed
  | expired (err : String)

namespace Transport

variable (m : Transport)

def isBlocked (ip : Addr) : Bool :=
  let netipAddr := ip.withoutZone
  !netipAddr.isValid || m.ignoredRanges.any (·.contains netipAddr)

/-- Whether `filterBlocked` keeps a record. -/
def keeps (rr : RR) : Bool :=
  match rr.data with
  | .a ip => !m.isBlocked ip
  | .aaaa ip => !m.isBlocked ip
  | _ => true

def filterBlocked (msg : Msg) : Msg × Bool :=
  if msg.answer.length = 0 then (msg, false)
  else
    let answers := msg.answer.filter m.keeps
    let hasChanged := answers.length != msg.answer.length
    ({ msg with answer := answers }, hasChanged)

/-- What is returned once all servers have been heard. -/
def noneLeft (lastErr : Option String) (lastResp : Option Msg) : Except String Msg :=
  match lastResp, lastErr with
  | some resp, _ => .ok resp
  | none, some err => .error err
  | none, none => .error "no dns response"

/-- The loop of both modes; `expired` is what is returned when the context is done. -/
def receive (m : Transport) (expired : Option String → Option Msg → String → Except String Msg)
    (lastErr : Option String) (lastResp : Option Msg) : List Arrival → Except String Msg
  | [] => noneLeft lastErr lastResp
  | .closed :: _ => .error "transport closed"
  | .expired err :: _ => expired lastErr lastResp err
  | .result (.error err) :: rest => m.receive expired (some err) lastResp rest
  | .result (.ok resp) :: rest =>
      let (resp, change) := m.filterBlocked resp
      if 0 < resp.answer.length then .ok resp
      -- a response that the filter has emptied is not remembered
      else if !change then m.receive expired lastErr (some resp) rest
      else m.receive expired lastErr lastResp rest

/-- `exchangeSerial`: a context that is done is an error. -/
def exchangeSerial (arrivals : List Arrival) : Except String Msg :=
  m.receive (fun _ _ err => .error err) none none arrivals

/-- `exchangeParallel`: a context that is done gives what has been heard so far. -/
def exchangeParallel (arrivals : List Arrival) : Except String Msg :=
  m.receive (fun lastErr lastResp err => noneLeft (some (lastErr.getD err)) lastResp) none none
    arrivals

/-- `Exchange`, with what its loop comes to. -/
def exchange (arrivals : List Arrival) : Except String Msg :=
  if m.transports.length = 0 then .error "no dns transports configured"
  else if !m.parallel then m.exchangeSerial arrivals
  else m.exchangeParallel arrivals

def results (msg : Msg) : List (Except String Msg) := m.transports.map (· msg)

end Transport

/-! ## Addresses -/

/-- The address of an `A` or `AAAA` record. -/
def address? (rr : RR) : Option Addr :=
  match rr.data with
  | .a ip | .aaaa ip => some ip
  | _ => none

section Usable

variable (m : Transport)

/-- The message holds an address outside the ignored ranges. -/
def Usable (msg : Msg) : Prop :=
  ∃ rr ∈ msg.answer, ∃ ip, address? rr = some ip ∧ m.isBlocked ip = false

def Clean (msg : Msg) : Prop :=
  ∀ rr ∈ msg.answer, ∀ ip, address? rr = some ip →
    ∀ range ∈ m.ignoredRanges, range.contains ip.withoutZone = false

def Leaves (msg : Msg) : Prop := ∃ rr ∈ msg.answer, m.keeps rr = true

/-- What the loops take a result for. -/
def taken (m : Transport) : Except String Msg → Option Msg
  | .error _ => none
  | .ok resp =>
      if 0 < (m.filterBlocked resp).1.answer.length then some (m.filterBlocked resp).1 else none

end Usable

section Filter

variable {m : Transport} {msg : Msg}

theorem keeps_of_address {rr : RR} {ip : Addr} (h : address? rr = some ip) :
    m.keeps rr = !m.isBlocked ip := by
  unfold address? at h
  unfold Transport.keeps
  split at h
  · cases h
    rfl
  · cases h
    rfl
  · cases h

theorem filterBlocked_answer (m : Transport) (msg : Msg) :
    (m.filterBlocked msg).1.answer = msg.answer.filter m.keeps := by
  unfold Transport.filterBlocked
  split
  case isTrue empty => rw [length_eq_zero_iff.mp empty, filter_nil]
  case isFalse => rfl

theorem leaves_iff : Leaves m msg ↔ 0 < (m.filterBlocked msg).1.answer.length := by
  rw [filterBlocked_answer, length_pos_iff_exists_mem]
  exact exists_congr fun rr => mem_filter.symm

theorem clean_filterBlocked (m : Transport) (msg : Msg) : Clean m (m.filterBlocked msg).1 := by
  intro rr mem ip here range inRanges
  rw [filterBlocked_answer, mem_filter, keeps_of_address here] at mem
  have free : m.isBlocked ip = false := by simpa using mem.2
  rw [Transport.isBlocked, Bool.or_eq_false_iff, any_eq_false] at free
  exact Bool.eq_false_iff.mpr (free.2 range inRanges)

theorem usable_filterBlocked : Usable m (m.filterBlocked msg).1 ↔ Usable m msg := by
  unfold Usable
  rw [filterBlocked_answer]
  constructor
  · rintro ⟨rr, mem, h⟩
    exact ⟨rr, mem_of_mem_filter mem, h⟩
  · rintro ⟨rr, mem, ip, here, free⟩
    refine ⟨rr, mem_filter.mpr ⟨mem, ?_⟩, ip, here, free⟩
    rw [keeps_of_address here, free]
    rfl

theorem Usable.leaves (usable : Usable m msg) : Leaves m msg := by
  obtain ⟨rr, mem, ip, here, free⟩ := usable
  refine ⟨rr, mem, ?_⟩
  rw [keeps_of_address here, free]
  rfl

end Filter

/-! ## The loop -/

section Loop

variable {m : Transport} {expired : Option String → Option Msg → String → Except String Msg}

theorem taken_ok (m : Transport) (msg : Msg) : taken m (.ok msg) =
    if 0 < (m.filterBlocked msg).1.answer.length then some (m.filterBlocked msg).1 else none := rfl

theorem receive_ok (lastErr : Option String) (lastResp : Option Msg) (msg : Msg)
    (rest : List Arrival) :
    m.receive expired lastErr lastResp (.result (.ok msg) :: rest) =
      if 0 < (m.filterBlocked msg).1.answer.length then .ok (m.filterBlocked msg).1
      else if !(m.filterBlocked msg).2 then
        m.receive expired lastErr (some (m.filterBlocked msg).1) rest
      else m.receive expired lastErr lastResp rest := rfl

variable {lastErr : Option String} {lastResp : Option Msg} {r : Except String Msg} {resp : Msg}

theorem receive_taken {rest : List Arrival} (h : taken m r = some resp) :
    m.receive expired lastErr lastResp (.result r :: rest) = .ok resp := by
  cases r with
  | error err => cases h
  | ok msg =>
    rw [taken_ok] at h
    split at h
    case isFalse => cases h
    case isTrue left =>
      cases h
      exact if_pos left

/-- A result that is not taken is passed over; the filtered response may be remembered. -/
theorem receive_passed (expired : Option String → Option Msg → String → Except String Msg)
    (lastErr : Option String) (lastResp : Option Msg) (rest : List Arrival) (h : taken m r = none) :
    ∃ lastErr' lastResp', (lastResp' = lastResp ∨
        ∃ resp, lastResp' = some resp ∧ resp.answer = []) ∧
      m.receive expired lastErr lastResp (.result r :: rest) =
        m.receive expired lastErr' lastResp' rest := by
  cases r with
  | error err => exact ⟨some err, lastResp, .inl rfl, rfl⟩
  | ok msg =>
    rw [taken_ok] at h
    split at h
    case isTrue => cases h
    case isFalse nothing =>
      have empty : (m.filterBlocked msg).1.answer = [] :=
        length_eq_zero_iff.mp (Nat.eq_zero_of_not_pos nothing)
      cases change : (m.filterBlocked msg).2 with
      | false =>
        refine ⟨lastErr, some (m.filterBlocked msg).1, .inr ⟨_, rfl, empty⟩, ?_⟩
        rw [receive_ok, if_neg nothing, change]
        rfl
      | true =>
        refine ⟨lastErr, lastResp, .inl rfl, ?_⟩
        rw [receive_ok, if_neg nothing, change]
        rfl

/-- What is returned was left by the filter, or has no records. -/
theorem receive_returns
    (later : ∀ lastErr lastResp err resp, (∀ last, lastResp = some last → last.answer = []) →
      expired lastErr lastResp err = .ok resp → resp.answer = [])
    {arrivals : List Arrival} (known : ∀ last, lastResp = some last → last.answer = [])
    (h : m.receive expired lastErr lastResp arrivals = .ok resp) :
    resp.answer = [] ∨ ∃ r, .result r ∈ arrivals ∧ taken m r = some resp := by
  induction arrivals generalizing lastErr lastResp with
  | nil =>
    refine .inl ?_
    unfold Transport.receive Transport.noneLeft at h
    split at h
    · cases h
      exact known _ rfl
    · cases h
    · cases h
  | cons arrival rest ih =>
    cases arrival with
    | closed => cases h
    | expired err => exact .inl (later lastErr lastResp err resp known h)
    | result r =>
      cases isTaken : taken m r with
      | some msg =>
        rw [receive_taken isTaken] at h
        cases h
        exact .inr ⟨r, mem_cons_self, isTaken⟩
      | none =>
        obtain ⟨lastErr', lastResp', remembered, same⟩ :=
          receive_passed expired lastErr lastResp rest isTaken
        rw [same] at h
        refine (ih (fun last isLast => ?_) h).imp_right fun ⟨r', mem, found⟩ =>
          ⟨r', mem_cons_of_mem _ mem, found⟩
        rcases remembered with rfl | ⟨msg, rfl, empty⟩
        · exact known last isLast
        · cases isLast
          exact empty

theorem receive_first {before after : List (Except String Msg)}
    (passed : ∀ b ∈ before, taken m b = none) (found : taken m r = some resp) :
    m.receive expired lastErr lastResp ((before ++ r :: after).map .result) = .ok resp := by
  induction before generalizing lastErr lastResp with
  | nil => exact receive_taken found
  | cons b before ih =>
    obtain ⟨here, later⟩ := forall_mem_cons.mp passed
    obtain ⟨lastErr', lastResp', -, same⟩ := receive_passed expired lastErr lastResp
      ((before ++ r :: after).map .result) here
    rw [cons_append, map_cons, same]
    exact ih later

end Loop

/-! ## Which response is returned -/

section Returned

variable {m : Transport}

theorem taken_some {r : Except String Msg} {resp : Msg} (h : taken m r = some resp) :
    ∃ msg, r = .ok msg ∧ Leaves m msg ∧ resp = (m.filterBlocked msg).1 := by
  cases r with
  | error err => cases h
  | ok msg =>
    rw [taken_ok] at h
    split at h
    case isFalse => cases h
    case isTrue left =>
      cases h
      exact ⟨msg, rfl, leaves_iff.mpr left, rfl⟩

theorem taken_of_leaves {msg : Msg} (h : Leaves m msg) :
    taken m (.ok msg) = some (m.filterBlocked msg).1 := if_pos (leaves_iff.mp h)

theorem taken_eq_none {r : Except String Msg} :
    taken m r = none ↔ ∀ msg, r = .ok msg → ¬ Leaves m msg := by
  cases r with
  | error err => exact iff_of_true rfl nofun
  | ok msg =>
    constructor
    · intro none other same leaves
      cases same
      cases none.symm.trans (taken_of_leaves leaves)
    · intro nothing
      exact if_neg (mt leaves_iff.mpr (nothing msg rfl))

/-- A response is returned as the filter leaves it, or has no records. -/
theorem exchange_returns {arrivals : List Arrival} {resp : Msg}
    (h : m.exchange arrivals = .ok resp) :
    resp.answer = [] ∨ ∃ r, .result r ∈ arrivals ∧ taken m r = some resp := by
  unfold Transport.exchange at h
  split at h
  · cases h
  split at h
  · refine receive_returns ?_ ?_ h
    · intro _ _ _ _ _ h
      cases h
    · intro _ h
      cases h
  · refine receive_returns ?_ ?_ h
    · intro _ _ _ _ known h
      unfold Transport.noneLeft at h
      split at h <;> cases h
      exact known _ rfl
    · intro _ h
      cases h

/-- Neither mode returns an address in an ignored range, whatever it comes to. -/
theorem exchange_clean {arrivals : List Arrival} {resp : Msg}
    (h : m.exchange arrivals = .ok resp) : Clean m resp := by
  rcases exchange_returns h with empty | ⟨r, -, isTaken⟩
  · intro rr mem
    rw [empty] at mem
    cases mem
  · obtain ⟨msg, -, -, rfl⟩ := taken_some isTaken
    exact clean_filterBlocked m msg

theorem exchange_first (m : Transport) {before after : List (Except String Msg)} {first : Msg}
    (some : m.transports ≠ []) (passed : ∀ resp, .ok resp ∈ before → ¬ Leaves m resp)
    (leaves : Leaves m first) :
    m.exchange ((before ++ .ok first :: after).map .result) = .ok (m.filterBlocked first).1 := by
  have passed' : ∀ b ∈ before, taken m b = none :=
    fun b mem => taken_eq_none.mpr fun resp same => passed resp (same ▸ mem)
  unfold Transport.exchange
  rw [if_neg (mt length_eq_zero_iff.mp some)]
  split <;> exact receive_first passed' (taken_of_leaves leaves)

def SomeUsable (m : Transport) (results : List (Except String Msg)) : Prop :=
  ∃ resp, .ok resp ∈ results ∧ Usable m resp

/-- If a server has a usable address, then the transport returns one. -/
def Prefers (m : Transport) (results : List (Except String Msg)) (returned : Except String Msg) :
    Prop :=
  SomeUsable m results → ∃ resp, returned = .ok resp ∧ Usable m resp

/-- Where a server has a usable address there is a first response that is left a record. -/
theorem exists_first_left {results : List (Except String Msg)} (usable : SomeUsable m results) :
    ∃ before first after, results = before ++ .ok first :: after ∧ Leaves m first ∧
      ∀ resp, .ok resp ∈ before → ¬ Leaves m resp := by
  obtain ⟨resp, mem, usable⟩ := usable
  obtain ⟨before, r, after, split, isTaken, passed⟩ :=
    exists_first (p := fun r => (taken m r).isSome)
      ⟨.ok resp, mem, by rw [taken_of_leaves usable.leaves]; rfl⟩
  obtain ⟨kept, found⟩ := Option.isSome_iff_exists.mp isTaken
  obtain ⟨first, rfl, leaves, -⟩ := taken_some found
  refine ⟨before, first, after, split, leaves, fun other here => ?_⟩
  have none : taken m (.ok other) = none := by simpa using passed _ here
  exact taken_eq_none.mp none other rfl

/-- What is returned for a list of results is usable exactly if the first response that is left a
record is. -/
theorem prefers_exchange_iff {results order : List (Except String Msg)} (some : m.transports ≠ [])
    (same : order.Perm results) :
    Prefers m results (m.exchange (order.map .result)) ↔
      ∀ before first after, order = before ++ .ok first :: after →
        (∀ resp, .ok resp ∈ before → ¬ Leaves m resp) → Leaves m first →
          SomeUsable m results → Usable m first := by
  constructor
  · intro prefers before first after split passed leaves usable
    obtain ⟨resp, returned, isUsable⟩ := prefers usable
    rw [split, exchange_first m some passed leaves] at returned
    cases returned
    exact usable_filterBlocked.mp isUsable
  · intro firsts usable
    have usable' : SomeUsable m order := by
      obtain ⟨resp, mem, h⟩ := usable
      exact ⟨resp, same.mem_iff.mpr mem, h⟩
    obtain ⟨before, first, after, split, leaves, passed⟩ := exists_first_left usable'
    refine ⟨_, ?_, usable_filterBlocked.mpr (firsts before first after split passed leaves usable)⟩
    rw [split]
    exact exchange_first m some passed leaves

/-- No address in an ignored range is returned. That a usable address is returned if a server has
one holds in the serial mode exactly if the first response that is left a record is left an
address, and in the parallel mode for every order of completion exactly if each such response is. -/
theorem multi_prefers_usable_iff (m : Transport) (msg : Msg) :
    (∀ arrivals resp, m.exchange arrivals = .ok resp → Clean m resp) ∧
    (Prefers m (m.results msg) (m.exchange ((m.results msg).map .result)) ↔
      ∀ before first after, m.results msg = before ++ .ok first :: after →
        (∀ resp, .ok resp ∈ before → ¬ Leaves m resp) → Leaves m first →
          SomeUsable m (m.results msg) → Usable m first) ∧
    ((∀ order : List (Except String Msg), order.Perm (m.results msg) →
        Prefers m (m.results msg) (m.exchange (order.map .result))) ↔
      (SomeUsable m (m.results msg) →
        ∀ resp, .ok resp ∈ m.results msg → Leaves m resp → Usable m resp)) := by
  by_cases some : m.transports = []
  · -- nothing is asked
    have nothing : ¬ SomeUsable m (m.results msg) := by
      rintro ⟨resp, mem, -⟩
      rw [Transport.results, some] at mem
      cases mem
    refine ⟨fun _ _ => exchange_clean, ?_, ?_⟩
    · exact iff_of_true (fun usable => absurd usable nothing)
        fun _ _ _ _ _ _ usable => absurd usable nothing
    · exact iff_of_true (fun _ _ usable => absurd usable nothing)
        fun usable => absurd usable nothing
  · refine ⟨fun _ _ => exchange_clean, prefers_exchange_iff some (.refl _), ?_⟩
    constructor
    · intro prefers usable resp mem leaves
      -- the server of this response may be the first to answer
      obtain ⟨before, after, split⟩ := append_of_mem mem
      have order : (.ok resp :: (before ++ after)).Perm (m.results msg) := by
        rw [split]
        exact perm_middle.symm
      exact (prefers_exchange_iff some order).mp (prefers _ order) [] resp (before ++ after) rfl
        nofun leaves usable
    · intro all order same
      refine (prefers_exchange_iff some same).mpr ?_
      intro before first after split _ leaves usable
      refine all usable first ?_ leaves
      exact same.mem_iff.mp (split ▸ mem_append_right _ mem_cons_self)

end Returned

/-- A record that is no address. -/
def cname : RR := ⟨⟨"www.example.org.", 5, classINET, 60⟩, .other []⟩

def addressRecord (a b c d : UInt8) : RR :=
  ⟨⟨"example.org.", typeA, classINET, 60⟩, .a (Addr.fromIP [a, b, c, d])⟩

/-- A query for the addresses of `www.example.org`. -/
def query : Msg := { question := [⟨"www.example.org.", typeA, classINET⟩] }

/-- Two servers: the address of the first one is in the ignored range. -/
def twoServers (parallel : Bool) : Transport :=
  ⟨[fun _ => .ok { answer := [cname, addressRecord 10 10 34 35] },
    fun _ => .ok { answer := [cname, addressRecord 93 184 216 34] }], parallel,
    [.v4 0x0a000000#32 8]⟩

theorem not_usable_cname (m : Transport) : ¬ Usable m { answer := [cname] } := by
  rintro ⟨rr, mem, ip, here, -⟩
  rw [mem_singleton.mp mem] at here
  cases here

theorem someUsable_twoServers (parallel : Bool) :
    SomeUsable (twoServers parallel) ((twoServers parallel).results query) := by
  refine ⟨_, mem_cons_of_mem _ mem_cons_self, addressRecord 93 184 216 34, by decide, _, rfl, ?_⟩
  cases parallel <;> decide

/-- The serial mode returns the record alone, and so does the parallel mode if the first server
answers first, though the second server has a usable address. -/
theorem cname_returned :
    (twoServers false).exchange (((twoServers false).results query).map .result) =
        .ok { answer := [cname] } ∧
      ¬ Prefers (twoServers false) ((twoServers false).results query)
        ((twoServers false).exchange (((twoServers false).results query).map .result)) ∧
      (twoServers true).exchange (((twoServers true).results query).map .result) =
        .ok { answer := [cname] } ∧
      ¬ Prefers (twoServers true) ((twoServers true).results query)
        ((twoServers true).exchange (((twoServers true).results query).map .result)) := by
  have returned (parallel : Bool) :
      (twoServers parallel).exchange (((twoServers parallel).results query).map .result) =
        .ok { answer := [cname] } := by cases parallel <;> rfl
  have refused (parallel : Bool) :
      ¬ Prefers (twoServers parallel) ((twoServers parallel).results query)
        ((twoServers parallel).exchange (((twoServers parallel).results query).map .result)) := by
    intro prefers
    obtain ⟨resp, same, usable⟩ := prefers (someUsable_twoServers parallel)
    cases (returned parallel).symm.trans same
    exact not_usable_cname _ usable
  exact ⟨returned false, refused false, returned true, refused true⟩

end SingBox.Dns.Multi
