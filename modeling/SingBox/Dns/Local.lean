import Mathlib.Data.List.Perm.Basic

/-!
# The local DNS transport

`exchange` asks the servers of the system for each name that a domain can stand for: one
after the other, or all at once, in which case the first answer wins and the errors are
counted until there is one for each name. Both loops count on at least one name, and the
attempts at a name on at least one server.

* `tryOneName_panicked` — an attempt ends with an answer or an error, unless there is none to make;
* `race_answers` — the race ends before the context does, if there is somebody in it;
* `exchange_answers_iff` — when `exchange` always answers or fails.
-/

namespace SingBox.Dns.Local

open List

/-! ## Names -/

/-- The part of `dnsConfig` that `exchange` uses. -/
structure DnsConfig where
  servers : List String
  search : List String
  ndots : Int
  attempts : Int
  rotate : Bool
  singleRequest : Bool
  deriving DecidableEq, Repr

/-- Whether the name ends with a dot. -/
def rooted (name : String) : Bool := name.toList.getLast? == some '.'

def avoidDNS (name : String) : Bool :=
  if name = "" then true
  else
    let name := if rooted name then name.toList.dropLast else name.toList
    ".onion".toList.isSuffixOf name

/-- `dnsConfig.nameList`. The length of a name is counted in bytes. -/
def nameList (c : DnsConfig) (name : String) : List String :=
  let l := name.utf8ByteSize
  if l > 254 || (l == 254 && !rooted name) then []
  else if rooted name then
    if avoidDNS name then [] else [name]
  else
    let hasNdots := decide ((name.toList.count '.' : Int) ≥ c.ndots)
    let name := name ++ "."
    let absolute := if avoidDNS name then [] else [name]
    let searched := c.search.filterMap fun suffix =>
      let fqdn := name ++ suffix
      if !avoidDNS fqdn && decide (fqdn.utf8ByteSize ≤ 254) then some fqdn else none
    (if hasNdots then absolute else []) ++ searched ++ (if hasNdots then [] else absolute)

/-! ## The exchange -/

variable {ρ : Type}

/-- What the network does: the answer to the query for a name, by the place of the name in
the list, the attempt, the place of the server and the server; the offset of `serverOffset`
for each name, when servers are rotated; and the error of the context once it is done. -/
structure Network (ρ : Type) where
  exchangeOne : Nat → String → Nat → Nat → String → Except String ρ
  soffset : Nat → UInt32
  ctxErr : String

/-- What is returned as an error: `E.Cause` of an error and a name, `E.Errors` of such errors, or
the error of the context. -/
inductive Failure where
  | cause (err fqdn : String)
  | errors (errs : List Failure)
  | context (err : String)
  deriving Repr

/-- How an attempt at a name ends. -/
inductive Try (ρ : Type) where
  | ok (response : ρ)
  | err (err : Failure)
  | panicked

def firstOk : Option String → List (Except String ρ) → Except (Option String) ρ
  | lastErr, [] => .error lastErr
  | _, .ok response :: _ => .ok response
  | _, .error err :: rest => firstOk (some err) rest

variable (net : Network ρ) (config : DnsConfig)

/-- `tryOneName`, for the name at a place of the list. -/
def tryOneName (place : Nat) (fqdn : String) : Try ρ :=
  let serverOffset := if config.rotate then net.soffset place else 0
  let sLen := UInt32.ofNat config.servers.length
  let results := (range config.attempts.toNat).flatMap fun i =>
    (range sLen.toNat).map fun j =>
      let server := config.servers.getD ((serverOffset + UInt32.ofNat j) % sLen).toNat ""
      net.exchangeOne place fqdn i j server
  match firstOk none results with
  | .ok response => .ok response
  -- `E.Cause` panics without an error
  | .error none => .panicked
  | .error (some lastErr) => .err (.cause lastErr fqdn)

/-- How an exchange ends: with what the function returns, with a panic, or not before the
context does. -/
inductive Outcome (ρ : Type) where
  | returned (response : Option ρ) (err : Option Failure)
  | panicked
  | waiting
  deriving Repr

/-- Try the names, the first of them at the given place. -/
def exchangeSingleLoop (net : Network ρ) (config : DnsConfig) :
    Option Failure → Nat → List String → Outcome ρ
  | lastErr, _, [] => .returned none lastErr
  | _, place, fqdn :: rest =>
      match tryOneName net config place fqdn with
      | .ok response => .returned (some response) none
      | .err err => exchangeSingleLoop net config (some err) (place + 1) rest
      | .panicked => .panicked

def exchangeSingleRequest (domain : String) : Outcome ρ :=
  exchangeSingleLoop net config none 0 (nameList config domain)

/-- What the loop of `exchangeParallel` receives. -/
inductive RaceEvent where
  | done
  | result (racer : Nat)
  deriving DecidableEq, Repr

def RaceEvent.racer : RaceEvent → Option Nat
  | .done => none
  | .result racer => some racer

/-- An order of events: the result of each racer, and at any time, or never, the end of the
context. -/
structure Schedule (racers : Nat) where
  events : List RaceEvent
  perm : (events.filterMap RaceEvent.racer).Perm (range racers)

/-- The loop of `exchangeParallel`. -/
def race (ctxErr : String) (racers : List (Try ρ)) : List Failure → List RaceEvent → Outcome ρ
  | _, [] => .waiting
  | _, .done :: _ => .returned none (some (.context ctxErr))
  | errs, .result racer :: rest =>
      match racers[racer]? with
      | none => race ctxErr racers errs rest
      | some (.ok response) => .returned (some response) none
      | some .panicked => .panicked
      | some (.err err) =>
          let errs := errs ++ [err]
          if errs.length = racers.length then .returned none (some (.errors errs))
          else race ctxErr racers errs rest

def exchangeParallel (domain : String) (events : List RaceEvent) : Outcome ρ :=
  race net.ctxErr ((nameList config domain).mapIdx (tryOneName net config)) [] events

def typeA : UInt16 := 1
def typeAAAA : UInt16 := 28

def exchange (qtype : UInt16) (domain : String)
    (schedule : Schedule (nameList config domain).length) : Outcome ρ :=
  if config.singleRequest || !(qtype == typeA || qtype == typeAAAA) then
    exchangeSingleRequest net config domain
  else exchangeParallel net config domain schedule.events

/-- A response or an error, and not only when the context ends. -/
def Outcome.Answers : Outcome ρ → Prop
  | .returned response err => response.isSome = true ∨ err.isSome = true
  | .panicked => False
  | .waiting => False

/-! ## Attempts -/

/-- There is a server to ask, and an attempt to make. -/
def CanTry : Prop :=
  0 < config.attempts ∧ UInt32.ofNat config.servers.length ≠ 0

theorem firstOk_cases (lastErr : Option String) (results : List (Except String ρ)) :
    (∃ response, firstOk lastErr results = .ok response) ∨
    (∃ err, firstOk lastErr results = .error (some err)) ∨
    (results = [] ∧ firstOk lastErr results = .error lastErr) := by
  induction results generalizing lastErr with
  | nil => exact .inr (.inr ⟨rfl, rfl⟩)
  | cons first rest ih =>
    cases first with
    | ok response => exact .inl ⟨response, rfl⟩
    | error err =>
      rcases ih (some err) with ok | err' | ⟨_, last⟩
      · exact .inl ok
      · exact .inr (.inl err')
      · exact .inr (.inl ⟨err, last⟩)

/-- The queries that are made: none without a server or an attempt. -/
theorem queries_eq_nil (config : DnsConfig) (query : Nat → Nat → Except String ρ) :
    ((range config.attempts.toNat).flatMap fun i =>
      (range (UInt32.ofNat config.servers.length).toNat).map (query i)) = [] ↔
        ¬ CanTry config := by
  have servers : (UInt32.ofNat config.servers.length).toNat = 0 ↔
      UInt32.ofNat config.servers.length = 0 := by
    rw [← UInt32.toNat_inj]
    rfl
  rw [flatMap_eq_nil_iff, CanTry, Ne, ← servers]
  simp only [mem_range, map_eq_nil_iff, range_eq_nil]
  constructor
  · intro none can
    exact can.2 (none 0 (by omega))
  · intro cannot i inside
    by_contra some
    exact cannot ⟨by omega, some⟩

theorem tryOneName_panicked (net : Network ρ) (config : DnsConfig) (place : Nat) (fqdn : String) :
    tryOneName net config place fqdn = .panicked ↔ ¬ CanTry config := by
  unfold tryOneName
  dsimp only
  rw [← queries_eq_nil config fun i j => net.exchangeOne place fqdn i j (config.servers.getD
    (((if config.rotate then net.soffset place else 0) + UInt32.ofNat j) %
      UInt32.ofNat config.servers.length).toNat "")]
  generalize (range config.attempts.toNat).flatMap _ = results
  rcases firstOk_cases none results with ⟨response, ok⟩ | ⟨err, failed⟩ | ⟨empty, failed⟩
  · rw [ok]
    refine iff_of_false nofun ?_
    rintro rfl
    cases ok
  · rw [failed]
    refine iff_of_false nofun ?_
    rintro rfl
    cases failed
  · rw [failed]
    exact iff_of_true rfl empty

/-! ## Both loops -/

variable {net : Network ρ} {config : DnsConfig}

theorem exchangeSingleLoop_answers (can : CanTry config) (lastErr : Option Failure) (place : Nat)
    (names : List String) (some : lastErr.isSome = true ∨ names ≠ []) :
    (exchangeSingleLoop net config lastErr place names).Answers := by
  induction names generalizing lastErr place with
  | nil => exact .inr (some.resolve_right fun ne => ne rfl)
  | cons fqdn rest ih =>
    rw [exchangeSingleLoop]
    cases tried : tryOneName net config place fqdn with
    | ok response => exact .inl rfl
    | err err => exact ih _ _ (.inl rfl)
    | panicked => exact absurd can ((tryOneName_panicked ..).mp tried)

/-- While there is a racer whose result is to come, the race goes on; when the last one has
come, it is over. -/
theorem race_answers {racers : List (Try ρ)} (ctxErr : String) (errs : List Failure)
    (events : List RaceEvent) (fine : ∀ racer ∈ racers, racer ≠ .panicked)
    (inside : ∀ i ∈ events.filterMap RaceEvent.racer, i < racers.length)
    (left : events.filterMap RaceEvent.racer ≠ [])
    (count : errs.length + (events.filterMap RaceEvent.racer).length = racers.length) :
    (race ctxErr racers errs events).Answers := by
  induction events generalizing errs with
  | nil => exact absurd rfl left
  | cons event rest ih =>
    cases event with
    | done => exact .inr rfl
    | result racer =>
      simp only [filterMap_cons, RaceEvent.racer, length_cons, mem_cons,
        forall_eq_or_imp] at inside count
      have isRacer : racer < racers.length := inside.1
      rw [race, getElem?_eq_getElem isRacer]
      cases result : racers[racer] with
      | ok response => exact .inl rfl
      | panicked => exact absurd result (fine _ (getElem_mem isRacer))
      | err err =>
        dsimp only
        split_ifs with last
        · exact .inr rfl
        · rw [length_append, length_singleton] at last
          refine ih _ inside.2 ?_ ?_
          · intro none
            rw [none] at count
            simp at count
            omega
          · simp
            omega

/-- Every schedule of a race that somebody takes part in. -/
theorem exchangeParallel_answers {domain : String} (can : CanTry config)
    (names : nameList config domain ≠ []) (schedule : Schedule (nameList config domain).length) :
    (exchangeParallel net config domain schedule.events).Answers := by
  have length := schedule.perm.length_eq
  rw [length_range] at length
  apply race_answers
  · intro racer mem
    obtain ⟨place, inside, rfl⟩ := mem_mapIdx.mp mem
    exact fun panics => (tryOneName_panicked ..).mp panics can
  · intro i mem
    rw [length_mapIdx, ← mem_range]
    exact schedule.perm.mem_iff.mp mem
  · intro none
    rw [none] at length
    exact names (length_eq_zero_iff.mp length.symm)
  · rw [length_mapIdx]
    simpa using length

/-- The racers one after the other, while the context goes on. -/
def Schedule.inOrder (racers : Nat) : Schedule racers where
  events := (range racers).map .result
  perm := by
    rw [filterMap_map]
    have all : (RaceEvent.racer ∘ RaceEvent.result) = some := rfl
    rw [all, filterMap_some]

theorem exchange_not_answers {domain : String} (qtype : UInt16)
    (h : nameList config domain = [] ∨ ¬ CanTry config) :
    ¬ (exchange net config qtype domain (.inOrder _)).Answers := by
  unfold exchange exchangeSingleRequest exchangeParallel Schedule.inOrder
  cases names : nameList config domain with
  | nil => split_ifs <;> simp [exchangeSingleLoop, race, Outcome.Answers]
  | cons fqdn rest =>
    have cannot := h.resolve_left (by simp [names])
    have panics := (tryOneName_panicked net config 0 fqdn).mpr cannot
    split_ifs
    · simp [exchangeSingleLoop, panics, Outcome.Answers]
    · simp [race, range_succ_eq_map, panics, Outcome.Answers]

/-- `exchange` returns a response or an error, whatever the network does and in whatever order
the results come, and does not wait for the end of the context, exactly if there is a name to
ask for, a server to ask and an attempt to make. -/
theorem exchange_answers_iff (ρ : Type) (config : DnsConfig) (qtype : UInt16) (domain : String) :
    (∀ (net : Network ρ) (schedule : Schedule (nameList config domain).length),
      (exchange net config qtype domain schedule).Answers) ↔
    nameList config domain ≠ [] ∧ CanTry config := by
  constructor
  · intro answers
    by_contra h
    rw [not_and_or, not_not] at h
    let failing : Network ρ := ⟨fun _ _ _ _ _ => .error "", fun _ => 0, ""⟩
    exact exchange_not_answers qtype h (answers failing _)
  · rintro ⟨names, can⟩ net schedule
    unfold exchange
    split_ifs
    · exact exchangeSingleLoop_answers can none 0 _ (.inr names)
    · exact exchangeParallel_answers can names schedule

/-- A name under `.onion` has no candidate. Asked for one after the other, nothing is returned:
neither a response nor an error. Asked for at once, the call waits for the context. And without
a server the attempt panics. -/
theorem exchange_answers_not :
    let config : DnsConfig := ⟨["192.0.2.1"], [], 1, 2, false, false⟩
    let net : Network Unit := ⟨fun _ _ _ _ _ => .error "refused", fun _ => 0, ""⟩
    exchange net { config with singleRequest := true } typeA "a.onion." (.inOrder _) =
      .returned none none ∧
    exchange net config typeA "a.onion." (.inOrder _) = .waiting ∧
    exchange net { config with servers := [] } typeA "a.b." (.inOrder _) = .panicked := by
  exact ⟨rfl, rfl, rfl⟩

end SingBox.Dns.Local
