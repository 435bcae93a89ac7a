import SingBox.Lib.System

/-!
# Clients that are used again

`transport/v2rayxhttp/mux.go`. A client that was created with a limit starts with one use less, the
call that creates it being the first; zero uses left is a client to be dropped, and a negative
number is no limit.

* `getXmuxClient_cases` — the client is a new one, or one that passed the checks;
* `step_balanced` — the uses of a client and those it has left add up to its limit;
* `limits_hold` — what is returned along a run of calls, and how often.
-/

namespace SingBox.Xhttp.Mux

open Lib List Function

structure XmuxClient where
  /-- `XmuxConn.IsClosed()`. -/
  closed : Bool := false
  openUsage : Int := 0
  leftUsage : Int
  leftRequests : Int
  unreusableAt : Option Int
  /-- The number of uses that was drawn for it, and how often it was returned. -/
  limit : Int
  returned : Nat := 0

/-- What is drawn from the ranges of the options for a new client. -/
structure Draws where
  cMaxReuseTimes : Int
  hMaxRequestTimes : Int
  hMaxReusableSecs : Int

def newXmuxClient (draws : Draws) (now : Int) : XmuxClient where
  leftUsage := if 0 < draws.cMaxReuseTimes then draws.cMaxReuseTimes - 1 else -1
  leftRequests := if 0 < draws.hMaxRequestTimes then draws.hMaxRequestTimes else 2147483647
  unreusableAt := if 0 < draws.hMaxReusableSecs then some (now + draws.hMaxReusableSecs) else none
  limit := draws.cMaxReuseTimes

variable (client : XmuxClient)

/-- The loop of `GetXmuxClient` drops the client. -/
abbrev XmuxClient.Dropped (now : Int) : Prop :=
  client.closed ∨ client.leftUsage = 0 ∨ client.leftRequests ≤ 0 ∨
    ∃ t ∈ client.unreusableAt, t < now

def XmuxClient.use : XmuxClient :=
  { client with
    leftUsage := if 0 < client.leftUsage then client.leftUsage - 1 else client.leftUsage }

structure XmuxManager where
  concurrency : Int
  connections : Int

structure State where
  xmuxClients : List Nat := []
  clients : Nat → XmuxClient := fun _ => newXmuxClient ⟨0, 0, 0⟩ 0
  created : Nat := 0

variable (m : XmuxManager) (s : State)

def State.drop (now : Int) : State :=
  { s with xmuxClients := s.xmuxClients.filter fun c => ¬ (s.clients c).Dropped now }

def State.set (c : Nat) (client : XmuxClient) : State :=
  { s with clients := update s.clients c client }

/-- `newXmuxClient`, with its place in the list. -/
def State.create (draws : Draws) (now : Int) : Nat × State :=
  (s.created, { s.set s.created (newXmuxClient draws now) with
    xmuxClients := s.xmuxClients ++ [s.created]
    created := s.created + 1 })

def XmuxManager.free : List Nat :=
  if 0 < m.concurrency then s.xmuxClients.filter fun c => (s.clients c).openUsage < m.concurrency
  else s.xmuxClients

def XmuxManager.getXmuxClient (now : Int) (draws : Draws) (i : Nat) : Option (Nat × State) :=
  let s := s.drop now
  if s.xmuxClients = [] then s.create draws now
  else if 0 < m.connections ∧ s.xmuxClients.length < m.connections then s.create draws now
  else if m.free s = [] then s.create draws now
  else (m.free s)[i]?.map fun c => (c, s.set c (s.clients c).use)

inductive Label where
  | getXmuxClient (now : Int) (draws : Draws) (i : Nat)
  /-- The connection of a client and those who use it. -/
  | change (c : Nat) (closed : Bool) (openUsage leftRequests : Int)

def step : Label → Option State
  | .getXmuxClient now draws i => (m.getXmuxClient s now draws i).map fun (c, s) =>
      s.set c { s.clients c with returned := (s.clients c).returned + 1 }
  | .change c closed openUsage leftRequests =>
      some (s.set c { s.clients c with closed, openUsage, leftRequests })

/-- What a call may return. -/
def Allowed : Label → Prop
  | .getXmuxClient now draws i => ∀ c s', m.getXmuxClient s now draws i = some (c, s') →
      ((s'.clients c).closed = false ∧ 0 < (s'.clients c).leftRequests ∧
        ∀ t ∈ (s'.clients c).unreusableAt, now ≤ t) ∧
      (c < s.created → 0 < m.concurrency → (s.clients c).openUsage < m.concurrency)
  | .change .. => True

variable {m s} {now : Int} {draws : Draws} {i c : Nat} {s' : State} {l : Label}

theorem getXmuxClient_cases (h : m.getXmuxClient s now draws i = some (c, s')) :
    ∃ client, s'.clients = update s.clients c client ∧
      (c = s.created ∧ client = newXmuxClient draws now ∨
        client = (s.clients c).use ∧ ¬ (s.clients c).Dropped now ∧
        (0 < m.concurrency → (s.clients c).openUsage < m.concurrency)) := by
  unfold XmuxManager.getXmuxClient at h
  dsimp only at h
  split_ifs at h
  iterate 3
    cases h
    exact ⟨_, rfl, .inl ⟨rfl, rfl⟩⟩
  obtain ⟨picked, drawn, same⟩ := Option.map_eq_some_iff.mp h
  cases same
  have mem := mem_of_getElem? drawn
  unfold XmuxManager.free State.drop at mem
  split_ifs at mem with limited
  · simp only [mem_filter, decide_eq_true_eq] at mem
    exact ⟨_, rfl, .inr ⟨rfl, mem.1.2, fun _ => mem.2⟩⟩
  · simp only [mem_filter, decide_eq_true_eq] at mem
    exact ⟨_, rfl, .inr ⟨rfl, mem.2, fun limited' => absurd limited' limited⟩⟩

theorem allowed : Allowed m s l := by
  cases l with
  | getXmuxClient now draws i =>
    intro c s' got
    obtain ⟨client, clients, cases⟩ := getXmuxClient_cases got
    rw [clients, update_self]
    rcases cases with ⟨rfl, rfl⟩ | ⟨rfl, kept, below⟩
    · refine ⟨⟨rfl, ?_, fun t mem => ?_⟩, fun old => absurd old (Nat.lt_irrefl _)⟩
      · show 0 < if 0 < draws.hMaxRequestTimes then draws.hMaxRequestTimes else 2147483647
        split_ifs <;> omega
      · obtain ⟨positive, ⟨⟩⟩ := Option.ite_none_right_eq_some.mp mem
        omega
    · simp only [not_or, not_exists, not_and, Int.not_le, Int.not_lt] at kept
      exact ⟨⟨Bool.not_eq_true _ ▸ kept.1, kept.2.2.1, kept.2.2.2⟩, fun _ => below⟩
  | change => trivial

/-- The uses of a client with a limit and those that are left. -/
def Balanced : Prop :=
  0 < client.limit → 0 ≤ client.leftUsage ∧ client.returned + client.leftUsage = client.limit

theorem step_balanced (inv : ∀ c, Balanced (s.clients c)) (taken : step m s l = some s') (c : Nat) :
    Balanced (s'.clients c) := by
  have set (c : Nat) {client : XmuxClient} (balanced : Balanced client) :
      ∀ c', Balanced (update s.clients c client c') :=
    (forall_update_iff _ fun _ => Balanced).mpr ⟨balanced, fun c' _ => inv c'⟩
  cases l with
  | getXmuxClient now draws i =>
    obtain ⟨⟨picked, after⟩, got, rfl⟩ := Option.map_eq_some_iff.mp taken
    obtain ⟨client, clients, cases⟩ := getXmuxClient_cases got
    simp only [State.set, clients, update_self, update_idem]
    refine set picked (fun limited => ?_) c
    rcases cases with ⟨-, rfl⟩ | ⟨rfl, kept, -⟩
    · have limited : 0 < draws.cMaxReuseTimes := limited
      simp only [newXmuxClient, if_pos limited]
      omega
    · obtain ⟨nonneg, sum⟩ := inv picked limited
      have left : (s.clients picked).leftUsage ≠ 0 := fun none => kept (.inr (.inl none))
      have positive : 0 < (s.clients picked).leftUsage := by omega
      simp only [XmuxClient.use, if_pos positive]
      omega
  | change changed closed openUsage leftRequests =>
    cases taken
    refine set changed (fun limited => ?_) c
    exact inv changed limited

/-- No client is returned that is closed, has no requests left or is past its time, or, if it is
not a new one, has too many users; and none is returned more often than its limit. -/
theorem limits_hold (m : XmuxManager) (labels : List Label) :
    Through (step m) (Allowed m) {} labels ∧
    ∀ s, steps (step m) {} labels = some s → ∀ c, 0 < (s.clients c).limit →
      (s.clients c).returned ≤ (s.clients c).limit := by
  refine ⟨through_of_forall fun l _ s => allowed, fun s run c limited => ?_⟩
  have balanced := steps_keeps (fun s : State => ∀ c, Balanced (s.clients c))
    (fun _ _ _ inv taken => step_balanced inv taken)
    (fun _ limited => absurd limited (Int.lt_irrefl 0)) run
  obtain ⟨nonneg, sum⟩ := balanced c limited
  omega

end SingBox.Xhttp.Mux
