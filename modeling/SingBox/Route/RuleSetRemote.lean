import SingBox.Lib.Bytes
import SingBox.Lib.System

/-!
# Remote rule-sets

`route/rule/rule_set_remote.go`. A request carries the tag of the last reply that had one, so that
the server may answer that nothing has changed.

* `describes_iff` — the tag is that of the rules in use, in memory and in the cache file, if and only
  if no reply without a tag replaces one with a tag.
-/

namespace SingBox.Route

open Lib

/-- A reply with the status 200. -/
structure Reply where
  content : Bytes
  etag : String
  deriving DecidableEq

/-- What `fetch` gets. -/
inductive Response where
  | ok (reply : Reply)
  | notModified
  | other

/-- A rule-set and what is saved of it, each time with the reply that the content is from. -/
structure RemoteRuleSet where
  rules : Option Reply := none
  lastEtag : String := ""
  saved : Option (Reply × String) := none
  deriving DecidableEq

namespace RemoteRuleSet

variable (s : RemoteRuleSet)

/-- `StartContext` of a new rule-set. -/
def start : RemoteRuleSet :=
  match s.saved with
  | none => { s with rules := none, lastEtag := "" }
  | some (reply, etag) => { s with rules := some reply, lastEtag := etag }

/-- A reply that is read is put into the place of the rules, and saved if that does not fail. For
one that is not modified only the time is saved. -/
def fetch (response : Response) (loads saves : Bool) : RemoteRuleSet :=
  match response with
  | .notModified | .other => s
  | .ok reply =>
      if !loads then s
      else
        let lastEtag := if reply.etag ≠ "" then reply.etag else s.lastEtag
        { rules := some reply
          lastEtag
          saved := if saves then some (reply, lastEtag) else s.saved }

inductive Label where
  | start
  | fetch (response : Response) (loads saves : Bool)

def step : Label → Option RemoteRuleSet
  | .start => some s.start
  | .fetch response loads saves => some (s.fetch response loads saves)

/-- A tag is sent, and saved, with the rules of its own reply. -/
structure Describes (s : RemoteRuleSet) : Prop where
  sent : s.lastEtag ≠ "" → s.rules.map Reply.etag = some s.lastEtag
  saved : ∀ reply etag, s.saved = some (reply, etag) → etag ≠ "" → reply.etag = etag

/-- A reply that is used has a tag, or there was none before. -/
def Tagged : Label → Prop
  | .fetch (.ok reply) true _ => reply.etag = "" → s.lastEtag = ""
  | _ => True

/-- A reply is used, and a tag goes with it. -/
theorem describes_used_iff {s : RemoteRuleSet} (describes : s.Describes) (reply : Reply)
    (etag : String) (saves : Bool) :
    Describes ⟨some reply, etag, if saves then some (reply, etag) else s.saved⟩ ↔
      (etag ≠ "" → reply.etag = etag) := by
  constructor
  · exact fun used sent => Option.some.inj (used.sent sent)
  · intro own
    refine ⟨fun sent => congrArg some (own sent), fun other etag' saved => ?_⟩
    cases saves with
    | false => exact describes.saved other etag' saved
    | true =>
      cases saved
      exact own

theorem step_describes_iff {s s' : RemoteRuleSet} {label : Label} (describes : s.Describes)
    (taken : s.step label = some s') : s'.Describes ↔ s.Tagged label := by
  match label, taken with
  | .start, rfl =>
    refine iff_of_true ?_ trivial
    unfold start
    split
    · exact ⟨fun sent => absurd rfl sent, describes.saved⟩
    · rename_i reply etag saved
      exact ⟨fun sent => congrArg some (describes.saved reply etag saved sent), describes.saved⟩
  | .fetch .notModified .., rfl | .fetch .other .., rfl | .fetch (.ok _) false _, rfl =>
    exact iff_of_true describes trivial
  | .fetch (.ok reply) true saves, rfl =>
    refine (describes_used_iff describes reply _ saves).trans ?_
    by_cases untagged : reply.etag = "" <;> simp [Tagged, untagged]

/-- In every run of starts and fetches, from an empty cache file, the tag that a request carries, and
the tag that is saved, is that of the reply with the rules, if and only if no reply without a tag is
used after one with a tag. -/
theorem describes_iff (labels : List Label) (last : RemoteRuleSet)
    (run : steps step {} labels = some last) :
    Always step Describes {} labels ↔ Through step Tagged {} labels :=
  always_iff_through Describes (fun _ _ _ => step_describes_iff)
    ⟨fun sent => absurd rfl sent, nofun⟩ run

theorem describes_restarted :
    Always step Describes {} [.fetch (.ok ⟨[1], "v1"⟩) true true, .start] :=
  (describes_iff _ _ rfl).mpr (by simp [Through, step, Tagged])

/-- The second reply has no tag: the next request has the tag of the first one. -/
theorem not_describes :
    steps step {} [.fetch (.ok ⟨[1], "v1"⟩) true true, .fetch (.ok ⟨[2], ""⟩) true true] =
      some ⟨some ⟨[2], ""⟩, "v1", some (⟨[2], ""⟩, "v1")⟩ := by
  decide

end RemoteRuleSet

end SingBox.Route
