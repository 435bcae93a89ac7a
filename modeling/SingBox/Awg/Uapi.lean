import Mathlib.Data.List.Pairwise
import SingBox.Netip

/-!
# The peer table of a WireGuard device

The part of the configuration protocol that is about peers. A configuration is a
list of lines; `public_key` opens the section of a peer, creating it if need be, and
the lines after it change what they name and nothing else. A range belongs to one
peer at a time. How the device tells ranges apart is left open (`range`).

* `run_lines`, `Cursor.run_removals` — what the sections that are ever sent do to the table;
* `Holds` — what the table is, by the sections of its peers;
* `Leads` — when a configuration for a running device leads to the table of other sections, which
  `Holds.delta` says it does; `holds_program` is the case of a new device.
-/

namespace SingBox.Awg

open List Function Option

/-- A line of a configuration. Keys are written in hex, so a line holds their bytes. -/
inductive Line (κ : Type) where
  | publicKey (key : κ)
  | presharedKey (key : κ)
  | endpoint (address : String)
  | persistentKeepaliveInterval (seconds : UInt16)
  | allowedIp (range : Prefix)
  | replaceAllowedIps
  | remove
  deriving DecidableEq, Repr

/-- What the device keeps for a peer, but for its ranges. -/
structure Settings (κ : Type) where
  presharedKey : Option κ := none
  endpoint : Option String := none
  keepalive : UInt16 := 0
  deriving DecidableEq, Repr

/-- The peers, and the peer each range belongs to. -/
@[ext] structure Table (κ ι : Type) where
  peers : κ → Option (Settings κ)
  owner : ι → Option κ

variable {κ ι : Type}

namespace Table

def empty : Table κ ι where
  peers _ := none
  owner _ := none

/-- Change the settings of a peer, which is created if it is not there. -/
def modify [DecidableEq κ] (t : Table κ ι) (key : κ) (f : Settings κ → Settings κ) : Table κ ι :=
  { t with peers := update t.peers key (some (f ((t.peers key).getD {}))) }

def assign [DecidableEq ι] (t : Table κ ι) (key : κ) (ranges : List ι) : Table κ ι :=
  { t with owner := fun i => if i ∈ ranges then some key else t.owner i }

def clear [DecidableEq κ] (t : Table κ ι) (key : κ) : Table κ ι :=
  { t with owner := fun i => if t.owner i = some key then none else t.owner i }

def delete [DecidableEq κ] (t : Table κ ι) (key : κ) : Table κ ι :=
  { t.clear key with peers := update t.peers key none }

variable (t : Table κ ι)

theorem assign_assign [DecidableEq ι] (key : κ) (some_ more : List ι) :
    (t.assign key some_).assign key more = t.assign key (some_ ++ more) := by
  simp only [assign, mem_append, mk.injEq, true_and]
  funext i
  by_cases first : i ∈ some_ <;> by_cases second : i ∈ more <;> simp [first, second]

@[simp] theorem assign_nil [DecidableEq ι] (key : κ) : t.assign key [] = t := by
  simp [assign]

def deletes [DecidableEq κ] (t : Table κ ι) (keys : List κ) : Table κ ι := keys.foldl delete t

theorem deletes_peers [DecidableEq κ] (keys : List κ) (key : κ) :
    (t.deletes keys).peers key = if key ∈ keys then none else t.peers key := by
  induction keys generalizing t with
  | nil => simp [deletes]
  | cons first rest ih =>
    show ((t.delete first).deletes rest).peers key = _
    rw [ih]
    by_cases now : key = first <;> by_cases later : key ∈ rest <;> simp [delete, now, later]

theorem deletes_owner [DecidableEq κ] (keys : List κ) (i : ι) :
    (t.deletes keys).owner i =
      if ∃ key ∈ keys, t.owner i = some key then none else t.owner i := by
  induction keys generalizing t with
  | nil => simp [deletes]
  | cons first rest ih =>
    show ((t.delete first).deletes rest).owner i = _
    rw [ih]
    by_cases now : t.owner i = some first <;> simp [delete, clear, now]

end Table

/-! ## Running a configuration -/

/-- The table, and the peer whose section it is. -/
structure Cursor (κ ι : Type) where
  table : Table κ ι
  current : Option κ

namespace Cursor

/-- Change the peer whose section it is; there is none before the first `public_key`. -/
def onPeer (c : Cursor κ ι) (f : κ → Table κ ι) : Cursor κ ι :=
  match c.current with
  | none => c
  | some key => { c with table := f key }

def line [DecidableEq κ] [DecidableEq ι] (range : Prefix → ι) (c : Cursor κ ι) :
    Line κ → Cursor κ ι
  | .publicKey key => { table := c.table.modify key id, current := some key }
  | .presharedKey psk =>
      c.onPeer fun key => c.table.modify key ({ · with presharedKey := some psk })
  | .endpoint address =>
      c.onPeer fun key => c.table.modify key ({ · with endpoint := some address })
  | .persistentKeepaliveInterval seconds =>
      c.onPeer fun key => c.table.modify key ({ · with keepalive := seconds })
  | .allowedIp p => c.onPeer fun key => c.table.assign key [range p]
  | .replaceAllowedIps => c.onPeer fun key => c.table.clear key
  | .remove => { c.onPeer fun key => c.table.delete key with current := none }

def run [DecidableEq κ] [DecidableEq ι] (range : Prefix → ι) (c : Cursor κ ι)
    (lines : List (Line κ)) : Cursor κ ι :=
  lines.foldl (line range) c

theorem run_append [DecidableEq κ] [DecidableEq ι] (range : Prefix → ι) (c : Cursor κ ι)
    (first second : List (Line κ)) :
    c.run range (first ++ second) = (c.run range first).run range second :=
  foldl_append

end Cursor

/-- `IpcSet` of a device that accepts every line. -/
def Table.program [DecidableEq κ] [DecidableEq ι] (range : Prefix → ι) (t : Table κ ι)
    (lines : List (Line κ)) : Table κ ι :=
  (Cursor.run range ⟨t, none⟩ lines).table

/-! ## Sections -/

/-- What a section sets: the settings it does not name are left out, and so is a
keepalive interval of zero. -/
structure Section (κ : Type) where
  key : κ
  presharedKey : Option κ := none
  endpoint : Option String := none
  keepalive : UInt16 := 0
  allowedIPs : List Prefix := []
  deriving DecidableEq, Repr

namespace Section

variable (s : Section κ)

/-- The lines after `public_key`. -/
def body : List (Line κ) :=
  (s.presharedKey.map Line.presharedKey).toList ++ ((s.endpoint.map Line.endpoint).toList ++
    ((if s.keepalive ≠ 0 then [Line.persistentKeepaliveInterval s.keepalive] else []) ++
      s.allowedIPs.map Line.allowedIp))

def lines : List (Line κ) := .publicKey s.key :: s.body

/-- The settings of a new peer. -/
def settings : Settings κ where
  presharedKey := s.presharedKey
  endpoint := s.endpoint
  keepalive := s.keepalive

/-- The settings of a peer that is there already: what is not named stays. -/
def update (old : Settings κ) : Settings κ where
  presharedKey := s.presharedKey.or old.presharedKey
  endpoint := s.endpoint.or old.endpoint
  keepalive := if s.keepalive ≠ 0 then s.keepalive else old.keepalive

def ranges (range : Prefix → ι) (s : Section κ) : List ι := s.allowedIPs.map range

/-- The section, with the old ranges cleared first or not. -/
def linesOf (replace : Bool) (s : Section κ) : List (Line κ) :=
  if replace then .publicKey s.key :: .replaceAllowedIps :: s.body else s.lines

end Section

/-- What a section does to the table. -/
def Table.put [DecidableEq κ] [DecidableEq ι] (range : Prefix → ι) (t : Table κ ι) (replace : Bool)
    (s : Section κ) : Table κ ι :=
  ((if replace then t.clear s.key else t).modify s.key s.update).assign s.key (s.ranges range)

theorem Section.update_default (s : Section κ) : s.update {} = s.settings := by
  simp only [update, settings, or_none, Settings.mk.injEq, true_and]
  by_cases zero : s.keepalive = 0 <;> simp [zero]

/-- The table has exactly the peers of the sections, with their settings and ranges. -/
structure Table.Holds (range : Prefix → ι) (t : Table κ ι) (sections : Section κ → Prop) :
    Prop where
  settings : ∀ s, sections s → t.peers s.key = some s.settings
  noPeer : ∀ key, (∀ s, sections s → s.key ≠ key) → t.peers key = none
  owner : ∀ s, sections s → ∀ i ∈ s.ranges range, t.owner i = some s.key
  noOwner : ∀ i, (∀ s, sections s → i ∉ s.ranges range) → t.owner i = none

theorem Table.Holds.unique {range : Prefix → ι} {t t' : Table κ ι} {sections : Section κ → Prop}
    (holds : t.Holds range sections) (holds' : t'.Holds range sections) : t = t' := by
  ext1
  · funext key
    by_cases known : ∃ s, sections s ∧ s.key = key
    · obtain ⟨s, hs, rfl⟩ := known
      rw [holds.settings s hs, holds'.settings s hs]
    · have unknown : ∀ s, sections s → s.key ≠ key := fun s hs same => known ⟨s, hs, same⟩
      rw [holds.noPeer key unknown, holds'.noPeer key unknown]
  · funext i
    by_cases known : ∃ s, sections s ∧ i ∈ s.ranges range
    · obtain ⟨s, hs, mem⟩ := known
      rw [holds.owner s hs i mem, holds'.owner s hs i mem]
    · have unknown : ∀ s, sections s → i ∉ s.ranges range := fun s hs mem => known ⟨s, hs, mem⟩
      rw [holds.noOwner i unknown, holds'.noOwner i unknown]

/-- The two sections are of different peers, with no range in common. -/
def Section.Apart (range : Prefix → ι) (a b : Section κ) : Prop :=
  a.key ≠ b.key ∧ ∀ i ∈ a.ranges range, i ∉ b.ranges range

instance (range : Prefix → ι) : Std.Symm (fun a b : Section κ => Section.Apart range a b) where
  symm _ _ apart := ⟨apart.1.symm, fun i inB inA => apart.2 i inA inB⟩

/-! ### Their effect -/

variable [DecidableEq κ] [DecidableEq ι] (range : Prefix → ι)

namespace Cursor

theorem run_allowedIPs (t : Table κ ι) (key : κ) (ips : List Prefix) :
    run range ⟨t, some key⟩ (ips.map Line.allowedIp) =
      ⟨t.assign key (ips.map range), some key⟩ := by
  induction ips generalizing t with
  | nil => simp [run]
  | cons ip rest ih =>
    show run range ⟨t.assign key [range ip], some key⟩ (rest.map Line.allowedIp) = _
    rw [ih, Table.assign_assign]
    rfl

theorem run_body (t : Table κ ι) (s : Section κ) :
    run range ⟨t.modify s.key id, some s.key⟩ s.body =
      ⟨(t.modify s.key s.update).assign s.key (s.ranges range), some s.key⟩ := by
  obtain ⟨key, psk, endpoint, keepalive, ips⟩ := s
  unfold Section.body
  rw [← append_assoc, ← append_assoc, run_append]
  refine (congrArg (run range · _) ?_).trans (run_allowedIPs range _ key ips)
  -- the settings that are sent, one after the other
  by_cases zero : keepalive = 0 <;> cases psk <;> cases endpoint <;>
    simp [run, line, onPeer, Table.modify, Section.update, zero]

theorem run_lines (c : Cursor κ ι) (replace : Bool) (s : Section κ) :
    c.run range (s.linesOf replace) = ⟨c.table.put range replace s, some s.key⟩ := by
  cases replace with
  | false => exact run_body range c.table s
  | true => exact run_body range (c.table.clear s.key) s

end Cursor

def Table.puts (t : Table κ ι) (sections : List (Bool × Section κ)) : Table κ ι :=
  sections.foldl (fun t item => t.put range item.1 item.2) t

variable {range} (t : Table κ ι)

theorem Table.put_peers (replace : Bool) (s : Section κ) :
    (t.put range replace s).peers =
      update t.peers s.key (some (s.update ((t.peers s.key).getD {}))) := by
  cases replace <;> rfl

theorem Table.put_owner (replace : Bool) (s : Section κ) (i : ι) :
    (t.put range replace s).owner i = if i ∈ s.ranges range then some s.key
      else if replace = true ∧ t.owner i = some s.key then none else t.owner i := by
  cases replace <;> simp [put, assign, modify, clear]

namespace Table

variable {sections : List (Bool × Section κ)}

theorem puts_peers_not {key : κ} (absent : ∀ item ∈ sections, item.2.key ≠ key) (t : Table κ ι) :
    (t.puts range sections).peers key = t.peers key := by
  refine foldlRecOn (motive := fun t' : Table κ ι => t'.peers key = _) _ _ rfl ?_
  intro t' same item mem
  rw [put_peers, update_of_ne (absent item mem).symm, same]

theorem puts_peers_mem (apart : sections.Pairwise fun a b => Section.Apart range a.2 b.2)
    {item : Bool × Section κ} (mem : item ∈ sections) (t : Table κ ι) :
    (t.puts range sections).peers item.2.key =
      some (item.2.update ((t.peers item.2.key).getD {})) := by
  induction sections generalizing t with
  | nil => cases mem
  | cons first rest ih =>
    obtain ⟨head, tail⟩ := pairwise_cons.mp apart
    show ((t.put range first.1 first.2).puts range rest).peers item.2.key = _
    rcases mem_cons.mp mem with rfl | later
    · rw [puts_peers_not fun other hother same => (head other hother).1 same.symm, put_peers,
        update_self]
    · rw [ih tail later, put_peers, update_of_ne (head item later).1.symm]

/-- A range that no section names is lost exactly if its owner's ranges are replaced. -/
theorem puts_owner_not {i : ι} (absent : ∀ item ∈ sections, i ∉ item.2.ranges range)
    (t : Table κ ι) :
    (t.puts range sections).owner i =
      if ∃ item ∈ sections, item.1 = true ∧ t.owner i = some item.2.key then none
      else t.owner i := by
  induction sections generalizing t with
  | nil => simp [puts]
  | cons item rest ih =>
    show ((t.put range item.1 item.2).puts range rest).owner i = _
    rw [ih (forall_mem_cons.mp absent).2, put_owner, if_neg (absent item mem_cons_self)]
    by_cases now : item.1 = true ∧ t.owner i = some item.2.key
    · simp [now]
    · simp only [mem_cons, exists_eq_or_imp, now, false_or, if_false]

theorem puts_owner_mem (apart : sections.Pairwise fun a b => Section.Apart range a.2 b.2)
    {item : Bool × Section κ} (mem : item ∈ sections) {i : ι} (own : i ∈ item.2.ranges range)
    (t : Table κ ι) : (t.puts range sections).owner i = some item.2.key := by
  induction sections generalizing t with
  | nil => cases mem
  | cons first rest ih =>
    obtain ⟨head, tail⟩ := pairwise_cons.mp apart
    show ((t.put range first.1 first.2).puts range rest).owner i = _
    rcases mem_cons.mp mem with rfl | later
    · rw [puts_owner_not fun other hother => (head other hother).2 i own, put_owner,
        if_pos own, if_neg]
      rintro ⟨other, hother, _, same⟩
      exact (head other hother).1 (some.inj same)
    · exact ih tail later _

end Table

/-! ## A configuration for a running device -/

/-- Sections, and the removal of peers after them. -/
def deltaLines (sections : List (Bool × Section κ)) (keys : List κ) : List (Line κ) :=
  sections.flatMap (fun item => item.2.linesOf item.1) ++
    keys.flatMap fun key => [.publicKey key, .remove]

variable (sections : List (Bool × Section κ))

theorem Cursor.run_sections (c : Cursor κ ι) :
    (c.run range (sections.flatMap fun item => item.2.linesOf item.1)).table =
      c.table.puts range sections := by
  induction sections generalizing c with
  | nil => rfl
  | cons item rest ih =>
    rw [flatMap_cons, run_append, run_lines, ih]
    rfl

theorem Cursor.run_removals (keys : List κ) (c : Cursor κ ι) :
    (c.run range (keys.flatMap fun key => [.publicKey key, .remove])).table =
      c.table.deletes keys := by
  induction keys generalizing c with
  | nil => rfl
  | cons key rest ih =>
    have removed : (c.table.modify key id).delete key = c.table.delete key := by
      unfold Table.delete Table.clear Table.modify
      rw [update_idem]
    rw [flatMap_cons, run_append, ih]
    exact congrArg (Table.deletes · rest) removed

theorem Table.program_delta (keys : List κ) :
    t.program range (deltaLines sections keys) = (t.puts range sections).deletes keys := by
  unfold program deltaLines
  rw [Cursor.run_append, Cursor.run_removals, Cursor.run_sections]

/-- When a delta takes the table of the old sections to that of the new ones: what is
sent sets everything that differs, what is not sent is as it was, and what is gone is
removed or replaced. -/
structure Leads (range : Prefix → ι) (t : Table κ ι) (old new : Section κ → Prop)
    (sections : List (Bool × Section κ)) (keys : List κ) : Prop where
  apart : sections.Pairwise fun a b => Section.Apart range a.2 b.2
  separate : ∀ s s', new s → new s' → s = s' ∨ Section.Apart range s s'
  sent : ∀ item ∈ sections,
    new item.2 ∧ item.2.update ((t.peers item.2.key).getD {}) = item.2.settings
  unsent : ∀ s, new s → (∀ replace, (replace, s) ∉ sections) → old s
  alive : ∀ s, new s → s.key ∉ keys
  gone : ∀ s, old s → new s ∨ s.key ∈ keys ∨
    ∃ item ∈ sections, item.1 = true ∧ item.2.key = s.key

namespace Leads

variable {t : Table κ ι} {old new : Section κ → Prop} {sections : List (Bool × Section κ)}
  {keys : List κ}

variable (leads : Leads range t old new sections keys)
include leads

omit [DecidableEq ι] in
/-- A section of the file is sent, or it is not and no other of its key or ranges is. -/
theorem sent_or_kept {s : Section κ} (hs : new s) :
    (∃ replace, (replace, s) ∈ sections) ∨
      (old s ∧ ∀ item ∈ sections, Section.Apart range item.2 s) := by
  by_cases isSent : ∃ replace, (replace, s) ∈ sections
  · exact .inl isSent
  · refine .inr ⟨leads.unsent s hs fun replace mem => isSent ⟨replace, mem⟩, ?_⟩
    intro item mem
    rcases leads.separate item.2 s (leads.sent item mem).1 hs with same | apart
    · exact absurd ⟨item.1, same ▸ mem⟩ isSent
    · exact apart

variable (holds : t.Holds range old)
include holds

theorem peers_new {s : Section κ} (hs : new s) :
    ((t.puts range sections).deletes keys).peers s.key = some s.settings := by
  rw [Table.deletes_peers, if_neg (leads.alive s hs)]
  rcases leads.sent_or_kept hs with ⟨replace, mem⟩ | ⟨hold, others⟩
  · rw [Table.puts_peers_mem leads.apart mem, (leads.sent _ mem).2]
  · rw [Table.puts_peers_not fun item mem => (others item mem).1]
    exact holds.settings s hold

theorem peers_gone {key : κ} (notNew : ∀ s, new s → s.key ≠ key) :
    ((t.puts range sections).deletes keys).peers key = none := by
  rw [Table.deletes_peers]
  split
  · rfl
  · rename_i notDeleted
    rw [Table.puts_peers_not fun item mem => notNew item.2 (leads.sent item mem).1]
    -- an old peer of that key would be new, deleted or sent again
    apply holds.noPeer
    rintro s hold rfl
    rcases leads.gone s hold with hs | deleted | ⟨item, mem, _, same⟩
    · exact notNew s hs rfl
    · exact notDeleted deleted
    · exact notNew item.2 (leads.sent item mem).1 same

theorem owner_new {s : Section κ} (hs : new s) {i : ι} (own : i ∈ s.ranges range) :
    ((t.puts range sections).deletes keys).owner i = some s.key := by
  have owned : (t.puts range sections).owner i = some s.key := by
    rcases leads.sent_or_kept hs with ⟨replace, mem⟩ | ⟨hold, others⟩
    · exact Table.puts_owner_mem leads.apart mem own t
    · have before := holds.owner s hold i own
      rw [Table.puts_owner_not (fun item mem named => (others item mem).2 i named own), if_neg]
      · exact before
      · rintro ⟨item, mem, _, same⟩
        rw [before] at same
        exact (others item mem).1 (some.inj same).symm
  rw [Table.deletes_owner, if_neg]
  · exact owned
  · rintro ⟨key, mem, same⟩
    rw [owned] at same
    exact leads.alive s hs (some.inj same ▸ mem)

theorem owner_gone {i : ι} (notNew : ∀ s, new s → i ∉ s.ranges range) :
    ((t.puts range sections).deletes keys).owner i = none := by
  rw [Table.deletes_owner]
  split
  · rfl
  · rename_i notDeleted
    rw [Table.puts_owner_not fun item mem => notNew item.2 (leads.sent item mem).1]
      at notDeleted ⊢
    split
    · rfl
    · rename_i notReplaced
      rw [if_neg notReplaced] at notDeleted
      -- and so would the old owner of that range
      apply holds.noOwner
      intro s hold own
      have before := holds.owner s hold i own
      rcases leads.gone s hold with hs | deleted | ⟨item, mem, replaced, same⟩
      · exact notNew s hs own
      · exact notDeleted ⟨s.key, deleted, before⟩
      · exact notReplaced ⟨item, mem, replaced, by rw [before, same]⟩

end Leads

theorem Table.Holds.delta {t : Table κ ι} {old new : Section κ → Prop}
    (holds : t.Holds range old) {sections : List (Bool × Section κ)} {keys : List κ}
    (leads : Leads range t old new sections keys) :
    (t.program range (deltaLines sections keys)).Holds range new := by
  rw [program_delta]
  exact ⟨fun _ => leads.peers_new holds, fun _ => leads.peers_gone holds,
    fun _ hs _ => leads.owner_new holds hs, fun _ => leads.owner_gone holds⟩

theorem Table.holds_program (sections : List (Section κ))
    (apart : sections.Pairwise (Section.Apart range)) :
    (empty.program range (sections.flatMap Section.lines)).Holds range (· ∈ sections) := by
  have nothing : (empty : Table κ ι).Holds range fun _ => False :=
    ⟨fun _ h => h.elim, fun _ _ => rfl, fun _ h => h.elim, fun _ _ => rfl⟩
  have lines : sections.flatMap Section.lines = deltaLines (sections.map (false, ·)) [] := by
    simp [deltaLines, flatMap_map, Section.linesOf]
  rw [lines]
  refine nothing.delta ⟨pairwise_map.mpr apart, ?_, ?_, ?_, ?_, ?_⟩
  · intro s s' mem mem'
    by_cases same : s = s'
    · exact .inl same
    · exact .inr (apart.forall mem mem' same)
  · intro item mem
    obtain ⟨s, hs, rfl⟩ := mem_map.mp mem
    exact ⟨hs, s.update_default⟩
  · intro s mem unsent
    exact unsent false (mem_map_of_mem mem)
  · intro _ _ mem
    cases mem
  · intro _ h
    exact h.elim

end SingBox.Awg
