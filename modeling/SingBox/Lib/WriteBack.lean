import Mathlib.Algebra.Group.Int.Defs
import Mathlib.Data.List.Basic

/-!
# Counters in memory, written back to a table

Amounts are added to counters of 64 bits in memory and moved, from time to time, to the rows of a
table. A counter is set to zero when it is read, its row is written in a transaction, and the
transaction is committed. Either of the two may fail, and what was read is then lost.

An amount is in one of four places: in the counter, in the hand of the one who moves it, in the
transaction, or in the table. `balance` adds the four up for one counter.

* `balance_add` — adding to a counter adds to its balance, if the sum fits;
* `Move` — the steps by which what a counter holds comes to the transaction;
* `balance_move`, `balance_commit` — moving leaves every balance as it is, if a row with something
  in it is written, a transaction with rows is committed, and the sums fit.
-/

namespace SingBox.Lib.WriteBack

open Function List Option

variable {α κ ι : Type}

/-- In the range of 64 bits with a sign. -/
def Fits (n : Int) : Prop := -2 ^ 63 ≤ n ∧ n < 2 ^ 63

instance (n : Int) : Decidable (Fits n) := inferInstanceAs (Decidable (_ ∧ _))

/-- A sum of two counters that fits is exact. -/
theorem toInt_add {a b : Int64} (fits : Fits (a.toInt + b.toInt)) :
    (a + b).toInt = a.toInt + b.toInt := by
  rw [Int64.toInt_add]
  obtain ⟨low, high⟩ := fits
  exact Int.bmod_eq_of_le (by omega) (by omega)

/-- How the table adds to a column: exact, if the sum fits. -/
structure Sum where
  plus : Int → Int → Int
  plus_eq : ∀ a b, Fits (a + b) → plus a b = a + b

/-- A row of the table, or one to be written. -/
structure Row (κ ι : Type) where
  key : κ
  amounts : ι → Int

section Total

variable [DecidableEq α]

/-- The amount of the rows that belong to `k`. -/
def total (owner : κ → α) (k : α) (i : ι) : List (Row κ ι) → Int
  | [] => 0
  | row :: rest => (if owner row.key = k then row.amounts i else 0) + total owner k i rest

variable {owner : κ → α} {k : α} {i : ι}

/-- Rows whose owners agree under two names have the same amount under either. -/
theorem total_congr {β : Type} [DecidableEq β] {owner : κ → α} {owner' : κ → β} {k : α} {k' : β}
    {i : ι} {rows : List (Row κ ι)}
    (same : ∀ row ∈ rows, owner row.key = k ↔ owner' row.key = k') :
    total owner k i rows = total owner' k' i rows := by
  induction rows with
  | nil => rfl
  | cons row rest ih =>
    obtain ⟨here, later⟩ := forall_mem_cons.mp same
    simp only [total, here, ih later]

theorem total_cons (row : Row κ ι) (rows : List (Row κ ι)) :
    total owner k i (row :: rows) =
      (if owner row.key = k then row.amounts i else 0) + total owner k i rows := rfl

@[simp] theorem total_nil : total owner k i ([] : List (Row κ ι)) = 0 := rfl

@[simp] theorem total_append (first second : List (Row κ ι)) :
    total owner k i (first ++ second) = total owner k i first + total owner k i second := by
  induction first with
  | nil => simp
  | cons row rest ih =>
    rw [cons_append, total_cons, total_cons, ih, Int.add_assoc]

variable [DecidableEq κ] (sum : Sum)

/-- Writing a row: its amounts are added to those of the row with its key, if there is one. -/
def upsert (row : Row κ ι) : List (Row κ ι) → List (Row κ ι)
  | [] => [row]
  | old :: rest =>
      if old.key = row.key then ⟨old.key, fun i => sum.plus (old.amounts i) (row.amounts i)⟩ :: rest
      else old :: upsert row rest

/-- What a row is added to stays in the range. -/
def UpsertFits (row : Row κ ι) (table : List (Row κ ι)) : Prop :=
  ∀ old ∈ table, old.key = row.key → ∀ i, Fits (old.amounts i + row.amounts i)

variable {sum}

theorem total_upsert {row : Row κ ι} {rows : List (Row κ ι)} (fits : UpsertFits row rows) :
    total owner k i (upsert sum row rows) = total owner k i rows + total owner k i [row] := by
  induction rows with
  | nil => simp [upsert]
  | cons old rest ih =>
    obtain ⟨here, later⟩ := forall_mem_cons.mp fits
    rw [upsert]
    split
    case isTrue same =>
      rw [total_cons, total_cons, total_cons, total_nil, same]
      simp only [sum.plus_eq _ _ (here same i)]
      split <;> omega
    case isFalse =>
      rw [total_cons, total_cons, ih later, Int.add_assoc]

variable (sum) in
def upsertAll (rows table : List (Row κ ι)) : List (Row κ ι) :=
  rows.foldl (fun table row => upsert sum row table) table

variable (sum) in
/-- The same for rows that are written one after the other. -/
def UpsertAllFits : List (Row κ ι) → List (Row κ ι) → Prop
  | [], _ => True
  | row :: rest, table => UpsertFits row table ∧ UpsertAllFits rest (upsert sum row table)

theorem total_upsertAll {rows table : List (Row κ ι)} (fits : UpsertAllFits sum rows table) :
    total owner k i (upsertAll sum rows table) =
      total owner k i table + total owner k i rows := by
  induction rows generalizing table with
  | nil => simp [upsertAll]
  | cons row rest ih =>
    have first : upsertAll sum (row :: rest) table =
      upsertAll sum rest (upsert sum row table) := rfl
    rw [first, ih fits.2, total_upsert fits.1, total_cons row rest, total_cons row [], total_nil]
    omega

theorem upsert_keys {P : κ → Prop} {row : Row κ ι} {rows : List (Row κ ι)} (new : P row.key)
    (old : ∀ row ∈ rows, P row.key) : ∀ row' ∈ upsert sum row rows, P row'.key := by
  induction rows with
  | nil => exact forall_mem_singleton.mpr new
  | cons first rest ih =>
    obtain ⟨here, later⟩ := forall_mem_cons.mp old
    rw [upsert]
    split
    · exact forall_mem_cons.mpr ⟨here, later⟩
    · exact forall_mem_cons.mpr ⟨here, ih later⟩

theorem upsertAll_keys {P : κ → Prop} {rows table : List (Row κ ι)}
    (new : ∀ row ∈ rows, P row.key) (old : ∀ row ∈ table, P row.key) :
    ∀ row ∈ upsertAll sum rows table, P row.key := by
  induction rows generalizing table with
  | nil => exact old
  | cons row rest ih =>
    obtain ⟨here, later⟩ := forall_mem_cons.mp new
    exact ih later (upsert_keys here old)

end Total

/-- What has been read of the counters of `key`, and the counters still to be read. -/
structure Hand (α ι : Type) where
  key : α
  taken : ι → Int64
  left : List ι

/-- Counters by key, and what was moved out of them. -/
structure Ledger (α κ ι : Type) where
  keys : List α
  held : α → ι → Int64
  hand : Option (Hand α ι)
  tx : List (Row κ ι)
  table : List (Row κ ι)

namespace Ledger

/-- No counters, and a table that is there already. -/
def init (table : List (Row κ ι)) : Ledger α κ ι :=
  ⟨[], fun _ _ => 0, none, [], table⟩

/-- Adds to a counter, which is made if it is not there. -/
def add [DecidableEq α] [DecidableEq ι] (s : Ledger α κ ι) (k : α) (i : ι) (n : Int64) :
    Ledger α κ ι :=
  { s with
    keys := if k ∈ s.keys then s.keys else s.keys ++ [k]
    held := update s.held k (update (s.held k) i (s.held k i + n)) }

/-- Starts to move the counters of `k`, to be read in the order given. -/
def visit [DecidableEq α] (order : List ι) (k : α) (s : Ledger α κ ι) : Option (Ledger α κ ι) :=
  if s.hand.isNone ∧ k ∈ s.keys then
    some { s with hand := some ⟨k, fun _ => 0, order⟩ }
  else none

/-- Reads the next counter and sets it to zero. -/
def swap [DecidableEq α] [DecidableEq ι] (s : Ledger α κ ι) : Option (Ledger α κ ι) :=
  match s.hand with
  | some ⟨k, taken, i :: left⟩ =>
      some { s with
        held := update s.held k (update (s.held k) i 0)
        hand := some ⟨k, update taken i (s.held k i), left⟩ }
  | _ => none

/-- Writes the row of what has been read, unless all of it is zero. -/
def exec (order : List ι) (rowKey : α → κ) (ok : Bool) (s : Ledger α κ ι) :
    Option (Ledger α κ ι) :=
  match s.hand with
  | some ⟨k, taken, []⟩ =>
      if ∀ i ∈ order, taken i = 0 then some { s with hand := none }
      else if ok then
        some { s with hand := none, tx := s.tx ++ [⟨rowKey k, fun i => (taken i).toInt⟩] }
      else some { s with hand := none }
  | _ => none

def commit [DecidableEq κ] (sum : Sum) (ok : Bool) (s : Ledger α κ ι) : Ledger α κ ι :=
  { s with table := if ok then upsertAll sum s.tx s.table else s.table, tx := [] }

/-- A row that is not written has nothing in it. -/
def ExecKeeps (ok : Bool) (s : Ledger α κ ι) : Prop :=
  ok = true ∨ ∀ hand ∈ s.hand, ∀ i, hand.taken i = 0

/-- The rows of the transaction, if there are any, are committed, with sums that fit. -/
def CommitKeeps [DecidableEq κ] (sum : Sum) (ok : Bool) (s : Ledger α κ ι) : Prop :=
  s.tx = [] ∨ ok = true ∧ UpsertAllFits sum s.tx s.table

/-! ## What a move does -/

variable {order : List ι} {k : α} {s s' : Ledger α κ ι} {rowKey : α → κ} {ok : Bool} {P : κ → Prop}
  {sum : Sum}

theorem visit_eq_some [DecidableEq α] (h : visit order k s = some s') :
    s.hand = none ∧ k ∈ s.keys ∧ s' = { s with hand := some ⟨k, fun _ => 0, order⟩ } := by
  unfold visit at h
  split at h
  case isTrue free => exact ⟨isNone_iff_eq_none.mp free.1, free.2, (some.inj h).symm⟩
  case isFalse => cases h

theorem swap_eq_some [DecidableEq α] [DecidableEq ι] (h : swap s = some s') :
    ∃ k taken i left, s.hand = some ⟨k, taken, i :: left⟩ ∧ s' = { s with
      held := update s.held k (update (s.held k) i 0)
      hand := some ⟨k, update taken i (s.held k i), left⟩ } := by
  unfold swap at h
  split at h
  case h_1 k taken i left hand => exact ⟨k, taken, i, left, hand, (some.inj h).symm⟩
  case h_2 => cases h

/-- A row goes to the transaction, or nowhere if it is all zero or cannot be written. -/
theorem exec_eq_some (h : exec order rowKey ok s = some s') :
    ∃ k taken, s.hand = some ⟨k, taken, []⟩ ∧
      (((∀ i ∈ order, taken i = 0) ∨ ok = false) ∧ s' = { s with hand := none } ∨
        s' = { s with
          hand := none
          tx := s.tx ++ [⟨rowKey k, fun i => (taken i).toInt⟩] }) := by
  unfold exec at h
  split at h
  case h_1 k taken hand =>
    refine ⟨k, taken, hand, ?_⟩
    split at h
    case isTrue zero => exact .inl ⟨.inl zero, (some.inj h).symm⟩
    case isFalse =>
      split at h
      case isTrue => exact .inr (some.inj h).symm
      case isFalse failed => exact .inl ⟨.inr (by simpa using failed), (some.inj h).symm⟩
  case h_2 => cases h

/-- The counters of one key are moved, with `rowKey` for the key of the row, which is written if
`ok`. -/
inductive Move [DecidableEq α] [DecidableEq ι] (order : List ι) (rowKey : α → κ) (ok : Bool)
    (s s' : Ledger α κ ι) : Prop
  | visit {k : α} (h : visit order k s = some s')
  | swap (h : swap s = some s')
  | exec (h : exec order rowKey ok s = some s')

/-! ## The balance of a counter -/

/-- What is in the hand of the counter `i` of `k`. -/
def handed [DecidableEq α] (s : Ledger α κ ι) (k : α) (i : ι) : Int :=
  s.hand.elim 0 fun hand => if hand.key = k then (hand.taken i).toInt else 0

/-- What there is of the counter `i` of `k`, wherever it is now. -/
def balance [DecidableEq α] (owner : κ → α) (s : Ledger α κ ι) (k : α) (i : ι) : Int :=
  total owner k i s.table + total owner k i s.tx + s.handed k i + (s.held k i).toInt

/-- The hand belongs to a key that has counters, and has taken nothing from the counters that
are left. -/
structure Tidy (s : Ledger α κ ι) : Prop where
  key : ∀ hand, s.hand = some hand → hand.key ∈ s.keys
  zero : ∀ hand, s.hand = some hand → ∀ i ∈ hand.left, hand.taken i = 0
  nodup : ∀ hand, s.hand = some hand → hand.left.Nodup

theorem tidy_of_none (free : s.hand = none) : s.Tidy := by
  constructor <;> (intro hand h; rw [free] at h; cases h)

variable {owner : κ → α}

/-- What leaves the hand comes to the transaction: a row that is not written has nothing in it. -/
theorem balance_exec [DecidableEq α] (complete : ∀ i, i ∈ order)
    (named : ∀ k ∈ s.keys, owner (rowKey k) = k) (tidy : s.Tidy) (keeps : s.ExecKeeps ok)
    (h : exec order rowKey ok s = some s') (k' : α) (i : ι) :
    balance owner s' k' i = balance owner s k' i := by
  obtain ⟨k, taken, hand, cases⟩ := exec_eq_some h
  have own : owner (rowKey k) = k := named k (tidy.key _ hand)
  have before : s.handed k' i = if k = k' then (taken i).toInt else 0 := by simp [handed, hand]
  unfold balance
  rw [before]
  rcases cases with ⟨nothing, rfl⟩ | rfl
  · have zero : taken i = 0 := by
      rcases nothing with zero | failed
      · exact zero i (complete i)
      · exact (keeps.resolve_left (by simp [failed])) _ hand i
    simp [handed, zero]
  · simp [handed, total_cons, own]
    omega

theorem balance_commit [DecidableEq α] [DecidableEq κ] (keeps : s.CommitKeeps sum ok) (k : α)
    (i : ι) : balance owner (s.commit sum ok) k i = balance owner s k i := by
  have moved : total owner k i (s.commit sum ok).table =
      total owner k i s.table + total owner k i s.tx := by
    rcases keeps with empty | ⟨rfl, fits⟩
    · rw [commit, empty]
      cases ok <;> exact (Int.add_zero _).symm
    · exact total_upsertAll fits
  show total owner k i (s.commit sum ok).table + 0 + s.handed k i + (s.held k i).toInt = _
  unfold balance
  omega

/-- With nothing under way the amounts are in the table or in the counter. -/
theorem balance_idle [DecidableEq α] (owner : κ → α) (free : s.hand = none) (empty : s.tx = [])
    (k : α) (i : ι) :
    balance owner s k i = total owner k i s.table + (s.held k i).toInt := by
  simp [balance, handed, free, empty]

/-! ## The keys of the rows -/

/-- Every row, wherever it is, has a key with `P`. -/
structure Rows (P : κ → Prop) (s : Ledger α κ ι) : Prop where
  table : ∀ row ∈ s.table, P row.key
  tx : ∀ row ∈ s.tx, P row.key

theorem Rows.commit [DecidableEq κ] (rows : Rows P s) (ok : Bool) :
    Rows P (s.commit sum ok) := by
  cases ok with
  | true => exact ⟨upsertAll_keys rows.tx rows.table, nofun⟩
  | false => exact ⟨rows.table, nofun⟩

/-! ## Adding and moving -/

variable [DecidableEq α] [DecidableEq ι]

theorem mem_add_keys {k' : α} {i : ι} {n : Int64} :
    k' ∈ (s.add k i n).keys ↔ k' ∈ s.keys ∨ k' = k := by
  unfold add
  by_cases present : k ∈ s.keys
  · rw [if_pos present]
    exact ⟨.inl, fun h => h.elim id fun same => same ▸ present⟩
  · rw [if_neg present, mem_append, mem_singleton]

theorem add_held {n : Int64} {i : ι} (fits : Fits ((s.held k i).toInt + n.toInt)) (k' : α)
    (i' : ι) :
    ((s.add k i n).held k' i').toInt =
      (s.held k' i').toInt + if k = k' ∧ i = i' then n.toInt else 0 := by
  by_cases sameKey : k' = k
  · subst sameKey
    by_cases same : i' = i
    · subst same
      simp [add, toInt_add fits]
    · simp [add, update_of_ne same, Ne.symm same]
  · simp [add, update_of_ne sameKey, Ne.symm sameKey]

theorem Tidy.add (tidy : s.Tidy) (k : α) (i : ι) (n : Int64) :
    (s.add k i n).Tidy :=
  ⟨fun hand h => mem_add_keys.mpr (.inl (tidy.key hand h)), tidy.zero, tidy.nodup⟩

theorem Tidy.move (nodup : order.Nodup) (tidy : s.Tidy) (move : Move order rowKey ok s s') :
    s'.Tidy := by
  cases move with
  | visit h =>
    obtain ⟨-, mem, rfl⟩ := visit_eq_some h
    constructor <;> (intro hand taken; cases taken)
    · exact mem
    · exact fun _ _ => rfl
    · exact nodup
  | swap h =>
    obtain ⟨k, taken, i, left, hand, rfl⟩ := swap_eq_some h
    have nodup := nodup_cons.mp (tidy.nodup _ hand)
    constructor <;> (intro hand' next; cases next)
    · exact tidy.key ⟨k, taken, i :: left⟩ hand
    · intro j mem
      have other : j ≠ i := fun same => nodup.1 (same ▸ mem)
      show update taken i (s.held k i) j = 0
      rw [update_of_ne other]
      exact tidy.zero _ hand j (mem_cons_of_mem _ mem)
    · exact nodup.2
  | exec h =>
    obtain ⟨k, taken, -, ⟨-, rfl⟩ | rfl⟩ := exec_eq_some h <;> exact tidy_of_none rfl

theorem Move.keys_eq (move : Move order rowKey ok s s') :
    s'.keys = s.keys := by
  cases move with
  | visit h =>
    obtain ⟨-, -, rfl⟩ := visit_eq_some h
    rfl
  | swap h =>
    obtain ⟨_, _, _, _, -, rfl⟩ := swap_eq_some h
    rfl
  | exec h => obtain ⟨k, taken, -, ⟨-, rfl⟩ | rfl⟩ := exec_eq_some h <;> rfl

theorem balance_add {n : Int64} {i : ι} (fits : Fits ((s.held k i).toInt + n.toInt)) (k' : α)
    (i' : ι) :
    balance owner (s.add k i n) k' i' =
      balance owner s k' i' + if k = k' ∧ i = i' then n.toInt else 0 := by
  have moved := add_held fits k' i'
  show total owner k' i' s.table + total owner k' i' s.tx + s.handed k' i' +
    ((s.add k i n).held k' i').toInt = _
  unfold balance
  omega

theorem balance_swap (tidy : s.Tidy) (h : swap s = some s')
    (k' : α) (i' : ι) : balance owner s' k' i' = balance owner s k' i' := by
  obtain ⟨k, taken, i, left, hand, rfl⟩ := swap_eq_some h
  have zero : taken i = 0 := tidy.zero _ hand i mem_cons_self
  unfold balance handed
  rw [hand]
  by_cases sameKey : k = k'
  · subst sameKey
    by_cases same : i' = i
    · subst same
      simp [zero]
    · simp [update_of_ne same]
  · simp [sameKey, update_of_ne (Ne.symm sameKey)]

theorem balance_move (complete : ∀ i, i ∈ order)
    (named : ∀ k ∈ s.keys, owner (rowKey k) = k) (tidy : s.Tidy) (keeps : s.ExecKeeps ok)
    (move : Move order rowKey ok s s') (k : α) (i : ι) :
    balance owner s' k i = balance owner s k i := by
  cases move with
  | visit h =>
    obtain ⟨free, -, rfl⟩ := visit_eq_some h
    simp [balance, handed, free]
  | swap h => exact balance_swap tidy h k i
  | exec h => exact balance_exec complete named tidy keeps h k i

theorem Rows.add (rows : Rows P s) (k : α) (i : ι) (n : Int64) :
    Rows P (s.add k i n) :=
  { rows with }

theorem Rows.move (rows : Rows P s) (tidy : s.Tidy) (valid : ∀ k ∈ s.keys, P (rowKey k))
    (move : Move order rowKey ok s s') : Rows P s' := by
  cases move with
  | visit h =>
    obtain ⟨-, -, rfl⟩ := visit_eq_some h
    exact { rows with }
  | swap h =>
    obtain ⟨_, _, _, _, -, rfl⟩ := swap_eq_some h
    exact { rows with }
  | exec h =>
    obtain ⟨k, taken, hand, cases⟩ := exec_eq_some h
    rcases cases with ⟨-, rfl⟩ | rfl
    · exact { rows with }
    · have new := valid k (tidy.key _ hand)
      exact { rows with tx := forall_mem_append.mpr ⟨rows.tx, forall_mem_singleton.mpr new⟩ }

end Ledger

end SingBox.Lib.WriteBack
