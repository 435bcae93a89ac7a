import SingBox.Lib.Bytes
import SingBox.Lib.Except

/-!
# A transactional store of nested buckets

Buckets hold keys with values, and other buckets; a bucket is known by the names on the
way to it. A transaction is a list of operations that each may fail, and a transaction in
which one fails changes nothing.

* `Buckets` — what a store does, and what is in it then;
* `batch_eq_ok`, `batch_error` — what a transaction leaves, by how it ended;
* `createBucketIfNotExists_eq_ok`, `put_eq_ok` — when its operations succeed;
* `Tree` — a store of buckets.
-/

namespace SingBox.Lib.Bolt

open Function

inductive Error where
  | bucketNameRequired
  | bucketNotFound
  | keyRequired
  | keyTooLarge
  | failed (text : String)
  deriving DecidableEq, Repr

def maxKeySize : Nat := 32768

/-- A store of buckets: what is changed in it, what is found in it, and what is found after a
change. -/
class Buckets where
  State : Type
  empty : State
  hasBucket : State → List Bytes → Bool
  get : State → List Bytes → Bytes → Option Bytes
  ensure : (db : State) → (parent : List Bytes) → Bytes →
    (parent = [] ∨ hasBucket db parent = true) → State
  set : State → List Bytes → Bytes → Option Bytes → State
  remove : State → List Bytes → State
  hasBucket_empty : ∀ path, hasBucket empty path = false
  hasBucket_ensure : ∀ db path name there other,
    hasBucket (ensure db path name there) other =
      (decide (other = path ++ [name]) || hasBucket db other)
  get_ensure : ∀ db path name there other key,
    get (ensure db path name there) other key = get db other key
  hasBucket_set : ∀ db path key value other,
    hasBucket (set db path key value) other = hasBucket db other
  get_set : ∀ db path key value, hasBucket db path = true → ∀ other key',
    get (set db path key value) other key' =
      if other = path ∧ key' = key then value else get db other key'
  hasBucket_remove : ∀ db path other,
    hasBucket (remove db path) other = if path <+: other then false else hasBucket db other
  get_remove : ∀ db path other key,
    get (remove db path) other key = if path <+: other then none else get db other key
  get_of_not_hasBucket : ∀ db path key, hasBucket db path = false → get db path key = none
  /-- A bucket is in a bucket that is there. -/
  hasBucket_parent : ∀ db path name, hasBucket db (path ++ [name]) = true →
    path = [] ∨ hasBucket db path = true

section Store

variable [Buckets]

def DB : Type := Buckets.State

namespace DB

def empty : DB := Buckets.empty

/-- `Tx.Bucket`, `Bucket.Bucket`: whether the bucket is there. -/
def hasBucket : DB → List Bytes → Bool := Buckets.hasBucket

/-- `Bucket.Get`; nothing is in a bucket that is not there. -/
def get : DB → List Bytes → Bytes → Option Bytes := Buckets.get

/-- Buckets can be created at the top, and in buckets that are there. -/
def CanHold (db : DB) (parent : List Bytes) : Prop := parent = [] ∨ db.hasBucket parent = true

instance (db : DB) (parent : List Bytes) : Decidable (db.CanHold parent) :=
  inferInstanceAs (Decidable (_ ∨ _))

theorem canHold_top (db : DB) : db.CanHold [] := .inl rfl

/-- The store with a bucket, empty if it is new. -/
def ensure : (db : DB) → (parent : List Bytes) → Bytes → db.CanHold parent → DB := Buckets.ensure

/-- The store with a value, or none, under a key of a bucket. -/
def set : DB → List Bytes → Bytes → Option Bytes → DB := Buckets.set

/-- The store without a bucket and the ones in it. -/
def remove : DB → List Bytes → DB := Buckets.remove

variable (db : DB) (path other : List Bytes) (key key' : Bytes) (value : Option Bytes)

@[simp] theorem hasBucket_empty : empty.hasBucket path = false := Buckets.hasBucket_empty path

@[simp] theorem hasBucket_ensure (name : Bytes) (there : db.CanHold path) :
    (db.ensure path name there).hasBucket other =
      (decide (other = path ++ [name]) || db.hasBucket other) :=
  Buckets.hasBucket_ensure db path name there other

@[simp] theorem get_ensure (name : Bytes) (there : db.CanHold path) :
    (db.ensure path name there).get other key = db.get other key :=
  Buckets.get_ensure db path name there other key

@[simp] theorem hasBucket_set : (db.set path key value).hasBucket other = db.hasBucket other :=
  Buckets.hasBucket_set db path key value other

theorem get_set (there : db.hasBucket path = true) :
    (db.set path key value).get other key' =
      if other = path ∧ key' = key then value else db.get other key' :=
  Buckets.get_set db path key value there other key'

theorem hasBucket_remove :
    (db.remove path).hasBucket other = if path <+: other then false else db.hasBucket other :=
  Buckets.hasBucket_remove db path other

theorem get_remove :
    (db.remove path).get other key = if path <+: other then none else db.get other key :=
  Buckets.get_remove db path other key

theorem get_of_not_hasBucket (absent : db.hasBucket path = false) : db.get path key = none :=
  Buckets.get_of_not_hasBucket db path key absent

/-- Nothing is in a bucket inside one that is not there. -/
theorem get_nested {name : Bytes} (ne : path ≠ []) (absent : db.hasBucket path = false) :
    db.get (path ++ [name]) key = none := by
  refine db.get_of_not_hasBucket _ key (Bool.eq_false_iff.mpr fun there => ?_)
  rcases Buckets.hasBucket_parent db path name there with top | found
  · exact ne top
  · exact Bool.false_ne_true (absent.symm.trans found)

end DB

/-! ## Operations -/

def createBucketIfNotExists (parent : List Bytes) (name : Bytes) (db : DB) : Except Error DB :=
  if name = [] then .error .bucketNameRequired
  else if there : db.CanHold parent then .ok (db.ensure parent name there)
  else .error .bucketNotFound

def deleteBucket (parent : List Bytes) (name : Bytes) (db : DB) : Except Error DB :=
  if !db.hasBucket (parent ++ [name]) then .error .bucketNotFound
  else .ok (db.remove (parent ++ [name]))

def put (path : List Bytes) (key value : Bytes) (db : DB) : Except Error DB :=
  if key = [] then .error .keyRequired
  else if maxKeySize < key.length then .error .keyTooLarge
  else .ok (db.set path key (some value))

def delete (path : List Bytes) (key : Bytes) (db : DB) : Except Error DB :=
  .ok (db.set path key none)

/-- `DB.Batch`: an error rolls everything back. `refused` is an error of the store itself. -/
def batch (refused : Option Error) (tx : DB → Except Error DB) (db : DB) : DB × Option Error :=
  match refused with
  | some err => (db, some err)
  | none =>
      match tx db with
      | .error err => (db, some err)
      | .ok db' => (db', none)

variable {db db' : DB} {name : Bytes}

theorem batch_eq_ok {refused : Option Error} {tx : DB → Except Error DB} :
    batch refused tx db = (db', none) ↔ refused = none ∧ tx db = .ok db' := by
  unfold batch
  cases refused with
  | some err => simp
  | none => cases tx db <;> simp

theorem batch_error {refused : Option Error} {tx : DB → Except Error DB}
    (h : (batch refused tx db).2 ≠ none) : (batch refused tx db).1 = db := by
  unfold batch at h ⊢
  cases refused with
  | some err => rfl
  | none =>
    cases htx : tx db with
    | error err => rfl
    | ok db' => simp [htx] at h

theorem createBucketIfNotExists_eq_ok {parent : List Bytes} :
    createBucketIfNotExists parent name db = .ok db' ↔
      name ≠ [] ∧ ∃ there, db' = db.ensure parent name there := by
  unfold createBucketIfNotExists
  by_cases h : name = [] <;> by_cases there : db.CanHold parent <;> simp [h, there, eq_comm]

theorem createBucketIfNotExists_top (ne : name ≠ []) (db : DB) :
    createBucketIfNotExists [] name db = .ok (db.ensure [] name db.canHold_top) :=
  createBucketIfNotExists_eq_ok.mpr ⟨ne, _, rfl⟩

theorem put_eq_ok {path : List Bytes} {key value : Bytes} :
    put path key value db = .ok db' ↔
      key ≠ [] ∧ key.length ≤ maxKeySize ∧ db' = db.set path key (some value) := by
  unfold put
  by_cases h : key = [] <;> by_cases long : maxKeySize < key.length <;>
    simp [h, long, Nat.not_le.mpr, Nat.le_of_not_lt, eq_comm]

theorem deleteBucket_eq_ok {parent : List Bytes} :
    deleteBucket parent name db = .ok db' ↔
      db.hasBucket (parent ++ [name]) = true ∧ db' = db.remove (parent ++ [name]) := by
  unfold deleteBucket
  by_cases h : db.hasBucket (parent ++ [name]) = true <;> simp [h, eq_comm]

end Store

/-! ## A store -/

/-- The keys and values of each bucket that is there, by the names on the way to it. -/
structure Tree where
  contents : List Bytes → Option (Bytes → Option Bytes)
  /-- A bucket is in a bucket that is there. -/
  nested : ∀ parent name, contents (parent ++ [name]) ≠ none → parent = [] ∨ contents parent ≠ none

namespace Tree

def empty : Tree where
  contents _ := none
  nested _ _ there := absurd rfl there

variable (db : Tree)

def hasBucket (path : List Bytes) : Bool := (db.contents path).isSome

def get (path : List Bytes) (key : Bytes) : Option Bytes :=
  (db.contents path).bind fun entries => entries key

def ensure (parent : List Bytes) (name : Bytes) (there : parent = [] ∨ db.hasBucket parent = true) :
    Tree where
  contents := update db.contents (parent ++ [name])
    (some ((db.contents (parent ++ [name])).getD fun _ => none))
  nested := by
    intro parent' name' there'
    have still : parent' = [] ∨ db.contents parent' ≠ none := by
      by_cases same : parent' ++ [name'] = parent ++ [name]
      · rw [(List.append_inj' same rfl).1]
        exact there.imp_right Option.isSome_iff_ne_none.mp
      · rw [update_of_ne same] at there'
        exact db.nested parent' name' there'
    rcases still with top | found
    · exact .inl top
    · right
      by_cases same : parent' = parent ++ [name]
      · rw [same, update_self]
        nofun
      · rwa [update_of_ne same]

def set (path : List Bytes) (key : Bytes) (value : Option Bytes) : Tree where
  contents := update db.contents path
    ((db.contents path).map fun entries => update entries key value)
  nested := by
    have support : ∀ path', update db.contents path
        ((db.contents path).map fun entries => update entries key value) path' ≠ none ↔
          db.contents path' ≠ none := by
      intro path'
      by_cases same : path' = path
      · subst same
        simp
      · rw [update_of_ne same]
    intro parent name there
    rw [support] at there ⊢
    exact db.nested parent name there

def remove (path : List Bytes) : Tree where
  contents other := if path <+: other then none else db.contents other
  nested := by
    intro parent name there
    split at there
    · exact absurd rfl there
    · rename_i outside
      rcases db.nested parent name there with top | found
      · exact .inl top
      · right
        rwa [if_neg fun inside => outside (inside.trans (List.prefix_append parent [name]))]

theorem contents_ensure {path : List Bytes} {name : Bytes}
    (there : path = [] ∨ db.hasBucket path = true) (other : List Bytes) :
    (db.ensure path name there).contents other =
      if other = path ++ [name] then some ((db.contents (path ++ [name])).getD fun _ => none)
      else db.contents other := by
  unfold ensure
  by_cases h : other = path ++ [name] <;> simp [h]

theorem contents_set (path : List Bytes) (key : Bytes) (value : Option Bytes)
    (other : List Bytes) :
    (db.set path key value).contents other =
      if other = path then (db.contents path).map fun entries => update entries key value
      else db.contents other := by
  unfold set
  by_cases h : other = path <;> simp [h]

end Tree

instance : Buckets where
  State := Tree
  empty := .empty
  hasBucket := Tree.hasBucket
  get := Tree.get
  ensure := Tree.ensure
  set := Tree.set
  remove := Tree.remove
  hasBucket_empty _ := rfl
  hasBucket_ensure db path name there other := by
    unfold Tree.hasBucket
    rw [db.contents_ensure there]
    by_cases h : other = path ++ [name] <;> simp [h]
  get_ensure db path name there other key := by
    unfold Tree.get
    rw [db.contents_ensure there]
    by_cases h : other = path ++ [name]
    · subst h
      cases db.contents (path ++ [name]) <;> simp
    · simp [h]
  hasBucket_set db path key value other := by
    unfold Tree.hasBucket
    rw [db.contents_set]
    by_cases h : other = path <;> simp [h]
  get_set db path key value there other key' := by
    unfold Tree.get
    rw [db.contents_set]
    by_cases h : other = path
    · subst h
      obtain ⟨entries, hcontents⟩ := Option.isSome_iff_exists.mp there
      rw [hcontents]
      by_cases hkey : key' = key <;> simp [hkey]
    · simp [h]
  hasBucket_remove db path other := by
    unfold Tree.hasBucket Tree.remove
    by_cases h : path <+: other <;> simp [h]
  get_remove db path other key := by
    unfold Tree.get Tree.remove
    by_cases h : path <+: other <;> simp [h]
  get_of_not_hasBucket db path key absent := by
    have gone : db.contents path = none := by simpa [Tree.hasBucket] using absent
    rw [Tree.get, gone]
    rfl
  hasBucket_parent db path name there :=
    (db.nested path name (Option.isSome_iff_ne_none.mp there)).imp_right
      Option.isSome_iff_ne_none.mpr

end SingBox.Lib.Bolt
