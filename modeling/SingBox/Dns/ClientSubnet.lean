import SingBox.Dns.Message

/-!
# Client subnets in shared messages

`SetClientSubnet` gets a message that others keep, and writes through pointers: to the OPT
record it found or made, and to the client subnet in it. Here the records it can write to are
objects of a heap, and `setClientSubnet` is what the source does to them: search, append, copy
and search again, write. `Heap.Grows` says that what was there before is there unchanged.

* `setClientSubnet_read` — no object that was there before is written to, and the message it
  returns reads as `SetClientSubnet` says;
* `setClientSubnet_wellFormed_iff` — the result has one OPT record, with the subnet, if and only
  if the OPT record had a subnet already or was the last additional record.
-/

namespace SingBox.Dns

open Lib List

/-- `record.(*dns.OPT)`: the type of the data, not the one in the header. -/
def RR.isOptRecord (rr : RR) : Bool :=
  match rr.data with
  | .opt _ => true
  | _ => false

/-- The options of an OPT record. -/
def RR.options (rr : RR) : List EdnsOption :=
  match rr.data with
  | .opt options => options
  | _ => []

/-! ## Objects -/

structure SubnetOption where
  family : UInt16 := 0
  sourceNetmask : UInt8 := 0
  sourceScope : UInt8 := 0
  address : Addr := .invalid
  deriving DecidableEq, Repr

def SubnetOption.toOption (s : SubnetOption) : EdnsOption :=
  .subnet s.family s.sourceNetmask s.sourceScope s.address

/-- The assignments at the end of `setClientSubnet`. -/
def SubnetOption.assign (clientSubnet : Prefix) (s : SubnetOption) : SubnetOption :=
  { s with
    family := if clientSubnet.addr.is4 then 1 else 2
    sourceNetmask := UInt8.ofNat clientSubnet.bits.toNat
    address := clientSubnet.addr }

/-- An option of an OPT record. Options of the other types are never written to. -/
inductive OptionRef where
  | subnet (pointer : Nat)
  | other (option : EdnsOption) (h : option.isSubnet = false)
  deriving DecidableEq

/-- `option.(*dns.EDNS0_SUBNET)`. -/
def OptionRef.asSubnet : OptionRef → Option Nat
  | .subnet pointer => some pointer
  | .other .. => none

/-- A record of the additional section. -/
inductive RecordRef where
  | opt (pointer : Nat)
  | other (record : RR) (h : record.isOptRecord = false)
  deriving DecidableEq

/-- `record.(*dns.OPT)`. -/
def RecordRef.asOPT : RecordRef → Option Nat
  | .opt pointer => some pointer
  | .other .. => none

/-- Whether that assertion holds. -/
def RecordRef.isOPT (record : RecordRef) : Bool := record.asOPT.isSome

structure OptRecord where
  hdr : Header := ⟨"", 0, 0, 0⟩
  options : List OptionRef := []

/-- The objects that `setClientSubnet` can write to; a pointer is a position. -/
structure Heap where
  optRecords : List OptRecord := []
  subnets : List SubnetOption := []

/-- A message whose additional section holds pointers; `sections` is the rest of it. -/
structure MsgRef where
  sections : Msg
  extra : List RecordRef

namespace Heap

variable (heap : Heap)

def optRecord (pointer : Nat) : OptRecord := heap.optRecords.getD pointer {}

def subnet (pointer : Nat) : SubnetOption := heap.subnets.getD pointer {}

def readOption : OptionRef → EdnsOption
  | .subnet pointer => (heap.subnet pointer).toOption
  | .other option _ => option

def readRecord : RecordRef → RR
  | .opt pointer =>
      ⟨(heap.optRecord pointer).hdr, .opt ((heap.optRecord pointer).options.map heap.readOption)⟩
  | .other record _ => record

def newOPT (record : OptRecord) : Heap := { heap with optRecords := heap.optRecords ++ [record] }

def newSubnet (s : SubnetOption) : Heap := { heap with subnets := heap.subnets ++ [s] }

def modifyOPT (pointer : Nat) (f : OptRecord → OptRecord) : Heap :=
  { heap with optRecords := heap.optRecords.modify pointer f }

def modifySubnet (pointer : Nat) (f : SubnetOption → SubnetOption) : Heap :=
  { heap with subnets := heap.subnets.modify pointer f }

/-- The `copy` of each option, in order. -/
def copyOptions (heap : Heap) : List OptionRef → Heap × List OptionRef
  | [] => (heap, [])
  | .subnet pointer :: rest =>
      let copied := (heap.newSubnet (heap.subnet pointer)).copyOptions rest
      (copied.1, .subnet heap.subnets.length :: copied.2)
  | .other option h :: rest =>
      let copied := heap.copyOptions rest
      (copied.1, .other option h :: copied.2)

/-- The `copy` of each record, in order. -/
def copyRecords (heap : Heap) : List RecordRef → Heap × List RecordRef
  | [] => (heap, [])
  | .opt pointer :: rest =>
      let record := heap.optRecord pointer
      let options := heap.copyOptions record.options
      let copied := (options.1.newOPT ⟨record.hdr, options.2⟩).copyRecords rest
      (copied.1, .opt options.1.optRecords.length :: copied.2)
  | .other record h :: rest =>
      let copied := heap.copyRecords rest
      (copied.1, .other record h :: copied.2)

/-- `findExists`: the variables `optRecord` and `subnetOption` when the loop ends. A record that is
no OPT sets `optRecord` back to nil. -/
def findExists (optRecord : Option Nat) : List RecordRef → Option Nat × Option Nat
  | [] => (optRecord, none)
  | record :: rest =>
      match record.asOPT with
      | some pointer =>
          match (heap.optRecord pointer).options.findSome? OptionRef.asSubnet with
          | some subnetOption => (some pointer, some subnetOption)
          | none => findExists (some pointer) rest
      | none => findExists none rest

/-- The end of `setClientSubnet`: find or append the option, and assign. -/
def writeSubnet (optRecord : Nat) (subnetOption : Option Nat) (clientSubnet : Prefix) : Heap :=
  match subnetOption with
  | none =>
      let fresh := heap.subnets.length
      ((heap.newSubnet {}).modifyOPT optRecord fun record =>
        { record with options := record.options ++ [.subnet fresh] }).modifySubnet fresh
          (·.assign clientSubnet)
  | some pointer => heap.modifySubnet pointer (·.assign clientSubnet)

end Heap

namespace MsgRef

/-- What a reader of the message sees. -/
def read (heap : Heap) (message : MsgRef) : Msg :=
  { message.sections with extra := message.extra.map heap.readRecord }

def Copy (heap : Heap) (message : MsgRef) : Heap × MsgRef :=
  let copied := heap.copyRecords message.extra
  (copied.1, { message with extra := copied.2 })

end MsgRef

/-- The header of the record that is made if none was found. -/
def newOPTHeader : Header := ⟨".", typeOPT, 0, 0⟩

/-- The source appends in place; that changes nothing a reader of the shorter slice sees. -/
def setClientSubnet (heap : Heap) (message : MsgRef) (clientSubnet : Prefix) (clone : Bool) :
    Heap × MsgRef :=
  match heap.findExists none message.extra with
  | (none, subnetOption) =>
      let optRecord := heap.optRecords.length
      ((heap.newOPT ⟨newOPTHeader, []⟩).writeSubnet optRecord subnetOption clientSubnet,
        { message with extra := message.extra ++ [.opt optRecord] })
  | (some optRecord, subnetOption) =>
      if clone then
        let copied := message.Copy heap
        setClientSubnet copied.1 copied.2 clientSubnet false
      else
        (heap.writeSubnet optRecord subnetOption clientSubnet, message)
termination_by clone.toNat
decreasing_by simp_all

/-! ## What is there stays there -/

/-- Every object of the first heap is an object of the second, with the same content. -/
structure Heap.Grows (heap heap' : Heap) : Prop where
  optRecords : heap.optRecords <+: heap'.optRecords
  subnets : heap.subnets <+: heap'.subnets

def OptionRef.Live (heap : Heap) : OptionRef → Prop
  | .subnet pointer => pointer < heap.subnets.length
  | .other .. => True

/-- The pointers of a record are pointers to objects. -/
def RecordRef.Live (heap : Heap) : RecordRef → Prop
  | .opt pointer => pointer < heap.optRecords.length ∧
      ∀ option ∈ (heap.optRecord pointer).options, option.Live heap
  | .other .. => True

def MsgRef.Live (heap : Heap) (message : MsgRef) : Prop :=
  ∀ record ∈ message.extra, record.Live heap

variable {α : Type} {l : List α} {i : Nat} {d : α} {heap : Heap}
  {records before after : List RecordRef} {pointer : Nat} {hdr : Header} {subnetOption : Option Nat}
  {message : MsgRef} {optRecord : Nat}

theorem getD_eq_of_grown {l' : List α} (h : l <+: l') (short : i < l.length) :
    l'.getD i d = l.getD i d := by
  obtain ⟨rest, rfl⟩ := h
  rw [getD_eq_getElem?_getD, getElem?_append_left short, getD_eq_getElem?_getD]

variable (f : α → α)

theorem prefix_modify {l' : List α} (h : l <+: l') (long : l.length ≤ i) : l <+: l'.modify i f := by
  rw [prefix_iff_eq_take, take_modify, ← prefix_iff_eq_take.mp h, modify_eq_self long]

theorem modify_append_cons (before after : List α) (a : α) :
    (before ++ a :: after).modify before.length f = before ++ f a :: after := by
  induction before with
  | nil => rfl
  | cons b before ih => simpa using ih

/-- One item of a list is marked, and the others are around it. -/
structure OneMarked (p : α → Bool) (l before : List α) (a : α) (after : List α) : Prop where
  split : l = before ++ a :: after
  marked : p a = true
  before : ∀ b ∈ before, p b = false
  after : ∀ b ∈ after, p b = false

theorem OneMarked.map {β : Type} {p : α → Bool} {q : β → Bool} {before after : List α} {a : α}
    (one : OneMarked p l before a after) {f : α → β} (same : ∀ a, q (f a) = p a) :
    OneMarked q (l.map f) (before.map f) (f a) (after.map f) where
  split := by rw [one.split, map_append, map_cons]
  marked := (same a).trans one.marked
  before := forall_mem_map.mpr fun b mem => (same b).trans (one.before b mem)
  after := forall_mem_map.mpr fun b mem => (same b).trans (one.after b mem)

theorem Heap.readOption_of_grown {heap' : Heap} (h : heap.subnets <+: heap'.subnets)
    {option : OptionRef} (live : option.Live heap) :
    heap'.readOption option = heap.readOption option := by
  cases option with
  | subnet pointer => exact congrArg SubnetOption.toOption (getD_eq_of_grown h live)
  | other option _ => rfl

namespace Heap.Grows

variable {heap' heap'' : Heap}

theorem refl : heap.Grows heap := ⟨prefix_rfl, prefix_rfl⟩

variable (h : heap.Grows heap')
include h

theorem trans (h' : heap'.Grows heap'') : heap.Grows heap'' :=
  ⟨h.optRecords.trans h'.optRecords, h.subnets.trans h'.subnets⟩

theorem newOPT (record : OptRecord) : heap.Grows (heap'.newOPT record) :=
  ⟨h.optRecords.trans (prefix_append _ _), h.subnets⟩

theorem newSubnet (s : SubnetOption) : heap.Grows (heap'.newSubnet s) :=
  ⟨h.optRecords, h.subnets.trans (prefix_append _ _)⟩

theorem modifyOPT {pointer : Nat} (fresh : heap.optRecords.length ≤ pointer)
    (f : OptRecord → OptRecord) : heap.Grows (heap'.modifyOPT pointer f) :=
  ⟨prefix_modify f h.optRecords fresh, h.subnets⟩

theorem modifySubnet {pointer : Nat} (fresh : heap.subnets.length ≤ pointer)
    (f : SubnetOption → SubnetOption) : heap.Grows (heap'.modifySubnet pointer f) :=
  ⟨h.optRecords, prefix_modify f h.subnets fresh⟩

theorem readRecord {record : RecordRef} (live : record.Live heap) :
    heap'.readRecord record = heap.readRecord record := by
  cases record with
  | other record _ => rfl
  | opt pointer =>
    have same : heap'.optRecord pointer = heap.optRecord pointer :=
      getD_eq_of_grown h.optRecords live.1
    unfold Heap.readRecord
    simp only [same]
    rw [map_congr_left fun option mem => readOption_of_grown h.subnets (live.2 option mem)]

theorem read {message : MsgRef} (live : message.Live heap) :
    message.read heap' = message.read heap := by
  unfold MsgRef.read
  rw [map_congr_left fun record mem => h.readRecord (live record mem)]

/-- A write keeps the old objects if what it writes to is not among them. -/
theorem writeSubnet {optRecord : Nat} {subnetOption : Option Nat}
    (freshRecord : heap.optRecords.length ≤ optRecord)
    (freshOption : ∀ pointer, subnetOption = some pointer → heap.subnets.length ≤ pointer)
    (clientSubnet : Prefix) :
    heap.Grows (heap'.writeSubnet optRecord subnetOption clientSubnet) := by
  cases subnetOption with
  | none => exact ((h.newSubnet _).modifyOPT freshRecord _).modifySubnet h.subnets.length_le _
  | some pointer => exact h.modifySubnet (freshOption pointer rfl) _

end Heap.Grows

/-! ## Copies -/

/-- What a copy of options is: as the options were, and made of new objects only. -/
structure CopiedOptions (heap : Heap) (options : List OptionRef) (copied : Heap × List OptionRef) :
    Prop where
  grows : heap.Grows copied.1
  optRecords : copied.1.optRecords = heap.optRecords
  read : copied.2.map copied.1.readOption = options.map heap.readOption
  live : ∀ option ∈ copied.2, option.Live copied.1
  fresh : ∀ pointer ∈ copied.2.filterMap OptionRef.asSubnet, heap.subnets.length ≤ pointer
  nodup : (copied.2.filterMap OptionRef.asSubnet).Nodup

theorem Heap.copyOptions_spec (heap : Heap) (options : List OptionRef)
    (live : ∀ option ∈ options, option.Live heap) :
    CopiedOptions heap options (heap.copyOptions options) := by
  induction options generalizing heap with
  | nil =>
    exact ⟨.refl, rfl, rfl, by simp [copyOptions], by simp [copyOptions], by simp [copyOptions]⟩
  | cons option rest ih =>
    have liveRest : ∀ o ∈ rest, o.Live heap := (forall_mem_cons.mp live).2
    cases option with
    | other option h =>
      have tail := ih heap liveRest
      refine ⟨tail.grows, tail.optRecords, ?_, ?_, tail.fresh, tail.nodup⟩
      · exact congrArg (option :: ·) tail.read
      · exact forall_mem_cons.mpr ⟨trivial, tail.live⟩
    | subnet pointer =>
      -- the copy is the next free object, so the copies of the rest come after it
      have grown : heap.Grows (heap.newSubnet (heap.subnet pointer)) := Grows.refl.newSubnet _
      have longer : (heap.newSubnet (heap.subnet pointer)).subnets.length =
          heap.subnets.length + 1 := length_append
      have tail := ih (heap.newSubnet (heap.subnet pointer)) fun o mem => by
        cases o with
        | subnet p => exact Nat.lt_of_lt_of_le (liveRest _ mem) grown.subnets.length_le
        | other => trivial
      have there := tail.grows.subnets.length_le
      have later : ∀ p ∈ (copyOptions _ rest).2.filterMap OptionRef.asSubnet,
          heap.subnets.length + 1 ≤ p := fun p mem => longer ▸ tail.fresh p mem
      refine ⟨grown.trans tail.grows, tail.optRecords, ?_, ?_, ?_, ?_⟩
      · have head : (copyOptions (heap.newSubnet (heap.subnet pointer)) rest).1.subnet
            heap.subnets.length = heap.subnet pointer := by
          refine (getD_eq_of_grown tail.grows.subnets (by omega)).trans ?_
          simp [newSubnet]
        have same : rest.map (heap.newSubnet (heap.subnet pointer)).readOption =
            rest.map heap.readOption :=
          map_congr_left fun o mem => readOption_of_grown grown.subnets (liveRest o mem)
        rw [copyOptions, map_cons, tail.read, same]
        exact congrArg (· :: _) (congrArg SubnetOption.toOption head)
      · exact forall_mem_cons.mpr ⟨Nat.lt_of_lt_of_le (by omega) there, tail.live⟩
      · intro p mem
        rcases mem_cons.mp mem with rfl | mem
        · exact Nat.le_refl _
        · exact Nat.le_of_succ_le (later p mem)
      · refine nodup_cons.mpr ⟨fun mem => ?_, tail.nodup⟩
        exact Nat.not_succ_le_self _ (later _ mem)

theorem Heap.copyRecords_others (heap : Heap) (others : ∀ record ∈ records, record.isOPT = false) :
    heap.copyRecords records = (heap, records) := by
  induction records with
  | nil => rfl
  | cons record rest ih =>
    obtain ⟨head, tail⟩ := forall_mem_cons.mp others
    cases record with
    | opt pointer => cases head
    | other record h => rw [copyRecords, ih tail]

theorem Heap.copyRecords_one (heap : Heap)
    (one : OneMarked RecordRef.isOPT records before (.opt pointer) after) :
    let options := heap.copyOptions (heap.optRecord pointer).options
    heap.copyRecords records =
      (options.1.newOPT ⟨(heap.optRecord pointer).hdr, options.2⟩,
        before ++ .opt options.1.optRecords.length :: after) := by
  obtain ⟨rfl, -, othersBefore, othersAfter⟩ := one
  induction before with
  | nil =>
    rw [nil_append, copyRecords, copyRecords_others _ othersAfter]
    rfl
  | cons record rest ih =>
    obtain ⟨head, tail⟩ := forall_mem_cons.mp othersBefore
    cases record with
    | opt pointer => cases head
    | other record h =>
      rw [cons_append, copyRecords, ih tail]
      rfl

/-! ## The search -/

theorem Heap.findExists_others (heap : Heap) (others : ∀ record ∈ records, record.isOPT = false)
    (found : Option Nat) :
    heap.findExists found records = (if records = [] then found else none, none) := by
  induction records generalizing found with
  | nil => rfl
  | cons record rest ih =>
    obtain ⟨head, tail⟩ := forall_mem_cons.mp others
    cases record with
    | opt pointer => cases head
    | other record h =>
      rw [findExists, RecordRef.asOPT, ih tail]
      simp

/-- The search in a section with one OPT record: what comes after the record makes the search
forget it, unless there is a client subnet in it. -/
theorem Heap.findExists_one (heap : Heap)
    (one : OneMarked RecordRef.isOPT records before (.opt pointer) after) (found : Option Nat) :
    heap.findExists found records =
      ((heap.optRecord pointer).options.findSome? OptionRef.asSubnet).elim
        (if after = [] then some pointer else none, none) (fun s => (some pointer, some s)) := by
  obtain ⟨rfl, -, othersBefore, othersAfter⟩ := one
  induction before generalizing found with
  | nil =>
    rw [nil_append, findExists, RecordRef.asOPT]
    simp only [heap.findExists_others othersAfter]
    cases (heap.optRecord pointer).options.findSome? OptionRef.asSubnet <;> rfl
  | cons record rest ih =>
    obtain ⟨head, tail⟩ := forall_mem_cons.mp othersBefore
    cases record with
    | opt pointer => cases head
    | other record h => exact ih none tail

theorem findExists_others {records : List RR} (others : ∀ rr ∈ records, rr.isOptRecord = false)
    (index : Nat) (found : Option Nat) :
    findExists index found records = (if records = [] then found else none, none) := by
  induction records generalizing index found with
  | nil => rfl
  | cons rr rest ih =>
    obtain ⟨head, tail⟩ := forall_mem_cons.mp others
    obtain ⟨hdr, data⟩ := rr
    cases data with
    | opt options => cases head
    | _ => simp [findExists, ih tail]

theorem findExists_one {records before after : List RR} {options : List EdnsOption}
    (one : OneMarked RR.isOptRecord records before ⟨hdr, .opt options⟩ after) (index : Nat)
    (found : Option Nat) :
    findExists index found records =
      (options.findIdx? EdnsOption.isSubnet).elim
        (if after = [] then some (index + before.length) else none, none)
        (fun option => (some (index + before.length), some option)) := by
  obtain ⟨rfl, -, othersBefore, othersAfter⟩ := one
  induction before generalizing index found with
  | nil =>
    rw [nil_append, findExists]
    simp only [findExists_others othersAfter]
    cases options.findIdx? EdnsOption.isSubnet <;> rfl
  | cons rr rest ih =>
    obtain ⟨head, tail⟩ := forall_mem_cons.mp othersBefore
    obtain ⟨hdr', data⟩ := rr
    have shift : index + 1 + rest.length = index + (rest.length + 1) := by omega
    cases data with
    | opt options => cases head
    | _ => simp only [cons_append, findExists, ih _ _ tail, shift, length_cons]

/-! ## Messages with at most one OPT record -/

/-- The new option of a record that had none. -/
def newSubnetOption (clientSubnet : Prefix) : EdnsOption :=
  (SubnetOption.assign clientSubnet {}).toOption

theorem SetClientSubnet_append {message : Msg}
    (notFound : findExists 0 none message.extra = (none, subnetOption)) (clientSubnet : Prefix) :
    SetClientSubnet message clientSubnet =
      { message with
        extra := message.extra ++ [⟨newOPTHeader, .opt [newSubnetOption clientSubnet]⟩] } := by
  unfold SetClientSubnet
  rw [notFound]
  rfl

theorem SetClientSubnet_extend {message : Msg} {before after : List RR}
    {options : List EdnsOption} (extra : message.extra = before ++ ⟨hdr, .opt options⟩ :: after)
    (found : findExists 0 none message.extra = (some before.length, none)) (clientSubnet : Prefix) :
    SetClientSubnet message clientSubnet =
      { message with
        extra := before ++ ⟨hdr, .opt (options ++ [newSubnetOption clientSubnet])⟩ :: after } := by
  unfold SetClientSubnet
  rw [found]
  simp only [extra, modify_append_cons]
  rfl

theorem SetClientSubnet_replace {message : Msg} {before after : List RR}
    {first last : List EdnsOption} {option : EdnsOption}
    (extra : message.extra = before ++ ⟨hdr, .opt (first ++ option :: last)⟩ :: after)
    (found : findExists 0 none message.extra = (some before.length, some first.length))
    (clientSubnet : Prefix) :
    SetClientSubnet message clientSubnet =
      { message with
        extra := before ++
          ⟨hdr, .opt (first ++ option.setSubnet clientSubnet :: last)⟩ :: after } := by
  unfold SetClientSubnet
  rw [found]
  simp only [extra, modify_append_cons, RR.modifyOptions]

theorem getD_modify_self (short : i < l.length) : (l.modify i f).getD i d = f (l.getD i d) := by
  simp [getD_eq_getElem?_getD, short]

theorem getD_modify_ne {j : Nat} (ne : i ≠ j) : (l.modify i f).getD j d = l.getD j d := by
  simp [getD_eq_getElem?_getD, ne]

theorem Heap.readRecord_writeSubnet_none (heap : Heap) (pointer : Nat)
    (live : (RecordRef.opt pointer).Live heap) (clientSubnet : Prefix) :
    (heap.writeSubnet pointer none clientSubnet).readRecord (.opt pointer) =
      ⟨(heap.optRecord pointer).hdr, .opt ((heap.optRecord pointer).options.map heap.readOption ++
          [newSubnetOption clientSubnet])⟩ := by
  have record : (heap.writeSubnet pointer none clientSubnet).optRecord pointer =
      { heap.optRecord pointer with
        options := (heap.optRecord pointer).options ++ [.subnet heap.subnets.length] } :=
    getD_modify_self _ live.1
  have grown : heap.subnets <+: (heap.writeSubnet pointer none clientSubnet).subnets :=
    prefix_modify _ (prefix_append _ _) (Nat.le_refl _)
  have fresh : (heap.writeSubnet pointer none clientSubnet).subnet heap.subnets.length =
      SubnetOption.assign clientSubnet {} := by
    refine (getD_modify_self _ (by simp [newSubnet, modifyOPT])).trans ?_
    simp [newSubnet, modifyOPT]
  unfold readRecord
  simp only [record, map_append, map_cons, map_nil]
  rw [map_congr_left fun option mem => readOption_of_grown grown (live.2 option mem)]
  exact congrArg (fun s => RR.mk _ (.opt (_ ++ [SubnetOption.toOption s]))) fresh

theorem Heap.readOption_modifySubnet_ne {option : OptionRef} (ne : option.asSubnet ≠ some pointer)
    (f : SubnetOption → SubnetOption) :
    (heap.modifySubnet pointer f).readOption option = heap.readOption option := by
  cases option with
  | other option _ => rfl
  | subnet q =>
    refine congrArg SubnetOption.toOption (getD_modify_ne f fun same => ne ?_)
    rw [same]
    rfl

/-- The record after its first client subnet was written, if no other option is the same object. -/
theorem Heap.readRecord_writeSubnet_some {s : Nat} {first last : List OptionRef}
    (options : (heap.optRecord pointer).options = first ++ .subnet s :: last)
    (nodup : ((heap.optRecord pointer).options.filterMap OptionRef.asSubnet).Nodup)
    (live : s < heap.subnets.length) (clientSubnet : Prefix) :
    (heap.writeSubnet pointer (some s) clientSubnet).readRecord (.opt pointer) =
      ⟨(heap.optRecord pointer).hdr, .opt (first.map heap.readOption ++
          (heap.readOption (.subnet s)).setSubnet clientSubnet ::
            last.map heap.readOption)⟩ := by
  rw [options, filterMap_append] at nodup
  have disjoint := nodup_append.mp nodup
  have notFirst : ∀ option ∈ first, option.asSubnet ≠ some s := fun option mem eq =>
    disjoint.2.2 s (mem_filterMap.mpr ⟨option, mem, eq⟩) s mem_cons_self rfl
  have notLast : ∀ option ∈ last, option.asSubnet ≠ some s := fun option mem eq =>
    (nodup_cons.mp disjoint.2.1).1 (mem_filterMap.mpr ⟨option, mem, eq⟩)
  have written : (heap.modifySubnet s (·.assign clientSubnet)).readOption (.subnet s) =
      (heap.readOption (.subnet s)).setSubnet clientSubnet :=
    congrArg SubnetOption.toOption (getD_modify_self _ live)
  have record : (heap.writeSubnet pointer (some s) clientSubnet).optRecord pointer =
      heap.optRecord pointer := rfl
  unfold readRecord
  simp only [record, options, map_append, map_cons]
  unfold writeSubnet
  rw [written, map_congr_left fun o mem => readOption_modifySubnet_ne (notFirst o mem) _,
    map_congr_left fun o mem => readOption_modifySubnet_ne (notLast o mem) _]

theorem Heap.isSubnet_readOption (heap : Heap) (option : OptionRef) :
    (heap.readOption option).isSubnet = option.asSubnet.isSome := by
  cases option with
  | subnet pointer => rfl
  | other option h => exact h

theorem Heap.isOptRecord_readRecord (heap : Heap) (record : RecordRef) :
    (heap.readRecord record).isOptRecord = record.isOPT := by
  cases record with
  | opt pointer => rfl
  | other record h => exact h

theorem findIdx?_readOption (heap : Heap) {options : List OptionRef} :
    (options.map heap.readOption).findIdx? EdnsOption.isSubnet = none ↔
      options.findSome? OptionRef.asSubnet = none := by
  rw [findIdx?_eq_none_iff, forall_mem_map, findSome?_eq_none_iff]
  simp [heap.isSubnet_readOption]

theorem findIdx?_append_cons {first last : List EdnsOption} {option : EdnsOption}
    (absent : ∀ o ∈ first, (!o.isSubnet) = true) (isSubnet : option.isSubnet) :
    (first ++ option :: last).findIdx? EdnsOption.isSubnet = some first.length := by
  have none : first.findIdx? EdnsOption.isSubnet = none :=
    findIdx?_eq_none_iff.mpr fun o mem => by simpa using absent o mem
  rw [findIdx?_append, none, findIdx?_cons, isSubnet]
  simp

theorem findIdx?_readOption_append (heap : Heap) {first last : List OptionRef}
    (absent : ∀ option ∈ first, option.asSubnet = none) :
    ((first ++ .subnet pointer :: last).map heap.readOption).findIdx? EdnsOption.isSubnet =
      some first.length := by
  have before : ∀ option ∈ first.map heap.readOption, (!option.isSubnet) = true :=
    forall_mem_map.mpr fun ref mem => by rw [heap.isSubnet_readOption, absent ref mem]; rfl
  rw [map_append, map_cons, findIdx?_append_cons before rfl, length_map]

/-- Among the items, none is marked, or one is and the others are around it. -/
theorem filter_le_one_cases {p : α → Bool} (h : (l.filter p).length ≤ 1) :
    (∀ a ∈ l, p a = false) ∨ ∃ before a after, OneMarked p l before a after := by
  have unmarked {l : List α} (none : l.filter p = []) : ∀ a ∈ l, p a = false := fun a mem =>
    Bool.eq_false_iff.mpr (filter_eq_nil_iff.mp none a mem)
  cases marked : l.filter p with
  | nil => exact .inl (unmarked marked)
  | cons a rest =>
    obtain rfl : rest = [] := by simpa [marked] using h
    obtain ⟨before, after, split, others, isMarked, none⟩ := filter_eq_cons_iff.mp marked
    exact .inr ⟨before, a, after, split, isMarked, unmarked (filter_eq_nil_iff.mpr others),
      unmarked none⟩

theorem Heap.extra_cases {extra : List RecordRef}
    (few : ((extra.map heap.readRecord).filter RR.isOptRecord).length ≤ 1) :
    (∀ record ∈ extra, record.isOPT = false) ∨
      ∃ before pointer after, OneMarked RecordRef.isOPT extra before (.opt pointer) after := by
  rw [filter_map, length_map, funext (f := RR.isOptRecord ∘ heap.readRecord)
    heap.isOptRecord_readRecord] at few
  rcases filter_le_one_cases few with none | ⟨before, record, after, one⟩
  · exact .inl none
  · cases record with
    | other record h => cases one.marked
    | opt pointer => exact .inr ⟨before, pointer, after, one⟩

theorem Heap.readRecord_others (heap heap' : Heap)
    (others : ∀ record ∈ records, record.isOPT = false) :
    records.map heap'.readRecord = records.map heap.readRecord := by
  apply map_congr_left
  intro record mem
  cases record with
  | opt pointer => cases others _ mem
  | other record h => rfl

/-- What `setClientSubnet` does to a heap and a message. -/
structure SubnetWritten (heap : Heap) (message : MsgRef) (clientSubnet : Prefix)
    (after : Heap × MsgRef) : Prop where
  grows : heap.Grows after.1
  read : after.2.read after.1 = SetClientSubnet (message.read heap) clientSubnet

/-- The branch without a record: the new one is appended to a copy of the message. -/
theorem setClientSubnet_append (live : message.Live heap)
    (notFound : heap.findExists none message.extra = (none, none))
    (notRead : findExists 0 none (message.read heap).extra = (none, none)) (clientSubnet : Prefix)
    (clone : Bool) :
    SubnetWritten heap message clientSubnet
      (setClientSubnet heap message clientSubnet clone) := by
  have made : (heap.newOPT ⟨newOPTHeader, []⟩).optRecord heap.optRecords.length =
      ⟨newOPTHeader, []⟩ := by
    simp [Heap.optRecord, Heap.newOPT]
  have grown : heap.Grows ((heap.newOPT ⟨newOPTHeader, []⟩).writeSubnet heap.optRecords.length none
      clientSubnet) := (Heap.Grows.refl.newOPT _).writeSubnet (Nat.le_refl _)
        (fun _ none => by cases none) _
  have record := (heap.newOPT ⟨newOPTHeader, []⟩).readRecord_writeSubnet_none
    heap.optRecords.length ⟨by simp [Heap.newOPT], by rw [made]; nofun⟩ clientSubnet
  rw [setClientSubnet, notFound]
  refine ⟨grown, ?_⟩
  rw [SetClientSubnet_append notRead]
  unfold MsgRef.read
  rw [map_append, map_cons, record, made]
  rw [map_congr_left fun r mem => grown.readRecord (live r mem)]
  rfl

/-- What the copy of an OPT record is: a new record that reads as the old one did. -/
structure CopiedRecord (heap : Heap) (pointer : Nat) (heap' : Heap) (pointer' : Nat) : Prop where
  grows : heap.Grows heap'
  fresh : heap.optRecords.length ≤ pointer'
  live : (RecordRef.opt pointer').Live heap'
  read : heap'.readRecord (.opt pointer') = heap.readRecord (.opt pointer)
  freshOptions : ∀ s ∈ (heap'.optRecord pointer').options.filterMap OptionRef.asSubnet,
    heap.subnets.length ≤ s
  nodup : ((heap'.optRecord pointer').options.filterMap OptionRef.asSubnet).Nodup

theorem MsgRef.Copy_one (live : message.Live heap)
    (one : OneMarked RecordRef.isOPT message.extra before (.opt pointer) after) :
    ∃ heap' pointer', CopiedRecord heap pointer heap' pointer' ∧
      message.Copy heap = (heap', { message with extra := before ++ .opt pointer' :: after }) := by
  have liveRecord : (RecordRef.opt pointer).Live heap := live _ (by simp [one.split])
  have copied := heap.copyOptions_spec _ liveRecord.2
  have records := heap.copyRecords_one one
  generalize heap.copyOptions (heap.optRecord pointer).options = options at copied records
  obtain ⟨heap₁, refs⟩ := options
  generalize hdr : (heap.optRecord pointer).hdr = header at records
  have made : (heap₁.newOPT ⟨header, refs⟩).optRecord heap₁.optRecords.length =
      ⟨header, refs⟩ := by
    simp [Heap.optRecord, Heap.newOPT]
  refine ⟨heap₁.newOPT ⟨header, refs⟩, heap₁.optRecords.length, ?_, ?_⟩
  · refine ⟨copied.grows.newOPT _, copied.grows.optRecords.length_le, ?_, ?_, ?_, ?_⟩
    · refine ⟨by simp [Heap.newOPT], ?_⟩
      rw [made]
      intro option mem
      have there := copied.live option mem
      cases option <;> exact there
    · have same : refs.map (heap₁.newOPT ⟨header, refs⟩).readOption = refs.map heap₁.readOption :=
        map_congr_left fun o _ => by cases o <;> rfl
      unfold Heap.readRecord
      simp only [made, same, hdr]
      rw [copied.read]
    · rw [made]
      exact copied.fresh
    · rw [made]
      exact copied.nodup
  · unfold MsgRef.Copy
    rw [records]

/-- The branch that writes to the record it found, when no two options are one object. -/
theorem writeSubnet_read (message : MsgRef) (live : (RecordRef.opt pointer).Live heap)
    (nodup : ((heap.optRecord pointer).options.filterMap OptionRef.asSubnet).Nodup)
    (one : OneMarked RecordRef.isOPT message.extra before (.opt pointer) after)
    (found : heap.findExists none message.extra = (some optRecord, subnetOption))
    (clientSubnet : Prefix) :
    optRecord = pointer ∧
      (∀ s, subnetOption = some s →
        s ∈ (heap.optRecord pointer).options.filterMap OptionRef.asSubnet) ∧
      message.read (heap.writeSubnet optRecord subnetOption clientSubnet) =
        SetClientSubnet (message.read heap) clientSubnet := by
  have oneRead : OneMarked RR.isOptRecord (message.read heap).extra _ ⟨_, .opt _⟩ _ :=
    one.map heap.isOptRecord_readRecord
  have searchRead := findExists_one oneRead 0 none
  have read : ∀ heap' : Heap, message.read heap' = { message.sections with
      extra := before.map heap.readRecord ++ heap'.readRecord (.opt pointer) ::
        after.map heap.readRecord } := by
    intro heap'
    unfold MsgRef.read
    rw [one.split, map_append, map_cons, heap.readRecord_others heap' one.before,
      heap.readRecord_others heap' one.after]
  rw [heap.findExists_one one] at found
  cases search : (heap.optRecord pointer).options.findSome? OptionRef.asSubnet with
  | none =>
    rw [search] at found
    rw [(findIdx?_readOption heap).mpr search] at searchRead
    cases after with
    | cons record rest => cases found
    | nil =>
      cases found
      refine ⟨rfl, nofun, ?_⟩
      rw [read, Heap.readRecord_writeSubnet_none heap pointer live clientSubnet]
      rw [SetClientSubnet_extend oneRead.split (by simpa using searchRead)]
      rfl
  | some s =>
    rw [search] at found
    cases found
    obtain ⟨first, option, last, options, isSubnet, absent⟩ :=
      findSome?_eq_some_iff.mp search
    cases option with
    | other option h => cases isSubnet
    | subnet s =>
      cases isSubnet
      refine ⟨rfl, ?_, ?_⟩
      · rintro _ ⟨⟩
        exact mem_filterMap.mpr ⟨.subnet s, by simp [options], rfl⟩
      have liveOption : s < heap.subnets.length := live.2 (.subnet s) (by simp [options])
      rw [read, Heap.readRecord_writeSubnet_some options nodup liveOption clientSubnet]
      rw [options, findIdx?_readOption_append heap absent] at searchRead
      rw [options, map_append] at oneRead
      rw [SetClientSubnet_replace oneRead.split (by simpa using searchRead)]
      rfl

/-- The branch with a record: its copy is written to. -/
theorem setClientSubnet_copy (live : message.Live heap)
    (one : OneMarked RecordRef.isOPT message.extra before (.opt pointer) after)
    (found : heap.findExists none message.extra = (some optRecord, subnetOption))
    (clientSubnet : Prefix) :
    SubnetWritten heap message clientSubnet (setClientSubnet heap message clientSubnet true) := by
  obtain ⟨heap', pointer', copied, eq⟩ := MsgRef.Copy_one live one
  have oneCopy : OneMarked RecordRef.isOPT (before ++ .opt pointer' :: after) before (.opt pointer')
    after := ⟨rfl, rfl, one.before, one.after⟩
  have sameRead : MsgRef.read heap' { message with extra := before ++ .opt pointer' :: after } =
      message.read heap := by
    unfold MsgRef.read
    rw [one.split, map_append, map_append, map_cons, map_cons, copied.read,
      heap.readRecord_others heap' one.before, heap.readRecord_others heap' one.after]
  -- the search in the copy finds the record as well
  have foundCopy : ∃ optRecord' subnetOption', heap'.findExists none
      (before ++ .opt pointer' :: after) = (some optRecord', subnetOption') := by
    rw [heap.findExists_one one] at found
    rw [heap'.findExists_one oneCopy]
    cases search' : (heap'.optRecord pointer').options.findSome? OptionRef.asSubnet with
    | some s => exact ⟨_, _, rfl⟩
    | none =>
      have options : (heap'.optRecord pointer').options.map heap'.readOption =
          (heap.optRecord pointer).options.map heap.readOption :=
        RData.opt.inj (congrArg RR.data copied.read)
      rw [← findIdx?_readOption heap', options, findIdx?_readOption] at search'
      rw [search'] at found
      cases after with
      | nil => exact ⟨_, _, rfl⟩
      | cons record rest => cases found
  obtain ⟨optRecord', subnetOption', foundCopy⟩ := foundCopy
  rw [setClientSubnet, found]
  simp only [if_true, eq]
  rw [setClientSubnet, foundCopy]
  obtain ⟨rfl, inRecord, read⟩ :=
    writeSubnet_read { message with extra := before ++ .opt pointer' :: after } copied.live
      copied.nodup oneCopy foundCopy clientSubnet
  refine ⟨copied.grows.writeSubnet copied.fresh (fun s isSome => ?_) clientSubnet, ?_⟩
  · exact copied.freshOptions s (inRecord s isSome)
  · rw [← sameRead]
    exact read

/-- **The pointers and the values.** No object that was there is written to, and the message that is
returned reads as the model on values has it. -/
theorem setClientSubnet_read (live : message.Live heap)
    (few : ((message.read heap).extra.filter RR.isOptRecord).length ≤ 1) (clientSubnet : Prefix) :
    SubnetWritten heap message clientSubnet
      (setClientSubnet heap message clientSubnet true) := by
  rcases heap.extra_cases few with others | ⟨before, pointer, after, one⟩
  · refine setClientSubnet_append live ?_ ?_ clientSubnet true
    · rw [heap.findExists_others others]
      split <;> rfl
    · refine (findExists_others (forall_mem_map.mpr fun record mem => ?_) 0 none).trans ?_
      · exact (heap.isOptRecord_readRecord record).trans (others record mem)
      · split <;> rfl
  · cases found : heap.findExists none message.extra with
    | mk optRecord subnetOption =>
      cases optRecord with
      | some optRecord => exact setClientSubnet_copy live one found clientSubnet
      | none =>
        -- forgotten: no client subnet in it, and something behind it
        have searchRead := findExists_one (one.map heap.isOptRecord_readRecord) 0 none
        have search := found
        rw [heap.findExists_one one] at search
        cases absent : (heap.optRecord pointer).options.findSome? OptionRef.asSubnet with
        | some s =>
          rw [absent] at search
          cases search
        | none =>
          rw [absent] at search
          rw [(findIdx?_readOption heap).mpr absent] at searchRead
          cases after with
          | nil => cases search
          | cons record rest =>
            cases search
            exact setClientSubnet_append live found searchRead clientSubnet true

/-! ## Well-formed messages -/

def Msg.optRecords (m : Msg) : List RR := m.extra.filter RR.isOptRecord

def Msg.ednsOptions (m : Msg) : List EdnsOption := m.extra.flatMap RR.options

/-- The prefix that the family, the netmask and the address of a client subnet stand for. -/
def EdnsOption.toPrefix : EdnsOption → Option Prefix
  | .subnet family sourceNetmask _ (.v4 ip) =>
      if h : family = 1 ∧ sourceNetmask.toNat < 33 then some (.v4 ip ⟨sourceNetmask.toNat, h.2⟩)
      else none
  | .subnet family sourceNetmask _ (.v6 ip []) =>
      if h : family = 2 ∧ sourceNetmask.toNat < 129 then some (.v6 ip ⟨sourceNetmask.toNat, h.2⟩)
      else none
  | _ => none

theorem toPrefix_setSubnet {clientSubnet : Prefix} (valid : clientSubnet.isValid)
    (option : EdnsOption) : (option.setSubnet clientSubnet).toPrefix = some clientSubnet := by
  cases clientSubnet with
  | invalid => cases valid
  | v4 ip bits | v6 ip bits =>
    have fits : bits.val % 256 = bits.val := Nat.mod_eq_of_lt (by omega)
    simp [EdnsOption.setSubnet, EdnsOption.toPrefix, Prefix.addr, Prefix.bits, Addr.is4, fits]

/-- The message `m'` is `m` with the client subnet: it has one OPT record, the one of `m` if there
was one, and nothing else of it has changed. -/
structure SubnetSet (clientSubnet : Prefix) (m m' : Msg) : Prop where
  sections : { m' with extra := [] } = { m with extra := [] }
  others : m'.extra.filter (!·.isOptRecord) = m.extra.filter (!·.isOptRecord)
  one : ∃ rr, m'.optRecords = [rr] ∧ ∀ rr' ∈ m.optRecords, rr'.hdr = rr.hdr
  otherOptions : m'.ednsOptions.filter (!·.isSubnet) = m.ednsOptions.filter (!·.isSubnet)
  subnet : (m.ednsOptions.filter EdnsOption.isSubnet).length ≤ 1 →
    ∃ option, m'.ednsOptions.filter EdnsOption.isSubnet = [option] ∧
      option.toPrefix = some clientSubnet

/-- If there is an OPT record, it has a client subnet or is the last additional record. -/
def SubnetOrLast (m : Msg) : Prop :=
  m.optRecords = [] ∨ (∃ option ∈ m.ednsOptions, option.isSubnet) ∨
    ∃ rr ∈ m.extra.getLast?, rr.isOptRecord

section WellFormed

variable {m : Msg} {before after : List RR} {hdr : Header} {options options' : List EdnsOption}

section Others

variable {records : List RR} (others : ∀ rr ∈ records, rr.isOptRecord = false)
include others

theorem filter_others : records.filter RR.isOptRecord = [] :=
  filter_eq_nil_iff.mpr fun rr mem => Bool.eq_false_iff.mp (others rr mem)

theorem options_others : records.flatMap RR.options = [] := by
  rw [flatMap_eq_nil_iff]
  intro rr mem
  have no := others rr mem
  obtain ⟨hdr, data⟩ := rr
  cases data with
  | opt options => cases no
  | _ => rfl

end Others

section One

variable (one : OneMarked RR.isOptRecord m.extra before ⟨hdr, .opt options⟩ after)
include one

theorem optRecords_one : m.optRecords = [⟨hdr, .opt options⟩] := by
  unfold Msg.optRecords
  rw [one.split, filter_append, filter_cons_of_pos rfl, filter_others one.before,
    filter_others one.after]
  rfl

theorem ednsOptions_one : m.ednsOptions = options := by
  unfold Msg.ednsOptions
  rw [one.split, flatMap_append, flatMap_cons, options_others one.before,
    options_others one.after, append_nil]
  rfl

variable {clientSubnet : Prefix} {option : EdnsOption}

/-- Options of the record are replaced, and one of them is the client subnet. -/
theorem SubnetSet.of_one
    (otherOptions : options'.filter (!·.isSubnet) = options.filter (!·.isSubnet))
    (subnet : (options.filter EdnsOption.isSubnet).length ≤ 1 →
      ∃ option, options'.filter EdnsOption.isSubnet = [option] ∧
        option.toPrefix = some clientSubnet) :
    SubnetSet clientSubnet m { m with extra := before ++ ⟨hdr, .opt options'⟩ :: after } := by
  have one' : OneMarked RR.isOptRecord
      ({ m with extra := before ++ ⟨hdr, .opt options'⟩ :: after } : Msg).extra before
        ⟨hdr, .opt options'⟩ after := ⟨rfl, rfl, one.before, one.after⟩
  refine ⟨rfl, ?_, ⟨⟨hdr, .opt options'⟩, optRecords_one one', ?_⟩, ?_, ?_⟩
  · rw [one.split, filter_append, filter_append,
      filter_cons_of_neg Bool.false_ne_true, filter_cons_of_neg Bool.false_ne_true]
  · rw [optRecords_one one]
    intro rr mem
    rw [mem_singleton.mp mem]
  · rw [ednsOptions_one one, ednsOptions_one one']
    exact otherOptions
  · rw [ednsOptions_one one, ednsOptions_one one']
    exact subnet

/-- In a section with one OPT record the condition is about that record. -/
theorem subnetOrLast_one : SubnetOrLast m ↔ (∃ option ∈ options, option.isSubnet) ∨ after = [] := by
  unfold SubnetOrLast
  rw [optRecords_one one, ednsOptions_one one, one.split, getLast?_append]
  have last : (∃ rr ∈ ((⟨hdr, .opt options⟩ : RR) :: after).getLast?.or before.getLast?,
      rr.isOptRecord) ↔ after = [] := by
    constructor
    · rintro ⟨rr, mem, isOpt⟩
      cases h : after.getLast? with
      | none => exact getLast?_eq_none_iff.mp h
      | some rr' =>
        rw [getLast?_cons, h] at mem
        cases mem
        exact absurd isOpt (Bool.eq_false_iff.mp (one.after rr' (mem_of_getLast? h)))
    · rintro rfl
      exact ⟨_, rfl, rfl⟩
  rw [last]
  exact or_iff_right nofun

end One

theorem SubnetSet.of_none (others : ∀ rr ∈ m.extra, rr.isOptRecord = false)
    (valid : clientSubnet.isValid) :
    SubnetSet clientSubnet m
      { m with extra := m.extra ++ [⟨newOPTHeader, .opt [newSubnetOption clientSubnet]⟩] } := by
  have opt : m.optRecords = [] := filter_others others
  have edns : m.ednsOptions = [] := options_others others
  have one : OneMarked RR.isOptRecord
      ({ m with
        extra := m.extra ++ [⟨newOPTHeader, .opt [newSubnetOption clientSubnet]⟩] } : Msg).extra
        m.extra ⟨newOPTHeader, .opt [newSubnetOption clientSubnet]⟩ [] := ⟨rfl, rfl, others, nofun⟩
  refine ⟨rfl, ?_, ⟨_, optRecords_one one, by rw [opt]; nofun⟩, ?_, fun _ => ?_⟩
  · rw [filter_append, filter_cons_of_neg Bool.false_ne_true, filter_nil, append_nil]
  · rw [edns, ednsOptions_one one]
    rfl
  · rw [ednsOptions_one one]
    exact ⟨newSubnetOption clientSubnet, rfl, toPrefix_setSubnet valid (.other 0 [])⟩

/-- If it was the only one, the other one is. -/
theorem filter_subnet_replace {first last : List EdnsOption} {option' : EdnsOption}
    (absent : ∀ o ∈ first, (!o.isSubnet) = true) (isSubnet : option.isSubnet)
    (isSubnet' : option'.isSubnet)
    (few : ((first ++ option :: last).filter EdnsOption.isSubnet).length ≤ 1) :
    (first ++ option' :: last).filter EdnsOption.isSubnet = [option'] := by
  have noFirst : first.filter EdnsOption.isSubnet = [] :=
    filter_eq_nil_iff.mpr fun o mem => by simpa using absent o mem
  rw [filter_append, noFirst, filter_cons_of_pos isSubnet, nil_append, length_cons] at few
  have noLast : last.filter EdnsOption.isSubnet = [] :=
    eq_nil_of_length_eq_zero (by omega)
  rw [filter_append, noFirst, filter_cons_of_pos isSubnet', noLast]
  rfl

/-- **On values.** The message is well formed after `SetClientSubnet` exactly if the search did not
pass over its OPT record. -/
theorem subnetSet_SetClientSubnet_iff (valid : clientSubnet.isValid)
    (few : m.optRecords.length ≤ 1) :
    SubnetSet clientSubnet m (SetClientSubnet m clientSubnet) ↔ SubnetOrLast m := by
  rcases filter_le_one_cases few with others | ⟨before, rr, after, one⟩
  · have notFound : findExists 0 none m.extra = (none, none) := by
      rw [findExists_others others]
      split <;> rfl
    rw [SetClientSubnet_append notFound]
    exact iff_of_true (SubnetSet.of_none others valid) (.inl (filter_others others))
  obtain ⟨hdr, data⟩ := rr
  cases data with
  | opt options =>
    have search := findExists_one one 0 none
    rw [Nat.zero_add] at search
    rw [subnetOrLast_one one]
    cases found : options.find? EdnsOption.isSubnet with
    | some option =>
      obtain ⟨isSubnet, first, last, rfl, absent⟩ := find?_eq_some_iff_append.mp found
      rw [findIdx?_append_cons absent isSubnet] at search
      rw [SetClientSubnet_replace one.split search]
      refine iff_of_true (SubnetSet.of_one one ?_ fun few => ?_)
        (.inl ⟨option, by simp, isSubnet⟩)
      · -- the other options are left alone
        rw [filter_append, filter_append, filter_cons_of_neg Bool.false_ne_true,
          filter_cons_of_neg (by simp [isSubnet])]
      · refine ⟨option.setSubnet clientSubnet, ?_, toPrefix_setSubnet valid option⟩
        exact filter_subnet_replace absent isSubnet rfl few
    | none =>
      have absent := find?_eq_none.mp found
      have noIndex : options.findIdx? EdnsOption.isSubnet = none :=
        findIdx?_eq_none_iff.mpr fun o mem => Bool.eq_false_iff.mpr (absent o mem)
      have noSubnet : options.filter EdnsOption.isSubnet = [] := filter_eq_nil_iff.mpr absent
      rw [noIndex] at search
      cases after with
      | nil =>
        rw [SetClientSubnet_extend one.split search]
        refine iff_of_true (SubnetSet.of_one one ?_ fun _ => ?_) (.inr rfl)
        · rw [filter_append, filter_cons_of_neg Bool.false_ne_true, filter_nil, append_nil]
        · refine ⟨newSubnetOption clientSubnet, ?_, toPrefix_setSubnet valid (.other 0 [])⟩
          rw [filter_append, noSubnet]
          rfl
      | cons next rest =>
        rw [SetClientSubnet_append search]
        refine iff_of_false (fun set => ?_) ?_
        · -- the record that was there and the new one
          obtain ⟨rr, only, -⟩ := set.one
          unfold Msg.optRecords at only
          rw [filter_append] at only
          have there : m.extra.filter RR.isOptRecord = _ := optRecords_one one
          rw [there] at only
          cases only
        · rintro (⟨option, mem, isSubnet⟩ | none)
          · exact absent option mem isSubnet
          · cases none
  | _ => cases one.marked

end WellFormed

/-- **Well formed.** For every message with at most one OPT record and every valid prefix, the
message that was given reads as before, and what is returned is that message with the client subnet
if and only if its OPT record, if any, has a client subnet already or is the last additional
record. -/
theorem setClientSubnet_wellFormed_iff (heap : Heap) (message : MsgRef) (clientSubnet : Prefix)
    (live : message.Live heap) (valid : clientSubnet.isValid)
    (one : (message.read heap).optRecords.length ≤ 1) :
    let after := setClientSubnet heap message clientSubnet true
    heap.Grows after.1 ∧ message.read after.1 = message.read heap ∧
      (SubnetSet clientSubnet (message.read heap) (after.2.read after.1) ↔
        SubnetOrLast (message.read heap)) := by
  have written := setClientSubnet_read live one clientSubnet
  refine ⟨written.grows, written.grows.read live, ?_⟩
  rw [written.read]
  exact subnetSet_SetClientSubnet_iff valid one

def emptyOPT : Heap := { optRecords := [{ hdr := ⟨".", typeOPT, 1232, 0⟩ }] }

def requestOPT : MsgRef := ⟨{ id := 1 }, [.opt 0]⟩

theorem setClientSubnet_wellFormed_requestOPT :
    let after := setClientSubnet emptyOPT requestOPT (.v4 0x01020300#32 24) true
    SubnetSet (.v4 0x01020300#32 24) (requestOPT.read emptyOPT) (after.2.read after.1) :=
  (setClientSubnet_wellFormed_iff emptyOPT requestOPT (.v4 0x01020300#32 24)
    (by simp [requestOPT, MsgRef.Live, RecordRef.Live, emptyOPT, Heap.optRecord]) rfl
    (by decide)).2.2.mpr (.inr (.inr ⟨_, rfl, rfl⟩))

/-- The same request with a signature, which comes last. -/
def signedOPT : MsgRef := ⟨{ id := 1 }, [.opt 0, .other ⟨⟨"key.", 250, 255, 0⟩, .other [0]⟩ rfl]⟩

/-- It gets a second OPT record, and the first one is still without the client subnet. -/
theorem setClientSubnet_secondOPT :
    let after := setClientSubnet emptyOPT signedOPT (.v4 0x01020300#32 24) true
    signedOPT.Live emptyOPT ∧ (signedOPT.read emptyOPT).optRecords.length = 1 ∧
      (after.2.read after.1).extra =
        [⟨⟨".", typeOPT, 1232, 0⟩, .opt []⟩, ⟨⟨"key.", 250, 255, 0⟩, .other [0]⟩,
          ⟨⟨".", typeOPT, 0, 0⟩, .opt [.subnet 1 24 0 (.v4 0x01020300#32)]⟩] ∧
      ¬ SubnetSet (.v4 0x01020300#32 24) (signedOPT.read emptyOPT) (after.2.read after.1) := by
  have live : signedOPT.Live emptyOPT := by
    simp [signedOPT, MsgRef.Live, RecordRef.Live, emptyOPT, Heap.optRecord]
  have one : (signedOPT.read emptyOPT).optRecords.length = 1 := by decide
  have written := setClientSubnet_read live one.le (.v4 0x01020300#32 24)
  have notLast : ¬ SubnetOrLast (signedOPT.read emptyOPT) := by
    rintro (none | ⟨option, mem, -⟩ | ⟨rr, mem, isOpt⟩)
    · cases none
    · cases mem
    · cases mem
      cases isOpt
  refine ⟨live, one, ?_, ?_⟩
  · rw [written.read]
    rfl
  · rw [written.read, subnetSet_SetClientSubnet_iff rfl one.le]
    exact notLast

end SingBox.Dns
