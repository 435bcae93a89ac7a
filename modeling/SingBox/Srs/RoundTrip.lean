import SingBox.Srs.Binary

/-!
# What is read of a rule-set that was written

`readItems` is followed along the items of a rule: `ReadsItems` says that some bytes take the rule
read so far to another one, and `Chain` puts the items together in the order they are written. So
the loop reads exactly `recovered` off what was written for a rule, and `Read` does the same for a
whole rule-set.

* `readDefaultRule_recovered`, `readRule_recovered`, `read_write` — what is read;
* `SameRule` — that a rule is read back as it should be;
* `roundTrip_iff` — it is for the versions there are, unless a rule has tunnel items, which are not
  written.
-/

namespace SingBox.Srs

open SingBox.Lib List
open SingBox.Lib.Reader

variable {M A : Type} (L : Libraries M A) (recovery : Bool)

/-! ## Codecs of the parts -/

theorem reads_boolByte (b : Bool) : readBool.Reads [boolByte b] b := by
  have h := (Reads.readByte ReadError.eof (boolByte b)).map fun b => decide (b ≠ 0)
  have same : decide (boolByte b ≠ 0) = b := by cases b <;> rfl
  rw [same] at h
  exact h

def prefixesCodec : Codec ReadError (List Prefix) where
  encode := writePrefixes L
  decode := readPrefixes L
  reads value := (L.varbin.uvarint.reads _).bind ((prefixCodec L.varbin).reads_times value 0)

def interfaceEntryCodec : Codec ReadError (UInt8 × List Prefix) where
  encode := writeInterfaceEntry L
  decode := readInterfaceEntry L
  reads entry :=
    (Reads.readByte ReadError.eof entry.1).bind (((prefixesCodec L).reads entry.2).map (entry.1, ·))

namespace InterfaceMap

theorem putEntry_new {key : UInt8} (value : List Prefix) {entries : List (UInt8 × List Prefix)}
    (new : key ∉ entries.map Prod.fst) :
    putEntry key value entries = entries ++ [(key, value)] := by
  induction entries with
  | nil => rfl
  | cons entry rest ih =>
    rw [map_cons, mem_cons, not_or] at new
    rw [putEntry, if_neg (Ne.symm new.1), ih new.2, cons_append]

theorem foldl_put (m : InterfaceMap) :
    m.entries.foldl (fun m entry => m.put entry.1 entry.2) empty = m := by
  suffices general : ∀ entries : List (UInt8 × List Prefix), (entries.map Prod.fst).Nodup →
      (entries.foldl (fun m entry => m.put entry.1 entry.2) empty).entries = entries from
    InterfaceMap.ext (general m.entries m.nodup)
  intro entries nodup
  induction entries using reverseRecOn with
  | nil => rfl
  | append_singleton entries entry ih =>
    rw [map_append, nodup_append] at nodup
    rw [foldl_append]
    refine (putEntry_new entry.2 ?_).trans (congrArg (· ++ [entry]) (ih nodup.1))
    rw [ih nodup.1]
    exact fun mem => nodup.2.2 _ mem _ mem_cons_self rfl

end InterfaceMap

def interfaceMapCodec : Codec ReadError InterfaceMap where
  encode := writeInterfaceMap L
  decode := readInterfaceMap L
  reads m := by
    have entries := (interfaceEntryCodec L).reads_times m.entries 0
    have h := entries.map fun entries =>
      entries.foldl (fun m entry => m.put entry.1 entry.2) InterfaceMap.empty
    rw [InterfaceMap.foldl_put] at h
    exact (L.varbin.uvarint.reads _).bind h

/-! ## Along the items -/

/-- The loop goes from one rule to another while it reads these bytes. -/
def ReadsItems (bytes : Bytes) (rule rule' : DefaultHeadlessRule M A) : Prop :=
  ∀ turns lastItemType rest, bytes.length ≤ turns → ∃ turns' lastItemType',
    turns ≤ turns' + bytes.length ∧
      readItems L recovery turns lastItemType rule (bytes ++ rest) =
        readItems L recovery turns' lastItemType' rule' rest

section ReadsItems

variable {L recovery} {bytes : Bytes} {rule rule' rule'' : DefaultHeadlessRule M A}

theorem ReadsItems.refl (rule : DefaultHeadlessRule M A) : ReadsItems L recovery [] rule rule :=
  fun turns lastItemType _ _ => ⟨turns, lastItemType, Nat.le_refl _, rfl⟩

theorem ReadsItems.trans {more : Bytes} (first : ReadsItems L recovery bytes rule rule')
    (second : ReadsItems L recovery more rule' rule'') :
    ReadsItems L recovery (bytes ++ more) rule rule'' := by
  intro turns lastItemType rest enough
  rw [length_append] at enough
  obtain ⟨turns₁, last₁, left₁, same₁⟩ := first turns lastItemType (more ++ rest) (by omega)
  obtain ⟨turns₂, last₂, left₂, same₂⟩ := second turns₁ last₁ rest (by omega)
  refine ⟨turns₂, last₂, ?_, ?_⟩
  · rw [length_append]
    omega
  · rw [append_assoc, same₁, same₂]

variable {itemType : ItemType}

theorem ReadsItems.turn (h : (readItem L recovery rule itemType).Reads bytes rule') :
    ReadsItems L recovery (itemType.toByte :: bytes) rule rule' := by
  intro turns lastItemType rest enough
  rw [length_cons] at enough
  obtain ⟨turns, rfl⟩ : ∃ n, turns = n + 1 := ⟨turns - 1, by omega⟩
  refine ⟨turns, itemType.toByte, by rw [length_cons]; omega, ?_⟩
  show (if itemType.toByte = ruleItemFinal then _ else _ : Reader ReadError _) (bytes ++ rest) = _
  rw [if_neg itemType.toByte_ne_final, ItemType.ofByte_toByte]
  show (readItem L recovery rule itemType (bytes ++ rest) >>= _) = _
  rw [h rest]
  rfl

/-- The items of a rule take the loop from one rule to another. -/
inductive Chain (L : Libraries M A) (recovery : Bool) : List (Except WriteError Bytes) →
    DefaultHeadlessRule M A → DefaultHeadlessRule M A → Prop
  | nil (rule : DefaultHeadlessRule M A) : Chain L recovery [] rule rule
  | cons {w : Except WriteError Bytes} {rest : List (Except WriteError Bytes)}
      {rule rule' rule'' : DefaultHeadlessRule M A}
      (first : ∀ bytes, w = .ok bytes → ReadsItems L recovery bytes rule rule')
      (later : Chain L recovery rest rule' rule'') : Chain L recovery (w :: rest) rule rule''

namespace Chain

variable {present : Bool} {w : Except WriteError Bytes} {rest : List (Except WriteError Bytes)}

theorem item (here : present = true → ∀ bytes, w = .ok bytes →
      ReadsItems L recovery bytes rule rule')
    (absent : present = false → rule' = rule) (later : Chain L recovery rest rule' rule'') :
    Chain L recovery (item present w :: rest) rule rule'' := by
  refine .cons (fun bytes written => ?_) later
  cases present with
  | true => exact here rfl bytes written
  | false =>
    cases written
    rw [absent rfl]
    exact .refl rule

/-- An item that was not refused. -/
theorem since {generateVersion minimum : UInt8} {message : String}
    (chain : Chain L recovery (Srs.item present w :: rest) rule rule') :
    Chain L recovery (Srs.item present (since generateVersion minimum message w) :: rest)
      rule rule' := by
  obtain _ | ⟨first, later⟩ := chain
  refine .cons (fun bytes written => first bytes ?_) later
  cases present with
  | false => exact written
  | true =>
    simp only [Srs.item, Srs.since, if_true] at written
    split at written
    · cases written
    · exact written

theorem value {α : Type} (codec : Codec ReadError α)
    (set : α → DefaultHeadlessRule M A → DefaultHeadlessRule M A) {value : α} (empty : α)
    (absent : present = false → value = empty)
    (later : Chain L recovery rest (set value rule) rule')
    (reads : ∀ rule, readItem L recovery rule itemType =
      (fun value => set value rule) <$> codec.decode := by exact fun _ => rfl)
    (unset : set empty rule = rule := by rfl) :
    Chain L recovery (Srs.item present (writeRuleItem codec itemType value) :: rest)
      rule rule' := by
  refine .item (fun _ _ h => ?_) (fun isAbsent => ?_) later
  · cases h
    refine .turn ?_
    rw [reads]
    exact (codec.reads value).map _
  · rw [absent isAbsent]
    exact unset

theorem list {β : Type} (codec : Codec ReadError (List β))
    (set : List β → DefaultHeadlessRule M A → DefaultHeadlessRule M A) {value : List β}
    (later : Chain L recovery rest (set value rule) rule')
    (reads : ∀ rule, readItem L recovery rule itemType =
      (fun value => set value rule) <$> codec.decode := by exact fun _ => rfl)
    (unset : set [] rule = rule := by rfl) :
    Chain L recovery (Srs.item (!value.isEmpty) (writeRuleItem codec itemType value) :: rest)
      rule rule' :=
  .value codec set [] (fun absent => by simpa using absent) later reads unset

theorem flag (set : Bool → DefaultHeadlessRule M A → DefaultHeadlessRule M A) {value : Bool}
    (later : Chain L recovery rest (set value rule) rule')
    (reads : ∀ rule, readItem L recovery rule itemType = pure (set true rule) := by
      exact fun _ => rfl)
    (unset : set false rule = rule := by rfl) :
    Chain L recovery (Srs.item value (.ok [itemType.toByte]) :: rest) rule rule' := by
  refine .item (fun present _ h => ?_) (fun absent => ?_) later
  · cases h
    refine .turn ?_
    rw [reads, present]
    exact .pure _
  · rw [absent]
    exact unset

/-- An item that is read into a matcher or set, and the texts that are recovered from it. -/
theorem option {α : Type} (codec : Codec ReadError α)
    (set : Option α → DefaultHeadlessRule M A → DefaultHeadlessRule M A) (value : Option α)
    (isWritten : present = true → ∀ b, w = .ok b →
      ∃ a, value = some a ∧ b = itemType.toByte :: codec.encode a)
    (absent : present = false → value = none)
    (later : Chain L recovery rest (set value rule) rule')
    (reads : ∀ read, set none read = read → readItem L recovery read itemType =
      (fun a => set (some a) read) <$> codec.decode := by
        intro _ unset; rw [← unset]; cases ‹Bool› <;> rfl)
    (unset : set none rule = rule := by cases ‹Bool› <;> rfl) :
    Chain L recovery (Srs.item present w :: rest) rule rule' := by
  refine .item (fun present bytes h => ?_) (fun isAbsent => ?_) later
  · obtain ⟨a, rfl, rfl⟩ := isWritten present bytes h
    refine .turn ?_
    rw [reads rule unset]
    exact (codec.reads a).map _
  · rw [absent isAbsent]
    exact unset

end Chain

theorem concat_cons {ε : Type} {w : Except ε Bytes} {rest : List (Except ε Bytes)} {bytes : Bytes}
    (h : concat (w :: rest) = .ok bytes) :
    ∃ first later, w = .ok first ∧ concat rest = .ok later ∧ bytes = first ++ later := by
  obtain ⟨first, isFirst, h⟩ := bind_eq_ok.mp h
  obtain ⟨later, isLater, h⟩ := bind_eq_ok.mp h
  cases h
  exact ⟨first, later, isFirst, isLater, rfl⟩

theorem Chain.reads {items : List (Except WriteError Bytes)}
    (chain : Chain L recovery items rule rule') (written : concat items = .ok bytes) :
    ReadsItems L recovery bytes rule rule' := by
  induction chain generalizing bytes with
  | nil rule =>
    cases written
    exact .refl rule
  | cons first later ih =>
    obtain ⟨b, rest, hfirst, hrest, rfl⟩ := concat_cons written
    exact (first b hfirst).trans (ih hrest)

end ReadsItems

/-! ## A default rule -/

def writtenMatcher (generateVersion : UInt8) (rule : DefaultHeadlessRule M A) : Option M :=
  if !rule.domain.isEmpty || !rule.domainSuffix.isEmpty then
    some (domainMatcher L generateVersion rule)
  else none

variable (rule : DefaultHeadlessRule M A)

def writtenAdGuard : Option A :=
  if rule.adGuardDomain.isEmpty then none else some (adGuardMatcher L rule)

def writtenSet (value : List String) : Option IPSet :=
  if value.isEmpty then none else (cidrSet L.ip value).toOption

/-- The texts that are recovered from what was read. -/
def recoveredFrom {α β : Type} (dump : α → List β) (read : Option α) : List β :=
  if recovery then read.elim [] dump else []

def recovered (generateVersion : UInt8) (rule : DefaultHeadlessRule M A) :
    DefaultHeadlessRule M A :=
  let matcher := writtenMatcher L generateVersion rule
  { rule with
    domain := recoveredFrom recovery (fun m => (L.domain.dump m).1) matcher
    domainSuffix := recoveredFrom recovery (fun m => (L.domain.dump m).2) matcher
    domainMatcher := matcher
    sourceIPCIDR := recoveredFrom recovery (recoverCIDR L) (writtenSet L rule.sourceIPCIDR)
    sourceIPSet := writtenSet L rule.sourceIPCIDR
    ipCIDR := recoveredFrom recovery (recoverCIDR L) (writtenSet L rule.ipCIDR)
    ipSet := writtenSet L rule.ipCIDR
    adGuardDomain := recoveredFrom recovery L.adGuard.dump (writtenAdGuard L rule)
    adGuardDomainMatcher := writtenAdGuard L rule
    tunnelSource := []
    tunnelDestination := [] }

section Default

variable {L recovery} {bytes : Bytes}

theorem writeRuleItemCIDR_ok {itemType : ItemType} {value : List String} {message : String}
    (present : (!value.isEmpty) = true)
    (h : (writeRuleItemCIDR L itemType value).mapError (WriteError.cause message) = .ok bytes) :
    ∃ set, writtenSet L value = some set ∧
      bytes = itemType.toByte :: (ipSetCodec L.varbin).encode set := by
  have nonempty : value.isEmpty = false := by simpa using present
  unfold writeRuleItemCIDR at h
  cases built : cidrSet L.ip value with
  | error err =>
    rw [built] at h
    cases h
  | ok set =>
    rw [built] at h
    cases h
    refine ⟨set, ?_, rfl⟩
    rw [writtenSet, nonempty, built]
    rfl

theorem chain_writeItems (rule : DefaultHeadlessRule M A) (generateVersion : UInt8) :
    Chain L recovery (writeItems L rule generateVersion) {}
      { Srs.recovered L recovery generateVersion rule with invert := false } := by
  refine .list L.varbin.uint16s (fun value read => { read with queryType := value }) ?_
  refine .list L.varbin.strings (fun value read => { read with network := value }) ?_
  refine .option L.domain.codec
    (fun m read => { read with
      domain := recoveredFrom recovery (fun m => (L.domain.dump m).1) m
      domainSuffix := recoveredFrom recovery (fun m => (L.domain.dump m).2) m
      domainMatcher := m })
    (writtenMatcher L generateVersion rule)
    (fun present _ h => ⟨_, if_pos present, (Except.ok.inj h).symm⟩)
    (fun absent => if_neg (by simp [absent])) ?_
  refine .list L.varbin.strings (fun value read => { read with domainKeyword := value }) ?_
  refine .list L.varbin.strings (fun value read => { read with domainRegex := value }) ?_
  refine .option (ipSetCodec L.varbin)
    (fun set read => { read with
      sourceIPCIDR := recoveredFrom recovery (recoverCIDR L) set
      sourceIPSet := set })
    (writtenSet L rule.sourceIPCIDR) (fun present _ h => writeRuleItemCIDR_ok present h)
    (fun absent => if_pos (by simpa using absent)) ?_
  refine .option (ipSetCodec L.varbin)
    (fun set read => { read with
      ipCIDR := recoveredFrom recovery (recoverCIDR L) set
      ipSet := set })
    (writtenSet L rule.ipCIDR) (fun present _ h => writeRuleItemCIDR_ok present h)
    (fun absent => if_pos (by simpa using absent)) ?_
  refine .list L.varbin.uint16s (fun value read => { read with sourcePort := value }) ?_
  refine .list L.varbin.strings (fun value read => { read with sourcePortRange := value }) ?_
  refine .list L.varbin.uint16s (fun value read => { read with port := value }) ?_
  refine .list L.varbin.strings (fun value read => { read with portRange := value }) ?_
  refine .list L.varbin.strings (fun value read => { read with processName := value }) ?_
  refine .list L.varbin.strings (fun value read => { read with processPath := value }) ?_
  refine .list L.varbin.strings (fun value read => { read with processPathRegex := value }) ?_
  refine .list L.varbin.strings (fun value read => { read with packageName := value }) ?_
  show Chain L recovery _ { Srs.recovered L recovery generateVersion rule with
      packageNameRegex := []
      networkType := []
      networkIsExpensive := false
      networkIsConstrained := false
      wifiSSID := []
      wifiBSSID := []
      networkInterfaceAddress := .empty
      defaultInterfaceAddress := []
      invert := false
      adGuardDomain := []
      adGuardDomainMatcher := none } _
  refine .since (.list L.varbin.strings
    (fun value read => { read with packageNameRegex := value }) ?_)
  refine .since (.list L.varbin.bytes (fun value read => { read with networkType := value }) ?_)
  refine .since (.flag (fun value read => { read with networkIsExpensive := value }) ?_)
  refine .since (.flag (fun value read => { read with networkIsConstrained := value }) ?_)
  refine .since (.value (interfaceMapCodec L)
    (fun value read => { read with networkInterfaceAddress := value }) .empty
    (fun absent => InterfaceMap.ext (show _ = [] by simpa using absent)) ?_)
  refine .since (.list (prefixesCodec L)
    (fun value read => { read with defaultInterfaceAddress := value }) ?_)
  refine .list L.varbin.strings (fun value read => { read with wifiSSID := value }) ?_
  refine .list L.varbin.strings (fun value read => { read with wifiBSSID := value }) ?_
  refine .since (.option L.adGuard.codec
    (fun m read => { read with
      adGuardDomain := recoveredFrom recovery L.adGuard.dump m
      adGuardDomainMatcher := m })
    (writtenAdGuard L rule)
    (fun present _ h => ⟨_, if_neg (by simpa using present), (Except.ok.inj h).symm⟩)
    (fun absent => if_pos (by simpa using absent)) ?_)
  exact .nil _

theorem readDefaultRule_recovered (recovery : Bool) {rule : DefaultHeadlessRule M A}
    {generateVersion : UInt8} (written : writeDefaultRule L rule generateVersion = .ok bytes) :
    ∃ body, bytes = 0 :: body ∧
      (readDefaultRule L recovery).Reads body (Srs.recovered L recovery generateVersion rule) := by
  obtain ⟨items, isWritten, written⟩ := bind_eq_ok.mp written
  cases written
  refine ⟨_, rfl, fun rest => ?_⟩
  let last := [ruleItemFinal, boolByte rule.invert]
  have enough : (items ++ last ++ rest).length = items.length + 2 + rest.length := by
    rw [length_append, length_append]
    rfl
  obtain ⟨turns, lastItemType, left, same⟩ := (chain_writeItems rule generateVersion).reads
    isWritten (items ++ last ++ rest).length 0 (last ++ rest) (by omega)
  obtain ⟨turns, rfl⟩ : ∃ n, turns = n + 1 := ⟨turns - 1, by omega⟩
  show readItems L recovery (items ++ last ++ rest).length 0 {} (items ++ last ++ rest) = _
  rw [append_assoc] at same ⊢
  rw [same]
  exact ((reads_boolByte rule.invert).map fun invert => { Srs.recovered L recovery
    generateVersion rule with invert }) rest

end Default

/-! ## Rules and rule-sets -/

section Rules

namespace HeadlessRule

@[elab_as_elim]
theorem induction {P : HeadlessRule M A → Prop} (default : ∀ options, P (.default options))
    (logical : ∀ mode rules invert, (∀ rule ∈ rules, P rule) → P (.logical mode rules invert))
    (unknown : ∀ type, P (.unknown type)) : ∀ rule, P rule
  | .default options => default options
  | .logical mode rules invert =>
      logical mode rules invert fun rule _ => induction default logical unknown rule
  | .unknown type => unknown type
termination_by rule => sizeOf rule
decreasing_by
  have smaller := sizeOf_lt_of_mem ‹rule ∈ rules›
  simp only [HeadlessRule.logical.sizeOf_spec]
  omega

mutual

def map (f : DefaultHeadlessRule M A → DefaultHeadlessRule M A) :
    HeadlessRule M A → HeadlessRule M A
  | .default options => .default (f options)
  | .logical mode rules invert => .logical mode (mapRules f rules) invert
  | .unknown type => .unknown type

def mapRules (f : DefaultHeadlessRule M A → DefaultHeadlessRule M A) :
    List (HeadlessRule M A) → List (HeadlessRule M A)
  | [] => []
  | rule :: rest => map f rule :: mapRules f rest

end

theorem mapRules_eq_map (f : DefaultHeadlessRule M A → DefaultHeadlessRule M A)
    (rules : List (HeadlessRule M A)) : mapRules f rules = rules.map (map f) := by
  induction rules with
  | nil => rfl
  | cons rule rest ih => rw [mapRules, ih, map_cons]

mutual

def defaults : HeadlessRule M A → List (DefaultHeadlessRule M A)
  | .default options => [options]
  | .logical _ rules _ => defaultsOf rules
  | .unknown _ => []

def defaultsOf : List (HeadlessRule M A) → List (DefaultHeadlessRule M A)
  | [] => []
  | rule :: rest => defaults rule ++ defaultsOf rest

end

theorem mem_defaultsOf {rules : List (HeadlessRule M A)} {options : DefaultHeadlessRule M A} :
    options ∈ defaultsOf rules ↔ ∃ rule ∈ rules, options ∈ rule.defaults := by
  induction rules with
  | nil => simp [defaultsOf]
  | cons rule rest ih => simp [defaultsOf, ih]

end HeadlessRule

variable {L recovery} {generateVersion : UInt8} {rules : List (HeadlessRule M A)} {bytes : Bytes}

theorem writeRules_eq_concat (rules : List (HeadlessRule M A)) :
    writeRules L generateVersion rules = concat (rules.map (writeRule L generateVersion)) := by
  induction rules with
  | nil => rfl
  | cons rule rest ih => rw [writeRules, ih, map_cons, concat]

/-- Each rule is written as the bytes in its place. -/
def Written (L : Libraries M A) (generateVersion : UInt8) (rules : List (HeadlessRule M A))
    (chunks : List Bytes) : Prop :=
  Forall₂ (fun rule b => writeRule L generateVersion rule = .ok b) rules chunks

theorem written_writeRules (h : writeRules L generateVersion rules = .ok bytes) :
    ∃ chunks, bytes = chunks.flatten ∧ Written L generateVersion rules chunks := by
  rw [writeRules_eq_concat] at h
  induction rules generalizing bytes with
  | nil =>
    cases h
    exact ⟨[], rfl, .nil⟩
  | cons rule rest ih =>
    obtain ⟨first, later, hrule, hrest, rfl⟩ := concat_cons h
    obtain ⟨chunks, rfl, each⟩ := ih hrest
    exact ⟨first :: chunks, rfl, .cons hrule each⟩

/-- If every rule is read from what was written for it, the loop reads them all. -/
theorem reads_chunks {p : Nat → Reader ReadError (HeadlessRule M A)}
    {f : HeadlessRule M A → HeadlessRule M A} {chunks : List Bytes}
    (written : Written L generateVersion rules chunks)
    (each : ∀ rule ∈ rules, ∀ b ∈ chunks, writeRule L generateVersion rule = .ok b →
      ∀ i, (p i).Reads b (f rule)) :
    Forall₂ (fun b rule => ∀ i, (p i).Reads b rule) chunks (rules.map f) := by
  induction written with
  | nil => exact .nil
  | cons first _ ih =>
    refine .cons (each _ mem_cons_self _ mem_cons_self first) (ih ?_)
    intro rule mem b isChunk
    exact each rule (mem_cons_of_mem _ mem) b (mem_cons_of_mem _ isChunk)

theorem reads_writeMode {mode : LogicalMode} {b : UInt8} (h : writeMode mode = .ok b) :
    readMode.Reads [b] mode := by
  cases mode with
  | and | or =>
    cases h
    exact fun _ => rfl
  | other => cases h

/-- The inverse of `writeLogicalRule`. -/
theorem writeRule_logical {mode : LogicalMode} {invert : Bool}
    (h : writeRule L generateVersion (.logical mode rules invert) = .ok bytes) :
    ∃ modeByte, ∃ chunks : List Bytes, writeMode mode = .ok modeByte ∧
      Written L generateVersion rules chunks ∧
      bytes = 1 :: modeByte ::
        (L.varbin.uvarint.encode rules.length ++ (chunks.flatten ++ [boolByte invert])) := by
  rw [writeRule] at h
  obtain ⟨modeByte, hmode, h⟩ := bind_eq_ok.mp h
  obtain ⟨written, hrules, h⟩ := bind_eq_ok.mp h
  cases h
  obtain ⟨chunks, rfl, each⟩ := written_writeRules hrules
  exact ⟨modeByte, chunks, hmode, each, rfl⟩

/-- What is read of a rule that was written, with as much depth as it has bytes. -/
theorem readRule_recovered (rule : HeadlessRule M A) {bytes : Bytes}
    (written : writeRule L generateVersion rule = .ok bytes) {depth : Nat}
    (enough : bytes.length ≤ depth) :
    (readRule L recovery depth).Reads bytes (rule.map (recovered L recovery generateVersion)) := by
  induction rule using HeadlessRule.induction generalizing bytes depth with
  | default options =>
    obtain ⟨body, rfl, reads⟩ := readDefaultRule_recovered recovery written
    rw [length_cons] at enough
    obtain ⟨depth, rfl⟩ : ∃ n, depth = n + 1 := ⟨depth - 1, by omega⟩
    exact (Reads.readByte ReadError.eof 0).bind (reads.map HeadlessRule.default)
  | logical mode rules invert ih =>
    obtain ⟨modeByte, chunks, hmode, hrules, rfl⟩ := writeRule_logical written
    simp only [length_cons, length_append] at enough
    obtain ⟨depth, rfl⟩ : ∃ n, depth = n + 1 := ⟨depth - 1, by omega⟩
    have each := reads_chunks (p := fun i => (readRule L recovery depth).mapError
      (.cause · ("read logical rule [" ++ toString i ++ "]"))) hrules fun rule mem b isChunk h i =>
        (ih rule mem h (by
          have le := (sublist_flatten_of_mem isChunk).length_le
          omega)).mapError _
    have inner := Reads.times each 0
    rw [length_map, ← HeadlessRule.mapRules_eq_map] at inner
    refine (Reads.readByte ReadError.eof 1).bind ?_
    refine (reads_writeMode hmode).bind ?_
    refine (L.varbin.uvarint.reads _).bind ?_
    exact inner.bind ((reads_boolByte invert).map _)
  | unknown type => cases written

theorem readRules_recovered {chunks : List Bytes}
    (written : Written L generateVersion rules chunks) :
    readRules L recovery (L.varbin.uvarint.encode rules.length ++ chunks.flatten) =
      .ok (rules.map (HeadlessRule.map (recovered L recovery generateVersion)), []) := by
  let payload := L.varbin.uvarint.encode rules.length ++ chunks.flatten
  have each := reads_chunks (p := fun i => (readRule L recovery payload.length).mapError
    (.cause · ("read rule[" ++ toString i ++ "]"))) written fun rule _ b isChunk h i =>
      (readRule_recovered rule h (by
        have le := (sublist_flatten_of_mem isChunk).length_le
        rw [length_append]
        omega)).mapError _
  have inner := Reads.times each 0
  rw [length_map] at inner
  have reads := ((L.varbin.uvarint.reads _).bind inner) []
  rw [append_nil] at reads
  exact reads

theorem write_chunks (written : write L rules generateVersion = .ok bytes) :
    ∃ chunks : List Bytes,
      Written L generateVersion rules chunks ∧
      bytes = magicBytes ++ (generateVersion ::
        L.zlib.compress (L.varbin.uvarint.encode rules.length ++ chunks.flatten)) := by
  obtain ⟨payload, hrules, written⟩ := bind_eq_ok.mp written
  cases written
  obtain ⟨chunks, rfl, each⟩ := written_writeRules hrules
  exact ⟨chunks, each, rfl⟩

/-- `Read` refuses a version it does not know. -/
theorem read_write (recovery : Bool) (written : write L rules generateVersion = .ok bytes) :
    read L recovery bytes =
      if generateVersion > 5 then .error (.unsupportedVersion generateVersion)
      else .ok ⟨generateVersion,
        rules.map (HeadlessRule.map (recovered L recovery generateVersion))⟩ := by
  obtain ⟨chunks, each, rfl⟩ := write_chunks written
  show (if generateVersion > 5 then _ else _ : Except ReadError _) = _
  split
  · rfl
  · show (L.zlib.decompress _ >>= _) = _
    rw [L.zlib.inverse]
    show (readRules L recovery _ >>= _) = _
    rw [readRules_recovered each]
    rfl

end Rules

/-! ## What should be read -/

/-- An address is in the set that a list of prefixes and addresses says. -/
def Denotes (ip : IPLibrary) (value : List String) (a : Addr) : Prop :=
  ∃ text ∈ value, ∃ entry, parseEntry ip text = .ok entry ∧ entry.contains a = true

/-- The rule without the items that are read as sets and matchers. -/
def DefaultHeadlessRule.withoutSets : DefaultHeadlessRule M A :=
  { rule with
    domain := []
    domainSuffix := []
    domainMatcher := none
    sourceIPCIDR := []
    sourceIPSet := none
    ipCIDR := []
    ipSet := none
    adGuardDomain := []
    adGuardDomainMatcher := none }

/-- The items are those of the rule, and those that are read as sets and matchers denote the same,
in their texts and in what they were read as. -/
structure SameItems (version : UInt8) (rule read : DefaultHeadlessRule M A) : Prop where
  items : read.withoutSets = rule.withoutSets
  domain : L.domain.accepts (domainMatcher L version read) =
    L.domain.accepts (domainMatcher L version rule)
  domainMatcher : read.domainMatcher = writtenMatcher L version rule
  sourceIPCIDR : ∀ a, Denotes L.ip read.sourceIPCIDR a ↔ Denotes L.ip rule.sourceIPCIDR a
  sourceIPSet : ∀ a, (∃ set, read.sourceIPSet = some set ∧ set.contains a = true) ↔
    Denotes L.ip rule.sourceIPCIDR a
  ipCIDR : ∀ a, Denotes L.ip read.ipCIDR a ↔ Denotes L.ip rule.ipCIDR a
  ipSet : ∀ a, (∃ set, read.ipSet = some set ∧ set.contains a = true) ↔ Denotes L.ip rule.ipCIDR a
  adGuardDomain : L.adGuard.accepts (adGuardMatcher L read) =
    L.adGuard.accepts (adGuardMatcher L rule)
  adGuardDomainMatcher : read.adGuardDomainMatcher = writtenAdGuard L rule

/-- The rules have the same shape, modes and invert flags, and the same items. -/
inductive SameRule (version : UInt8) : HeadlessRule M A → HeadlessRule M A → Prop
  | default {rule read : DefaultHeadlessRule M A} (same : SameItems L version rule read) :
      SameRule version (.default rule) (.default read)
  | logical {mode : LogicalMode} {rules read : List (HeadlessRule M A)} {invert : Bool}
      (same : Forall₂ (SameRule version) rules read) :
      SameRule version (.logical mode rules invert) (.logical mode read invert)

/-- The rule has no item that `Write` leaves out. -/
def DefaultHeadlessRule.NoTunnel : Prop :=
  rule.tunnelSource = [] ∧ rule.tunnelDestination = []

section Same

variable {L} {version : UInt8} {bytes : Bytes}

theorem mem_parseEntries {ip : IPLibrary} {i : Nat} {value : List String} {entries : List Entry}
    (h : parseEntries ip i value = .ok entries) (entry : Entry) :
    entry ∈ entries ↔ ∃ text ∈ value, parseEntry ip text = .ok entry := by
  induction value generalizing i entries with
  | nil =>
    cases h
    simp
  | cons text rest ih =>
    rw [parseEntries] at h
    cases parsed : parseEntry ip text with
    | error err =>
      rw [parsed] at h
      cases h
    | ok first =>
      rw [parsed] at h
      obtain ⟨entries, later, h⟩ := bind_eq_ok.mp h
      cases h
      simp [ih later, parsed, eq_comm]

theorem contains_cidrSet {value : List String} {set : IPSet} (h : cidrSet L.ip value = .ok set)
    (a : Addr) : set.contains a = true ↔ Denotes L.ip value a := by
  obtain ⟨entries, parsed, h⟩ := bind_eq_ok.mp h
  split at h <;> cases h
  rename_i set' built
  rw [L.ip.contains_build entries set built]
  simp only [Denotes, mem_parseEntries parsed]
  grind

theorem denotes_recoverCIDR (set : IPSet) (a : Addr) :
    Denotes L.ip (recoverCIDR L set) a ↔ set.contains a = true := by
  have parsed (p : Prefix) (mem : p ∈ L.ip.prefixes set) :
      parseEntry L.ip (L.ip.prefixString p) = .ok (.cidr p) := by
    rw [parseEntry, L.ip.parse_string set p mem]
  rw [← L.ip.contains_prefixes]
  constructor
  · rintro ⟨text, isText, entry, isEntry, isIn⟩
    obtain ⟨p, mem, rfl⟩ := mem_map.mp isText
    cases (parsed p mem).symm.trans isEntry
    exact ⟨p, mem, isIn⟩
  · rintro ⟨p, mem, isIn⟩
    exact ⟨_, mem_map_of_mem mem, _, parsed p mem, isIn⟩

/-- A set that was written denotes what its texts say. -/
theorem contains_writtenSet {itemType : ItemType} {message : String} {value : List String}
    (written : item (!value.isEmpty)
      ((writeRuleItemCIDR L itemType value).mapError (.cause message)) = .ok bytes) (a : Addr) :
    (∃ set, writtenSet L value = some set ∧ set.contains a = true) ↔ Denotes L.ip value a := by
  cases present : value.isEmpty with
  | true =>
    have empty : value = [] := isEmpty_iff.mp present
    subst empty
    refine iff_of_false ?_ ?_
    · rintro ⟨set, isSet, -⟩
      cases isSet
    · rintro ⟨text, mem, -⟩
      cases mem
  | false =>
    rw [present] at written
    obtain ⟨set, isSet, -⟩ := writeRuleItemCIDR_ok (by rw [present]; rfl) written
    have built : cidrSet L.ip value = .ok set := by
      rw [writtenSet, present] at isSet
      cases h : cidrSet L.ip value with
      | error err =>
        rw [h] at isSet
        cases isSet
      | ok set' =>
        rw [h] at isSet
        cases isSet
        rfl
    rw [isSet, ← contains_cidrSet built]
    simp

theorem denotes_recovered (set : Option IPSet) (a : Addr) :
    Denotes L.ip (recoveredFrom true (recoverCIDR L) set) a ↔
      ∃ set', set = some set' ∧ set'.contains a = true := by
  cases set with
  | none =>
    refine iff_of_false ?_ ?_
    · rintro ⟨text, mem, -⟩
      cases mem
    · rintro ⟨set', isSet, -⟩
      cases isSet
  | some set =>
    rw [recoveredFrom, if_pos rfl, Option.elim_some, denotes_recoverCIDR]
    simp

variable (rule : DefaultHeadlessRule M A)

theorem accepts_recovered :
    L.domain.accepts (domainMatcher L version (recovered L true version rule)) =
      L.domain.accepts (domainMatcher L version rule) := by
  by_cases present : (!rule.domain.isEmpty || !rule.domainSuffix.isEmpty) = true
  · have same : domainMatcher L version (recovered L true version rule) =
        L.domain.new (version == 1) (L.domain.dump (domainMatcher L version rule)) := by
      simp only [domainMatcher, recovered, recoveredFrom, writtenMatcher, if_pos present, if_true,
        Option.elim_some]
    rw [same]
    exact L.domain.accepts_dump _ _
  · have empty : rule.domain = [] ∧ rule.domainSuffix = [] := by simpa using present
    have same : domainMatcher L version (recovered L true version rule) =
        domainMatcher L version rule := by
      simp [domainMatcher, recovered, recoveredFrom, writtenMatcher, empty.1, empty.2]
    rw [same]

theorem adGuard_accepts_recovered :
    L.adGuard.accepts (adGuardMatcher L (recovered L true version rule)) =
      L.adGuard.accepts (adGuardMatcher L rule) := by
  cases present : rule.adGuardDomain.isEmpty with
  | true =>
    have empty : rule.adGuardDomain = [] := isEmpty_iff.mp present
    have same : adGuardMatcher L (recovered L true version rule) = adGuardMatcher L rule := by
      simp [adGuardMatcher, recovered, recoveredFrom, writtenAdGuard, empty]
    rw [same]
  | false =>
    have same : adGuardMatcher L (recovered L true version rule) =
        L.adGuard.new () (L.adGuard.dump (adGuardMatcher L rule)) := by
      simp [adGuardMatcher, recovered, recoveredFrom, writtenAdGuard, present]
    rw [same]
    exact L.adGuard.accepts_dump _ _

theorem concat_mem {ε : Type} {ws : List (Except ε Bytes)} (h : concat ws = .ok bytes) :
    ∀ w ∈ ws, ∃ b, w = .ok b := by
  induction ws generalizing bytes with
  | nil => exact forall_mem_nil _
  | cons first rest ih =>
    obtain ⟨b, later, hfirst, hrest, -⟩ := concat_cons h
    exact forall_mem_cons.mpr ⟨⟨b, hfirst⟩, ih hrest⟩

/-- Of the items of a rule that was written, only the tunnel items can differ. -/
theorem sameItems_recovered {rule : DefaultHeadlessRule M A}
    (written : writeDefaultRule L rule version = .ok bytes) :
    SameItems L version rule (recovered L true version rule) ↔ rule.NoTunnel := by
  constructor
  · intro same
    have items := same.items
    exact ⟨(congrArg DefaultHeadlessRule.tunnelSource items).symm,
      (congrArg DefaultHeadlessRule.tunnelDestination items).symm⟩
  · rintro ⟨noSource, noDestination⟩
    obtain ⟨items, isWritten, -⟩ := bind_eq_ok.mp written
    obtain ⟨source, hsource⟩ := concat_mem isWritten
      (item (!rule.sourceIPCIDR.isEmpty) ((writeRuleItemCIDR L .sourceIPCIDR
        rule.sourceIPCIDR).mapError (.cause "source_ip_cidr"))) (by simp [writeItems])
    obtain ⟨ip, hip⟩ := concat_mem isWritten
      (item (!rule.ipCIDR.isEmpty) ((writeRuleItemCIDR L .ipCIDR
        rule.ipCIDR).mapError (.cause "ipcidr"))) (by simp [writeItems])
    have sourceSet := contains_writtenSet hsource
    have ipSet := contains_writtenSet hip
    exact {
      items := by
        simp only [DefaultHeadlessRule.withoutSets, recovered, noSource, noDestination]
      domain := accepts_recovered rule
      domainMatcher := rfl
      sourceIPCIDR := fun a => (denotes_recovered _ a).trans (sourceSet a)
      sourceIPSet := sourceSet
      ipCIDR := fun a => (denotes_recovered _ a).trans (ipSet a)
      ipSet := ipSet
      adGuardDomain := adGuard_accepts_recovered rule
      adGuardDomainMatcher := rfl }

theorem exists_written {rules : List (HeadlessRule M A)} {chunks : List Bytes}
    (written : Written L version rules chunks) :
    ∀ rule ∈ rules, ∃ b, writeRule L version rule = .ok b := by
  induction written with
  | nil => exact forall_mem_nil _
  | cons here _ ih => exact forall_mem_cons.mpr ⟨⟨_, here⟩, ih⟩

/-- The rules of a list are the same as those read if each of them is. -/
theorem forall₂_sameRule {rules : List (HeadlessRule M A)} {chunks : List Bytes}
    {f : HeadlessRule M A → HeadlessRule M A}
    (written : Written L version rules chunks)
    (each : ∀ rule ∈ rules, ∀ b, writeRule L version rule = .ok b →
      (SameRule L version rule (f rule) ↔ ∀ options ∈ rule.defaults, options.NoTunnel)) :
    Forall₂ (SameRule L version) rules (rules.map f) ↔
      ∀ options ∈ HeadlessRule.defaultsOf rules, options.NoTunnel := by
  have same (rule : HeadlessRule M A) (mem : rule ∈ rules) :
      SameRule L version rule (f rule) ↔ ∀ options ∈ rule.defaults, options.NoTunnel := by
    obtain ⟨b, here⟩ := exists_written written rule mem
    exact each rule mem b here
  rw [forall₂_map_right_iff, forall₂_same]
  constructor
  · intro isSame options mem
    obtain ⟨rule, isRule, isOptions⟩ := HeadlessRule.mem_defaultsOf.mp mem
    exact (same rule isRule).mp (isSame rule isRule) options isOptions
  · intro noTunnel rule isRule
    refine (same rule isRule).mpr fun options isOptions => ?_
    exact noTunnel options (HeadlessRule.mem_defaultsOf.mpr ⟨rule, isRule, isOptions⟩)

theorem sameRule_recovered (rule : HeadlessRule M A) {bytes : Bytes}
    (written : writeRule L version rule = .ok bytes) :
    SameRule L version rule (rule.map (recovered L true version)) ↔
      ∀ options ∈ rule.defaults, options.NoTunnel := by
  induction rule using HeadlessRule.induction generalizing bytes with
  | default options =>
    have same := sameItems_recovered written
    constructor
    · rintro ⟨isSame⟩ other mem
      rw [mem_singleton.mp mem]
      exact same.mp isSame
    · intro noTunnel
      exact .default (same.mpr (noTunnel options (mem_singleton_self options)))
  | logical mode rules invert ih =>
    obtain ⟨modeByte, chunks, -, hrules, -⟩ := writeRule_logical written
    have inner := forall₂_sameRule hrules fun rule mem b here => ih rule mem here
    rw [← HeadlessRule.mapRules_eq_map] at inner
    constructor
    · intro same
      cases same with
      | logical same => exact inner.mp same
    · intro noTunnel
      exact .logical (inner.mpr noTunnel)
  | unknown type => cases written

end Same

/-- A rule-set that was written is read with its version, and with the same rules, if and only if
the version is one of those there are and no rule has tunnel items. -/
theorem roundTrip_iff {rules : List (HeadlessRule M A)} {version : UInt8} {bytes : Bytes}
    (written : write L rules version = .ok bytes) :
    (∃ same, read L true bytes = .ok ⟨version, same⟩ ∧
      List.Forall₂ (SameRule L version) rules same) ↔
      version ≤ 5 ∧ ∀ options ∈ HeadlessRule.defaultsOf rules, options.NoTunnel := by
  have isRead := read_write true written
  obtain ⟨chunks, hrules, -⟩ := write_chunks written
  have same := forall₂_sameRule hrules fun rule _ b here => sameRule_recovered rule here
  rw [isRead]
  split
  case isTrue newer =>
    refine iff_of_false ?_ fun h => absurd newer (UInt8.not_lt.mpr h.1)
    rintro ⟨_, isOk, -⟩
    cases isOk
  case isFalse known =>
    rw [and_iff_right (UInt8.not_lt.mp known), ← same]
    constructor
    · rintro ⟨_, isOk, isSame⟩
      cases isOk
      exact isSame
    · intro isSame
      exact ⟨_, rfl, isSame⟩

end SingBox.Srs
