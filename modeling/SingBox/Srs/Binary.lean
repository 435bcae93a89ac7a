import SingBox.Srs.IPSet

/-!
# Binary rule-sets

`Write` and `Read` of `common/srs/binary.go`. A default rule is written item by item, each with its
tag, in one order, and is read by a loop that goes by the tags; a logical rule is written with the
rules it holds.

The libraries are parameters: zlib, `varbin`, the domain matchers and `netipx` come as codecs, whose
readers read what was written, and with what their values denote. A slice or map that is nil is the
empty one here. The writer is a buffer, so a write itself does not fail.
-/

namespace SingBox.Srs

open SingBox.Lib Prod
open SingBox.Lib.Reader

/-! ## Libraries -/

/-- `domain.Matcher` and `domain.AdGuardMatcher`: a matcher is built from a source, and can say what
it was built from. -/
structure MatcherLibrary (Options Source M : Type) where
  new : Options → Source → M
  dump : M → Source
  /-- The domains a matcher matches. -/
  accepts : M → String → Bool
  /-- `Write`, `ReadMatcher` and `ReadAdGuardMatcher` -/
  codec : Codec ReadError M
  accepts_dump : ∀ options source,
    accepts (new options (dump (new options source))) = accepts (new options source)

/-- What is added to an `IPSetBuilder`. -/
inductive Entry where
  | cidr (p : Prefix)
  | addr (a : Addr)
  deriving DecidableEq, Repr

/-- The zone of an entry is dropped. -/
def Entry.contains : Entry → Addr → Bool
  | .cidr p, a => p.contains a
  | .addr b, a => a.isValid && a == b.withoutZone

/-- `netip` and `netipx`. -/
structure IPLibrary where
  parsePrefix : String → Except String Prefix
  parseAddr : String → Option Addr
  prefixString : Prefix → String
  /-- `IPSetBuilder.IPSet` -/
  build : List Entry → Except String IPSet
  prefixes : IPSet → List Prefix
  contains_build : ∀ entries set, build entries = .ok set →
    ∀ a, set.contains a = true ↔ ∃ entry ∈ entries, entry.contains a = true
  contains_prefixes : ∀ set a, (∃ p ∈ prefixes set, p.contains a = true) ↔ set.contains a = true
  parse_string : ∀ set, ∀ p ∈ prefixes set, parsePrefix (prefixString p) = .ok p

structure Zlib where
  compress : Bytes → Bytes
  decompress : Bytes → Except ReadError Bytes
  inverse : ∀ bytes, decompress (compress bytes) = .ok bytes

structure Libraries (M A : Type) where
  zlib : Zlib
  varbin : Varbin
  /-- The options say whether a matcher for version 1 is generated. -/
  domain : MatcherLibrary Bool (List String × List String) M
  adGuard : MatcherLibrary Unit (List String) A
  ip : IPLibrary

/-! ## Rules -/

/-- `badjson.TypedMap`, which keeps the order of its keys. -/
@[ext]
structure InterfaceMap where
  entries : List (UInt8 × List Prefix)
  nodup : (entries.map fst).Nodup

namespace InterfaceMap

def empty : InterfaceMap := ⟨[], List.nodup_nil⟩

def putEntry (key : UInt8) (value : List Prefix) :
    List (UInt8 × List Prefix) → List (UInt8 × List Prefix)
  | [] => [(key, value)]
  | entry :: rest =>
      if entry.1 = key then (key, value) :: rest else entry :: putEntry key value rest

variable {entries : List (UInt8 × List Prefix)}

theorem mem_putEntry {key other : UInt8} {value : List Prefix} :
    other ∈ (putEntry key value entries).map fst ↔
      other = key ∨ other ∈ entries.map fst := by
  induction entries with
  | nil => simp [putEntry]
  | cons entry rest ih =>
    rw [putEntry]
    split
    case isTrue same => simp [same]
    case isFalse =>
      rw [List.map_cons, List.mem_cons, ih, List.map_cons, List.mem_cons]
      exact or_left_comm

theorem nodup_putEntry (key : UInt8) (value : List Prefix) (nodup : (entries.map fst).Nodup) :
    ((putEntry key value entries).map fst).Nodup := by
  induction entries with
  | nil => simp [putEntry]
  | cons entry rest ih =>
    rw [List.map_cons, List.nodup_cons] at nodup
    rw [putEntry]
    split
    case isTrue same => simpa [← same] using nodup
    case isFalse different =>
      rw [List.map_cons, List.nodup_cons, mem_putEntry]
      exact ⟨fun h => h.elim different nodup.1, ih nodup.2⟩

def put (m : InterfaceMap) (key : UInt8) (value : List Prefix) : InterfaceMap :=
  ⟨putEntry key value m.entries, nodup_putEntry key value m.nodup⟩

end InterfaceMap

structure DefaultHeadlessRule (M A : Type) where
  queryType : List UInt16 := []
  network : List String := []
  domain : List String := []
  domainSuffix : List String := []
  domainKeyword : List String := []
  domainRegex : List String := []
  sourceIPCIDR : List String := []
  ipCIDR : List String := []
  sourcePort : List UInt16 := []
  sourcePortRange : List String := []
  port : List UInt16 := []
  portRange : List String := []
  processName : List String := []
  processPath : List String := []
  processPathRegex : List String := []
  packageName : List String := []
  packageNameRegex : List String := []
  networkType : List UInt8 := []
  networkIsExpensive : Bool := false
  networkIsConstrained : Bool := false
  wifiSSID : List String := []
  wifiBSSID : List String := []
  networkInterfaceAddress : InterfaceMap := .empty
  defaultInterfaceAddress : List Prefix := []
  invert : Bool := false
  domainMatcher : Option M := none
  sourceIPSet : Option IPSet := none
  ipSet : Option IPSet := none
  adGuardDomain : List String := []
  adGuardDomainMatcher : Option A := none
  tunnelSource : List String := []
  tunnelDestination : List String := []

inductive LogicalMode where
  | and
  | or
  /-- A text that is neither. -/
  | other (mode : String)
  deriving DecidableEq, Repr

inductive HeadlessRule (M A : Type) where
  | default (options : DefaultHeadlessRule M A)
  | logical (mode : LogicalMode) (rules : List (HeadlessRule M A)) (invert : Bool)
  | unknown (type : String)

structure RuleSetCompat (M A : Type) where
  version : UInt8
  rules : List (HeadlessRule M A)

/-! ## Tags -/

inductive ItemType where
  | queryType
  | network
  | domain
  | domainKeyword
  | domainRegex
  | sourceIPCIDR
  | ipCIDR
  | sourcePort
  | sourcePortRange
  | port
  | portRange
  | processName
  | processPath
  | packageName
  | wifiSSID
  | wifiBSSID
  | adGuardDomain
  | processPathRegex
  | networkType
  | networkIsExpensive
  | networkIsConstrained
  | networkInterfaceAddress
  | defaultInterfaceAddress
  | packageNameRegex
  deriving DecidableEq, Repr

def ruleItemFinal : UInt8 := 0xff

/-- The constants of the source count from zero. -/
def ItemType.toByte (itemType : ItemType) : UInt8 := UInt8.ofNat itemType.ctorIdx

def itemTypes : List ItemType :=
  [.queryType, .network, .domain, .domainKeyword, .domainRegex, .sourceIPCIDR, .ipCIDR, .sourcePort,
    .sourcePortRange, .port, .portRange, .processName, .processPath, .packageName, .wifiSSID,
    .wifiBSSID, .adGuardDomain, .processPathRegex, .networkType, .networkIsExpensive,
    .networkIsConstrained, .networkInterfaceAddress, .defaultInterfaceAddress, .packageNameRegex]

def ItemType.ofByte (b : UInt8) : Option ItemType := itemTypes.find? (·.toByte = b)

theorem ItemType.ofByte_toByte (itemType : ItemType) : ofByte itemType.toByte = some itemType := by
  cases itemType <;> rfl

theorem ItemType.toByte_ne_final (itemType : ItemType) : itemType.toByte ≠ ruleItemFinal := by
  cases itemType <;> decide

/-! ## `Write` -/

/-- The error a write returns, or the panic it ends in. -/
inductive WriteError where
  | error (message : String)
  | panic (message : String)
  deriving DecidableEq, Repr

/-- `E.Cause` -/
def WriteError.cause (message : String) : WriteError → WriteError
  | .error err => .error (message ++ ": " ++ err)
  | .panic err => .panic err

/-- What a list of writes puts out, up to the first that fails. -/
def concat {ε : Type} : List (Except ε Bytes) → Except ε Bytes
  | [] => .ok []
  | w :: rest => do
      let first ← w
      let later ← concat rest
      return first ++ later

def boolByte (b : Bool) : UInt8 := if b then 1 else 0

/-- An item is written if it is present. -/
def item (present : Bool) (w : Except WriteError Bytes) : Except WriteError Bytes :=
  if present then w else .ok []

/-- An item is refused by versions before `minimum`. -/
def since (generateVersion minimum : UInt8) (message : String) (w : Except WriteError Bytes) :
    Except WriteError Bytes :=
  if generateVersion < minimum then .error (.error message) else w

/-- The tag of an item and its value. -/
def writeRuleItem {α : Type} (codec : Codec ReadError α) (itemType : ItemType) (value : α) :
    Except WriteError Bytes :=
  .ok (itemType.toByte :: codec.encode value)

section Write

variable {M A : Type} (L : Libraries M A)

def writeRuleItemString := writeRuleItem L.varbin.strings

def writeRuleItemUint8 := writeRuleItem L.varbin.bytes

def writeRuleItemUint16 := writeRuleItem L.varbin.uint16s

/-- An entry of a list of prefixes may be an address. -/
def parseEntry (ip : IPLibrary) (prefixString : String) : Except String Entry :=
  match ip.parsePrefix prefixString with
  | .ok p => .ok (.cidr p)
  | .error err =>
      match ip.parseAddr prefixString with
      | some a => .ok (.addr a)
      | none => .error err

def parseEntries (ip : IPLibrary) : Nat → List String → Except WriteError (List Entry)
  | _, [] => .ok []
  | i, prefixString :: rest =>
      match parseEntry ip prefixString with
      | .error err => .error (.cause ("parse [" ++ toString i ++ "]") (.error err))
      | .ok entry => do
          let entries ← parseEntries ip (i + 1) rest
          return entry :: entries

/-- The set `writeRuleItemCIDR` builds. -/
def cidrSet (ip : IPLibrary) (value : List String) : Except WriteError IPSet := do
  let entries ← parseEntries ip 0 value
  match ip.build entries with
  | .ok set => return set
  | .error err => .error (.error err)

def writeRuleItemCIDR (itemType : ItemType) (value : List String) : Except WriteError Bytes := do
  let set ← cidrSet L.ip value
  writeRuleItem (ipSetCodec L.varbin) itemType set

/-- The matcher that is written for `Domain` and `DomainSuffix`. -/
def domainMatcher (generateVersion : UInt8) (rule : DefaultHeadlessRule M A) : M :=
  L.domain.new (generateVersion == 1) (rule.domain, rule.domainSuffix)

variable (rule : DefaultHeadlessRule M A)

def adGuardMatcher : A := L.adGuard.new () rule.adGuardDomain

/-- The number of prefixes, and the prefixes. -/
def writePrefixes (value : List Prefix) : Bytes :=
  L.varbin.uvarint.encode value.length ++ (value.map (writePrefix L.varbin)).flatten

def writeInterfaceEntry (entry : UInt8 × List Prefix) : Bytes :=
  entry.1 :: writePrefixes L entry.2

def writeInterfaceMap (m : InterfaceMap) : Bytes :=
  L.varbin.uvarint.encode m.entries.length ++ (m.entries.map (writeInterfaceEntry L)).flatten

/-- The items of a default rule, in the order they are written. -/
def writeItems (generateVersion : UInt8) : List (Except WriteError Bytes) :=
  [ item (!rule.queryType.isEmpty) (writeRuleItemUint16 L .queryType rule.queryType),
    item (!rule.network.isEmpty) (writeRuleItemString L .network rule.network),
    item (!rule.domain.isEmpty || !rule.domainSuffix.isEmpty)
      (writeRuleItem L.domain.codec .domain (domainMatcher L generateVersion rule)),
    item (!rule.domainKeyword.isEmpty) (writeRuleItemString L .domainKeyword rule.domainKeyword),
    item (!rule.domainRegex.isEmpty) (writeRuleItemString L .domainRegex rule.domainRegex),
    item (!rule.sourceIPCIDR.isEmpty)
      ((writeRuleItemCIDR L .sourceIPCIDR rule.sourceIPCIDR).mapError (.cause "source_ip_cidr")),
    item (!rule.ipCIDR.isEmpty)
      ((writeRuleItemCIDR L .ipCIDR rule.ipCIDR).mapError (.cause "ipcidr")),
    item (!rule.sourcePort.isEmpty) (writeRuleItemUint16 L .sourcePort rule.sourcePort),
    item (!rule.sourcePortRange.isEmpty)
      (writeRuleItemString L .sourcePortRange rule.sourcePortRange),
    item (!rule.port.isEmpty) (writeRuleItemUint16 L .port rule.port),
    item (!rule.portRange.isEmpty) (writeRuleItemString L .portRange rule.portRange),
    item (!rule.processName.isEmpty) (writeRuleItemString L .processName rule.processName),
    item (!rule.processPath.isEmpty) (writeRuleItemString L .processPath rule.processPath),
    item (!rule.processPathRegex.isEmpty)
      (writeRuleItemString L .processPathRegex rule.processPathRegex),
    item (!rule.packageName.isEmpty) (writeRuleItemString L .packageName rule.packageName),
    item (!rule.packageNameRegex.isEmpty)
      (since generateVersion 5
        "`package_name_regex` rule item is only supported in version 5 or later"
        (writeRuleItemString L .packageNameRegex rule.packageNameRegex)),
    item (!rule.networkType.isEmpty)
      (since generateVersion 3 "`network_type` rule item is only supported in version 3 or later"
        (writeRuleItemUint8 L .networkType rule.networkType)), item rule.networkIsExpensive
      (since generateVersion 3
        "`network_is_expensive` rule item is only supported in version 3 or later"
        (.ok [ItemType.networkIsExpensive.toByte])), item rule.networkIsConstrained
      (since generateVersion 3
        "`network_is_constrained` rule item is only supported in version 3 or later"
        (.ok [ItemType.networkIsConstrained.toByte])),
    item (!rule.networkInterfaceAddress.entries.isEmpty)
      (since generateVersion 4
        "`network_interface_address` rule item is only supported in version 4 or later"
        (.ok (ItemType.networkInterfaceAddress.toByte ::
          writeInterfaceMap L rule.networkInterfaceAddress))),
    item (!rule.defaultInterfaceAddress.isEmpty)
      (since generateVersion 4
        "`default_interface_address` rule item is only supported in version 4 or later"
        (.ok (ItemType.defaultInterfaceAddress.toByte ::
          writePrefixes L rule.defaultInterfaceAddress))),
    item (!rule.wifiSSID.isEmpty) (writeRuleItemString L .wifiSSID rule.wifiSSID),
    item (!rule.wifiBSSID.isEmpty) (writeRuleItemString L .wifiBSSID rule.wifiBSSID),
    item (!rule.adGuardDomain.isEmpty)
      (since generateVersion 2 "AdGuard rule items is only supported in version 2 or later"
        (writeRuleItem L.adGuard.codec .adGuardDomain (adGuardMatcher L rule))) ]

def writeDefaultRule (generateVersion : UInt8) :
    Except WriteError Bytes := do
  let items ← concat (writeItems L rule generateVersion)
  return 0 :: (items ++ [ruleItemFinal, boolByte rule.invert])

def writeMode : LogicalMode → Except WriteError UInt8
  | .and => .ok 0
  | .or => .ok 1
  | .other mode => .error (.panic ("unknown logical mode: " ++ mode))

mutual

/-- `writeRule`, with `writeLogicalRule` for the logical rules. -/
def writeRule (generateVersion : UInt8) : HeadlessRule M A → Except WriteError Bytes
  | .default options => writeDefaultRule L options generateVersion
  | .logical mode rules invert => do
      let mode ← writeMode mode
      let written ← writeRules generateVersion rules
      return 1 :: mode :: (L.varbin.uvarint.encode rules.length ++ (written ++ [boolByte invert]))
  | .unknown type => .error (.panic ("unknown rule type: " ++ type))

def writeRules (generateVersion : UInt8) : List (HeadlessRule M A) → Except WriteError Bytes
  | [] => .ok []
  | rule :: rest => do
      let first ← writeRule generateVersion rule
      let later ← writeRules generateVersion rest
      return first ++ later

end

def magicBytes : Bytes := [0x53, 0x52, 0x53]

def write (rules : List (HeadlessRule M A)) (generateVersion : UInt8) :
    Except WriteError Bytes := do
  let written ← writeRules L generateVersion rules
  return magicBytes ++
    (generateVersion :: L.zlib.compress (L.varbin.uvarint.encode rules.length ++ written))

end Write

/-! ## `Read` -/

section Read

variable {M A : Type} (L : Libraries M A) (recovery : Bool)

def readBool : Reader ReadError Bool := do
  let b ← readByte .eof
  return b ≠ 0

def readRuleItemString := L.varbin.strings.decode

def readRuleItemUint8 := L.varbin.bytes.decode

def readRuleItemUint16 := L.varbin.uint16s.decode

def readPrefixes : Reader ReadError (List Prefix) := do
  let prefixCount ← L.varbin.uvarint.decode
  readTimes (fun _ => readPrefix L.varbin) 0 prefixCount

def readInterfaceEntry : Reader ReadError (UInt8 × List Prefix) := do
  let key ← readByte .eof
  let value ← readPrefixes L
  return (key, value)

/-- The entries are put into the map one after the other. -/
def readInterfaceMap : Reader ReadError InterfaceMap := do
  let size ← L.varbin.uvarint.decode
  let entries ← readTimes (fun _ => readInterfaceEntry L) 0 size
  return entries.foldl (fun m entry => m.put entry.1 entry.2) .empty

/-- The prefixes of a set, as texts. -/
def recoverCIDR (set : IPSet) : List String := (L.ip.prefixes set).map L.ip.prefixString

def readItem (rule : DefaultHeadlessRule M A) :
    ItemType → Reader ReadError (DefaultHeadlessRule M A)
  | .queryType => (fun value => { rule with queryType := value }) <$> readRuleItemUint16 L
  | .network => (fun value => { rule with network := value }) <$> readRuleItemString L
  | .domain =>
      (fun matcher =>
        let rule := { rule with domainMatcher := some matcher }
        if recovery then
          { rule with
            domain := (L.domain.dump matcher).1
            domainSuffix := (L.domain.dump matcher).2 }
        else rule) <$> L.domain.codec.decode
  | .domainKeyword => (fun value => { rule with domainKeyword := value }) <$> readRuleItemString L
  | .domainRegex => (fun value => { rule with domainRegex := value }) <$> readRuleItemString L
  | .sourceIPCIDR =>
      (fun set =>
        let rule := { rule with sourceIPSet := some set }
        if recovery then { rule with sourceIPCIDR := recoverCIDR L set } else rule) <$>
          readIPSet L.varbin
  | .ipCIDR =>
      (fun set =>
        let rule := { rule with ipSet := some set }
        if recovery then { rule with ipCIDR := recoverCIDR L set } else rule) <$>
          readIPSet L.varbin
  | .sourcePort => (fun value => { rule with sourcePort := value }) <$> readRuleItemUint16 L
  | .sourcePortRange =>
      (fun value => { rule with sourcePortRange := value }) <$> readRuleItemString L
  | .port => (fun value => { rule with port := value }) <$> readRuleItemUint16 L
  | .portRange => (fun value => { rule with portRange := value }) <$> readRuleItemString L
  | .processName => (fun value => { rule with processName := value }) <$> readRuleItemString L
  | .processPath => (fun value => { rule with processPath := value }) <$> readRuleItemString L
  | .processPathRegex =>
      (fun value => { rule with processPathRegex := value }) <$> readRuleItemString L
  | .packageName => (fun value => { rule with packageName := value }) <$> readRuleItemString L
  | .packageNameRegex =>
      (fun value => { rule with packageNameRegex := value }) <$> readRuleItemString L
  | .wifiSSID => (fun value => { rule with wifiSSID := value }) <$> readRuleItemString L
  | .wifiBSSID => (fun value => { rule with wifiBSSID := value }) <$> readRuleItemString L
  | .adGuardDomain =>
      (fun matcher =>
        let rule := { rule with adGuardDomainMatcher := some matcher }
        if recovery then { rule with adGuardDomain := L.adGuard.dump matcher } else rule) <$>
          L.adGuard.codec.decode
  | .networkType => (fun value => { rule with networkType := value }) <$> readRuleItemUint8 L
  | .networkIsExpensive => return { rule with networkIsExpensive := true }
  | .networkIsConstrained => return { rule with networkIsConstrained := true }
  | .networkInterfaceAddress =>
      (fun value => { rule with networkInterfaceAddress := value }) <$> readInterfaceMap L
  | .defaultInterfaceAddress =>
      (fun value => { rule with defaultInterfaceAddress := value }) <$> readPrefixes L

/-- The loop of `readDefaultRule`. A turn takes a byte at least, so with as many turns as there are
bytes left it ends at the end of the input at the latest. -/
def readItems : Nat → UInt8 → DefaultHeadlessRule M A →
    Reader ReadError (DefaultHeadlessRule M A)
  | 0, _, _ => throw .eof
  | turns + 1, lastItemType, rule => do
      let itemType ← readByte .eof
      if itemType = ruleItemFinal then
        let invert ← readBool
        return { rule with invert := invert }
      match ItemType.ofByte itemType with
      | none => throw (.unknownItemType itemType lastItemType)
      | some known =>
          let rule ← readItem L recovery rule known
          readItems turns itemType rule

def readDefaultRule : Reader ReadError (DefaultHeadlessRule M A) := fun bytes =>
  readItems L recovery bytes.length 0 {} bytes

def readMode : Reader ReadError LogicalMode := do
  let mode ← readByte .eof
  match mode with
  | 0 => return .and
  | 1 => return .or
  | _ => throw (.unknownMode mode)

/-- `readRule` is given. -/
def readLogicalRule (readRule : Reader ReadError (HeadlessRule M A)) :
    Reader ReadError (HeadlessRule M A) := do
  let mode ← readMode
  let length ← L.varbin.uvarint.decode
  let rules ← readTimes
    (fun i => readRule.mapError (.cause · ("read logical rule [" ++ toString i ++ "]"))) 0 length
  let invert ← readBool
  return .logical mode rules invert

/-- Rules can be nested no deeper than there are bytes left. -/
def readRule : Nat → Reader ReadError (HeadlessRule M A)
  | 0 => throw .eof
  | depth + 1 => do
      let ruleType ← readByte .eof
      match ruleType with
      | 0 => .default <$> readDefaultRule L recovery
      | 1 => readLogicalRule L (readRule depth)
      | _ => throw (.unknownRuleType ruleType)

/-- The compressed part: the number of rules, and the rules. -/
def readRules : Reader ReadError (List (HeadlessRule M A)) := fun bytes =>
  let readRule := readRule L recovery bytes.length
  (do
    let length ← L.varbin.uvarint.decode
    readTimes (fun i => readRule.mapError (.cause · ("read rule[" ++ toString i ++ "]"))) 0 length)
    bytes

def read (bytes : Bytes) : Except ReadError (RuleSetCompat M A) := do
  let (magic, bytes) ← readFull .eof .eof 3 bytes
  if magic ≠ magicBytes then .error .invalidFile
  let (version, bytes) ← readByte .eof bytes
  if version > 5 then .error (.unsupportedVersion version)
  let payload ← L.zlib.decompress bytes
  let (rules, _) ← readRules L recovery payload
  return ⟨version, rules⟩

end Read

end SingBox.Srs
