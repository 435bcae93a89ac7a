import SingBox.Lib.Slice
import SingBox.Lib.While

/-!
# The parser of ClientHello messages

`common/ja3/parser.go`. Offsets are advanced by the lengths that the record, the handshake and
its lists announce, and each is checked against what is there before it is used. The lists of
versions and of signature algorithms are not: they are read as long as they say they are.

An error comes with the ClientHello as it is at that point, as `Compute` returns both. The walk
over the extensions counts as a panic if it has not ended after as many turns as there are bytes.

* `compute_panic_iff` — the parser panics exactly when the walk comes to such a list that says
  it is longer than its extension.
-/

namespace SingBox.Ja3

open SingBox.Lib List

/-! ## Errors -/

/-- `ParseError`, with the number of the check where there is one. -/
inductive ParseError where
  | length (check : Nat)
  | contentType
  | version (check : Nat)
  | handshakeType
  | sniType
  deriving DecidableEq

def ParseError.error : ParseError → String
  | .length check => s!"length check {check} failed"
  | .contentType => "content type not matching"
  | .version check => s!"version check {check} failed"
  | .handshakeType => "handshake type not matching"
  | .sniType => "SNI type not supported"

/-- Numbers of sixteen bits are below `2 ^ 16`. -/
structure ClientHello where
  version : Nat := 0
  cipherSuites : List Nat := []
  extensions : List Nat := []
  ellipticCurves : List Nat := []
  ellipticCurvePF : Bytes := []
  versions : List Nat := []
  signatureAlgorithms : List Nat := []
  serverName : Bytes := []
  deriving DecidableEq

/-- An error, and the ClientHello that is returned with it. -/
structure Failure where
  err : ParseError
  hello : ClientHello
  deriving DecidableEq

abbrev Go (α : Type) := Except (Stop Failure) α

def fail {α : Type} (j : ClientHello) (err : ParseError) : Go α := .error (.error ⟨err, j⟩)

/-! ## Constants -/

def recordLayerHeaderLen : Nat := 5
def handshakeHeaderLen : Nat := 6
def randomDataLen : Nat := 32
def sessionIDHeaderLen : Nat := 1
def cipherSuiteHeaderLen : Nat := 2
def compressMethodHeaderLen : Nat := 1
def extensionsHeaderLen : Nat := 2
def extensionHeaderLen : Nat := 4
def sniExtensionHeaderLen : Nat := 5
def ecExtensionHeaderLen : Nat := 2
def ecpfExtensionHeaderLen : Nat := 1
def versionExtensionHeaderLen : Nat := 1
def signatureAlgorithmsExtensionHeaderLen : Nat := 2
def contentType : UInt8 := 22
def handshakeType : UInt8 := 1
def sniExtensionType : Nat := 0
def sniNameDNSHostnameType : UInt8 := 0
def ecExtensionType : Nat := 10
def ecpfExtensionType : Nat := 11
def versionExtensionType : Nat := 43
def signatureAlgorithmsExtensionType : Nat := 13

def tlsVersionBitmask : Nat := 0xFFFC
def tls13 : Nat := 0x0304

/-! ## The record and the handshake -/

/-- `uint16(s[i])<<8 | uint16(s[i+1])`. -/
def uint16 (s : Slice) (i : Nat) : Go Nat := do
  let high ← s.index i
  let low ← s.index (i + 1)
  return uint [high, low]

def unsupported (version : Nat) : Prop :=
  version &&& tlsVersionBitmask ≠ 0x0300 ∧ version ≠ tls13

instance (version : Nat) : Decidable (unsupported version) :=
  inferInstanceAs (Decidable (_ ∧ _))

variable (bound : Bound) (j : ClientHello)

/-- `parseSegment`, up to the handshake. -/
def handshake (segment : Slice) : Go Slice := do
  if segment.len < recordLayerHeaderLen then fail j (.length 1) else do
  let contType ← segment.index 0
  if contType ≠ contentType then fail j .contentType else do
  let tlsRecordVersion ← uint16 segment 1
  if unsupported tlsRecordVersion then fail j (.version 1) else do
  let segmentLen ← uint16 segment 3
  let rest ← segment.slice bound recordLayerHeaderLen segment.len
  if rest.len < segmentLen then fail j (.length 2) else
  segment.slice bound recordLayerHeaderLen (recordLayerHeaderLen + segmentLen)

/-- `parseHandshake`, up to the cipher suites: the version is set. -/
def cipherSuiteList (hs : Slice) : Go (ClientHello × Slice) := do
  let fixed := handshakeHeaderLen + randomDataLen + sessionIDHeaderLen
  if hs.len < fixed then fail j (.length 3) else do
  let handshType ← hs.index 0
  if handshType ≠ handshakeType then fail j .handshakeType else do
  let b1 ← hs.index 1
  let b2 ← hs.index 2
  let b3 ← hs.index 3
  let handshakeLen := uint [b1, b2, b3]
  let body ← hs.slice bound 4 hs.len
  if body.len ≠ handshakeLen then fail j (.length 4) else do
  let tlsVersion ← uint16 hs 4
  if unsupported tlsVersion then fail j (.version 2) else do
  let j := { j with version := tlsVersion }
  let sessionIDLen ← hs.index 38
  if hs.len < fixed + sessionIDLen.toNat then fail j (.length 5) else do
  let cs ← hs.slice bound (fixed + sessionIDLen.toNat) hs.len
  return (j, cs)

/-- `parseHandshake`, from the cipher suites to the extensions. -/
def extensionList (cs : Slice) : Go (ClientHello × Slice) := do
  if cs.len < cipherSuiteHeaderLen then fail j (.length 6) else do
  let csLen ← uint16 cs 0
  let numCiphers := csLen / 2
  let suites := cipherSuiteHeaderLen + csLen + compressMethodHeaderLen
  if cs.len < suites then fail j (.length 7) else do
  let cipherSuites ← (range numCiphers).mapM fun i => do
    let high ← cs.index (2 + (i <<< 1))
    let low ← cs.index (3 + (i <<< 1))
    return uint [high, low]
  let j := { j with cipherSuites := cipherSuites }
  let compressMethodLen ← cs.index (cipherSuiteHeaderLen + csLen)
  if cs.len < suites + compressMethodLen.toNat then fail j (.length 8) else do
  let exs ← cs.slice bound (suites + compressMethodLen.toNat) cs.len
  return (j, exs)

/-! ## Extensions -/

/-- What the walk over the extensions has found. -/
structure Found where
  sni : Bytes := []
  extensions : List Nat := []
  ellipticCurves : List Nat := []
  ellipticCurvePF : Bytes := []
  versions : List Nat := []
  signatureAlgorithms : List Nat := []

def serverName (sex : Slice) (found : Found) : Go Found := do
  if sex.len < sniExtensionHeaderLen then fail j (.length 13) else do
  let sniType ← sex.index 2
  let sniLen ← uint16 sex 3
  let sex ← sex.slice bound sniExtensionHeaderLen sex.len
  if sex.len ≠ sniLen then fail j (.length 14) else
  if sniType = sniNameDNSHostnameType then return { found with sni := sex.bytes }
  else fail j .sniType

def supportedGroups (sex : Slice) (found : Found) :
    Go Found := do
  if sex.len < ecExtensionHeaderLen then fail j (.length 15) else do
  let ecsLen ← uint16 sex 0
  let numCurves := ecsLen / 2
  let sex ← sex.slice bound ecExtensionHeaderLen sex.len
  if sex.len ≠ ecsLen then fail j (.length 16) else do
  let ellipticCurves ← (range numCurves).mapM fun i => uint16 sex (i * 2)
  return { found with ellipticCurves := ellipticCurves }

def pointFormats (sex : Slice) (found : Found) : Go Found := do
  if sex.len < ecpfExtensionHeaderLen then fail j (.length 17) else do
  let numPF ← sex.index 0
  let sex ← sex.slice bound ecpfExtensionHeaderLen sex.len
  if sex.len ≠ numPF.toNat then fail j (.length 18) else do
  let ellipticCurvePF ← (range numPF.toNat).mapM fun i => sex.index i
  return { found with ellipticCurvePF := ellipticCurvePF }

/-- `binary.BigEndian.Uint16(sex[header:][i:])`. -/
def uint16After (sex : Slice) (header i : Nat) : Go Nat := do
  let list ← sex.slice bound header sex.len
  let rest ← list.slice bound i list.len
  rest.readUint 2

/-- `for i := 0; i < length; i += 2`, over the list after a header. -/
def uint16List (sex : Slice) (header length : Nat) : Go (List Nat) :=
  (range ((length + 1) / 2)).mapM fun turn => uint16After bound sex header (2 * turn)

def supportedVersions (sex : Slice) (found : Found) :
    Go Found := do
  if sex.len < versionExtensionHeaderLen then fail j (.length 19) else do
  let versionsLen ← sex.index 0
  -- the length is not compared with that of the extension
  let versions ← uint16List bound sex 1 versionsLen.toNat
  return { found with versions := found.versions ++ versions }

def signatureAlgorithms (bound : Bound) (j : ClientHello) (sex : Slice) (found : Found) :
    Go Found := do
  if sex.len < signatureAlgorithmsExtensionHeaderLen then fail j (.length 20) else do
  let ssaLen ← sex.readUint 2
  let algorithms ← uint16List bound sex 2 ssaLen
  return { found with signatureAlgorithms := found.signatureAlgorithms ++ algorithms }

/-- The `switch` over the type of an extension. -/
def extension (exType : Nat) (sex : Slice) (found : Found) : Go Found :=
  if exType = sniExtensionType then serverName bound j sex found
  else if exType = ecExtensionType then supportedGroups bound j sex found
  else if exType = ecpfExtensionType then pointFormats bound j sex found
  else if exType = versionExtensionType then supportedVersions bound j sex found
  else if exType = signatureAlgorithmsExtensionType then signatureAlgorithms bound j sex found
  else return found

/-- The walk: the extensions that are left. -/
structure Walk where
  exs : Slice
  found : Found

/-- The type and the body of the next extension. -/
def extensionHeader (exs : Slice) : Go (Nat × Slice) := do
  if exs.len < extensionHeaderLen then fail j (.length 11) else do
  let exType ← uint16 exs 0
  let exLen ← uint16 exs 2
  if exs.len < extensionHeaderLen + exLen then fail j (.length 12) else do
  let sex ← exs.slice bound extensionHeaderLen (extensionHeaderLen + exLen)
  return (exType, sex)

/-- The body of the loop. The offset of the next extension is a number of sixteen bits. -/
def nextExtension (walk : Walk) : Go Walk := do
  let (exType, sex) ← extensionHeader bound j walk.exs
  let found := { walk.found with extensions := walk.found.extensions ++ [exType] }
  let found ← extension bound j exType sex found
  let exs ← walk.exs.slice bound ((4 + sex.len) % 65536) walk.exs.len
  return ⟨exs, found⟩

def extensionTurn (walk : Walk) : Turn Walk (Go Found) :=
  if walk.exs.len = 0 then .stop walk (.ok walk.found)
  else
    match nextExtension bound j walk with
    | .ok walk => .next walk
    | .error stop => .stop walk (.error stop)

def walkExtensions (exs : Slice) : Go Found :=
  match turns (extensionTurn bound j) (exs.len + 1) ⟨exs, {}⟩ with
  | some (_, result) => result
  | none => .error .panic

/-- The extensions without their length. -/
def extensionBlock (exs : Slice) : Go Slice := do
  if exs.len < extensionsHeaderLen then fail j (.length 9) else do
  let exsLen ← uint16 exs 0
  let exs ← exs.slice bound extensionsHeaderLen exs.len
  if exs.len < exsLen then fail j (.length 10) else return exs

def parseExtensions (exs : Slice) : Go ClientHello :=
  if exs.len = 0 then return j
  else do
    let exs ← extensionBlock bound j exs
    let found ← walkExtensions bound j exs
    return { j with
      serverName := found.sni
      extensions := found.extensions
      ellipticCurves := found.ellipticCurves
      ellipticCurvePF := found.ellipticCurvePF
      versions := found.versions
      signatureAlgorithms := found.signatureAlgorithms }

def parseHandshake (hs : Slice) : Go ClientHello := do
  let (j, cs) ← cipherSuiteList bound j hs
  let (j, exs) ← extensionList bound j cs
  parseExtensions bound j exs

def parseSegment (segment : Slice) : Go ClientHello := do
  let hs ← handshake bound j segment
  parseHandshake bound j hs

def compute (payload : Slice) : Go ClientHello := parseSegment bound {} payload

/-! ## Bounds -/

/-- A list of versions or of signature algorithms that says it is longer than it is. The loop
takes two bytes at a time, so that an odd length is rounded up. -/
def Overlong (exType : Nat) (sex : Slice) : Prop :=
  exType = versionExtensionType ∧
      (∃ length, sex.bytes[0]? = some length ∧ sex.len < 1 + 2 * ((length.toNat + 1) / 2)) ∨
    exType = signatureAlgorithmsExtensionType ∧ 2 ≤ sex.len ∧
      sex.len < 2 + 2 * ((uint (sex.bytes.take 2) + 1) / 2)

section

variable {bound : Bound} {j : ClientHello} {s : Slice}

theorem uint16_holds {i : Nat} (h : i + 1 < s.len) :
    Satisfies (fun n => n < 65536) (uint16 s i) := by
  refine (Satisfies.index (Nat.lt_of_succ_lt h)).bind fun high _ => ?_
  refine (Satisfies.index h).bind fun low _ => ?_
  have lt : uint [high, low] < 256 ^ 2 := uint_lt [high, low]
  exact .pure _ (Nat.lt_of_lt_of_eq lt (by norm_num))

theorem slice_holds {low high : Nat} (le : low ≤ high) (h : high ≤ s.len) :
    Satisfies (fun t => t.len = high - low) (s.slice bound low high : Go Slice) :=
  Satisfies.slice le (Nat.le_trans h (s.le_limit bound))

/-- A record holds a handshake of at most `2 ^ 16 - 1` bytes. -/
theorem handshake_holds :
    Satisfies (fun hs => hs.len < 65536) (handshake bound j s) := by
  refine .refuse_lt fun (long : 5 ≤ s.len) => ?_
  refine .byte (by omega) fun contType => ?_
  refine .refuse fun _ => ?_
  refine (uint16_holds (by omega)).bind fun tlsRecordVersion _ => ?_
  refine .refuse fun _ => ?_
  refine (uint16_holds (by omega)).bind fun segmentLen lt => ?_
  refine (slice_holds long (Nat.le_refl _)).bind fun rest len => ?_
  refine .refuse fun whole => ?_
  have five : recordLayerHeaderLen = 5 := rfl
  exact (slice_holds (by omega) (by omega)).mono fun hs len => by omega

theorem cipherSuiteList_holds :
    Satisfies (fun result => result.2.len ≤ s.len) (cipherSuiteList bound j s) := by
  refine .refuse_lt fun (long : 39 ≤ s.len) => ?_
  refine .byte (by omega) fun handshType => ?_
  refine .refuse fun _ => ?_
  refine .byte (by omega) fun b1 => ?_
  refine .byte (by omega) fun b2 => ?_
  refine .byte (by omega) fun b3 => ?_
  refine (slice_holds (by omega) (Nat.le_refl _)).bind fun body _ => ?_
  refine .refuse fun _ => ?_
  refine (uint16_holds (by omega)).bind fun tlsVersion _ => ?_
  refine .refuse fun _ => ?_
  refine .byte (by omega) fun sessionIDLen => ?_
  refine .refuse fun whole => ?_
  refine (slice_holds (Nat.le_of_not_lt whole) (Nat.le_refl _)).bind fun cs len => ?_
  exact .pure _ (by show cs.len ≤ s.len; omega)

theorem extensionList_holds :
    Satisfies (fun result => result.2.len ≤ s.len) (extensionList bound j s) := by
  refine .refuse fun short => ?_
  have two : cipherSuiteHeaderLen = 2 := rfl
  have one : compressMethodHeaderLen = 1 := rfl
  refine (uint16_holds (by omega)).bind fun csLen _ => ?_
  refine .refuse fun whole => ?_
  refine (Satisfies.mapM fun i mem => ?_).bind fun cipherSuites _ => ?_
  · have lt := mem_range.mp mem
    refine .byte (by omega) fun high => ?_
    exact .byte (by omega) fun low => .pure _ trivial
  · refine .byte (by omega) fun compressMethodLen => ?_
    refine .refuse fun rest => ?_
    refine (slice_holds (Nat.le_of_not_lt rest) (Nat.le_refl _)).bind fun exs len => ?_
    exact .pure _ (by show exs.len ≤ s.len; omega)

theorem extensionBlock_holds :
    Satisfies (fun exs => exs.len ≤ s.len) (extensionBlock bound j s) := by
  refine .refuse_lt fun (long : 2 ≤ s.len) => ?_
  refine (uint16_holds (by omega)).bind fun exsLen _ => ?_
  refine (slice_holds long (Nat.le_refl _)).bind fun exs len => ?_
  exact .refuse fun _ => .pure _ (by omega)

/-! ### One extension -/

theorem serverName_holds (found : Found) :
    Satisfies (fun _ => True) (serverName bound j s found) := by
  refine .refuse_lt fun (long : 5 ≤ s.len) => ?_
  refine .byte (by omega) fun sniType => ?_
  refine (uint16_holds (by omega)).bind fun sniLen _ => ?_
  refine (slice_holds long (Nat.le_refl _)).bind fun sex _ => ?_
  refine .refuse fun _ => ?_
  exact .ite _ (fun _ => .pure _ trivial) fun _ => .error _

theorem supportedGroups_holds (found : Found) :
    Satisfies (fun _ => True) (supportedGroups bound j s found) := by
  refine .refuse_lt fun (long : 2 ≤ s.len) => ?_
  refine (uint16_holds (by omega)).bind fun ecsLen _ => ?_
  refine (slice_holds long (Nat.le_refl _)).bind fun sex _ => ?_
  refine .refuse fun whole => ?_
  refine (Satisfies.mapM fun i mem => ?_).bind fun _ _ => .pure _ trivial
  have lt := mem_range.mp mem
  exact (uint16_holds (by omega)).mono fun _ _ => trivial

theorem pointFormats_holds (found : Found) :
    Satisfies (fun _ => True) (pointFormats bound j s found) := by
  refine .refuse_lt fun (long : 1 ≤ s.len) => ?_
  refine .byte (by omega) fun numPF => ?_
  refine (slice_holds long (Nat.le_refl _)).bind fun sex _ => ?_
  refine .refuse fun whole => ?_
  refine (Satisfies.mapM fun i mem => ?_).bind fun _ _ => .pure _ trivial
  have lt := mem_range.mp mem
  exact .index_inside (by omega)

/-- Behind the end of the extension, the slice expression or the read panics. -/
theorem uint16After_eq {header i : Nat} (le : header ≤ s.len) :
    ∃ n, uint16After bound s header i =
      if header + i + 2 ≤ s.len then .ok n else .error .panic := by
  obtain ⟨list, eq, len⟩ := Slice.exists_slice (ε := Failure) le bound
  rw [uint16After, eq]
  show ∃ n, (list.slice bound i list.len >>= fun rest => rest.readUint 2) = _
  by_cases start : i ≤ list.len
  · obtain ⟨rest, eq', len'⟩ := Slice.exists_slice (ε := Failure) start bound
    rw [eq']
    exact ⟨uint (rest.bytes.take 2), if_congr (by omega) rfl rfl⟩
  · rw [Slice.slice, dif_neg fun fits => start fits.1]
    exact ⟨0, (if_neg (by omega)).symm⟩

theorem uint16List_panic_iff {header length : Nat} (le : header ≤ s.len) :
    uint16List bound s header length = .error .panic ↔
      s.len < header + 2 * ((length + 1) / 2) := by
  refine (mapM_panic_iff fun turn _ => uint16After_eq le).trans ⟨?_, fun exceeds => ?_⟩
  · rintro ⟨turn, mem, outside⟩
    have lt := mem_range.mp mem
    omega
  · exact ⟨(length + 1) / 2 - 1, mem_range.mpr (by omega), by omega⟩

theorem supportedVersions_panic_iff (found : Found) :
    supportedVersions bound j s found = .error .panic ↔
      ∃ length, s.bytes[0]? = some length ∧ s.len < 1 + 2 * ((length.toNat + 1) / 2) := by
  refine refuse_panic_iff.trans ?_
  cases first : s.bytes[0]? with
  | none =>
    have short : s.len < 1 := by
      rw [← s.length_bytes]
      exact Nat.lt_succ_of_le (List.getElem?_eq_none_iff.mp first)
    exact iff_of_false (fun h => h.1 short) (by simp)
  | some length =>
    have long : 1 ≤ s.len := by
      rw [← s.length_bytes]
      exact (List.getElem?_eq_some_iff.mp first).1
    have index : (s.index 0 : Go UInt8) = .ok length := by rw [Slice.index, first]
    rw [index, and_iff_right (show ¬ s.len < versionExtensionHeaderLen from Nat.not_lt.mpr long)]
    simp only [Option.some.injEq, exists_eq_left']
    exact bind_pure_panic_iff.trans (uint16List_panic_iff long)

theorem signatureAlgorithms_panic_iff (found : Found) :
    signatureAlgorithms bound j s found = .error .panic ↔
      2 ≤ s.len ∧ s.len < 2 + 2 * ((uint (s.bytes.take 2) + 1) / 2) := by
  refine refuse_panic_iff.trans ((and_congr_left' Nat.not_lt).trans (and_congr_right fun long => ?_))
  have read : (s.readUint 2 : Go Nat) = .ok (uint (s.bytes.take 2)) := if_pos long
  rw [read]
  exact bind_pure_panic_iff.trans (uint16List_panic_iff long)

theorem extension_panic_iff {exType : Nat} (found : Found) :
    extension bound j exType s found = .error .panic ↔ Overlong exType s := by
  have plain (noVersions : exType ≠ versionExtensionType)
      (noAlgorithms : exType ≠ signatureAlgorithmsExtensionType) : ¬ Overlong exType s := by
    simp [Overlong, noVersions, noAlgorithms]
  unfold extension
  split_ifs with name groups points versions algorithms
  · exact iff_of_false (serverName_holds found).ne_panic (plain (name ▸ by decide) (name ▸ by decide))
  · exact iff_of_false (supportedGroups_holds found).ne_panic
      (plain (groups ▸ by decide) (groups ▸ by decide))
  · exact iff_of_false (pointFormats_holds found).ne_panic
      (plain (points ▸ by decide) (points ▸ by decide))
  · rw [supportedVersions_panic_iff, Overlong, versions]
    simp [versionExtensionType, signatureAlgorithmsExtensionType]
  · rw [signatureAlgorithms_panic_iff, Overlong, algorithms]
    simp [versionExtensionType, signatureAlgorithmsExtensionType]
  · exact iff_of_false nofun (plain versions algorithms)

/-! ### The walk -/

/-- The next extension holds a list that is too long. -/
def Walk.Overruns (bound : Bound) (j : ClientHello) (walk : Walk) : Prop :=
  ∃ exType sex, extensionHeader bound j walk.exs = .ok (exType, sex) ∧ Overlong exType sex

theorem extensionHeader_holds :
    Satisfies (fun header => 4 + header.2.len ≤ s.len) (extensionHeader bound j s) := by
  refine .refuse fun short => ?_
  have four : extensionHeaderLen = 4 := rfl
  refine (uint16_holds (by omega)).bind fun exType _ => ?_
  refine (uint16_holds (by omega)).bind fun exLen _ => ?_
  refine .refuse fun whole => ?_
  refine (slice_holds (by omega) (by omega)).bind fun sex len => ?_
  exact .pure _ (by show 4 + sex.len ≤ s.len; omega)

variable {walk : Walk}

/-- An extension whose lists are as long as they say leaves fewer bytes. The sum of sixteen bits
does not overflow, as the whole record is not longer than that. -/
theorem nextExtension_holds (small : walk.exs.len < 65536) (fits : ¬ walk.Overruns bound j) :
    Satisfies (fun next => next.exs.len < walk.exs.len) (nextExtension bound j walk) := by
  refine extensionHeader_holds.bind_eq fun header read len => ?_
  have runs (found : Found) : extension bound j header.1 header.2 found ≠ .error .panic :=
    fun panics => fits ⟨_, _, read, (extension_panic_iff found).mp panics⟩
  refine (satisfies_true.mpr (runs _)).bind fun found _ => ?_
  refine (slice_holds (by omega) (Nat.le_refl _)).bind fun exs left => ?_
  exact .pure _ (by show exs.len < walk.exs.len; omega)

theorem nextExtension_panic (exceeds : walk.Overruns bound j) :
    nextExtension bound j walk = .error .panic := by
  obtain ⟨exType, sex, read, exceeds⟩ := exceeds
  rw [nextExtension, read]
  show (extension bound j exType sex _ >>= _) = _
  rw [(extension_panic_iff _).mpr exceeds]
  rfl

theorem extensionTurn_leaves (small : walk.exs.len < 65536) :
    (extensionTurn bound j walk).Leaves
      (fun next => (next.exs.len < 65536 ∧ next.exs.len < walk.exs.len) ∧ ¬ walk.Overruns bound j)
      fun _ result => result = .error .panic ↔ walk.Overruns bound j := by
  by_cases exceeds : walk.Overruns bound j
  · have nonempty : walk.exs.len ≠ 0 := by
      obtain ⟨exType, sex, read, -⟩ := exceeds
      have inside := extensionHeader_holds.ok read
      omega
    rw [extensionTurn, if_neg nonempty, nextExtension_panic exceeds]
    exact iff_of_true rfl exceeds
  · have holds := nextExtension_holds small exceeds
    unfold extensionTurn
    split_ifs
    · exact iff_of_false nofun exceeds
    · cases result : nextExtension bound j walk with
      | ok next =>
        have less := holds.ok result
        exact ⟨⟨Nat.lt_trans less small, less⟩, exceeds⟩
      | error stop =>
        rw [result] at holds
        refine iff_of_false (fun panics => ?_) exceeds
        cases panics
        exact holds

theorem walkExtensions_panic_iff (small : s.len < 65536) :
    walkExtensions bound j s = .error .panic ↔
      ∃ walk, Visits (extensionTurn bound j) ⟨s, {}⟩ walk ∧ walk.Overruns bound j := by
  have init : (⟨s, {}⟩ : Walk).exs.len < 65536 := small
  obtain ⟨last, result, run, panics⟩ := @turns_visits _ _ (extensionTurn bound j) _ _ _
    (fun walk => walk.exs.len) (fun walk => extensionTurn_leaves) _ init
  rw [walkExtensions, run (s.len + 1) (Nat.lt_succ_self _)]
  exact panics

/-- The parser comes to an extension with a list that is too long. -/
def Overruns (bound : Bound) (payload : Slice) : Prop :=
  ∃ hs, handshake bound {} payload = .ok hs ∧
  ∃ j cs, cipherSuiteList bound {} hs = .ok (j, cs) ∧
  ∃ j' exs, extensionList bound j cs = .ok (j', exs) ∧ exs.len ≠ 0 ∧
  ∃ block, extensionBlock bound j' exs = .ok block ∧
  ∃ walk, Visits (extensionTurn bound j') ⟨block, {}⟩ walk ∧ walk.Overruns bound j'

theorem parseExtensions_panic_iff (small : s.len < 65536) :
    parseExtensions bound j s = .error .panic ↔ s.len ≠ 0 ∧
      ∃ block, extensionBlock bound j s = .ok block ∧
      ∃ walk, Visits (extensionTurn bound j) ⟨block, {}⟩ walk ∧ walk.Overruns bound j := by
  unfold parseExtensions
  split_ifs with empty
  · constructor
    · intro h
      cases h
    · rintro ⟨nonempty, -⟩
      exact absurd empty nonempty
  · have block_iff : ∀ block, extensionBlock bound j s = .ok block →
        (walkExtensions bound j block = .error .panic ↔
          ∃ walk, Visits (extensionTurn bound j) ⟨block, {}⟩ walk ∧ walk.Overruns bound j) :=
      fun block eq =>
        walkExtensions_panic_iff (Nat.lt_of_le_of_lt (extensionBlock_holds.ok eq) small)
    simp only [bind_panic_iff extensionBlock_holds, bind_pure_panic_iff]
    constructor
    · rintro ⟨block, eq, panics⟩
      exact ⟨empty, block, eq, (block_iff block eq).mp panics⟩
    · rintro ⟨-, block, eq, exceeds⟩
      exact ⟨block, eq, (block_iff block eq).mpr exceeds⟩

end

/-- The parser ends and stays inside its input, except where it comes to a list of versions or of
signature algorithms that says it is longer than its extension. -/
theorem compute_panic_iff (bound : Bound) (payload : Slice) :
    compute bound payload = .error .panic ↔ Overruns bound payload := by
  -- the extensions are a part of the record, which has at most `2 ^ 16 - 1` bytes
  have small {hs cs exs : Slice} {j j' : ClientHello} (first : handshake bound {} payload = .ok hs)
      (second : cipherSuiteList bound {} hs = .ok (j, cs))
      (third : extensionList bound j cs = .ok (j', exs)) : exs.len < 65536 := by
    have whole := handshake_holds.ok first
    have suites := cipherSuiteList_holds.ok second
    have rest := extensionList_holds.ok third
    exact Nat.lt_of_le_of_lt (Nat.le_trans rest suites) whole
  constructor
  · intro panics
    obtain ⟨hs, first, panics⟩ := (bind_panic_iff handshake_holds).mp panics
    obtain ⟨⟨j, cs⟩, second, panics⟩ := (bind_panic_iff cipherSuiteList_holds).mp panics
    obtain ⟨⟨j', exs⟩, third, panics⟩ := (bind_panic_iff extensionList_holds).mp panics
    have exceeds := (parseExtensions_panic_iff (small first second third)).mp panics
    exact ⟨hs, first, j, cs, second, j', exs, third, exceeds⟩
  · rintro ⟨hs, first, j, cs, second, j', exs, third, exceeds⟩
    have panics := (parseExtensions_panic_iff (small first second third)).mpr exceeds
    refine (bind_panic_iff handshake_holds).mpr ⟨hs, first, ?_⟩
    refine (bind_panic_iff cipherSuiteList_holds).mpr ⟨_, second, ?_⟩
    exact (bind_panic_iff extensionList_holds).mpr ⟨_, third, panics⟩

/-- A ClientHello without cipher suites, with some extensions. -/
def helloRecord (extensions : Bytes) : Bytes :=
  let body := [3, 3] ++ replicate 32 0 ++ [0, 0, 0, 0] ++ putUint 2 extensions.length ++
    extensions
  let hs := [1] ++ putUint 3 body.length ++ body
  [22, 3, 1] ++ putUint 2 hs.length ++ hs

/-- One version is announced and none follows. -/
theorem versions_outside :
    compute .capacity (Slice.ofBytes (helloRecord [0, 43, 0, 1, 2])) = .error .panic ∧
    compute .capacity (Slice.ofBytes (helloRecord [0, 43, 0, 3, 2, 3, 4])) =
      .ok { version := 0x0303, extensions := [43], versions := [0x0304] } := by
  decide

end SingBox.Ja3
