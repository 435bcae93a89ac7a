import SingBox.Lib.Slice
import SingBox.Lib.While

/-!
# Where the server name is

`common/tlsfragment/index.go`: three parsers, one inside the other, add up the offset of the
server name in a record. `nil` is an error without a text. The walk over the extensions counts as
a panic if it has not ended after as many turns as there are bytes.

* `search_sound_iff` — the search ends, no access is out of bounds, and the name that is returned
  stands at the offset that is returned, exactly if the walk does not come to an extension of 65532
  bytes, and to a name after longer ones only if its bytes stand once more where it is looked for.
-/

namespace SingBox.TlsFragment

open SingBox.Lib List Nat

/-! ## Constants -/

def recordLayerHeaderLen : Nat := 5
def handshakeHeaderLen : Nat := 6
def randomDataLen : Nat := 32
def sessionIDHeaderLen : Nat := 1
def cipherSuiteHeaderLen : Nat := 2
def compressMethodHeaderLen : Nat := 1
def extensionsHeaderLen : Nat := 2
def extensionHeaderLen : Nat := 4
def sniExtensionHeaderLen : Nat := 5
def contentType : UInt8 := 22
def handshakeType : UInt8 := 1
def sniExtensionType : Nat := 0
def sniNameDNSHostnameType : UInt8 := 0
def tlsVersionBitmask : Nat := 0xFFFC
def tls13 : Nat := 0x0304

/-! ## Parsers -/

structure MyServerName where
  index : Nat
  length : Nat
  serverName : Bytes
  extensionsListLengthIndex : Nat := 0
  deriving DecidableEq

/-- A pointer that may be `nil`. -/
abbrev Found (α : Type) := Except (Stop Unit) α

def nil {α : Type} : Found α := .error (.error ())

/-- `uint16(s[i])<<8 | uint16(s[i+1])`. -/
def uint16 (s : Slice) (i : Nat) : Found Nat := do
  let high ← s.index i
  let low ← s.index (i + 1)
  return uint [high, low]

/-- The place in the list of extensions. -/
structure Walk where
  exs : Slice
  currentIndex : Nat

variable (bound : Bound)

/-- The body of an extension with a server name. -/
def sniExtension (currentIndex : Nat) (sex : Slice) : Found MyServerName := do
  if sex.len < sniExtensionHeaderLen then nil else do
  let sniType ← sex.index 2
  if sniType ≠ sniNameDNSHostnameType then nil else do
  let sniLen ← uint16 sex 3
  let sex ← sex.slice bound sniExtensionHeaderLen sex.len
  return { index := currentIndex + extensionHeaderLen + sniExtensionHeaderLen
           length := sniLen
           serverName := sex.bytes }

/-- The body of the loop: the name, or the rest of the list. The offset of the next extension is
a number of sixteen bits. -/
def nextExtension (walk : Walk) : Found (MyServerName ⊕ Walk) := do
  let exs := walk.exs
  if exs.len < extensionHeaderLen then nil else do
  let exType ← uint16 exs 0
  let exLen ← uint16 exs 2
  if exs.len < extensionHeaderLen + exLen then nil else do
  let sex ← exs.slice bound extensionHeaderLen (extensionHeaderLen + exLen)
  if exType = sniExtensionType then do
    let name ← sniExtension bound walk.currentIndex sex
    return .inl name
  else do
    let exs ← exs.slice bound ((4 + exLen) % 65536) exs.len
    return .inr ⟨exs, walk.currentIndex + (4 + exLen)⟩

def extensionTurn (walk : Walk) : Turn Walk (Found MyServerName) :=
  if walk.exs.len = 0 then .stop walk nil
  else
    match nextExtension bound walk with
    | .ok (.inl name) => .stop walk (.ok name)
    | .ok (.inr walk) => .next walk
    | .error stop => .stop walk (.error stop)

/-- The loop over the extensions. -/
def walkExtensions (exs : Slice) : Found MyServerName :=
  match turns (extensionTurn bound) (exs.len + 1) ⟨exs, extensionsHeaderLen⟩ with
  | some (_, result) => result
  -- every turn takes something off the list, or the loop does not end
  | none => .error .panic

/-- The list of extensions without its header. -/
def extensionsList (exs : Slice) : Found Slice := do
  if exs.len = 0 then nil else do
  if exs.len < extensionsHeaderLen then nil else do
  let exsLen ← uint16 exs 0
  let exs ← exs.slice bound extensionsHeaderLen exs.len
  if exs.len < exsLen then nil else
  return exs

def indexTLSServerNameFromExtensions (exs : Slice) : Found MyServerName := do
  let exs ← extensionsList bound exs
  walkExtensions bound exs

/-- Where the extensions of a handshake begin, and what there is from there on. -/
def handshakeExtensions (handshake : Slice) : Found (Nat × Slice) := do
  if handshake.len < handshakeHeaderLen + randomDataLen + sessionIDHeaderLen then nil else do
  let handshType ← handshake.index 0
  if handshType ≠ handshakeType then nil else do
  let b1 ← handshake.index 1
  let b2 ← handshake.index 2
  let b3 ← handshake.index 3
  let handshakeLen := uint [b1, b2, b3]
  let body ← handshake.slice bound 4 handshake.len
  if body.len ≠ handshakeLen then nil else do
  let tlsVersion ← uint16 handshake 4
  if tlsVersion &&& tlsVersionBitmask ≠ 0x0300 ∧ tlsVersion ≠ tls13 then nil else do
  let sessionIDLen ← handshake.index 38
  let currentIndex := handshakeHeaderLen + randomDataLen + sessionIDHeaderLen + sessionIDLen.toNat
  if handshake.len < currentIndex then nil else do
  let cipherSuites ← handshake.slice bound currentIndex handshake.len
  if cipherSuites.len < cipherSuiteHeaderLen then nil else do
  let csLen ← uint16 cipherSuites 0
  if cipherSuites.len < cipherSuiteHeaderLen + csLen + compressMethodHeaderLen then nil else do
  let compressMethodLen ← cipherSuites.index (cipherSuiteHeaderLen + csLen)
  let currentIndex := currentIndex +
    (cipherSuiteHeaderLen + csLen + compressMethodHeaderLen + compressMethodLen.toNat)
  if handshake.len < currentIndex then nil else do
  let exs ← handshake.slice bound currentIndex handshake.len
  return (currentIndex, exs)

def indexTLSServerNameFromHandshake (handshake : Slice) : Found MyServerName := do
  let (currentIndex, exs) ← handshakeExtensions bound handshake
  let serverName ← indexTLSServerNameFromExtensions bound exs
  return { serverName with
    index := serverName.index + currentIndex
    extensionsListLengthIndex := currentIndex }

/-- What there is behind the record header. -/
def recordHandshake (payload : Slice) : Found Slice := do
  if payload.len < recordLayerHeaderLen then nil else do
  let contType ← payload.index 0
  if contType ≠ contentType then nil else do
  let length ← payload.slice bound 3 5
  let segmentLen ← length.readUint 2
  if payload.len < recordLayerHeaderLen + segmentLen then nil else do
  payload.slice bound recordLayerHeaderLen payload.len

def indexTLSServerName (payload : Slice) : Found MyServerName := do
  let handshake ← recordHandshake bound payload
  let serverName ← indexTLSServerNameFromHandshake bound handshake
  return { serverName with
    index := serverName.index + recordLayerHeaderLen
    extensionsListLengthIndex := serverName.extensionsListLengthIndex + recordLayerHeaderLen }

/-! ## The headers -/

/-- The offset of the extensions in the payload, and their list. -/
def extensionsOf (payload : Slice) : Found (Nat × Slice) := do
  let handshake ← recordHandshake bound payload
  let (currentIndex, exs) ← handshakeExtensions bound handshake
  let list ← extensionsList bound exs
  return (currentIndex + recordLayerHeaderLen, list)

/-- The search is the walk over that list; the offset is added to what it finds. -/
theorem indexTLSServerName_eq (payload : Slice) :
    indexTLSServerName bound payload = extensionsOf bound payload >>= fun found =>
      walkExtensions bound found.2 >>= fun name => return { name with
        index := name.index + found.1
        extensionsListLengthIndex := found.1 } := by
  simp only [indexTLSServerName, indexTLSServerNameFromHandshake,
    indexTLSServerNameFromExtensions, extensionsOf, bind_assoc, pure_bind, Nat.add_assoc]

section

variable {bound : Bound} {payload s : Slice} {start : Nat}

theorem uint16_eq {i : Nat} (h : i + 1 < s.len) :
    uint16 s i = .ok (uint ((s.bytes.drop i).take 2)) := by
  have first : i < s.bytes.length := by rw [Slice.length_bytes]; omega
  have second : i + 1 < s.bytes.length := by rwa [Slice.length_bytes]
  have here : s.bytes.drop i = s.bytes[i] :: s.bytes[i + 1] :: s.bytes.drop (i + 2) := by
    rw [drop_eq_getElem_cons first, drop_eq_getElem_cons second]
  simp only [uint16, Slice.index, getElem?_eq_getElem first, getElem?_eq_getElem second, here]
  rfl

theorem uint16_holds {i : Nat} (h : i + 1 < s.len) :
    Satisfies (fun n => n = uint ((s.bytes.drop i).take 2)) (uint16 s i) := by
  rw [uint16_eq h]
  rfl

theorem extensionsList_holds (part : payload.At s start) :
    Satisfies (fun list => payload.At list (start + 2)) (extensionsList bound s) := by
  refine .refuse fun _ => .refuse_lt fun (long : 2 ≤ s.len) => ?_
  refine (uint16_holds (by omega)).bind fun exsLen _ => ?_
  refine (Satisfies.slice_at part long (Nat.le_refl _)).bind fun exs read => ?_
  exact .refuse fun _ => .pure _ read.1

theorem handshakeExtensions_holds (part : payload.At s start) :
    Satisfies (fun found => payload.At found.2 (start + found.1) ∧ 42 ≤ found.1)
      (handshakeExtensions bound s) := by
  refine .refuse_lt fun (long : 39 ≤ s.len) => ?_
  refine .byte (by omega) fun handshType => ?_
  refine .refuse fun _ => ?_
  refine .byte (by omega) fun b1 => .byte (by omega) fun b2 => .byte (by omega) fun b3 => ?_
  refine (Satisfies.slice_at part (by omega) (Nat.le_refl _)).bind fun body rest => ?_
  refine .refuse fun announced => ?_
  refine (uint16_holds (by omega)).bind fun tlsVersion _ => ?_
  refine .refuse fun _ => ?_
  refine .byte (by omega) fun sessionIDLen => ?_
  refine .refuse fun session => ?_
  refine (Satisfies.slice_at part (Nat.le_of_not_lt session) (Nat.le_refl _)).bind
    fun cipherSuites read => ?_
  refine .refuse_lt fun (two : 2 ≤ cipherSuites.len) => ?_
  refine (uint16_holds (by omega)).bind fun csLen _ => ?_
  refine .refuse_lt fun (inside : 2 + csLen < cipherSuites.len) => ?_
  refine .byte inside fun compressMethodLen => ?_
  refine .refuse fun rest => ?_
  refine (Satisfies.slice_at part (Nat.le_of_not_lt rest) (Nat.le_refl _)).bind fun exs list => ?_
  refine .pure _ ⟨list.1, ?_⟩
  show 42 ≤ 6 + 32 + 1 + sessionIDLen.toNat + (2 + csLen + 1 + compressMethodLen.toNat)
  omega

theorem recordHandshake_holds (bound : Bound) (payload : Slice) :
    Satisfies (fun handshake => payload.At handshake 5) (recordHandshake bound payload) := by
  have part := Slice.At.refl payload
  refine .refuse_lt fun (long : 5 ≤ payload.len) => ?_
  refine .byte (by omega) fun contType => ?_
  refine .refuse fun _ => ?_
  refine (Satisfies.slice_at part (by omega) long).bind fun length read => ?_
  refine (Satisfies.readUint (by omega)).bind fun segmentLen _ => ?_
  refine .refuse fun _ => ?_
  exact (Satisfies.slice_at part long (Nat.le_refl _)).mono fun _ rest => by simpa using rest.1

/-- The headers are read without a panic, and the list begins behind its offset. -/
theorem extensionsOf_holds (bound : Bound) (payload : Slice) :
    Satisfies (fun found => payload.At found.2 (found.1 + 2) ∧ 47 ≤ found.1)
      (extensionsOf bound payload) := by
  refine (recordHandshake_holds bound payload).bind fun handshake part => ?_
  refine (handshakeExtensions_holds part).bind fun found ⟨inner, behind⟩ => ?_
  refine (extensionsList_holds inner).bind fun list rest => .pure _ ⟨?_, ?_⟩
  · rwa [Nat.add_comm found.1 recordLayerHeaderLen]
  · show 47 ≤ found.1 + 5
    omega

/-! ## The walk -/

namespace Walk

/-- The type and the length that the extension at the front announces. -/
def exType (walk : Walk) : Nat := uint (walk.exs.bytes.take 2)

def exLen (walk : Walk) : Nat := uint ((walk.exs.bytes.drop 2).take 2)

/-- Where the rest of a list of extensions is, behind the offset of the list. -/
def place (walk : Walk) (list : Slice) : Nat :=
  extensionsHeaderLen + (list.len - walk.exs.len)

/-- The extension at the front is no server name and ends 65536 bytes on, which is no way in sixteen
bits. -/
structure Stuck (walk : Walk) : Prop where
  long : 65536 ≤ walk.exs.len
  other : walk.exType ≠ sniExtensionType
  wraps : walk.exLen = 65532

end Walk

/-- The name stands at its offset, counted from some place before. -/
structure MyServerName.In (payload : Slice) (start : Nat) (name : MyServerName) : Prop where
  inside : start + name.index + name.serverName.length ≤ payload.len
  bytes : (payload.bytes.drop (start + name.index)).take name.serverName.length = name.serverName

/-- The `n` bytes at one place stand at another place as well. -/
structure Repeated (payload : Slice) (place other n : Nat) : Prop where
  inside : other + n ≤ payload.len
  bytes : (payload.bytes.drop other).take n = (payload.bytes.drop place).take n

theorem exLen_lt (walk : Walk) : walk.exLen < 65536 := by
  have two : ((walk.exs.bytes.drop 2).take 2).length ≤ 2 := length_take_le _ _
  exact Nat.lt_of_lt_of_le (uint_lt _) (Nat.pow_le_pow_right (by decide) two)

/-- The name in the extension at the front, and its offset by the index. -/
structure Walk.Names (walk : Walk) (name : MyServerName) : Prop where
  index : name.index = walk.currentIndex + 9
  inside : 9 + name.serverName.length ≤ walk.exs.len
  bytes : (walk.exs.bytes.drop 9).take name.serverName.length = name.serverName

/-- A step to the next extension; the index and the list may part ways. -/
structure Walk.Steps (walk after : Walk) : Prop where
  other : walk.exType ≠ sniExtensionType
  whole : 4 + walk.exLen ≤ walk.exs.len
  index : after.currentIndex = walk.currentIndex + (4 + walk.exLen)
  part : walk.exs.At after.exs ((4 + walk.exLen) % 65536)
  len : after.exs.len = walk.exs.len - (4 + walk.exLen) % 65536

theorem sniExtension_holds (walk : Walk) {sex : Slice} (part : walk.exs.At sex 4) :
    Satisfies walk.Names (sniExtension bound walk.currentIndex sex) := by
  refine .refuse_lt fun (long : 5 ≤ sex.len) => ?_
  refine .byte (by omega) fun sniType => ?_
  refine .refuse fun _ => ?_
  refine (uint16_holds (by omega)).bind fun sniLen _ => ?_
  refine (Satisfies.slice_at part long (Nat.le_refl _)).bind fun name ⟨here, _⟩ => .pure _ ?_
  refine ⟨rfl, ?_, ?_⟩
  · show 9 + name.bytes.length ≤ walk.exs.len
    rw [Slice.length_bytes]
    exact here.inside
  · show (walk.exs.bytes.drop 9).take name.bytes.length = name.bytes
    rw [Slice.length_bytes]
    exact here.bytes.symm

/-- What a turn can do. -/
theorem nextExtension_holds (bound : Bound) (walk : Walk) :
    Satisfies (Sum.elim walk.Names walk.Steps) (nextExtension bound walk) := by
  refine .refuse_lt fun (long : 4 ≤ walk.exs.len) => ?_
  refine (uint16_holds (by omega)).bind fun exType isType => ?_
  refine (uint16_holds (by omega)).bind fun exLen isLen => ?_
  change exType = walk.exType at isType
  change exLen = walk.exLen at isLen
  subst isType isLen
  refine .refuse_lt fun (whole : 4 + walk.exLen ≤ walk.exs.len) => ?_
  refine (Satisfies.slice_at (Slice.At.refl _) (Nat.le_add_right 4 _) whole).bind
    fun sex ⟨inner, _⟩ => ?_
  rw [Nat.zero_add] at inner
  refine .ite _ (fun _ => ?_) fun other => ?_
  · exact (sniExtension_holds walk inner).bind fun name names => .pure _ names
  · have le : (4 + walk.exLen) % 65536 ≤ walk.exs.len := Nat.le_trans (mod_le _ _) whole
    refine (Satisfies.slice_at (Slice.At.refl _) le (Nat.le_refl _)).bind fun exs ⟨rest, len⟩ => ?_
    rw [Nat.zero_add] at rest
    exact .pure _ ⟨other, whole, rfl, rest, len⟩

theorem extensionTurn_leaves (bound : Bound) (walk : Walk) :
    (extensionTurn bound walk).Leaves
      (fun after => walk.Steps after ∧ ∀ name, nextExtension bound walk ≠ .ok (.inl name))
      (fun _ result => Satisfies walk.Names result ∧
        ∀ name, result = .ok name ↔ nextExtension bound walk = .ok (.inl name)) := by
  have holds := nextExtension_holds bound walk
  unfold extensionTurn
  split_ifs with empty
  · have none : nextExtension bound walk = nil := if_pos (by rw [empty]; decide)
    exact ⟨trivial, fun name => by rw [none]; exact iff_of_false nofun nofun⟩
  · cases result : nextExtension bound walk with
    | error stop =>
      rw [result] at holds
      refine ⟨?_, fun name => iff_of_false nofun nofun⟩
      cases stop with
      | error err => trivial
      | panic => exact holds
    | ok next =>
      rw [result] at holds
      cases next with
      | inl name => exact ⟨holds, fun other => by simp⟩
      | inr after => exact ⟨holds, nofun⟩

/-- From an extension that ends 65536 bytes on the walk goes on to the same extension. -/
theorem Walk.Stuck.turn {walk : Walk} (stuck : walk.Stuck) (bound : Bound) :
    ∃ after, extensionTurn bound walk = .next after ∧ after.Stuck := by
  have long := stuck.long
  obtain ⟨sex, read, -⟩ := @Slice.At.slice Unit walk.exs walk.exs 0 (Slice.At.refl _)
    4 (4 + 65532) (by decide) long bound
  have next : nextExtension bound walk = .ok (.inr ⟨walk.exs, walk.currentIndex + 65536⟩) := by
    have exType : uint16 walk.exs 0 = .ok walk.exType := uint16_eq (by omega)
    have exLen : uint16 walk.exs 2 = .ok 65532 := by rw [uint16_eq (by omega), ← stuck.wraps]; rfl
    refine (if_neg (show ¬ walk.exs.len < 4 by omega)).trans ?_
    refine (bind_of_ok exType).trans ((bind_of_ok exLen).trans ?_)
    refine (if_neg (show ¬ walk.exs.len < 4 + 65532 by omega)).trans ((bind_of_ok read).trans ?_)
    exact (if_neg stuck.other).trans (bind_of_ok (walk.exs.slice_all bound))
  refine ⟨⟨walk.exs, walk.currentIndex + 65536⟩, ?_, long, stuck.other, stuck.wraps⟩
  rw [extensionTurn, if_neg (by omega), next]

theorem Walk.Stuck.never {walk : Walk} (stuck : walk.Stuck) (bound : Bound) (fuel : Nat) :
    turns (extensionTurn bound) fuel walk = none :=
  turns_never Walk.Stuck (fun _ here => here.turn bound) stuck fuel

/-- A step is forward, unless it leads nowhere. -/
theorem Walk.Steps.len_lt {walk after : Walk} (steps : walk.Steps after) (free : ¬ walk.Stuck) :
    after.exs.len < walk.exs.len := by
  have whole := steps.whole
  have lt := exLen_lt walk
  have len := steps.len
  by_cases wraps : walk.exLen = 65532
  · exact absurd ⟨by omega, steps.other, wraps⟩ free
  · omega

/-- The walk is at an extension with a name that is not good. -/
def Walk.Bad (bound : Bound) (Good : MyServerName → Prop) (walk : Walk) : Prop :=
  ∃ name, nextExtension bound walk = .ok (.inl name) ∧ ¬ Good name

/-- A turn goes forward, or ends with a bad name if the walk is at one. -/
theorem Walk.Bad.turn (Good : MyServerName → Prop) {start walk : Walk} (free : ¬ walk.Stuck)
    (visits : Visits (extensionTurn bound) start walk) :
    (extensionTurn bound walk).Leaves
      (fun after => (Visits (extensionTurn bound) start after ∧
        after.exs.len < walk.exs.len) ∧ ¬ walk.Bad bound Good)
      fun _ result => ¬ Satisfies Good result ↔ walk.Bad bound Good := by
  have left := extensionTurn_leaves bound walk
  cases turn : extensionTurn bound walk with
  | next after =>
    rw [turn] at left
    exact ⟨⟨visits.snoc turn, left.1.len_lt free⟩, fun ⟨name, isName, _⟩ => left.2 name isName⟩
  | stop last result =>
    rw [turn] at left
    obtain ⟨holds, names⟩ := left
    show ¬ Satisfies Good result ↔ walk.Bad bound Good
    cases result with
    | ok name =>
      refine ⟨fun bad => ⟨name, (names name).mp rfl, bad⟩, fun ⟨other, isName, bad⟩ => ?_⟩
      cases (names other).mpr isName
      exact bad
    | error stop =>
      cases stop with
      | panic => exact holds.elim
      | error err =>
        exact iff_of_false (not_not.mpr trivial)
          fun ⟨other, isName, _⟩ => nomatch (names other).mpr isName

/-- The loop returns a good name if it does not come to where it stays, and every name it comes to
is good. -/
theorem walkExtensions_iff (Good : MyServerName → Prop) (list : Slice) :
    Satisfies Good (walkExtensions bound list) ↔
      ∀ walk, Visits (extensionTurn bound) ⟨list, extensionsHeaderLen⟩ walk →
        ¬ walk.Stuck ∧ ∀ name, nextExtension bound walk = .ok (.inl name) → Good name := by
  by_cases free : ∀ walk, Visits (extensionTurn bound) ⟨list, extensionsHeaderLen⟩ walk →
      ¬ walk.Stuck
  · obtain ⟨last, result, ends, good⟩ := turns_visits _ (fun result => ¬ Satisfies Good result)
      (Walk.Bad bound Good) (fun walk => walk.exs.len)
      (fun walk visits => Walk.Bad.turn Good (free walk visits) visits) (.refl _)
    have returns : walkExtensions bound list = result := by
      rw [walkExtensions, ends (list.len + 1) (lt_succ_self _)]
    rw [returns, ← not_iff_not, good]
    simp only [Walk.Bad, not_forall, not_and_or, not_not]
    constructor
    · rintro ⟨walk, visits, name, isName, bad⟩
      exact ⟨walk, visits, .inr ⟨name, isName, bad⟩⟩
    · rintro ⟨walk, visits, stuck | ⟨name, isName, bad⟩⟩
      · exact absurd stuck (free walk visits)
      · exact ⟨walk, visits, name, isName, bad⟩
  · obtain ⟨walk, visits, stuck⟩ : ∃ walk, Visits (extensionTurn bound)
        ⟨list, extensionsHeaderLen⟩ walk ∧ walk.Stuck := by simpa using free
    refine iff_of_false ?_ fun good => (good walk visits).1 stuck
    rw [walkExtensions, visits.never (stuck.never bound)]
    exact id

/-- Where the search may come to in a payload. -/
def Reaches (bound : Bound) (payload : Slice) (start : Nat) (list : Slice) (walk : Walk) : Prop :=
  extensionsOf bound payload = .ok (start, list) ∧
    Visits (extensionTurn bound) ⟨list, extensionsHeaderLen⟩ walk

theorem indexTLSServerName_iff (Good : MyServerName → Prop) (payload : Slice) :
    Satisfies Good (indexTLSServerName bound payload) ↔
      ∀ start list walk, Reaches bound payload start list walk → ¬ walk.Stuck ∧
        ∀ name, nextExtension bound walk = .ok (.inl name) → Good { name with
          index := name.index + start
          extensionsListLengthIndex := start } := by
  have holds := extensionsOf_holds bound payload
  rw [indexTLSServerName_eq]
  cases found : extensionsOf bound payload with
  | error stop =>
    rw [found] at holds
    refine iff_of_true ?_ fun start list walk reaches => nomatch found.symm.trans reaches.1
    cases stop with
    | error err => trivial
    | panic => exact holds
  | ok found' =>
    obtain ⟨start, list⟩ := found'
    have shift : Satisfies Good (walkExtensions bound list >>= fun name => return { name with
        index := name.index + start
        extensionsListLengthIndex := start }) ↔
        Satisfies (fun name => Good { name with
          index := name.index + start
          extensionsListLengthIndex := start }) (walkExtensions bound list) := by
      cases walkExtensions bound list with
      | ok name => rfl
      | error stop => cases stop <;> rfl
    refine shift.trans ((walkExtensions_iff _ list).trans ?_)
    refine ⟨fun all => ?_, fun all walk visits => ?_⟩
    · rintro start' list' walk ⟨same, visits⟩
      cases found.symm.trans same
      exact all walk visits
    · exact all start list walk ⟨found, visits⟩

/-- The search does not panic, and does not go on for ever, exactly if it does not come to an
extension at which it stays. -/
theorem indexTLSServerName_returns_iff (payload : Slice) :
    indexTLSServerName bound payload ≠ .error .panic ↔
      ∀ start list walk, Reaches bound payload start list walk → ¬ walk.Stuck := by
  rw [← satisfies_true, indexTLSServerName_iff]
  simp

variable {list : Slice} {walk : Walk}

/-- The walk is somewhere in the list. -/
structure Walk.On (payload list : Slice) (start : Nat) (walk : Walk) : Prop where
  part : payload.At walk.exs (start + walk.place list)
  le : walk.exs.len ≤ list.len

theorem Walk.On.next {after : Walk} (on : walk.On payload list start) (steps : walk.Steps after) :
    after.On payload list start := by
  have le := on.le
  have len := steps.len
  have whole := Nat.le_trans (mod_le (4 + walk.exLen) 65536) steps.whole
  have part := on.part.trans steps.part
  refine ⟨?_, by omega⟩
  have place : start + walk.place list + (4 + walk.exLen) % 65536 = start + after.place list := by
    unfold Walk.place
    omega
  rwa [place] at part

theorem Reaches.on (reaches : Reaches bound payload start list walk) :
    walk.On payload list start := by
  obtain ⟨found, visits⟩ := reaches
  have part := ((extensionsOf_holds bound payload).ok found).1
  refine visits.keeps (Walk.On payload list start) (fun walk after turn on => ?_)
    ⟨by rwa [Walk.place, Nat.sub_self], Nat.le_refl _⟩
  have left := extensionTurn_leaves bound walk
  rw [turn] at left
  exact on.next left.1

/-- A name is where the index says exactly if its bytes are there once more. -/
theorem Walk.On.in_iff (on : walk.On payload list start) {name : MyServerName}
    (names : walk.Names name) (index : Nat) :
    MyServerName.In payload 0 { name with
      index := name.index + start
      extensionsListLengthIndex := index } ↔
    Repeated payload (start + walk.place list + 9) (start + (walk.currentIndex + 9))
      name.serverName.length := by
  have inside := names.inside
  have here : (payload.bytes.drop (start + walk.place list + 9)).take name.serverName.length =
      name.serverName := by
    refine Eq.trans ?_ names.bytes
    rw [on.part.bytes, drop_take, drop_drop, take_take, Nat.min_eq_left (by omega)]
  have place : 0 + (name.index + start) = start + (walk.currentIndex + 9) := by
    rw [names.index]
    omega
  constructor
  · rintro ⟨inside, bytes⟩
    rw [place] at inside bytes
    exact ⟨inside, bytes.trans here.symm⟩
  · rintro ⟨inside, bytes⟩
    rw [← place] at inside bytes
    exact ⟨inside, bytes.trans here⟩

/-- The walk over a list that is too short for an extension of 65532 bytes. -/
theorem Reaches.small (small : payload.len < 65585)
    (reaches : Reaches bound payload start list walk) :
    ¬ walk.Stuck ∧ walk.currentIndex = walk.place list := by
  have short : list.len < 65536 := by
    obtain ⟨part, behind⟩ := (extensionsOf_holds bound payload).ok reaches.1
    have inside : start + 2 + list.len ≤ payload.len := part.inside
    omega
  have place : walk.exs.len ≤ list.len ∧ walk.currentIndex = walk.place list := by
    refine reaches.2.keeps
      (fun walk => walk.exs.len ≤ list.len ∧ walk.currentIndex = walk.place list)
      (fun walk after turn ⟨le, same⟩ => ?_) ⟨Nat.le_refl _, by rw [Walk.place, Nat.sub_self]; rfl⟩
    have left := extensionTurn_leaves bound walk
    rw [turn] at left
    obtain ⟨-, whole, index, -, len⟩ := left.1
    -- the extension is inside of the list, so the sum of sixteen bits does not overflow
    rw [Nat.mod_eq_of_lt (by omega)] at len
    unfold Walk.place at same ⊢
    exact ⟨by omega, by omega⟩
  refine ⟨fun stuck => ?_, place.2⟩
  have long := stuck.long
  omega

theorem indexTLSServerName_holds (small : payload.len < 65585) :
    Satisfies (fun name => name.In payload 0) (indexTLSServerName bound payload) := by
  refine (indexTLSServerName_iff _ payload).mpr fun start list walk reaches => ?_
  obtain ⟨free, same⟩ := reaches.small small
  refine ⟨free, fun name found => ?_⟩
  have names := (nextExtension_holds bound walk).ok found
  have part := reaches.on.part.inside
  have inside := names.inside
  refine (reaches.on.in_iff names _).mpr ?_
  rw [same, ← Nat.add_assoc]
  exact ⟨by omega, rfl⟩

/-- A name is behind the headers. -/
theorem index_lt {name : MyServerName} (found : indexTLSServerName bound payload = .ok name) :
    5 < name.index := by
  have returns : indexTLSServerName bound payload ≠ .error .panic := by
    rw [found]
    nofun
  have free := (indexTLSServerName_returns_iff payload).mp returns
  refine Satisfies.ok (Q := fun name => 5 < name.index) ?_ found
  refine (indexTLSServerName_iff _ payload).mpr fun start list walk reaches => ?_
  refine ⟨free start list walk reaches, fun name _ => ?_⟩
  have behind := ((extensionsOf_holds bound payload).ok reaches.1).2
  show 5 < name.index + start
  omega

/-! ## An extension that wraps around -/

end

end SingBox.TlsFragment
