import SingBox.Lib.Block
import SingBox.Srs.RoundTrip

/-!
# Libraries with which rule-sets can be written and read

`roundTrip_iff` is about any libraries that meet its assumptions. Here are some that do: numbers and
lists are written as `Lib/Codec` has them, a matcher is the lists it is built from, a set of
addresses is the ranges of its prefixes, whose texts are their bytes, and nothing is compressed.

* `roundTrip_iff_nested` — a rule-set with nested rules that is read as it was written;
* `roundTrip_tunnel` — one that is not.
-/

namespace SingBox.Srs.Reference

open SingBox.Lib List

def number : Codec ReadError Nat := .uvarint .eof

def bytes : Codec ReadError Bytes := (Codec.byte .eof).list .eof

def uint16 : Codec ReadError UInt16 :=
  number.via UInt16.toNat UInt16.ofNat fun _ => UInt16.ofNat_toNat

def char : Codec ReadError Char := number.via Char.toNat Char.ofNat Char.ofNat_toNat

def string : Codec ReadError String :=
  (char.list .eof).via String.toList String.ofList fun _ => String.ofList_toList

def varbin : Varbin where
  uvarint := number
  uint64 := number
  bytes := bytes
  uint16s := uint16.list .eof
  strings := string.list .eof
  rangeData := bytes.both bytes

def zlib : Zlib := ⟨id, .ok, fun _ => rfl⟩

/-- A matcher is the names and the suffixes it was built from. -/
def domain : MatcherLibrary Bool (List String × List String) (List String × List String) where
  new _ source := source
  dump := id
  accepts matcher name :=
    matcher.1.contains name || matcher.2.any fun suffix => name.endsWith suffix
  codec := varbin.strings.both varbin.strings
  accepts_dump _ _ := rfl

def adGuard : MatcherLibrary Unit (List String) (List String) where
  new _ lines := lines
  dump := id
  accepts lines name := lines.contains name
  codec := varbin.strings
  accepts_dump _ _ := rfl

/-! ## Sets of addresses -/

def rangeOfPrefix : Prefix → IPRange
  | .invalid => ⟨.invalid, .invalid, rfl, rfl⟩
  | .v4 ip bits =>
      ⟨.v4 (firstOfBlock (32 - bits.val) ip), .v4 (lastOfBlock (32 - bits.val) ip), rfl, rfl⟩
  | .v6 ip bits =>
      ⟨.v6 (firstOfBlock (128 - bits.val) ip) [], .v6 (lastOfBlock (128 - bits.val) ip) [], rfl,
        rfl⟩

theorem contains_rangeOfPrefix (p : Prefix) (a : Addr) :
    (rangeOfPrefix p).spans a = p.contains a := by
  rw [Bool.eq_iff_iff]
  cases p with
  | invalid => cases a <;> rfl
  | v4 ip bits =>
    cases a with
    | v4 a =>
      have h := sameBlock_iff_between (Nat.sub_le 32 bits.val) ip a
      simpa [rangeOfPrefix, IPRange.spans, Prefix.contains, sameBlock] using h.symm
    | invalid | v6 => rfl
  | v6 ip bits =>
    cases a with
    | v6 a zone =>
      have h := sameBlock_iff_between (Nat.sub_le 128 bits.val) ip a
      simp only [sameBlock] at h
      simp only [rangeOfPrefix, IPRange.spans, Prefix.contains, Bool.and_eq_true, h,
        decide_eq_true_iff, and_assoc]
    | invalid | v4 => rfl

def rangeOfEntry : Entry → IPRange
  | .cidr p => rangeOfPrefix p
  | .addr a => ⟨a.withoutZone, a.withoutZone, by cases a <;> rfl, by cases a <;> rfl⟩

theorem between_self {w : Nat} (b a : BitVec w) : b ≤ a ∧ a ≤ b ↔ a = b :=
  ⟨fun h => BitVec.le_antisymm h.2 h.1, fun h => h ▸ ⟨BitVec.le_refl _, BitVec.le_refl _⟩⟩

theorem contains_rangeOfEntry (entry : Entry) (a : Addr) :
    (rangeOfEntry entry).spans a = entry.contains a := by
  cases entry with
  | cidr p => exact contains_rangeOfPrefix p a
  | addr b =>
    rw [Bool.eq_iff_iff]
    cases b with
    | invalid =>
      cases a <;>
        simp [rangeOfEntry, Addr.withoutZone, IPRange.spans, Entry.contains, Addr.isValid]
    | v4 b =>
      cases a with
      | v4 a =>
        have h := between_self b a
        simpa [rangeOfEntry, Addr.withoutZone, IPRange.spans, Entry.contains, Addr.isValid]
          using h
      | invalid | v6 => simp [rangeOfEntry, Addr.withoutZone, IPRange.spans, Entry.contains]
    | v6 b zone =>
      cases a with
      | v6 a zone =>
        have h := between_self b a
        simp only [rangeOfEntry, Addr.withoutZone, IPRange.spans, Entry.contains, Addr.isValid,
          Bool.and_eq_true, decide_eq_true_iff, beq_iff_eq, and_assoc, h, Addr.v6.injEq, true_and]
        exact and_comm
      | invalid | v4 => simp [rangeOfEntry, Addr.withoutZone, IPRange.spans, Entry.contains]

def prefixesV4 (lower upper : BitVec 32) : List Prefix :=
  (cover lower.toNat upper.toNat 32 0).map fun block =>
    .v4 (addrOfBlock 32 block) ⟨32 - block.1, by omega⟩

def prefixesV6 (lower upper : BitVec 128) : List Prefix :=
  (cover lower.toNat upper.toNat 128 0).map fun block =>
    .v6 (addrOfBlock 128 block) ⟨128 - block.1, by omega⟩

theorem contains_prefixesV4 (lower upper a : BitVec 32) :
    (∃ p ∈ prefixesV4 lower upper, p.contains (.v4 a) = true) ↔ lower ≤ a ∧ a ≤ upper := by
  rw [← exists_sameBlock_iff]
  simp only [prefixesV4, mem_map, exists_exists_and_eq_and]
  refine exists_congr fun block => and_congr_right fun mem => ?_
  have host : 32 - (32 - block.1) = block.1 := Nat.sub_sub_self (cover_inside mem).1
  simp only [Prefix.contains, host, sameBlock]

theorem contains_prefixesV6 (lower upper a : BitVec 128) (zone : Bytes) :
    (∃ p ∈ prefixesV6 lower upper, p.contains (.v6 a zone) = true) ↔
      zone = [] ∧ lower ≤ a ∧ a ≤ upper := by
  rw [← exists_sameBlock_iff, ← exists_and_left]
  simp only [prefixesV6, mem_map, exists_exists_and_eq_and]
  refine exists_congr fun block => ?_
  rw [and_left_comm]
  refine and_congr_right fun mem => ?_
  have host : 128 - (128 - block.1) = block.1 := Nat.sub_sub_self (cover_inside mem).1
  simp only [Prefix.contains, host, sameBlock, Bool.and_eq_true, beq_iff_eq]

def prefixesOfRange (r : IPRange) : List Prefix :=
  match r.fromAddr, r.toAddr with
  | .v4 lower, .v4 upper => prefixesV4 lower upper
  | .v6 lower _, .v6 upper _ => prefixesV6 lower upper
  | _, _ => []

theorem contains_prefixesOfRange (r : IPRange) (a : Addr) :
    (∃ p ∈ prefixesOfRange r, p.contains a = true) ↔ r.spans a = true := by
  obtain ⟨lower, upper, _, _⟩ := r
  cases a with
  | invalid => simp [Prefix.contains_invalid, IPRange.spans]
  | v4 a =>
    cases lower <;> cases upper <;> simp only [prefixesOfRange, IPRange.spans]
    case v4.v4 => simpa using contains_prefixesV4 _ _ a
    case v6.v6 => simp [prefixesV6, Prefix.contains]
    all_goals simp
  | v6 a zone =>
    cases lower <;> cases upper <;> simp only [prefixesOfRange, IPRange.spans]
    case v6.v6 => simpa [and_assoc] using contains_prefixesV6 _ _ a zone
    case v4.v4 => simp [prefixesV4, Prefix.contains]
    all_goals simp

/-! ## Texts of prefixes -/

/-- Bytes as characters. -/
def textOf (bytes : Bytes) : String := String.ofList (bytes.map fun b => Char.ofNat b.toNat)

def bytesOf (text : String) : Bytes := text.toList.map fun c => UInt8.ofNat c.toNat

theorem ofNat_char_byte (b : UInt8) : UInt8.ofNat (Char.ofNat b.toNat).toNat = b := by
  have valid : b.toNat.isValidChar := .inl (Nat.lt_trans b.toNat_lt (by decide))
  have same : (Char.ofNat b.toNat).toNat = b.toNat := by
    rw [Char.ofNat, dif_pos valid]
    rfl
  rw [same, UInt8.ofNat_toNat]

theorem bytesOf_textOf (bytes : Bytes) : bytesOf (textOf bytes) = bytes := by
  rw [bytesOf, textOf, String.toList_ofList, map_map]
  exact map_id'' ofNat_char_byte bytes

def parsePrefix (text : String) : Except String Prefix :=
  match readPrefix varbin (bytesOf text) with
  | .ok (p, []) => .ok p
  | _ => .error "no prefix"

theorem parsePrefix_textOf (p : Prefix) : parsePrefix (textOf (writePrefix varbin p)) = .ok p := by
  have reads := (prefixCodec varbin).reads p []
  rw [append_nil] at reads
  unfold parsePrefix
  rw [bytesOf_textOf]
  change readPrefix varbin (writePrefix varbin p) = _ at reads
  rw [reads]

def parseAddr (text : String) : Option Addr :=
  let a := Addr.fromIP (bytesOf text)
  if a.isValid then some a else none

def ip : IPLibrary where
  parsePrefix := parsePrefix
  parseAddr := parseAddr
  prefixString p := textOf (writePrefix varbin p)
  build entries := .ok (entries.map rangeOfEntry)
  prefixes set := set.flatMap prefixesOfRange
  contains_build entries set built a := by
    cases built
    simp [IPSet.contains, contains_rangeOfEntry]
  contains_prefixes set a := by
    simp only [mem_flatMap, IPSet.contains, any_eq_true]
    constructor
    · rintro ⟨p, ⟨r, isRange, isPrefix⟩, isIn⟩
      exact ⟨r, isRange, (contains_prefixesOfRange r a).mp ⟨p, isPrefix, isIn⟩⟩
    · rintro ⟨r, isRange, isIn⟩
      obtain ⟨p, isPrefix, isIn⟩ := (contains_prefixesOfRange r a).mpr isIn
      exact ⟨p, ⟨r, isRange, isPrefix⟩, isIn⟩
  parse_string _ p _ := parsePrefix_textOf p

def libraries : Libraries (List String × List String) (List String) :=
  ⟨zlib, varbin, domain, adGuard, ip⟩

/-! ## Rule-sets -/

abbrev Rule := HeadlessRule (List String × List String) (List String)

def privateNetwork : String := textOf (writePrefix varbin (.v4 0x0a000000#32 8))

/-- A port outside a network, or a domain. -/
def nestedRules : List Rule :=
  [.logical .or
    [ .logical .and
        [ .default { port := [443] }, .default { ipCIDR := [privateNetwork], invert := true } ]
        false, .default { domainSuffix := ["example.com"] } ]
    false]

theorem roundTrip_iff_nested :
    ∃ bytes same, write libraries nestedRules 5 = .ok bytes ∧
      read libraries true bytes = .ok ⟨5, same⟩ ∧
      List.Forall₂ (SameRule libraries 5) nestedRules same := by
  have written : write libraries nestedRules 5 = .ok _ := rfl
  have noTunnel : ∀ options ∈ HeadlessRule.defaultsOf nestedRules, options.NoTunnel := by
    simp [nestedRules, HeadlessRule.defaultsOf, HeadlessRule.defaults, DefaultHeadlessRule.NoTunnel]
  obtain ⟨same, isRead, isSame⟩ := (roundTrip_iff libraries written).mpr ⟨by decide, noTunnel⟩
  exact ⟨_, same, written, isRead, isSame⟩

/-- A rule for the connections of one tunnel. -/
def tunnelRules : List Rule :=
  [.default { tunnelSource := ["f81d4fae-7dec-11d0-a765-00a0c91e6bf6"] }]

/-- The rule is written without its only item. -/
theorem roundTrip_tunnel :
    write libraries tunnelRules 5 = .ok [0x53, 0x52, 0x53, 5, 1, 0, 0xff, 0] ∧
      read libraries true [0x53, 0x52, 0x53, 5, 1, 0, 0xff, 0] = .ok ⟨5, [.default {}]⟩ ∧
      ¬ ∃ same, read libraries true [0x53, 0x52, 0x53, 5, 1, 0, 0xff, 0] = .ok ⟨5, same⟩ ∧
        List.Forall₂ (SameRule libraries 5) tunnelRules same := by
  have isEmpty : read libraries true [0x53, 0x52, 0x53, 5, 1, 0, 0xff, 0] =
      .ok ⟨5, [.default {}]⟩ := rfl
  refine ⟨by decide +kernel, isEmpty, ?_⟩
  rintro ⟨same, isRead, isSame⟩
  cases isEmpty.symm.trans isRead
  obtain _ | ⟨first, -⟩ := isSame
  cases first with
  | default same => cases congrArg DefaultHeadlessRule.tunnelSource same.items

end SingBox.Srs.Reference
