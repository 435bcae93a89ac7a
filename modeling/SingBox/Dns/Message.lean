import SingBox.Adapter.InboundContext

/-!
# DNS messages

`dns.Msg` and what the client does to one: client subnets, padding, hints of HTTPS
records, times to live and EDNS records. A record has its header apart from its data, as
in the library: some functions look at the type in the header, others at the type of the
data.

* `Msg.upToIdTTL` — a message without what a cache changes of it;
* `fitEDNS_of_keepsOPT` — a response keeps its OPT records in a call with EDNS of its version;
* `not_simpleExtra_of_subnet` — a request that was given a client subnet is not simple.
-/

namespace SingBox.Dns

open Lib List

abbrev typeA : UInt16 := 1
abbrev typeAAAA : UInt16 := 28
abbrev typeOPT : UInt16 := 41
abbrev typeHTTPS : UInt16 := 65
abbrev classINET : UInt16 := 1

abbrev rcodeSuccess : Nat := DnsMsg.rcodeSuccess
abbrev rcodeFormatError : Nat := 1
abbrev rcodeNameError : Nat := 3

inductive DomainStrategy where
  | asIS
  | preferIPv4
  | preferIPv6
  | ipv4Only
  | ipv6Only
  deriving DecidableEq, Repr

structure Question where
  name : String
  qtype : UInt16
  qclass : UInt16
  deriving DecidableEq, Repr

structure Header where
  name : String
  rrtype : UInt16
  class_ : UInt16
  ttl : UInt32
  deriving DecidableEq, Repr

/-- `dns.SVCBKeyValue`. -/
inductive SvcbParam where
  | ipv4Hint (hint : List Addr)
  | ipv6Hint (hint : List Addr)
  | other (key : UInt16) (value : Bytes)
  deriving DecidableEq, Repr

/-- `dns.EDNS0`. -/
inductive EdnsOption where
  | subnet (family : UInt16) (sourceNetmask sourceScope : UInt8) (address : Addr)
  | padding (padding : Bytes)
  | other (code : UInt16) (data : Bytes)
  deriving DecidableEq, Repr

/-- The records the client tells apart. -/
inductive RData where
  | a (addr : Addr)
  | aaaa (addr : Addr)
  | https (priority : UInt16) (target : String) (values : List SvcbParam)
  | soa (minttl : UInt32) (rest : Bytes)
  | opt (options : List EdnsOption)
  | other (rdata : Bytes)
  deriving DecidableEq, Repr

structure RR where
  hdr : Header
  data : RData
  deriving DecidableEq, Repr

/-- `dns.Msg`, its header first. -/
structure Msg where
  id : UInt16 := 0
  response : Bool := false
  opcode : Nat := 0
  authoritative : Bool := false
  truncated : Bool := false
  recursionDesired : Bool := false
  recursionAvailable : Bool := false
  zero : Bool := false
  authenticatedData : Bool := false
  checkingDisabled : Bool := false
  rcode : Nat := rcodeSuccess
  question : List Question := []
  answer : List RR := []
  ns : List RR := []
  extra : List RR := []
  deriving DecidableEq, Repr

/-! ## Addresses -/

def SvcbParam.toValue : SvcbParam → SvcbValue
  | .ipv4Hint hint => .ipv4Hint hint
  | .ipv6Hint hint => .ipv6Hint hint
  | .other _ _ => .other

def RR.toRecord (rr : RR) : DnsRecord :=
  match rr.data with
  | .a addr => .a addr
  | .aaaa addr => .aaaa addr
  | .https _ _ values => .https (values.map SvcbParam.toValue)
  | _ => .other

def MessageToAddresses (response : Msg) : List Addr :=
  DnsMsg.addresses (some ⟨response.rcode, response.answer.map RR.toRecord⟩)

/-! ## Times to live -/

namespace RR

def isOPT (rr : RR) : Bool := rr.hdr.rrtype == typeOPT

def withTTL (rr : RR) (ttl : UInt32) : RR := { rr with hdr := { rr.hdr with ttl } }

/-- The TTL of an OPT record is no time. -/
def normalizeTTL (ttl : UInt32) (rr : RR) : RR := if rr.isOPT then rr else rr.withTTL ttl

@[simp] theorem isOPT_withTTL (rr : RR) (ttl : UInt32) : (rr.withTTL ttl).isOPT = rr.isOPT := rfl

@[simp] theorem isOPT_normalizeTTL (rr : RR) (ttl : UInt32) :
    (rr.normalizeTTL ttl).isOPT = rr.isOPT := by
  unfold normalizeTTL
  split <;> rfl

@[simp] theorem normalizeTTL_normalizeTTL (rr : RR) (ttl ttl' : UInt32) :
    (rr.normalizeTTL ttl).normalizeTTL ttl' = rr.normalizeTTL ttl' := by
  cases opt : rr.isOPT with
  | true => simp [normalizeTTL, opt]
  | false =>
    simp only [normalizeTTL, opt, isOPT_withTTL, Bool.false_eq_true, if_false]
    rfl

end RR

theorem filter_map_isOPT {f : RR → RR} (keeps : ∀ rr, (f rr).isOPT = rr.isOPT)
    (records : List RR) : (records.map f).filter (fun rr => !rr.isOPT) =
      (records.filter fun rr => !rr.isOPT).map f := by
  rw [filter_map]
  congr 1
  exact filter_congr fun rr _ => by simp [keeps rr]

namespace Msg

variable (m : Msg)

def withId (id : UInt16) : Msg := { m with id }

def mapRecords (f : RR → RR) (m : Msg) : Msg :=
  { m with answer := m.answer.map f, ns := m.ns.map f, extra := m.extra.map f }

def allRecords : List RR := m.answer ++ m.ns ++ m.extra

def normalizeTTL (response : Msg) (timeToLive : UInt32) : Msg :=
  response.mapRecords (RR.normalizeTTL timeToLive)

/-- The smaller of the TTL and the minimum of the first SOA. -/
def extractNegativeTTL (response : Msg) : Option UInt32 :=
  response.ns.findSome? fun record =>
    match record.data with
    | .soa soaMinimum _ =>
        some (if record.hdr.ttl < soaMinimum then record.hdr.ttl else soaMinimum)
    | _ => none

/-- The loops of `computeTimeToLive`. -/
def smallestTTL (records : List RR) : UInt32 :=
  records.foldl (fun timeToLive record =>
    if record.isOPT then timeToLive
    else if timeToLive = 0 ∨ record.hdr.ttl > 0 ∧ record.hdr.ttl < timeToLive then record.hdr.ttl
    else timeToLive) 0

def computeTimeToLive (response : Msg) : UInt32 :=
  match response.answer, response.extractNegativeTTL with
  | [], some soaTTL => soaTTL
  | _, _ => smallestTTL response.allRecords

@[simp] theorem normalizeTTL_normalizeTTL (ttl ttl' : UInt32) :
    (m.normalizeTTL ttl).normalizeTTL ttl' = m.normalizeTTL ttl' := by
  simp [normalizeTTL, mapRecords, Function.comp_def]

/-- What is left of a message when its id and its TTLs do not count. -/
def upToIdTTL : Msg := (m.normalizeTTL 0).withId 0

@[simp] theorem upToIdTTL_normalizeTTL (ttl : UInt32) :
    (m.normalizeTTL ttl).upToIdTTL = m.upToIdTTL := by
  simp [upToIdTTL]

variable (id : UInt16)

@[simp] theorem upToIdTTL_withId :
    (m.withId id).upToIdTTL = m.upToIdTTL := rfl

@[simp] theorem answer_withId : (m.withId id).answer = m.answer := rfl

@[simp] theorem rcode_withId : (m.withId id).rcode = m.rcode := rfl

theorem addresses_upToIdTTL : MessageToAddresses m.upToIdTTL = MessageToAddresses m := by
  have same (rr : RR) : (RR.toRecord ∘ RR.normalizeTTL 0) rr = rr.toRecord := by
    simp only [Function.comp, RR.normalizeTTL]
    split <;> rfl
  simp [MessageToAddresses, upToIdTTL, withId, normalizeTTL, mapRecords, funext same]

/-! ## EDNS -/

/-- `IsEdns0`: the last OPT record. -/
def isEdns0 : Option RR := m.extra.reverse.find? RR.isOPT

def setEdns0 (udpSize : UInt16) (dnssecOK : Bool) : Msg :=
  { m with
    extra := m.extra ++ [⟨⟨".", typeOPT, udpSize, if dnssecOK then 0x8000 else 0⟩, .opt []⟩] }

end Msg

def RR.version (opt : RR) : UInt32 := opt.hdr.ttl >>> 16 &&& 0xff

/-- `OPT.Do`. -/
def RR.dnssecOK (opt : RR) : Bool := opt.hdr.ttl &&& 0x8000 != 0

/-- The end of `Exchange`: a response to a request without EDNS, or of an older version, does
not keep its OPT records. -/
def fitEDNS (message response : Msg) : Msg :=
  match response.isEdns0, message.isEdns0 with
  | some _, none => { response with extra := response.extra.filter fun it => !it.isOPT }
  | some responseOpt, some requestOpt =>
      if requestOpt.version < responseOpt.version then
        { response with extra := response.extra.filter fun it => !it.isOPT }.setEdns0
          responseOpt.hdr.class_ responseOpt.dnssecOK
      else response
  | none, _ => response

section

variable (message response : Msg)

theorem fitEDNS_eq :
    ∃ extra, fitEDNS message response = { response with extra } ∧
      extra.filter (fun it => !it.isOPT) = response.extra.filter fun it => !it.isOPT := by
  unfold fitEDNS
  split
  · exact ⟨_, rfl, by simp⟩
  · split
    · exact ⟨_, rfl, by simp [RR.isOPT]⟩
    · exact ⟨_, rfl, rfl⟩
  · exact ⟨_, rfl, rfl⟩

/-- A request with EDNS that is not of an older version than the response. -/
def KeepsOPT : Prop :=
  ∀ responseOpt, response.isEdns0 = some responseOpt →
    ∃ requestOpt, message.isEdns0 = some requestOpt ∧ ¬ requestOpt.version < responseOpt.version

theorem fitEDNS_of_keepsOPT {message response : Msg} (keeps : KeepsOPT message response) :
    fitEDNS message response = response := by
  unfold fitEDNS
  split
  · rename_i responseOpt found none
    obtain ⟨requestOpt, some, -⟩ := keeps _ found
    cases none.symm.trans some
  · rename_i responseOpt requestOpt found some
    obtain ⟨_, some', newer⟩ := keeps _ found
    cases some.symm.trans some'
    exact if_neg newer
  · rfl

@[simp] theorem rcode_fitEDNS : (fitEDNS message response).rcode = response.rcode := by
  obtain ⟨extra, eq, -⟩ := fitEDNS_eq message response
  rw [eq]

@[simp] theorem answer_fitEDNS : (fitEDNS message response).answer = response.answer := by
  obtain ⟨extra, eq, -⟩ := fitEDNS_eq message response
  rw [eq]

/-- Times to live do not matter to this. -/
theorem fitEDNS_normalizeTTL (ttl : UInt32) :
    fitEDNS message (response.normalizeTTL ttl) = (fitEDNS message response).normalizeTTL ttl := by
  have same : (response.normalizeTTL ttl).isEdns0 = response.isEdns0 := by
    unfold Msg.isEdns0 Msg.normalizeTTL Msg.mapRecords
    rw [← map_reverse, find?_map]
    have onOPT : (RR.isOPT ∘ RR.normalizeTTL ttl) = RR.isOPT := by
      funext rr
      simp
    rw [onOPT]
    cases found : response.extra.reverse.find? RR.isOPT with
    | none => rfl
    | some rr => simp [RR.normalizeTTL, find?_some found]
  have filtered := filter_map_isOPT fun rr => rr.isOPT_normalizeTTL ttl
  have newOPT (udpSize : UInt16) (flags : UInt32) :
      RR.normalizeTTL ttl ⟨⟨".", typeOPT, udpSize, flags⟩, .opt []⟩ =
        ⟨⟨".", typeOPT, udpSize, flags⟩, .opt []⟩ := rfl
  unfold fitEDNS
  rw [same]
  split
  · simp [Msg.normalizeTTL, Msg.mapRecords, filtered]
  · split
    · simp [Msg.normalizeTTL, Msg.mapRecords, Msg.setEdns0, filtered, newOPT]
    · rfl
  · rfl

theorem fitEDNS_withId (id : UInt16) :
    fitEDNS message (response.withId id) = (fitEDNS message response).withId id := by
  unfold fitEDNS
  have same : (response.withId id).isEdns0 = response.isEdns0 := rfl
  rw [same]
  split
  · rfl
  · split <;> rfl
  · rfl

end

def EdnsOption.isPadding : EdnsOption → Bool
  | .padding _ => true
  | _ => false

def EdnsOption.isSubnet : EdnsOption → Bool
  | .subnet .. => true
  | _ => false

/-- `stripDNSPadding`, on one record. -/
def RR.stripPadding (rr : RR) : RR :=
  match rr.data with
  | .opt options => { rr with data := .opt (options.filter fun it => !it.isPadding) }
  | _ => rr

def stripDNSPadding (response : Msg) : Msg :=
  { response with extra := response.extra.map RR.stripPadding }

/-- `findExists` of `setClientSubnet`: the OPT record, and the subnet option in it, by
index. A record that is no OPT makes it forget the one before. -/
def findExists (index : Nat) (optRecord : Option Nat) : List RR → Option Nat × Option Nat
  | [] => (optRecord, none)
  | record :: rest =>
      match record.data with
      | .opt options =>
          match options.findIdx? EdnsOption.isSubnet with
          | some option => (some index, some option)
          | none => findExists (index + 1) (some index) rest
      | _ => findExists (index + 1) none rest

/-- A subnet option for a prefix; the scope of the one before stays. -/
def EdnsOption.setSubnet (clientSubnet : Prefix) (option : EdnsOption) : EdnsOption :=
  let scope :=
    match option with
    | .subnet _ _ scope _ => scope
    | _ => 0
  .subnet (if clientSubnet.addr.is4 then 1 else 2) (UInt8.ofNat clientSubnet.bits.toNat) scope
    clientSubnet.addr

def RR.modifyOptions (f : List EdnsOption → List EdnsOption) (rr : RR) : RR :=
  match rr.data with
  | .opt options => { rr with data := .opt (f options) }
  | _ => rr

def SetClientSubnet (message : Msg) (clientSubnet : Prefix) : Msg :=
  let fresh := EdnsOption.setSubnet clientSubnet (.other 0 [])
  match findExists 0 none message.extra with
  | (none, _) => { message with extra := message.extra ++ [⟨⟨".", typeOPT, 0, 0⟩, .opt [fresh]⟩] }
  | (some record, none) =>
      { message with extra := message.extra.modify record (RR.modifyOptions (· ++ [fresh])) }
  | (some record, some option) =>
      { message with
        extra := message.extra.modify record
          (RR.modifyOptions fun options =>
            options.modify option (EdnsOption.setSubnet clientSubnet)) }

/-- The client subnet a request carries. -/
def Msg.clientSubnet (m : Msg) : Option EdnsOption :=
  m.extra.findSome? fun rr =>
    match rr.data with
    | .opt options => options.find? EdnsOption.isSubnet
    | _ => none

/-! ## Requests that may be cached -/

/-- The additional section of a simple request: empty, or an OPT record with nothing in it. -/
def simpleExtra : List RR → Bool
  | [] => true
  | [rr] =>
      rr.isOPT && rr.hdr.class_ > 0 && rr.hdr.ttl == 0 &&
        match rr.data with
        | .opt options => options.isEmpty
        | _ => false
  | _ => false

/-- `isSimpleRequest`, the subnet of the options apart. -/
def isSimpleMessage (message : Msg) : Bool :=
  message.question.length == 1 && message.ns.isEmpty && simpleExtra message.extra

theorem clientSubnet_of_simple {message : Msg} (h : isSimpleMessage message) :
    message.clientSubnet = none := by
  simp only [isSimpleMessage, Bool.and_eq_true] at h
  unfold Msg.clientSubnet
  generalize message.extra = extra at h
  match extra, h.2 with
  | [], _ => rfl
  | [⟨hdr, data⟩], simple =>
    cases data with
    | opt options =>
      simp only [simpleExtra, Bool.and_eq_true, List.isEmpty_iff] at simple
      simp [simple.2]
    | _ => rfl

theorem findExists_some {extra : List RR} {index : Nat} {found option : Option Nat}
    {record : Nat} (h : findExists index found extra = (some record, option)) :
    (found = some record ∧ extra = []) ∨
      ∃ rr options, index ≤ record ∧ extra[record - index]? = some rr ∧ rr.data = .opt options ∧
        ∀ o, option = some o → o < options.length := by
  induction extra generalizing index found with
  | nil =>
    simp only [findExists, Prod.mk.injEq] at h
    exact .inl ⟨h.1, rfl⟩
  | cons rr rest ih =>
    right
    have later : ∀ found', findExists (index + 1) found' rest = (some record, option) →
        (found' = some record → found' = some index ∧ ∃ options, rr.data = .opt options) →
        ∃ rr' options, index ≤ record ∧ (rr :: rest)[record - index]? = some rr' ∧
          rr'.data = .opt options ∧ ∀ o, option = some o → o < options.length := by
      intro found' eq isHere
      rcases ih eq with ⟨same, rfl⟩ | ⟨rr', options, le, there, data, short⟩
      · obtain ⟨here, options, data⟩ := isHere same
        cases here.symm.trans same
        refine ⟨rr, options, Nat.le_refl _, by simp, data, ?_⟩
        simp only [findExists, Prod.mk.injEq] at eq
        rintro o rfl
        cases eq.2
      · refine ⟨rr', options, by omega, ?_, data, short⟩
        have shift : record - index = (record - (index + 1)) + 1 := by omega
        rw [shift, getElem?_cons_succ, there]
    unfold findExists at h
    split at h
    · rename_i options data
      split at h
      · rename_i o found
        cases h
        refine ⟨rr, options, Nat.le_refl _, by simp, data, ?_⟩
        rintro o' h
        cases h
        exact (findIdx?_eq_some_iff_findIdx_eq.mp found).1
      · exact later _ h fun same => ⟨rfl, options, data⟩
    · exact later _ h nofun

/-- After `SetClientSubnet` the additional section is never that of a simple request. -/
theorem not_simpleExtra_of_subnet (message : Msg) (clientSubnet : Prefix) :
    simpleExtra (SetClientSubnet message clientSubnet).extra = false := by
  have notEmpty : ∀ (extra : List RR) (record : Nat) (f : List EdnsOption → List EdnsOption) rr
      options, extra[record]? = some rr → rr.data = .opt options → f options ≠ [] →
      simpleExtra (extra.modify record (RR.modifyOptions f)) = false := by
    intro extra record f rr options there data nonempty
    match extra, record, there with
    | [_], 0, there =>
      cases there
      simp [simpleExtra, RR.modifyOptions, data, nonempty]
    | first :: second :: rest, record, _ =>
      cases record with
      | zero => simp [simpleExtra]
      | succ record => cases record <;> simp [simpleExtra]
  unfold SetClientSubnet
  split
  · match message.extra with
    | [] => simp [simpleExtra]
    | [_] | _ :: _ :: _ => rfl
  · rename_i record found
    rcases findExists_some found with ⟨none, _⟩ | ⟨rr, options, _, there, data, _⟩
    · cases none
    · exact notEmpty _ _ _ rr options there data (by simp)
  · rename_i record option found
    rcases findExists_some found with ⟨none, _⟩ | ⟨rr, options, _, there, data, short⟩
    · cases none
    · have nonempty : options ≠ [] := ne_nil_of_length_pos
        (Nat.lt_of_le_of_lt (Nat.zero_le _) (short option rfl))
      exact notEmpty _ _ _ rr options there data (by simpa using nonempty)

/-! ## Fixed responses -/

def FixedResponseStatus (message : Msg) (rcode : Nat) : Msg where
  id := message.id
  response := true
  authoritative := true
  recursionDesired := true
  recursionAvailable := true
  rcode := rcode
  question := message.question

end SingBox.Dns
