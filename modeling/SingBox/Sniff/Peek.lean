import SingBox.Adapter.InboundContext

/-!
# Peeking at a connection

`common/sniff/sniff.go`. A connection is the list of things its reads are going
to deliver; peeking takes a prefix of that list. Sniffers are arbitrary
functions: they may write the metadata and they answer with an error or not.

* `peekStream` fills one buffer from a stream, running the sniffers after each
  read; `peekStream_bytes` says that the bytes it took are in the buffer, and
  the others still in the connection;
* `peekPacket` runs the sniffers over one packet.
-/

namespace SingBox.Sniff

open List

/-- What a stream connection delivers next: `SetReadDeadline` fails, or `Read`
returns bytes and perhaps an error. -/
inductive ConnEvent where
  | deadlineError
  | read (data : List UInt8) (err : Bool)
  deriving DecidableEq, Repr

/-- The bytes a connection is going to deliver. -/
def ConnEvent.bytes : List ConnEvent → List UInt8
  | [] => []
  | .deadlineError :: rest => bytes rest
  | .read data _ :: rest => data ++ bytes rest

/-- The next read delivers no byte: nothing comes, or the deadline or the read fails first. -/
def ConnEvent.quiet : List ConnEvent → Bool
  | [] => true
  | .deadlineError :: _ => true
  | .read data err :: rest => data.isEmpty && (err || quiet rest)

/-- `StreamSniffer`: the reader runs over the cached buffers one after the other. -/
abbrev StreamSniffer := InboundContext → List (List UInt8) → InboundContext × Option SnifferError

abbrev PacketSniffer := InboundContext → List UInt8 → InboundContext × Option SnifferError

/-- `Skip`: server-first protocols are not sniffed. -/
def skip (metadata : InboundContext) : Bool :=
  [25, 465, 587, 143, 993, 110, 995].contains metadata.destination.port

/-- One round of sniffers over the same input; `none` once one of them succeeds,
else the errors of all. -/
def sniffRound {ι : Type}
    (sniffers : List (InboundContext → ι → InboundContext × Option SnifferError))
    (input : ι) (metadata : InboundContext) (sniffError : SniffError) :
    InboundContext × Option SniffError :=
  match sniffers with
  | [] => (metadata, if sniffError.isEmpty then none else some sniffError)
  | sniffer :: rest =>
      match sniffer metadata input with
      | (metadata, none) => (metadata, none)
      | (metadata, some err) => sniffRound rest input metadata (sniffError ++ [err])

/-- What `PeekStream` leaves behind. -/
structure StreamPeek where
  metadata : InboundContext
  buffer : List UInt8
  err : Option SniffError
  conn : List ConnEvent

def setReadDeadlineError : SniffError := [⟨false, "set read deadline"⟩]
def readPayloadError : SniffError := [⟨false, "read payload"⟩]

/-- The loop of `PeekStream`. `sniffed` is `i > 0` and `sniffError` the error of
the last round; `size` is the capacity of the buffer. -/
def peekStreamLoop (size : Nat) (sniffers : List StreamSniffer) (buffers : List (List UInt8)) :
    List ConnEvent → InboundContext → List UInt8 → Bool → SniffError → StreamPeek
  | [], metadata, buffer, sniffed, sniffError =>
      -- nothing arrives before the deadline
      ⟨metadata, buffer, some (if sniffed then sniffError else readPayloadError), []⟩
  | .deadlineError :: rest, metadata, buffer, _, _ =>
      ⟨metadata, buffer, some setReadDeadlineError, rest⟩
  | .read data err :: rest, metadata, buffer, sniffed, sniffError =>
      let free := size - buffer.length
      if free = 0 then
        -- `ReadOnceFrom` refuses a full buffer
        ⟨metadata, buffer, some (if sniffed then sniffError else readPayloadError),
          .read data err :: rest⟩
      else
        let buffer := buffer ++ data.take free
        if data.length > free then
          -- the buffer is full now, so the next turn ends the loop whatever this round says
          let (metadata, result) := sniffRound sniffers (buffers ++ [buffer]) metadata []
          ⟨metadata, buffer, result, .read (data.drop free) err :: rest⟩
        else if err then
          ⟨metadata, buffer, some (if sniffed then sniffError else readPayloadError), rest⟩
        else
          match sniffRound sniffers (buffers ++ [buffer]) metadata [] with
          | (metadata, none) => ⟨metadata, buffer, none, rest⟩
          | (metadata, some sniffError) =>
              if sniffError.isNeedMoreData then
                peekStreamLoop size sniffers buffers rest metadata buffer true sniffError
              else ⟨metadata, buffer, some sniffError, rest⟩

/-- `PeekStream`, into an empty buffer. -/
def peekStream (size : Nat) (sniffers : List StreamSniffer) (buffers : List (List UInt8))
    (conn : List ConnEvent) (metadata : InboundContext) : StreamPeek :=
  peekStreamLoop size sniffers buffers conn metadata [] false []

def peekPacket (sniffers : List PacketSniffer) (metadata : InboundContext)
    (packet : List UInt8) : InboundContext × Option SniffError :=
  sniffRound sniffers packet metadata []

/-! ## Nothing is lost -/

variable (size : Nat) (sniffers : List StreamSniffer) (buffers : List (List UInt8))
  (conn : List ConnEvent) (metadata : InboundContext)

theorem peekStreamLoop_bytes (buffer : List UInt8) (sniffed : Bool) (sniffError : SniffError) :
    let peek := peekStreamLoop size sniffers buffers conn metadata buffer sniffed sniffError
    peek.buffer ++ ConnEvent.bytes peek.conn = buffer ++ ConnEvent.bytes conn := by
  induction conn generalizing metadata buffer sniffed sniffError with
  | nil => rfl
  | cons event rest ih =>
    cases event with
    | deadlineError => rfl
    | read data err =>
      simp only [peekStreamLoop]
      split
      · rfl
      · split
        · -- a chunk that does not fit is cut in two
          simp only [ConnEvent.bytes, append_assoc]
          rw [← append_assoc (data.take _), take_append_drop]
        · rename_i hfit
          have htake : data.take (size - buffer.length) = data :=
            take_of_length_le (by omega)
          rw [htake]
          split
          · simp only [ConnEvent.bytes, append_assoc]
          · split
            · simp only [ConnEvent.bytes, append_assoc]
            · split
              · simp only [ih, ConnEvent.bytes, append_assoc]
              · simp only [ConnEvent.bytes, append_assoc]

/-- The bytes taken from the connection are in the buffer, the others still to be read. -/
theorem peekStream_bytes :
    (peekStream size sniffers buffers conn metadata).buffer ++
        ConnEvent.bytes (peekStream size sniffers buffers conn metadata).conn =
      ConnEvent.bytes conn :=
  peekStreamLoop_bytes size sniffers buffers conn metadata [] false []

theorem peekStreamLoop_quiet (sniffed : Bool) (sniffError : SniffError)
    (quiet : ConnEvent.quiet conn = true) :
    (peekStreamLoop size sniffers buffers conn metadata [] sniffed sniffError).buffer = [] := by
  induction conn generalizing metadata sniffed sniffError with
  | nil => rfl
  | cons event rest ih =>
    cases event with
    | deadlineError => rfl
    | read data err =>
      simp only [ConnEvent.quiet, Bool.and_eq_true, List.isEmpty_iff, Bool.or_eq_true] at quiet
      obtain ⟨rfl, later⟩ := quiet
      simp only [peekStreamLoop, take_nil, append_nil, length_nil]
      split
      · rfl
      · rw [if_neg (Nat.not_lt_zero _)]
        cases err with
        | true => rfl
        | false =>
          have restQuiet : ConnEvent.quiet rest = true := by simpa using later
          -- an empty read without an error: the sniffers may ask for more, and none comes
          simp only [Bool.false_eq_true, if_false]
          split
          · rfl
          · split
            · exact ih _ _ _ restQuiet
            · rfl

/-- A connection with nothing to read leaves the buffer empty. -/
theorem peekStream_quiet (quiet : ConnEvent.quiet conn = true) :
    (peekStream size sniffers buffers conn metadata).buffer = [] :=
  peekStreamLoop_quiet size sniffers buffers conn metadata false [] quiet

end SingBox.Sniff
