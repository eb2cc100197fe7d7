import CppFrame.PieceReader
import CppFrame.SimpleWeb.Frame

/-!
# The server reads a connection

`read_message` and `read_message_content` of `server_ws.hpp`. Each asks for a number of bytes and
goes on when they have arrived: the first two bytes of a frame, the bytes of its length, its mask
and content. `SocketServer.reader` is the reader they make up; what stands in the connection's
`streambuf` is the buffer it is run with (`PieceReader.arrive`). Bytes are taken from the front of
that buffer, which holds at least those that were asked for.

What the handlers do to the outside is the list of their `Action`s, in order.
-/

namespace CppFrame.SimpleWeb

/-! ## Data -/

/-- `InMessage`: its first byte, its `length` and the bytes of its `streambuf`. -/
structure InMessage where
  finRsvOpcode : UInt8
  length : UInt64
  streambuf : List UInt8
  deriving DecidableEq, Repr

/-- `InMessage::string`. -/
def InMessage.string (inMessage : InMessage) : String := textOf inMessage.streambuf

/-- `error_code`: one of those that the library makes itself, or one of the socket with its
message. -/
inductive ErrorCode
  | messageSize
  | protocolError
  | permissionDenied
  | socket (message : String)
  deriving DecidableEq, Repr

/-- `error_code::message`. -/
def ErrorCode.message : ErrorCode → String
  | .messageSize => "Message too long"
  | .protocolError => "Protocol error"
  | .permissionDenied => "Permission denied"
  | .socket message => message

/-- What a handler does: it makes one of the callbacks, or queues a frame. -/
inductive Action
  | onMessage (inMessage : InMessage)
  | onPing
  | onPong
  | onClose (status : Nat) (reason : String)
  | onError (ec : ErrorCode)
  | send (message : List UInt8) (finRsvOpcode : UInt8)
  | sendClose (status : Nat) (reason : String)
  deriving DecidableEq, Repr

/-- The read that is outstanding: the first bytes of a frame, the bytes of its length, or its mask
and content. -/
inductive Pending
  | first
  | length (numBytes : Nat) (finRsvOpcode : UInt8)
  | content (length : UInt64) (finRsvOpcode : UInt8)
  | ended
  deriving DecidableEq, Repr

/-- The part of `Config` that reading depends on. -/
structure Config where
  maxMessageSize : UInt64 := 0xffffffffffffffff

/-- What the readers keep of a connection between two reads. -/
structure Reading where
  fragmentedInMessage : Option InMessage
  pending : Pending
  deriving DecidableEq, Repr

/-- A connection of which nothing has been read. -/
def Reading.start : Reading := ⟨none, .first⟩

/-- The length of the message that is being put together. -/
def Reading.fragmentedLength (c : Reading) : UInt64 := c.fragmentedInMessage.elim 0 InMessage.length

/-! ## What both sides make of a close frame -/

/-- Status and reason of a close frame: two bytes are taken from the message, and the rest is the
reason. -/
def closeOf (length : UInt64) (inMessage : InMessage) : Nat × String :=
  if length ≥ 2 then
    let byte1 := inMessage.streambuf.head?.getD 0xff
    let byte2 := inMessage.streambuf.tail.head?.getD 0xff
    (byte1.toNat <<< 8 + byte2.toNat, textOf (inMessage.streambuf.drop 2))
  else (0, textOf inMessage.streambuf)

/-! ## The server -/

namespace SocketServer

/-- The start of `read_message_content`: a message that gets too long ends the connection. -/
def readMessageContent (config : Config) (c : Reading) (length : UInt64) (finRsvOpcode : UInt8) :
    Reading × List Action :=
  if length + c.fragmentedLength > config.maxMessageSize then
    ({ c with pending := .ended },
      [.onError .messageSize, .sendClose 1009 "message too big", .onClose 1009 "message too big"])
  else ({ c with pending := .content length finRsvOpcode }, [])

/-- The first two bytes of a frame have been read. -/
def onFirstBytes (config : Config) (c : Reading) (finRsvOpcode second : UInt8) :
    Reading × List Action :=
  if second < 128 then
    ({ c with pending := .ended },
      [.sendClose 1002 "message from client not masked",
      .onClose 1002 "message from client not masked"])
  else
    let length := second &&& 127
    if length = 126 then ({ c with pending := .length 2 finRsvOpcode }, [])
    else if length = 127 then ({ c with pending := .length 8 finRsvOpcode }, [])
    else readMessageContent config c length.toUInt64 finRsvOpcode

/-- Whether a frame belongs to a message in several fragments. -/
def isFragment (finRsvOpcode : UInt8) : Bool :=
  finRsvOpcode &&& 0x80 = 0 || finRsvOpcode &&& 0x0f = 0

/-- The message that a frame belongs to, its content put in. -/
def inMessage (c : Reading) (length : UInt64) (finRsvOpcode : UInt8) (content : List UInt8) :
    InMessage :=
  if isFragment finRsvOpcode then
    match c.fragmentedInMessage with
    | none => ⟨finRsvOpcode ||| 0x80, length, content⟩
    | some m => ⟨m.finRsvOpcode, m.length + length, m.streambuf ++ content⟩
  else ⟨finRsvOpcode, length, content⟩

/-- The content of a frame has been read. -/
def onContent (c : Reading) (length : UInt64) (finRsvOpcode : UInt8) (content : List UInt8) :
    Reading × List Action :=
  let m := inMessage c length finRsvOpcode content
  let fragmented := if isFragment finRsvOpcode then some m else c.fragmentedInMessage
  if finRsvOpcode &&& 0x0f = 8 then
    let close := closeOf length m
    (⟨fragmented, .ended⟩, [.sendClose close.1 close.2, .onClose close.1 close.2])
  else if finRsvOpcode &&& 0x0f = 9 then
    (⟨fragmented, .first⟩, [.send m.streambuf (finRsvOpcode + 1), .onPing])
  else if finRsvOpcode &&& 0x0f = 10 then (⟨fragmented, .first⟩, [.onPong])
  else if finRsvOpcode &&& 0x80 = 0 then (⟨fragmented, .first⟩, [])
  else (⟨none, .first⟩, [.onMessage m])

/-- How many bytes the outstanding read asks for; `4 + length` is of type `size_t`. -/
def want (c : Reading) : Option Nat :=
  match c.pending with
  | .first => some 2
  | .length numBytes _ => some numBytes
  | .content length _ => some (4 + length).toNat
  | .ended => none

/-- The bytes of the outstanding read are taken. There is no result where the loop over the content
would go on behind the bytes that were asked for. -/
def take (config : Config) (c : Reading) (piece : List UInt8) : Option (Reading × List Action) :=
  match c.pending, piece with
  | .first, [finRsvOpcode, second] => some (onFirstBytes config c finRsvOpcode second)
  | .length _ finRsvOpcode, lengthBytes =>
    some (readMessageContent config c (getLength 0 lengthBytes) finRsvOpcode)
  | .content length finRsvOpcode, m₀ :: m₁ :: m₂ :: m₃ :: masked =>
    if length.toNat ≤ masked.length then
      some (onContent c length finRsvOpcode (xorMask ![m₀, m₁, m₂, m₃]
        0 (masked.take length.toNat)))
    else none
  | _, _ => none

/-- The reader of a connection of the server. -/
def reader (config : Config) : PieceReader Reading UInt8 Action := ⟨want, take config⟩

/-- An outstanding read completes. Where the first two bytes were asked for and none arrived,
they are asked for again; `async_read` asks for what is wanted, whatever the `streambuf` holds
already. -/
def complete (config : Config) (c : PieceReader.Buffered Reading UInt8) (arrived : List UInt8) :
    Option (PieceReader.Buffered Reading UInt8 × List Action) :=
  if c.state.pending = .first ∧ arrived = [] then some (c, []) else (reader config).arrive c arrived

/-- What `async_read` promises: the bytes that were asked for, or, at the start of a frame, none. -/
def Completes (c : PieceReader.Buffered Reading UInt8) (_ : List (List UInt8 × List Action))
    (arrived : List UInt8) : Prop :=
  want c.state = some arrived.length ∨ c.state.pending = .first ∧ arrived = []

instance (c : PieceReader.Buffered Reading UInt8) (t : List (List UInt8 × List Action))
    (arrived : List UInt8) :
    Decidable (Completes c t arrived) := by
  unfold Completes; infer_instance

/-- The runs of a connection whose `streambuf` holds `leftover` behind the handshake. -/
abbrev Listens (config : Config) (leftover : List UInt8) :=
  Run (complete config) Completes ⟨.start, leftover⟩

/-! ## Every client frame is read as it was written -/

variable {config : Config} {c : Reading} {finRsvOpcode : UInt8}

theorem readMessageContent_of_le {length : UInt64}
    (h : length + c.fragmentedLength ≤ config.maxMessageSize) :
    readMessageContent config c length finRsvOpcode =
      ({ c with pending := .content length finRsvOpcode }, []) :=
  if_neg (UInt64.not_lt.2 h)

/-- The second byte of a masked frame with a short length. -/
theorem second_of_lt {length : UInt64} (h : length < 126) :
    ¬ (length + 128).toUInt8 < 128 ∧ (length + 128).toUInt8 &&& 127 ≠ 126 ∧
      (length + 128).toUInt8 &&& 127 ≠ 127 ∧
      ((length + 128).toUInt8 &&& 127).toUInt64 = length := by
  have hl : length.toNat < 126 := h
  obtain ⟨n, hn, rfl⟩ : ∃ n < 126, length = UInt64.ofNat n := ⟨_, hl, UInt64.ofNat_toNat.symm⟩
  revert n
  decide

/-- The header of a client's frame is read up to the mask. -/
theorem reads_outHeader {f : Option InMessage} {length : UInt64}
    (hl : length + f.elim 0 InMessage.length ≤ config.maxMessageSize) :
    (reader config).Reads ⟨f, .first⟩ (SocketClient.outHeader finRsvOpcode length) []
      ⟨f, .content length finRsvOpcode⟩ := by
  have hlength : ∀ n (hn : n ≤ 8) (hlt : length.toNat < 256 ^ n),
      (reader config).Reads ⟨f, .length n finRsvOpcode⟩ (putLength length n) []
      ⟨f, .content length finRsvOpcode⟩ := by
    intro n hn hlt
    refine .one (by rw [length_putLength]; rfl) ?_
    show some (readMessageContent config _ (getLength 0 (putLength length n)) finRsvOpcode) = _
    rw [getLength_putLength hn hlt]
    exact congrArg some (readMessageContent_of_le hl)
  unfold SocketClient.outHeader
  split_ifs with h₁ h₂
  · show (reader config).Reads _ ([finRsvOpcode, 127 + 128] ++ putLength length 8) ([] ++ []) _
    exact .append (.one rfl rfl) (hlength 8 le_rfl length.toNat_lt)
  · have hlt : length.toNat < 256 ^ 2 :=
      Nat.lt_succ_of_le (UInt64.le_iff_toNat_le.1 (UInt64.not_lt.1 h₂))
    show (reader config).Reads _ ([finRsvOpcode, 126 + 128] ++ putLength length 2) ([] ++ []) _
    exact .append (.one rfl rfl) (hlength 2 (by decide) hlt)
  · obtain ⟨hs₀, hs₁, hs₂, hs₃⟩ := second_of_lt (UInt64.not_le.1 h₁)
    refine .one rfl ?_
    show some (onFirstBytes config _ finRsvOpcode (length + 128).toUInt8) = _
    unfold onFirstBytes
    rw [if_neg hs₀]
    simp only [if_neg hs₁, if_neg hs₂, hs₃]
    exact congrArg some (readMessageContent_of_le hl)

/-- The mask and the content of a message that is sent. -/
theorem toNat_four_add (m : OutMessage) : (4 + m.size).toNat = 4 + m.streambuf.length := by
  have h := m.size_lt
  rw [UInt64.toNat_add, m.toNat_size]
  exact Nat.mod_eq_of_lt (by show 4 + m.streambuf.length < 2 ^ 64; omega)

/-- **A frame of a client is read as it was written**: the content of the message is what was
sent. -/
theorem reads_frame {f : Option InMessage} (mask : Mask) (m : OutMessage)
    (hl : m.size + f.elim 0 InMessage.length ≤ config.maxMessageSize) {c' : Reading}
    {out : List Action}
    (hr : onContent ⟨f, .content m.size finRsvOpcode⟩ m.size finRsvOpcode m.streambuf = (c', out)) :
    (reader config).Reads ⟨f, .first⟩ (SocketClient.frame mask finRsvOpcode m) out c' := by
  refine (reads_outHeader hl).snoc (o := out) ?_ ?_
  · show some (4 + m.size).toNat = _
    rw [toNat_four_add, List.length_append, List.length_ofFn, length_xorMask]
  · have hmask : ![mask 0, mask 1, mask 2, mask 3] = mask := by
      funext i
      match i with
      | 0 => rfl
      | 1 => rfl
      | 2 => rfl
      | 3 => rfl
    simp only [List.ofFn_succ, List.ofFn_zero, List.cons_append, List.nil_append]
    show (if m.size.toNat ≤ (xorMask mask 0 m.streambuf).length then _ else none) = _
    rw [m.toNat_size, length_xorMask, if_pos le_rfl,
      List.take_of_length_le (by rw [length_xorMask])]
    show some (onContent _ _ _ (xorMask ![mask 0, mask 1, mask 2, mask 3] 0 _)) = _
    rw [hmask, xorMask_xorMask, hr]

/-! ## Runs -/

/-- **The server reads late by what it held.** With bytes in its `streambuf` behind the handshake,
the server has at any time handled as many bytes of the stream as it has read since, and not those
that it holds. -/
theorem reads_of_run {leftover : List UInt8} {t : List (List UInt8 × List Action)}
    {b : PieceReader.Buffered Reading UInt8} (h : Listens config leftover t b) :
    (reader config).Reads .start ((leftover ++ PieceReader.arrived t).take
      (PieceReader.arrived t).length)
      (PieceReader.outputs t) b.state := by
  have hinv : PieceReader.Holds (reader config) ⟨.start, leftover⟩ t b ∧ b.buffer.length =
      leftover.length := by
    refine h.invariant (P := fun t b => PieceReader.Holds (reader config) ⟨.start, leftover⟩ t b ∧
      b.buffer.length = leftover.length) ⟨PieceReader.holds_start _, rfl⟩ ?_
    rintro t b x b' out ⟨⟨l, hl, hr⟩, hlen⟩ hx hs
    unfold complete at hs
    split_ifs at hs with h₀
    · cases hs
      refine ⟨⟨l, ?_, ?_⟩, hlen⟩
      · rw [PieceReader.arrived_snoc, h₀.2, List.append_nil, hl]
      · rwa [PieceReader.outputs_snoc, List.append_nil]
    · refine ⟨PieceReader.Holds.arrive ⟨l, hl, hr⟩ hs, ?_⟩
      rw [PieceReader.length_buffer_of_arrive hs (hx.resolve_right h₀), hlen]
  obtain ⟨⟨l, hl, hr⟩, hlen⟩ := hinv
  change leftover ++ PieceReader.arrived t = l ++ b.buffer at hl
  have hsum := congrArg List.length hl
  rw [List.length_append, List.length_append] at hsum
  rw [hl, List.take_append_of_le_length (by omega), List.take_of_length_le (by omega)]
  exact hr

end SocketServer

end CppFrame.SimpleWeb
