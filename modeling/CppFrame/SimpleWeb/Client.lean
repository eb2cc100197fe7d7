import CppFrame.SimpleWeb.Server

/-!
# The client reads a connection

`read_message` and `read_message_content` of `client_ws.hpp`. The bytes behind the handshake that
came with it stand in the `streambuf` of `in_message` when the first frame is read, so the client
counts them (`num_additional_bytes`), asks the socket only for what is missing, and carries what is
over into the next message. `Client.complete` is the code with its counts; it does what
`SocketClient.reader` does with a buffer (`SocketClient.holds_of_run`).
-/

namespace CppFrame.SimpleWeb

namespace SocketClient

/-! ## The code -/

/-- The read that is outstanding; the frame it is about stands in `in_message`. -/
inductive Awaiting
  | first
  | length (numBytes : Nat)
  | content
  | ended
  deriving DecidableEq, Repr

/-- What the client keeps of its connection between two reads. -/
structure Connection where
  inMessage : InMessage
  fragmentedInMessage : Option InMessage
  numAdditionalBytes : Nat
  awaiting : Awaiting
  deriving DecidableEq, Repr

/-- `InMessage()`, whose first byte nobody has set. -/
def newInMessage : InMessage := ⟨0, 0, []⟩

/-- The connection after the handshake, with the bytes that came behind it. -/
def Connection.opened (additional : List UInt8) : Connection :=
  ⟨{ newInMessage with streambuf := additional }, none, additional.length, .first⟩

/-- What is left of a number of additional bytes when `n` bytes have been read. -/
def less (numAdditionalBytes n : Nat) : Nat :=
  if numAdditionalBytes > n then numAdditionalBytes - n else 0

/-- How many bytes are asked for when `n` are wanted. -/
def missing (numAdditionalBytes n : Nat) : Nat :=
  if numAdditionalBytes > n then 0 else n - numAdditionalBytes

/-- The size of the outstanding read. -/
def asked (c : Connection) : Option Nat :=
  match c.awaiting with
  | .first => some (missing c.numAdditionalBytes 2)
  | .length numBytes => some (missing c.numAdditionalBytes numBytes)
  | .content => some (missing c.numAdditionalBytes c.inMessage.length.toNat)
  | .ended => none

/-- The start of `read_message_content`. -/
def readMessageContent (config : Config) (c : Connection) (numAdditionalBytes : Nat) :
    Connection × List Action :=
  if c.inMessage.length + c.fragmentedInMessage.elim 0 InMessage.length > config.maxMessageSize then
    ({ c with awaiting := .ended },
      [.onError .messageSize, .sendClose 1009 "message too big", .onClose 1009 "message too big"])
  else ({ c with awaiting := .content, numAdditionalBytes := numAdditionalBytes }, [])

/-- The first two bytes of a frame have been read; `c` holds what is behind them. -/
def onFirstBytes (config : Config) (c : Connection) (second : UInt8) : Connection × List Action :=
  let updated := less c.numAdditionalBytes 2
  if second ≥ 128 then
    ({ c with awaiting := .ended },
      [.sendClose 1002 "message from server masked", .onClose 1002 "message from server masked"])
  else
    let length := second &&& 127
    if length = 126 then ({ c with awaiting := .length 2, numAdditionalBytes := updated }, [])
    else if length = 127 then ({ c with awaiting := .length 8, numAdditionalBytes := updated }, [])
    else readMessageContent config
      { c with inMessage := { c.inMessage with length := length.toUInt64 } } updated

/-- The fragments so far with one more. -/
def append (fragmented m : InMessage) : InMessage :=
  ⟨fragmented.finRsvOpcode, fragmented.length + m.length, fragmented.streambuf ++ m.streambuf⟩

/-- `in_message` holds the content of a frame, and `next` is what the next frame is read into. -/
def onMessageContent (c : Connection) (next : InMessage) (updated : Nat) :
    Connection × List Action :=
  let m := c.inMessage
  if m.finRsvOpcode &&& 0x0f = 8 then
    let close := closeOf m.length m
    ({ c with awaiting := .ended }, [.sendClose close.1 close.2, .onClose close.1 close.2])
  else if m.finRsvOpcode &&& 0x0f = 9 then
    (⟨next, c.fragmentedInMessage, updated, .first⟩,
      [.send m.streambuf (m.finRsvOpcode + 1), .onPing])
  else if m.finRsvOpcode &&& 0x0f = 10 then
    (⟨next, c.fragmentedInMessage, updated, .first⟩, [.onPong])
  else if m.finRsvOpcode &&& 0x80 = 0 then
    match c.fragmentedInMessage with
    | none => (⟨next, some { m with finRsvOpcode := m.finRsvOpcode ||| 0x80 }, updated, .first⟩, [])
    | some fragmented => (⟨next, some (append fragmented m), updated, .first⟩, [])
  else
    match c.fragmentedInMessage with
    | none => (⟨next, none, updated, .first⟩, [.onMessage m])
    | some fragmented => (⟨next, none, updated, .first⟩, [.onMessage (append fragmented m)])

/-- The content of a frame has been read: what is over goes into the next message. -/
def onContent (c : Connection) : Connection × List Action :=
  let m := c.inMessage
  let updated := less c.numAdditionalBytes m.length.toNat
  if updated > 0 then
    onMessageContent { c with inMessage := { m with streambuf := m.streambuf.take m.length.toNat } }
      { m with streambuf := m.streambuf.drop m.length.toNat } updated
  else onMessageContent c newInMessage updated

/-- An outstanding read completes. There is no result where bytes are taken that have not
arrived. -/
def complete (config : Config) (c : Connection) (arrived : List UInt8) :
    Option (Connection × List Action) :=
  let streambuf := c.inMessage.streambuf ++ arrived
  match c.awaiting with
  | .first =>
    if arrived = [] ∧ streambuf = [] then some ({ c with numAdditionalBytes := 0 }, [])
    else
      match streambuf with
      | finRsvOpcode :: second :: rest =>
        some (onFirstBytes config
          { c with inMessage :=
            { c.inMessage with finRsvOpcode := finRsvOpcode, streambuf := rest } } second)
      | _ => none
  | .length numBytes =>
    if numBytes ≤ streambuf.length then
      some (readMessageContent config
        { c with inMessage :=
          { c.inMessage with
            length := getLength 0 (streambuf.take numBytes), streambuf :=
              streambuf.drop numBytes } }
        (less c.numAdditionalBytes numBytes))
    else none
  | .content =>
    if c.inMessage.length.toNat ≤ streambuf.length then
      some (onContent { c with inMessage := { c.inMessage with streambuf := streambuf } })
    else none
  | .ended => none

/-- What `async_read` promises: the bytes that were asked for, or, at the start of a frame, none. -/
def Completes (c : Connection) (_ : List (List UInt8 × List Action)) (arrived : List UInt8) :
    Prop :=
  asked c = some arrived.length ∨ c.awaiting = .first ∧ arrived = [] ∧ c.inMessage.streambuf = []

instance (c : Connection) (t : List (List UInt8 × List Action)) (arrived : List UInt8) :
    Decidable (Completes c t arrived) := by
  unfold Completes; infer_instance

/-- The runs of a client's connection whose handshake came with `additional` bytes behind it. -/
abbrev Listens (config : Config) (additional : List UInt8) :=
  Run (complete config) Completes (.opened additional)

/-! ## The reader behind it -/

/-- What is read next, without the counts. -/
def Connection.reading (c : Connection) : Reading :=
  ⟨c.fragmentedInMessage,
    match c.awaiting with
    | .first => .first
    | .length numBytes => .length numBytes c.inMessage.finRsvOpcode
    | .content => .content c.inMessage.length c.inMessage.finRsvOpcode
    | .ended => .ended⟩

/-- How long the next piece is. -/
def want (c : Reading) : Option Nat :=
  match c.pending with
  | .first => some 2
  | .length numBytes _ => some numBytes
  | .content length _ => some length.toNat
  | .ended => none

/-- What a handler leaves to be read, and what it does. -/
def seen (r : Connection × List Action) : Reading × List Action := (r.1.reading, r.2)

/-- What the code makes of a piece, on a connection that holds nothing else. -/
def take (config : Config) (c : Reading) (piece : List UInt8) : Option (Reading × List Action) :=
  match c.pending, piece with
  | .first, [finRsvOpcode, second] =>
    some (seen (onFirstBytes config ⟨⟨finRsvOpcode, 0, []⟩,
      c.fragmentedInMessage, 0, .first⟩ second))
  | .length _ finRsvOpcode, lengthBytes =>
    some (seen (readMessageContent config
      ⟨⟨finRsvOpcode, getLength 0 lengthBytes, []⟩, c.fragmentedInMessage, 0, .first⟩ 0))
  | .content length finRsvOpcode, content =>
    some (seen (onMessageContent ⟨⟨finRsvOpcode, length, content⟩,
      c.fragmentedInMessage, 0, .content⟩
      newInMessage 0))
  | _, _ => none

/-- The reader of a connection of the client. -/
def reader (config : Config) : PieceReader Reading UInt8 Action := ⟨want, take config⟩

variable {config : Config} {c c' : Connection}

/-- The count is right while there is something to be read. -/
def Counted (c : Connection) (buffer : List UInt8) : Prop :=
  c.awaiting ≠ .ended → c.inMessage.streambuf = buffer ∧ c.numAdditionalBytes = buffer.length

theorem less_of_missing {n k m : Nat} (h : k = missing n m) : less n m = n + k - m := by
  unfold missing at h
  unfold less
  split_ifs at * <;> omega

theorem readMessageContent_seen (h : c.inMessage.finRsvOpcode = c'.inMessage.finRsvOpcode)
    (hl : c.inMessage.length = c'.inMessage.length)
    (hf : c.fragmentedInMessage = c'.fragmentedInMessage) (n n' : Nat) :
    seen (readMessageContent config c n) = seen (readMessageContent config c' n') := by
  unfold seen readMessageContent
  rw [hl, hf]
  split_ifs
  · simp only [Connection.reading]
  · simp only [Connection.reading, h, hl]

theorem readMessageContent_counted {n : Nat} (hn : n = c.inMessage.streambuf.length) :
    Counted (readMessageContent config c n).1 c.inMessage.streambuf := by
  unfold readMessageContent
  split_ifs
  · exact fun h => absurd rfl h
  · exact fun _ => ⟨rfl, hn⟩

theorem onFirstBytes_seen (h : c.inMessage.finRsvOpcode = c'.inMessage.finRsvOpcode)
    (hf : c.fragmentedInMessage = c'.fragmentedInMessage) (second : UInt8) :
    seen (onFirstBytes config c second) = seen (onFirstBytes config c' second) := by
  unfold onFirstBytes
  dsimp only
  split_ifs
  · simp only [seen, Connection.reading, hf]
  · simp only [seen, Connection.reading, hf, h]
  · simp only [seen, Connection.reading, hf, h]
  · refine readMessageContent_seen ?_ ?_ ?_ _ _
    · exact h
    · rfl
    · exact hf

theorem onFirstBytes_counted {second : UInt8}
    (hn : less c.numAdditionalBytes 2 = c.inMessage.streambuf.length) :
    Counted (onFirstBytes config c second).1 c.inMessage.streambuf := by
  unfold onFirstBytes
  dsimp only
  split_ifs
  · exact fun h => absurd rfl h
  · exact fun _ => ⟨rfl, hn⟩
  · exact fun _ => ⟨rfl, hn⟩
  · exact readMessageContent_counted hn

/-- What a content leads to does not depend on what stands behind it. -/
theorem onMessageContent_seen (hm : c.inMessage = c'.inMessage)
    (hf : c.fragmentedInMessage = c'.fragmentedInMessage) (next next' : InMessage) (n n' : Nat) :
    seen (onMessageContent c next n) = seen (onMessageContent c' next' n') := by
  unfold onMessageContent
  dsimp only
  rw [hm, hf]
  split_ifs
  · simp only [seen, Connection.reading]
  · rfl
  · rfl
  · cases c'.fragmentedInMessage <;> rfl
  · cases c'.fragmentedInMessage <;> rfl

theorem onMessageContent_counted {next : InMessage} {n : Nat} (hn : n = next.streambuf.length) :
    Counted (onMessageContent c next n).1 next.streambuf := by
  unfold onMessageContent
  dsimp only
  split_ifs
  · exact fun h => absurd rfl h
  · exact fun _ => ⟨rfl, hn⟩
  · exact fun _ => ⟨rfl, hn⟩
  · cases c.fragmentedInMessage <;> exact fun _ => ⟨rfl, hn⟩
  · cases c.fragmentedInMessage <;> exact fun _ => ⟨rfl, hn⟩

/-- What is over after a content stands in the next message. -/
theorem onContent_step {b : List UInt8} (hb : c.inMessage.streambuf = b)
    (hl : c.inMessage.length.toNat ≤ b.length)
    (hn : less c.numAdditionalBytes c.inMessage.length.toNat = b.length -
      c.inMessage.length.toNat) :
    seen (onContent c) = seen (onMessageContent
        ⟨{ c.inMessage with streambuf := b.take c.inMessage.length.toNat },
          c.fragmentedInMessage, 0, .content⟩
        newInMessage 0) ∧
      Counted (onContent c).1 (b.drop c.inMessage.length.toNat) := by
  unfold onContent
  dsimp only
  rw [hb]
  split_ifs with hu
  · refine ⟨onMessageContent_seen ?_ ?_ _ _ _ _, onMessageContent_counted ?_⟩
    · rfl
    · rfl
    · rw [hn, List.length_drop]
  · -- nothing is over: the whole buffer is the content
    have hle : b.length = c.inMessage.length.toNat := by omega
    have hwhole : b.take c.inMessage.length.toNat = b := List.take_of_length_le hle.le
    have hrest : b.drop c.inMessage.length.toNat = newInMessage.streambuf :=
      List.drop_of_length_le hle.le
    rw [hwhole, hrest]
    refine ⟨onMessageContent_seen ?_ ?_ _ _ _ _,
      onMessageContent_counted (Nat.eq_zero_of_not_pos hu)⟩
    · rw [← hb]
    · rfl

/-! ## Every server frame is read as it was written -/

/-- The second byte of a frame without mask and with a short length. -/
theorem second_of_lt {length : UInt64} (h : length < 126) :
    ¬ length.toUInt8 ≥ 128 ∧ length.toUInt8 &&& 127 ≠ 126 ∧ length.toUInt8 &&& 127 ≠ 127 ∧
      (length.toUInt8 &&& 127).toUInt64 = length := by
  have hl : length.toNat < 126 := h
  obtain ⟨n, hn, rfl⟩ : ∃ n < 126, length = UInt64.ofNat n := ⟨_, hl, UInt64.ofNat_toNat.symm⟩
  revert n
  decide

theorem readMessageContent_of_le
    (h : c.inMessage.length + c.fragmentedInMessage.elim 0 InMessage.length ≤ config.maxMessageSize)
    (n : Nat) :
    seen (readMessageContent config c n) =
      (⟨c.fragmentedInMessage, .content c.inMessage.length c.inMessage.finRsvOpcode⟩, []) := by
  unfold readMessageContent
  rw [if_neg (UInt64.not_lt.2 h)]
  rfl

/-- The header of a server's frame is read. -/
theorem reads_outHeader {f : Option InMessage} {finRsvOpcode : UInt8} {length : UInt64}
    (hl : length + f.elim 0 InMessage.length ≤ config.maxMessageSize) :
    (reader config).Reads ⟨f, .first⟩ (SocketServer.outHeader finRsvOpcode length) []
      ⟨f, .content length finRsvOpcode⟩ := by
  have hlength : ∀ n (hn : n ≤ 8) (hlt : length.toNat < 256 ^ n),
      (reader config).Reads ⟨f, .length n finRsvOpcode⟩ (putLength length n) []
      ⟨f, .content length finRsvOpcode⟩ := by
    intro n hn hlt
    refine .one (by rw [length_putLength]; rfl) ?_
    show some (seen
      (readMessageContent config ⟨⟨_, getLength 0 (putLength length n), _⟩, _, _, _⟩ _)) = _
    rw [getLength_putLength hn hlt, readMessageContent_of_le hl]
  unfold SocketServer.outHeader
  split_ifs with h₁ h₂
  · show (reader config).Reads _ ([finRsvOpcode, 127] ++ putLength length 8) ([] ++ []) _
    exact .append (.one rfl rfl) (hlength 8 le_rfl length.toNat_lt)
  · have hlt : length.toNat < 256 ^ 2 :=
      Nat.lt_succ_of_le (UInt64.le_iff_toNat_le.1 (UInt64.not_lt.1 h₂))
    show (reader config).Reads _ ([finRsvOpcode, 126] ++ putLength length 2) ([] ++ []) _
    exact .append (.one rfl rfl) (hlength 2 (by decide) hlt)
  · obtain ⟨hs₀, hs₁, hs₂, hs₃⟩ := second_of_lt (UInt64.not_le.1 h₁)
    refine .one rfl ?_
    show some (seen (onFirstBytes config _ length.toUInt8)) = _
    unfold onFirstBytes
    rw [if_neg hs₀]
    simp only [if_neg hs₁, if_neg hs₂, hs₃]
    rw [readMessageContent_of_le hl]

/-- **A frame of the server is read as it was written.** -/
theorem reads_frame {f : Option InMessage} {finRsvOpcode : UInt8} (m : OutMessage)
    (hl : m.size + f.elim 0 InMessage.length ≤ config.maxMessageSize) {c' : Reading}
    {out : List Action}
    (hr : seen (onMessageContent ⟨⟨finRsvOpcode, m.size, m.streambuf⟩, f, 0, .content⟩
      newInMessage 0) = (c', out)) :
    (reader config).Reads ⟨f, .first⟩ (SocketServer.frame finRsvOpcode m) out c' := by
  refine (reads_outHeader hl).snoc (o := out) ?_ ?_
  · show some m.size.toNat = _
    rw [m.toNat_size]
  · show some (seen _) = _
    rw [hr]

/-! ## Runs -/

/-- The connection and the reader behind it. -/
structure Shows (c : Connection) (b : PieceReader.Buffered Reading UInt8) : Prop where
  state : b.state = c.reading
  counted : Counted c b.buffer

section

variable {b : PieceReader.Buffered Reading UInt8} {x : List UInt8} {out : List Action}

/-- A piece of the buffer is taken, and the count that the code keeps is the length of what is
left. -/
theorem Shows.piece (hb : Shows c b) {n : Nat} {r : Connection × List Action}
    (hw : want c.reading = some n) (hn : n ≤ (b.buffer ++ x).length)
    (ht : take config c.reading ((b.buffer ++ x).take n) = some (seen r))
    (hcount : Counted r.1 ((b.buffer ++ x).drop n)) (hr : r = (c', out)) :
    ∃ b', (reader config).arrive b x = some (b', out) ∧ Shows c' b' := by
  subst hr
  refine ⟨⟨c'.reading, (b.buffer ++ x).drop n⟩, ?_, rfl, hcount⟩
  unfold PieceReader.arrive
  rw [hb.state, show (reader config).want c.reading = some n from hw]
  simp only [if_pos hn]
  rw [show (reader config).take c.reading _ = _ from ht]
  rfl

/-- Where a read asked for what was missing, the count is that of the bytes behind the piece. -/
theorem Shows.less (hb : Shows c b) (hrun : c.awaiting ≠ .ended) {n : Nat}
    (ha : asked c = some (missing c.numAdditionalBytes n)) (hx : asked c = some x.length) :
    SocketClient.less c.numAdditionalBytes n = (b.buffer ++ x).length - n := by
  rw [List.length_append, ← (hb.counted hrun).2]
  exact less_of_missing (Option.some.inj (hx.symm.trans ha))

/-- The read of the first two bytes, which starts over where it came with nothing. -/
theorem Shows.first (hb : Shows c b) {t : List (List UInt8 × List Action)} (hx : Completes c t x)
    (hs : complete config c x = some (c', out)) (hw : c.awaiting = .first) :
    (out = [] ∧ x = [] ∧ Shows c' b) ∨
      ∃ b', (reader config).arrive b x = some (b', out) ∧ Shows c' b' := by
  have hrun : c.awaiting ≠ .ended := by rw [hw]; exact Awaiting.noConfusion
  have hbuf := (hb.counted hrun).1
  have hreading : c.reading = ⟨c.fragmentedInMessage, .first⟩ := by
    unfold Connection.reading; rw [hw]
  unfold SocketClient.complete at hs
  simp only [hbuf, hw] at hs
  split_ifs at hs with h₀
  · left
    cases hs
    refine ⟨rfl, h₀.1, by rw [hb.state, hreading]; rfl, fun _ => ⟨hbuf, ?_⟩⟩
    rw [(List.append_eq_nil_iff.1 h₀.2).1]
    rfl
  · right
    split at hs
    · rename_i fin second rest hl
      have hask : asked c = some x.length := by
        rcases hx with hx | ⟨-, rfl, hnil⟩
        · exact hx
        · exact absurd ⟨rfl, by rw [← hbuf, hnil, List.nil_append]⟩ h₀
      have hl2 := hb.less hrun (n := 2) (by simp only [asked, hw]) hask
      rw [hl] at hl2
      refine hb.piece (n := 2) (by rw [hreading]; rfl) (by rw [hl]; simp) ?_ ?_ (Option.some.inj hs)
      · rw [hl, hreading]
        refine congrArg some (onFirstBytes_seen ?_ ?_ second)
        · rfl
        · rfl
      · rw [hl]
        refine onFirstBytes_counted ?_
        rw [hl2]
        rfl
    · cases hs

/-- The read of the bytes of a length. -/
theorem Shows.length (hb : Shows c b) {numBytes : Nat} (hx : asked c = some x.length)
    (hs : complete config c x = some (c', out)) (hw : c.awaiting = .length numBytes) :
    ∃ b', (reader config).arrive b x = some (b', out) ∧ Shows c' b' := by
  have hrun : c.awaiting ≠ .ended := by rw [hw]; exact Awaiting.noConfusion
  have hreading : c.reading =
      ⟨c.fragmentedInMessage, .length numBytes c.inMessage.finRsvOpcode⟩ := by
    unfold Connection.reading; rw [hw]
  unfold SocketClient.complete at hs
  simp only [(hb.counted hrun).1, hw] at hs
  split_ifs at hs with hn
  refine hb.piece (by rw [hreading]; rfl) hn ?_ ?_ (Option.some.inj hs)
  · rw [hreading]
    refine congrArg some (readMessageContent_seen ?_ ?_ ?_ _ _)
    · rfl
    · rfl
    · rfl
  · refine readMessageContent_counted ?_
    show SocketClient.less c.numAdditionalBytes numBytes = ((b.buffer ++ x).drop numBytes).length
    rw [List.length_drop]
    exact hb.less hrun (by simp only [asked, hw]) hx

/-- The read of a content. -/
theorem Shows.content (hb : Shows c b) (hx : asked c = some x.length)
    (hs : complete config c x = some (c', out)) (hw : c.awaiting = .content) :
    ∃ b', (reader config).arrive b x = some (b', out) ∧ Shows c' b' := by
  have hrun : c.awaiting ≠ .ended := by rw [hw]; exact Awaiting.noConfusion
  have hreading : c.reading =
      ⟨c.fragmentedInMessage, .content c.inMessage.length c.inMessage.finRsvOpcode⟩ := by
    unfold Connection.reading; rw [hw]
  unfold SocketClient.complete at hs
  simp only [(hb.counted hrun).1, hw] at hs
  split_ifs at hs with hn
  have hl := hb.less hrun (n := c.inMessage.length.toNat) (by simp only [asked, hw]) hx
  obtain ⟨hseen, hcount⟩ := onContent_step (c := { c with
    inMessage := { c.inMessage with streambuf := b.buffer ++ x }, awaiting := .content }) rfl hn hl
  refine hb.piece (by rw [hreading]; rfl) hn ?_ hcount (Option.some.inj hs)
  rw [hreading]
  exact congrArg some hseen.symm

/-- **One read of the client.** It takes the same piece as the reader with the whole buffer, or it
starts its read over. -/
theorem Shows.complete (hb : Shows c b) {t : List (List UInt8 × List Action)} (hx : Completes c t x)
    (hs : complete config c x = some (c', out)) :
    (out = [] ∧ x = [] ∧ Shows c' b) ∨
      ∃ b', (reader config).arrive b x = some (b', out) ∧ Shows c' b' := by
  have hasked : c.awaiting ≠ .first → asked c = some x.length :=
    fun hne => hx.resolve_right fun h => hne h.1
  cases hw : c.awaiting with
  | first => exact hb.first hx hs hw
  | length numBytes =>
    exact .inr (hb.length (hasked (by rw [hw]; exact Awaiting.noConfusion)) hs hw)
  | content => exact .inr (hb.content (hasked (by rw [hw]; exact nofun)) hs hw)
  | ended =>
    unfold SocketClient.complete at hs
    rw [hw] at hs
    cases hs

end

/-- **The counts of the client are right.** Whatever of the stream came with the handshake, the
client takes the frames of the stream that it and the reads make up. -/
theorem holds_of_run {additional : List UInt8} {t : List (List UInt8 × List Action)}
    (h : Listens config additional t c) :
    ∃ b, PieceReader.Holds (reader config) ⟨.start, additional⟩ t b ∧ Shows c b := by
  refine h.invariant (P :=
    fun t c => ∃ b, PieceReader.Holds (reader config) ⟨.start, additional⟩ t b ∧ Shows c b)
    ⟨_, PieceReader.holds_start _, rfl, fun _ => ⟨rfl, rfl⟩⟩ ?_
  rintro t c x c' out ⟨b, hb, hc⟩ hx hs
  rcases hc.complete hx hs with ⟨rfl, rfl, hc'⟩ | ⟨b', hb', hc'⟩
  · obtain ⟨l, hl, hr⟩ := hb
    refine ⟨b, ⟨l, ?_, ?_⟩, hc'⟩
    · rw [PieceReader.arrived_snoc, List.append_nil, hl]
    · rwa [PieceReader.outputs_snoc, List.append_nil]
  · exact ⟨b', hb.arrive hb', hc'⟩

end SocketClient

end CppFrame.SimpleWeb
