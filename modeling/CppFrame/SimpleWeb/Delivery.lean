import CppFrame.SimpleWeb.Sizes

/-!
# Messages arrive

What one side means to say is a `Conversation`: control frames and messages, a message in one frame
or cut into fragments with control frames between them, and at the end, perhaps, a close frame.
`Understands` says of a reader what it makes of each kind of frame; both readers satisfy it. From
this it follows by induction that whatever the masks, the fragments and the pieces the bytes arrive
in, the other side makes the callbacks of the conversation, each message once and whole, and in
their order, as long as none of its messages is over the limit that the other side has set
(`SocketServer.hears`, `SocketClient.hears`).
-/

namespace CppFrame.SimpleWeb

/-! ## What is said -/

/-- The two kinds of messages. -/
inductive Kind
  | text
  | binary

/-- The opcode of a kind. -/
@[simp] def Kind.code : Kind → UInt8
  | .text => 1
  | .binary => 2

/-- The message that is delivered. -/
def InMessage.of (kind : Kind) (content : List UInt8) : InMessage :=
  ⟨0x80 ||| kind.code, .ofNat content.length, content⟩

/-- A first byte with the message behind it. -/
abbrev Frame := UInt8 × OutMessage

/-- A control frame. -/
inductive Control
  | ping (message : OutMessage)
  | pong (message : OutMessage)

@[simp] def Control.message : Control → OutMessage
  | .ping m => m
  | .pong m => m

@[simp] def Control.frame : Control → Frame
  | .ping m => (0x89, m)
  | .pong m => (0x8a, m)

/-- A ping is answered with its own content. -/
@[simp] def Control.actions : Control → List Action
  | .ping m => [.send m.streambuf 0x8a, .onPing]
  | .pong _ => [.onPong]

/-- A fragment of a message behind its first one, with the control frames before it. -/
structure Fragment where
  controls : List Control
  message : OutMessage

/-- The frames of a fragment; `finRsvOpcode` is 0 or, for the last one, 0x80. -/
def Fragment.frames (finRsvOpcode : UInt8) (f : Fragment) : List Frame :=
  f.controls.map Control.frame ++ [(finRsvOpcode, f.message)]

def Fragment.actions (f : Fragment) : List Action := f.controls.flatMap Control.actions

/-- One thing that is said. -/
inductive Item
  | control (c : Control)
  | whole (kind : Kind) (message : OutMessage)
  | fragmented (kind : Kind) (first : OutMessage) (middle : List Fragment) (last : Fragment)

def Item.frames : Item → List Frame
  | .control c => [c.frame]
  | .whole kind m => [(0x80 ||| kind.code, m)]
  | .fragmented kind first middle last =>
    (kind.code, first) :: (middle.flatMap (Fragment.frames 0) ++ last.frames 0x80)

/-- What the other side is to make of it: the answers to control frames, and a message when it is
complete. -/
def Item.actions : Item → List Action
  | .control c => c.actions
  | .whole kind m => [.onMessage (.of kind m.streambuf)]
  | .fragmented kind first middle last =>
    middle.flatMap Fragment.actions ++ (last.actions ++ [.onMessage (.of kind (first.streambuf ++
      (middle.flatMap fun f => f.message.streambuf) ++ last.message.streambuf))])

/-- A close frame. -/
structure Closing where
  status : UInt16
  reason : String
  isBytes : IsBytes reason
  size_lt : reason.length + 2 < 2 ^ 63

/-- What `send_close` writes: the two bytes of the status and the reason. -/
def closeBytes (status : Nat) (reason : String) : List UInt8 :=
  .ofNat (status >>> 8) :: .ofNat (status % 256) :: bytesOf reason

def Closing.message (c : Closing) : OutMessage where
  streambuf := closeBytes c.status.toNat c.reason
  size_lt := by
    have h := c.size_lt
    unfold closeBytes bytesOf
    rw [List.length_cons, List.length_cons, List.length_map, String.length_toList]
    omega

/-- The close frame is answered with its status and reason. -/
def Closing.actions (c : Closing) : List Action :=
  [.sendClose c.status.toNat c.reason, .onClose c.status.toNat c.reason]

/-- What one side says to the other, from the handshake on. -/
structure Conversation where
  items : List Item
  closing : Option Closing

def Conversation.frames (v : Conversation) : List Frame :=
  v.items.flatMap Item.frames ++ v.closing.toList.map fun c => (0x88, c.message)

def Conversation.actions (v : Conversation) : List Action :=
  v.items.flatMap Item.actions ++ v.closing.toList.flatMap Closing.actions

/-! ## What is not too long -/

/-- The length of a message's bytes. -/
def OutMessage.bytes (m : OutMessage) : Nat := m.streambuf.length

/-- The frames of a fragment keep the limit behind `n` bytes of the message; the control frames
count as well. -/
def Fragment.Fits (limit n : Nat) (f : Fragment) : Prop :=
  (∀ c ∈ f.controls, n + c.message.bytes ≤ limit) ∧ n + f.message.bytes ≤ limit

/-- Fragments that keep the limit behind `n` bytes of the message. -/
def FragmentsFit (limit : Nat) : Nat → List Fragment → Prop
  | _, [] => True
  | n, f :: fs => f.Fits limit n ∧ FragmentsFit limit (n + f.message.bytes) fs

/-- Nothing that is said is too long for the other side. -/
def Item.Fits (limit : Nat) : Item → Prop
  | .control c => c.message.bytes ≤ limit
  | .whole _ m => m.bytes ≤ limit
  | .fragmented _ first middle last =>
    first.bytes ≤ limit ∧ FragmentsFit limit first.bytes (middle ++ [last])

def Conversation.Fits (limit : Nat) (v : Conversation) : Prop :=
  (∀ i ∈ v.items, i.Fits limit) ∧ ∀ c ∈ v.closing, c.message.bytes ≤ limit

theorem Conversation.fits_whole {kind : Kind} {m : OutMessage} {limit : Nat} (h : m.bytes ≤ limit) :
    Conversation.Fits limit ⟨[.whole kind m], none⟩ := by
  refine ⟨fun i hi => ?_, nofun⟩
  obtain rfl := List.mem_singleton.1 hi
  exact h

/-! ## What a reader makes of a frame -/

/-- The reader makes of each kind of frame what is meant, in the bytes that `word` allows for it. -/
structure Understands (m : PieceReader Reading UInt8 Action) (limit : Nat) (word : Frame →
    List UInt8 → Prop) :
    Prop where
  waits : ∀ frag, m.want ⟨frag, .first⟩ = some 2
  ended : ∀ frag, m.want ⟨frag, .ended⟩ = none
  control : ∀ {k l w} (c : Control), word c.frame w → l.length + c.message.bytes ≤ limit →
    m.Reads ⟨some (.of k l), .first⟩ w c.actions ⟨some (.of k l), .first⟩
  controlAlone : ∀ {w} (c : Control), word c.frame w → c.message.bytes ≤ limit →
    m.Reads ⟨none, .first⟩ w c.actions ⟨none, .first⟩
  whole : ∀ {w} (kind : Kind) (o : OutMessage), word (0x80 ||| kind.code, o) w → o.bytes ≤ limit →
    m.Reads ⟨none, .first⟩ w [.onMessage (.of kind o.streambuf)] ⟨none, .first⟩
  first : ∀ {w} (kind : Kind) (o : OutMessage), word (kind.code, o) w → o.bytes ≤ limit →
    m.Reads ⟨none, .first⟩ w [] ⟨some (.of kind o.streambuf), .first⟩
  middle : ∀ {k l w} (o : OutMessage), word (0, o) w → l.length + o.bytes ≤ limit →
    m.Reads ⟨some (.of k l), .first⟩ w [] ⟨some (.of k (l ++ o.streambuf)), .first⟩
  last : ∀ {k l w} (o : OutMessage), word (0x80, o) w → l.length + o.bytes ≤ limit →
    m.Reads ⟨some (.of k l), .first⟩ w [.onMessage (.of k (l ++ o.streambuf))] ⟨none, .first⟩
  close : ∀ {w} (c : Closing), word (0x88, c.message) w → c.message.bytes ≤ limit →
    m.Reads ⟨none, .first⟩ w c.actions ⟨none, .ended⟩

/-- The bytes of frames, one after the other. -/
inductive Spells (word : Frame → List UInt8 → Prop) : List Frame → List UInt8 → Prop
  | nil : Spells word [] []
  | cons {f : Frame} {fs : List Frame} {w l : List UInt8} (hw : word f w) (h : Spells word fs l) :
      Spells word (f :: fs) (w ++ l)

variable {word : Frame → List UInt8 → Prop} {fs fs' : List Frame} {l : List UInt8}

theorem Spells.append_inv (h : Spells word (fs ++ fs') l) :
    ∃ l₁ l₂, l = l₁ ++ l₂ ∧ Spells word fs l₁ ∧ Spells word fs' l₂ := by
  induction fs generalizing l with
  | nil => exact ⟨[], l, rfl, .nil, h⟩
  | cons f fs ih =>
    cases h with
    | cons hw h =>
      obtain ⟨l₁, l₂, rfl, h₁, h₂⟩ := ih h
      exact ⟨_, l₂, (List.append_assoc _ _ _).symm, .cons hw h₁, h₂⟩

theorem Spells.append {l' : List UInt8} (h : Spells word fs l) (h' : Spells word fs' l') :
    Spells word (fs ++ fs') (l ++ l') := by
  induction h with
  | nil => exact h'
  | cons hw _ ih =>
    rw [List.append_assoc]
    exact .cons hw ih

/-- Frames can be written, where each of them can. -/
theorem exists_spells (hword : ∀ f, ∃ w, word f w) (fs : List Frame) : ∃ l, Spells word fs l := by
  induction fs with
  | nil => exact ⟨[], .nil⟩
  | cons f fs ih =>
    obtain ⟨w, hw⟩ := hword f
    obtain ⟨l, hl⟩ := ih
    exact ⟨w ++ l, .cons hw hl⟩

theorem Spells.one_inv {f : Frame} (h : Spells word [f] l) : word f l := by
  cases h with
  | cons hw h =>
    cases h with
    | nil => rwa [List.append_nil]

namespace Understands

variable {m : PieceReader Reading UInt8 Action} {limit : Nat} (hm : Understands m limit word)
  {kind : Kind}
include hm

/-- Control frames between the fragments of a message. -/
theorem controls {b : List UInt8} {cs : List Control} (h : Spells word (cs.map Control.frame) l)
    (hfit : ∀ c ∈ cs, b.length + c.message.bytes ≤ limit) :
    m.Reads ⟨some (.of kind b), .first⟩ l (cs.flatMap Control.actions)
      ⟨some (.of kind b), .first⟩ := by
  induction cs generalizing l with
  | nil =>
    cases h
    exact .nil _
  | cons c cs ih =>
    cases h with
    | cons hw h =>
      exact (hm.control c hw (hfit c List.mem_cons_self)).append
        (ih h fun c' hc' => hfit c' (List.mem_cons_of_mem c hc'))

/-- The fragments of a message behind its first one, up to the last. -/
theorem fragments {b : List UInt8} {middle : List Fragment} {last : Fragment}
    (h : Spells word (middle.flatMap (Fragment.frames 0) ++ last.frames 0x80) l)
    (hfit : FragmentsFit limit b.length (middle ++ [last])) :
    m.Reads ⟨some (.of kind b), .first⟩ l
      (middle.flatMap Fragment.actions ++ (last.actions ++ [.onMessage (.of kind (b ++
        (middle.flatMap fun f => f.message.streambuf) ++ last.message.streambuf))]))
          ⟨none, .first⟩ := by
  induction middle generalizing b l with
  | nil =>
    obtain ⟨⟨hc, hl⟩, -⟩ := hfit
    change Spells word (last.controls.map Control.frame ++ [(0x80, last.message)]) l at h
    obtain ⟨l₁, l₂, rfl, h₁, h₂⟩ := h.append_inv
    have hlast := hm.last (k := kind) last.message h₂.one_inv hl
    rw [List.flatMap_nil, List.flatMap_nil, List.append_nil, List.nil_append]
    exact (hm.controls h₁ hc).append hlast
  | cons f middle ih =>
    obtain ⟨⟨hc, hl⟩, hrest⟩ := hfit
    rw [List.flatMap_cons, List.append_assoc] at h
    obtain ⟨l₁, l₂, rfl, h₁, h₂⟩ := h.append_inv
    obtain ⟨l₃, l₄, rfl, h₃, h₄⟩ := h₁.append_inv
    have hmid := hm.middle (k := kind) f.message h₄.one_inv hl
    have hnext := ih (b := b ++ f.message.streambuf) h₂ (by rw [List.length_append]; exact hrest)
    have hf : m.Reads ⟨some (.of kind b), .first⟩ (l₃ ++ l₄) f.actions
        ⟨some (.of kind (b ++ f.message.streambuf)), .first⟩ := by
      have := (hm.controls h₃ hc).append hmid
      rwa [List.append_nil] at this
    simpa only [List.flatMap_cons, List.append_assoc] using hf.append hnext

/-- **One thing that is said** is understood. -/
theorem item {i : Item} (h : Spells word i.frames l) (hfit : i.Fits limit) :
    m.Reads ⟨none, .first⟩ l i.actions ⟨none, .first⟩ := by
  cases i with
  | control c => exact hm.controlAlone c h.one_inv hfit
  | whole kind o => exact hm.whole kind o h.one_inv hfit
  | fragmented kind first middle last =>
    cases h with
    | cons hw h => exact (hm.first kind first hw hfit.1).append (hm.fragments h hfit.2)

/-- **What is said is understood**, in its order. -/
theorem conversation {v : Conversation} (h : Spells word v.frames l) (hfit : v.Fits limit) :
    m.Reads .start l v.actions ⟨none, if v.closing.isSome then .ended else .first⟩ := by
  obtain ⟨items, closing⟩ := v
  have hitems : ∀ (is : List Item) (l : List UInt8), Spells word (is.flatMap Item.frames) l →
      (∀ i ∈ is, i.Fits limit) → m.Reads ⟨none, .first⟩ l (is.flatMap Item.actions)
      ⟨none, .first⟩ := by
    intro is
    induction is with
    | nil =>
      intro l h _
      cases h
      exact .nil _
    | cons i is ih =>
      intro l h hfit
      obtain ⟨l₁, l₂, rfl, h₁, h₂⟩ := Spells.append_inv h
      exact (hm.item h₁ (hfit i List.mem_cons_self)).append (ih l₂ h₂ fun j hj =>
        hfit j (List.mem_cons_of_mem i hj))
  obtain ⟨l₁, l₂, rfl, h₁, h₂⟩ := Spells.append_inv h
  refine (hitems items l₁ h₁ hfit.1).append ?_
  cases closing with
  | none =>
    cases h₂
    exact .nil _
  | some c =>
    have hc := hm.close c h₂.one_inv (hfit.2 c rfl)
    simpa using hc

/-- What has been heard of a stream is a part of what is said, from the start. -/
theorem prefix_of_reads {v : Conversation} {l' r : List UInt8} {out : List Action} {s : Reading}
    (h : Spells word v.frames l) (hfit : v.Fits limit) (hr : m.Reads .start l' out s)
    (hl : l' ++ r = l) :
    ∃ o, v.actions = out ++ o ∧
      m.Reads s r o ⟨none, if v.closing.isSome then .ended else .first⟩ := by
  have hv := hm.conversation h hfit
  have hlast : l' ++ r = l ++ [] := by rw [hl, List.append_nil]
  rcases hr.comparable hv hlast with ⟨x, o, hx, ho, hrest⟩ | ⟨x, o, hx, ho, hrest⟩
  · rw [hx] at hl
    obtain rfl := List.append_cancel_left hl
    exact ⟨o, ho, hrest⟩
  · -- the reading would go on where the conversation has ended
    have hnil : x = [] ∧ r = [] := by
      rw [hx, List.append_assoc] at hl
      exact List.append_eq_nil_iff.1 (List.append_right_eq_self.1 hl)
    obtain ⟨rfl, rfl⟩ := hnil
    have hw : m.want ⟨none, if v.closing.isSome then .ended else .first⟩ ≠ some 0 := by
      split_ifs
      · rw [hm.ended]
        exact nofun
      · rw [hm.waits]
        decide
    obtain ⟨rfl, rfl⟩ := hrest.of_nil hw
    exact ⟨[], by rw [List.append_nil, ho, List.append_nil], .nil _⟩

/-- Behind a close frame nothing is heard. -/
theorem prefix_of_ended {v : Conversation} {l' r x : List UInt8} {out : List Action} {s : Reading}
    (h : Spells word v.frames l) (hfit : v.Fits limit) (hclosing : v.closing.isSome = true)
    (hr : m.Reads .start l' out s) (hl : l' ++ r = l ++ x) : out <+: v.actions := by
  have hv := hm.conversation h hfit
  rw [if_pos hclosing] at hv
  rcases hr.comparable hv hl with ⟨_, o, _, ho, _⟩ | ⟨y, o, _, ho, hrest⟩
  · exact ⟨o, ho.symm⟩
  · obtain ⟨-, rfl, -⟩ := hrest.of_stuck fun p r _ hw => absurd hw (by rw [hm.ended]; exact nofun)
    rw [List.append_nil] at ho
    exact ⟨[], by rw [ho, List.append_nil]⟩

end Understands

/-! ## Both readers understand -/

/-- A frame of the client, with some mask. -/
def Masked (f : Frame) (w : List UInt8) : Prop := ∃ mask, w = SocketClient.frame mask f.1 f.2

/-- A frame of the server. -/
def Unmasked (f : Frame) (w : List UInt8) : Prop := w = SocketServer.frame f.1 f.2

theorem size_le {o : OutMessage} {limit : UInt64} (h : o.bytes ≤ limit.toNat) :
    o.size + (none : Option InMessage).elim 0 InMessage.length ≤ limit := by
  rw [Option.elim_none, UInt64.add_zero, UInt64.le_iff_toNat_le, o.toNat_size]
  exact h

theorem size_add_le {o : OutMessage} {limit : UInt64} {m : InMessage} {n : Nat}
    (hm : m.length = .ofNat n) (h : n + o.bytes ≤ limit.toNat) :
    o.size + (some m).elim 0 InMessage.length ≤ limit := by
  have hlt := limit.toNat_lt
  have hsum : o.streambuf.length + n < 2 ^ 64 := by unfold OutMessage.bytes at h; omega
  rw [Option.elim_some, hm, UInt64.le_iff_toNat_le, UInt64.toNat_add, o.toNat_size,
    UInt64.toNat_ofNat_of_lt' (by unfold UInt64.size; omega),
    Nat.mod_eq_of_lt hsum, Nat.add_comm]
  exact h

/-- Fragments put together. -/
theorem InMessage.of_append (kind : Kind) (l : List UInt8) (o : OutMessage) :
    (⟨0x80 ||| kind.code, .ofNat l.length + o.size, l ++ o.streambuf⟩ : InMessage) =
      .of kind (l ++ o.streambuf) := by
  unfold InMessage.of OutMessage.size
  rw [List.length_append, UInt64.ofNat_add]

theorem closeOf_message (c : Closing) (fin : UInt8) :
    closeOf c.message.size ⟨fin, c.message.size, c.message.streambuf⟩ =
      (c.status.toNat, c.reason) := by
  have hsize : c.message.size ≥ 2 := by
    rw [ge_iff_le, UInt64.le_iff_toNat_le, c.message.toNat_size]
    exact Nat.le_add_left _ _
  have hlt := c.status.toNat_lt
  have hstatus : (UInt8.ofNat (c.status.toNat >>> 8)).toNat <<< 8 +
    (UInt8.ofNat (c.status.toNat % 256)).toNat =
      c.status.toNat := by
    rw [UInt8.toNat_ofNat', UInt8.toNat_ofNat', Nat.shiftRight_eq_div_pow, Nat.shiftLeft_eq]
    omega
  unfold closeOf
  rw [if_pos hsize]
  refine Prod.ext hstatus ?_
  exact textOf_bytesOf c.isBytes

theorem SocketServer.onContent_close {p : Pending} {length : UInt64} {content : List UInt8}
    {status : Nat} {reason : String}
    (h : closeOf length ⟨0x88, length, content⟩ = (status, reason)) :
    onContent ⟨none, p⟩ length 0x88 content =
      (⟨none, .ended⟩, [.sendClose status reason, .onClose status reason]) := by
  have hm : inMessage ⟨none, p⟩ length 0x88 content = ⟨0x88, length, content⟩ := rfl
  unfold onContent
  dsimp only
  rw [hm, if_pos (by decide), h]
  rfl

theorem SocketClient.onMessageContent_close {length : UInt64} {content : List UInt8} {status : Nat}
    {reason : String} (h : closeOf length ⟨0x88, length, content⟩ = (status, reason)) :
    seen (onMessageContent ⟨⟨0x88, length, content⟩, none, 0, .content⟩ newInMessage 0) =
      (⟨none, .ended⟩, [.sendClose status reason, .onClose status reason]) := by
  unfold onMessageContent
  dsimp only
  rw [if_pos (by decide), h]
  rfl

theorem SocketServer.understands (config : Config) :
    Understands (reader config) config.maxMessageSize.toNat Masked where
  waits _ := rfl
  ended _ := rfl
  control := by
    rintro kind l _ c ⟨mask, rfl⟩ h
    cases c with
    | ping o =>
      refine reads_frame mask o (size_add_le rfl h) ?_
      simp +decide [onContent, inMessage, InMessage.of]
    | pong o =>
      refine reads_frame mask o (size_add_le rfl h) ?_
      simp +decide [onContent, InMessage.of]
  controlAlone := by
    rintro _ c ⟨mask, rfl⟩ h
    cases c with
    | ping o =>
      refine reads_frame mask o (size_le h) ?_
      simp +decide [onContent, inMessage]
    | pong o =>
      refine reads_frame mask o (size_le h) ?_
      simp +decide [onContent]
  whole := by
    rintro _ kind o ⟨mask, rfl⟩ h
    refine reads_frame mask o (size_le h) ?_
    cases kind with
    | text => simp +decide [onContent, inMessage, InMessage.of, OutMessage.size]
    | binary => simp +decide [onContent, inMessage, InMessage.of, OutMessage.size]
  first := by
    rintro _ kind o ⟨mask, rfl⟩ h
    refine reads_frame mask o (size_le h) ?_
    cases kind with
    | text => simp +decide [onContent, inMessage, InMessage.of, OutMessage.size]
    | binary => simp +decide [onContent, inMessage, InMessage.of, OutMessage.size]
  middle := by
    rintro kind l _ o ⟨mask, rfl⟩ h
    rw [← InMessage.of_append]
    refine reads_frame mask o (size_add_le rfl h) ?_
    simp +decide [onContent, inMessage, InMessage.of]
  last := by
    rintro kind l _ o ⟨mask, rfl⟩ h
    rw [← InMessage.of_append]
    refine reads_frame mask o (size_add_le rfl h) ?_
    simp +decide [onContent, inMessage, InMessage.of]
  close := by
    rintro _ c ⟨mask, rfl⟩ h
    exact reads_frame mask c.message (size_le h) (onContent_close (closeOf_message c _))

theorem SocketClient.understands (config : Config) :
    Understands (reader config) config.maxMessageSize.toNat Unmasked where
  waits _ := rfl
  ended _ := rfl
  control := by
    rintro kind l _ c rfl h
    cases c with
    | ping o =>
      refine reads_frame o (size_add_le rfl h) ?_
      simp +decide [seen, onMessageContent, Connection.reading, InMessage.of]
    | pong o =>
      refine reads_frame o (size_add_le rfl h) ?_
      simp +decide [seen, onMessageContent, Connection.reading, InMessage.of]
  controlAlone := by
    rintro _ c rfl h
    cases c with
    | ping o =>
      refine reads_frame o (size_le h) ?_
      simp +decide [seen, onMessageContent, Connection.reading]
    | pong o =>
      refine reads_frame o (size_le h) ?_
      simp +decide [seen, onMessageContent, Connection.reading]
  whole := by
    rintro _ kind o rfl h
    refine reads_frame o (size_le h) ?_
    cases kind with
    | text => simp +decide [seen, onMessageContent, Connection.reading,
      InMessage.of, OutMessage.size]
    | binary => simp +decide [seen, onMessageContent, Connection.reading,
      InMessage.of, OutMessage.size]
  first := by
    rintro _ kind o rfl h
    refine reads_frame o (size_le h) ?_
    cases kind with
    | text => simp +decide [seen, onMessageContent, Connection.reading,
      InMessage.of, OutMessage.size]
    | binary => simp +decide [seen, onMessageContent, Connection.reading,
      InMessage.of, OutMessage.size]
  middle := by
    rintro kind l _ o rfl h
    rw [← InMessage.of_append]
    refine reads_frame o (size_add_le rfl h) ?_
    simp +decide [seen, onMessageContent, Connection.reading, append, InMessage.of]
  last := by
    rintro kind l _ o rfl h
    rw [← InMessage.of_append]
    refine reads_frame o (size_add_le rfl h) ?_
    simp +decide [seen, onMessageContent, Connection.reading, append, InMessage.of]
  close := by
    rintro _ c rfl h
    exact reads_frame c.message (size_le h) (onMessageContent_close (closeOf_message c _))

/-! ## What is heard -/

/-- In the states of a run, a read for no byte is one that cannot be taken. -/
theorem SocketServer.take_nil {config : Config} {l : List UInt8} {out : List Action} {c : Reading}
    (h : (reader config).Reads .start l out c) (hw : want c = some 0) :
    take config c [] = none := by
  have hinv : ∀ {s s' l out}, (reader config).Reads s l out s' →
    (∀ n fin, s.pending = .length n fin → n = 2 ∨ n = 8) →
      ∀ n fin, s'.pending = .length n fin → n = 2 ∨ n = 8 := by
    intro s s' l out hr
    induction hr with
    | nil => exact id
    | piece _ ht _ ih =>
      refine fun _ => ih ?_
      cases take_stepped ht with
      | header _ hlength _ _ => exact hlength
      | content _ _ _ _ _ hp' _ =>
        intro n fin he
        rcases hp' with hp' | hp' <;> rw [hp'] at he <;> cases he
  unfold take
  cases hp : c.pending with
  | first => rfl
  | content length fin => rfl
  | ended => rfl
  | length n fin =>
    unfold want at hw
    rw [hp] at hw
    obtain rfl : n = 0 := Option.some.inj hw
    exact absurd (hinv h nofun 0 fin hp) (by decide)

/-- **The server hears what a client says.** The bytes of a conversation, however they are masked
and however they arrive, lead to its callbacks and answers, in their order and with the content that
was sent; to all of them, when all bytes have arrived and none came with the handshake. -/
theorem SocketServer.hears {config : Config} {leftover rest bytes : List UInt8} {v : Conversation}
    {t : List (List UInt8 × List Action)} {b : PieceReader.Buffered Reading UInt8}
    (h : Listens config leftover t b) (hs : Spells Masked v.frames bytes)
    (hfit : v.Fits config.maxMessageSize.toNat)
    (hb : leftover ++ PieceReader.arrived t ++ rest = bytes) :
    PieceReader.outputs t <+: v.actions ∧
      (leftover = [] → rest = [] → PieceReader.outputs t = v.actions) := by
  have hr := reads_of_run h
  have hsplit := List.take_append_drop (PieceReader.arrived t).length (leftover ++
    PieceReader.arrived t)
  obtain ⟨o, ho, hrest⟩ := (understands config).prefix_of_reads hs hfit hr
    (r := (leftover ++ PieceReader.arrived t).drop (PieceReader.arrived t).length ++ rest)
    (by rw [← List.append_assoc, hsplit, hb])
  refine ⟨⟨o, ho.symm⟩, ?_⟩
  rintro rfl rfl
  rw [List.nil_append, List.drop_length, List.append_nil] at hrest
  obtain ⟨-, rfl, -⟩ := hrest.of_stuck fun p r hp hw => by
    obtain ⟨rfl, -⟩ := List.append_eq_nil_iff.1 hp.symm
    exact take_nil hr hw
  rw [ho, List.append_nil]

/-- In the middle of a frame nothing is put out. -/
theorem SocketServer.part_of_frame {config : Config} {f : Option InMessage} {mask : Mask}
    {finRsvOpcode : UInt8} {m : OutMessage} {x r : List UInt8} {out : List Action} {c : Reading}
    (hl : m.size + f.elim 0 InMessage.length ≤ config.maxMessageSize)
    (h : (reader config).Reads ⟨f, .first⟩ x out c)
    (hx : x ++ r = SocketClient.frame mask finRsvOpcode m) (hr : r ≠ []) : out = [] := by
  rcases h.comparable (reads_outHeader hl) (r := r)
    hx with ⟨_, _, _, ho, _⟩ | ⟨y, o, rfl, rfl, hrest⟩
  · exact (List.append_eq_nil_iff.1 ho.symm).1
  · -- the header has been read: the content is one piece
    have hbody : y ++ r = List.ofFn mask ++ xorMask mask 0 m.streambuf := by
      unfold SocketClient.frame at hx
      rw [List.append_assoc] at hx
      exact List.append_cancel_left hx
    have hlen := congrArg List.length hbody
    rw [List.length_append, List.length_append, List.length_ofFn, length_xorMask] at hlen
    have hpos := List.length_pos_iff.2 hr
    obtain ⟨-, rfl, -⟩ := hrest.of_stuck fun p q hp hw => by
      exfalso
      change some (4 + m.size).toNat = some p.length at hw
      rw [toNat_four_add, Option.some.injEq] at hw
      rw [hp, List.length_append] at hlen
      omega
    rfl

/-- **The server lags behind a client that spoke with its handshake.** Where bytes came with the
handshake, and the stream is read up to a frame within the limit, nothing is done about that frame
when all its bytes have arrived. -/
theorem SocketServer.lags {config : Config} {leftover rest front w : List UInt8} {out : List Action}
    {fragment : Option InMessage} {f : Frame} {t : List (List UInt8 × List Action)}
    {b : PieceReader.Buffered Reading UInt8} (h : Listens config leftover t b) (h₀ : leftover ≠ [])
    (hfront : (reader config).Reads .start front out ⟨fragment, .first⟩) (hw : Masked f w)
    (hf : f.2.size + fragment.elim 0 InMessage.length ≤ config.maxMessageSize)
    (hb : leftover ++ PieceReader.arrived t ++ rest = front ++ w) :
    PieceReader.outputs t <+: out := by
  have hr := reads_of_run h
  have hunread : (leftover ++ PieceReader.arrived t).drop (PieceReader.arrived t).length ++
      rest ≠ [] := by
    refine fun he => h₀ (List.length_eq_zero_iff.1 ?_)
    have hdrop := congrArg List.length (List.append_eq_nil_iff.1 he).1
    rw [List.length_drop, List.length_append] at hdrop
    simpa using hdrop
  have hsplit : (leftover ++ PieceReader.arrived t).take (PieceReader.arrived t).length ++
      ((leftover ++ PieceReader.arrived t).drop (PieceReader.arrived t).length ++ rest) =
      front ++ w := by
    rw [← List.append_assoc, List.take_append_drop, hb]
  rcases hr.comparable hfront hsplit with ⟨_, o, _, ho, _⟩ | ⟨x, o, hx, ho, hrest⟩
  · exact ⟨o, ho.symm⟩
  · obtain ⟨mask, rfl⟩ := hw
    rw [hx, List.append_assoc] at hsplit
    have hsilent := part_of_frame hf hrest (List.append_cancel_left hsplit) hunread
    exact ⟨[], by rw [ho, hsilent, List.append_nil, List.append_nil]⟩

/-- The first byte of a message in two fragments came with the handshake. The last fragment is
there, and the message is not. -/
theorem SocketServer.lags_text : ∃ t b, Listens {} [0x01] t b ∧ want b.state = some 5 ∧
    [0x01] ++ PieceReader.arrived t ++ [0, 0, 0, 98] =
      SocketClient.frame ![0, 0, 0, 0] 0x01 ⟨[97], by decide⟩ ++ SocketClient.frame ![0, 0, 0, 0]
        0x80 ⟨[98], by decide⟩ ∧
    PieceReader.outputs t <+: [] := by
  obtain ⟨t, b, h, -, hp⟩ := Run.exists_of_replay (complete {}) Completes ⟨.start, [0x01]⟩
    [[0x81, 0], [0, 0, 0, 97, 0x80], [0x81, 0]]
    (fun t b => decide (PieceReader.arrived t = [0x81, 0, 0, 0, 0, 97, 0x80, 0x81, 0]) &&
      decide (want b.state = some 5)) (by decide)
  obtain ⟨harrived, hwant⟩ := Bool.and_eq_true_iff.1 hp
  have hb : [0x01] ++ PieceReader.arrived t ++ [0, 0, 0, 98] = SocketClient.frame ![0, 0, 0, 0]
    0x01 ⟨[97], by decide⟩ ++
      SocketClient.frame ![0, 0, 0, 0] 0x80 ⟨[98], by decide⟩ := by
    rw [of_decide_eq_true harrived]
    decide
  have hfirst := (understands {}).first .text ⟨[97], by decide⟩ ⟨![0, 0, 0, 0], rfl⟩
    (show 1 ≤ _ by decide)
  have hf : (⟨[98], by decide⟩ : OutMessage).size +
    (some (InMessage.of .text [97])).elim 0 InMessage.length ≤
      ({} : Config).maxMessageSize := by decide
  exact ⟨t, b, h, of_decide_eq_true hwant, hb,
    lags (f := (0x80, ⟨[98], by decide⟩)) h (by decide) hfirst ⟨_, rfl⟩ hf hb⟩

/-- **The client hears what the server says**, whatever part of it came with the handshake; all of
it, when all bytes have arrived and the client waits for more. -/
theorem SocketClient.hears {config : Config} {additional rest bytes : List UInt8} {v : Conversation}
    {t : List (List UInt8 × List Action)} {c : Connection} (h : Listens config additional t c)
    (hs : Spells Unmasked v.frames bytes) (hfit : v.Fits config.maxMessageSize.toNat)
    (hb : additional ++ PieceReader.arrived t ++ rest = bytes) :
    PieceReader.outputs t <+: v.actions ∧
      (rest = [] → asked c ≠ some 0 → PieceReader.outputs t = v.actions) := by
  obtain ⟨b, ⟨l, hl, hr⟩, hc⟩ := holds_of_run h
  change additional ++ PieceReader.arrived t = l ++ b.buffer at hl
  obtain ⟨o, ho, hrest⟩ := (understands config).prefix_of_reads hs hfit hr (r := b.buffer ++ rest)
    (by rw [← List.append_assoc, ← hl, hb])
  refine ⟨⟨o, ho.symm⟩, ?_⟩
  rintro rfl hask
  rw [List.append_nil] at hrest
  -- a piece that stands in the buffer would have been read for no byte
  have hwant : ∀ p r, b.buffer = p ++ r → want b.state ≠ some p.length := by
    intro p r hp hw
    have hmissing : c.awaiting ≠ .ended → missing c.numAdditionalBytes p.length = 0 := by
      intro hrun
      rw [(hc.counted hrun).2, hp, List.length_append]
      unfold missing
      split_ifs <;> omega
    rw [hc.state] at hw
    unfold want Connection.reading at hw
    unfold asked at hask
    cases ha : c.awaiting with
    | ended =>
      rw [ha] at hw
      cases hw
    | first =>
      rw [ha] at hask hw
      obtain hl : 2 = p.length := Option.some.inj hw
      exact hask (congrArg some (hl ▸ hmissing (by rw [ha]; decide)))
    | length n =>
      rw [ha] at hask hw
      obtain hl : n = p.length := Option.some.inj hw
      exact hask (congrArg some (hl ▸ hmissing (by rw [ha]; nofun)))
    | content =>
      rw [ha] at hask hw
      obtain hl : c.inMessage.length.toNat = p.length := Option.some.inj hw
      exact hask (congrArg some (hl ▸ hmissing (by rw [ha]; decide)))
  obtain ⟨-, rfl, -⟩ := hrest.of_stuck fun p r hp hw => absurd hw (hwant p r hp)
  rw [ho, List.append_nil]

/-- What the server says behind a close frame is not heard by the client. -/
theorem SocketClient.hears_closed {config : Config} {additional rest bytes x : List UInt8}
    {v : Conversation} {t : List (List UInt8 × List Action)} {c : Connection}
    (h : Listens config additional t c) (hs : Spells Unmasked v.frames bytes)
    (hfit : v.Fits config.maxMessageSize.toNat) (hclosing : v.closing.isSome = true)
    (hb : additional ++ PieceReader.arrived t ++ rest = bytes ++ x) :
    PieceReader.outputs t <+: v.actions := by
  obtain ⟨b, ⟨l, hl, hr⟩, -⟩ := holds_of_run h
  change additional ++ PieceReader.arrived t = l ++ b.buffer at hl
  refine (understands config).prefix_of_ended hs hfit hclosing hr (r :=
    b.buffer ++ rest) (x := x) ?_
  rw [← List.append_assoc, ← hl, hb]

end CppFrame.SimpleWeb
