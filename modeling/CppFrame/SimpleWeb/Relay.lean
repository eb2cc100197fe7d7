import CppFrame.SimpleWeb.EndToEnd
import CppFrame.SimpleWeb.System

/-!
# From client to client

A connection is written to from two sides: the library answers pings and close frames, and the
handler sends its texts. What both give to `send` comes to one queue in some order, from there to
the socket, and at the other end `client_ws.hpp` reads it (`Link`). No write fails, calls of
`send_close` do not overlap, and no frame is over the limit of the client. Whatever that order is, a
client that itself sends a request and a part of a conversation hears the handler's texts from the
first one on, whole and in their order, up to a close frame (`Link.heard_of_texts`). What it hears
as a message of another client was read from that other client's own bytes, behind a credential that
was accepted, on the conditions of `said_of_relayed` (`Link.said_of_heard`).
-/

namespace CppFrame.SimpleWeb

open Server

/-! ## What is given to `send` -/

/-- A first byte, and the bytes behind it. -/
abbrev Sending := UInt8 × List UInt8

/-- What the library sends with one of its actions. -/
def Action.sending : Action → Option Sending
  | .send message finRsvOpcode => some (finRsvOpcode, message)
  | .sendClose status reason => some (0x88, closeBytes status reason)
  | _ => none

def Event.sending : Event → Option Sending
  | .action _ a => a.sending
  | _ => none

/-- What the library has sent on a connection by itself. -/
def answers (id : Nat) (t : Endpoint.Trace) : List Sending :=
  (Endpoint.eventsOf id t).filterMap Event.sending

/-- What the handler sends on a connection, with the first byte that `send` takes where none is
given. -/
def sendingOn (d : Connection) : Server.Event → Option Sending
  | .send con message => if con = d then some (0x81, bytesOf message) else none
  | .sendClose con status reason => if con = d then some (0x88, closeBytes status reason) else none
  | _ => none

/-- What the handler has sent on a connection. -/
def relayed (d : Connection) (u : Server.Trace) : List Sending :=
  (u.flatMap Prod.snd).filterMap (sendingOn d)

/-- The text that the handler sends on a connection. -/
def textOn (d : Connection) : Server.Event → Option String
  | .send con message => if con = d then some message else none
  | _ => none

/-- The texts that the handler has sent on a connection, in their order. -/
def texts (d : Connection) (u : Server.Trace) : List String :=
  (u.flatMap Prod.snd).filterMap (textOn d)

/-- What `close_sent` leaves of what is sent: one close frame. -/
def onceClosed : List Sending → List Sending
  | [] => []
  | x :: l => if x.1 = 0x88 then x :: l.filter (fun y => y.1 ≠ 0x88) else x :: onceClosed l

/-- The content of a text frame. -/
def Sending.content (x : Sending) : Option (List UInt8) := if x.1 = 0x81 then some x.2 else none

/-- The contents of the text frames up to a close frame. -/
def contents : List Sending → List (List UInt8)
  | [] => []
  | x :: l => if x.1 = 0x88 then [] else x.content.toList ++ contents l

theorem contents_onceClosed (l : List Sending) : contents (onceClosed l) = contents l := by
  induction l with
  | nil => rfl
  | cons x l ih =>
    unfold onceClosed
    split_ifs with hx
    · rw [contents, contents, if_pos hx, if_pos hx]
    · rw [contents, contents, if_neg hx, if_neg hx, ih]

theorem contents_prefix (l : List Sending) : contents l <+: l.filterMap Sending.content := by
  induction l with
  | nil => exact List.prefix_refl _
  | cons x l ih =>
    unfold contents
    split_ifs with hx
    · exact List.nil_prefix
    · rw [List.filterMap_cons]
      cases x.content with
      | none => exact ih
      | some c => exact (List.prefix_cons_inj c).2 ih

/-- Without a close frame all texts are there. -/
theorem contents_of_unclosed {l : List Sending} (h : ∀ x ∈ l, x.1 ≠ 0x88) :
    contents l = l.filterMap Sending.content := by
  induction l with
  | nil => rfl
  | cons x l ih =>
    rw [contents, if_neg (h x List.mem_cons_self), ih fun y hy => h y (List.mem_cons_of_mem x hy),
      List.filterMap_cons]
    cases x.content <;> rfl

theorem mem_of_mem_onceClosed {l : List Sending} {x : Sending} (h : x ∈ onceClosed l) : x ∈ l := by
  induction l with
  | nil => exact h
  | cons y l ih =>
    unfold onceClosed at h
    split_ifs at h
    · rcases List.mem_cons.1 h with rfl | h
      · exact List.mem_cons_self
      · exact List.mem_cons_of_mem y (List.mem_filter.1 h).1
    · rcases List.mem_cons.1 h with rfl | h
      · exact List.mem_cons_self
      · exact List.mem_cons_of_mem y (ih h)

/-! ## Frames as a conversation -/

/-- The kinds of frames that a server with this handler sends: texts, answers to pings, and close
frames. -/
def Sending.Known (x : Sending) : Prop := x.1 = 0x81 ∨ x.1 = 0x8a ∨ x.1 = 0x88 ∧ 2 ≤ x.2.length

/-- What is given to `send` for a frame. -/
def Frame.sending (f : Frame) : Sending := (f.1, f.2.streambuf)

/-- The message of a callback. -/
def Action.message : Action → Option InMessage
  | .onMessage m => some m
  | _ => none

/-- The two bytes of a status and a reason make up a close frame. -/
theorem exists_closing {m : OutMessage} (h : 2 ≤ m.streambuf.length) :
    ∃ c : Closing, c.message = m := by
  obtain ⟨l, hm⟩ := m
  match l, hm, h with
  | b₁ :: b₂ :: l, hm, _ =>
    have hb₁ := b₁.toNat_lt
    have hb₂ := b₂.toNat_lt
    have hlen : (textOf l).length = l.length := by
      rw [textOf, String.length_ofList, List.length_map]
    refine ⟨⟨.ofNat (256 * b₁.toNat + b₂.toNat), textOf l, isBytes_textOf l, by
      rw [hlen]; simpa using hm⟩, ?_⟩
    have hstatus : (UInt16.ofNat (256 * b₁.toNat + b₂.toNat)).toNat = 256 * b₁.toNat + b₂.toNat :=
      UInt16.toNat_ofNat_of_lt' (by unfold UInt16.size; omega)
    have hhigh : (256 * b₁.toNat + b₂.toNat) >>> 8 =
      b₁.toNat := by rw [Nat.shiftRight_eq_div_pow]; omega
    have hlow : (256 * b₁.toNat + b₂.toNat) % 256 = b₂.toNat := by omega
    unfold Closing.message
    simp only [closeBytes, hstatus, hhigh, hlow, UInt8.ofNat_toNat, bytesOf_textOf]

/-- What frames are as a conversation: its frames up to a close frame, and its messages, the texts
that they carry. -/
structure Conversation.Of (fs : List Frame) (v : Conversation) (rest : List Frame) : Prop where
  frames : fs = v.frames ++ rest
  rest : v.closing = none → rest = []
  messages : v.actions.filterMap Action.message =
    (contents (fs.map Frame.sending)).map (InMessage.of .text)
  fits : ∀ limit, (∀ f ∈ fs, f.2.bytes ≤ limit) → v.Fits limit

/-- A text or a pong in front of frames. -/
theorem Conversation.Of.cons {fs rest : List Frame} {v : Conversation}
    (h : Conversation.Of fs v rest) {b : UInt8} {m : OutMessage} (i : Item)
    (hi : i.frames = [(b, m)]) (hb : b ≠ 0x88)
    (hmsg : i.actions.filterMap Action.message = (Sending.content (b, m.streambuf)).toList.map
      (InMessage.of .text))
    (hfit : ∀ limit, m.bytes ≤ limit → i.Fits limit) :
    Conversation.Of ((b, m) :: fs) ⟨i :: v.items, v.closing⟩ rest where
  frames := by
    rw [h.frames]
    simp [Conversation.frames, hi]
  rest := h.rest
  messages := by
    have hne : (Frame.sending (b, m)).1 ≠ 0x88 := hb
    have hrest := h.messages
    unfold Conversation.actions at hrest ⊢
    rw [List.map_cons, contents, if_neg hne, List.map_append, ← hrest,
      List.flatMap_cons, List.append_assoc,
      List.filterMap_append, hmsg]
    rfl
  fits limit hle := by
    obtain ⟨hitems, hclosing⟩ := h.fits limit fun f hf => hle f (List.mem_cons_of_mem _ hf)
    refine ⟨fun j hj => ?_, hclosing⟩
    rcases List.mem_cons.1 hj with rfl | hj
    · exact hfit limit (hle (b, m) List.mem_cons_self)
    · exact hitems j hj

/-- **Frames of the known kinds are a conversation.** -/
theorem exists_conversation {fs : List Frame} (h : ∀ f ∈ fs, (Frame.sending f).Known) :
    ∃ v rest, Conversation.Of fs v rest := by
  induction fs with
  | nil => exact ⟨⟨[], none⟩, [], rfl, fun _ => rfl, rfl, fun _ _ => ⟨nofun, nofun⟩⟩
  | cons f fs ih =>
    obtain ⟨v, rest, hv⟩ := ih fun g hg => h g (List.mem_cons_of_mem f hg)
    obtain ⟨b, m⟩ := f
    rcases h (b, m) List.mem_cons_self with hb | hb | ⟨hb, hlen⟩
    · obtain rfl : b = 0x81 := hb
      exact ⟨_, rest, hv.cons (.whole .text m) rfl (by decide) rfl fun _ hle => hle⟩
    · obtain rfl : b = 0x8a := hb
      exact ⟨_, rest, hv.cons (.control (.pong m)) rfl (by decide) rfl fun _ hle => hle⟩
    · obtain rfl : b = 0x88 := hb
      obtain ⟨c, rfl⟩ := exists_closing hlen
      refine ⟨⟨[], some c⟩, fs, rfl, nofun, rfl, fun limit hle => ⟨nofun, fun c' hc' => ?_⟩⟩
      cases hc'
      exact hle _ List.mem_cons_self

/-! ## One side of a connection and the other -/

/-- **A connection from `send` to `on_message`.** What the library and the handler give to `send`
comes to the queue of the connection in some order, each close frame but the first one left out. No
write fails; what the socket has carried of the bytes is read by a client, with a limit that none of
the frames exceeds. -/
structure Link (κ : Type) (config : Config) (d : Connection) (t : Endpoint.Trace)
    (u : Server.Trace) where
  sends : List (Sending ⊕ Sending)
  answers_eq : sends.filterMap Sum.getLeft? = answers d.id t
  relayed_eq : sends.filterMap Sum.getRight? = relayed d u
  frames : List Frame
  frames_eq : frames.map Frame.sending = onceClosed (sends.map (Sum.elim id id))
  fits : ∀ f ∈ frames, f.2.bytes ≤ config.maxMessageSize.toNat
  writes : SendQueue.Trace κ
  queue : SendQueue κ
  queued : Run SendQueue.step SendQueue.anyInput .empty writes queue
  unfailed : SendQueue.Unfailed writes
  sent : List.Forall₂ (fun f (o : OutData κ) => Unmasked f o.bytes) frames (SendQueue.sent writes)
  additional : List UInt8
  reads : List (List UInt8 × List Action)
  client : SocketClient.Connection
  listens : SocketClient.Listens config additional reads client
  carried : additional ++ PieceReader.arrived reads <+: queue.wire

/-- The messages that the client has been given. -/
def Link.heard {κ : Type} {config : Config} {d : Connection} {t : Endpoint.Trace} {u : Server.Trace}
    (link : Link κ config d t u) : List InMessage :=
  (PieceReader.outputs link.reads).filterMap Action.message

/-! ## A concrete connection -/

/-- What the second client of the sample run is told of the others, and all that it is sent. -/
def sampleOthers : String := "OTHERS \x7b \"0\":\x7b\"Name\":\"Ann\"\x7d\x7d"

def sampleFrames : List Frame :=
  [(0x81, ⟨bytesOf "ok", by decide⟩), (0x81, ⟨bytesOf sampleOthers, by decide⟩),
    (0x81, ⟨bytesOf "MESSAGEhi", by decide⟩)]

/-- The second client, whose own conversation is its name, hears what it is sent. -/
theorem exists_sampleLink : ∃ t e u m, ∃ link : Link Nat {} clientB t u,
    Endpoint.Serves (Endpoint.sampleSetup 0xffffffffffffffff) t e ∧
    Run (secured.inline .checked) (Heeded secured) ∅ u m ∧ calls u = sampleCalls ∧
      Endpoint.callbacks t = sampleCalls ∧
    Endpoint.Speaks (Endpoint.sampleSetup 0xffffffffffffffff) t clientB.id
      ⟨"GET", "/a", "room=1", "1.1", [("Sec-WebSocket-Key", "k")]⟩
        ⟨[.whole .text ⟨bytesOf "Bob", by decide⟩], none⟩ ∧
    link.heard = sampleFrames.map (fun f => InMessage.of .text f.2.streambuf) ∧
    texts clientB u = ["ok", sampleOthers, "MESSAGEhi"] := by
  obtain ⟨t, e, hs, hin, hp⟩ :=
    Run.exists_of_replay (Endpoint.step (Endpoint.sampleSetup 0xffffffffffffffff))
    Endpoint.Promised .start sampleRelay
    (fun t _ => decide (Endpoint.callbacks t = sampleCalls) &&
    decide (answers clientB.id t = [])) (by decide +kernel)
  obtain ⟨hcalls, hanswers⟩ := Bool.and_eq_true_iff.1 hp
  obtain ⟨u, m, hu, -, hp⟩ := Run.exists_of_replay (secured.inline .checked) (Heeded secured) ∅
    (callsOf sampleCalls)
    (fun u _ => decide (calls u = sampleCalls ∧ relayed clientB u = sampleFrames.map Frame.sending ∧
      texts clientB u = ["ok", sampleOthers, "MESSAGEhi"])) (by decide)
  obtain ⟨hsame, hrelayed, htexts⟩ := of_decide_eq_true hp
  let ds : List (OutData Nat) := sampleFrames.map fun f => ⟨SocketServer.frame f.1 f.2, none⟩
  obtain ⟨writes, queue, hq, hn, hsent, hwire, -⟩ := exists_written ds
  obtain ⟨reads, client, hread, -, hp⟩ := Run.exists_of_replay (SocketClient.complete {})
    SocketClient.Completes
    (.opened (ds.flatMap OutData.bytes)) (List.replicate 6 [])
    (fun r _ => decide (PieceReader.arrived r = []) &&
    decide ((PieceReader.outputs r).filterMap Action.message =
      sampleFrames.map fun f => InMessage.of .text f.2.streambuf)) (by decide)
  obtain ⟨harrived, hheard⟩ := Bool.and_eq_true_iff.1 hp
  let link : Link Nat {} clientB t u := {
    sends := (sampleFrames.map Frame.sending).map .inr
    answers_eq := by rw [of_decide_eq_true hanswers]; decide
    relayed_eq := by rw [hrelayed]; decide
    frames := sampleFrames
    frames_eq := by decide
    fits := by decide
    writes := writes
    queue := queue
    queued := hq
    unfailed := hn
    sent := by
      rw [hsent]
      exact List.forall₂_map_right_iff.2 (List.forall₂_same.2 fun _ _ => rfl)
    additional := ds.flatMap OutData.bytes
    reads := reads
    client := client
    listens := hread
    carried := by
      rw [of_decide_eq_true harrived, List.append_nil, hwire] }
  refine ⟨t, e, u, m, link, hs, hu, hsame, of_decide_eq_true hcalls, ?_,
    of_decide_eq_true hheard, htexts⟩
  have hspell : Spells Masked [(0x81, ⟨bytesOf "Bob", by decide⟩)]
      ([0x81, 0x83, 0, 0, 0, 0, 66, 111, 98] ++ []) :=
    .cons ⟨![0, 0, 0, 0], by decide⟩ .nil
  refine ⟨_, _, [], Endpoint.announces_sample, hspell,
    Conversation.fits_whole (show 3 ≤ _ by decide), ?_⟩
  · unfold Endpoint.received Endpoint.completions
    rw [hin, List.append_nil]
    decide +kernel

variable {κ : Type} {setup : Setup} {config : Config} {d : Connection} {t : Endpoint.Trace}
  {u : Server.Trace} {e : Endpoint} {request : RequestMessage} {v : Conversation}

/-! ## What the client hears -/

theorem known_control {c : Control} {x : Sending} (h : x ∈ c.actions.filterMap Action.sending) :
    x.1 = 0x8a := by
  cases c with
  | ping m =>
    obtain rfl := List.mem_singleton.1 h
    rfl
  | pong m => cases h

theorem known_fragment {f : Fragment} {x : Sending} (h : x ∈ f.actions.filterMap Action.sending) :
    x.1 = 0x8a := by
  unfold Fragment.actions at h
  rw [List.filterMap_flatMap] at h
  obtain ⟨c, -, hc⟩ := List.mem_flatMap.1 h
  exact known_control hc

/-- The answers to a conversation are pongs, and one close frame. -/
theorem known_of_actions {v : Conversation} {x : Sending}
    (h : x ∈ v.actions.filterMap Action.sending) :
    x.1 = 0x8a ∨ x.1 = 0x88 ∧ 2 ≤ x.2.length := by
  unfold Conversation.actions at h
  rw [List.filterMap_append] at h
  rcases List.mem_append.1 h with h | h
  · left
    rw [List.filterMap_flatMap] at h
    obtain ⟨i, -, hi⟩ := List.mem_flatMap.1 h
    cases i with
    | control c => exact known_control hi
    | whole kind m => cases hi
    | fragmented kind first middle last =>
      unfold Item.actions at hi
      rw [List.filterMap_append, List.filterMap_append] at hi
      rcases List.mem_append.1 hi with hi | hi
      · rw [List.filterMap_flatMap] at hi
        obtain ⟨f, -, hf⟩ := List.mem_flatMap.1 hi
        exact known_fragment hf
      · rcases List.mem_append.1 hi with hi | hi
        · exact known_fragment hi
        · cases hi
  · right
    rw [List.filterMap_flatMap] at h
    obtain ⟨c, -, hc⟩ := List.mem_flatMap.1 h
    obtain rfl := List.mem_singleton.1 hc
    exact ⟨rfl, Nat.le_add_left 2 _⟩

/-- What the library sends to a client that holds a conversation is no text. -/
theorem known_of_answers (hs : Endpoint.Serves setup t e) {id : Nat}
    (hd : Endpoint.Speaks setup t id request v) {x : Sending} (hx : x ∈ answers id t) :
    x.1 = 0x8a ∨ x.1 = 0x88 ∧ 2 ≤ x.2.length := by
  obtain ⟨header, bytes, rest, hreq, hspell, hfit, hb⟩ := hd
  obtain ⟨con, l, -, hpre, hl⟩ := Endpoint.tells_of_run hs hreq hspell hfit hb
  have hpart : x ∈ l.filterMap Event.sending → x.1 = 0x8a ∨ x.1 = 0x88 ∧ 2 ≤ x.2.length := by
    intro hmem
    have hmem := (hpre.filterMap Event.sending).subset hmem
    rw [List.filterMap_cons, List.filterMap_map] at hmem
    exact known_of_actions hmem
  unfold answers at hx
  rcases hl with hl | ⟨ec, hl⟩
  · rw [hl] at hx
    exact hpart hx
  · rw [hl, List.filterMap_append] at hx
    rcases List.mem_append.1 hx with hx | hx
    · exact hpart hx
    · cases hx

/-- What the handler sends is a text or a close frame. -/
theorem known_of_relayed {x : Sending} (hx : x ∈ relayed d u) :
    x.1 = 0x81 ∨ x.1 = 0x88 ∧ 2 ≤ x.2.length := by
  obtain ⟨ev, -, hev⟩ := List.mem_filterMap.1 hx
  cases ev with
  | send con message =>
    simp only [sendingOn, Option.ite_none_right_eq_some, Option.some.injEq] at hev
    exact .inl (by rw [← hev.2])
  | sendClose con status reason =>
    simp only [sendingOn, Option.ite_none_right_eq_some, Option.some.injEq] at hev
    exact .inr (by rw [← hev.2]; exact ⟨rfl, Nat.le_add_left 2 _⟩)
  | authenticator message name => cases hev
  | logger message level => cases hev

/-- The texts among what the handler sends. -/
theorem content_relayed (d : Connection) (u : Server.Trace) :
    (relayed d u).filterMap Sending.content = (texts d u).map bytesOf := by
  unfold relayed texts
  rw [List.filterMap_filterMap, List.map_filterMap]
  refine List.filterMap_congr fun ev _ => ?_
  cases ev with
  | send con message =>
    simp only [sendingOn, textOn]
    split_ifs <;> rfl
  | sendClose con status reason =>
    simp only [sendingOn, textOn]
    split_ifs <;> rfl
  | authenticator message name => rfl
  | logger message level => rfl

namespace Link

variable (link : Link κ config d t u)
include link

/-- What is sent is sent by one of both sides. -/
theorem mem_sends {x : Sending} (hx : x ∈ link.sends.map (Sum.elim id id)) :
    x ∈ answers d.id t ∨ x ∈ relayed d u := by
  obtain ⟨y, hy, rfl⟩ := List.mem_map.1 hx
  cases y with
  | inl y => exact .inl (link.answers_eq ▸ List.mem_filterMap.2 ⟨.inl y, hy, rfl⟩)
  | inr y => exact .inr (link.relayed_eq ▸ List.mem_filterMap.2 ⟨.inr y, hy, rfl⟩)

variable (hs : Endpoint.Serves setup t e) (hd : Endpoint.Speaks setup t d.id request v)
include hs hd

theorem known {x : Sending} (hx : x ∈ link.sends.map (Sum.elim id id)) : x.Known := by
  rcases link.mem_sends hx with hx | hx
  · exact .inr (known_of_answers hs hd hx)
  · exact (known_of_relayed hx).imp_right .inr

/-- In whatever order both sides send, the texts are those of the handler. -/
theorem content_sends :
    (link.sends.map (Sum.elim id id)).filterMap Sending.content = (texts d u).map bytesOf := by
  rw [← content_relayed, ← link.relayed_eq, List.filterMap_map, List.filterMap_filterMap]
  refine List.filterMap_congr fun y hy => ?_
  cases y with
  | inr x => rfl
  | inl x =>
    have hx : x ∈ answers d.id t := link.answers_eq ▸ List.mem_filterMap.2 ⟨.inl x, hy, rfl⟩
    have hne : x.1 ≠ 0x81 := by
      rcases known_of_answers hs hd hx with h | h
      · rw [h]
        decide
      · rw [h.1]
        decide
    exact if_neg hne

theorem contents_frames : contents (link.frames.map Frame.sending) <+: (texts d u).map bytesOf := by
  rw [link.frames_eq, contents_onceClosed, ← link.content_sends hs hd]
  exact contents_prefix _

/-- What is on the way to the client: the bytes of a conversation, with what is sent behind its
close frame. -/
theorem spelled : ∃ w rest bytes extra r, Conversation.Of link.frames w rest ∧
    Spells Unmasked w.frames bytes ∧ Spells Unmasked rest extra ∧
    link.additional ++ PieceReader.arrived link.reads ++ r = bytes ++ extra ∧
    (link.queue.queue = [] → link.additional ++ PieceReader.arrived link.reads =
      link.queue.wire → r = []) := by
  have hknown : ∀ f ∈ link.frames, (Frame.sending f).Known := fun f hf =>
    link.known hs hd (mem_of_mem_onceClosed (link.frames_eq ▸ List.mem_map_of_mem hf))
  obtain ⟨w, rest, hw⟩ := exists_conversation hknown
  obtain ⟨r, hr, hall⟩ := rest_of_wire link.queued link.unfailed link.carried
  have hspell := spells_of_sent link.sent
  rw [hw.frames] at hspell
  obtain ⟨bytes, extra, hbytes, hspell, hextra⟩ := hspell.append_inv
  exact ⟨w, rest, bytes, extra, r, hw, hspell, hextra, by rw [hr, hbytes], hall⟩

/-- What the client has heard is a part of what the handler sent it, from the first text on. -/
theorem heard_prefix :
    link.heard <+: (texts d u).map fun text => InMessage.of .text (bytesOf text) := by
  obtain ⟨w, rest, bytes, extra, r, hw, hspell, hextra, hr, -⟩ := link.spelled hs hd
  have hfit := hw.fits _ link.fits
  -- what the text frames up to a close frame carry
  have hcontents := (link.contents_frames hs hd).map (InMessage.of .text)
  rw [← hw.messages, List.map_map] at hcontents
  refine List.IsPrefix.trans ?_ hcontents
  cases hc : w.closing with
  | some c => exact (SocketClient.hears_closed link.listens hspell hfit
    (by rw [hc]; rfl) hr).filterMap _
  | none =>
    rw [hw.rest hc] at hextra
    cases hextra
    rw [List.append_nil] at hr
    exact (SocketClient.hears link.listens hspell hfit hr).1.filterMap _

/-- **The client hears the texts that the handler sends it**, from the first one on, whole and in
their order, whatever the library sends in between and whatever the order in which both send; all of
them, when nobody closes, everything has been written and has arrived, and the client waits for
more. -/
theorem heard_of_texts :
    link.heard <+: (texts d u).map (fun text => InMessage.of .text (bytesOf text)) ∧
      ((∀ x ∈ answers d.id t ++ relayed d u, x.1 ≠ 0x88) → link.queue.queue = [] →
        link.additional ++ PieceReader.arrived link.reads = link.queue.wire →
          SocketClient.asked link.client ≠ some 0 →
          link.heard = (texts d u).map fun text => InMessage.of .text (bytesOf text)) := by
  refine ⟨link.heard_prefix hs hd, fun hopen hq hwire hask => ?_⟩
  obtain ⟨w, rest, bytes, extra, r, hw, hspell, hextra, hr, hall⟩ := link.spelled hs hd
  have hunclosed : ∀ x ∈ link.sends.map (Sum.elim id id), x.1 ≠ 0x88 := fun x hx =>
    hopen x (List.mem_append.2 (link.mem_sends hx))
  have hc : w.closing = none := by
    rw [Option.eq_none_iff_forall_ne_some]
    intro c hc
    have hmem : (0x88, c.message) ∈ link.frames := by
      rw [hw.frames, Conversation.frames, hc]
      simp
    exact hunclosed _ (mem_of_mem_onceClosed (link.frames_eq ▸ List.mem_map_of_mem hmem)) rfl
  rw [hw.rest hc] at hextra
  cases hextra
  rw [List.append_nil] at hr
  have hall := (SocketClient.hears link.listens hspell (hw.fits _ link.fits) hr).2
    (hall hq hwire) hask
  rw [heard, hall, hw.messages, link.frames_eq, contents_onceClosed, contents_of_unclosed hunclosed,
    link.content_sends hs hd, List.map_map]
  rfl

end Link

/-- Everything that the second client was sent is heard. -/
theorem Link.heard_of_texts_hi : ∃ t u, ∃ link : Link Nat {} clientB t u,
    link.heard <+: (texts clientB u).map (fun text => InMessage.of .text (bytesOf text)) ∧
      (InMessage.of .text (bytesOf "MESSAGEhi")) ∈ link.heard := by
  obtain ⟨t, e, u, m, link, hs, -, -, -, hd, hheard, -⟩ := exists_sampleLink
  exact ⟨t, u, link, (link.heard_of_texts hs hd).1, by rw [hheard]; decide⟩

/-! ## Who said it -/

/-- What is delivered is a byte string. -/
theorem isBytes_of_texts {text : String} {out : List Action}
    (h : text ∈ out.filterMap Action.text) : IsBytes text := by
  obtain ⟨a, -, ha⟩ := List.mem_filterMap.1 h
  cases a with
  | onMessage m =>
    obtain rfl := Option.some.inj ha
    exact isBytes_textOf _
  | onPing | onPong | onClose | onError | send | sendClose => cases ha

theorem isBytes_message : IsBytes "MESSAGE" :=
  (show textOf (bytesOf "MESSAGE") = "MESSAGE" by decide) ▸ isBytes_textOf _

theorem IsBytes.append {a b : String} (ha : IsBytes a) (hb : IsBytes b) : IsBytes (a ++ b) := by
  intro c hc
  rw [String.toList_append] at hc
  exact (List.mem_append.1 hc).elim (ha c) (hb c)

/-- **What a client hears was said to it by those of its channel.** Every message that a client
hears is a text that the handler sent to it. Where that is a message of another client, both are of
one channel, the hearing client had been accepted, and the server has read the message from the
bytes of the other one, behind a credential that was accepted. Where that client keeps to the
protocol, it stands in its conversation. -/
theorem Link.said_of_heard {weh : WssEndpointHandler} {it : Iteration} {m : Clients}
    {guard : Clients → Server.Trace → Input → Prop} {msg : InMessage} (link : Link κ config d t u)
    (hauth : weh.authenticator = true) (hs : Endpoint.Serves setup t e)
    (hfit : ∀ con, ¬ Endpoint.Refused t con) (hkeys : Each Distinct [] (Endpoint.callbacks t))
    (hd : Endpoint.Speaks setup t d.id request v) (hu : Run (weh.inline it) guard ∅ u m)
    (hcalls : calls u <+: Endpoint.callbacks t) (hmsg : msg ∈ link.heard) :
    ∃ text ∈ texts d u, msg = .of .text (bytesOf text) ∧ (IsKind "MESSAGE" text →
      (∃ u₁, u₁ <+: u ∧ AcceptedSinceOpen u₁ d) ∧ ∃ con words, text = "MESSAGE" ++
        words ∧ msg.string = text ∧
        con ≠ d ∧ con.channel = d.channel ∧
        (∃ request' out, Endpoint.HasRead setup t con request' out ∧
          Vouched u con words (out.filterMap Action.text)) ∧
        ∀ request' v', Endpoint.Speaks setup t con.id request' v' →
          con.queryString = request'.queryString ∧ Vouched u con words v'.texts) := by
  obtain ⟨text, htext, hof⟩ := List.mem_map.1 ((link.heard_prefix hs hd).subset hmsg)
  refine ⟨text, htext, hof.symm, fun hkind => ?_⟩
  obtain ⟨ev, hev, hon⟩ := List.mem_filterMap.1 htext
  obtain ⟨⟨⟨cb, env⟩, evs⟩, hx, hmem⟩ := List.mem_flatMap.1 hev
  have hsend : .send d text ∈ evs := by
    cases ev with
    | send con message =>
      simp only [textOn, Option.ite_none_right_eq_some, Option.some.injEq] at hon
      obtain ⟨rfl, rfl⟩ := hon
      exact hmem
    | sendClose | authenticator | logger => cases hon
  obtain ⟨u₁, u₂, rfl⟩ := List.append_of_mem hx
  have hpre : u₁ <+: u₁ ++ ((cb, env), evs) :: u₂ := List.prefix_append _ _
  obtain ⟨con, words, -, hte, hne, hch, hacc, ⟨request', out, hread, hvouched⟩, hspeaks⟩ :=
    said_of_relayed hs hfit hauth hkeys hu hcalls hsend hkind
  refine ⟨⟨u₁, hpre, hacc⟩, con, words, hte, ?_, hne.symm, hch.symm,
    ⟨request', out, hread, hvouched.mono hpre⟩,
    fun request' v' hv => (hspeaks request' v' hv).imp_right fun h => h.mono hpre⟩
  rw [← hof, hte]
  exact textOf_bytesOf (IsBytes.append isBytes_message (isBytes_of_texts hvouched.mem))

/-- The second client hears what the first one has said. -/
theorem Link.said_of_heard_hi : ∃ t u, ∃ link : Link Nat {} clientB t u,
    InMessage.of .text (bytesOf "MESSAGEhi") ∈ link.heard ∧
      (∃ u₁, u₁ <+: u ∧ AcceptedSinceOpen u₁ clientB) ∧
      ∃ con words, "MESSAGEhi" = "MESSAGE" ++ words ∧ con ≠ clientB ∧
        con.channel = clientB.channel := by
  obtain ⟨t, e, u, m, link, hs, hu, hsame, hcalls, hd, hheard, htexts⟩ := exists_sampleLink
  have hmem : InMessage.of .text (bytesOf "MESSAGEhi") ∈ link.heard := by
    rw [hheard]
    decide
  obtain ⟨text, htext, hof, hsaid⟩ := link.said_of_heard rfl hs (not_refused_sample hs)
    (distinct_sample hcalls) hd hu
    (hsame.trans hcalls.symm ▸ List.prefix_refl _) hmem
  have htext : text = "MESSAGEhi" := by
    rw [htexts] at htext
    simp only [List.mem_cons, List.not_mem_nil, or_false] at htext
    rcases htext with rfl | rfl | rfl
    · exact absurd hof (by decide)
    · exact absurd hof (by decide)
    · rfl
  subst htext
  obtain ⟨hacc, con, words, hwords, -, hne, hch, -⟩ := hsaid (by decide)
  exact ⟨t, u, link, hmem, hacc, con, words, hwords, hne, hch⟩

end CppFrame.SimpleWeb
