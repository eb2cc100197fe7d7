import CppFrame.SimpleWeb.SendQueue

/-!
# From `send` to `on_message`

One side sends the frames of a conversation, from any threads; the other side reads. Between them is
a socket, which carries the bytes of the wire in their order and may have carried a part of them. As
long as no write has failed, and the conversation is within the limit of the other side, that side
makes the callbacks of the conversation from the first one on, and all of them when everything has
been written and has arrived, at the server none of it together with the handshake
(`SocketServer.server_heard`, `SocketClient.client_heard`).
-/

namespace CppFrame.SimpleWeb

variable {κ : Type} {word : Frame → List UInt8 → Prop} {config : Config} {v : Conversation}

/-- The bytes of the frames that have been sent. -/
theorem spells_of_sent {fs : List Frame} {ds : List (OutData κ)}
    (h : List.Forall₂ (fun f (d : OutData κ) => word f d.bytes) fs ds) :
    Spells word fs (ds.flatMap OutData.bytes) := by
  induction h with
  | nil => exact .nil
  | cons hw _ ih => exact .cons hw ih

variable {guard : SendQueue κ → SendQueue.Trace κ → SendQueue.Input κ → Prop}
  {t : SendQueue.Trace κ} {s : SendQueue κ} {u : List (List UInt8 × List Action)}

/-- What has arrived is a part of what was sent, and with everything written it is what the rest is
missing from. -/
theorem rest_of_wire {l : List UInt8} (h : Run SendQueue.step guard .empty t s)
    (hn : SendQueue.Unfailed t) (hl : l <+: s.wire) :
    ∃ rest, l ++ rest = (SendQueue.sent t).flatMap OutData.bytes ∧
      (s.queue = [] → l = s.wire → rest = []) := by
  obtain ⟨hpre, hall⟩ := SendQueue.wire_of_unfailed h hn
  obtain ⟨rest, hrest⟩ := hl.trans hpre
  refine ⟨rest, hrest, fun hq hw => ?_⟩
  rw [hw, ← hall hq] at hrest
  exact List.append_right_eq_self.1 hrest

/-- Frames can be sent and written, one after the other. -/
theorem exists_written (ds : List (OutData κ)) :
    ∃ t s, Run SendQueue.step SendQueue.anyInput (.empty : SendQueue κ) t s ∧
    SendQueue.Unfailed t ∧ SendQueue.sent t = ds ∧
      s.wire = ds.flatMap OutData.bytes ∧ s.queue = [] := by
  have hrun : ∃ t s, Run SendQueue.step SendQueue.anyInput (.empty : SendQueue κ) t s ∧
    SendQueue.Unfailed t ∧
      SendQueue.sent t = ds ∧ s.wire = ds.flatMap OutData.bytes ∧ s.queue = [] ∧ s.writes = [] := by
    induction ds using List.reverseRecOn with
    | nil => exact ⟨[], .empty, .start, SendQueue.unfailed_nil, rfl, rfl, rfl, rfl⟩
    | append_singleton ds d ih =>
      obtain ⟨t, ⟨queue, writes, wire, due⟩, h, hn, hsent, hwire, rfl, rfl⟩ := ih
      have h₁ : Run SendQueue.step SendQueue.anyInput .empty (t ++ [(.send d, .nothing)])
          ⟨[d], [d.bytes], wire, due⟩ :=
        h.next trivial rfl
      have h₂ : Run SendQueue.step SendQueue.anyInput .empty
          (t ++ [(.send d, .nothing)] ++ [(.transfer 0 d.bytes.length, .nothing)])
          ⟨[d], [[]], wire ++ d.bytes, due⟩ := by
        refine h₁.next trivial ?_
        simp [SendQueue.step]
      have h₃ := h₂.next (i := .complete 0) trivial rfl
      refine ⟨_, _, h₃, ?_, ?_, ?_, rfl, rfl⟩
      · simp only [SendQueue.unfailed_snoc]
        exact ⟨⟨⟨hn, fun _ h => by cases h⟩, fun _ h => by cases h⟩, fun _ h => by cases h⟩
      · rw [SendQueue.sent_snoc, SendQueue.sent_snoc, SendQueue.sent_snoc, hsent]
        exact (List.append_nil _).trans (List.append_nil _)
      · show wire ++ d.bytes = _
        rw [List.flatMap_append, List.flatMap_singleton, ← hwire]
  obtain ⟨t, s, h, hn, hsent, hwire, hq, -⟩ := hrun
  exact ⟨t, s, h, hn, hsent, hwire, hq⟩

/-- What has arrived of frames that are sent from a conversation is a part of its bytes, with
nothing missing where all frames have been sent and written. -/
theorem spelled_of_sent {l : List UInt8} (hword : ∀ f, ∃ w, word f w)
    (hsend : Run SendQueue.step guard .empty t s) (hn : SendQueue.Unfailed t) {fs : List Frame}
    (hpart : fs <+: v.frames)
    (hsent : List.Forall₂ (fun f (d : OutData κ) => word f d.bytes) fs (SendQueue.sent t))
    (htcp : l <+: s.wire) :
    ∃ bytes rest, Spells word v.frames bytes ∧ l ++ rest = bytes ∧
      (fs = v.frames → s.queue = [] → l = s.wire → rest = []) := by
  obtain ⟨rest, hrest, hall⟩ := rest_of_wire hsend hn htcp
  obtain ⟨unsent, hunsent⟩ := hpart
  obtain ⟨x, hx⟩ := exists_spells hword unsent
  refine ⟨_, rest ++ x, hunsent ▸ (spells_of_sent hsent).append hx, by
    rw [← List.append_assoc, hrest], ?_⟩
  intro hfs hq hw
  rw [hfs] at hunsent
  obtain rfl := List.append_right_eq_self.1 hunsent
  cases hx
  rw [hall hq hw, List.nil_append]

/-- **What a client sends is heard by the server**, each message once, whole and in its order. -/
theorem SocketServer.server_heard {leftover : List UInt8} {b : PieceReader.Buffered Reading UInt8}
    {fs : List Frame}
    (hsend : Run SendQueue.step guard .empty t s) (hn : SendQueue.Unfailed t)
    (hpart : fs <+: v.frames)
    (hsent : List.Forall₂ (fun f (d : OutData κ) => Masked f d.bytes) fs (SendQueue.sent t))
    (hfit : v.Fits config.maxMessageSize.toNat) (hread : Listens config leftover u b)
    (htcp : leftover ++ PieceReader.arrived u <+: s.wire) :
    PieceReader.outputs u <+: v.actions ∧
      (fs = v.frames → s.queue = [] → leftover = [] → PieceReader.arrived u = s.wire →
        PieceReader.outputs u = v.actions) := by
  obtain ⟨bytes, rest, hspell, hrest, hall⟩ :=
    spelled_of_sent (fun _ => ⟨_, fun _ => 0, rfl⟩) hsend hn hpart hsent htcp
  obtain ⟨hpre, heq⟩ := hears hread hspell hfit hrest
  refine ⟨hpre, fun hfs hq hl hw => heq hl (hall hfs hq ?_)⟩
  rw [hl, List.nil_append, hw]

/-- A text of two bytes, in two transfers. -/
theorem SocketServer.server_heard_text : ∃ (s : SendQueue Nat) (u : List (List UInt8 × List Action))
    (b : PieceReader.Buffered Reading UInt8), s.wire = [0x81, 0x82, 1, 2, 3, 4, 105, 107] ∧
      Listens {} [] u b ∧
      PieceReader.arrived u = s.wire ∧ PieceReader.outputs u =
        [.onMessage ⟨0x81, 2, [104, 105]⟩] := by
  let v : Conversation := ⟨[.whole .text ⟨[104, 105], by decide⟩], none⟩
  let d : OutData Nat := ⟨[0x81, 0x82, 1, 2, 3, 4, 105, 107], none⟩
  obtain ⟨t, s, hsend, hn, hsent, hwire, hq⟩ := exists_written [d]
  rw [List.flatMap_singleton] at hwire
  obtain ⟨u, b, hread, -, hu⟩ := Run.exists_of_replay (complete {}) Completes ⟨.start, []⟩
    [[0x81, 0x82], [1, 2, 3, 4, 105, 107]] (fun u _ => decide (PieceReader.arrived u = d.bytes))
    (by decide)
  have hs : List.Forall₂ (fun f (d : OutData Nat) => Masked f d.bytes)
      v.frames (SendQueue.sent t) := by
    rw [hsent]
    exact .cons ⟨![1, 2, 3, 4], by decide⟩ .nil
  have hfit : v.Fits ({} : Config).maxMessageSize.toNat :=
    Conversation.fits_whole (show 2 ≤ _ by decide)
  have harr : PieceReader.arrived u = s.wire := (of_decide_eq_true hu).trans hwire.symm
  exact ⟨s, u, b, hwire, hread, harr,
    (server_heard hsend hn (List.prefix_refl _) hs hfit hread ⟨[], by
      rw [List.nil_append, harr, List.append_nil]⟩).2 rfl hq rfl harr⟩

/-- **What the server sends is heard by a client**, whatever of it came with the handshake. -/
theorem SocketClient.client_heard {c : Connection} {additional : List UInt8} {fs : List Frame}
    (hsend : Run SendQueue.step guard .empty t s) (hn : SendQueue.Unfailed t)
    (hpart : fs <+: v.frames)
    (hsent : List.Forall₂ (fun f (d : OutData κ) => Unmasked f d.bytes) fs (SendQueue.sent t))
    (hfit : v.Fits config.maxMessageSize.toNat) (hread : Listens config additional u c)
    (htcp : additional ++ PieceReader.arrived u <+: s.wire) :
    PieceReader.outputs u <+: v.actions ∧ (fs = v.frames → s.queue = [] →
      additional ++ PieceReader.arrived u = s.wire → asked c ≠ some 0 →
        PieceReader.outputs u = v.actions) := by
  have hword : ∀ f, ∃ w, Unmasked f w := fun f => ⟨_, rfl⟩
  obtain ⟨bytes, rest, hspell, hrest, hall⟩ := spelled_of_sent hword hsend hn hpart hsent htcp
  obtain ⟨hpre, heq⟩ := hears hread hspell hfit hrest
  exact ⟨hpre, fun hfs hq hw hask => heq (hall hfs hq hw) hask⟩

/-- A text of two bytes, the first byte of its frame with the handshake. -/
theorem SocketClient.client_heard_text :
    ∃ (s : SendQueue Nat) (u : List (List UInt8 × List Action)) (c : Connection),
    s.wire = [0x81, 0x02, 104, 105] ∧ Listens {} [0x81] u c ∧
      [0x81] ++ PieceReader.arrived u = s.wire ∧
      PieceReader.outputs u = [.onMessage ⟨0x81, 2, [104, 105]⟩] := by
  let v : Conversation := ⟨[.whole .text ⟨[104, 105], by decide⟩], none⟩
  let d : OutData Nat := ⟨[0x81, 0x02, 104, 105], none⟩
  obtain ⟨t, s, hsend, hn, hsent, hwire, hq⟩ := exists_written [d]
  rw [List.flatMap_singleton] at hwire
  obtain ⟨u, c, hread, -, hu⟩ := Run.exists_of_replay (complete {}) Completes (.opened [0x81])
    [[0x02], [104, 105]] (fun u c => decide ([0x81] ++ PieceReader.arrived u = d.bytes) &&
    decide (asked c ≠ some 0))
    (by decide)
  obtain ⟨hu, hask⟩ := Bool.and_eq_true_iff.1 hu
  have hs : List.Forall₂ (fun f (d : OutData Nat) => Unmasked f d.bytes)
      v.frames (SendQueue.sent t) := by
    rw [hsent]
    exact .cons (by unfold Unmasked; decide) .nil
  have hfit : v.Fits ({} : Config).maxMessageSize.toNat :=
    Conversation.fits_whole (show 2 ≤ _ by decide)
  have harr : [0x81] ++ PieceReader.arrived u = s.wire := (of_decide_eq_true hu).trans hwire.symm
  exact ⟨s, u, c, hwire, hread, harr,
    (client_heard hsend hn (List.prefix_refl _) hs hfit hread ⟨[], by rw [harr, List.append_nil]⟩).2
    rfl hq harr
      (of_decide_eq_true hask)⟩

end CppFrame.SimpleWeb
