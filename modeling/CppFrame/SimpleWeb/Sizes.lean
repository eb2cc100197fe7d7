import CppFrame.SimpleWeb.Client

/-!
# The limit on messages

Both readers refuse a frame with which its message would get longer than `max_message_size`.
`Stepped` says once what a read of either does; from it follows that no message that is delivered is
longer than the limit (`SocketServer.server_sizes`, `SocketClient.client_sizes`). The sum that is
compared with the limit is one of `size_t`, and it can wrap: behind a fragment of one byte the
server takes the length 2^64 - 1 for short enough, and asks for three bytes
(`SocketServer.stalls_iff`).
-/

namespace CppFrame.SimpleWeb

/-! ## What a read does -/

/-- A message is what a frame brings, or that with a message that was being put together in front of
it. -/
def Extends (f : Option InMessage) (length : UInt64) (content : List UInt8) (m : InMessage) :
    Prop :=
  (m.length = length ∧ m.streambuf = content) ∨
    ∃ m₀ ∈ f, m.length = m₀.length + length ∧ m.streambuf = m₀.streambuf ++ content

/-- **What a read does**: it reads on in the header of a frame, or it takes the content of one. -/
inductive Stepped (config : Config) (c : Reading) (piece : List UInt8) (c' : Reading)
    (out : List Action) : Prop
  | header (hf : c'.fragmentedInMessage = c.fragmentedInMessage)
      (hlength : ∀ n fin, c'.pending = .length n fin → n = 2 ∨ n = 8)
      (hcontent : ∀ length fin, c'.pending = .content length fin →
        length + c.fragmentedLength ≤ config.maxMessageSize)
      (hout : ∀ m, .onMessage m ∉ out)
  | content {length : UInt64} {fin : UInt8} (content : List UInt8) (hp : c.pending =
      .content length fin)
      (hc : content.length = length.toNat) (hle : content.length ≤ piece.length)
      (hf : ∀ m ∈ c'.fragmentedInMessage, m ∈ c.fragmentedInMessage ∨
      Extends c.fragmentedInMessage length content m)
      (hp' : c'.pending = .first ∨ c'.pending = .ended)
      (hout : ∀ m, .onMessage m ∈ out → Extends c.fragmentedInMessage length content m)

namespace SocketServer

variable {config : Config} {c c' : Reading} {finRsvOpcode : UInt8} {piece : List UInt8}
  {out : List Action}

theorem readMessageContent_stepped {length : UInt64}
    (h : readMessageContent config c length finRsvOpcode = (c', out)) :
    Stepped config c piece c' out := by
  unfold readMessageContent at h
  split_ifs at h with hl
  · cases h
    exact .header rfl nofun nofun (by simp)
  · cases h
    refine .header rfl nofun ?_ (by simp)
    intro length' fin he
    cases he
    exact UInt64.not_lt.1 hl

theorem onFirstBytes_stepped {second : UInt8}
    (h : onFirstBytes config c finRsvOpcode second = (c', out)) :
    Stepped config c piece c' out := by
  unfold onFirstBytes at h
  dsimp only at h
  split_ifs at h
  · cases h
    exact .header rfl nofun nofun (by simp)
  · cases h
    exact .header rfl (fun n fin he => by cases he; exact .inl rfl) nofun (by simp)
  · cases h
    exact .header rfl (fun n fin he => by cases he; exact .inr rfl) nofun (by simp)
  · exact readMessageContent_stepped h

/-- The message that a frame belongs to. -/
theorem extends_inMessage (length : UInt64) (content : List UInt8) :
    Extends c.fragmentedInMessage length content (inMessage c length finRsvOpcode content) := by
  unfold inMessage
  split_ifs
  · cases hf : c.fragmentedInMessage with
    | none => exact .inl ⟨rfl, rfl⟩
    | some m => exact .inr ⟨m, rfl, rfl, rfl⟩
  · exact .inl ⟨rfl, rfl⟩

theorem onContent_stepped {length : UInt64} {content : List UInt8}
    (hp : c.pending = .content length finRsvOpcode) (hc : content.length = length.toNat)
    (hle : content.length ≤ piece.length)
    (h : onContent c length finRsvOpcode content = (c', out)) : Stepped config c piece c' out := by
  have hfrag : ∀ m ∈ (if isFragment finRsvOpcode then some (inMessage c length finRsvOpcode content)
      else c.fragmentedInMessage), m ∈ c.fragmentedInMessage ∨
      Extends c.fragmentedInMessage length content m := by
    intro m hm
    split_ifs at hm
    · obtain rfl := Option.mem_some.1 hm
      exact .inr (extends_inMessage length content)
    · exact .inl hm
  unfold onContent at h
  dsimp only at h
  generalize (if isFragment finRsvOpcode then some (inMessage c length finRsvOpcode content)
    else c.fragmentedInMessage) = fragmented at h hfrag
  split_ifs at h
  all_goals cases h
  · exact .content content hp hc hle hfrag (.inr rfl) (by simp)
  · exact .content content hp hc hle hfrag (.inl rfl) (by simp)
  · exact .content content hp hc hle hfrag (.inl rfl) (by simp)
  · exact .content content hp hc hle hfrag (.inl rfl) (by simp)
  · refine .content content hp hc hle nofun (.inl rfl) ?_
    intro m hm
    obtain ⟨rfl⟩ : m = _ := by simpa using hm
    exact extends_inMessage length content

theorem take_stepped (h : take config c piece = some (c', out)) :
    Stepped config c piece c' out := by
  unfold take at h
  split at h
  · exact onFirstBytes_stepped (Option.some.inj h)
  · exact readMessageContent_stepped (Option.some.inj h)
  · rename_i hp
    split_ifs at h with hl
    refine onContent_stepped hp ?_ ?_ (Option.some.inj h)
    · rw [length_xorMask, List.length_take, Nat.min_eq_left hl]
    · rw [length_xorMask, List.length_take, Nat.min_eq_left hl]
      simp only [List.length_cons]
      omega
  · cases h

end SocketServer

namespace SocketClient

variable {config : Config} {c : Connection} {r c' : Reading} {piece : List UInt8}
  {out : List Action}

theorem readMessageContent_stepped {n : Nat} (hr : r.fragmentedInMessage = c.fragmentedInMessage)
    (h : seen (readMessageContent config c n) = (c', out)) : Stepped config r piece c' out := by
  unfold readMessageContent at h
  split_ifs at h with hl
  · cases h
    exact .header hr.symm nofun nofun (by simp)
  · cases h
    refine .header hr.symm nofun ?_ (by simp)
    intro length fin he
    cases he
    unfold Reading.fragmentedLength
    rw [hr]
    exact UInt64.not_lt.1 hl

theorem onFirstBytes_stepped {second : UInt8} (hr : r.fragmentedInMessage = c.fragmentedInMessage)
    (h : seen (onFirstBytes config c second) = (c', out)) : Stepped config r piece c' out := by
  unfold onFirstBytes at h
  dsimp only at h
  split_ifs at h
  · cases h
    exact .header hr.symm nofun nofun (by simp)
  · cases h
    exact .header hr.symm (fun n fin he => by cases he; exact .inl rfl) nofun (by simp)
  · cases h
    exact .header hr.symm (fun n fin he => by cases he; exact .inr rfl) nofun (by simp)
  · refine readMessageContent_stepped ?_ h
    exact hr

theorem onMessageContent_stepped {length : UInt64} {fin : UInt8} {content : List UInt8}
    (hp : r.pending = .content length fin) (hc : content.length = length.toNat)
    (hle : content.length ≤ piece.length)
    (h : seen (onMessageContent ⟨⟨fin, length, content⟩, r.fragmentedInMessage, 0, .content⟩
      newInMessage 0) = (c', out)) :
    Stepped config r piece c' out := by
  unfold onMessageContent at h
  dsimp only at h
  split_ifs at h
  · cases h
    exact .content content hp hc hle (fun m hm => .inl hm) (.inr rfl) (by simp)
  · cases h
    exact .content content hp hc hle (fun m hm => .inl hm) (.inl rfl) (by simp)
  · cases h
    exact .content content hp hc hle (fun m hm => .inl hm) (.inl rfl) (by simp)
  · cases hf : r.fragmentedInMessage with
    | none =>
      rw [hf] at h
      cases h
      refine .content content hp hc hle ?_ (.inl rfl) (by simp)
      intro m hm
      cases hm
      exact .inr (.inl ⟨rfl, rfl⟩)
    | some f =>
      rw [hf] at h
      cases h
      refine .content content hp hc hle ?_ (.inl rfl) (by simp)
      intro m hm
      cases hm
      exact .inr (.inr ⟨f, hf, rfl, rfl⟩)
  · cases hf : r.fragmentedInMessage with
    | none =>
      rw [hf] at h
      cases h
      refine .content content hp hc hle nofun (.inl rfl) ?_
      intro m hm
      obtain ⟨rfl⟩ : m = _ := by simpa using hm
      exact .inl ⟨rfl, rfl⟩
    | some f =>
      rw [hf] at h
      cases h
      refine .content content hp hc hle nofun (.inl rfl) ?_
      intro m hm
      obtain ⟨rfl⟩ : m = _ := by simpa using hm
      exact .inr ⟨f, hf, rfl, rfl⟩

theorem take_stepped (hw : want r = some piece.length) (h : take config r piece = some (c', out)) :
    Stepped config r piece c' out := by
  obtain ⟨f, pending⟩ := r
  cases pending with
  | first =>
    have htwo : piece.length = 2 := (Option.some.inj hw).symm
    match piece, htwo with
    | [fin, second], _ =>
      refine onFirstBytes_stepped ?_ (Option.some.inj h)
      rfl
  | length n fin =>
    refine readMessageContent_stepped ?_ (Option.some.inj h)
    rfl
  | content length fin =>
    exact onMessageContent_stepped rfl (Option.some.inj hw).symm le_rfl (Option.some.inj h)
  | ended => cases hw

end SocketClient

/-! ## Messages within the limit -/

/-- A message is as long as it says, and not longer than the limit. -/
def InMessage.Sound (config : Config) (m : InMessage) : Prop :=
  m.length.toNat = m.streambuf.length ∧ m.streambuf.length ≤ config.maxMessageSize.toNat

/-- How many bytes have been put together. -/
def Reading.bytes (c : Reading) : Nat := c.fragmentedInMessage.elim 0 fun m => m.streambuf.length

/-- Between two reads: what has been put together is within the limit, and so will be the message of
the frame whose content is awaited, if the sum has not wrapped. -/
structure Sized (config : Config) (c : Reading) : Prop where
  length : ∀ n fin, c.pending = .length n fin → n = 2 ∨ n = 8
  content : ∀ length fin, c.pending = .content length fin → length + c.fragmentedLength ≤
    config.maxMessageSize
  fragmented : ∀ m ∈ c.fragmentedInMessage, m.Sound config

variable {config : Config} {c c' : Reading} {piece l : List UInt8} {out : List Action}

theorem sized_start : Sized config .start := ⟨nofun, nofun, nofun⟩

theorem Sized.length_fragmented (h : Sized config c) : c.fragmentedLength.toNat = c.bytes := by
  unfold Reading.fragmentedLength Reading.bytes
  cases hf : c.fragmentedInMessage with
  | none => rfl
  | some m => exact (h.fragmented m hf).1

/-- What arrives has not wrapped: it is not longer than all that has arrived. -/
theorem Sized.sound_of_extends {length : UInt64} {fin : UInt8} {content : List UInt8}
    {m : InMessage} (h : Sized config c) (hp : c.pending = .content length fin)
    (hc : content.length = length.toNat) (hlt : c.bytes + content.length < 2 ^ 64)
    (he : Extends c.fragmentedInMessage length content m) :
    m.Sound config ∧ m.streambuf.length ≤ c.bytes + content.length := by
  have hsum : length.toNat + c.bytes ≤ config.maxMessageSize.toNat := by
    have := UInt64.le_iff_toNat_le.1 (h.content length fin hp)
    rwa [UInt64.toNat_add, h.length_fragmented, Nat.mod_eq_of_lt (by omega)] at this
  rcases he with ⟨hl, hs⟩ | ⟨m₀, hm₀, hl, hs⟩
  · unfold InMessage.Sound
    rw [hl, hs]
    omega
  · have hbytes : c.bytes = m₀.streambuf.length := by
      unfold Reading.bytes
      rw [Option.mem_def.1 hm₀, Option.elim_some]
    have hlen := (h.fragmented m₀ hm₀).1
    unfold InMessage.Sound
    rw [hl, hs, List.length_append, UInt64.toNat_add, Nat.mod_eq_of_lt (by omega)]
    omega

/-- **One read keeps the sizes.** -/
theorem Stepped.sized (hs : Stepped config c piece c' out) (h : Sized config c)
    (hlt : c.bytes + piece.length < 2 ^ 64) :
    Sized config c' ∧ c'.bytes ≤ c.bytes + piece.length ∧ ∀ m, .onMessage m ∈ out →
      m.Sound config := by
  cases hs with
  | header hf hlength hcontent hout =>
    have hlen : c'.fragmentedLength =
      c.fragmentedLength := by unfold Reading.fragmentedLength; rw [hf]
    have hbytes : c'.bytes = c.bytes := by unfold Reading.bytes; rw [hf]
    refine ⟨⟨hlength, ?_, ?_⟩, by omega, fun m hm => absurd hm (hout m)⟩
    · rw [hlen]
      exact hcontent
    · rw [hf]
      exact h.fragmented
  | content content hp hc hle hf hp' hout =>
    have hfrag : ∀ m ∈ c'.fragmentedInMessage, m.Sound config ∧ m.streambuf.length ≤
        c.bytes + piece.length := by
      intro m hm
      rcases hf m hm with hm | he
      · refine ⟨h.fragmented m hm, ?_⟩
        unfold Reading.bytes
        rw [Option.mem_def.1 hm, Option.elim_some]
        omega
      · obtain ⟨hsound, hbytes⟩ := h.sound_of_extends hp hc (by omega) he
        exact ⟨hsound, by omega⟩
    refine ⟨⟨?_, ?_, fun m hm => (hfrag m hm).1⟩, ?_, ?_⟩
    · intro n fin he
      rcases hp' with hp' | hp' <;> rw [hp'] at he <;> cases he
    · intro n fin he
      rcases hp' with hp' | hp' <;> rw [hp'] at he <;> cases he
    · cases hm : c'.fragmentedInMessage with
      | none =>
        unfold Reading.bytes
        rw [hm]
        exact Nat.zero_le _
      | some m =>
        have := (hfrag m hm).2
        unfold Reading.bytes at this ⊢
        rwa [hm]
    · exact fun m hm => (h.sound_of_extends hp hc (by omega) (hout m hm)).1

/-- A reading of bytes that can be counted keeps the sizes. -/
theorem sized_of_reads {m : PieceReader Reading UInt8 Action}
    (hm : ∀ {c c' piece out}, m.want c = some piece.length → m.take c piece = some (c', out) →
      Stepped config c piece c' out)
    (hr : m.Reads c l out c') (h : Sized config c) (hlt : c.bytes + l.length < 2 ^ 64) :
    Sized config c' ∧ ∀ m, .onMessage m ∈ out → m.Sound config := by
  induction hr with
  | nil c => exact ⟨h, by simp⟩
  | piece hw ht _ ih =>
    rw [List.length_append] at hlt
    obtain ⟨h', hbytes, hout⟩ := (hm hw ht).sized h (by omega)
    obtain ⟨hend, hrest⟩ := ih h' (by omega)
    refine ⟨hend, ?_⟩
    intro m hmem
    rcases List.mem_append.1 hmem with hmem | hmem
    · exact hout m hmem
    · exact hrest m hmem

/-- **No message of a client is delivered that is longer than the limit**, or of another length than
it says. -/
theorem SocketServer.server_sizes {leftover : List UInt8} {t : List (List UInt8 × List Action)}
    {b : PieceReader.Buffered Reading UInt8} (h : Listens config leftover t b)
    (hlt : (PieceReader.arrived t).length < 2 ^ 64) :
    ∀ m, .onMessage m ∈ PieceReader.outputs t → m.Sound config := by
  refine (sized_of_reads (fun _ ht => take_stepped ht) (reads_of_run h) sized_start ?_).2
  rw [List.length_take]
  exact (Nat.zero_add _).trans_lt ((Nat.min_le_left _ _).trans_lt hlt)

theorem SocketServer.server_sizes_text : ∃ t b, Listens {} [] t b ∧
    .onMessage ⟨0x81, 2, [104, 105]⟩ ∈ PieceReader.outputs t ∧
      ∀ m, .onMessage m ∈ PieceReader.outputs t → m.Sound {} := by
  obtain ⟨t, b, h, -, hp⟩ := Run.exists_of_replay (complete {}) Completes ⟨.start, []⟩
    [[0x81, 0x82], [1, 2, 3, 4, 105, 107]]
    (fun t _ => decide (.onMessage ⟨0x81, 2, [104, 105]⟩ ∈ PieceReader.outputs t) &&
      decide ((PieceReader.arrived t).length < 2 ^ 64)) (by decide)
  obtain ⟨hmem, hlt⟩ := Bool.and_eq_true_iff.1 hp
  exact ⟨t, b, h, of_decide_eq_true hmem, server_sizes h (of_decide_eq_true hlt)⟩

/-- **No message of the server is delivered that is longer than the limit.** -/
theorem SocketClient.client_sizes {additional : List UInt8} {t : List (List UInt8 × List Action)}
    {c : Connection} (h : Listens config additional t c)
    (hlt : (additional ++ PieceReader.arrived t).length < 2 ^ 64) :
    ∀ m, .onMessage m ∈ PieceReader.outputs t → m.Sound config := by
  obtain ⟨b, ⟨l, hl, hr⟩, -⟩ := holds_of_run h
  refine (sized_of_reads take_stepped hr sized_start ?_).2
  rw [show additional ++ PieceReader.arrived t = l ++ b.buffer from hl, List.length_append] at hlt
  show 0 + l.length < 2 ^ 64
  omega

theorem SocketClient.client_sizes_text : ∃ t c, Listens {} [0x81] t c ∧
    .onMessage ⟨0x81, 2, [104, 105]⟩ ∈ PieceReader.outputs t ∧
      ∀ m, .onMessage m ∈ PieceReader.outputs t → m.Sound {} := by
  obtain ⟨t, c, h, -, hp⟩ := Run.exists_of_replay (complete {}) Completes (.opened [0x81])
    [[0x02], [104, 105]] (fun t _ => decide (Action.onMessage ⟨0x81, 2, [104, 105]⟩ ∈
    PieceReader.outputs t) &&
      decide ((0x81 :: PieceReader.arrived t).length < 2 ^ 64)) (by decide)
  obtain ⟨hmem, hlt⟩ := Bool.and_eq_true_iff.1 hp
  exact ⟨t, c, h, of_decide_eq_true hmem, client_sizes h (of_decide_eq_true hlt)⟩

/-! ## Where the sum wraps -/

namespace SocketServer

/-- **Where the loop over the content would not end with the bytes that were asked for**: `4 +
length` wraps. -/
theorem complete_eq_none_iff {b : PieceReader.Buffered Reading UInt8}
    {t : List (List UInt8 × List Action)} {x : List UInt8} (hx : Completes b t x) :
    complete config b x = none ↔ ∃ length fin, b.state.pending = .content length fin ∧
      2 ^ 64 ≤ 4 + length.toNat := by
  by_cases h₀ : b.state.pending = .first ∧ x = []
  · unfold complete
    rw [if_pos h₀, h₀.1]
    simp
  have hw : want b.state = some x.length := hx.resolve_right h₀
  have hle : x.length ≤ (b.buffer ++ x).length := by rw [List.length_append]; omega
  have hpiece : ((b.buffer ++ x).take x.length).length = x.length := List.length_take_of_le hle
  have hcomplete : complete config b x = none ↔
      take config b.state ((b.buffer ++ x).take x.length) = none := by
    unfold complete PieceReader.arrive
    rw [if_neg h₀, show (reader config).want b.state = some x.length from hw]
    simp only [if_pos hle, Option.map_eq_none_iff]
    rfl
  rw [hcomplete]
  generalize (b.buffer ++ x).take x.length = piece at hpiece
  unfold want at hw
  unfold take
  cases hp : b.state.pending with
  | first =>
    rw [hp] at hw
    have htwo : piece.length = 2 := hpiece.trans (Option.some.inj hw).symm
    match piece, htwo with
    | [fin, second], _ => simp
  | length n fin => simp
  | ended =>
    rw [hp] at hw
    cases hw
  | content length fin =>
    rw [hp] at hw
    have hsize : piece.length = (4 + length.toNat) % 2 ^ 64 := by
      rw [hpiece, ← Option.some.inj hw, UInt64.toNat_add]
      rfl
    have hlength := length.toNat_lt
    constructor
    · intro h
      refine ⟨length, fin, rfl, Nat.le_of_not_lt fun hlt => ?_⟩
      rw [Nat.mod_eq_of_lt hlt] at hsize
      have hfour : 4 ≤ piece.length := by omega
      match piece, hfour with
      | m₀ :: m₁ :: m₂ :: m₃ :: masked, _ =>
        simp only [List.length_cons] at hsize
        have hmasked : length.toNat ≤ masked.length := by omega
        simp [hmasked] at h
    · rintro ⟨length', fin', he, hge⟩
      cases he
      have hshort : piece.length < 4 := by omega
      match piece, hshort with
      | [], _ => rfl
      | [_], _ => rfl
      | [_, _], _ => rfl
      | [_, _, _], _ => rfl

/-- A read that brings what was asked for, where the `streambuf` is empty. -/
theorem complete_of_take {c c' : Reading} {x : List UInt8} (hx : x ≠ [])
    (hw : want c = some x.length) (ht : take config c x = some (c', out)) :
    complete config ⟨c, []⟩ x = some (⟨c', []⟩, out) := by
  unfold complete PieceReader.arrive
  rw [if_neg fun h => hx h.2, show (reader config).want c = some x.length from hw]
  simp only [List.nil_append, le_refl, if_true, List.take_length, List.drop_length]
  rw [show (reader config).take c x = some (c', out) from ht]
  rfl

/-- Nothing has been put together, and nothing is awaited. -/
structure Empty (c : Reading) : Prop where
  content : ∀ length fin, c.pending = .content length fin → length = 0
  fragmented : ∀ m ∈ c.fragmentedInMessage, m.length = 0

/-- With a limit of 0 every message is empty. -/
theorem Empty.stepped (hmax : config.maxMessageSize = 0) (hs : Stepped config c piece c' out)
    (h : Empty c) : Empty c' := by
  have hlen : c.fragmentedLength = 0 := by
    unfold Reading.fragmentedLength
    cases hf : c.fragmentedInMessage with
    | none => rfl
    | some m => exact h.fragmented m hf
  cases hs with
  | header hf _ hcontent _ =>
    refine ⟨?_, by rw [hf]; exact h.fragmented⟩
    intro length fin hp
    have := hcontent length fin hp
    rw [hlen, hmax, UInt64.add_zero] at this
    exact UInt64.le_zero_iff.1 this
  | @content length fin content hp _ _ hf hp' _ =>
    refine ⟨?_, ?_⟩
    · intro length fin he
      rcases hp' with hp' | hp' <;> rw [hp'] at he <;> cases he
    · intro m hm
      have hzero := h.content length fin hp
      rcases hf m hm with hm | ⟨hl, -⟩ | ⟨m₀, hm₀, hl, -⟩
      · exact h.fragmented m hm
      · rw [hl, hzero]
      · rw [hl, hzero, h.fragmented m₀ hm₀, UInt64.add_zero]

/-- **The limit does not keep a client from a length that wraps.** Whatever the limit, unless it
is 0: there is a run in which a read that completes leaves the loop over the content without its
bytes. -/
theorem stalls_iff (config : Config) :
    (∃ t b x, Listens config [] t b ∧ Completes b t x ∧ complete config b x = none) ↔
      config.maxMessageSize ≠ 0 := by
  constructor
  · rintro ⟨t, b, x, h, hx, hnone⟩ hmax
    obtain ⟨length, fin, hp, hge⟩ := (complete_eq_none_iff hx).1 hnone
    have hempty : ∀ {s l out s'}, (reader config).Reads s l out s' → Empty s → Empty s' := by
      intro s l out s' hr
      induction hr with
      | nil => exact id
      | piece _ ht _ ih => exact fun hs => ih (hs.stepped hmax (take_stepped ht))
    have hzero := (hempty (reads_of_run h) ⟨nofun, nofun⟩).content length fin hp
    subst hzero
    exact absurd hge (by decide)
  · intro hmax
    have hpos : ¬ (1 : UInt64) > config.maxMessageSize := by
      rw [gt_iff_lt, UInt64.lt_iff_toNat_lt]
      have : config.maxMessageSize.toNat ≠ 0 := fun h => hmax (UInt64.toNat_inj.1 h)
      show ¬ config.maxMessageSize.toNat < 1
      omega
    -- a fragment of one byte, and behind it a length with which the sum is 0
    have h₁ : Listens config [] [([0x01, 0x81], [])] ⟨⟨none, .content 1 1⟩, []⟩ := by
      refine Run.start.next (t := []) (.inl rfl) (complete_of_take (by simp) rfl ?_)
      show some (readMessageContent config .start 1 1) = _
      rw [readMessageContent_of_le (UInt64.not_lt.1 hpos)]
      rfl
    have h₂ := h₁.next (i := [0, 0, 0, 0, 0]) (.inl rfl) (complete_of_take (by simp) rfl rfl)
    have h₃ := h₂.next (i := [0x00, 0xff]) (.inl rfl) (complete_of_take (by simp) rfl rfl)
    have htake : take config ⟨some ⟨0x81, 1, [0]⟩, .length 8 0⟩
      [0xff, 0xff, 0xff, 0xff, 0xff, 0xff, 0xff, 0xff] =
        some (⟨some ⟨0x81, 1, [0]⟩, .content 0xffffffffffffffff 0⟩, []) := by
      show some (readMessageContent config _ _ 0) = _
      rw [readMessageContent_of_le (UInt64.le_iff_toNat_le.2 (Nat.zero_le _))]
      rfl
    have h₄ := h₃.next (i := [0xff, 0xff, 0xff, 0xff, 0xff, 0xff, 0xff, 0xff]) (.inl rfl)
      (complete_of_take (by simp) rfl htake)
    exact ⟨_, _, [0, 0, 0], h₄, .inl rfl, (complete_eq_none_iff (t := []) (.inl rfl)).2
      ⟨_, _, rfl, by decide⟩⟩

end SocketServer

end CppFrame.SimpleWeb
