import CppFrame.SimpleWeb.Endpoint

/-!
# From the bytes of a client to the callbacks

A client sends a request and then the frames of a conversation. They come in any pieces, the first
frames perhaps together with the request, while the server deals with its other clients in between.
What the server does for the client is that it opens a connection, with the query string that was
asked for, and then acts on the conversation from its start, each message whole and in its order; at
the end there may be an error (`Endpoint.told_conversation`). The conversation has to keep to the
limit of the server, which refuses a longer message (`Endpoint.contract_iff`).
-/

namespace CppFrame.SimpleWeb

/-! ## Requests in a stream -/

/-- Behind a blank line stands the rest of the stream. -/
theorem exists_of_behindBlankLine {l r : List Char} (h : behindBlankLine l = some r) :
    ∃ header, l = header ++ r ∧ 4 ≤ header.length := by
  induction l with
  | nil => cases h
  | cons c l ih =>
    rw [behindBlankLine] at h
    split_ifs at h with hc
    · obtain rfl := Option.some.inj h
      have hle : 3 ≤ l.length := hc.2.length_le
      refine ⟨c :: l.take 3, by rw [List.cons_append, List.take_append_drop], ?_⟩
      rw [List.length_cons, List.length_take_of_le hle]
    · obtain ⟨header, hl, hlen⟩ := ih h
      exact ⟨c :: header, by rw [hl, List.cons_append], Nat.le_succ_of_le hlen⟩

/-- A blank line that was found is found in a longer stream. -/
theorem behindBlankLine_append {l r : List Char} (h : behindBlankLine l = some r) (x : List Char) :
    behindBlankLine (l ++ x) = some (r ++ x) := by
  induction l with
  | nil => cases h
  | cons c l ih =>
    rw [behindBlankLine] at h
    rw [List.cons_append, behindBlankLine]
    split_ifs at h with hc
    · obtain rfl := Option.some.inj h
      have hle : 3 ≤ l.length := hc.2.length_le
      rw [if_pos ⟨hc.1, hc.2.trans (List.prefix_append l x)⟩, List.drop_append_of_le_length hle]
    · rw [if_neg, ih h]
      rintro ⟨hr, hp⟩
      -- the rest of the blank line would stand in `l`, which is long enough
      obtain ⟨header, hl, hlen⟩ := exists_of_behindBlankLine h
      have hle : ['\n', '\r', '\n'].length ≤ l.length := by
        rw [hl, List.length_append]
        exact Nat.le_trans (by decide) (Nat.le_add_right_of_le hlen)
      exact hc ⟨hr, List.prefix_of_prefix_length_le hp (List.prefix_append l x) hle⟩

/-- The header of a request, whatever stands behind it. -/
def Announces (header : List UInt8) (request : RequestMessage) : Prop :=
  ∀ l, behindBlankLine (charsOf header ++ l) = some l ∧
    RequestMessage.parse (charsOf header ++ l) = some (request, l)

/-- A request that is written field by field is announced. -/
theorem announces_print {bytes : List UInt8} {method path query version : String}
    {header : CaseInsensitiveMultimap}
    (hbytes : charsOf bytes = RequestMessage.print method (if query = "" then path
      else path ++ "?" ++ query) version header)
    (hmethod : ' ' ∉ method.toList ∧ '\n' ∉ method.toList)
    (hpath : ' ' ∉ path.toList ∧ '\n' ∉ path.toList ∧ '?' ∉ path.toList)
    (hquery : ' ' ∉ query.toList ∧ '\n' ∉ query.toList) (hversion : '\n' ∉ version.toList)
    (hheader : ∀ field ∈ header, Printable field) :
    Announces bytes ⟨method, path, query, version, header⟩ := by
  intro l
  rw [hbytes]
  refine ⟨?_, RequestMessage.parse_print hmethod hpath hquery hversion hheader l⟩
  have hline : '\n' ∉
      (method ++ " " ++ (if query = "" then path else path ++ "?" ++ query) ++ " HTTP/" ++
      version).toList := by
    split_ifs <;> simp [String.toList_append, hmethod.2, hpath.2.1, hquery.2, hversion]
  have hprint : ∀ target, RequestMessage.print method target version header ++ l =
      (method ++ " " ++ target ++ " HTTP/" ++ version).toList ++
        '\r' :: '\n' :: (header.flatMap printField ++ '\r' :: '\n' :: l) := by
    intro target
    unfold RequestMessage.print
    simp [String.toList_append]
  rw [hprint]
  exact behindBlankLine_print hline hheader l

theorem charsOf_append (l l' : List UInt8) : charsOf (l ++ l') = charsOf l ++ charsOf l' := by
  simp [charsOf, textOf]

/-- The bytes of characters that were made from bytes. -/
theorem bytes_charsOf (l : List UInt8) : ((charsOf l).map fun c => UInt8.ofNat c.toNat) = l :=
  bytesOf_textOf l

/-- Characters that are bytes are read back from their bytes. -/
theorem charsOf_bytesOf {l : List Char} (h : l.all (fun c => decide (c.toNat < 256)) = true) :
    charsOf (bytesOf (.ofList l)) = l := by
  unfold charsOf
  rw [textOf_bytesOf, String.toList_ofList]
  intro c hc
  rw [String.toList_ofList] at hc
  exact of_decide_eq_true (List.all_eq_true.1 h c hc)

/-- What has been read up to a blank line begins with the header that is sent. -/
theorem exists_additional {header streambuf x bytes : List UInt8}
    (h : ∀ l, behindBlankLine (charsOf header ++ l) = some l)
    (hx : streambuf ++ x = header ++ bytes)
    (hblank : (behindBlankLine (charsOf streambuf)).isSome = true) :
    ∃ additional, streambuf = header ++ additional := by
  obtain ⟨r, hr⟩ := Option.isSome_iff_exists.1 hblank
  obtain ⟨header', hs, -⟩ := exists_of_behindBlankLine hr
  have hchars : charsOf streambuf ++ charsOf x = charsOf header ++ charsOf bytes := by
    rw [← charsOf_append, ← charsOf_append, hx]
  -- the rest of the whole stream is found both ways
  have hrest : r ++ charsOf x = charsOf bytes := by
    have hb := behindBlankLine_append hr (charsOf x)
    rw [hchars, h] at hb
    exact (Option.some.inj hb).symm
  have hheader : header' = charsOf header := by
    rw [hs, List.append_assoc, hrest] at hchars
    exact List.append_cancel_right hchars
  have hback := congrArg (List.map fun c => UInt8.ofNat c.toNat) hs
  rw [hheader, List.map_append, bytes_charsOf, bytes_charsOf] at hback
  exact ⟨_, hback⟩

/-- **What has been read of a request that was announced** is its header, with what came behind
it. -/
theorem Announces.split {header streambuf x bytes : List UInt8} {request request' : RequestMessage}
    {left : List Char} (h : Announces header request) (hx : streambuf ++ x = header ++ bytes)
    (hblank : (behindBlankLine (charsOf streambuf)).isSome = true)
    (hp : RequestMessage.parse (charsOf streambuf) = some (request', left)) :
    request' = request ∧ streambuf = header ++ left.map fun c => .ofNat c.toNat := by
  obtain ⟨additional, rfl⟩ := exists_additional (fun l => (h l).1) hx hblank
  rw [charsOf_append, (h _).2, Option.some.injEq, Prod.mk.injEq] at hp
  obtain ⟨rfl, rfl⟩ := hp
  exact ⟨rfl, by rw [bytes_charsOf]⟩

/-! ## What a connection has been to the server -/

/-- The bytes that come with the completion of an operation. -/
def Completion.bytes : Completion → List UInt8
  | .header streambuf _ => streambuf
  | .arrived bytes => bytes
  | _ => []

/-- A request was read, which makes the connection and has the leftover behind it. -/
def Asked (id : Nat) (is : List Completion) (streambuf : List UInt8) (con : Server.Connection)
    (leftover : List UInt8) :
    Prop :=
  ∃ remoteEndpoint request left, .header streambuf remoteEndpoint ∈ is ∧
    (behindBlankLine (charsOf streambuf)).isSome = true ∧
    RequestMessage.parse (charsOf streambuf) = some (request, left) ∧
    con = Setup.connection id remoteEndpoint request ∧ leftover = left.map fun c => .ofNat c.toNat

/-- The connection was opened, and what was done is what was read since. -/
def Spoken (setup : Setup) (id : Nat) (is : List Completion) (con : Server.Connection)
    (b : PieceReader.Buffered Reading UInt8) (l : List Event) : Prop :=
  ∃ streambuf leftover u, Asked id is streambuf con leftover ∧
    is.flatMap Completion.bytes = streambuf ++ PieceReader.arrived u ∧
    SocketServer.Listens setup.config leftover u b ∧
    l = .opened con :: (PieceReader.outputs u).map (.action con)

/-- What has been completed on the connection with the given number, and what was done about it, by
its stage. -/
def Lived (setup : Setup) (id : Nat) (is : List Completion) (l : List Event) : Stage → Prop
  | .fresh | .handshaking => is.flatMap Completion.bytes = [] ∧ l = []
  | .answering con leftover _ => Asked id is (is.flatMap Completion.bytes) con leftover ∧ l = []
  | .reading con b => Spoken setup id is con b l
  | .ended => l = [] ∨
      (∃ con leftover ec, Asked id is (is.flatMap Completion.bytes) con leftover ∧
        l = [.action con (.onError ec)]) ∨
      (∃ con b, Spoken setup id is con b l) ∨
      ∃ con b l' ec, Spoken setup id is con b l' ∧ l = l' ++ [.action con (.onError ec)]

variable {setup : Setup} {id : Nat} {st st' : Stage} {i : Completion} {ev : List Event}
  {is : List Completion} {l : List Event}

@[simp] theorem bytes_snoc (is : List Completion) (i : Completion) :
    (is ++ [i]).flatMap Completion.bytes = is.flatMap Completion.bytes ++ i.bytes := by simp

theorem Asked.snoc {streambuf leftover : List UInt8} {con : Server.Connection}
    (h : Asked id is streambuf con leftover) :
    Asked id (is ++ [i]) streambuf con leftover := by
  obtain ⟨remoteEndpoint, request, left, hmem, hrest⟩ := h
  exact ⟨remoteEndpoint, request, left, List.mem_append_left _ hmem, hrest⟩

theorem Asked.id_eq {streambuf leftover : List UInt8} {con : Server.Connection}
    (h : Asked id is streambuf con leftover) :
    con.id = id := by
  obtain ⟨_, _, _, _, _, _, rfl, _⟩ := h
  rfl

theorem Spoken.id_eq {con : Server.Connection} {b : PieceReader.Buffered Reading UInt8}
    (h : Spoken setup id is con b l) :
    con.id = id := by
  obtain ⟨_, _, _, ha, _⟩ := h
  exact ha.id_eq

/-- A completion without bytes. -/
theorem Spoken.snoc {con : Server.Connection} {b : PieceReader.Buffered Reading UInt8}
    (h : Spoken setup id is con b l) (hi : i.bytes = []) : Spoken setup id (is ++ [i]) con b l := by
  obtain ⟨streambuf, leftover, u, ha, hb, hl, rfl⟩ := h
  exact ⟨streambuf, leftover, u, ha.snoc, by rw [bytes_snoc, hi, List.append_nil, hb], hl, rfl⟩

/-- A read of an open connection. -/
theorem Spoken.read {con : Server.Connection} {b b' : PieceReader.Buffered Reading UInt8}
    {bytes : List UInt8} {out : List Action} (h : Spoken setup id is con b l)
    (hg : SocketServer.Completes b [] bytes)
    (hc : SocketServer.complete setup.config b bytes = some (b', out)) :
    Spoken setup id (is ++ [.arrived bytes]) con b' (l ++ out.map (.action con)) := by
  obtain ⟨streambuf, leftover, u, ha, hb, hl, rfl⟩ := h
  refine ⟨streambuf, leftover, u ++ [(bytes, out)], ha.snoc, ?_, hl.next hg hc, ?_⟩
  · rw [PieceReader.arrived_snoc, bytes_snoc, hb, List.append_assoc]
    rfl
  · rw [PieceReader.outputs_snoc, List.map_append, List.cons_append]

/-- Whether an event is about an open connection with the given number. -/
def Event.isOf (id : Nat) : Event → Bool
  | .answer _ _ => false
  | .opened con => con.id = id
  | .action con _ => con.id = id

theorem filter_isOf_map {con : Server.Connection} (h : con.id = id) (out : List Action) :
    (out.map (Event.action con)).filter (Event.isOf id) = out.map (.action con) := by
  refine List.filter_eq_self.2 fun e he => ?_
  obtain ⟨a, -, rfl⟩ := List.mem_map.1 he
  exact decide_eq_true h

/-- What is done when an operation completes is about its connection. -/
theorem Moves.eq_of_isOf {h : List Server.Callback} {id' : Nat} (hm : Moves setup id st i st' ev)
    (hs : Standing h id st) {e : Event} (he : e ∈ ev) (hof : e.isOf id' = true) : id' = id := by
  have hmap : ∀ {con : Server.Connection} {out : List Action}, con.id = id →
      e ∈ out.map (Event.action con) → id' = id := by
    intro con out hid hmem
    obtain ⟨a, -, rfl⟩ := List.mem_map.1 hmem
    exact (of_decide_eq_true hof).symm.trans hid
  cases hm with
  | accepts => cases he
  | drops => cases he
  | answers =>
    obtain rfl := List.mem_singleton.1 he
    cases hof
  | opens con =>
    obtain rfl := List.mem_singleton.1 he
    exact (of_decide_eq_true hof).symm.trans hs.1
  | refused con _ ec =>
    obtain rfl := List.mem_singleton.1 he
    exact (of_decide_eq_true hof).symm.trans hs.1
  | reads con => exact hmap hs.1 he
  | ends con => exact hmap hs.1 he
  | fails con _ ec =>
    obtain rfl := List.mem_singleton.1 he
    exact (of_decide_eq_true hof).symm.trans hs.1

theorem Moves.lived (hm : Moves setup id st i st' ev)
    (hheader : ∀ streambuf r, st = .handshaking → i = .header streambuf r →
      (behindBlankLine (charsOf streambuf)).isSome = true)
    (hread : ∀ con b bytes, st = .reading con b → i = .arrived bytes →
      SocketServer.Completes b [] bytes)
    (h : Lived setup id is l st) :
    Lived setup id (is ++ [i]) (l ++ ev.filter (Event.isOf id)) st' := by
  cases hm with
  | accepts =>
    obtain ⟨hb, rfl⟩ := h
    exact ⟨by rw [bytes_snoc, hb]; rfl, rfl⟩
  | drops hst =>
    left
    rw [List.filter_nil, List.append_nil]
    rcases hst with rfl | ⟨con, leftover, rfl⟩
    · exact h.2
    · exact h.2
  | @answers streambuf remoteEndpoint request left _ _ hp hw =>
    obtain ⟨hb, rfl⟩ := h
    have hbytes : (is ++ [Completion.header streambuf remoteEndpoint]).flatMap Completion.bytes =
        streambuf := by
      rw [bytes_snoc, hb]
      rfl
    refine ⟨?_, rfl⟩
    rw [hbytes]
    exact ⟨remoteEndpoint, request, left, List.mem_append_right _ List.mem_cons_self,
      hheader _ _ rfl rfl, hp, rfl, rfl⟩
  | opens con leftover =>
    obtain ⟨ha, rfl⟩ := h
    have hof : [Event.opened con].filter (Event.isOf id) = [.opened con] :=
      List.filter_cons_of_pos (decide_eq_true ha.id_eq)
    rw [hof]
    exact ⟨_, leftover, [], ha.snoc, bytes_snoc is .written, .start, rfl⟩
  | refused con leftover ec =>
    obtain ⟨ha, rfl⟩ := h
    have hof := filter_isOf_map ha.id_eq [.onError (.socket ec)]
    rw [List.map_singleton] at hof
    rw [hof]
    refine .inr (.inl ⟨con, leftover, .socket ec, ?_, rfl⟩)
    rw [bytes_snoc, show Completion.bytes (.failed ec) = [] from rfl, List.append_nil]
    exact ha.snoc
  | reads con hc hp =>
    rw [filter_isOf_map (Spoken.id_eq h)]
    exact Spoken.read h (hread _ _ _ rfl rfl) hc
  | ends con hc hp =>
    rw [filter_isOf_map (Spoken.id_eq h)]
    exact .inr (.inr (.inl ⟨_, _, Spoken.read h (hread _ _ _ rfl rfl) hc⟩))
  | fails con b ec =>
    have hof := filter_isOf_map (Spoken.id_eq h) [.onError (.socket ec)]
    rw [List.map_singleton] at hof
    rw [hof]
    exact .inr (.inr (.inr ⟨con, b, l, .socket ec, Spoken.snoc h rfl, rfl⟩))

namespace Endpoint

variable {e : Endpoint} {t : Trace}

/-- The operations of one connection that have completed, and what was done about it. -/
def completions (id : Nat) (t : Trace) : List Completion :=
  (Run.inputs t).filterMap fun i => if i.1 = id then some i.2 else none

def eventsOf (id : Nat) (t : Trace) : List Event := (events t).filter (Event.isOf id)

/-- The bytes that have been received on a connection. -/
def received (id : Nat) (t : Trace) : List UInt8 := (completions id t).flatMap Completion.bytes

/-- **A run is to each connection what happened on it**, whatever happened on the others. -/
theorem lived_of_run (h : Serves setup t e) (id : Nat) :
    Lived setup id (completions id t) (eventsOf id t) (e.stage id) := by
  induction h with
  | start => exact ⟨rfl, rfl⟩
  | @next t e i e' ev hr hg hs ih =>
    obtain ⟨hm, hother, -⟩ := step_moves hs
    have hevents : eventsOf id (t ++ [(i, ev)]) = eventsOf id t ++ ev.filter (Event.isOf id) := by
      unfold eventsOf
      rw [events_snoc, List.filter_append]
    rw [hevents]
    by_cases he : i.1 = id
    · subst he
      have hcomp : completions i.1 (t ++ [(i, ev)]) = completions i.1 t ++
        [i.2] := by simp [completions]
      rw [hcomp]
      unfold Promised at hg
      refine hm.lived ?_ ?_ ih
      · intro streambuf r hst hi
        rw [hst, hi] at hg
        exact hg
      · intro con b bytes hst hi
        rw [hst, hi] at hg
        exact hg
    · have hcomp : completions id (t ++ [(i, ev)]) = completions id t := by simp [completions, he]
      have hquiet : ev.filter (Event.isOf id) = [] := by
        refine List.filter_eq_nil_iff.2 fun x hx hof => he ?_
        exact (hm.eq_of_isOf ((told_of_run hr).standing i.1) hx hof).symm
      rw [hcomp, hquiet, List.append_nil, hother id (Ne.symm he)]
      exact ih

/-- The connection of the request was opened, then came a part of the conversation from its start,
and then perhaps an error. -/
def Tells (id : Nat) (request : RequestMessage) (v : Conversation) (l : List Event) : Prop :=
  ∃ con l', (∃ remoteEndpoint, con = Setup.connection id remoteEndpoint request) ∧
    l' <+: .opened con :: v.actions.map (.action con) ∧
    (l = l' ∨ ∃ ec, l = l' ++ [.action con (.onError ec)])

/-- What was read of a client that sends a request and then a conversation is a part of the
conversation. -/
theorem part_of_conversation {is : List Completion} {header bytes rest : List UInt8}
    {request : RequestMessage} {v : Conversation} {con : Server.Connection}
    {b : PieceReader.Buffered Reading UInt8} {l : List Event} (h : Spoken setup id is con b l)
    (hreq : Announces header request) (hs : Spells Masked v.frames bytes)
    (hfit : v.Fits setup.config.maxMessageSize.toNat)
    (hb : is.flatMap Completion.bytes ++ rest = header ++ bytes) :
    (∃ remoteEndpoint, con = Setup.connection id remoteEndpoint request) ∧
      l <+: .opened con :: v.actions.map (.action con) ∧
      (rest = [] → (∀ streambuf r, .header streambuf r ∈ is → streambuf = header) →
        l = .opened con :: v.actions.map (.action con)) := by
  obtain ⟨streambuf, leftover, u, hasked, hbytes, hl, rfl⟩ := h
  obtain ⟨remoteEndpoint, request', left, hmem, hblank, hp, rfl, rfl⟩ := hasked
  rw [hbytes, List.append_assoc] at hb
  obtain ⟨rfl, hsplit⟩ := hreq.split hb hblank hp
  have hstream := hb
  rw [hsplit, List.append_assoc] at hstream
  have hrest := List.append_cancel_left hstream
  rw [← List.append_assoc] at hrest
  obtain ⟨hpre, hall⟩ := SocketServer.hears hl hs hfit hrest
  refine ⟨⟨remoteEndpoint, rfl⟩, ?_, ?_⟩
  · exact (List.prefix_cons_inj _).2 (hpre.map _)
  · intro hnil halone
    have hleft : left.map (fun c => UInt8.ofNat c.toNat) = [] := by
      rw [halone streambuf remoteEndpoint hmem] at hsplit
      exact List.self_eq_append_right.1 hsplit
    rw [hall hleft hnil]

/-- Whatever has come of a client that sends a request and then a conversation, the server tells of
it what the bytes say. -/
theorem tells_of_run {header bytes rest : List UInt8} {request : RequestMessage} {v : Conversation}
    (h : Serves setup t e) (hreq : Announces header request) (hs : Spells Masked v.frames bytes)
    (hfit : v.Fits setup.config.maxMessageSize.toNat)
    (hb : received id t ++ rest = header ++ bytes) :
    Tells id request v (eventsOf id t) := by
  have hlived := lived_of_run h id
  have hpart : ∀ {con b l}, Spoken setup id (completions id t) con b l → _ :=
    fun hspoken => part_of_conversation hspoken hreq hs hfit hb
  have hquiet : eventsOf id t = [] → Tells id request v (eventsOf id t) := fun hnil =>
    ⟨Setup.connection id none request, [], ⟨none, rfl⟩, List.nil_prefix, .inl hnil⟩
  cases hst : e.stage id with
  | fresh =>
    rw [hst] at hlived
    exact hquiet hlived.2
  | handshaking =>
    rw [hst] at hlived
    exact hquiet hlived.2
  | answering con leftover switching =>
    rw [hst] at hlived
    exact hquiet hlived.2
  | reading con b =>
    rw [hst] at hlived
    obtain ⟨hcon, hpre, -⟩ := hpart hlived
    exact ⟨con, _, hcon, hpre, .inl rfl⟩
  | ended =>
    rw [hst] at hlived
    rcases hlived with hnil | ⟨con, leftover, ec, hasked, hl⟩ | ⟨con, b, hspoken⟩ | ⟨con,
      b, l, ec, hspoken, hl⟩
    · exact hquiet hnil
    · obtain ⟨remoteEndpoint, request', left, -, hblank, hp, hcon, -⟩ := hasked
      obtain ⟨rfl, -⟩ := hreq.split hb hblank hp
      exact ⟨con, [], ⟨remoteEndpoint, hcon⟩, List.nil_prefix, .inr ⟨ec, hl⟩⟩
    · obtain ⟨hcon, hpre, -⟩ := hpart hspoken
      exact ⟨con, _, hcon, hpre, .inl rfl⟩
    · obtain ⟨hcon, hpre, -⟩ := hpart hspoken
      exact ⟨con, l, hcon, hpre, .inr ⟨ec, hl⟩⟩

/-- **The server acts on a conversation.** For a client that sends a request and then the frames of
a conversation, the server opens a connection and then does what the conversation asks for, from its
start, as far as the bytes have come, and perhaps meets an error behind it; it has done all of it,
while the connection is read, when the request came alone and all bytes have come. -/
theorem told_conversation {header bytes rest : List UInt8} {request : RequestMessage}
    {v : Conversation} (h : Serves setup t e) (hreq : Announces header request)
    (hs : Spells Masked v.frames bytes) (hfit : v.Fits setup.config.maxMessageSize.toNat)
    (hb : received id t ++ rest = header ++ bytes) :
    Tells id request v (eventsOf id t) ∧ ∀ con b, e.stage id = .reading con b → rest = [] →
      (∀ streambuf r, .header streambuf r ∈ completions id t → streambuf = header) →
        eventsOf id t = .opened con :: v.actions.map (.action con) := by
  refine ⟨tells_of_run h hreq hs hfit hb, fun con b hst hnil halone => ?_⟩
  have hlived := lived_of_run h id
  rw [hst] at hlived
  exact (part_of_conversation hlived hreq hs hfit hb).2.2 hnil halone

/-- The sample request announces what it asks for. -/
theorem announces_sample :
    Announces sampleRequest ⟨"GET", "/a", "room=1", "1.1", [("Sec-WebSocket-Key", "k")]⟩ :=
  announces_print (by decide +kernel) (by decide) (by decide) (by decide) (by decide) (by decide)

/-- Two clients open; the first one says `hi`. -/
theorem told_conversation_text : ∃ t e, Serves (sampleSetup 0xffffffffffffffff) t e ∧
    eventsOf 0 t =
      [.opened Server.clientA, .action Server.clientA (.onMessage ⟨0x81, 2, [104, 105]⟩)] := by
  let v : Conversation := ⟨[.whole .text ⟨[104, 105], by decide⟩], none⟩
  let first : List (Nat × Completion) := sampleVisit 0 "10.0.0.1" ++ [(0, .arrived [0x81, 0x82])]
  let last : List (Nat × Completion) := sampleVisit 1 "10.0.0.2" ++
    [(0, .arrived [1, 2, 3, 4, 105, 107])]
  obtain ⟨t, e, h, hin, hp⟩ :=
    Run.exists_of_replay (Endpoint.step (sampleSetup 0xffffffffffffffff)) Promised .start
    (first ++ last) (fun _ e => decide (Server.clientA ∈ e.connections)) (by decide +kernel)
  have hcomp : completions 0 t =
    [.accepted, .header sampleRequest (some ("10.0.0.1", 5000)), .written,
      .arrived [0x81, 0x82], .arrived [1, 2, 3, 4, 105, 107]] := by
    unfold completions
    rw [hin]
    rfl
  have hs : Spells Masked v.frames ([0x81, 0x82, 1, 2, 3, 4, 105, 107] ++ []) :=
    .cons ⟨![1, 2, 3, 4], by decide⟩ .nil
  have hfit : v.Fits (sampleSetup 0xffffffffffffffff).config.maxMessageSize.toNat :=
    Conversation.fits_whole (show 2 ≤ _ by decide)
  have hb : received 0 t ++ [] = sampleRequest ++ ([0x81, 0x82, 1, 2, 3, 4, 105, 107] ++ []) := by
    unfold received
    rw [hcomp]
    simp [Completion.bytes]
  have htold := told_of_run h
  obtain ⟨b, hst⟩ := htold.opened_iff.1 (htold.mem_connections_iff.1 (of_decide_eq_true hp))
  refine ⟨t, e, h,
    ((told_conversation h announces_sample hs hfit hb).2 Server.clientA b hst rfl ?_).trans
    (by decide)⟩
  intro streambuf r hmem
  rw [hcomp] at hmem
  simp only [List.mem_cons, Completion.header.injEq, reduceCtorEq, List.not_mem_nil,
    or_false, false_or] at hmem
  exact hmem.1

end Endpoint

end CppFrame.SimpleWeb
