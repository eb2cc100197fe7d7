import Mathlib.Data.Finset.Basic
import CppFrame.Server.Contract
import CppFrame.SimpleWeb.Delivery
import CppFrame.SimpleWeb.Handshake

/-!
# The connections of a server

`accept`, `read_handshake`, `write_handshake`, `connection_open`, `connection_close` and
`connection_error` of `server_ws.hpp`, for a server with one endpoint and one thread. A connection
is accepted, its request is read and answered, and then frames are read until one of them, or a
failed read, ends it. The completions of the operations of different connections may come in any
order. A timeout closes the socket, so that what is outstanding fails.

The order of the callbacks of a connection is broken where the server refuses a message for its
length, and nowhere else: the handler is told of an error and then of a close (`contract_iff`). That
open connections have keys of their own is nothing that the server sees to: a key is a remote
endpoint, and two connections have the same one where the host has several addresses.
-/

namespace CppFrame.SimpleWeb

open Server (Callback Contract Distinct Ordered Phase phase)

/-! ## Data -/

/-- Where the server stands with a connection: which operation of it is outstanding. -/
inductive Stage
  | fresh
  | handshaking
  | answering (con : Server.Connection) (leftover : List UInt8) (switching : Bool)
  | reading (con : Server.Connection) (b : PieceReader.Buffered Reading UInt8)
  | ended

/-- How an operation completes. With the header the answer of `remote_endpoint` is given, where
there is one. -/
inductive Completion
  | accepted
  | header (streambuf : List UInt8) (remoteEndpoint : Option (String × UInt16))
  | written
  | arrived (bytes : List UInt8)
  | failed (ec : String)

/-- What the server does: it answers a request, opens a connection, or acts on what it has read. -/
inductive Event
  | answer (id : Nat) (response : List Char)
  | opened (con : Server.Connection)
  | action (con : Server.Connection) (action : Action)
  deriving DecidableEq

/-- What the server was set up with: the parts of `Config` and the one endpoint. -/
structure Setup where
  crypto : Crypto
  walk : CaseInsensitiveMultimap → CaseInsensitiveMultimap
  header : CaseInsensitiveMultimap
  endpoint : String → Bool
  config : Config

/-- The connections, by number, and the set `connections` of the endpoint. -/
structure Endpoint where
  stage : Nat → Stage
  connections : Finset Server.Connection

def Endpoint.start : Endpoint := ⟨fun _ => .fresh, ∅⟩

/-! ## Steps -/

/-- The characters of bytes. -/
def charsOf (l : List UInt8) : List Char := (textOf l).toList

/-- The connection as the handler sees it, with its request read; its remote endpoint is that of no
address, where it cannot be had. -/
def Setup.connection (id : Nat) (remoteEndpoint : Option (String × UInt16))
    (request : RequestMessage) :
    Server.Connection :=
  let remote := remoteEndpoint.getD ("0.0.0.0", 0)
  ⟨id, remote.1, remote.2, request.queryString⟩

/-- The end of `read_handshake`: the request is parsed, and answered where that succeeds. -/
def Setup.readHandshake (setup : Setup) (id : Nat) (streambuf : List UInt8)
    (remoteEndpoint : Option (String × UInt16)) :
    Stage × List Event :=
  match RequestMessage.parse (charsOf streambuf) with
  | none => (.ended, [])
  | some (request, left) =>
    match SocketServer.writeHandshake setup.crypto setup.walk setup.header setup.endpoint
      request with
    | none => (.ended, [])
    | some (response, switching) =>
      (.answering (connection id remoteEndpoint request)
        (left.map fun c => .ofNat c.toNat) switching,
        [.answer id response])

/-- An operation of a connection completes. -/
def Stage.step (setup : Setup) (id : Nat) : Stage → Completion → Option (Stage × List Event)
  | .fresh, .accepted => some (.handshaking, [])
  | .handshaking, .header streambuf remoteEndpoint =>
    some (setup.readHandshake id streambuf remoteEndpoint)
  | .handshaking, .failed _ => some (.ended, [])
  | .answering con leftover true, .written => some (.reading con ⟨.start, leftover⟩, [.opened con])
  | .answering con _ true, .failed ec => some (.ended, [.action con (.onError (.socket ec))])
  | .answering _ _ false, .written => some (.ended, [])
  | .answering _ _ false, .failed _ => some (.ended, [])
  | .reading con b, .arrived bytes =>
    (SocketServer.complete setup.config b bytes).map fun r =>
      (if r.1.state.pending = .ended then .ended else .reading con r.1, r.2.map (.action con))
  | .reading con _, .failed ec => some (.ended, [.action con (.onError (.socket ec))])
  | _, _ => none

/-- `connection_open`, `connection_close` and `connection_error` keep the set of connections. -/
def Endpoint.record (connections : Finset Server.Connection) : Event → Finset Server.Connection
  | .opened con => insert con connections
  | .action con (.onClose _ _) => connections.erase con
  | .action con (.onError _) => connections.erase con
  | _ => connections

/-- An operation of the connection with the given number completes. -/
def Endpoint.step (setup : Setup) (e : Endpoint) (i : Nat × Completion) :
    Option (Endpoint × List Event) :=
  ((e.stage i.1).step setup i.1 i.2).map fun r =>
    (⟨Function.update e.stage i.1 r.1, r.2.foldl record e.connections⟩, r.2)

/-- The operations that have completed, each with what the server did. -/
abbrev Endpoint.Trace := List ((Nat × Completion) × List Event)

/-- What the operations promise: a header that was read until its end is there; a read has the bytes
that were asked for. -/
def Endpoint.Promised (e : Endpoint) (_ : Trace) (i : Nat × Completion) : Prop :=
  match e.stage i.1, i.2 with
  | .handshaking, .header streambuf _ => (behindBlankLine (charsOf streambuf)).isSome = true
  | .reading _ b, .arrived bytes => SocketServer.Completes b [] bytes
  | _, _ => True

instance (e : Endpoint) (t : Endpoint.Trace) (i : Nat × Completion) :
    Decidable (e.Promised t i) := by
  unfold Endpoint.Promised
  split <;> infer_instance

/-- The runs of a server. -/
abbrev Endpoint.Serves (setup : Setup) := Run (Endpoint.step setup) Endpoint.Promised .start

/-! ## Callbacks -/

/-- The callback of the endpoint that an action makes, where the handler has set one. -/
def Action.callbacks (con : Server.Connection) : Action → List Callback
  | .onMessage m => [.onMessage con m.string]
  | .onClose _ _ => [.onClose con]
  | .onError ec => [.onError con ec.message]
  | _ => []

def Event.callbacks : Event → List Callback
  | .answer _ _ => []
  | .opened con => [.onOpen con]
  | .action con a => a.callbacks con

/-- What a run does, and the callbacks it makes. -/
def Endpoint.events (t : Endpoint.Trace) : List Event := t.flatMap Prod.snd

def Endpoint.callbacks (t : Endpoint.Trace) : List Callback :=
  (Endpoint.events t).flatMap Event.callbacks

/-! ## What a read leads to -/

/-- What the server does when a read completes, by the reading it goes on with. -/
inductive Reacts (config : Config) (c : Reading) : List Action → Prop
  | nothing (h : c.pending ≠ .ended) : Reacts config c []
  | ping (h : c.pending ≠ .ended) (content : List UInt8) (finRsvOpcode : UInt8) :
      Reacts config c [.send content finRsvOpcode, .onPing]
  | pong (h : c.pending ≠ .ended) : Reacts config c [.onPong]
  | message (h : c.pending ≠ .ended) (m : InMessage) : Reacts config c [.onMessage m]
  | close (h : c.pending = .ended) (status : Nat) (reason : String) :
      Reacts config c [.sendClose status reason, .onClose status reason]
  | tooLong (h : c.pending = .ended) {length : UInt64} (hl : config.maxMessageSize < length) :
      Reacts config c [.onError .messageSize, .sendClose 1009 "message too big",
        .onClose 1009 "message too big"]

namespace SocketServer

variable {config : Config} {c c' : Reading} {finRsvOpcode : UInt8} {out : List Action}

theorem readMessageContent_reacts {length : UInt64}
    (h : readMessageContent config c length finRsvOpcode = (c', out)) :
    Reacts config c' out := by
  unfold readMessageContent at h
  split_ifs at h with hl
  · cases h
    exact .tooLong rfl hl
  · cases h
    exact .nothing nofun

theorem onFirstBytes_reacts {second : UInt8}
    (h : onFirstBytes config c finRsvOpcode second = (c', out)) :
    Reacts config c' out := by
  unfold onFirstBytes at h
  dsimp only at h
  split_ifs at h
  · cases h
    exact .close rfl _ _
  · cases h
    exact .nothing nofun
  · cases h
    exact .nothing nofun
  · exact readMessageContent_reacts h

theorem onContent_reacts {length : UInt64} {content : List UInt8}
    (h : onContent c length finRsvOpcode content = (c', out)) : Reacts config c' out := by
  have hfirst : Pending.first ≠ .ended := nofun
  unfold onContent at h
  dsimp only at h
  generalize (if isFragment finRsvOpcode then some (inMessage c length finRsvOpcode content)
    else c.fragmentedInMessage) = fragmented at h
  split_ifs at h
  all_goals cases h
  · exact .close rfl _ _
  · exact .ping hfirst _ _
  · exact .pong hfirst
  · exact .nothing hfirst
  · exact .message hfirst _

theorem take_reacts {piece : List UInt8} (h : take config c piece = some (c', out)) :
    Reacts config c' out := by
  unfold take at h
  split at h
  · exact onFirstBytes_reacts (Option.some.inj h)
  · exact readMessageContent_reacts (Option.some.inj h)
  · split_ifs at h
    exact onContent_reacts (Option.some.inj h)
  · cases h

theorem complete_reacts {b b' : PieceReader.Buffered Reading UInt8} {bytes : List UInt8}
    (h : complete config b bytes = some (b', out)) : Reacts config b'.state out := by
  unfold complete PieceReader.arrive at h
  split at h
  · rename_i hfirst
    cases h
    exact .nothing (by rw [hfirst.1]; exact nofun)
  · split at h
    · cases h
    · split_ifs at h
      obtain ⟨r, hr, he⟩ := Option.map_eq_some_iff.1 h
      cases he
      exact take_reacts hr

end SocketServer

/-- A limit that no message exceeds is never exceeded. -/
theorem Reacts.ne_messageSize {config : Config} {c : Reading} {out : List Action}
    (h : Reacts config c out) (hmax : config.maxMessageSize = 0xffffffffffffffff) :
    .onError .messageSize ∉ out := by
  cases h with
  | tooLong h hl =>
    rw [hmax, UInt64.lt_iff_toNat_lt] at hl
    exact absurd (UInt64.toNat_lt _) (Nat.not_lt.2 hl)
  | _ => simp

section

variable {config : Config} {c : Reading} {out : List Action} (con : Server.Connection)

/-- A read that leaves the connection open makes no callback, or that of a message. -/
theorem Reacts.callbacks_of_open (h : Reacts config c out) (hp : c.pending ≠ .ended) :
    out.flatMap (Action.callbacks con) = [] ∨ ∃ msg, out.flatMap (Action.callbacks con) =
      [.onMessage con msg] := by
  cases h with
  | nothing => exact .inl rfl
  | ping => exact .inl rfl
  | pong => exact .inl rfl
  | message _ m => exact .inr ⟨m.string, rfl⟩
  | close h => exact absurd h hp
  | tooLong h => exact absurd h hp

theorem Reacts.ne_error_of_open (h : Reacts config c out) (hp : c.pending ≠ .ended)
    (ec : ErrorCode) :
    .onError ec ∉ out := by
  cases h with
  | close h => exact absurd h hp
  | tooLong h => exact absurd h hp
  | _ => simp

/-- A read that ends the connection makes the callback of the close, behind one of an error where
the message was too long. -/
theorem Reacts.callbacks_of_ended (h : Reacts config c out) (hp : c.pending = .ended) :
    (out.flatMap (Action.callbacks con) = [.onClose con] ∧ .onError .messageSize ∉ out) ∨
      out.flatMap (Action.callbacks con) =
        [.onError con ErrorCode.messageSize.message, .onClose con] ∧
        .onError .messageSize ∈ out := by
  cases h with
  | nothing h => exact absurd hp h
  | ping h => exact absurd hp h
  | pong h => exact absurd hp h
  | message h => exact absurd hp h
  | close => exact .inl ⟨rfl, by simp⟩
  | tooLong => exact .inr ⟨rfl, List.mem_cons_self⟩

end

/-! ## What the completion of an operation leads to -/

/-- The stage of a connection with the given number before and after a completion, and what is
done. -/
inductive Moves (setup : Setup) (id : Nat) : Stage → Completion → Stage → List Event → Prop
  | accepts : Moves setup id .fresh .accepted .handshaking []
  | drops {st : Stage} {i : Completion}
      (h : st = .handshaking ∨ ∃ con leftover, st = .answering con leftover false) :
      Moves setup id st i .ended []
  | answers {streambuf : List UInt8} {remoteEndpoint : Option (String × UInt16)}
      {request : RequestMessage}
      {left response : List Char} {switching : Bool}
      (hp : RequestMessage.parse (charsOf streambuf) = some (request, left))
      (hw : SocketServer.writeHandshake setup.crypto setup.walk setup.header setup.endpoint
        request =
        some (response, switching)) :
      Moves setup id .handshaking (.header streambuf remoteEndpoint)
        (.answering (Setup.connection id remoteEndpoint request)
          (left.map fun c => .ofNat c.toNat) switching)
        [.answer id response]
  | opens (con : Server.Connection) (leftover : List UInt8) :
      Moves setup id (.answering con leftover true) .written
        (.reading con ⟨.start, leftover⟩) [.opened con]
  | refused (con : Server.Connection) (leftover : List UInt8) (ec : String) :
      Moves setup id (.answering con leftover true) (.failed ec) .ended
        [.action con (.onError (.socket ec))]
  | reads (con : Server.Connection) {b b' : PieceReader.Buffered Reading UInt8}
      {bytes : List UInt8} {out : List Action}
      (hc : SocketServer.complete setup.config b bytes = some (b', out))
      (hp : b'.state.pending ≠ .ended) :
      Moves setup id (.reading con b) (.arrived bytes) (.reading con b') (out.map (.action con))
  | ends (con : Server.Connection) {b b' : PieceReader.Buffered Reading UInt8}
      {bytes : List UInt8} {out : List Action}
      (hc : SocketServer.complete setup.config b bytes = some (b', out))
      (hp : b'.state.pending = .ended) :
      Moves setup id (.reading con b) (.arrived bytes) .ended (out.map (.action con))
  | fails (con : Server.Connection) (b : PieceReader.Buffered Reading UInt8) (ec : String) :
      Moves setup id (.reading con b) (.failed ec) .ended [.action con (.onError (.socket ec))]

variable {setup : Setup} {id : Nat} {st st' : Stage} {i : Completion} {ev : List Event}

theorem Setup.readHandshake_moves {streambuf : List UInt8}
    {remoteEndpoint : Option (String × UInt16)}
    (h : setup.readHandshake id streambuf remoteEndpoint = (st', ev)) :
    Moves setup id .handshaking (.header streambuf remoteEndpoint) st' ev := by
  unfold readHandshake at h
  split at h
  · cases h
    exact .drops (.inl rfl)
  · rename_i hp
    split at h
    · cases h
      exact .drops (.inl rfl)
    · rename_i hw
      cases h
      exact .answers hp hw

theorem Stage.step_moves (h : st.step setup id i = some (st', ev)) :
    Moves setup id st i st' ev := by
  unfold step at h
  split at h
  · cases h
    exact .accepts
  · exact Setup.readHandshake_moves (Option.some.inj h)
  · cases h
    exact .drops (.inl rfl)
  · cases h
    exact .opens _ _
  · cases h
    exact .refused _ _ _
  · cases h
    exact .drops (.inr ⟨_, _, rfl⟩)
  · cases h
    exact .drops (.inr ⟨_, _, rfl⟩)
  · obtain ⟨⟨b', out⟩, hc, he⟩ := Option.map_eq_some_iff.1 h
    cases he
    dsimp only
    split_ifs with hp
    · exact .ends _ hc hp
    · exact .reads _ hc hp
  · cases h
    exact .fails _ _ _
  · cases h

/-! ## What is promised of each of several callbacks -/

/-- Each of the callbacks `l`, made after `h` and those of `l` before it, is as `P` says. -/
def Each (P : List Callback → Callback → Prop) : List Callback → List Callback → Prop
  | _, [] => True
  | h, cb :: l => P h cb ∧ Each P (h ++ [cb]) l

instance Each.decidable (P : List Callback → Callback → Prop) [∀ h cb, Decidable (P h cb)] :
    ∀ h l, Decidable (Each P h l)
  | _, [] => inferInstanceAs (Decidable True)
  | h, cb :: l =>
    have := Each.decidable P (h ++ [cb]) l
    inferInstanceAs (Decidable (P h cb ∧ Each P (h ++ [cb]) l))

theorem Each.append_iff {P : List Callback → Callback → Prop} {h l l' : List Callback} :
    Each P h (l ++ l') ↔ Each P h l ∧ Each P (h ++ l) l' := by
  induction l generalizing h with
  | nil => simp [Each]
  | cons cb l ih =>
    rw [List.cons_append, Each, Each, ih, and_assoc, List.append_assoc, List.singleton_append]

theorem Each.and_iff {P Q : List Callback → Callback → Prop} {h l : List Callback} :
    Each (fun h cb => P h cb ∧ Q h cb) h l ↔ Each P h l ∧ Each Q h l := by
  induction l generalizing h with
  | nil => exact (and_self_iff).symm
  | cons cb l ih => rw [Each, Each, Each, ih, and_and_and_comm]

/-! ## The phases of the connections with one number -/

/-- What the callbacks have been about the connections with the given number: there is at most one
that has been told of, and it is open while it is read. -/
def Standing (h : List Callback) (id : Nat) : Stage → Prop
  | .fresh | .handshaking => ∀ con, con.id = id → phase con h = .fresh
  | .answering con _ _ => con.id = id ∧ ∀ con, con.id = id → phase con h = .fresh
  | .reading con _ => con.id = id ∧ phase con h = .opened ∧ ∀ con', con'.id = id → con' ≠ con →
      phase con' h = .fresh
  | .ended => ∀ con, con.id = id → phase con h ≠ .opened

theorem Standing.congr {h h' : List Callback} (hs : Standing h id st)
    (he : ∀ con, con.id = id → phase con h' = phase con h) :
    Standing h' id st := by
  cases st with
  | fresh => exact fun con hc => (he con hc).trans (hs con hc)
  | handshaking => exact fun con hc => (he con hc).trans (hs con hc)
  | answering con leftover switching => exact ⟨hs.1, fun con hc => (he con hc).trans (hs.2 con hc)⟩
  | reading con b =>
    exact ⟨hs.1, (he con hs.1).trans hs.2.1, fun con' hc hne =>
      (he con' hc).trans (hs.2.2 con' hc hne)⟩
  | ended => exact fun con hc => by rw [he con hc]; exact hs con hc

theorem phase_append_of_ne {con : Server.Connection} {h l : List Callback}
    (hl : ∀ cb ∈ l, cb.con ≠ con) :
    phase con (h ++ l) = phase con h := by
  induction l generalizing h with
  | nil => rw [List.append_nil]
  | cons cb l ih =>
    rw [List.append_cons, ih fun cb' hcb => hl cb' (List.mem_cons_of_mem cb hcb),
      Server.phase_snoc_ne (hl cb List.mem_cons_self)]

@[simp] theorem callbacks_action (con : Server.Connection) (out : List Action) :
    (out.map (Event.action con)).flatMap Event.callbacks = out.flatMap (Action.callbacks con) :=
  List.flatMap_map _ _ _

@[simp] theorem messageSize_mem_map {con : Server.Connection} {out : List Action} {ec : ErrorCode} :
    (∀ con', Event.action con' (.onError ec) ∉ out.map (Event.action con)) ↔ .onError ec ∉ out := by
  constructor
  · exact fun h hm => h con (List.mem_map_of_mem hm)
  · intro h con' hm
    obtain ⟨a, ha, he⟩ := List.mem_map.1 hm
    cases he
    exact h ha

/-- The callbacks of the actions on a connection are about that connection. -/
theorem con_of_mem_callbacks {con : Server.Connection} {out : List Action} {cb : Callback}
    (h : cb ∈ out.flatMap (Action.callbacks con)) : cb.con = con := by
  obtain ⟨a, -, ha⟩ := List.mem_flatMap.1 h
  cases a with
  | onMessage | onClose | onError =>
    obtain rfl := List.mem_singleton.1 ha
    rfl
  | onPing | onPong | send | sendClose => cases ha

/-- Every callback of a completion is about a connection with its number. -/
theorem Moves.callback_id {h : List Callback} (hm : Moves setup id st i st' ev)
    (hs : Standing h id st) :
    ∀ cb ∈ ev.flatMap Event.callbacks, cb.con.id = id := by
  intro cb hcb
  cases hm with
  | accepts => cases hcb
  | drops => cases hcb
  | answers => cases hcb
  | opens con =>
    obtain rfl := List.mem_singleton.1 hcb
    exact hs.1
  | refused con _ ec =>
    obtain rfl := List.mem_singleton.1 hcb
    exact hs.1
  | reads con =>
    rw [callbacks_action] at hcb
    exact con_of_mem_callbacks hcb ▸ hs.1
  | ends con =>
    rw [callbacks_action] at hcb
    exact con_of_mem_callbacks hcb ▸ hs.1
  | fails con _ ec =>
    obtain rfl := List.mem_singleton.1 hcb
    exact hs.1

/-- A connection that is closed leaves none with its number open. -/
theorem Standing.close {h h' : List Callback} {con : Server.Connection}
    {b : PieceReader.Buffered Reading UInt8} (hs : Standing h id (.reading con b))
    (hc : phase con h' = .closed) (hne : ∀ con', con' ≠ con → phase con' h' = phase con' h) :
    Standing h' id .ended := by
  intro con' hid ho
  by_cases he : con' = con
  · rw [he, hc] at ho
    cases ho
  · rw [hne con' he, hs.2.2 con' hid he] at ho
    cases ho

/-- The phases of the connections with the number of a completion, behind its callbacks. -/
theorem Moves.standing {h : List Callback} (hm : Moves setup id st i st' ev)
    (hs : Standing h id st) :
    Standing (h ++ ev.flatMap Event.callbacks) id st' := by
  cases hm with
  | accepts =>
    rw [List.flatMap_nil, List.append_nil]
    exact hs
  | drops hst =>
    rw [List.flatMap_nil, List.append_nil]
    rcases hst with rfl | ⟨con, leftover, rfl⟩
    · exact fun con hc => by rw [hs con hc]; decide
    · exact fun con hc => by rw [hs.2 con hc]; decide
  | answers =>
    refine ⟨rfl, fun con hc => ?_⟩
    show phase con (h ++ []) = _
    rw [List.append_nil, hs con hc]
  | opens con leftover =>
    refine ⟨hs.1, Server.phase_snoc_self h (.onOpen con), fun con' hid hne => ?_⟩
    have hcon : (Callback.onOpen con).con ≠ con' := hne.symm
    exact (Server.phase_snoc_ne hcon h).trans (hs.2 con' hid)
  | refused con leftover ec =>
    intro con' hid ho
    change phase con' (h ++ [.onError con ec]) = .opened at ho
    by_cases he : con = con'
    · subst he
      have hclosed : phase con (h ++ [.onError con ec]) = .closed :=
        Server.phase_snoc_self h (.onError con ec)
      rw [hclosed] at ho
      cases ho
    · have hne : (Callback.onError con ec).con ≠ con' := he
      rw [Server.phase_snoc_ne hne, hs.2 con' hid] at ho
      cases ho
  | reads con hc hp =>
    have hr := SocketServer.complete_reacts hc
    rw [callbacks_action]
    have hreading : Standing h id (.reading con _) := hs
    refine hreading.congr fun con' _ => ?_
    rcases hr.callbacks_of_open con hp with he | ⟨msg, he⟩
    · rw [he, List.append_nil]
    · rw [he, Server.phase_snoc_onMessage]
  | @ends con _ _ _ out hc hp =>
    have hr := SocketServer.complete_reacts hc
    rw [callbacks_action]
    have hne : ∀ con', con' ≠ con →
        phase con' (h ++ out.flatMap (Action.callbacks con)) = phase con' h :=
      fun con' hne => phase_append_of_ne fun cb hcb he =>
        hne (he.symm.trans (con_of_mem_callbacks hcb))
    refine hs.close ?_ hne
    rcases hr.callbacks_of_ended con hp with ⟨he, -⟩ | ⟨he, -⟩
    · rw [he]
      exact Server.phase_snoc_self h (.onClose con)
    · rw [he, List.append_cons]
      exact Server.phase_snoc_self _ (.onClose con)
  | fails con _ ec =>
    refine hs.close (Server.phase_snoc_self h (.onError con ec)) fun con' hne => ?_
    have hcon : (Callback.onError con ec).con ≠ con' := hne.symm
    exact Server.phase_snoc_ne hcon h

/-- **The order in one completion** is kept, unless it refuses a message for its length. -/
theorem Moves.ordered_iff {h : List Callback} (hm : Moves setup id st i st' ev)
    (hs : Standing h id st) :
    Each Ordered h (ev.flatMap Event.callbacks) ↔
      ∀ con, .action con (.onError .messageSize) ∉ ev := by
  cases hm with
  | accepts => simp [Each]
  | drops => simp [Each]
  | answers => simp [Each, Event.callbacks]
  | opens con leftover =>
    have hc : Ordered h (.onOpen con) := hs.2 con hs.1
    simp [Each, Event.callbacks, hc]
  | refused con leftover ec =>
    have hc : Ordered h (.onError con ec) := show phase con h ≠
      .closed by rw [hs.2 con hs.1]; decide
    simp [Each, Event.callbacks, Action.callbacks, ErrorCode.message, hc]
  | reads con hc hp =>
    have hr := SocketServer.complete_reacts hc
    rw [callbacks_action, messageSize_mem_map]
    refine iff_of_true ?_ (hr.ne_error_of_open hp _)
    rcases hr.callbacks_of_open con hp with he | ⟨msg, he⟩
    · rw [he]
      trivial
    · rw [he]
      exact ⟨hs.2.1, trivial⟩
  | ends con hc hp =>
    have hr := SocketServer.complete_reacts hc
    rw [callbacks_action, messageSize_mem_map]
    rcases hr.callbacks_of_ended con hp with ⟨he, hn⟩ | ⟨he, hm⟩
    · rw [he]
      exact iff_of_true ⟨hs.2.1, trivial⟩ hn
    · rw [he]
      refine iff_of_false ?_ (not_not_intro hm)
      rintro ⟨-, ho, -⟩
      have hclosed : phase con (h ++ [.onError con ErrorCode.messageSize.message]) = .closed :=
        Server.phase_snoc_self h (.onError con ErrorCode.messageSize.message)
      exact Phase.noConfusion (hclosed.symm.trans ho)
  | fails con _ ec =>
    have hc : Ordered h (.onError con ec) := show phase con h ≠ .closed by rw [hs.2.1]; decide
    simp [Each, Event.callbacks, Action.callbacks, ErrorCode.message, hc]

/-- A completion that refuses a message tells of an error and then of a close. -/
theorem Moves.callbacks_of_refused {con : Server.Connection} (hm : Moves setup id st i st' ev)
    (hr : .action con (.onError .messageSize) ∈ ev) :
    ev.flatMap Event.callbacks = [.onError con ErrorCode.messageSize.message, .onClose con] := by
  have hof : ∀ {con' : Server.Connection} {out : List Action},
      .action con (.onError .messageSize) ∈ out.map (Event.action con') → con' = con ∧
      .onError .messageSize ∈ out := by
    intro con' out hmem
    obtain ⟨a, ha, he⟩ := List.mem_map.1 hmem
    cases he
    exact ⟨rfl, ha⟩
  cases hm with
  | accepts | drops | answers | opens | refused | fails => simp at hr
  | reads con' hc hp =>
    exact absurd (hof hr).2 ((SocketServer.complete_reacts hc).ne_error_of_open hp _)
  | ends con' hc hp =>
    obtain ⟨rfl, hmem⟩ := hof hr
    rw [callbacks_action]
    exact (((SocketServer.complete_reacts hc).callbacks_of_ended _ hp).resolve_left
      fun h => h.2 hmem).1

/-- A limit that no message exceeds is never exceeded. -/
theorem Moves.ne_messageSize (hm : Moves setup id st i st' ev)
    (hmax : setup.config.maxMessageSize = 0xffffffffffffffff) :
    ∀ con, .action con (.onError .messageSize) ∉ ev := by
  cases hm with
  | reads _ hc =>
    exact messageSize_mem_map.2 ((SocketServer.complete_reacts hc).ne_messageSize hmax)
  | ends _ hc => exact messageSize_mem_map.2 ((SocketServer.complete_reacts hc).ne_messageSize hmax)
  | _ => simp

/-! ## Runs -/

/-- What the callbacks make of the set of connections. -/
def Endpoint.note (connections : Finset Server.Connection) : Callback → Finset Server.Connection
  | .onOpen con => insert con connections
  | .onMessage _ _ => connections
  | .onClose con => connections.erase con
  | .onError con _ => connections.erase con

theorem Endpoint.record_eq (connections : Finset Server.Connection) (e : Event) :
    record connections e = e.callbacks.foldl note connections := by
  cases e with
  | answer => rfl
  | opened => rfl
  | action con a => cases a <;> rfl

/-- The set holds the connections that are open. -/
theorem Endpoint.mem_note_iff {con : Server.Connection} (l : List Callback) :
    con ∈ l.foldl note ∅ ↔ phase con l = .opened := by
  induction l using List.reverseRecOn with
  | nil => exact iff_of_false (Finset.notMem_empty con) nofun
  | append_singleton l cb ih =>
    rw [List.foldl_append, List.foldl_cons, List.foldl_nil, Server.phase_snoc]
    cases cb with
    | onMessage con' msg =>
      rw [show (if (Callback.onMessage con' msg).con =
        con then (phase con l).next (.onMessage con' msg)
        else phase con l) = phase con l from ite_id _]
      exact ih
    | onOpen con' =>
      show con ∈ insert con' _ ↔ (if con' = con then Phase.opened else phase con l) = _
      rw [Finset.mem_insert, ih]
      split_ifs with he
      · exact iff_of_true (.inl he.symm) rfl
      · exact or_iff_right (Ne.symm he)
    | onClose con' =>
      show con ∈ Finset.erase _ con' ↔ (if con' = con then Phase.closed else phase con l) = _
      rw [Finset.mem_erase, ih]
      split_ifs with he
      · exact iff_of_false (fun h => h.1 he.symm) nofun
      · exact and_iff_right (Ne.symm he)
    | onError con' ec =>
      show con ∈ Finset.erase _ con' ↔ (if con' = con then Phase.closed else phase con l) = _
      rw [Finset.mem_erase, ih]
      split_ifs with he
      · exact iff_of_false (fun h => h.1 he.symm) nofun
      · exact and_iff_right (Ne.symm he)

namespace Endpoint

variable {e e' : Endpoint} {t : Trace} {i : Nat × Completion}
  {guard : Endpoint → Trace → Nat × Completion → Prop}

theorem events_snoc (t : Trace) (x : (Nat × Completion) × List Event) :
    events (t ++ [x]) = events t ++ x.2 := by
  simp [events]

theorem callbacks_snoc (t : Trace) (x : (Nat × Completion) × List Event) :
    callbacks (t ++ [x]) = callbacks t ++ x.2.flatMap Event.callbacks := by
  unfold callbacks
  rw [events_snoc, List.flatMap_append]

/-- A step is the completion of an operation of one connection; the others stay where they are. -/
theorem step_moves (h : e.step setup i = some (e', ev)) :
    Moves setup i.1 (e.stage i.1) i.2 (e'.stage i.1) ev ∧
      (∀ id, id ≠ i.1 → e'.stage id = e.stage id) ∧
      e'.connections = (ev.flatMap Event.callbacks).foldl note e.connections := by
  unfold step at h
  obtain ⟨⟨st', out⟩, hs, he⟩ := Option.map_eq_some_iff.1 h
  cases he
  refine ⟨?_, fun id hne => Function.update_of_ne hne _ _, ?_⟩
  · show Moves setup i.1 (e.stage i.1) i.2 (Function.update e.stage i.1 st' i.1) out
    rw [Function.update_self]
    exact Stage.step_moves hs
  · show out.foldl record e.connections = _
    rw [List.foldl_flatMap]
    exact List.foldl_ext _ _ _ fun connections x _ => record_eq connections x

/-- What holds of a server after every run, whatever the operations promise. -/
structure Told (t : Trace) (e : Endpoint) : Prop where
  standing : ∀ id, Standing (callbacks t) id (e.stage id)
  connections : e.connections = (callbacks t).foldl note ∅

theorem told_start : Told [] .start where
  standing _ _ _ := rfl
  connections := rfl

theorem Told.step (hs : Told t e) (h : e.step setup i = some (e', ev)) :
    Told (t ++ [(i, ev)]) e' := by
  obtain ⟨hm, hother, hconn⟩ := step_moves h
  refine ⟨fun id => ?_, ?_⟩
  · rw [callbacks_snoc]
    by_cases hid : id = i.1
    · rw [hid]
      exact hm.standing (hs.standing i.1)
    · rw [hother id hid]
      refine (hs.standing id).congr fun con hc => phase_append_of_ne fun cb hcb he => hid ?_
      rw [← hc, ← he, hm.callback_id (hs.standing i.1) cb hcb]
  · rw [hconn, hs.connections, callbacks_snoc, List.foldl_append]

theorem told_of_run (h : Run (Endpoint.step setup) guard .start t e) : Told t e := by
  refine h.invariant (P := Told) told_start ?_
  intro t e i e' ev hs _ hstep
  exact hs.step hstep

theorem Told.mem_connections_iff (h : Told t e) {con : Server.Connection} :
    con ∈ e.connections ↔ phase con (callbacks t) = .opened := by
  rw [h.connections, mem_note_iff]

/-- A message of the connection was refused for its length. -/
def Refused (t : Trace) (con : Server.Connection) : Prop :=
  .action con (.onError .messageSize) ∈ events t

theorem refused_snoc {con : Server.Connection} (t : Trace) (x : (Nat × Completion) × List Event) :
    Refused (t ++ [x]) con ↔ Refused t con ∨ .action con (.onError .messageSize) ∈ x.2 := by
  rw [Refused, events_snoc, List.mem_append, Refused]

/-- The callbacks of a run come in order exactly when no message was refused for its length. -/
theorem ordered_iff (h : Run (Endpoint.step setup) guard .start t e) :
    Each Ordered [] (callbacks t) ↔ ∀ con, ¬ Refused t con := by
  induction h with
  | start => exact iff_of_true trivial fun con => List.not_mem_nil
  | @next t e i e' ev hr hg hs ih =>
    have hstep := (step_moves hs).1.ordered_iff ((told_of_run hr).standing i.1)
    rw [callbacks_snoc, Each.append_iff, ih, List.nil_append, hstep, ← forall_and]
    refine forall_congr' fun con => ?_
    rw [refused_snoc, not_or]

/-- Where a message was refused, the handler was told of an error and then at once of a close. -/
theorem callbacks_of_refused (h : Run (Endpoint.step setup) guard .start t e)
    {con : Server.Connection} (hr : Refused t con) :
    ∃ p q, callbacks t = p ++ .onError con ErrorCode.messageSize.message :: .onClose con :: q := by
  induction h with
  | start => cases hr
  | @next t e i e' ev _ _ hs ih =>
    rw [callbacks_snoc]
    rcases (refused_snoc t (i, ev)).1 hr with hr | hr
    · obtain ⟨p, q, hpq⟩ := ih hr
      exact ⟨p, q ++ ev.flatMap Event.callbacks, by
        rw [hpq, List.append_assoc, List.cons_append, List.cons_append]⟩
    · exact ⟨callbacks t, [], by rw [(step_moves hs).1.callbacks_of_refused hr]⟩

/-- **The contract of the server.** The callbacks of a run come in order exactly when no message was
refused for its length, and keep the contract where besides no connection is opened under the key of
an open one. A refused message makes the callbacks of an error and of a close. -/
theorem contract_iff (h : Run (Endpoint.step setup) guard .start t e) :
    (Each Ordered [] (callbacks t) ↔ ∀ con, ¬ Refused t con) ∧
      (Each Contract [] (callbacks t) ↔ (∀ con, ¬ Refused t con) ∧ Each Distinct [] (callbacks t)) ∧
      ∀ con, Refused t con →
        ∃ p q, callbacks t = p ++ .onError con ErrorCode.messageSize.message :: .onClose con :: q :=
  ⟨ordered_iff h, Each.and_iff.trans (and_congr_left' (ordered_iff h)), fun _ =>
    callbacks_of_refused h⟩

/-- With the default limit no message is refused, whatever clients send. -/
theorem not_refused_of_default (hmax : setup.config.maxMessageSize = 0xffffffffffffffff)
    (h : Run (Endpoint.step setup) guard .start t e) (con : Server.Connection) :
    ¬ Refused t con := by
  induction h with
  | start => exact List.not_mem_nil
  | next _ _ hs ih =>
    rw [refused_snoc, not_or]
    exact ⟨ih, (step_moves hs).1.ne_messageSize hmax con⟩

/-- A server for the path `/a`, and the first operations of a client of the channel `room1`. -/
def sampleSetup (limit : UInt64) : Setup :=
  ⟨sampleCrypto, fun header => header, [], fun path => path == "/a", ⟨limit⟩⟩

def sampleRequest : List UInt8 := bytesOf "GET /a?room=1 HTTP/1.1\r\nSec-WebSocket-Key: k\r\n\r\n"

def sampleVisit (id : Nat) (address : String) : List (Nat × Completion) :=
  [(id, .accepted), (id, .header sampleRequest (some (address, 5000))), (id, .written)]

/-- A server with the limit 0 refuses a text of one byte. -/
theorem contract_iff_tooLong : ∃ t e, Serves (sampleSetup 0) t e ∧ ¬ Each Ordered [] (callbacks t) ∧
    ∃ p q, callbacks t =
      p ++ .onError Server.clientA ErrorCode.messageSize.message ::
        .onClose Server.clientA :: q := by
  obtain ⟨t, e, h, -, hp⟩ := Run.exists_of_replay (Endpoint.step (sampleSetup 0)) Promised .start
    (sampleVisit 0 "10.0.0.1" ++ [(0, .arrived [0x81, 0x81])])
    (fun t _ => decide (.action Server.clientA (.onError .messageSize) ∈ events t))
    (by decide +kernel)
  have hmem := of_decide_eq_true hp
  exact ⟨t, e, h, fun ho => (contract_iff h).1.1 ho Server.clientA hmem,
    (contract_iff h).2.2 _ hmem⟩

/-- The connections that are open are those that are read. -/
theorem Told.opened_iff (hs : Told t e) {con : Server.Connection} :
    phase con (callbacks t) = .opened ↔ ∃ b, e.stage con.id = .reading con b := by
  have hs := hs.standing con.id
  constructor
  · intro ho
    cases hst : e.stage con.id with
    | fresh =>
      rw [hst] at hs
      exact absurd ho (by rw [hs con rfl]; decide)
    | handshaking =>
      rw [hst] at hs
      exact absurd ho (by rw [hs con rfl]; decide)
    | answering con' leftover switching =>
      rw [hst] at hs
      exact absurd ho (by rw [hs.2 con rfl]; decide)
    | reading con' b =>
      rw [hst] at hs
      by_cases he : con = con'
      · exact ⟨b, by rw [he]⟩
      · exact absurd ho (by rw [hs.2.2 con rfl he]; decide)
    | ended =>
      rw [hst] at hs
      exact absurd ho (hs con rfl)
  · rintro ⟨b, hst⟩
    rw [hst] at hs
    exact hs.2.1

/-- **The endpoint holds the connections that are read**, and these are the ones that the handler
knows as open. -/
theorem connections_of_run (h : Run (Endpoint.step setup) guard .start t e)
    (con : Server.Connection) :
    (con ∈ e.connections ↔ ∃ b, e.stage con.id = .reading con b) ∧
      (con ∈ e.connections ↔ phase con (callbacks t) = .opened) :=
  have htold := told_of_run h
  ⟨htold.mem_connections_iff.trans htold.opened_iff, htold.mem_connections_iff⟩

/-- Two clients, of which the first one closes. -/
theorem connections_of_run_two : ∃ t e, Serves (sampleSetup 0xffffffffffffffff) t e ∧
    phase Server.clientA (callbacks t) ≠ .opened ∧
      phase Server.clientB (callbacks t) = .opened := by
  obtain ⟨t, e, h, -, hp⟩ :=
    Run.exists_of_replay (Endpoint.step (sampleSetup 0xffffffffffffffff)) Promised .start
    (sampleVisit 0 "10.0.0.1" ++ sampleVisit 1 "10.0.0.2" ++
      [(0, .arrived [0x88, 0x82]), (0, .arrived [0, 0, 0, 0, 3, 232])])
    (fun _ e => decide (Server.clientA ∉ e.connections) &&
      decide (Server.clientB ∈ e.connections)) (by decide +kernel)
  obtain ⟨h₀, h₁⟩ := Bool.and_eq_true_iff.1 hp
  exact ⟨t, e, h, mt (connections_of_run h _).2.2 (of_decide_eq_true h₀),
    (connections_of_run h _).2.1 (of_decide_eq_true h₁)⟩

end Endpoint

end CppFrame.SimpleWeb
