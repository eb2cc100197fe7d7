import CppFrame.SimpleWeb.Serving

/-!
# The connection of a client

`connect` of the plain `SocketClient`, `upgrade`, the reading of frames and the callbacks of
`client_ws.hpp`, and what `handler_runner` does to them. A client looks up a server, connects, asks
for the path, reads the answer, and then reads frames until one of them, or a failed operation, ends
the connection. A timeout, or `stop`, closes the socket, so that what is outstanding fails. Behind
`handler_runner->stop()` every handler returns at once.

The user of a client is told of the end of every connection (`Attempt.finish_of_run`), and before
that of what the server says, in its order, as long as that is a conversation within the limit of
the client (`Attempt.hears_conversation`).
-/

namespace CppFrame.SimpleWeb

/-! ## Data -/

namespace Attempt

/-- Which operation of the client is outstanding. -/
inductive Stage
  | resolving
  | connecting
  | writing
  | waiting
  | reading (c : SocketClient.Connection)
  | ended
  deriving DecidableEq

/-- How an operation completes; an answer was read until its blank line. -/
inductive Completion
  | resolved
  | connected
  | written
  | response (streambuf : List UInt8)
  | arrived (bytes : List UInt8)
  | failed (ec : String)

/-- The next thing that happens: an operation completes, or `handler_runner` is stopped. -/
inductive Input
  | completes (i : Completion)
  | stop

/-- What the client does: it sends its request, opens the connection, or acts on what it has
read. -/
inductive Event
  | request (message : List Char)
  | opened
  | action (action : Action)
  deriving DecidableEq

/-- What the client was set up with, and its key. -/
structure Setup where
  crypto : Crypto
  walk : CaseInsensitiveMultimap → CaseInsensitiveMultimap
  target : SocketClient.Target
  nonceBase64 : String
  config : Config

end Attempt

/-- A client with its one connection. -/
structure Attempt where
  stage : Attempt.Stage
  stopped : Bool

namespace Attempt

def start : Attempt := ⟨.resolving, false⟩

/-! ## Steps -/

/-- What is done with an answer. -/
def onAnswer : SocketClient.Answer → Stage × List Event
  | .opened c => (.reading c, [.opened])
  | .protocolError => (.ended, [.action (.onError .protocolError)])
  | .permissionDenied => (.ended, [.action (.onError .permissionDenied)])

/-- An operation completes. -/
def Stage.step (setup : Setup) : Stage → Completion → Option (Stage × List Event)
  | .ended, _ => none
  | _, .failed ec => some (.ended, [.action (.onError (.socket ec))])
  | .resolving, .resolved => some (.connecting, [])
  | .connecting, .connected =>
    some (.writing, [.request (SocketClient.upgrade setup.walk setup.target setup.nonceBase64)])
  | .writing, .written => some (.waiting, [])
  | .waiting, .response streambuf =>
    (SocketClient.onResponse setup.crypto setup.nonceBase64 (charsOf streambuf)).map onAnswer
  | .reading c, .arrived bytes =>
    (SocketClient.complete setup.config c bytes).map fun r =>
      (if r.1.awaiting = .ended then .ended else .reading r.1, r.2.map .action)
  | _, _ => none

/-- What happens next; a handler that is not continued leaves its operation without a successor. -/
def step (setup : Setup) (s : Attempt) : Input → Option (Attempt × List Event)
  | .stop => some (⟨s.stage, true⟩, [])
  | .completes i =>
    if s.stopped then if s.stage = .ended then none else some (⟨.ended, true⟩, [])
    else (s.stage.step setup i).map fun r => (⟨r.1, false⟩, r.2)

abbrev Trace := List (Input × List Event)

/-- A read has the bytes that were asked for. -/
def Promised (s : Attempt) (_ : Trace) (i : Input) : Prop :=
  match s.stage, i with
  | .reading c, .completes (.arrived bytes) => SocketClient.Completes c [] bytes
  | _, _ => True

instance (s : Attempt) (t : Trace) (i : Input) : Decidable (Promised s t i) := by
  unfold Promised
  split <;> infer_instance

/-- The runs of a client. -/
abbrev Tries (setup : Setup) := Run (step setup) Promised start

/-- What a run does. -/
def events (t : Trace) : List Event := t.flatMap Prod.snd

@[simp] theorem events_snoc (t : Trace) (i : Input) (ev : List Event) :
    events (t ++ [(i, ev)]) = events t ++ ev := by
  simp [events]

end Attempt

/-! ## What a read leads to -/

namespace SocketClient

variable {config : Config} {c c' : Connection} {out : List Action}

theorem pending_reading_iff : c.reading.pending = .ended ↔ c.awaiting = .ended := by
  unfold Connection.reading
  cases c.awaiting <;> simp

theorem pending_reading_ne (h : c.awaiting ≠ .ended) : c.reading.pending ≠ .ended :=
  mt pending_reading_iff.1 h

theorem readMessageContent_reacts {updated : Nat}
    (h : readMessageContent config c updated = (c', out)) :
    Reacts config c'.reading out := by
  unfold readMessageContent at h
  split_ifs at h with hl
  · cases h
    exact .tooLong rfl hl
  · cases h
    exact .nothing nofun

theorem onFirstBytes_reacts {second : UInt8} (h : onFirstBytes config c second = (c', out)) :
    Reacts config c'.reading out := by
  unfold onFirstBytes at h
  dsimp only at h
  split_ifs at h
  · cases h
    exact .close rfl _ _
  · cases h
    exact .nothing nofun
  · cases h
    exact .nothing nofun
  · exact readMessageContent_reacts h

theorem onMessageContent_reacts {next : InMessage} {updated : Nat}
    (h : onMessageContent c next updated = (c', out)) :
    Reacts config c'.reading out := by
  have hnext : ∀ f, (Connection.reading ⟨next, f, updated, .first⟩).pending ≠ .ended :=
    fun f => pending_reading_ne nofun
  unfold onMessageContent at h
  dsimp only at h
  split_ifs at h
  · cases h
    exact .close rfl _ _
  · cases h
    exact .ping (hnext _) _ _
  · cases h
    exact .pong (hnext _)
  · split at h
    · cases h
      exact .nothing (hnext _)
    · cases h
      exact .nothing (hnext _)
  · split at h
    · cases h
      exact .message (hnext _) _
    · cases h
      exact .message (hnext _) _

theorem complete_reacts {bytes : List UInt8} (h : complete config c bytes = some (c', out)) :
    Reacts config c'.reading out := by
  unfold complete at h
  dsimp only at h
  split at h
  · rename_i hfirst
    split_ifs at h
    · cases h
      exact .nothing fun he => by rw [pending_reading_iff, hfirst] at he; cases he
    · split at h
      · exact onFirstBytes_reacts (Option.some.inj h)
      · cases h
  · split_ifs at h
    exact readMessageContent_reacts (Option.some.inj h)
  · split_ifs at h
    unfold onContent at h
    dsimp only at h
    split_ifs at h
    · exact onMessageContent_reacts (Option.some.inj h)
    · exact onMessageContent_reacts (Option.some.inj h)
  · cases h

end SocketClient

namespace Attempt

/-! ## What the completion of an operation leads to -/

/-- The stage before and after a completion, and what is done. -/
inductive Moves (setup : Setup) : Stage → Completion → Stage → List Event → Prop
  | resolves : Moves setup .resolving .resolved .connecting []
  | connects : Moves setup .connecting .connected .writing
      [.request (SocketClient.upgrade setup.walk setup.target setup.nonceBase64)]
  | writes : Moves setup .writing .written .waiting []
  | opens {streambuf : List UInt8} {c : SocketClient.Connection}
      (h : SocketClient.onResponse setup.crypto setup.nonceBase64
      (charsOf streambuf) = some (.opened c)) :
      Moves setup .waiting (.response streambuf) (.reading c) [.opened]
  | refused (streambuf : List UInt8) {ec : ErrorCode} (h : ec ≠ .messageSize) :
      Moves setup .waiting (.response streambuf) .ended [.action (.onError ec)]
  | reads {c c' : SocketClient.Connection} {bytes : List UInt8} {out : List Action}
      (hc : SocketClient.complete setup.config c bytes = some (c', out))
      (hp : c'.awaiting ≠ .ended) :
      Moves setup (.reading c) (.arrived bytes) (.reading c') (out.map .action)
  | ends {c c' : SocketClient.Connection} {bytes : List UInt8} {out : List Action}
      (hc : SocketClient.complete setup.config c bytes = some (c', out))
      (hp : c'.awaiting = .ended) :
      Moves setup (.reading c) (.arrived bytes) .ended (out.map .action)
  | fails {st : Stage} (h : st ≠ .ended) (ec : String) :
      Moves setup st (.failed ec) .ended [.action (.onError (.socket ec))]

variable {setup : Setup} {st st' : Stage} {i : Completion} {ev : List Event}

theorem Stage.step_moves (h : st.step setup i = some (st', ev)) : Moves setup st i st' ev := by
  unfold step at h
  split at h
  · cases h
  · rename_i hst
    cases h
    exact .fails hst _
  · cases h
    exact .resolves
  · cases h
    exact .connects
  · cases h
    exact .writes
  · obtain ⟨answer, ha, he⟩ := Option.map_eq_some_iff.1 h
    cases answer with
    | opened c =>
      cases he
      exact .opens ha
    | protocolError =>
      cases he
      exact .refused _ nofun
    | permissionDenied =>
      cases he
      exact .refused _ nofun
  · obtain ⟨⟨c', out⟩, hc, he⟩ := Option.map_eq_some_iff.1 h
    cases he
    dsimp only
    split_ifs with hp
    · exact .ends hc hp
    · exact .reads hc hp
  · cases h

/-- A step is a completion that is dealt with, one whose handler is not continued, or the end of
handlers. -/
theorem step_cases {s s' : Attempt} {i : Input} (h : step setup s i = some (s', ev)) :
    (i = .stop ∧ s' = ⟨s.stage, true⟩ ∧ ev = []) ∨
    (∃ j, i = .completes j ∧ s.stopped = true ∧ s.stage ≠ .ended ∧ s' = ⟨.ended, true⟩ ∧ ev = []) ∨
    ∃ j st', i = .completes j ∧ s.stopped = false ∧ s' = ⟨st', false⟩ ∧
      Moves setup s.stage j st' ev := by
  cases i with
  | stop =>
    cases h
    exact .inl ⟨rfl, rfl, rfl⟩
  | completes j =>
    unfold step at h
    dsimp only at h
    split_ifs at h with hs he
    · cases h
      exact .inr (.inl ⟨j, rfl, hs, he, rfl, rfl⟩)
    · obtain ⟨r, hr, he⟩ := Option.map_eq_some_iff.1 h
      cases he
      exact .inr (.inr ⟨j, r.1, rfl, Bool.eq_false_of_not_eq_true hs, rfl, Stage.step_moves hr⟩)

/-! ## Answers that are taken -/

/-- The header of an answer that the client takes, whatever stands behind it. -/
def Welcomes (setup : Setup) (header : List UInt8) : Prop :=
  ∀ l, behindBlankLine (charsOf header ++ l) = some l ∧
    SocketClient.onResponse setup.crypto setup.nonceBase64 (charsOf header ++ l) =
      some (.opened (.opened (l.map fun c => .ofNat c.toNat)))

/-- **The answer of a server of the library is taken**, where it had the key of the client. -/
theorem welcomes_answer {configHeader : CaseInsensitiveMultimap} {header : List UInt8}
    {walk : CaseInsensitiveMultimap → CaseInsensitiveMultimap}
    (hwalk : ∀ header, (walk header).Perm header)
    (hbytes : charsOf header = ResponseMessage.print "1.1" "101 Web Socket Protocol Handshake"
      (walk (SocketServer.responseHeader setup.crypto configHeader setup.nonceBase64)))
    (hresponse : ∀ field ∈
      SocketServer.responseHeader setup.crypto configHeader setup.nonceBase64, Printable field)
    (haccept : ∀ field ∈ configHeader, caseInsensitiveEqual field.1 "Sec-WebSocket-Accept" = false)
    (hdecode : setup.crypto.decode (setup.crypto.encode (setup.crypto.accept setup.nonceBase64)) =
      setup.crypto.accept setup.nonceBase64) :
    Welcomes setup header := by
  intro l
  rw [hbytes]
  exact SocketClient.onResponse_print (fun field hfield =>
    hresponse field ((hwalk _).mem_iff.1 hfield))
    (SocketServer.find_accept hwalk haccept) hdecode l

/-- A connection can be opened with such an answer, and with any bytes behind it. -/
theorem exists_opened {header : List UInt8} (hans : Welcomes setup header)
    (additional : List UInt8) :
    ∃ t, Tries setup t ⟨.reading (.opened additional), false⟩ ∧
      Run.inputs t = [.completes .resolved, .completes .connected, .completes .written,
        .completes (.response (header ++ additional))] ∧
      events t = [.request (SocketClient.upgrade setup.walk setup.target setup.nonceBase64),
        .opened] := by
  have hresponse : step setup ⟨.waiting, false⟩ (.completes (.response (header ++ additional))) =
      some (⟨.reading (.opened additional), false⟩, [.opened]) := by
    unfold step Stage.step
    dsimp only
    rw [charsOf_append, (hans _).2, bytes_charsOf]
    rfl
  have hconnecting : Tries setup ([] ++ [(.completes .resolved, [])]) ⟨.connecting, false⟩ :=
    .next .start trivial rfl
  have hwriting : Tries setup _ ⟨.writing, false⟩ :=
    hconnecting.next (i := .completes .connected) trivial rfl
  have hwaiting : Tries setup _ ⟨.waiting, false⟩ :=
    hwriting.next (i := .completes .written) trivial rfl
  exact ⟨_, hwaiting.next trivial hresponse, rfl, rfl⟩

/-- A read of an open connection. -/
theorem next_read {t : Trace} {s' : Attempt} {c : SocketClient.Connection} {piece : List UInt8}
    (h : Tries setup t ⟨.reading c, false⟩) (hg : SocketClient.Completes c [] piece)
    (hs : step setup ⟨.reading c, false⟩ (.completes (.arrived piece)) = some (s', ev)) :
    Tries setup (t ++ [(.completes (.arrived piece), ev)]) s' := h.next hg hs

/-- A client with a limit, and the answer of a server. -/
def sampleAttempt (limit : UInt64) : Setup :=
  ⟨sampleCrypto, fun header => header, sampleTarget, sampleKey, ⟨limit⟩⟩

def sampleAnswer : List UInt8 :=
  bytesOf (.ofList (ResponseMessage.print "1.1" "101 Web Socket Protocol Handshake"
  (SocketServer.responseHeader sampleCrypto [] sampleKey)))

theorem welcomes_sample (limit : UInt64) : Welcomes (sampleAttempt limit) sampleAnswer := by
  have hbytes : charsOf sampleAnswer =
    ResponseMessage.print "1.1" "101 Web Socket Protocol Handshake"
      (id (SocketServer.responseHeader sampleCrypto [] sampleKey)) :=
      charsOf_bytesOf (by decide +kernel)
  have hprintable : ∀ field ∈ SocketServer.responseHeader sampleCrypto [] sampleKey,
    Printable field := by decide
  exact welcomes_answer (fun header => .refl header) hbytes hprintable (List.forall_mem_nil _) rfl

/-! ## What the user of a client is told -/

/-- Whether an event is a callback. -/
def Event.isCallback : Event → Bool
  | .request _ => false
  | .action (.send _ _) => false
  | .action (.sendClose _ _) => false
  | _ => true

/-- The callbacks of a run. -/
def told (t : Trace) : List Event := (events t).filter Event.isCallback

/-- Whether an event is what is told of an open connection. -/
def Event.isNews : Event → Bool
  | .action (.onMessage _) => true
  | .action .onPing => true
  | .action .onPong => true
  | _ => false

/-- What is told at the end of a connection. -/
inductive Finish : List Event → Prop
  | close (status : Nat) (reason : String) : Finish [.action (.onClose status reason)]
  | error {ec : ErrorCode} (h : ec ≠ .messageSize) : Finish [.action (.onError ec)]
  | tooLong : Finish [.action (.onError .messageSize), .action (.onClose 1009 "message too big")]

theorem told_snoc (t : Trace) (i : Input) (ev : List Event) :
    told (t ++ [(i, ev)]) = told t ++ ev.filter Event.isCallback := by
  unfold told
  rw [events_snoc, List.filter_append]

/-- What is told before the end of a connection. -/
def Front (l : List Event) : Prop :=
  l = [] ∨ ∃ news, l = .opened :: news ∧ ∀ e ∈ news, e.isNews = true

/-- What has been told, by the stage. -/
def Reported (l : List Event) (s : Attempt) : Prop :=
  match s.stage with
  | .reading _ => ∃ news, l = .opened :: news ∧ ∀ e ∈ news, e.isNews = true
  | .ended => ∃ front last, l = front ++ last ∧ Front front ∧
    (Finish last ∨ last = [] ∧ s.stopped = true)
  | _ => l = []

section

variable {c : Reading} {out : List Action}

theorem news_of_reacts (h : Reacts setup.config c out) (hp : c.pending ≠ .ended) :
    ∀ e ∈ (out.map Event.action).filter Event.isCallback, e.isNews = true := by
  cases h with
  | nothing => exact nofun
  | ping =>
    intro e he
    obtain rfl := List.mem_singleton.1 he
    rfl
  | pong =>
    intro e he
    obtain rfl := List.mem_singleton.1 he
    rfl
  | message _ m =>
    intro e he
    obtain rfl := List.mem_singleton.1 he
    rfl
  | close h => exact absurd h hp
  | tooLong h => exact absurd h hp

theorem finish_of_reacts (h : Reacts setup.config c out) (hp : c.pending = .ended) :
    Finish ((out.map Event.action).filter Event.isCallback) := by
  cases h with
  | nothing h => exact absurd hp h
  | ping h => exact absurd hp h
  | pong h => exact absurd hp h
  | message h => exact absurd hp h
  | close _ status reason => exact .close status reason
  | tooLong => exact .tooLong

end

theorem Reported.front {l : List Event} {s : Attempt} (h : Reported l s) (hs : s.stage ≠ .ended) :
    Front l := by
  obtain ⟨st, stopped⟩ := s
  cases st with
  | reading c => exact .inr h
  | ended => exact absurd rfl hs
  | _ => exact .inl h

theorem Reported.stop {l : List Event} {s : Attempt} (h : Reported l s) :
    Reported l ⟨s.stage, true⟩ := by
  obtain ⟨st, stopped⟩ := s
  cases st with
  | ended =>
    obtain ⟨front, last, hl, hfront, hlast⟩ := h
    exact ⟨front, last, hl, hfront, hlast.imp_right fun h => ⟨h.1, rfl⟩⟩
  | _ => exact h

/-- What has been told goes on, by what a completion leads to. -/
theorem Moves.reported {l : List Event} (hm : Moves setup st i st' ev)
    (h : Reported l ⟨st, false⟩) :
    Reported (l ++ ev.filter Event.isCallback) ⟨st', false⟩ := by
  cases hm with
  | resolves => exact (List.append_nil l).trans h
  | connects => exact (List.append_nil l).trans h
  | writes => exact (List.append_nil l).trans h
  | opens =>
    obtain rfl : l = [] := h
    exact ⟨[], rfl, nofun⟩
  | refused _ hne =>
    obtain rfl : l = [] := h
    exact ⟨[], _, rfl, .inl rfl, .inl (.error hne)⟩
  | reads hc hp =>
    obtain ⟨news, rfl, hnews⟩ := h
    refine ⟨news ++ _, rfl, fun e he => (List.mem_append.1 he).elim (hnews e) ?_⟩
    exact news_of_reacts (SocketClient.complete_reacts hc) (SocketClient.pending_reading_ne hp) e
  | ends hc hp =>
    refine ⟨l, _, rfl, .inr h, .inl ?_⟩
    exact finish_of_reacts (SocketClient.complete_reacts hc) (SocketClient.pending_reading_iff.2 hp)
  | fails hst ec =>
    have hne : ErrorCode.socket ec ≠ .messageSize := nofun
    exact ⟨l, _, rfl, h.front hst, .inl (.error hne)⟩

theorem reported_of_run {t : Trace} {s : Attempt} (h : Tries setup t s) : Reported (told t) s := by
  induction h with
  | start => rfl
  | @next t s i s' ev hr hg hs ih =>
    rw [told_snoc]
    rcases step_cases hs with ⟨-, rfl, rfl⟩ | ⟨j, -, -, hst, rfl, rfl⟩ | ⟨j, st', -, hrun, rfl, hm⟩
    · rw [List.filter_nil, List.append_nil]
      exact ih.stop
    · rw [List.filter_nil, List.append_nil]
      exact ⟨told t, [], (List.append_nil _).symm, ih.front hst, .inr ⟨rfl, rfl⟩⟩
    · obtain ⟨st, stopped⟩ := s
      obtain rfl : stopped = false := hrun
      exact hm.reported ih

/-- Once no handler is continued, nothing is done. -/
theorem silent_of_stopped {t₁ t₂ : Trace} {ev : List Event} {s : Attempt}
    (h : Tries setup (t₁ ++ (.stop, ev) :: t₂) s) :
    events t₂ = [] := by
  rw [List.append_cons] at h
  refine (h.invariant_from (P := fun t₂ s => s.stopped = true ∧ events t₂ = []) ?_ ?_).2
  · intro s₁ h₁
    obtain ⟨s₀, -, -, hs⟩ := h₁.snoc_inv
    cases hs
    exact ⟨rfl, rfl⟩
  · rintro t₂ s i s' ev - ⟨hstop, hquiet⟩ - hs
    rw [events_snoc, hquiet]
    rcases step_cases hs with ⟨-, rfl, rfl⟩ | ⟨j, -, -, -, rfl, rfl⟩ | ⟨j, st', -, hrun, -, -⟩
    · exact ⟨rfl, rfl⟩
    · exact ⟨rfl, rfl⟩
    · rw [hstop] at hrun
      cases hrun

/-- **A client is told how its connection ends**, once, but where a message was too long it is told
of an error and of a close; before that it is told that the connection is open, and then what came,
or nothing at all. It is told nothing of the end only where its handlers have been stopped, and
nothing at all from then on. -/
theorem finish_of_run {t : Trace} {s : Attempt} (h : Tries setup t s) :
    (∃ front last, told t = front ++ last ∧ Front front ∧
      if s.stage = .ended then Finish last ∨ last = [] ∧ s.stopped = true else last = []) ∧
    ∀ t₁ ev t₂, t = t₁ ++ (.stop, ev) :: t₂ → events t₂ = [] := by
  refine ⟨?_, fun t₁ ev t₂ ht => silent_of_stopped (ht ▸ h)⟩
  have hreported := reported_of_run h
  split_ifs with hst
  · obtain ⟨st, stopped⟩ := s
    obtain rfl : st = .ended := hst
    exact hreported
  · exact ⟨told t, [], (List.append_nil _).symm, hreported.front hst, rfl⟩

/-- A client with the limit 0 is told twice of the end of its connection. -/
theorem finish_of_run_tooLong : ∃ t s, Tries (sampleAttempt 0) t s ∧ told t =
      [.opened, .action (.onError .messageSize), .action (.onClose 1009 "message too big")] ∧
    ∃ front last, told t = front ++ last ∧ Front front ∧
      (Finish last ∨ last = [] ∧ s.stopped = true) := by
  obtain ⟨t, hopened, -, hev⟩ := exists_opened (welcomes_sample 0) [0x81]
  have hstep : step (sampleAttempt 0) ⟨.reading (.opened [0x81]), false⟩
    (.completes (.arrived [0x02])) =
      some (⟨.ended, false⟩,
      [.action (.onError .messageSize), .action (.sendClose 1009 "message too big"),
        .action (.onClose 1009 "message too big")]) := rfl
  have h := next_read hopened (by decide) hstep
  refine ⟨_, _, h, ?_, ?_⟩
  · rw [told_snoc]
    unfold told
    rw [hev]
    rfl
  · obtain ⟨front, last, hl, hfront, hlast⟩ := (finish_of_run h).1
    rw [if_pos rfl] at hlast
    exact ⟨front, last, hl, hfront, hlast⟩

/-! ## What a client hears -/

/-- The bytes that come with an input. -/
def Input.bytes : Input → List UInt8
  | .completes (.response streambuf) => streambuf
  | .completes (.arrived bytes) => bytes
  | _ => []

/-- The bytes that have been received. -/
def received (t : Trace) : List UInt8 := (Run.inputs t).flatMap Input.bytes

theorem received_snoc (t : Trace) (i : Input) (ev : List Event) :
    received (t ++ [(i, ev)]) = received t ++ i.bytes := by
  unfold received
  simp

/-- Whether an event is about what has been received. -/
def Event.isAnswer : Event → Bool
  | .request _ => false
  | _ => true

/-- What a run does behind its request. -/
def acted (t : Trace) : List Event := (events t).filter Event.isAnswer

theorem acted_snoc (t : Trace) (i : Input) (ev : List Event) :
    acted (t ++ [(i, ev)]) = acted t ++ ev.filter Event.isAnswer := by
  unfold acted
  rw [events_snoc, List.filter_append]

theorem filter_isAnswer_map (out : List Action) :
    (out.map Event.action).filter Event.isAnswer = out.map .action := by
  refine List.filter_eq_self.2 fun e he => ?_
  obtain ⟨a, -, rfl⟩ := List.mem_map.1 he
  rfl

/-- The connection was opened with an answer, and what was done is what was read since. -/
def Spoken (setup : Setup) (bytes : List UInt8) (c : SocketClient.Connection) (l : List Event) :
    Prop :=
  ∃ streambuf c₀ u, SocketClient.onResponse setup.crypto setup.nonceBase64 (charsOf streambuf) =
    some (.opened c₀) ∧
    bytes = streambuf ++ PieceReader.arrived u ∧
    Run (SocketClient.complete setup.config) SocketClient.Completes c₀ u c ∧
    l = .opened :: (PieceReader.outputs u).map .action

/-- What has been received, and what was done, by the stage. -/
def Lived (setup : Setup) (bytes : List UInt8) (l : List Event) : Stage → Prop
  | .reading c => Spoken setup bytes c l
  | .ended => ∃ l', (l' = [] ∨ ∃ p q c, bytes = p ++ q ∧ Spoken setup p c l') ∧
      (l = l' ∨ ∃ ec, l = l' ++ [.action (.onError ec)])
  | _ => bytes = [] ∧ l = []

section

variable {bytes : List UInt8} {l : List Event}

theorem Spoken.read {c c' : SocketClient.Connection} {piece : List UInt8} {out : List Action}
    (h : Spoken setup bytes c l) (hg : SocketClient.Completes c [] piece)
    (hc : SocketClient.complete setup.config c piece = some (c', out)) :
    Spoken setup (bytes ++ piece) c' (l ++ out.map .action) := by
  obtain ⟨streambuf, c₀, u, ha, rfl, hl, rfl⟩ := h
  refine ⟨streambuf, c₀, u ++ [(piece, out)], ha, ?_, hl.next hg hc, ?_⟩
  · rw [PieceReader.arrived_snoc, List.append_assoc]
  · rw [PieceReader.outputs_snoc, List.map_append, List.cons_append]

theorem Lived.unfinished (h : Lived setup bytes l st) (hst : st ≠ .ended) :
    l = [] ∨ ∃ p q c, bytes = p ++ q ∧ Spoken setup p c l := by
  cases st with
  | reading c => exact .inr ⟨bytes, [], c, (List.append_nil _).symm, h⟩
  | ended => exact absurd rfl hst
  | _ => exact .inl h.2

/-- More bytes, which nobody reads. -/
theorem unread (h : l = [] ∨ ∃ p q c, bytes = p ++ q ∧ Spoken setup p c l) (x : List UInt8) :
    l = [] ∨ ∃ p q c, bytes ++ x = p ++ q ∧ Spoken setup p c l := by
  refine h.imp_right ?_
  rintro ⟨p, q, c, rfl, hspoken⟩
  exact ⟨p, q ++ x, c, List.append_assoc p q x, hspoken⟩

theorem Moves.lived (hm : Moves setup st i st' ev)
    (hread : ∀ c piece, st = .reading c → i = .arrived piece → SocketClient.Completes c [] piece)
    (h : Lived setup bytes l st) :
    Lived setup (bytes ++ (Input.completes i).bytes) (l ++ ev.filter Event.isAnswer) st' := by
  cases hm with
  | resolves =>
    obtain ⟨rfl, rfl⟩ := h
    exact ⟨rfl, rfl⟩
  | connects =>
    obtain ⟨rfl, rfl⟩ := h
    exact ⟨rfl, rfl⟩
  | writes =>
    obtain ⟨rfl, rfl⟩ := h
    exact ⟨rfl, rfl⟩
  | @opens streambuf c ha =>
    obtain ⟨rfl, rfl⟩ := h
    exact ⟨streambuf, c, [], ha, (List.append_nil _).symm, .start, rfl⟩
  | @refused streambuf ec =>
    obtain ⟨rfl, rfl⟩ := h
    exact ⟨[], .inl rfl, .inr ⟨ec, rfl⟩⟩
  | reads hc hp =>
    rw [filter_isAnswer_map]
    exact Spoken.read h (hread _ _ rfl rfl) hc
  | ends hc hp =>
    rw [filter_isAnswer_map]
    exact ⟨_, .inr ⟨_, [], _, (List.append_nil _).symm, Spoken.read h (hread _ _ rfl rfl) hc⟩,
      .inl rfl⟩
  | fails hst ec => exact ⟨l, unread (h.unfinished hst) [], .inr ⟨.socket ec, rfl⟩⟩

end

/-- **A run is what was received**, and what the client made of it. -/
theorem lived_of_run {t : Trace} {s : Attempt} (h : Tries setup t s) :
    Lived setup (received t) (acted t) s.stage := by
  induction h with
  | start => exact ⟨rfl, rfl⟩
  | @next t s i s' ev hr hg hs ih =>
    rw [received_snoc, acted_snoc]
    rcases step_cases hs with ⟨rfl, rfl, rfl⟩ | ⟨j, rfl, -, hst, rfl, rfl⟩ | ⟨j,
      st', rfl, -, rfl, hm⟩
    · rw [List.filter_nil, List.append_nil]
      exact (List.append_nil (received t)).symm ▸ ih
    · rw [List.filter_nil, List.append_nil]
      exact ⟨acted t, unread (ih.unfinished hst) _, .inl rfl⟩
    · refine hm.lived ?_ ih
      intro c piece hst hj
      unfold Promised at hg
      rw [hst, hj] at hg
      exact hg

/-- The connection was opened, then came a part of the conversation from its start, and then perhaps
an error. -/
def Hears (v : Conversation) (l : List Event) : Prop :=
  ∃ l', l' <+: .opened :: v.actions.map .action ∧ (l = l' ∨ ∃ ec, l = l' ++ [.action (.onError ec)])

/-- What was read of a server that takes the client and then has a conversation is a part of the
conversation. -/
theorem part_of_conversation {header bytes p rest : List UInt8} {v : Conversation}
    {c : SocketClient.Connection} {l : List Event} (h : Spoken setup p c l)
    (hans : Welcomes setup header) (hs : Spells Unmasked v.frames bytes)
    (hfit : v.Fits setup.config.maxMessageSize.toNat) (hb : p ++ rest = header ++ bytes) :
    l <+: .opened :: v.actions.map .action ∧
      (rest = [] → SocketClient.asked c ≠ some 0 → l = .opened :: v.actions.map .action) := by
  obtain ⟨streambuf, c₀, u, ha, rfl, hl, rfl⟩ := h
  rw [List.append_assoc] at hb
  have hblank : (behindBlankLine (charsOf streambuf)).isSome = true := by
    obtain ⟨left, hleft, -⟩ := Option.map_eq_some_iff.1 ha
    exact Option.isSome_iff_exists.2 ⟨left, hleft⟩
  obtain ⟨additional, rfl⟩ := exists_additional (fun l => (hans l).1) hb hblank
  rw [charsOf_append, (hans _).2, bytes_charsOf] at ha
  cases ha
  rw [List.append_assoc, List.append_right_inj, ← List.append_assoc] at hb
  obtain ⟨hpre, hall⟩ := SocketClient.hears hl hs hfit hb
  exact ⟨(List.prefix_cons_inj _).2 (hpre.map _), fun hnil hask => by rw [hall hnil hask]⟩

/-- **A client hears what its server says.** Of an answer that it takes and the frames of a
conversation behind it, the client makes the opening of its connection and then what the
conversation asks for, from its start, as far as the bytes have come, and perhaps meets an error
behind it; it has done all of it when all bytes have come and it waits for more. -/
theorem hears_conversation {t : Trace} {s : Attempt} {header bytes rest : List UInt8}
    {v : Conversation} (h : Tries setup t s) (hans : Welcomes setup header)
    (hs : Spells Unmasked v.frames bytes) (hfit : v.Fits setup.config.maxMessageSize.toNat)
    (hb : received t ++ rest = header ++ bytes) :
    Hears v (acted t) ∧ ∀ c, s.stage = .reading c → rest = [] → SocketClient.asked c ≠ some 0 →
      acted t = .opened :: v.actions.map .action := by
  have hlived := lived_of_run h
  have hpart : ∀ {p q c l}, received t = p ++ q → Spoken setup p c l →
      l <+: .opened :: v.actions.map .action := by
    intro p q c l hp hspoken
    have hrest : p ++ (q ++ rest) = header ++ bytes := by rw [← List.append_assoc, ← hp, hb]
    exact (part_of_conversation hspoken hans hs hfit hrest).1
  have hfront : ∀ {l}, (l = [] ∨ ∃ p q c, received t = p ++ q ∧ Spoken setup p c l) →
      l <+: .opened :: v.actions.map .action := by
    rintro l (rfl | ⟨p, q, c, hp, hspoken⟩)
    · exact List.nil_prefix
    · exact hpart hp hspoken
  constructor
  · by_cases hst : s.stage = .ended
    · rw [hst] at hlived
      obtain ⟨l, hl, hacted⟩ := hlived
      exact ⟨l, hfront hl, hacted⟩
    · exact ⟨acted t, hfront (hlived.unfinished hst), .inl rfl⟩
  · intro c hst hnil hask
    rw [hst] at hlived
    exact (part_of_conversation hlived hans hs hfit hb).2 hnil hask

/-- The server says `hi`; the first byte of the frame comes with the answer. -/
theorem hears_conversation_text : ∃ t s, Tries (sampleAttempt 0xffffffffffffffff) t s ∧
    acted t = [.opened, .action (.onMessage ⟨0x81, 2, [104, 105]⟩)] := by
  let v : Conversation := ⟨[.whole .text ⟨[104, 105], by decide⟩], none⟩
  obtain ⟨t, hopened, hin, -⟩ := exists_opened (welcomes_sample 0xffffffffffffffff) [0x81]
  have hfirst : step (sampleAttempt 0xffffffffffffffff) ⟨.reading (.opened [0x81]), false⟩
      (.completes (.arrived [0x02])) =
      some (⟨.reading ⟨⟨0x81, 2, []⟩, none, 0, .content⟩, false⟩, []) := rfl
  have hcontent : step (sampleAttempt 0xffffffffffffffff)
    ⟨.reading ⟨⟨0x81, 2, []⟩, none, 0, .content⟩, false⟩
      (.completes (.arrived [104, 105])) = some (⟨.reading ⟨⟨0, 0, []⟩, none, 0, .first⟩, false⟩,
        [.action (.onMessage ⟨0x81, 2, [104, 105]⟩)]) := rfl
  have h := next_read (next_read hopened (by decide) hfirst) (by decide) hcontent
  have hs : Spells Unmasked v.frames ([0x81, 0x02, 104, 105] ++ []) :=
    .cons (by unfold Unmasked; decide) .nil
  have hfit : v.Fits (sampleAttempt 0xffffffffffffffff).config.maxMessageSize.toNat :=
    Conversation.fits_whole (show 2 ≤ _ by decide)
  have hb : received (t ++ [(.completes (.arrived [0x02]), [])] ++
      [(.completes (.arrived [104, 105]), [.action (.onMessage ⟨0x81, 2, [104, 105]⟩)])]) ++ [] =
        sampleAnswer ++ ([0x81, 0x02, 104, 105] ++ []) := by
    rw [received_snoc, received_snoc]
    unfold received
    rw [hin]
    simp [Input.bytes]
  have hall :=
    (hears_conversation h (welcomes_sample 0xffffffffffffffff) hs hfit hb).2 _ rfl rfl (by decide)
  exact ⟨_, _, h, hall.trans (by decide)⟩

end Attempt

end CppFrame.SimpleWeb
