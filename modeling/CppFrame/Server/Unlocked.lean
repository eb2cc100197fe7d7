import CppFrame.Server.Contract
import CppFrame.Server.Locks

/-!
# When a task leaves the mutex locked

Between `m_client_mutex.lock()` and `m_client_mutex.unlock()` the tasks make nodes, copy a name and,
in a catch block, call the logger. `Leaks` says when one of these throws and nothing unlocks the
mutex after it.

The parts of a task that cannot leak come with a `Triple`: without the mutex at the start, without
it at the end. `unlocked_iff` puts them together, for plain and for checked loops: where a checked
loop increments an iterator whose node is gone, the mutex is not held.
-/

namespace CppFrame.Server

open RangeFor UMap Locking

/-! ## Where the mutex stays locked -/

section

variable (weh : WssEndpointHandler) (env : Env) (throws : Op → Bool) (m : Clients)

/-- `remove_client` gets as far as `m_clients[channel]`, which throws under the mutex. Its catch
block does not unlock. -/
structure RemovalLeaks (channel clientKey why : String) : Prop where
  arguments : throws (.removalArguments clientKey) = false
  logged : ¬ LogFails weh throws (channel ++ " " ++ clientKey ++ ": Removing Connection " ++ why)
  absent : channel ∉ m
  node : throws (.removalNode clientKey) = true

/-- A message is accepted and the copy of the name throws. -/
structure AcceptanceLeaks (con : Connection) (inMessage : String) : Prop where
  strings : throws .taskStrings = false
  considered : Considered con inMessage
  nodes : ¬ NodesFail throws m con.channel con.clientKey
  asks : asks weh m con = true
  authenticator : throws .authenticator = false
  accepted : env.authenticator inMessage ≠ ""
  name : throws .nameCopy = true

/-- The try block of `on_open` throws, and the logger in its catch block does too. -/
structure OpenLeaks (con : Connection) : Prop where
  strings : throws .taskStrings = false
  channel : con.channel ≠ ""
  fails : OpenFails throws m con
  logger : LogFails weh throws (con.channel ++ " " ++ con.clientKey ++
    ": Failed to lock clients on open.")

/-- `on_error` comes to its `remove_client`, and that leaks. -/
structure ErrorLeaks (con : Connection) (ec : String) : Prop where
  logged : ¬ LogFails weh throws
    ("Conn: " ++ (con.address ++ "-" ++ toString con.port.toNat) ++ " Message: " ++ ec)
  strings : throws .taskStrings = false
  removal : RemovalLeaks weh throws m con.channel con.clientKey ("Connection Error " ++ ec)

/-- A task on the registry `m` throws while it holds the mutex, and does not unlock it
afterwards. -/
def Leaks : Callback → Prop
  | .onMessage con inMessage => AcceptanceLeaks weh env throws m con inMessage
  | .onOpen con => OpenLeaks weh throws m con
  | .onClose _ => False
  | .onError con ec => ErrorLeaks weh throws m con ec

end

variable {weh : WssEndpointHandler} {it : Iteration} {env : Env} {throws : Op → Bool}
  {P Q : Clients → Prop}

/-! ## The parts that leave it unlocked -/

variable {α : Type} {post : α → Clients × List Event → Prop} {exc : Clients × List Event → Prop}

/-- Something about the registry. -/
def On (P : Clients → Prop) (w : Clients × List Event) : Prop := P w.1

/-- No condition on the registry. -/
abbrev Any : Clients × List Event → Prop := On fun _ => True

theorem emit_triple (op : Op) (e : Event) :
    Triple (On P) (Task.emit throws op e) (fun _ => On P) (On P) :=
  triple_attempt (fun _ h => h) fun _ => triple_update fun _ h => h

theorem log_triple (message : String) (level : File.LogLevel) :
    Triple (On P) (Task.log weh throws message level) (fun _ => On P) (On P) := by
  unfold Task.log
  split_ifs
  · exact emit_triple _ _
  · exact triple_pure fun _ h => h

/-- A call of `m_logger`, and what comes after it. -/
theorem log_bind_triple {message : String} {level : File.LogLevel} {f : Unit → Task α}
    (hexc : ∀ w, On P w → exc w)
    (hf : ¬ LogFails weh throws message → Triple (On P) (f ()) post exc) :
    Triple (On P) (Task.log weh throws message level >>= f) post exc := by
  rintro ⟨⟨m, es⟩, b⟩ hb hP
  rw [run_bind, log_run]
  by_cases hl : LogFails weh throws message
  · rw [if_pos hl]
    exact ⟨hb, hexc _ hP⟩
  · rw [if_neg hl]
    exact hf hl ⟨(m, _), b⟩ hb hP

/-- An operation on the outside, and what comes after it. -/
theorem emit_bind_triple {op : Op} {e : Event} {f : Unit → Task α} (hexc : ∀ w, On P w → exc w)
    (hf : throws op = false → Triple (On P) (f ()) post exc) :
    Triple (On P) (Task.emit throws op e >>= f) post exc := by
  rintro ⟨⟨m, es⟩, b⟩ hb hP
  rw [run_bind, emit_run]
  by_cases ht : throws op = true
  · rw [if_pos ht]
    exact ⟨hb, hexc _ hP⟩
  · rw [if_neg ht]
    exact hf (Bool.eq_false_iff.2 ht) ⟨(m, _), b⟩ hb hP

theorem registry_triple {f : Clients → Task α}
    (h : ∀ m, P m → Triple (On fun m' => m' = m) (f m) post exc) :
    Triple (On P) (Task.registry >>= f) post exc := by
  intro w hw hP
  rw [run_registry]
  exact h w.data.1 hP w hw rfl

/-- What is known at the end can be forgotten. -/
theorem any_of_triple {pre : Clients × List Event → Prop} {p : Task α} (h : Triple pre p post exc) :
    Triple pre p (fun _ => Any) Any :=
  h.weaken (fun _ h => h) (fun _ _ _ => trivial) fun _ _ => trivial

/-- Where it does not leak, `remove_client` ends without the mutex. -/
theorem removeClient_triple {channel clientKey why : String}
    (hleaks : ∀ m, P m → ¬ RemovalLeaks weh throws m channel clientKey why)
    (hQ : ∀ m, P m → Q (weh.removeClient env channel clientKey why m).1) :
    Triple (On P) (Task.removeClient weh env throws channel clientKey why)
      (fun _ => On Q) (On P) := by
  refine triple_attempt (fun _ h => h) fun hargs => log_bind_triple (fun _ h => h) fun hlog => ?_
  rintro ⟨⟨m, es⟩, b⟩ hb hP
  cases hb
  have hnode : ¬ (channel ∉ m ∧ throws (.removalNode clientKey) = true) :=
    fun h => hleaks m hP ⟨hargs, hlog, h.1, h.2⟩
  rw [tryCatch_of_returned (dropClient_returned hnode weh why es)]
  exact ⟨rfl, hQ m hP⟩

/-! ## The loops -/

variable {channel why : String} {n : Σ _ : String, SocketClient}
  {l : List (Σ _ : String, SocketClient)} {m : Clients}

/-- The nodes of a channel that a loop has still to come to are there. -/
def Walkable (channel : String) (l : List (Σ _ : String, SocketClient)) (m : Clients) : Prop :=
  l.NodupKeys ∧ ∀ n ∈ l, n.1 ∈ m.get channel

theorem walkable_entries (channel : String) (m : Clients) :
    Walkable channel (m.get channel).entries m :=
  ⟨(m.get channel).nodupKeys, fun _ hn => List.mem_map_of_mem hn⟩

theorem Walkable.tail (h : Walkable channel (n :: l) m) : Walkable channel l m :=
  ⟨(List.nodupKeys_cons.1 h.1).2, fun n' hn => h.2 n' (List.mem_cons_of_mem _ hn)⟩

theorem Walkable.mem (h : Walkable channel (n :: l) m) : channel ∈ m :=
  mem_of_lookup (AList.lookup_isSome.2 (h.2 n List.mem_cons_self))

/-- Removing the client of a node leaves those to come. -/
theorem Walkable.removeClient (h : Walkable channel (n :: l) m) :
    Walkable channel l (weh.removeClient env channel n.1 why m).1 := by
  refine ⟨h.tail.1, fun n' hn => ?_⟩
  rw [get_removeClient, if_pos rfl, AList.mem_erase]
  have hne : n'.1 ≠ n.1 := fun he => (List.nodupKeys_cons.1 h.1).1 (he ▸ List.mem_map_of_mem hn)
  exact ⟨hne, h.tail.2 n' hn⟩

/-- What holds before each round of a loop over the channel. -/
abbrev ToCome (channel : String) (l : List (Σ _ : String, SocketClient)) :
    Clients × List Event → Prop :=
  On (Walkable channel l)

theorem removeClient_walk :
    Triple (ToCome channel (n :: l)) (Task.removeClient weh env throws channel n.1 why)
      (fun _ => ToCome channel l) (ToCome channel (n :: l)) :=
  removeClient_triple (fun _ h hl => hl.absent h.mem) fun _ h => h.removeClient

theorem broadcastTo_walk {message clientKey : String} :
    Triple (ToCome channel (n :: l)) (Task.broadcastTo weh env throws message clientKey channel n)
      (fun _ => ToCome channel l) Any := by
  unfold Task.broadcastTo
  split_ifs
  · cases n.2.lock env with
    | some con =>
      refine log_bind_triple (fun _ _ => trivial) fun _ => ?_
      exact (emit_triple _ _).weaken (fun _ h => h) (fun _ _ h => h.tail) fun _ _ => trivial
    | none =>
      refine log_bind_triple (fun _ _ => trivial) fun _ => ?_
      exact removeClient_walk.weaken (fun _ h => h) (fun _ _ h => h) fun _ _ => trivial
  · exact triple_pure fun _ h => h.tail

theorem channelAt_triple (node : Op) (channel : String) :
    Triple Any (Task.channelAt env throws node channel) (fun _ => Any) Any := by
  rintro ⟨⟨m, es⟩, b⟩ hb -
  rw [channelAt_run]
  by_cases h : channel ∉ m ∧ throws node = true
  · rw [if_pos h]
    exact ⟨hb, trivial⟩
  · rw [if_neg h]
    exact ⟨hb, trivial⟩

theorem sweep_triple (n : Σ _ : String, Channel) :
    Triple Any (Task.sweep n) (fun _ => Any) Any := by
  refine registry_triple fun m hm => ?_
  split_ifs
  · exact triple_section fun _ _ => trivial
  · exact triple_pure fun _ _ => trivial

theorem broadcast_triple (message clientKey channel : String) :
    Triple Any (Task.broadcast weh it env throws message clientKey channel) (fun _ => Any) Any := by
  refine triple_attempt (fun _ h => h) fun _ => Triple.tryCatch ?_ (triple_pure fun _ h => h)
  refine (channelAt_triple _ _).bind fun _ => registry_triple fun m _ => ?_
  have hloop : Triple (On fun m' => m' = m)
      (Task.forNodes it (·.lookup channel)
      (Task.broadcastTo weh env throws message clientKey channel)
        (m.get channel).entries)
      (fun _ => Any) Any := by
    refine Triple.weaken (triple_forEach (ToCome channel) (fun _ _ => broadcastTo_walk) _) ?_
      (fun _ _ _ => trivial) fun _ h => h
    rintro ⟨_, es⟩ rfl
    exact walkable_entries channel _
  refine hloop.bind fun _ => registry_triple fun m' _ => ?_
  exact (triple_forEach (fun _ => Any) (fun n _ => sweep_triple n) m'.entries).weaken
    (fun _ _ => trivial)
    (fun _ _ h => h) fun _ h => h

theorem presenceTo_walk :
    Triple (ToCome channel (n :: l)) (Task.presenceTo weh env throws channel n)
      (fun _ => ToCome channel l) Any := by
  unfold Task.presenceTo
  split_ifs
  · refine triple_attempt (fun _ _ => trivial) fun _ => registry_triple fun m hm => ?_
    -- an exception leaves the nodes to come where they are, and the catch block is empty
    refine ((?_ : Triple (ToCome channel (n :: l)) _ (fun _ => ToCome channel l)
      (ToCome channel (n :: l))).tryCatch (triple_pure fun _ h => h.tail)).weaken
      ?_ (fun _ _ h => h) fun _ h => h
    · cases n.2.lock env with
      | some con => exact (emit_triple _ _).weaken (fun _ h => h) (fun _ _ h => h.tail) fun _ h => h
      | none => exact removeClient_walk
    · rintro ⟨_, es⟩ rfl
      exact hm
  · exact triple_pure fun _ h => h.tail

theorem sendChannelPresence_triple (channel : String) :
    Triple Any (Task.sendChannelPresence weh it env throws channel) (fun _ => Any) Any := by
  refine triple_attempt (fun _ h => h) fun _ => registry_triple fun m hm => ?_
  split_ifs
  · refine Triple.weaken (triple_forEach (ToCome channel) (fun _ _ => presenceTo_walk) _) ?_
      (fun _ _ _ => trivial) fun _ h => h
    rintro ⟨_, es⟩ rfl
    exact walkable_entries channel _
  · exact triple_pure fun _ _ => trivial

/-! ## The tasks -/

/-- `m_clients[channel][client_key]`, and what comes after it. -/
theorem clientAt_bind_triple {clientKey : String} {f : Unit → Task α}
    (hf : ¬ NodesFail throws m channel clientKey →
      Triple (On fun m' => m' = m.client env channel clientKey) (f ()) post Any) :
    Triple (On fun m' => m' = m) (Task.clientAt env throws channel clientKey >>= f) post Any := by
  rintro ⟨⟨m, es⟩, b⟩ hb rfl
  rw [run_bind]
  by_cases hn : NodesFail throws m channel clientKey
  · obtain ⟨m', hm'⟩ := clientAt_threw env hn es b
    rw [hm']
    exact ⟨hb, trivial⟩
  · rw [clientAt_returned hn]
    exact hf hn ⟨(_, es), b⟩ hb rfl

theorem onMessage_triple {con : Connection} {msg : String}
    (h : ¬ AcceptanceLeaks weh env throws m con msg) :
    Triple (On fun m' => m' = m) (Task.onMessage weh it env throws con msg) (fun _ => Any) Any := by
  refine triple_attempt (fun _ _ => trivial) fun hstrings => ?_
  dsimp only
  by_cases hl : msg.length > 1000000
  · rw [if_pos hl]
    exact any_of_triple (log_triple _ _)
  rw [if_neg hl]
  by_cases hch : con.channel.isEmpty = true
  · rw [if_pos hch]
    exact triple_pure fun _ _ => trivial
  rw [if_neg hch]
  refine clientAt_bind_triple fun hnodes => registry_triple fun m₁ hm₁ => ?_
  cases hm₁
  have hget : ((m.client env con.channel con.clientKey).get con.channel).get con.clientKey =
      (m.get con.channel).get con.clientKey := by
    rw [get_client, if_pos rfl, get_index]
  split_ifs with ha hn hd
  · -- the message is rejected: its channel is there, so nothing under the mutex throws
    refine emit_bind_triple (fun _ _ => trivial) fun _ => ?_
    rintro ⟨⟨_, es⟩, b⟩ hb rfl
    cases hb
    rw [run_lock rfl, run_bind_of (channelAt_returned fun h => h.1 (mem_client env m _ _)),
      run_modifyRegistry,
      run_unlock]
    refine (?_ : Triple Any _ (fun _ => Any) Any) _ rfl trivial
    exact emit_bind_triple (fun _ _ => trivial) fun _ => log_triple _ _
  · refine emit_bind_triple (fun _ _ => trivial) fun hauth => ?_
    have hname : throws .nameCopy = false := by
      refine Bool.eq_false_iff.2 fun hname =>
        h ⟨hstrings, ⟨by omega, ?_⟩, hnodes, ?_, hauth, ?_, hname⟩
      · exact fun he => hch ((isEmpty_iff_eq _).2 he)
      · rw [hget] at ha
        exact ha
      · exact fun he => hn ((isEmpty_iff_eq _).2 he)
    rintro ⟨⟨_, es⟩, b⟩ hb rfl
    cases hb
    rw [run_lock rfl, run_modifyRegistry, run_attempt_of _ hname, run_modifyRegistry, run_unlock]
    refine (?_ : Triple Any _ (fun _ => Any) Any) _ rfl trivial
    exact emit_bind_triple (fun _ _ => trivial) fun _ => (log_triple _ _).bind fun _ =>
      sendChannelPresence_triple _
  · refine triple_attempt (fun _ _ => trivial) fun _ => registry_triple fun _ _ => ?_
    exact any_of_triple (emit_triple _ _)
  · exact (broadcast_triple _ _ _).weaken (fun _ _ => trivial) (fun _ _ h => h) fun _ h => h

theorem onOpen_triple {con : Connection} (h : ¬ OpenLeaks weh throws m con) :
    Triple (On fun m' => m' = m) (Task.onOpen weh env throws con) (fun _ => Any) Any := by
  refine triple_attempt (fun _ _ => trivial) fun hstrings => ?_
  dsimp only
  split_ifs with hch
  · exact log_bind_triple (fun _ _ => trivial) fun _ => any_of_triple (emit_triple _ _)
  rintro ⟨⟨m, es⟩, b⟩ hb rfl
  cases hb
  rw [run_lock rfl]
  by_cases hf : OpenFails throws m con
  · -- the catch block unlocks where its logger returns
    have hlog : ¬ LogFails weh throws
        (con.channel ++ " " ++ con.clientKey ++ ": Failed to lock clients on open.") :=
      fun hl => h ⟨hstrings, fun he => hch ((isEmpty_iff_eq _).2 he), hf, hl⟩
    obtain ⟨m', hm'⟩ := openClient_threw env hf es true
    rw [run_bind_of ((tryCatch_of_threw hm').trans (log_returned hlog _ _ _ _)), run_unlock]
    exact (log_triple _ _ : Triple Any _ (fun _ => Any) Any) _ rfl trivial
  · rw [run_bind_of (tryCatch_of_returned (openClient_returned hf es true)), run_unlock]
    exact (log_triple _ _ : Triple Any _ (fun _ => Any) Any) _ rfl trivial

theorem onClose_triple (m : Clients) (con : Connection) :
    Triple (On fun m' => m' = m) (Task.onClose weh it env throws con) (fun _ => Any) Any := by
  refine triple_attempt (fun _ _ => trivial) fun _ => ?_
  dsimp only
  split_ifs with hch
  · exact triple_pure fun _ _ => trivial
  refine clientAt_bind_triple fun _ => registry_triple fun m₁ hm₁ => ?_
  cases hm₁
  refine triple_attempt (fun _ _ => trivial) fun _ => ?_
  have hremove : Triple (On fun m' => m' = m.client env con.channel con.clientKey)
      (Task.removeClient weh env throws con.channel con.clientKey "on close")
      (fun _ => Any) Any := by
    refine any_of_triple (removeClient_triple (Q := fun _ => True) ?_ fun _ _ => trivial)
    rintro _ rfl hl
    exact hl.absent (mem_client env m _ _)
  refine hremove.bind fun _ => ?_
  split_ifs
  · exact sendChannelPresence_triple _
  · exact triple_pure fun _ h => h

theorem onError_triple {con : Connection} {ec : String} (h : ¬ ErrorLeaks weh throws m con ec) :
    Triple (On fun m' => m' = m) (Task.onError weh env throws con ec) (fun _ => Any) Any := by
  refine log_bind_triple (fun _ _ => trivial) fun hlog =>
    triple_attempt (fun _ _ => trivial) fun hstrings => ?_
  refine any_of_triple (removeClient_triple (Q := fun _ => True) ?_ fun _ _ => trivial)
  rintro _ rfl hr
  exact h ⟨hlog, hstrings, hr⟩

theorem task_triple {cb : Callback} (h : ¬ Leaks weh env throws m cb) :
    Triple (On fun m' => m' = m) (Task.handle weh it env throws cb) (fun _ => Any) Any := by
  cases cb with
  | onMessage con msg => exact onMessage_triple h
  | onOpen con => exact onOpen_triple h
  | onClose con => exact onClose_triple m con
  | onError con ec => exact onError_triple h

/-! ## The leaks -/

theorem removeClient_locked {clientKey : String}
    (h : RemovalLeaks weh throws m channel clientKey why) (es : List Event) :
    (Task.removeClient weh env throws channel clientKey why ⟨(m, es), false⟩).2.held = true := by
  unfold Task.removeClient
  rw [run_attempt_of _ h.arguments, run_bind_of (log_returned h.logged _ _ _ _),
    tryCatch_of_threw (dropClient_threw ⟨h.absent, h.node⟩ _), log_run]
  split_ifs <;> rfl

theorem onMessage_locked {con : Connection} {msg : String}
    (h : AcceptanceLeaks weh env throws m con msg) (es : List Event) :
    (Task.onMessage weh it env throws con msg ⟨(m, es), false⟩).2.held = true := by
  have hasks : (weh.authenticator &&
    !(((m.client env con.channel con.clientKey).get con.channel).get
      con.clientKey).authenticated) = true := by
    rw [get_client, if_pos rfl, get_index]
    exact h.asks
  unfold Task.onMessage
  rw [run_attempt_of _ h.strings]
  dsimp only
  rw [if_neg (Nat.not_lt.2 h.considered.1), if_neg fun he =>
    h.considered.2 ((isEmpty_iff_eq _).1 he),
    run_bind_of (clientAt_returned h.nodes), run_registry, if_pos hasks,
    run_bind_of (emit_returned h.authenticator _ _ _ _), if_neg fun he =>
      h.accepted ((isEmpty_iff_eq _).1 he),
    run_lock rfl, run_modifyRegistry, run_attempt, if_pos h.name]

theorem onOpen_locked {con : Connection} (h : OpenLeaks weh throws m con) (es : List Event) :
    (Task.onOpen weh env throws con ⟨(m, es), false⟩).2.held = true := by
  obtain ⟨m', hm'⟩ := openClient_threw env h.fails es true
  unfold Task.onOpen
  rw [run_attempt_of _ h.strings, if_neg fun he => h.channel ((isEmpty_iff_eq _).1 he),
    run_lock rfl, run_bind,
    tryCatch_of_threw hm', log_run, if_pos h.logger]

theorem onError_locked {con : Connection} {ec : String} (h : ErrorLeaks weh throws m con ec)
    (es : List Event) : (Task.onError weh env throws con ec ⟨(m, es), false⟩).2.held = true := by
  unfold Task.onError
  rw [run_bind_of (log_returned h.logged _ _ _ _), run_attempt_of _ h.strings]
  exact removeClient_locked h.removal _

theorem task_locked {cb : Callback} (h : Leaks weh env throws m cb) (es : List Event) :
    (Task.handle weh it env throws cb ⟨(m, es), false⟩).2.held = true := by
  cases cb with
  | onMessage con msg => exact onMessage_locked h es
  | onOpen con => exact onOpen_locked h es
  | onClose con => exact h.elim
  | onError con ec => exact onError_locked h es

/-! ## No handler leaves the registry locked -/

/-- **A task that starts without the mutex ends without it, and never locks it twice, exactly where
it does not leak.** -/
theorem unlocked_iff (weh : WssEndpointHandler) (it : Iteration) (env : Env) (throws : Op → Bool)
    (m : Clients) (es : List Event) (cb : Callback) :
    Unlocked (Task.handle weh it env throws cb ⟨(m, es), false⟩) ↔ ¬ Leaks weh env throws m cb := by
  constructor
  · intro hu hl
    rw [Unlocked, task_locked hl] at hu
    cases hu.2
  · intro hl
    exact (task_triple hl).unlocked rfl rfl

/-- The authenticator accepts everyone under a name that does not fit into a string without an
allocation. -/
def longNamed : Env := { steady with authenticator := fun _ => "Ann of the upper green gables" }

/-- A client connects and its message is accepted; `this_client.name = name` throws, and the task
ends with the mutex locked. -/
theorem accepted_then_locked :
    ¬ Unlocked (Task.handle secured .checked longNamed (fun op => op = .nameCopy)
    (.onMessage clientA "let me in") ⟨((secured.onOpen longNamed clientA ∅).1, []), false⟩) := by
  unfold Unlocked
  decide +kernel

end CppFrame.Server
