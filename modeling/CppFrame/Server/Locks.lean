import CppFrame.Concurrency.Locking
import CppFrame.Server.Spec

/-!
# The handler and its mutex

The functions of `WssEndpointHandler` once more, with `m_client_mutex` and with every operation that
may throw: nodes of the maps, copies of strings, the logger, the authenticator and the sends.
`throws` chooses which of them do. Each function that can throw has a lemma for its exception and
one for its return, and where nothing throws the tasks are those of `Handler` (`task_quiet`).

A loop walks over the nodes that its map had when it began, as bodies insert nothing and erase at
most the node they stand on. The increment after each body is an operation of its own
(`Task.forNodes`): under the checked `Iteration` it is undefined where the node is gone.
-/

namespace CppFrame.Server

open RangeFor UMap Locking

/-! ## The operations that may throw -/

/-- An operation that may throw, by its place in the source; in a loop also by its client. -/
inductive Op
  | taskStrings
  | channelNode
  | clientNode
  | reserve
  | nameCopy
  | nameRead
  | rejectionNode
  | broadcastArguments
  | broadcastNode
  | presenceArguments
  | presenceText (clientKey : String)
  | dumpText
  | removalArguments (clientKey : String)
  | removalNode (clientKey : String)
  | authenticator
  | logger (message : String)
  | send (clientKey message : String)
  | sendClose
  deriving DecidableEq

/-- A program over the registry and what was done to the outside. -/
abbrev Task (α : Type) := Locking (Clients × List Event) α

namespace Task

variable (weh : WssEndpointHandler) (it : Iteration) (env : Env) (throws : Op → Bool)

/-- The registry. -/
def registry : Task Clients := do
  let w ← get
  return w.1

/-- A change of the registry. -/
def modifyRegistry (f : Clients → Clients) : Task Unit := update fun w => (f w.1, w.2)

/-- An operation on the outside. -/
def emit (op : Op) (e : Event) : Task Unit := do
  attempt (throws op)
  update fun w => (w.1, w.2 ++ [e])

/-- A call of `m_logger`, with the making of its text. -/
def log (message : String) (level : File.LogLevel) : Task Unit :=
  if weh.logger then emit throws (.logger message) (.logger message level) else pure ()

/-- `m_clients[channel]`, which may throw where it makes a node. -/
def channelAt (node : Op) (channel : String) : Task Unit := do
  let m ← registry
  if channel ∈ m then pure () else
    attempt (throws node)
    modifyRegistry (·.index env.channelNodes channel)

/-- `m_clients[channel][client_key]`. -/
def clientAt (channel clientKey : String) : Task Unit := do
  channelAt env throws .channelNode channel
  let m ← registry
  if clientKey ∈ m.get channel then pure () else
    attempt (throws .clientNode)
    modifyRegistry (·.client env channel clientKey)

/-- The try block of `remove_client`. -/
def dropClient (channel clientKey : String) : Task Unit := do
  lock
  channelAt env throws (.removalNode clientKey) channel
  modifyRegistry (·.modify channel (·.erase clientKey))
  modifyRegistry fun m => if (m.get channel).isEmpty then m.erase channel else m
  unlock

/-- `remove_client`. -/
def removeClient (channel clientKey why : String) : Task Unit := do
  attempt (throws (.removalArguments clientKey))
  log weh throws (channel ++ " " ++ clientKey ++ ": Removing Connection " ++ why) .debug
  tryCatch (dropClient env throws channel clientKey)
    (log weh throws (channel ++ " " ++ clientKey ++
    ": Tried to remove a client but not successful.") .error)

/-- The body of the loop over the recipients in `broadcast`. -/
def broadcastTo (message clientKey channel : String) (n : Σ _ : String, SocketClient) : Task Unit :=
  if weh.receives clientKey n.1 n.2 then
    match n.2.lock env with
    | some con => do
      log weh throws (channel ++ " " ++ n.1 ++ ": Sending broadcast message") .debug
      emit throws (.send n.1 message) (.send con message)
    | none => do
      log weh throws (channel ++ " " ++ n.1 ++ ": Couldn't lock.") .debug
      removeClient weh env throws channel n.1 "found inactive in broadcast."
  else pure ()

/-- The loop `for (auto& [k, v] : walked) body`, from the nodes still to come. -/
def forNodes {α : Type} (walked : Clients → Option (UMap String α))
    (body : (Σ _ : String, α) → Task Unit) :
    List (Σ _ : String, α) → Task Unit :=
  forEach (fun n w => increments it ((walked w.1).any (n.1 ∈ ·))) body

/-- The body of the loop that drops empty channels. -/
def sweep (n : Σ _ : String, Channel) : Task Unit := do
  let m ← registry
  if (m.get n.1).isEmpty then
    lock
    modifyRegistry (·.erase n.1)
    unlock
  else pure ()

/-- `broadcast`, with both of its loops in the try block. -/
def broadcast (message clientKey channel : String) : Task Unit := do
  attempt (throws .broadcastArguments)
  tryCatch (do
      channelAt env throws .broadcastNode channel
      let m ← registry
      forNodes it (·.lookup channel) (broadcastTo weh env throws message clientKey channel)
        (m.get channel).entries
      let m ← registry
      forNodes it some sweep m.entries)
    (pure ())

/-- The body of the outer loop of `send_channel_presence`. -/
def presenceTo (channel : String) (n : Σ _ : String, SocketClient) : Task Unit :=
  if n.2.authenticated then do
    attempt (throws (.presenceText n.1))
    let m ← registry
    let json := WssEndpointHandler.presenceJson n.1 (m.get channel).entries
    tryCatch (match n.2.lock env with
        | some con => emit throws (.send n.1 json) (.send con json)
        | none => removeClient weh env throws channel n.1 "found inactive in presence")
      (pure ())
  else pure ()

/-- `send_channel_presence`. -/
def sendChannelPresence (channel : String) : Task Unit := do
  attempt (throws .presenceArguments)
  let m ← registry
  if channel ∈ m then
    forNodes it (·.lookup channel) (presenceTo weh env throws channel) (m.get channel).entries
  else pure ()

/-- The task of `on_message`. -/
def onMessage (con : Connection) (inMessage : String) : Task Unit := do
  attempt (throws .taskStrings)
  let clientKey := con.clientKey
  if inMessage.length > 1000000 then
    log weh throws (clientKey ++ ": Message over threashold.") .info
  else if con.channel.isEmpty then pure ()
  else
    let channel := con.channel
    clientAt env throws channel clientKey
    let m ← registry
    let thisClient := (m.get channel).get clientKey
    if weh.authenticator && !thisClient.authenticated then
      let name := env.authenticator inMessage
      emit throws .authenticator (.authenticator inMessage name)
      if name.isEmpty then
        lock
        channelAt env throws .rejectionNode channel
        modifyRegistry (·.modify channel (·.erase clientKey))
        unlock
        emit throws .sendClose (.sendClose con 3000 "Authentication Failed")
        log weh throws (clientKey ++ ": Failed Authentication.") .debug
      else
        lock
        modifyRegistry (·.modifyClient channel clientKey fun c => { c with authenticated := true })
        attempt (throws .nameCopy)
        modifyRegistry (·.modifyClient channel clientKey fun c => { c with name := name })
        unlock
        emit throws (.send clientKey "ok") (.send con "ok")
        log weh throws (clientKey ++ ": Authenticated") .debug
        sendChannelPresence weh it env throws channel
    else if thisClient.authenticated &&
        (thisClient.name = "Sean J" || thisClient.name = "Ash D" || thisClient.name = "Alex D") &&
        inMessage = "CSTATUS" then
      attempt (throws .dumpText)
      let m ← registry
      emit throws (.send clientKey "") (.send con (weh.getAllClientsInJson m))
    else broadcast weh it env throws ("MESSAGE" ++ inMessage) clientKey channel

/-- The channel of a new client, made and reserved where there is none. -/
def openChannel (channel : String) : Task Unit := do
  let m ← registry
  if channel ∈ m then pure () else
    channelAt env throws .channelNode channel
    attempt (throws .reserve)

/-- The try block of `on_open`. -/
def openClient (con : Connection) : Task Unit := do
  openChannel env throws con.channel
  clientAt env throws con.channel con.clientKey
  modifyRegistry (·.modifyClient con.channel con.clientKey fun c =>
    { c with authenticated := false, connection := some con, connectionTstamp := env.now })

/-- The task of `on_open`. -/
def onOpen (con : Connection) : Task Unit := do
  attempt (throws .taskStrings)
  let clientKey := con.clientKey
  let channel := con.channel
  if channel.isEmpty then
    log weh throws (clientKey ++ ": Empty Channel Name") .info
    emit throws .sendClose (.sendClose con 1008 "Empty channel name is not allowed")
  else
    lock
    tryCatch (openClient env throws con)
      (log weh throws (channel ++ " " ++ clientKey ++ ": Failed to lock clients on open.") .debug)
    unlock
    log weh throws (channel ++ " " ++ clientKey ++ ": Connection opened?") .debug

/-- The task of `on_close`. -/
def onClose (con : Connection) : Task Unit := do
  attempt (throws .taskStrings)
  let clientKey := con.clientKey
  let channel := con.channel
  if channel.isEmpty then pure ()
  else
    clientAt env throws channel clientKey
    let m ← registry
    let wasAuthenticated := ((m.get channel).get clientKey).authenticated
    attempt (throws .nameRead)
    removeClient weh env throws channel clientKey "on close"
    if weh.authenticator && wasAuthenticated || !weh.authenticator then
      sendChannelPresence weh it env throws channel
    else pure ()

/-- `on_error`. -/
def onError (con : Connection) (ec : String) : Task Unit := do
  log weh throws ("Conn: " ++ (con.address ++ "-" ++ toString con.port.toNat) ++
    " Message: " ++ ec) .error
  attempt (throws .taskStrings)
  removeClient weh env throws con.channel con.clientKey ("Connection Error " ++ ec)

/-- The work of a callback. -/
def handle : Callback → Task Unit
  | .onMessage con inMessage => onMessage weh it env throws con inMessage
  | .onOpen con => onOpen weh env throws con
  | .onClose con => onClose weh it env throws con
  | .onError con ec => onError weh env throws con ec

end Task

/-! ## Running a task -/

section

variable {α : Type} (w : Locking.State (Clients × List Event))

@[simp] theorem run_registry (f : Clients → Task α) : (Task.registry >>= f) w = f w.data.1 w := rfl

@[simp] theorem run_modifyRegistry (g : Clients → Clients) (f : Unit → Task α) :
    (Task.modifyRegistry g >>= f) w = f () ⟨(g w.data.1, w.data.2), w.held⟩ := rfl

end

variable {weh : WssEndpointHandler} {it : Iteration} {env : Env} {throws : Op → Bool}

theorem emit_run (op : Op) (e : Event) (m : Clients) (es : List Event) (b : Bool) :
    Task.emit throws op e ⟨(m, es), b⟩ =
      if throws op then (.threw, ⟨(m, es), b⟩) else (.returned (), ⟨(m, es ++ [e]), b⟩) := by
  unfold Task.emit
  rw [run_attempt]
  rfl

theorem emit_returned {op : Op} (h : throws op = false) (e : Event) (m : Clients) (es : List Event)
    (b : Bool) :
    Task.emit throws op e ⟨(m, es), b⟩ = (.returned (), ⟨(m, es ++ [e]), b⟩) :=
  (emit_run _ _ _ _ _).trans (if_neg (Bool.eq_false_iff.1 h))

/-- A call of `m_logger` throws. -/
def LogFails (weh : WssEndpointHandler) (throws : Op → Bool) (message : String) : Prop :=
  weh.logger ∧ throws (.logger message)

instance (message : String) : Decidable (LogFails weh throws message) := by
  unfold LogFails
  infer_instance

theorem log_run (message : String) (level : File.LogLevel) (m : Clients) (es : List Event)
    (b : Bool) :
    Task.log weh throws message level ⟨(m, es), b⟩ =
      if LogFails weh throws message then (.threw, ⟨(m, es), b⟩)
      else (.returned (), ⟨(m, es ++ weh.log message level), b⟩) := by
  unfold Task.log WssEndpointHandler.log LogFails
  by_cases hl : weh.logger = true
  · rw [if_pos hl, if_pos hl, emit_run]
    simp only [hl, true_and]
  · rw [if_neg hl, if_neg hl, List.append_nil]
    exact (if_neg fun h => hl h.1).symm

theorem log_returned {message : String} (h : ¬ LogFails weh throws message) (level : File.LogLevel)
    (m : Clients) (es : List Event) (b : Bool) :
    Task.log weh throws message level ⟨(m, es), b⟩ =
      (.returned (), ⟨(m, es ++ weh.log message level), b⟩) :=
  (log_run _ _ _ _ _).trans (if_neg h)

/-- `m_clients[channel]` throws where it has to make a node and cannot. -/
theorem channelAt_run (node : Op) (channel : String) (m : Clients) (es : List Event) (b : Bool) :
    Task.channelAt env throws node channel ⟨(m, es), b⟩ =
      if channel ∉ m ∧ throws node then (.threw, ⟨(m, es), b⟩)
      else (.returned (), ⟨(m.index env.channelNodes channel, es), b⟩) := by
  unfold Task.channelAt
  rw [run_registry]
  by_cases hm : channel ∈ m
  · rw [if_pos hm, if_neg fun h => h.1 hm, index_of_mem hm]
    rfl
  · rw [if_neg hm, run_attempt]
    by_cases hn : throws node = true
    · rw [if_pos hn, if_pos ⟨hm, hn⟩]
    · rw [if_neg hn, if_neg fun h => hn h.2]
      rfl

theorem channelAt_returned {node : Op} {channel : String} {m : Clients} {es : List Event} {b : Bool}
    (h : ¬ (channel ∉ m ∧ throws node)) :
    Task.channelAt env throws node channel ⟨(m, es), b⟩ =
      (.returned (), ⟨(m.index env.channelNodes channel, es), b⟩) :=
  (channelAt_run _ _ _ _ _).trans (if_neg h)

/-- `m_clients[channel][client_key]` throws. -/
def NodesFail (throws : Op → Bool) (m : Clients) (channel clientKey : String) : Prop :=
  channel ∉ m ∧ throws .channelNode ∨ clientKey ∉ m.get channel ∧ throws .clientNode

/-- Making a channel first changes nothing. -/
theorem client_index (channel clientKey : String) (m : Clients) :
    Clients.client env channel clientKey (m.index env.channelNodes channel) =
      m.client env channel clientKey := by
  have hi : (m.index env.channelNodes channel).index env.channelNodes channel =
      m.index env.channelNodes channel := index_of_mem (mem_index _ _ _)
  unfold Clients.client
  rw [hi]

theorem clientAt_returned {m : Clients} {channel clientKey : String} {es : List Event} {b : Bool}
    (h : ¬ NodesFail throws m channel clientKey) :
    Task.clientAt env throws channel clientKey ⟨(m, es), b⟩ =
      (.returned (), ⟨(m.client env channel clientKey, es), b⟩) := by
  unfold Task.clientAt
  rw [run_bind_of (channelAt_returned fun hc => h (.inl hc)), run_registry]
  by_cases hk : clientKey ∈ (m.index env.channelNodes channel).get channel
  · rw [if_pos hk, Clients.client, modify_eq_self (index_of_mem hk)]
    rfl
  · have hthrows : throws .clientNode = false := by
      rw [get_index] at hk
      exact Bool.eq_false_iff.2 fun ht => h (.inr ⟨hk, ht⟩)
    rw [if_neg hk, run_attempt_of _ hthrows]
    show (Locking.Ending.returned (),
      Locking.State.mk (Clients.client env channel clientKey _, es) b) = _
    rw [client_index]

theorem clientAt_threw (env : Env) {m : Clients} {channel clientKey : String}
    (h : NodesFail throws m channel clientKey) (es : List Event) (b : Bool) :
    ∃ m', Task.clientAt env throws channel clientKey ⟨(m, es), b⟩ = (.threw, ⟨(m', es), b⟩) := by
  unfold Task.clientAt
  rw [run_bind, channelAt_run]
  by_cases hc : channel ∉ m ∧ throws .channelNode = true
  · rw [if_pos hc]
    exact ⟨_, rfl⟩
  · obtain ⟨hk, hthrows⟩ := h.resolve_left hc
    rw [if_neg hc]
    dsimp only
    rw [run_registry, get_index, if_neg hk, run_attempt, if_pos hthrows]
    exact ⟨_, rfl⟩

/-- Where it can look the channel up, the try block of `remove_client` does what `remove_client`
does. -/
theorem dropClient_returned {m : Clients} {channel clientKey : String}
    (h : ¬ (channel ∉ m ∧ throws (.removalNode clientKey))) (weh : WssEndpointHandler)
    (why : String) (es : List Event) :
    Task.dropClient env throws channel clientKey ⟨(m, es), false⟩ =
      (.returned (), ⟨((weh.removeClient env channel clientKey why m).1, es), false⟩) := by
  unfold Task.dropClient
  rw [run_lock rfl, run_bind_of (channelAt_returned h)]
  rfl

/-- Where it cannot, it leaves the mutex locked. -/
theorem dropClient_threw {m : Clients} {channel clientKey : String}
    (h : channel ∉ m ∧ throws (.removalNode clientKey)) (es : List Event) :
    Task.dropClient env throws channel clientKey ⟨(m, es), false⟩ = (.threw, ⟨(m, es), true⟩) := by
  unfold Task.dropClient
  rw [run_lock rfl, run_bind, channelAt_run, if_pos h]

/-- The channel of a new client cannot be made. -/
def ChannelFails (throws : Op → Bool) (m : Clients) (channel : String) : Prop :=
  channel ∉ m ∧ (throws .channelNode ∨ throws .reserve)

/-- The try block of `on_open` throws. -/
def OpenFails (throws : Op → Bool) (m : Clients) (con : Connection) : Prop :=
  ChannelFails throws m con.channel ∨ con.clientKey ∉ m.get con.channel ∧ throws .clientNode

theorem openChannel_returned {m : Clients} {channel : String} {es : List Event} {b : Bool}
    (h : ¬ ChannelFails throws m channel) :
    Task.openChannel env throws channel ⟨(m, es), b⟩ =
      (.returned (), ⟨(m.index env.channelNodes channel, es), b⟩) := by
  unfold Task.openChannel
  rw [run_registry]
  split_ifs with hm
  · rw [index_of_mem hm]
    rfl
  · have hreserve : throws .reserve = false := Bool.eq_false_iff.2 fun hr => h ⟨hm, .inr hr⟩
    rw [run_bind_of (channelAt_returned fun hc => h ⟨hm, .inl hc.2⟩), hreserve]
    rfl

theorem openChannel_threw (env : Env) {m : Clients} {channel : String}
    (h : ChannelFails throws m channel) (es : List Event) (b : Bool) :
    ∃ m', Task.openChannel env throws channel ⟨(m, es), b⟩ = (.threw, ⟨(m', es), b⟩) := by
  unfold Task.openChannel
  rw [run_registry, if_neg h.1, run_bind, channelAt_run]
  by_cases hc : channel ∉ m ∧ throws .channelNode = true
  · rw [if_pos hc]
    exact ⟨_, rfl⟩
  · have hreserve : throws .reserve = true := h.2.resolve_left fun hn => hc ⟨h.1, hn⟩
    rw [if_neg hc, hreserve]
    exact ⟨_, rfl⟩

theorem openClient_returned {m : Clients} {con : Connection} (h : ¬ OpenFails throws m con)
    (es : List Event) (b : Bool) :
    Task.openClient env throws con ⟨(m, es), b⟩ =
      (.returned (), ⟨((m.client env con.channel con.clientKey).modifyClient con.channel
        con.clientKey fun c =>
          { c with authenticated := false, connection := some con, connectionTstamp := env.now },
        es), b⟩) := by
  have hnodes : ¬ NodesFail throws (m.index env.channelNodes con.channel)
      con.channel con.clientKey := by
    rintro (hc | hk)
    · exact hc.1 (mem_index _ _ _)
    · rw [get_index] at hk
      exact h (.inr hk)
  unfold Task.openClient
  rw [run_bind_of (openChannel_returned fun hc => h (.inl hc)),
    run_bind_of (clientAt_returned hnodes),
    client_index]
  rfl

theorem openClient_threw (env : Env) {m : Clients} {con : Connection} (h : OpenFails throws m con)
    (es : List Event) (b : Bool) :
    ∃ m', Task.openClient env throws con ⟨(m, es), b⟩ = (.threw, ⟨(m', es), b⟩) := by
  unfold Task.openClient
  rw [run_bind]
  by_cases hc : ChannelFails throws m con.channel
  · obtain ⟨m', hm'⟩ := openChannel_threw env hc es b
    rw [hm']
    exact ⟨m', rfl⟩
  · have hnodes : NodesFail throws (m.index env.channelNodes con.channel)
        con.channel con.clientKey := by
      refine .inr ?_
      rw [get_index]
      exact h.resolve_left hc
    obtain ⟨m', hm'⟩ := clientAt_threw env hnodes es b
    rw [openChannel_returned hc]
    dsimp only
    rw [run_bind, hm']
    exact ⟨m', rfl⟩

/-! ## Where nothing throws -/

/-- No operation throws. -/
def quiet (_ : Op) : Bool := false

theorem run_quiet {α : Type} (w : Locking.State (Clients × List Event)) (op : Op)
    (f : Unit → Task α) :
    (attempt (quiet op) >>= f) w = f () w := rfl

theorem emit_quiet (op : Op) (e : Event) (m : Clients) (es : List Event) (b : Bool) :
    Task.emit quiet op e ⟨(m, es), b⟩ = (.returned (), ⟨(m, es ++ [e]), b⟩) := rfl

theorem log_quiet (message : String) (level : File.LogLevel) (m : Clients) (es : List Event)
    (b : Bool) :
    Task.log weh quiet message level ⟨(m, es), b⟩ =
      (.returned (), ⟨(m, es ++ weh.log message level), b⟩) :=
  log_returned (fun h => Bool.false_ne_true h.2) _ _ _ _

theorem channelAt_quiet (node : Op) (channel : String) (m : Clients) (es : List Event) (b : Bool) :
    Task.channelAt env quiet node channel ⟨(m, es), b⟩ =
      (.returned (), ⟨(m.index env.channelNodes channel, es), b⟩) :=
  channelAt_returned fun h => Bool.false_ne_true h.2

theorem clientAt_quiet (channel clientKey : String) (m : Clients) (es : List Event) (b : Bool) :
    Task.clientAt env quiet channel clientKey ⟨(m, es), b⟩ =
      (.returned (), ⟨(m.client env channel clientKey, es), b⟩) :=
  clientAt_returned fun h => h.elim (fun h => Bool.false_ne_true h.2) fun h => nomatch h.2

theorem removeClient_quiet (channel clientKey why : String) (m : Clients) (es : List Event) :
    Task.removeClient weh env quiet channel clientKey why ⟨(m, es), false⟩ =
      (.returned (), ⟨((weh.removeClient env channel clientKey why m).1,
        es ++ (weh.removeClient env channel clientKey why m).2), false⟩) := by
  unfold Task.removeClient WssEndpointHandler.removeClient
  rw [run_quiet, run_bind_of (log_quiet _ _ _ _ _)]
  exact tryCatch_of_returned (dropClient_returned (fun h => Bool.false_ne_true h.2) weh why _)

/-- A program that started after the events `es` ends like a function of the handler: with its
registry and with its events after `es`, or undefined where a loop of the function fails. -/
def EndsLike (es : List Event) (x : Option (Clients × List Event))
    (r : Ending Unit × Locking.State (Clients × List Event)) : Prop :=
  match x with
  | some y => r = (.returned (), ⟨(y.1, es ++ y.2), false⟩)
  | none => r.1 = .undefined

section

variable {es ev : List Event} {x : Option (Clients × List Event)} {p : Task Unit}
  {q : Unit → Task Unit} {w : Locking.State (Clients × List Event)}

theorem endsLike_nothing (es : List Event) (m : Clients) :
    EndsLike es (some (m, [])) (.returned (), ⟨(m, es), false⟩) := by
  rw [EndsLike, List.append_nil]

/-- One program after another. -/
theorem EndsLike.bind {g : Clients × List Event → Option (Clients × List Event)}
    (h : EndsLike es x (p w))
    (hg : ∀ r, EndsLike (es ++ r.2) (g r) (q () ⟨(r.1, es ++ r.2), false⟩)) :
    EndsLike es (x.bind fun r => (g r).map fun r' => (r'.1, r.2 ++ r'.2)) ((p >>= q) w) := by
  cases x with
  | none =>
    have hp : (p w).1 = .undefined := h
    rw [run_bind]
    split <;> simp_all [EndsLike]
  | some r =>
    have hr := hg r
    rw [run_bind_of h, Option.bind_some]
    cases hgr : g r with
    | none => rwa [hgr] at hr
    | some r' =>
      rw [hgr] at hr
      exact hr.trans (by rw [List.append_assoc])

/-- Events before those of a function. -/
theorem EndsLike.after {r : Ending Unit × Locking.State (Clients × List Event)}
    (h : EndsLike (es ++ ev) x r) : EndsLike es (x.map fun y => (y.1, ev ++ y.2)) r := by
  cases x with
  | none => exact h
  | some y =>
    refine Eq.trans h ?_
    rw [List.append_assoc]

theorem EndsLike.tryCatch {handler : Task Unit} (h : EndsLike es x (p w)) :
    EndsLike es x (tryCatch p handler w) := by
  cases x with
  | none => exact tryCatch_of_undefined w h
  | some y => exact tryCatch_of_returned h

end

/-- A loop whose bodies do what those of a walk do. -/
theorem forNodes_quiet {α : Type} {walked : Clients → Option (UMap String α)}
    {body : (Σ _ : String, α) → Task Unit} {step : String → α → Clients → Clients × List Event}
    (h : ∀ n m es, body n ⟨(m, es), false⟩ =
      (.returned (), ⟨((step n.1 n.2 m).1, es ++ (step n.1 n.2 m).2), false⟩))
    (l : List (Σ _ : String, α)) (m : Clients) (es : List Event) :
    EndsLike es (rangeFor it walked step l m)
      (Task.forNodes it walked body l ⟨(m, es), false⟩) := by
  induction l generalizing m es with
  | nil => exact endsLike_nothing es m
  | cons n l ih =>
    obtain ⟨k, v⟩ := n
    rw [Task.forNodes, forEach, run_bind_of (h ⟨k, v⟩ m es), run_require, rangeFor]
    split_ifs
    · exact (ih _ _).after
    · rfl

theorem broadcastTo_quiet (message clientKey channel : String) (n : Σ _ : String, SocketClient)
    (m : Clients) (es : List Event) :
    Task.broadcastTo weh env quiet message clientKey channel n ⟨(m, es), false⟩ =
      (.returned (), ⟨((weh.broadcastTo env message clientKey channel n.1 n.2 m).1,
        es ++ (weh.broadcastTo env message clientKey channel n.1 n.2 m).2), false⟩) := by
  unfold Task.broadcastTo WssEndpointHandler.broadcastTo
  split_ifs
  · cases n.2.lock env with
    | some con =>
      dsimp only
      rw [run_bind_of (log_quiet _ _ _ _ _), emit_quiet, List.append_assoc]
    | none =>
      dsimp only
      rw [run_bind_of (log_quiet _ _ _ _ _), removeClient_quiet, List.append_assoc]
  · rw [List.append_nil]
    rfl

theorem sweep_quiet (n : Σ _ : String, Channel) (m : Clients) (es : List Event) :
    Task.sweep n ⟨(m, es), false⟩ = (.returned (), ⟨((WssEndpointHandler.sweep n.1 n.2 m).1,
      es ++ (WssEndpointHandler.sweep n.1 n.2 m).2), false⟩) := by
  unfold Task.sweep WssEndpointHandler.sweep
  rw [run_registry, List.append_nil]
  dsimp only
  split_ifs <;> rfl

theorem broadcast_quiet (message clientKey channel : String) (m : Clients) (es : List Event) :
    EndsLike es (weh.broadcast it env message clientKey channel m)
      (Task.broadcast weh it env quiet message clientKey channel ⟨(m, es), false⟩) := by
  unfold Task.broadcast WssEndpointHandler.broadcast
  rw [run_quiet]
  refine EndsLike.tryCatch ?_
  rw [run_bind_of (channelAt_quiet _ _ _ _ _), run_registry]
  exact (forNodes_quiet (broadcastTo_quiet message clientKey channel) _ _ _).bind fun r =>
    forNodes_quiet sweep_quiet _ _ _

theorem presenceTo_quiet (channel : String) (n : Σ _ : String, SocketClient) (m : Clients)
    (es : List Event) :
    Task.presenceTo weh env quiet channel n ⟨(m, es), false⟩ =
      (.returned (), ⟨((weh.presenceTo env channel n.1 n.2 m).1,
        es ++ (weh.presenceTo env channel n.1 n.2 m).2), false⟩) := by
  unfold Task.presenceTo WssEndpointHandler.presenceTo
  split_ifs
  · rw [run_quiet, run_registry]
    refine tryCatch_of_returned ?_
    cases n.2.lock env with
    | some con => rfl
    | none => exact removeClient_quiet _ _ _ _ _
  · rw [List.append_nil]
    rfl

theorem sendChannelPresence_quiet (channel : String) (m : Clients) (es : List Event) :
    EndsLike es (weh.sendChannelPresence it env channel m)
      (Task.sendChannelPresence weh it env quiet channel ⟨(m, es), false⟩) := by
  unfold Task.sendChannelPresence WssEndpointHandler.sendChannelPresence
  rw [run_quiet, run_registry]
  split_ifs with hm
  · exact forNodes_quiet (presenceTo_quiet channel) _ _ _
  · exact endsLike_nothing es m

theorem modifyClient_modifyClient (channel clientKey : String) (f g : SocketClient → SocketClient)
    (m : Clients) :
    (m.modifyClient channel clientKey f).modifyClient channel clientKey g =
      m.modifyClient channel clientKey fun c => g (f c) := by
  unfold Clients.modifyClient
  simp only [modify_modify]

theorem onMessage_quiet (con : Connection) (msg : String) (m : Clients) (es : List Event) :
    EndsLike es (weh.onMessage it env con msg m)
      (Task.onMessage weh it env quiet con msg ⟨(m, es), false⟩) := by
  unfold Task.onMessage WssEndpointHandler.onMessage
  rw [run_quiet]
  dsimp only
  by_cases hl : msg.length > 1000000
  · rw [if_pos hl, if_pos hl]
    exact log_quiet _ _ _ _ _
  rw [if_neg hl, if_neg hl]
  by_cases hch : con.channel.isEmpty = true
  · rw [if_pos hch, if_pos hch]
    exact endsLike_nothing es m
  rw [if_neg hch, if_neg hch, run_bind_of (clientAt_quiet _ _ _ _ _), run_registry]
  dsimp only
  split_ifs with ha hn hd
  · rw [run_bind_of (emit_quiet _ _ _ _ _), run_lock rfl, run_bind_of (channelAt_quiet _ _ _ _ _),
      run_modifyRegistry, run_unlock, run_bind_of (emit_quiet _ _ _ _ _), log_quiet,
      index_of_mem (mem_client env m _ _), List.append_assoc, List.append_assoc]
    rfl
  · rw [run_bind_of (emit_quiet _ _ _ _ _), run_lock rfl, run_modifyRegistry,
      run_quiet, run_modifyRegistry,
      run_unlock, run_bind_of (emit_quiet _ _ _ _ _), run_bind_of (log_quiet _ _ _ _ _)]
    rw [modifyClient_modifyClient, List.append_assoc, List.append_assoc]
    exact @EndsLike.after es (.authenticator msg (env.authenticator msg) ::
      .send con "ok" :: weh.log _ _) _ _
      (sendChannelPresence_quiet _ _ _)
  · rfl
  · exact broadcast_quiet _ _ _ _ _

theorem onOpen_quiet (con : Connection) (m : Clients) (es : List Event) :
    Task.onOpen weh env quiet con ⟨(m, es), false⟩ =
      (.returned (), ⟨((weh.onOpen env con m).1, es ++ (weh.onOpen env con m).2), false⟩) := by
  have hopen : ¬ OpenFails quiet m con := fun h => h.elim (fun h => h.2.elim nofun nofun)
    fun h => nomatch h.2
  unfold Task.onOpen WssEndpointHandler.onOpen
  rw [run_quiet]
  split_ifs with hch
  · rw [run_bind_of (log_quiet _ _ _ _ _), emit_quiet, List.append_assoc]
  · rw [run_lock rfl, run_bind_of (tryCatch_of_returned (openClient_returned hopen _ _)),
      run_unlock, log_quiet]

theorem onClose_quiet (con : Connection) (m : Clients) (es : List Event) :
    EndsLike es (weh.onClose it env con m)
      (Task.onClose weh it env quiet con ⟨(m, es), false⟩) := by
  unfold Task.onClose WssEndpointHandler.onClose
  rw [run_quiet]
  dsimp only
  by_cases hch : con.channel.isEmpty = true
  · rw [if_pos hch, if_pos hch]
    exact endsLike_nothing es m
  rw [if_neg hch, if_neg hch, run_bind_of (clientAt_quiet _ _ _ _ _), run_registry, run_quiet,
    run_bind_of (removeClient_quiet _ _ _ _ _)]
  split_ifs
  · exact (sendChannelPresence_quiet _ _ _).after
  · rfl

theorem onError_quiet (con : Connection) (ec : String) (m : Clients) (es : List Event) :
    Task.onError weh env quiet con ec ⟨(m, es), false⟩ =
      (.returned (),
        ⟨((weh.onError env con ec m).1, es ++ (weh.onError env con ec m).2), false⟩) := by
  unfold Task.onError WssEndpointHandler.onError
  rw [run_bind_of (log_quiet _ _ _ _ _), run_quiet, removeClient_quiet, List.append_assoc]

/-- **Where nothing throws, the tasks are those of the handler.** -/
theorem task_quiet (cb : Callback) (m : Clients) (es : List Event) :
    EndsLike es (weh.handle it env m cb) (Task.handle weh it env quiet cb ⟨(m, es), false⟩) := by
  cases cb with
  | onMessage con msg => exact onMessage_quiet con msg m es
  | onOpen con => exact onOpen_quiet con m es
  | onClose con => exact onClose_quiet con m es
  | onError con ec => exact onError_quiet con ec m es

end CppFrame.Server
