import CppFrame.Server.Handler

/-!
# What the handler functions do

One lemma per function of the handler, stated of the rooms `m.get channel` of the registry (the
empty room where there is no such channel) and of the events. They hold of both readings of the
loops: a loop that ends ends like its walk. Everything later is derived from `Effect`, which says
what one callback can do.
-/

namespace CppFrame.Server

open RangeFor UMap
open File (LogLevel)

variable {weh : WssEndpointHandler} {it : Iteration} {env : Env}

/-! ## Rooms -/

theorem Clients.entry_eq (m : Clients) (ch k : String) : m.entry ch k = (m.get ch).lookup k := by
  unfold Clients.entry UMap.get
  cases m.lookup ch with
  | none => rfl
  | some room => rfl

/-- A client is only in a channel that exists. -/
theorem mem_of_lookup {m : Clients} {ch k : String} (h : ((m.get ch).lookup k).isSome = true) :
    ch ∈ m := by
  by_contra hm
  rw [UMap.get, AList.lookup_eq_none.2 hm] at h
  cases h

theorem get_client (m : Clients) (ch k ch' : String) :
    (m.client env ch k).get ch' =
      if ch' = ch then (m.get ch).index env.clientNodes k else m.get ch' :=
  get_modify_index _ _ _ _ _

theorem lookup_client (m : Clients) (ch k ch' : String) : (m.client env ch k).lookup ch' =
    if ch' = ch then some ((m.get ch).index env.clientNodes k) else m.lookup ch' := by
  unfold Clients.client
  rw [lookup_modify, lookup_index, if_pos rfl, lookup_index]
  split_ifs <;> rfl

theorem mem_client (env : Env) (m : Clients) (ch k : String) : ch ∈ m.client env ch k := by
  show ch ∈ ((m.index env.channelNodes ch).modify ch _).keys
  rw [AList.keys, entries_modify, keys_modifyNodes]
  exact mem_index env.channelNodes ch m

theorem get_modifyClient {m : Clients} {ch : String} (h : ch ∈ m) (k ch' : String)
    (f : SocketClient → SocketClient) :
    (m.modifyClient ch k f).get ch' = if ch' = ch then (m.get ch).modify k f else m.get ch' := by
  simp only [Clients.modifyClient, get_modify, h, and_true]

theorem get_removeClient (weh : WssEndpointHandler) (env : Env) (m : Clients)
    (ch k why ch' : String) :
    (weh.removeClient env ch k why m).1.get ch' =
      if ch' = ch then (m.get ch).erase k else m.get ch' := by
  have h := get_modify_index env.channelNodes ch ch' (·.erase k) m
  have h₀ := get_modify_index env.channelNodes ch ch (·.erase k) m
  rw [if_pos rfl] at h₀
  unfold WssEndpointHandler.removeClient
  dsimp only
  split_ifs with he hk hk
  · subst hk
    rw [get_erase, if_pos rfl, ← h₀]
    exact (eq_empty_of_isEmpty he).symm
  · rw [get_erase, if_neg hk, h, if_neg hk]
  · subst hk
    exact h₀
  · rw [h, if_neg hk]

/-! ## Events -/

/-- A line for the logger. -/
def Event.IsLog (e : Event) : Prop := ∃ message level, e = .logger message level

@[simp] theorem isLog_logger (message : String) (level : LogLevel) :
    (Event.logger message level).IsLog := ⟨_, _, rfl⟩

@[simp] theorem not_isLog_send (con : Connection) (message : String) :
    ¬ (Event.send con message).IsLog := by rintro ⟨_, _, h⟩; cases h

@[simp] theorem not_isLog_sendClose (con : Connection) (status : Nat) (reason : String) :
    ¬ (Event.sendClose con status reason).IsLog := by rintro ⟨_, _, h⟩; cases h

@[simp] theorem not_isLog_authenticator (message name : String) :
    ¬ (Event.authenticator message name).IsLog := by rintro ⟨_, _, h⟩; cases h

theorem isLog_of_mem_log {message : String} {level : LogLevel} {e : Event}
    (h : e ∈ weh.log message level) : e.IsLog := by
  unfold WssEndpointHandler.log at h
  split_ifs at h
  · rw [List.mem_singleton.1 h]
    exact isLog_logger _ _
  · cases h

theorem isLog_of_mem_removeClient {m : Clients} {ch k why : String} {e : Event}
    (h : e ∈ (weh.removeClient env ch k why m).2) : e.IsLog := isLog_of_mem_log h

/-! ## The loops -/

/-- The clients that a broadcast finds gone. -/
def goneInBroadcast (weh : WssEndpointHandler) (env : Env) (key k : String) (c : SocketClient) :
    Bool := weh.receives key k c && (c.lock env).isNone

/-- The clients that a presence round finds gone. -/
def goneInPresence (env : Env) (_ : String) (c : SocketClient) : Bool :=
  c.authenticated && (c.lock env).isNone

/-- A client that is found gone is removed, and nothing else changes. -/
theorem broadcastTo_fst (message key ch k : String) (c : SocketClient) (m : Clients) :
    (weh.broadcastTo env message key ch k c m).1 = if goneInBroadcast weh env key k c then
      (weh.removeClient env ch k "found inactive in broadcast." m).1 else m := by
  unfold WssEndpointHandler.broadcastTo goneInBroadcast
  cases weh.receives key k c with
  | false => rfl
  | true =>
    cases c.lock env with
    | some d => rfl
    | none => rfl

theorem presenceTo_fst (ch k : String) (c : SocketClient) (m : Clients) :
    (weh.presenceTo env ch k c m).1 = if goneInPresence env k c then
      (weh.removeClient env ch k "found inactive in presence" m).1 else m := by
  unfold WssEndpointHandler.presenceTo goneInPresence
  cases c.authenticated with
  | false => rfl
  | true =>
    cases c.lock env with
    | some d => rfl
    | none => rfl

theorem get_ite_removeClient (gone : Bool) (ch k why : String) (m : Clients) (ch' : String) :
    (if gone then (weh.removeClient env ch k why m).1 else m).get ch' =
      if ch' = ch ∧ gone then (m.get ch).erase k else m.get ch' := by
  cases gone with
  | false => simp
  | true => simp [get_removeClient]

theorem get_broadcastTo (message key ch k : String) (c : SocketClient) (m : Clients)
    (ch' : String) :
    (weh.broadcastTo env message key ch k c m).1.get ch' =
      if ch' = ch ∧ goneInBroadcast weh env key k c then (m.get ch).erase k else m.get ch' := by
  rw [broadcastTo_fst, get_ite_removeClient]

theorem mem_broadcastTo {message key ch k : String} {c : SocketClient} {m : Clients} {e : Event}
    (h : e ∈ (weh.broadcastTo env message key ch k c m).2) :
    e.IsLog ∨ weh.receives key k c = true ∧ ∃ d, c.lock env = some d ∧ e = .send d message := by
  unfold WssEndpointHandler.broadcastTo at h
  split_ifs at h with hr
  · cases hl : c.lock env with
    | some d =>
      simp only [hl, List.mem_append, List.mem_singleton] at h
      rcases h with h | h
      · exact .inl (isLog_of_mem_log h)
      · exact .inr ⟨hr, d, rfl, h⟩
    | none =>
      simp only [hl, List.mem_append] at h
      exact .inl (h.elim isLog_of_mem_log isLog_of_mem_removeClient)
  · cases h

theorem send_mem_broadcastTo {message key ch k : String} {c : SocketClient} {m : Clients}
    {d : Connection} (hr : weh.receives key k c = true) (hl : c.lock env = some d) :
    .send d message ∈ (weh.broadcastTo env message key ch k c m).2 := by
  simp [WssEndpointHandler.broadcastTo, hr, hl]

theorem get_presenceTo (ch k : String) (c : SocketClient) (m : Clients) (ch' : String) :
    (weh.presenceTo env ch k c m).1.get ch' =
      if ch' = ch ∧ goneInPresence env k c then (m.get ch).erase k else m.get ch' := by
  rw [presenceTo_fst, get_ite_removeClient]

theorem mem_presenceTo {ch k : String} {c : SocketClient} {m : Clients} {e : Event}
    (h : e ∈ (weh.presenceTo env ch k c m).2) :
    e.IsLog ∨ c.authenticated = true ∧ ∃ d, c.lock env = some d ∧
      e = .send d (WssEndpointHandler.presenceJson k (m.get ch).entries) := by
  unfold WssEndpointHandler.presenceTo at h
  split_ifs at h with ha
  · cases hl : c.lock env with
    | some d =>
      simp only [hl, List.mem_singleton] at h
      exact .inr ⟨ha, d, rfl, h⟩
    | none =>
      simp only [hl] at h
      exact .inl (isLog_of_mem_removeClient h)
  · cases h

theorem get_sweep (l : List (Σ _ : String, Channel)) (m : Clients) (ch : String) :
    (visit WssEndpointHandler.sweep l m).1.get ch = m.get ch ∧
      (visit WssEndpointHandler.sweep l m).2 = [] := by
  have key : (visit WssEndpointHandler.sweep l m).1.get ch = m.get ch ∧
      ∀ e ∈ (visit WssEndpointHandler.sweep l m).2, False := by
    refine visit_induction (I := fun m' : Clients => m'.get ch = m.get ch) (Q := fun _ => False)
      (fun k c m' _ hm' => ⟨?_, fun e he => by cases he⟩) rfl
    unfold WssEndpointHandler.sweep
    dsimp only
    split_ifs with he
    · rw [get_erase]
      split_ifs with hk
      · subst hk
        rw [← hm', eq_empty_of_isEmpty he]; rfl
      · exact hm'
    · exact hm'
  exact ⟨key.1, List.eq_nil_iff_forall_not_mem.2 key.2⟩

/-- A walk over a room whose bodies at most erase the node they stand on. -/
theorem get_visit {body : String → SocketClient → Clients → Clients × List Event}
    {p : String → SocketClient → Bool} {ch : String}
    (hbody : ∀ k c m ch', (body k c m).1.get ch' =
      if ch' = ch ∧ p k c then (m.get ch).erase k else m.get ch') (m : Clients) (ch' : String) :
    (visit body (m.get ch).entries m).1.get ch' =
      if ch' = ch then (m.get ch).eraseIf p else m.get ch' := by
  split_ifs with hk
  · subst hk
    refine visit_eraseIf (g := fun m : Clients => m.get ch') fun k c m => ?_
    simp [hbody]
  · refine (visit_induction (I := fun m' : Clients => m'.get ch' = m.get ch') (Q := fun _ => True)
      (fun k c m' _ hm' => ⟨?_, fun _ _ => trivial⟩) rfl).1
    rw [hbody, if_neg fun h => hk h.1, hm']

/-- What a broadcast of `message` by `key` does to a room. -/
structure Broadcasts (weh : WssEndpointHandler) (env : Env) (message key : String) (room : Channel)
    (ev : List Event) : Prop where
  sound : ∀ e ∈ ev, e.IsLog ∨ ∃ k c d, room.lookup k = some c ∧ weh.receives key k c = true ∧
    c.lock env = some d ∧ e = .send d message
  complete : ∀ k c d, room.lookup k = some c → weh.receives key k c = true → c.lock env = some d →
    .send d message ∈ ev

/-- Every authenticated client of a room can be reached. -/
def Reachable (env : Env) (room : Channel) : Prop :=
  ∀ k c, room.lookup k = some c → c.authenticated = true → (c.lock env).isSome = true

/-- The events of a presence round over a room. Where everyone can be reached, each receiver is told
the others in the room as it stands. -/
structure Presences (env : Env) (room : Channel) (ev : List Event) : Prop where
  sound : ∀ e ∈ ev, e.IsLog ∨ ∃ k c d cs, room.lookup k = some c ∧ c.authenticated = true ∧
    c.lock env = some d ∧ e = .send d (WssEndpointHandler.presenceJson k cs)
  told : Reachable env room → ∀ k c d, room.lookup k = some c → c.authenticated = true →
    c.lock env = some d → .send d (WssEndpointHandler.presenceJson k room.entries) ∈ ev
  only : Reachable env room → ∀ d text, .send d text ∈ ev → ∃ k c, room.lookup k = some c ∧
    c.authenticated = true ∧ c.lock env = some d ∧
    text = WssEndpointHandler.presenceJson k room.entries

theorem Presences.append {room : Channel} {ev logs : List Event} (h : Presences env room ev)
    (hl : ∀ e ∈ logs, e.IsLog) : Presences env room (logs ++ ev) where
  sound e he := (List.mem_append.1 he).elim (fun he => .inl (hl e he)) (h.sound e)
  told hr k c d hk ha hd := List.mem_append_right _ (h.told hr k c d hk ha hd)
  only hr d text hd := (List.mem_append.1 hd).elim (fun hd => absurd (hl _ hd) (not_isLog_send _ _))
    (h.only hr d text)

theorem presences_empty (env : Env) : Presences env ∅ [] where
  sound e he := by cases he
  told _ k c d hk := by cases hk
  only _ d text hd := by cases hd

/-- A presence round that finds nobody gone leaves the registry alone. -/
theorem visit_presenceTo {m : Clients} {ch : String} (hr : Reachable env (m.get ch)) :
    visit (weh.presenceTo env ch) (m.get ch).entries m =
      (m, (m.get ch).entries.flatMap fun n => (weh.presenceTo env ch n.1 n.2 m).2) := by
  refine visit_of_const fun n hn => ?_
  unfold WssEndpointHandler.presenceTo
  cases ha : n.2.authenticated with
  | false => rfl
  | true =>
    obtain ⟨d, hd⟩ := Option.isSome_iff_exists.1 (hr n.1 n.2 (mem_entries.1 hn) ha)
    rw [hd]
    rfl

theorem presences_visit (m : Clients) (ch : String) :
    Presences env (m.get ch) (visit (weh.presenceTo env ch) (m.get ch).entries m).2 where
  sound e he := by
    obtain ⟨k, c, m₁, hkc, -, he⟩ := mem_visit (I := fun _ => True) (fun _ _ _ _ _ => trivial)
      trivial he
    refine (mem_presenceTo he).imp_right fun ⟨ha, d, hl, he⟩ => ?_
    exact ⟨k, c, d, _, mem_entries.1 hkc, ha, hl, he⟩
  told hr k c d hk ha hl := by
    rw [visit_presenceTo hr]
    refine List.mem_flatMap.2 ⟨⟨k, c⟩, mem_entries.2 hk, ?_⟩
    simp [WssEndpointHandler.presenceTo, ha, hl]
  only hr d text hd := by
    rw [visit_presenceTo hr] at hd
    obtain ⟨⟨k, c⟩, hn, hd⟩ := List.mem_flatMap.1 hd
    rcases mem_presenceTo hd with hl | ⟨ha, d', hl, he⟩
    · exact absurd hl (not_isLog_send _ _)
    · cases he
      exact ⟨k, c, mem_entries.1 hn, ha, hl, rfl⟩

/-- **`broadcast`.** It drops the recipients of the room that are gone and sends the message to the
others. -/
theorem broadcast_spec {message key ch : String} {m m' : Clients} {ev : List Event}
    (h : weh.broadcast it env message key ch m = some (m', ev)) :
    (∀ ch', m'.get ch' =
      if ch' = ch then (m.get ch).eraseIf (goneInBroadcast weh env key) else m.get ch') ∧
    Broadcasts weh env message key (m.get ch) ev := by
  unfold WssEndpointHandler.broadcast at h
  obtain ⟨r, hr, h⟩ := Option.bind_eq_some_iff.1 h
  obtain ⟨r', hr', he⟩ := Option.map_eq_some_iff.1 h
  simp only [Prod.mk.injEq] at he
  obtain ⟨rfl, rfl⟩ := he
  have hi : ∀ ch', (m.index env.channelNodes ch).get ch' = m.get ch' := fun ch' => get_index _ _ _ _
  rw [eq_visit hr', (get_sweep _ _ ch).2, eq_visit hr, List.append_nil]
  refine ⟨fun ch' => ?_, fun e he => ?_, fun k c d hc hrec hl => ?_⟩
  · rw [(get_sweep _ _ ch').1, get_visit (get_broadcastTo message key ch), hi, hi]
  · obtain ⟨k, c, m₁, hkc, -, he⟩ := mem_visit (I := fun _ => True) (fun _ _ _ _ _ => trivial)
      trivial he
    rw [hi] at hkc
    refine (mem_broadcastTo he).imp_right fun ⟨hrec, d, hl, he⟩ => ?_
    exact ⟨k, c, d, mem_entries.1 hkc, hrec, hl, he⟩
  · rw [← mem_entries, ← hi] at hc
    exact mem_visit_of_forall hc fun m' => send_mem_broadcastTo hrec hl

/-- **`send_channel_presence`.** It drops the authenticated clients of the room that are gone and
sends to the others. -/
theorem sendChannelPresence_spec {ch : String} {m m' : Clients} {ev : List Event}
    (h : weh.sendChannelPresence it env ch m = some (m', ev)) :
    (∀ ch', m'.get ch' =
      if ch' = ch then (m.get ch).eraseIf (goneInPresence env) else m.get ch') ∧
    Presences env (m.get ch) ev := by
  unfold WssEndpointHandler.sendChannelPresence at h
  split_ifs at h with hm
  · obtain ⟨h₁, h₂⟩ := Prod.mk.inj (eq_visit h)
    subst h₁ h₂
    exact ⟨fun ch' => get_visit (get_presenceTo ch) m ch', presences_visit m ch⟩
  · obtain ⟨rfl, rfl⟩ := Prod.mk.inj (Option.some.inj h)
    have he : m.get ch = ∅ := by
      rw [UMap.get, AList.lookup_eq_none.2 hm]; rfl
    refine ⟨fun ch' => ?_, he ▸ presences_empty env⟩
    split_ifs with hk
    · rw [hk, he]; rfl
    · rfl

/-! ## One callback -/

/-- A client after its `on_open`. -/
def SocketClient.opened (env : Env) (con : Connection) (c : SocketClient) : SocketClient :=
  { c with authenticated := false, connection := some con, connectionTstamp := env.now }

/-- A client after one of its messages was accepted. -/
def SocketClient.accepted (name : String) (c : SocketClient) : SocketClient :=
  { c with authenticated := true, name := name }

/-- Whether the name of a client opens the dump of all clients. -/
def SocketClient.isAdmin (c : SocketClient) : Prop :=
  c.name = "Sean J" ∨ c.name = "Ash D" ∨ c.name = "Alex D"

instance (c : SocketClient) : Decidable c.isAdmin := by
  unfold SocketClient.isAdmin; infer_instance

/-- A message that reaches the registry: short enough, and on a connection with a channel. -/
def Considered (con : Connection) (msg : String) : Prop :=
  msg.length ≤ 1000000 ∧ con.channel ≠ ""

instance (con : Connection) (msg : String) : Decidable (Considered con msg) := by
  unfold Considered; infer_instance

/-- A client whose messages go to the authenticator. -/
def asks (weh : WssEndpointHandler) (m : Clients) (con : Connection) : Bool :=
  weh.authenticator && !((m.get con.channel).get con.clientKey).authenticated

/-- What `on_message` does with a message. -/
inductive Handling
  | ignored
  | rejected
  | accepted
  | dumped
  | broadcast
  deriving DecidableEq

/-- The branch of `on_message` that a message takes, by the registry and the authenticator's
answer. -/
def handling (weh : WssEndpointHandler) (env : Env) (m : Clients) (con : Connection)
    (msg : String) :
    Handling :=
  if Considered con msg then
    if asks weh m con then
      if env.authenticator msg = "" then .rejected else .accepted
    else if ((m.get con.channel).get con.clientKey).authenticated = true ∧
        ((m.get con.channel).get con.clientKey).isAdmin ∧ msg = "CSTATUS" then .dumped
    else .broadcast
  else .ignored

/-- The room of a connection after `m_clients[channel][client_key]`. -/
def roomOf (env : Env) (m : Clients) (con : Connection) : Channel :=
  (m.get con.channel).index env.clientNodes con.clientKey

/-- All rooms but that of `con` are as they were, and that one is `room`. -/
def Rooms (m m' : Clients) (con : Connection) (room : Channel) : Prop :=
  ∀ ch, m'.get ch = if ch = con.channel then room else m.get ch

/-- What a callback can do to the registry and to the outside. -/
inductive Effect (weh : WssEndpointHandler) (env : Env) (m : Clients) :
    Callback → Clients → List Event → Prop
  | ignored {con : Connection} {msg : String} {ev : List Event} (hc : ¬ Considered con msg)
      (hev : ∀ e ∈ ev, e.IsLog) : Effect weh env m (.onMessage con msg) m ev
  | rejected {con : Connection} {msg : String} {m' : Clients} {logs : List Event}
      (hc : Considered con msg) (ha : asks weh m con = true) (hn : env.authenticator msg = "")
      (hm : Rooms m m' con ((roomOf env m con).erase con.clientKey)) (hev : ∀ e ∈ logs, e.IsLog) :
      Effect weh env m (.onMessage con msg) m' (.authenticator msg "" ::
        .sendClose con 3000 "Authentication Failed" :: logs)
  | accepted {con : Connection} {msg : String} {m' : Clients} {ev : List Event}
      (hc : Considered con msg) (ha : asks weh m con = true) (hn : env.authenticator msg ≠ "")
      (hm : Rooms m m' con (((roomOf env m con).modify con.clientKey
        (·.accepted (env.authenticator msg))).eraseIf (goneInPresence env)))
      (hev : Presences env ((roomOf env m con).modify con.clientKey
        (·.accepted (env.authenticator msg))) ev) :
      Effect weh env m (.onMessage con msg) m' (.authenticator msg (env.authenticator msg) ::
        .send con "ok" :: ev)
  | dumped {con : Connection} {msg : String} {m' : Clients} (hc : Considered con msg)
      (hc' : ((m.get con.channel).get con.clientKey).authenticated = true)
      (hn : ((m.get con.channel).get con.clientKey).isAdmin) (hs : msg = "CSTATUS")
      (hm : Rooms m m' con (roomOf env m con)) :
      Effect weh env m (.onMessage con msg) m' [.send con (weh.getAllClientsInJson m')]
  | broadcast {con : Connection} {msg : String} {m' : Clients} {ev : List Event}
      (hc : Considered con msg) (ha : asks weh m con = false)
      (hn : ¬ (((m.get con.channel).get con.clientKey).authenticated = true ∧
        ((m.get con.channel).get con.clientKey).isAdmin ∧ msg = "CSTATUS"))
      (hm : Rooms m m' con ((roomOf env m con).eraseIf (goneInBroadcast weh env con.clientKey)))
      (hev : Broadcasts weh env ("MESSAGE" ++ msg) con.clientKey (roomOf env m con) ev) :
      Effect weh env m (.onMessage con msg) m' ev
  | refused {con : Connection} {logs : List Event} (hc : con.channel = "")
      (hev : ∀ e ∈ logs, e.IsLog) : Effect weh env m (.onOpen con) m
        (logs ++ [.sendClose con 1008 "Empty channel name is not allowed"])
  | opened {con : Connection} {m' : Clients} {ev : List Event} (hc : con.channel ≠ "")
      (hm : Rooms m m' con ((roomOf env m con).modify con.clientKey (·.opened env con)))
      (hev : ∀ e ∈ ev, e.IsLog) : Effect weh env m (.onOpen con) m' ev
  | nothing {con : Connection} (hc : con.channel = "") : Effect weh env m (.onClose con) m []
  | announced {con : Connection} {m' : Clients} {ev : List Event} (hc : con.channel ≠ "")
      (ha : asks weh m con = false)
      (hm : Rooms m m' con
        (UMap.eraseIf (goneInPresence env) ((roomOf env m con).erase con.clientKey)))
      (hev : Presences env ((roomOf env m con).erase con.clientKey) ev) :
      Effect weh env m (.onClose con) m' ev
  | left {con : Connection} {m' : Clients} {ev : List Event} (hc : con.channel ≠ "")
      (ha : asks weh m con = true) (hm : Rooms m m' con ((roomOf env m con).erase con.clientKey))
      (hev : ∀ e ∈ ev, e.IsLog) : Effect weh env m (.onClose con) m' ev
  | errored {con : Connection} {ec : String} {m' : Clients} {ev : List Event}
      (hm : Rooms m m' con ((m.get con.channel).erase con.clientKey)) (hev : ∀ e ∈ ev, e.IsLog) :
      Effect weh env m (.onError con ec) m' ev

theorem isEmpty_iff_eq (s : String) : s.isEmpty = true ↔ s = "" := by simp

theorem rooms_client (env : Env) (m : Clients) (con : Connection) :
    Rooms m (m.client env con.channel con.clientKey) con (roomOf env m con) := by
  intro ch
  rw [get_client]
  rfl

theorem Rooms.trans {m m' m'' : Clients} {con : Connection} {room room' : Channel}
    (h : Rooms m m' con room) (h' : Rooms m' m'' con room') : Rooms m m'' con room' := by
  intro ch
  rw [h' ch, h ch]
  split_ifs <;> rfl

theorem Rooms.self {m m' : Clients} {con : Connection} {room : Channel}
    (h : Rooms m m' con room) : m'.get con.channel = room := by
  rw [h, if_pos rfl]

theorem Rooms.get_eq {m m' : Clients} {con : Connection} {room : Channel} {ch : String}
    (h : Rooms m m' con room) (hch : ch = con.channel) : m'.get ch = room := by
  rw [h, if_pos hch]

theorem get_roomOf (m : Clients) (con : Connection) :
    (roomOf env m con).get con.clientKey = (m.get con.channel).get con.clientKey :=
  get_index _ _ _ _

theorem onMessage_effect {m m' : Clients} {con : Connection} {msg : String} {ev : List Event}
    (h : weh.onMessage it env con msg m = some (m', ev)) :
    Effect weh env m (.onMessage con msg) m' ev := by
  have hr := rooms_client env m con
  unfold WssEndpointHandler.onMessage at h
  dsimp only at h
  rw [hr.self, get_roomOf] at h
  split_ifs at h with hl hch ha hn hd
  · cases h
    exact .ignored (fun hc => absurd hc.1 (by omega)) fun e => isLog_of_mem_log
  · cases h
    exact .ignored (fun hc => hc.2 ((isEmpty_iff_eq _).1 hch)) fun e he => by cases he
  all_goals have hc : Considered con msg := ⟨by omega, fun he => hch ((isEmpty_iff_eq _).2 he)⟩
  · cases h
    rw [(isEmpty_iff_eq _).1 hn]
    refine .rejected hc ha ((isEmpty_iff_eq _).1 hn) (hr.trans fun ch => ?_)
      fun e => isLog_of_mem_log
    rw [get_modify, hr.self]
    simp only [mem_client, and_true]
  · obtain ⟨r, hp, he⟩ := Option.map_eq_some_iff.1 h
    cases he
    obtain ⟨h₁, h₂⟩ := sendChannelPresence_spec hp
    have hm := get_modifyClient (mem_client env m con.channel con.clientKey)
    rw [hm, if_pos rfl, hr.self] at h₁ h₂
    refine .accepted hc ha (fun he => hn ((isEmpty_iff_eq _).2 he)) (hr.trans fun ch => ?_) ?_
    · rw [h₁, hm]
      split_ifs <;> rfl
    · exact h₂.append fun e => isLog_of_mem_log
  · cases h
    simp only [Bool.and_eq_true, Bool.or_eq_true, decide_eq_true_eq] at hd
    exact .dumped hc hd.1.1 (by rcases hd.1.2 with (h | h) | h <;> simp [SocketClient.isAdmin, h])
      hd.2 hr
  · obtain ⟨h₁, h₂⟩ := broadcast_spec h
    rw [hr.self] at h₁ h₂
    refine .broadcast hc (Bool.eq_false_iff.2 ha) (fun hh => hd ?_) (hr.trans h₁) h₂
    simpa [SocketClient.isAdmin, or_assoc, and_assoc] using hh

theorem onOpen_effect (m : Clients) (con : Connection) :
    Effect weh env m (.onOpen con) (weh.onOpen env con m).1 (weh.onOpen env con m).2 := by
  unfold WssEndpointHandler.onOpen
  split_ifs with hch
  · exact .refused ((isEmpty_iff_eq _).1 hch) fun e => isLog_of_mem_log
  · have hr := rooms_client env m con
    refine .opened (fun he => hch ((isEmpty_iff_eq _).2 he)) (hr.trans fun ch => ?_)
      fun e => isLog_of_mem_log
    rw [get_modifyClient (mem_client env m _ _), hr.self]
    rfl

theorem onClose_effect {m m' : Clients} {con : Connection} {ev : List Event}
    (h : weh.onClose it env con m = some (m', ev)) : Effect weh env m (.onClose con) m' ev := by
  have hr := rooms_client env m con
  unfold WssEndpointHandler.onClose at h
  dsimp only at h
  rw [hr.self, get_roomOf] at h
  have hrm : Rooms m _ con ((roomOf env m con).erase con.clientKey) := hr.trans fun ch => by
    rw [get_removeClient weh env _ con.channel con.clientKey "on close" ch, hr.self]
  split_ifs at h with hch ha
  · cases h
    exact .nothing ((isEmpty_iff_eq _).1 hch)
  · obtain ⟨r, hp, he⟩ := Option.map_eq_some_iff.1 h
    cases he
    obtain ⟨h₁, h₂⟩ := sendChannelPresence_spec hp
    rw [hrm.self] at h₁ h₂
    refine .announced (fun he => hch ((isEmpty_iff_eq _).2 he)) ?_ (hrm.trans h₁)
      (h₂.append fun e => isLog_of_mem_removeClient)
    unfold asks
    revert ha
    cases weh.authenticator <;> simp
  · cases h
    refine .left (fun he => hch ((isEmpty_iff_eq _).2 he)) ?_ hrm fun e => isLog_of_mem_log
    unfold asks
    revert ha
    cases weh.authenticator <;> simp

theorem onError_effect (m : Clients) (con : Connection) (ec : String) :
    Effect weh env m (.onError con ec) (weh.onError env con ec m).1
      (weh.onError env con ec m).2 := by
  refine .errored (fun ch => ?_) fun e he => ?_
  · rw [WssEndpointHandler.onError, get_removeClient]
  · rcases List.mem_append.1 he with he | he
    · exact isLog_of_mem_log he
    · exact isLog_of_mem_removeClient he

/-- **What a callback does.** -/
theorem handle_effect {m m' : Clients} {cb : Callback} {ev : List Event}
    (h : weh.handle it env m cb = some (m', ev)) : Effect weh env m cb m' ev := by
  cases cb with
  | onMessage con msg => exact onMessage_effect h
  | onOpen con =>
    have ho : weh.onOpen env con m = (m', ev) := Option.some.inj h
    have he : Effect weh env m (.onOpen con) (weh.onOpen env con m).1 (weh.onOpen env con m).2 :=
      onOpen_effect m con
    rwa [ho] at he
  | onClose con => exact onClose_effect h
  | onError con ec =>
    have ho : weh.onError env con ec m = (m', ev) := Option.some.inj h
    have he : Effect weh env m (.onError con ec) (weh.onError env con ec m).1
        (weh.onError env con ec m).2 :=
      onError_effect m con ec
    rwa [ho] at he

end CppFrame.Server
