import CppFrame.Server.Mirror
import CppFrame.Server.Pooled
import CppFrame.SimpleWeb.Serving

/-!
# The handler behind the server

The handler of an endpoint is told what the server makes callbacks of, in that order. What the
results about the handler take from the server, its `Contract`, is what the server does where it
refuses no message for its length, as with the default limit, and where no connection is opened
under the channel and key of an open one: `kept_of_serves` and `poolKept_of_serves` turn any run of
the handler behind such a run of the server into one that keeps the contract. Then what holds of
either holds of both.

The results are about a handler without a pool. The registry of the handler and the set of the
endpoint are the same connections, and no loop of the handler fails, as long as open connections are
alive, no callback comes for another connection with the key of an open one (an `on_error` would
remove it), and the authenticator refuses nobody (`registry_of_serves`, `handled_of_serves`). What
one client is sent as a message of another was read from the bytes of that other client's own
connection, behind a credential that was accepted; if these are a request and a part of a
conversation within the limit, it was said there (`said_of_relayed`).
-/

namespace CppFrame.SimpleWeb

open Server

/-! ## The contract -/

/-- What is promised of each of the callbacks is promised of the last one of a part of them. -/
theorem Each.mono {P : List Callback → Callback → Prop} {l h : List Callback} {cb : Callback}
    (he : Each P [] l) (hp : h ++ [cb] <+: l) : P h cb := by
  obtain ⟨rest, rfl⟩ := hp
  exact (Each.append_iff.1 (Each.append_iff.1 he).1).2.1

/-- Whoever the server holds is alive, and nobody is refused. -/
def Heeded (weh : WssEndpointHandler) (m : Clients) (u : Server.Trace) (i : Input) : Prop :=
  Lives (calls u) i.1 i.2 ∧ Accepting weh m i

instance (weh : WssEndpointHandler) (m : Clients) (u : Server.Trace) (i : Input) :
    Decidable (Heeded weh m u i) := by
  unfold Heeded; infer_instance

theorem Each.imp {P Q : List Callback → Callback → Prop} (hpq : ∀ h cb, P h cb → Q h cb)
    {h l : List Callback} (he : Each P h l) : Each Q h l := by
  induction l generalizing h with
  | nil => trivial
  | cons cb l ih => exact ⟨hpq h cb he.1, ih he.2⟩

/-- Connections that come in order and have keys of their own keep the contract. -/
theorem contract_of_apart {h : List Callback} {cb : Callback} (ho : Ordered h cb)
    (ha : Apart h cb) : Contract h cb := by
  refine ⟨ho, ?_⟩
  cases cb with
  | onOpen con =>
    intro cb' hcb hopen hsame
    rw [ha cb' hcb hopen hsame] at hopen
    exact Phase.noConfusion (hopen.symm.trans ho)
  | onMessage | onClose | onError => trivial

variable {setup : Setup} {id : Nat}

/-! ## What a connection has said -/

/-- The text of a message that is delivered. -/
def Action.text : Action → Option String
  | .onMessage m => some m.string
  | _ => none

/-- The messages of a conversation. -/
def Conversation.texts (v : Conversation) : List String := v.actions.filterMap Action.text

/-- The message that a callback brings from a connection. -/
def messageOf (con : Connection) : Callback → Option String
  | .onMessage con' msg => if con' = con then some msg else none
  | _ => none

/-- The messages of a connection that the handler was told. -/
def said (con : Connection) (h : List Callback) : List String := h.filterMap (messageOf con)

theorem messageOf_of_ne {con : Connection} {cb : Callback} (h : cb.con ≠ con) :
    messageOf con cb = none := by
  cases cb with
  | onMessage con' msg => exact if_neg h
  | _ => rfl

/-- The callbacks of actions on a connection say the texts of the actions, and nothing of another
connection. -/
theorem said_callbacks (con con' : Connection) (l : List Action) :
    said con' (l.flatMap (Action.callbacks con)) = if con = con' then
      l.filterMap Action.text else [] := by
  induction l with
  | nil => exact (ite_self _).symm
  | cons a l ih =>
    have hhead : said con' (a.callbacks con ++ l.flatMap (Action.callbacks con)) =
        said con' (a.callbacks con) ++ said con' (l.flatMap (Action.callbacks con)) :=
        List.filterMap_append
    rw [List.flatMap_cons, hhead, ih]
    cases a with
    | onMessage m =>
      show (([Callback.onMessage con m.string] : List Callback).filterMap (messageOf con')) ++ _ = _
      split_ifs with he <;> simp [messageOf, Action.text, he]
    | onPing | onPong | onClose | onError | send | sendClose => rfl

/-- Every event of a client is about one connection, that of its request. -/
theorem Endpoint.Tells.con {request : RequestMessage} {v : Conversation} {l : List Event}
    (h : Endpoint.Tells id request v l) :
    ∃ remoteEndpoint, ∀ cb ∈ l.flatMap Event.callbacks, cb.con =
      Setup.connection id remoteEndpoint request := by
  obtain ⟨con, l', ⟨remoteEndpoint, rfl⟩, hpre, hl⟩ := h
  refine ⟨remoteEndpoint, fun cb hcb => ?_⟩
  have hpart : cb ∈ l'.flatMap Event.callbacks →
      cb.con = Setup.connection id remoteEndpoint request := by
    intro hmem
    have hmem := (hpre.flatMap Event.callbacks).subset hmem
    rw [List.flatMap_cons, callbacks_action] at hmem
    rcases List.mem_append.1 hmem with hmem | hmem
    · obtain rfl := List.mem_singleton.1 hmem
      rfl
    · exact con_of_mem_callbacks hmem
  rcases hl with rfl | ⟨ec, rfl⟩
  · exact hpart hcb
  · rw [List.flatMap_append] at hcb
    rcases List.mem_append.1 hcb with hmem | hmem
    · exact hpart hmem
    · obtain rfl := List.mem_singleton.1 hmem
      rfl

/-- What is told of a client says a part of its conversation, from its start. -/
theorem Endpoint.Tells.said {request : RequestMessage} {v : Conversation} {l : List Event}
    (h : Endpoint.Tells id request v l) (con : Connection) :
    said con (l.flatMap Event.callbacks) <+: v.texts := by
  obtain ⟨con₀, l', -, hpre, hl⟩ := h
  have hpart : SimpleWeb.said con (l'.flatMap Event.callbacks) <+: v.texts := by
    refine ((hpre.flatMap Event.callbacks).filterMap _).trans ?_
    rw [List.flatMap_cons, callbacks_action]
    show SimpleWeb.said con (v.actions.flatMap (Action.callbacks con₀)) <+: v.texts
    rw [said_callbacks]
    split_ifs
    · exact List.prefix_refl _
    · exact List.nil_prefix
  rcases hl with rfl | ⟨ec, rfl⟩
  · exact hpart
  · have hnone : SimpleWeb.said con ([Event.action con₀ (.onError ec)].flatMap Event.callbacks) =
      [] := rfl
    unfold SimpleWeb.said at hnone ⊢
    rw [List.flatMap_append, List.filterMap_append, hnone, List.append_nil]
    exact hpart

theorem Event.isOf_eq {e : Event} {cb : Callback} (h : cb ∈ e.callbacks) :
    e.isOf id = decide (cb.con.id = id) := by
  cases e with
  | answer => cases h
  | opened con =>
    obtain rfl := List.mem_singleton.1 h
    rfl
  | action con a =>
    have hcon : cb.con = con :=
      con_of_mem_callbacks (List.mem_flatMap.2 ⟨a, List.mem_singleton.2 rfl, h⟩)
    rw [hcon]
    rfl

/-- The callbacks of the events of a connection are the callbacks about it. -/
theorem callbacks_eventsOf (id : Nat) (t : Endpoint.Trace) :
    (Endpoint.eventsOf id t).flatMap Event.callbacks = (Endpoint.callbacks t).filter fun cb =>
      cb.con.id = id := by
  unfold Endpoint.eventsOf Endpoint.callbacks
  induction Endpoint.events t with
  | nil => rfl
  | cons e l ih =>
    rw [List.flatMap_cons, List.filter_append, ← ih]
    cases hof : e.isOf id with
    | true =>
      have hself : (e.callbacks.filter fun cb => cb.con.id = id) = e.callbacks :=
        List.filter_eq_self.2 fun cb hcb => by rw [← Event.isOf_eq hcb, hof]
      rw [List.filter_cons_of_pos hof, List.flatMap_cons, hself]
    | false =>
      have hnil : (e.callbacks.filter fun cb => cb.con.id = id) = [] :=
        List.filter_eq_nil_iff.2 fun cb hcb => by
          rw [← Event.isOf_eq hcb, hof]; exact Bool.false_ne_true
      rw [List.filter_cons_of_neg (by rw [hof]; exact Bool.false_ne_true), hnil, List.nil_append]

/-- What a connection says is among the callbacks with its number. -/
theorem said_eventsOf (con : Connection) (t : Endpoint.Trace) :
    said con ((Endpoint.eventsOf con.id t).flatMap Event.callbacks) =
      said con (Endpoint.callbacks t) := by
  rw [callbacks_eventsOf]
  unfold said
  rw [List.filterMap_filter]
  refine List.filterMap_congr fun cb _ => ?_
  split_ifs with hid
  · rfl
  · exact (messageOf_of_ne fun he => hid (decide_eq_true (he ▸ rfl))).symm

/-- A connection that was accepted before it says something more has said what was accepted in front
of it. -/
theorem said_of_accepted {u : Server.Trace} {con : Connection} {msg : String}
    (h : AcceptedSinceOpen u con) :
    ∃ p credential q, said con (calls u ++ [.onMessage con msg]) = p ++ credential :: (q ++ [msg]) ∧
      ∃ x ∈ u, ∃ name, x.1.1 = .onMessage con credential ∧ .authenticator credential name ∈
        x.2 ∧ name ≠ "" := by
  obtain ⟨u₁, x, u₂, rfl, -, y, hy, credential, name, hcb, hev, hname⟩ := h
  have hmem : y ∈ u₁ ++ x :: u₂ := List.mem_append_right _ (List.mem_cons_of_mem x hy)
  have hsaid : credential ∈ said con (calls (u₁ ++ x :: u₂)) := by
    refine List.mem_filterMap.2 ⟨y.1.1, List.mem_map_of_mem hmem, ?_⟩
    rw [hcb]
    exact if_pos rfl
  obtain ⟨p, q, hpq⟩ := List.append_of_mem hsaid
  refine ⟨p, credential, q, ?_, y, hmem, name, hcb, hev, hname⟩
  rw [said, List.filterMap_append, ← said, hpq, List.append_assoc, List.cons_append]
  simp [messageOf]

/-! ## A concrete run -/

/-- A short text under a mask of zeros. -/
def sampleText (id : Nat) (content : List UInt8) : List (Nat × Completion) :=
  [(id, .arrived [0x81, .ofNat (128 + content.length)]), (id, .arrived ([0, 0, 0, 0] ++ content))]

/-- Two clients authenticate, and the first one says `hi`. -/
def sampleRelay : List (Nat × Completion) :=
  Endpoint.sampleVisit 0 "10.0.0.1" ++ Endpoint.sampleVisit 1 "10.0.0.2" ++
    sampleText 0 (bytesOf "Ann") ++
    sampleText 1 (bytesOf "Bob") ++ sampleText 0 (bytesOf "hi")

def sampleCalls : List Callback :=
  [.onOpen clientA, .onOpen clientB, .onMessage clientA "Ann", .onMessage clientB "Bob",
    .onMessage clientA "hi"]

theorem exists_sampleRelay : ∃ t e, Endpoint.Serves (Endpoint.sampleSetup 0xffffffffffffffff) t e ∧
    Run.inputs t = sampleRelay ∧ Endpoint.callbacks t = sampleCalls := by
  obtain ⟨t, e, h, hin, hp⟩ :=
    Run.exists_of_replay (Endpoint.step (Endpoint.sampleSetup 0xffffffffffffffff))
    Endpoint.Promised .start sampleRelay (fun t _ => decide (Endpoint.callbacks t = sampleCalls))
      (by decide +kernel)
  exact ⟨t, e, h, hin, of_decide_eq_true hp⟩

theorem not_refused_sample {t : Endpoint.Trace} {e : Endpoint}
    (h : Endpoint.Serves (Endpoint.sampleSetup 0xffffffffffffffff) t e) (con : Connection) :
    ¬ Endpoint.Refused t con :=
  Endpoint.not_refused_of_default rfl h con

theorem apart_sample {t : Endpoint.Trace} (h : Endpoint.callbacks t = sampleCalls) :
    Each Apart [] (Endpoint.callbacks t) := by
  rw [h]
  decide

theorem distinct_sample {t : Endpoint.Trace} (h : Endpoint.callbacks t = sampleCalls) :
    Each Distinct [] (Endpoint.callbacks t) := by
  rw [h]
  decide

/-- What a client has said to the server: a request, and then the frames of a conversation, as far
as they have come. -/
def Endpoint.Speaks (setup : Setup) (t : Endpoint.Trace) (id : Nat) (request : RequestMessage)
    (v : Conversation) : Prop :=
  ∃ header bytes rest, Announces header request ∧ Spells Masked v.frames bytes ∧
    v.Fits setup.config.maxMessageSize.toNat ∧ received id t ++ rest = header ++ bytes

/-- What the server has read from a connection, whatever bytes have come: a request, and behind it,
piece by piece, what the given actions were made of. -/
def Endpoint.HasRead (setup : Setup) (t : Endpoint.Trace) (con : Connection)
    (request : RequestMessage) (out : List Action) : Prop :=
  ∃ remoteEndpoint streambuf left behind l s, con = Setup.connection con.id remoteEndpoint request ∧
    received con.id t = streambuf ++ behind ∧ RequestMessage.parse (charsOf streambuf) =
    some (request, left) ∧
    l <+: (left.map fun c => UInt8.ofNat c.toNat) ++ behind ∧
    (SocketServer.reader setup.config).Reads .start l out s

/-- Among the texts are the words of a connection, behind a credential that the authenticator has
accepted. -/
def Vouched (u : Server.Trace) (con : Connection) (words : String) (texts : List String) : Prop :=
  ∃ p credential q r, texts = p ++ credential :: (q ++ words :: r) ∧
    ∃ x ∈ u, ∃ name, x.1.1 = .onMessage con credential ∧
    .authenticator credential name ∈ x.2 ∧ name ≠ ""

theorem Vouched.mem {u : Server.Trace} {con : Connection} {words : String} {texts : List String}
    (h : Vouched u con words texts) : words ∈ texts := by
  obtain ⟨p, credential, q, r, rfl, -⟩ := h
  simp

theorem Vouched.mono {u u' : Server.Trace} {con : Connection} {words : String} {texts : List String}
    (h : Vouched u con words texts) (hu : u <+: u') : Vouched u' con words texts := by
  obtain ⟨p, credential, q, r, htexts, x, hx, hfrom⟩ := h
  exact ⟨p, credential, q, r, htexts, x, hu.subset hx, hfrom⟩

/-- What a connection was accepted for stands in front of what it says, wherever that is a part of
the texts. -/
theorem Vouched.of_said {u : Server.Trace} {con : Connection} {words : String} {texts : List String}
    (ha : AcceptedSinceOpen u con) (h : said con (calls u ++ [.onMessage con words]) <+: texts) :
    Vouched u con words texts := by
  obtain ⟨p, credential, q, hsaid, hfrom⟩ := said_of_accepted ha
  obtain ⟨r, rfl⟩ := h
  exact ⟨p, credential, q, r, by rw [hsaid]; simp, hfrom⟩

section

variable {e : Endpoint} {t : Endpoint.Trace} (hs : Endpoint.Serves setup t e)
  (hfit : ∀ con, ¬ Endpoint.Refused t con)

include hs hfit

/-- The contract of a run in which no connection is opened under the key of an open one. -/
theorem Endpoint.contract_of_distinct (hkeys : Each Distinct [] (callbacks t)) :
    Each Contract [] (callbacks t) :=
  (contract_iff hs).2.1.2 ⟨hfit, hkeys⟩

theorem Endpoint.contract_of_run (hkeys : Each Apart [] (callbacks t)) :
    Each Contract [] (callbacks t) :=
  (Each.and_iff.2 ⟨(contract_iff hs).1.2 hfit, hkeys⟩).imp fun _ _ h => contract_of_apart h.1 h.2

variable {weh : WssEndpointHandler} {it : Iteration}

omit hs hfit in
/-- What is promised of the callbacks of a server is promised of those that a handler has
handled. -/
theorem promised_of_calls {P : List Callback → Callback → Prop}
    (hp : Each P [] (Endpoint.callbacks t)) {guard : Clients → Server.Trace → Input → Prop}
    {u : Server.Trace} {m : Clients} (hu : Run (weh.inline it) guard ∅ u m)
    (hcalls : calls u <+: Endpoint.callbacks t) :
    Run (weh.inline it) (fun m u i => guard m u i ∧ P (calls u) i.1) ∅ u m := by
  refine hu.mono_of_initial fun m' u' i ev hpre hg => ⟨hg, ?_⟩
  have hmap := hpre.map fun x : Input × List Server.Event => x.1.1
  exact hp.mono ((show calls u' ++ [i.1] <+: calls u by simpa [calls] using hmap).trans hcalls)

/-- **A handler behind the server is told what the contract allows**, where no connection is opened
under the key of an open one. -/
theorem kept_of_serves (hkeys : Each Distinct [] (Endpoint.callbacks t))
    {guard : Clients → Server.Trace → Input → Prop} {u : Server.Trace} {m : Clients}
    (hu : Run (weh.inline it) guard ∅ u m) (hcalls : calls u <+: Endpoint.callbacks t) :
    Run (weh.inline it) (fun m u i => guard m u i ∧ kept m u i) ∅ u m :=
  promised_of_calls (Endpoint.contract_of_distinct hs hfit hkeys) hu hcalls

/-- The same with a thread pool. -/
theorem poolKept_of_serves (hkeys : Each Distinct [] (Endpoint.callbacks t))
    {guard : Pooled → PoolTrace → PoolInput → Prop} {start s : Pooled} {u : PoolTrace}
    (hu : Run (weh.pooled it) guard start u s) (hmade : made u <+: Endpoint.callbacks t) :
    Run (weh.pooled it) (fun s u i => guard s u i ∧ poolKept u i) start u s := by
  refine hu.mono_of_initial fun s' u' i o hp hg => ⟨hg, ?_⟩
  cases i with
  | execute n env => trivial
  | callback cb env =>
    have hpart : made u' ++ [cb] <+: made u := by
      rw [← made_callback u' cb env o]
      exact hp.filterMap _
    exact (Endpoint.contract_of_distinct hs hfit hkeys).mono (hpart.trans hmade)

/-- What the handler takes from the server in a run in which nobody is refused. -/
theorem keptAccepting_of_serves (hkeys : Each Apart [] (Endpoint.callbacks t)) {u : Server.Trace}
    {m : Clients} (hu : Run (weh.inline it) (Heeded weh) ∅ u m)
    (hcalls : calls u <+: Endpoint.callbacks t) :
    Run (weh.inline it) (keptAccepting weh) ∅ u m :=
  (promised_of_calls (Each.and_iff.2 ⟨Endpoint.contract_of_run hs hfit hkeys, hkeys⟩)
    hu hcalls).mono
    fun _ _ _ h => ⟨⟨h.2.1, h.1.1⟩, h.2.2, h.1.2⟩

/-- **The registry and the set of the endpoint are the same connections**, but for those without a
channel, where open connections are alive and their keys nobody else's, and nobody is refused. -/
theorem registry_of_serves (hkeys : Each Apart [] (Endpoint.callbacks t)) {u : Server.Trace}
    {m : Clients} (hu : Run (weh.inline it) (Heeded weh) ∅ u m)
    (hcalls : calls u = Endpoint.callbacks t) :
    (∀ con ∈ e.connections, con.channel ≠ "" →
      ∃ c, m.entry con.channel con.clientKey = some c ∧ c.connection = some con) ∧
    ∀ ch k c, m.entry ch k = some c →
      ∃ con ∈ e.connections, con.channel = ch ∧ con.clientKey = k ∧ c.connection = some con := by
  have hpre : calls u <+: Endpoint.callbacks t := hcalls ▸ List.prefix_refl _
  have hm := (mirrors_of_run (keptAccepting_of_serves hs hfit hkeys hu hpre)).1
  rw [hcalls] at hm
  have hopen : ∀ con, con ∈ e.connections ↔ phase con (Endpoint.callbacks t) = .opened :=
    fun con => (Endpoint.told_of_run hs).mem_connections_iff
  refine ⟨fun con hcon hch => ?_, fun ch k c hk => ?_⟩
  · obtain ⟨c, hk, hc⟩ := hm.registered con ((hopen con).1 hcon) hch
    exact ⟨c, (m.entry_eq _ _).trans hk, hc⟩
  · obtain ⟨con, hc, ho, hch, hkey⟩ := hm.entry ch k c ((m.entry_eq ch k).symm.trans hk)
    exact ⟨con, (hopen con).2 ho, hch, hkey, hc⟩

omit hs hfit in
/-- The first of two clients is found in the registry. -/
theorem registry_of_serves_two :
    ∃ t e u m, Endpoint.Serves (Endpoint.sampleSetup 0xffffffffffffffff) t e ∧
    Run (secured.inline .checked) (Heeded secured) ∅ u m ∧ calls u = Endpoint.callbacks t ∧
    ∃ c, m.entry clientA.channel clientA.clientKey = some c ∧ c.connection = some clientA := by
  obtain ⟨t, e, hs, -, hcalls⟩ := exists_sampleRelay
  obtain ⟨u, m, hu, -, hp⟩ := Run.exists_of_replay (secured.inline .checked) (Heeded secured) ∅
    (callsOf sampleCalls)
    (fun u _ => decide (calls u = sampleCalls)) (by decide)
  have hsame : calls u = Endpoint.callbacks t := (of_decide_eq_true hp).trans hcalls.symm
  have hopen : clientA ∈ e.connections :=
    (Endpoint.told_of_run hs).mem_connections_iff.2 (by rw [hcalls]; decide)
  exact ⟨t, e, u, m, hs, hu, hsame,
    (registry_of_serves hs (not_refused_sample hs) (apart_sample hcalls) hu hsame).1
    clientA hopen (by decide)⟩

/-- **No loop of the handler fails** behind the server, as long as nobody is refused: the next
callback runs to its end. -/
theorem handled_of_serves (hkeys : Each Apart [] (Endpoint.callbacks t)) {u : Server.Trace}
    {m : Clients} {i : Input} (hu : Run (weh.inline .checked) (Heeded weh) ∅ u m)
    (hcalls : calls u ++ [i.1] <+: Endpoint.callbacks t) (hi : Heeded weh m u i) :
    (weh.inline .checked m i).isSome = true := by
  refine inline_isSome (keptAccepting_of_serves hs hfit hkeys hu
    ((List.prefix_append _ _).trans hcalls)) ?_
  exact ⟨⟨(Endpoint.contract_of_run hs hfit hkeys).mono hcalls, hi.1⟩, hkeys.mono hcalls, hi.2⟩

omit hs hfit in
/-- The last message of the run can be handled. -/
theorem handled_of_serves_message :
    ∃ t e u m, Endpoint.Serves (Endpoint.sampleSetup 0xffffffffffffffff) t e ∧
    Run (secured.inline .checked) (Heeded secured) ∅ u m ∧
    (secured.inline .checked m (.onMessage clientA "hi", steady)).isSome = true := by
  obtain ⟨t, e, hs, -, hcalls⟩ := exists_sampleRelay
  obtain ⟨u, m, hu, -, hp⟩ := Run.exists_of_replay (secured.inline .checked) (Heeded secured) ∅
    (callsOf sampleCalls.dropLast) (fun u m => decide (calls u = sampleCalls.dropLast) &&
      decide (Heeded secured m u (.onMessage clientA "hi", steady))) (by decide)
  obtain ⟨hp, hi⟩ := Bool.and_eq_true_iff.1 hp
  have hpre : calls u ++ [.onMessage clientA "hi"] <+: Endpoint.callbacks t := by
    rw [of_decide_eq_true hp, hcalls]
    exact ⟨[], by decide⟩
  exact ⟨t, e, u, m, hs, hu,
    handled_of_serves hs (not_refused_sample hs) (apart_sample hcalls)
    hu hpre (of_decide_eq_true hi)⟩

/-- What the handler sends as a message of a client is what the client has just said, and goes to
another connection of its channel; both had been accepted. -/
theorem relayed_of_send {guard : Clients → Server.Trace → Input → Prop} {u₁ u₂ : Server.Trace}
    {m : Clients} {cb : Callback} {d : Connection} {text : String} {env : Env}
    {ev : List Server.Event} (hauth : weh.authenticator = true)
    (hkeys : Each Distinct [] (Endpoint.callbacks t))
    (hu : Run (weh.inline it) guard ∅ (u₁ ++ ((cb, env), ev) :: u₂) m)
    (hcalls : calls (u₁ ++ ((cb, env), ev) :: u₂) <+: Endpoint.callbacks t) (hd : .send d text ∈ ev)
    (htext : IsKind "MESSAGE" text) :
    ∃ con words, cb = .onMessage con words ∧ text = "MESSAGE" ++ words ∧ d ≠ con ∧
      d.channel = con.channel ∧
      AcceptedSinceOpen u₁ d ∧ AcceptedSinceOpen u₁ con := by
  obtain ⟨m₁, m₂, h₁, ⟨-, hc, -⟩, hstep, -⟩ := (kept_of_serves hs hfit hkeys hu hcalls).step_at
  have hsess : Sessions u₁ m₁ := sessions_of_run (h₁.mono fun _ _ _ h => h.2)
  have he := handle_effect hstep
  obtain ⟨con, words, k, cl, rfl, hte, -, ha, hk, hr, hl⟩ := he.broadcast_send hd htext
  have ho : phase con (calls u₁) = .opened := hc
  simp only [WssEndpointHandler.receives, hauth, Bool.not_true, Bool.false_or, Bool.and_eq_true,
    decide_eq_true_eq] at hr
  have hkept : (m₁.get con.channel).lookup k = some cl := by
    cases he.lookup_cases hk with
    | kept hk => exact hk
    | accepted _ hkey => exact absurd hkey.symm hr.1
    | created _ hkey => exact absurd hkey.symm hr.1
  obtain ⟨hch, hkey, hacc⟩ := hsess.accepted_of_lock hkept hl hr.2
  exact ⟨con, words, rfl, hte, fun e => hr.1 (by rw [← hkey, e]), hch, hacc,
    hsess.accepted_of_asks hauth ho ha⟩

omit hs hfit in
/-- What was done about an open connection was read from its bytes. -/
theorem Endpoint.hasRead_of_spoken {con : Connection} {b : PieceReader.Buffered Reading UInt8}
    {l : List Event} (h : Spoken setup con.id (Endpoint.completions con.id t) con b l) :
    ∃ request out, Endpoint.HasRead setup t con request out ∧
      l = .opened con :: out.map (.action con) := by
  obtain ⟨streambuf, leftover, u, ⟨remoteEndpoint, request, left, -, -, hp, hcon, rfl⟩,
    hbytes, hl, rfl⟩ := h
  exact ⟨request, _, ⟨remoteEndpoint, streambuf, left, _, _, _, hcon, hbytes, hp,
    List.take_prefix _ _,
    SocketServer.reads_of_run hl⟩, rfl⟩

omit hfit in
/-- What a connection says was read from its bytes. -/
theorem Endpoint.exists_hasRead {con : Connection} {words : String}
    (h : .onMessage con words ∈ Endpoint.callbacks t) :
    ∃ request out, Endpoint.HasRead setup t con request out ∧
      said con (Endpoint.callbacks t) = out.filterMap Action.text := by
  have hmem : .onMessage con words ∈ (Endpoint.eventsOf con.id t).flatMap Event.callbacks := by
    rw [callbacks_eventsOf]
    exact List.mem_filter.2 ⟨h, decide_eq_true rfl⟩
  -- an error behind what was read says nothing
  have hopened : ∀ {con' b l} (tail : List Action),
    Spoken setup con.id (Endpoint.completions con.id t) con' b l →
      Endpoint.eventsOf con.id t = l ++ tail.map (.action con') → tail.filterMap Action.text = [] →
      ∃ request out, Endpoint.HasRead setup t con request out ∧
        said con (Endpoint.callbacks t) = out.filterMap Action.text := by
    intro con' b l tail hspoken hev htail
    obtain ⟨-, -, u, -, -, -, hl⟩ := id hspoken
    rw [hev, hl, List.cons_append, ← List.map_append, List.flatMap_cons, callbacks_action] at hmem
    obtain rfl : con = con' :=
      con_of_mem_callbacks ((List.mem_append.1 hmem).resolve_left (by simp [Event.callbacks]))
    obtain ⟨request, out, hread, hout⟩ := Endpoint.hasRead_of_spoken hspoken
    refine ⟨request, out, hread, ?_⟩
    rw [← said_eventsOf, hev, hout, List.cons_append, ← List.map_append,
      List.flatMap_cons, callbacks_action]
    have hsaid := said_callbacks con con (out ++ tail)
    rw [if_pos rfl, List.filterMap_append, htail, List.append_nil] at hsaid
    exact hsaid
  have hlived := Endpoint.lived_of_run hs con.id
  cases hst : e.stage con.id with
  | fresh | handshaking | answering =>
    rw [hst] at hlived
    rw [hlived.2] at hmem
    cases hmem
  | reading con' b =>
    rw [hst] at hlived
    exact hopened [] hlived (List.append_nil _).symm rfl
  | ended =>
    rw [hst] at hlived
    rcases hlived with hnil | ⟨con', -, ec, -, hl⟩ | ⟨con', b, hspoken⟩ | ⟨con',
      b, l, ec, hspoken, hl⟩
    · rw [hnil] at hmem
      cases hmem
    · rw [hl] at hmem
      exact absurd hmem (by simp [Event.callbacks, Action.callbacks])
    · exact hopened [] hspoken (List.append_nil _).symm rfl
    · exact hopened [.onError ec] hspoken hl rfl

omit hfit in
/-- **A client has said what the handler was told of it**: its request names the channel, and a
message that is told behind an acceptance stands in its conversation behind the credential. -/
theorem Endpoint.Speaks.said {u : Server.Trace} {con : Connection} {words : String}
    {request : RequestMessage} {v : Conversation} (h : Endpoint.Speaks setup t con.id request v)
    (ha : AcceptedSinceOpen u con)
    (hcalls : calls u ++ [.onMessage con words] <+: Endpoint.callbacks t) :
    con.queryString = request.queryString ∧ Vouched u con words v.texts := by
  obtain ⟨header, bytes, rest, hreq, hspell, hfit, hb⟩ := h
  have htells := Endpoint.tells_of_run hs hreq hspell hfit hb
  constructor
  · obtain ⟨remoteEndpoint, hcon⟩ := htells.con
    have hmem : .onMessage con words ∈ (Endpoint.eventsOf con.id t).flatMap Event.callbacks := by
      rw [callbacks_eventsOf]
      exact List.mem_filter.2 ⟨hcalls.subset (List.mem_append_right _ List.mem_cons_self),
        decide_eq_true rfl⟩
    rw [show con = Setup.connection con.id remoteEndpoint request from hcon _ hmem]
    rfl
  · refine .of_said ha ((hcalls.filterMap _).trans ?_)
    have := htells.said con
    rwa [said_eventsOf] at this

/-- **Nobody speaks for another.** With an authenticator, a message that reaches somebody behind the
server was read from the bytes of its sender: a request, whose query string names the channel of
both, and behind it a credential that was accepted, and the message. Where the sender keeps to the
protocol, it stands in the sender's conversation. -/
theorem said_of_relayed {guard : Clients → Server.Trace → Input → Prop} {u₁ u₂ : Server.Trace}
    {m : Clients} {cb : Callback} {d : Connection} {text : String} {env : Env}
    {ev : List Server.Event} (hauth : weh.authenticator = true)
    (hkeys : Each Distinct [] (Endpoint.callbacks t))
    (hu : Run (weh.inline it) guard ∅ (u₁ ++ ((cb, env), ev) :: u₂) m)
    (hcalls : calls (u₁ ++ ((cb, env), ev) :: u₂) <+: Endpoint.callbacks t) (hd : .send d text ∈ ev)
    (htext : IsKind "MESSAGE" text) :
    ∃ con words, cb = .onMessage con words ∧ text = "MESSAGE" ++ words ∧ d ≠ con ∧
      d.channel = con.channel ∧
      AcceptedSinceOpen u₁ d ∧
      (∃ request out, Endpoint.HasRead setup t con request out ∧
        Vouched u₁ con words (out.filterMap Action.text)) ∧
      ∀ request v, Endpoint.Speaks setup t con.id request v →
        con.queryString = request.queryString ∧ Vouched u₁ con words v.texts := by
  obtain ⟨con, words, rfl, hte, hne, hch, hacc, hacc'⟩ :=
    relayed_of_send hs hfit hauth hkeys hu hcalls hd htext
  have hcall : calls u₁ ++ [.onMessage con words] <+: Endpoint.callbacks t := by
    refine List.IsPrefix.trans ⟨calls u₂, ?_⟩ hcalls
    rw [calls_append, calls_cons, List.append_assoc, List.singleton_append]
  obtain ⟨request, out, hread, hout⟩ :=
    Endpoint.exists_hasRead hs (hcall.subset (List.mem_append_right _ List.mem_cons_self))
  exact ⟨con, words, rfl, hte, hne, hch, hacc,
    ⟨request, out, hread, .of_said hacc' (hout ▸ hcall.filterMap _)⟩,
    fun request v hv => hv.said hs hacc' hcall⟩

omit hs hfit in
/-- What reaches the second client was said by the first one, behind its name. -/
theorem said_of_relayed_hi : ∃ t e u m env ev, ∃ v : Conversation,
    Endpoint.Serves (Endpoint.sampleSetup 0xffffffffffffffff) t e ∧
    Run (secured.inline .checked) (Heeded secured) ∅
      (u ++ [((.onMessage clientA "hi", env), ev)]) m ∧
    .send clientB "MESSAGEhi" ∈ ev ∧ Conversation.texts v = ["Ann", "hi"] ∧
      Vouched u clientA "hi" v.texts := by
  let v : Conversation :=
    ⟨[.whole .text ⟨bytesOf "Ann", by decide⟩, .whole .text ⟨bytesOf "hi", by decide⟩], none⟩
  obtain ⟨t, e, hs, hin, hcalls⟩ := exists_sampleRelay
  obtain ⟨u', m, hu, -, hp⟩ := Run.exists_of_replay (secured.inline .checked) (Heeded secured) ∅
    (callsOf sampleCalls)
    (fun u _ => decide (calls u = sampleCalls) &&
    u.getLast?.any fun (x : Input × List Server.Event) =>
      decide (x.1.1 = .onMessage clientA "hi" ∧ .send clientB "MESSAGEhi" ∈ x.2)) (by decide)
  obtain ⟨hsame, hlast⟩ := Bool.and_eq_true_iff.1 hp
  obtain ⟨⟨⟨cb, env⟩, ev⟩, hx, hq⟩ := (Option.any_eq_true _ _).1 hlast
  obtain ⟨u, rfl⟩ := List.getLast?_eq_some_iff.1 hx
  obtain ⟨rfl, hd⟩ := of_decide_eq_true hq
  have hpre : calls (u ++ [((.onMessage clientA "hi", env), ev)]) <+: Endpoint.callbacks t :=
    (of_decide_eq_true hsame).trans hcalls.symm ▸ List.prefix_refl _
  have hspell : Spells Masked v.frames
      ([0x81, 0x83, 0, 0, 0, 0, 65, 110, 110] ++ ([0x81, 0x82, 0, 0, 0, 0, 104, 105] ++ [])) :=
    .cons ⟨![0, 0, 0, 0], by decide⟩ (.cons ⟨![0, 0, 0, 0], by decide⟩ .nil)
  have hfit : v.Fits (Endpoint.sampleSetup 0xffffffffffffffff).config.maxMessageSize.toNat := by
    refine ⟨?_, nofun⟩
    intro i hi
    rcases List.mem_pair.1 hi with rfl | rfl
    · show 3 ≤ _
      decide
    · show 2 ≤ _
      decide
  have hb : Endpoint.received clientA.id t ++ [] = Endpoint.sampleRequest ++
      ([0x81, 0x83, 0, 0, 0, 0, 65, 110, 110] ++ ([0x81, 0x82, 0, 0, 0, 0, 104, 105] ++ [])) := by
    unfold Endpoint.received Endpoint.completions
    rw [hin, List.append_nil]
    decide +kernel
  obtain ⟨con, words, hcb, -, -, -, -, -, hsaid⟩ := said_of_relayed hs (not_refused_sample hs) rfl
    (distinct_sample hcalls) hu hpre hd (by decide)
  cases hcb
  obtain ⟨-, hwords⟩ := hsaid _ v ⟨_, _, _, Endpoint.announces_sample, hspell, hfit, hb⟩
  exact ⟨t, e, u, m, env, ev, v, hs, hu, hd, by decide, hwords⟩

end

end CppFrame.SimpleWeb
