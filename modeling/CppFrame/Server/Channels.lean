import CppFrame.Server.Clock
import CppFrame.Server.Contract
import Mathlib.Data.List.Sort
import Mathlib.Data.String.Basic

/-!
# Channels do not interfere

Two runs with plain loops whose callbacks on the connections of one channel are the same send those
connections the same, whatever happens in other channels. The rooms of the channel are then alike in
both runs (`RoomsAlike`): the same keys in the same order, and clients that differ at most in the
time of their connection. A channel that is absent in one run and empty in the other has the same
room, so the sweep of empty channels that every broadcast makes over the whole registry cannot be
told.
-/

namespace CppFrame.Server

open RangeFor UMap WssEndpointHandler

/-! ## What a channel is sent -/

/-- A send or a close to a connection that `p` picks out, other than the reply to `CSTATUS`. -/
def Event.mailTo (p : Connection → Bool) : Event → Bool
  | .send con message => p con && !decide (IsKind "ALL" message)
  | .sendClose con _ _ => p con
  | _ => false

/-- The sends and closes to the connections of a channel. -/
def post (ch : String) (ev : List Event) : List Event := ev.filter (Event.mailTo (·.channel = ch))

/-- The sends and closes to one connection. -/
def mail (d : Connection) (t : Trace) : List Event :=
  (t.flatMap (·.2)).filter (Event.mailTo (· = d))

theorem post_append (ch : String) (ev ev' : List Event) :
    post ch (ev ++ ev') = post ch ev ++ post ch ev' := List.filter_append ..

theorem post_of_isLog {ch : String} {ev : List Event} (h : ∀ e ∈ ev, e.IsLog) :
    post ch ev = [] := by
  refine List.filter_eq_nil_iff.2 fun e he => ?_
  obtain ⟨message, level, rfl⟩ := h e he
  exact Bool.false_ne_true

/-- The mail of a connection is part of the post of its channel. -/
theorem mail_eq {d : Connection} (t : Trace) :
    mail d t = (post d.channel (t.flatMap (·.2))).filter (Event.mailTo (· = d)) := by
  unfold mail post
  rw [List.filter_filter]
  refine List.filter_congr fun e _ => ?_
  cases e with
  | send con message =>
    simp only [Event.mailTo]
    by_cases h : con = d
    · simp [h]
    · simp [h]
  | sendClose con status reason =>
    simp only [Event.mailTo]
    by_cases h : con = d
    · simp [h]
    · simp [h]
  | authenticator => rfl
  | logger => rfl

/-! ## Rooms that are alike -/

/-- Two clients of the channel that differ at most in the time of the connection. -/
structure Alike (ch : String) (c c' : SocketClient) : Prop where
  connection : c.connection = c'.connection
  authenticated : c.authenticated = c'.authenticated
  name : c.name = c'.name
  placed : ∀ d, c.connection = some d → d.channel = ch

/-- Two rooms with the same keys in the same order and clients that are alike. -/
abbrev RoomsAlike (ch : String) : Channel → Channel → Prop := Related (Alike ch)

/-- New nodes go to where the key order `r` wants them. -/
def InOrder (r : String → String → Prop) (a : UMap.Arrangement String SocketClient) : Prop :=
  ∀ l : List (Σ _ : String, SocketClient), l.NodupKeys → (a.order l).keys.Pairwise r

/-- Two environments that the connections of a channel cannot tell apart. -/
structure EnvsAlike (r : String → String → Prop) (ch : String) (env env' : Env) : Prop where
  authenticator : env.authenticator = env'.authenticator
  alive : ∀ d, d.channel = ch → env.alive d = env'.alive d
  order : InOrder r env.clientNodes
  order' : InOrder r env'.clientNodes

variable {weh : WssEndpointHandler} {r : String → String → Prop} {ch : String} {env env' : Env}
  {room room' : Channel} {m m' : Clients}

theorem alike_default (ch : String) : Alike ch default default where
  connection := rfl
  authenticated := rfl
  name := rfl
  placed d h := by cases h

theorem Alike.sameClient {c c' : SocketClient} (h : Alike ch c c') : SameClient c c' :=
  ⟨h.connection, h.authenticated, h.name⟩

/-- Making room for a client, whose place the key order tells. -/
theorem index_alike (hr : ∀ a b, r a b → r b a → a = b) (he : EnvsAlike r ch env env')
    (h : RoomsAlike ch room room') (k : String) :
    RoomsAlike ch (room.index env.clientNodes k) (room'.index env'.clientNodes k) := by
  refine h.index (fun hk => ?_) (alike_default ch)
  have hk' := mt (h.mem_iff k).2 hk
  have hs : (room.index env.clientNodes k).keys.Pairwise r := by
    rw [keys_index_of_notMem hk]
    exact he.order _ (List.nodupKeys_cons.2 ⟨hk, room.nodupKeys⟩)
  have hs' : (room'.index env'.clientNodes k).keys.Pairwise r := by
    rw [keys_index_of_notMem hk']
    exact he.order' _ (List.nodupKeys_cons.2 ⟨hk', room'.nodupKeys⟩)
  have hp := (perm_index_of_notMem (r := env.clientNodes) hk).map Sigma.fst
  have hp' := (perm_index_of_notMem (r := env'.clientNodes) hk').map Sigma.fst
  refine List.Perm.eq_of_pairwise (fun a b _ _ => hr a b) hs hs' (hp.trans (hp'.trans ?_).symm)
  rw [List.map_cons, List.map_cons]
  exact (List.Perm.of_eq h.keys.symm).cons k

/-! ## Functions on rooms that are alike -/

theorem Alike.lock (he : EnvsAlike r ch env env') {c c' : SocketClient} (h : Alike ch c c') :
    c.lock env = c'.lock env' := by
  unfold SocketClient.lock
  rw [← h.connection]
  cases hd : c.connection with
  | none => rfl
  | some d => rw [Option.filter_some, Option.filter_some, he.alive d (h.placed d hd)]

/-- Two results with the same post for the channel that leave its rooms alike. -/
structure Same (ch : String) (x x' : Clients × List Event) : Prop where
  rooms : RoomsAlike ch (x.1.get ch) (x'.1.get ch)
  post : post ch x.2 = post ch x'.2

theorem removeClient_same (weh : WssEndpointHandler) (env env' : Env)
    (h : RoomsAlike ch (m.get ch) (m'.get ch)) (k why : String) :
    Same ch (weh.removeClient env ch k why m) (weh.removeClient env' ch k why m') where
  rooms := by
    rw [get_removeClient, get_removeClient, if_pos rfl, if_pos rfl]
    exact h.erase k
  post := by
    rw [post_of_isLog fun _ => isLog_of_mem_removeClient, post_of_isLog fun _ =>
      isLog_of_mem_removeClient]

theorem broadcastTo_same (weh : WssEndpointHandler) (he : EnvsAlike r ch env env')
    (message key k : String) {c c' : SocketClient} (hc : Alike ch c c')
    (h : RoomsAlike ch (m.get ch) (m'.get ch)) :
    Same ch (weh.broadcastTo env message key ch k c m)
      (weh.broadcastTo env' message key ch k c' m') := by
  have hrec : weh.receives key k c = weh.receives key k c' := by
    unfold receives
    rw [hc.authenticated]
  unfold broadcastTo
  rw [hrec, hc.lock he]
  split_ifs
  · cases c'.lock env' with
    | some d => exact ⟨h, rfl⟩
    | none =>
      have hrm := removeClient_same weh env env' h k "found inactive in broadcast."
      exact ⟨hrm.rooms, by simp only [post_append, hrm.post]⟩
  · exact ⟨h, rfl⟩

theorem presenceTo_same (he : EnvsAlike r ch env env') (k : String) {c c' : SocketClient}
    (hc : Alike ch c c') (h : RoomsAlike ch (m.get ch) (m'.get ch)) :
    Same ch (weh.presenceTo env ch k c m) (weh.presenceTo env' ch k c' m') := by
  unfold presenceTo
  rw [hc.authenticated, hc.lock he, presenceJson_eq_of_related (h.mono fun _ _ => Alike.sameClient)]
  split_ifs
  · cases c'.lock env' with
    | some d => exact ⟨h, rfl⟩
    | none => exact removeClient_same weh env env' h k "found inactive in presence"
  · exact ⟨h, rfl⟩

/-- A walk over rooms that are alike, with bodies that do the same. -/
theorem visit_same {body body' : String → SocketClient → Clients → Clients × List Event}
    (hbody : ∀ k c c' s s', Alike ch c c' → RoomsAlike ch (s.get ch) (s'.get ch) →
      Same ch (body k c s) (body' k c' s')) (h : RoomsAlike ch (m.get ch) (m'.get ch)) :
    Same ch (visit body (m.get ch).entries m) (visit body' (m'.get ch).entries m') := by
  have happ : ∀ {a a' b b' : List Event}, post ch a = post ch a' → post ch b = post ch b' →
      post ch (a ++ b) = post ch (a' ++ b') := fun h₁ h₂ => by rw [post_append, post_append, h₁, h₂]
  obtain ⟨h₁, h₂⟩ := visit_related (R := fun s s' : Clients => RoomsAlike ch (s.get ch) (s'.get ch))
    (Q := fun l l' => post ch l = post ch l') rfl happ (fun k c c' s s' hc hs =>
      ⟨(hbody k c c' s s' hc hs).rooms, (hbody k c c' s s' hc hs).post⟩) h.forall₂ h
  exact ⟨h₁, h₂⟩

/-- A plain presence round is the walk, also where the channel is absent. -/
theorem sendChannelPresence_plain (ch : String) (m : Clients) :
    weh.sendChannelPresence .plain env ch m =
      some (visit (weh.presenceTo env ch) (m.get ch).entries m) := by
  unfold sendChannelPresence
  split_ifs with hch
  · exact rangeFor_plain _ _
  · rw [UMap.get, AList.lookup_eq_none.2 hch]
    rfl

theorem sendChannelPresence_same (he : EnvsAlike r ch env env')
    (h : RoomsAlike ch (m.get ch) (m'.get ch)) {x x' : Clients × List Event}
    (hx : weh.sendChannelPresence .plain env ch m = some x)
    (hx' : weh.sendChannelPresence .plain env' ch m' = some x') : Same ch x x' := by
  rw [sendChannelPresence_plain] at hx hx'
  cases hx
  cases hx'
  exact visit_same (fun k c c' s s' hc hs => presenceTo_same he k hc hs) h

theorem broadcast_same (he : EnvsAlike r ch env env') (message key : String)
    (h : RoomsAlike ch (m.get ch) (m'.get ch)) {x x' : Clients × List Event}
    (hx : weh.broadcast .plain env message key ch m = some x)
    (hx' : weh.broadcast .plain env' message key ch m' = some x') : Same ch x x' := by
  unfold broadcast at hx hx'
  simp only [rangeFor_plain, Option.bind_some, Option.map_some, Option.some.injEq] at hx hx'
  subst hx hx'
  have hi : RoomsAlike ch ((m.index env.channelNodes ch).get ch)
      ((m'.index env'.channelNodes ch).get ch) := by
    rw [get_index, get_index]
    exact h
  have hv := visit_same (fun k c c' s s' hc hs => broadcastTo_same weh he message key k hc hs) hi
  refine ⟨?_, ?_⟩
  · -- the sweep changes no room
    rw [(get_sweep _ _ ch).1, (get_sweep _ _ ch).1]
    exact hv.rooms
  · rw [(get_sweep _ _ ch).2, (get_sweep _ _ ch).2, List.append_nil, List.append_nil]
    exact hv.post

/-! ## One callback -/

theorem client_same (hr : ∀ a b, r a b → r b a → a = b) (he : EnvsAlike r ch env env')
    (h : RoomsAlike ch (m.get ch) (m'.get ch)) (k : String) :
    RoomsAlike ch ((m.client env ch k).get ch) ((m'.client env' ch k).get ch) := by
  rw [get_client, get_client, if_pos rfl, if_pos rfl]
  exact index_alike hr he h k

theorem onMessage_same (hr : ∀ a b, r a b → r b a → a = b) {con : Connection} {msg : String}
    (he : EnvsAlike r con.channel env env')
    (h : RoomsAlike con.channel (m.get con.channel) (m'.get con.channel))
    {x x' : Clients × List Event} (hx : weh.onMessage .plain env con msg m = some x)
    (hx' : weh.onMessage .plain env' con msg m' = some x') : Same con.channel x x' := by
  have hm := client_same hr he h con.clientKey
  have hmem := mem_client env m con.channel con.clientKey
  have hmem' := mem_client env' m' con.channel con.clientKey
  have hc := Related.get hm (alike_default _) con.clientKey
  unfold WssEndpointHandler.onMessage at hx hx'
  dsimp only at hx hx'
  rw [← hc.authenticated, ← hc.name, ← he.authenticator] at hx'
  split_ifs at hx hx' with hl hch ha hn hd
  · cases hx
    cases hx'
    exact ⟨h, rfl⟩
  · cases hx
    cases hx'
    exact ⟨h, rfl⟩
  · cases hx
    cases hx'
    refine ⟨?_, rfl⟩
    rw [get_modify, get_modify, if_pos ⟨rfl, hmem⟩, if_pos ⟨rfl, hmem'⟩]
    exact hm.erase con.clientKey
  · obtain ⟨y, hy, rfl⟩ := Option.map_eq_some_iff.1 hx
    obtain ⟨y', hy', rfl⟩ := Option.map_eq_some_iff.1 hx'
    have hs := sendChannelPresence_same he ?_ hy hy'
    · refine ⟨hs.rooms, ?_⟩
      have hpost := hs.post
      unfold post at hpost ⊢
      simp only [List.filter_cons, List.filter_append, hpost]
    · rw [get_modifyClient hmem, get_modifyClient hmem', if_pos rfl, if_pos rfl]
      exact hm.modify con.clientKey fun c c' hc => ⟨hc.connection, rfl, rfl, hc.placed⟩
  · cases hx
    cases hx'
    refine ⟨hm, ?_⟩
    -- the replies may differ, but they are dumps
    have hdump : ∀ m : Clients, post con.channel [.send con (weh.getAllClientsInJson m)] = [] := by
      intro m
      refine List.filter_eq_nil_iff.2 fun e hmem => ?_
      rw [List.mem_singleton.1 hmem]
      simp [Event.mailTo, isKind_dump]
    exact (hdump _).trans (hdump _).symm
  · exact broadcast_same he _ con.clientKey hm hx hx'

theorem onOpen_same (hr : ∀ a b, r a b → r b a → a = b) {con : Connection}
    (he : EnvsAlike r con.channel env env')
    (h : RoomsAlike con.channel (m.get con.channel) (m'.get con.channel)) :
    Same con.channel (weh.onOpen env con m) (weh.onOpen env' con m') := by
  have hm := client_same hr he h con.clientKey
  unfold WssEndpointHandler.onOpen
  split_ifs with hch
  · exact ⟨h, rfl⟩
  · refine ⟨?_, rfl⟩
    rw [get_modifyClient (mem_client env m _ _),
      get_modifyClient (mem_client env' m' _ _), if_pos rfl,
      if_pos rfl]
    refine hm.modify con.clientKey fun c c' hc => ⟨rfl, rfl, hc.name, fun d hd => ?_⟩
    rw [← Option.some.inj hd]

theorem onClose_same (hr : ∀ a b, r a b → r b a → a = b) {con : Connection}
    (he : EnvsAlike r con.channel env env')
    (h : RoomsAlike con.channel (m.get con.channel) (m'.get con.channel))
    {x x' : Clients × List Event} (hx : weh.onClose .plain env con m = some x)
    (hx' : weh.onClose .plain env' con m' = some x') :
    Same con.channel x x' := by
  have hm := client_same hr he h con.clientKey
  have hs := removeClient_same weh env env' hm con.clientKey "on close"
  have hc := Related.get hm (alike_default _) con.clientKey
  unfold WssEndpointHandler.onClose at hx hx'
  dsimp only at hx hx'
  rw [← hc.authenticated] at hx'
  split_ifs at hx hx' with hch ha
  · cases hx
    cases hx'
    exact ⟨h, rfl⟩
  · obtain ⟨y, hy, rfl⟩ := Option.map_eq_some_iff.1 hx
    obtain ⟨y', hy', rfl⟩ := Option.map_eq_some_iff.1 hx'
    have hp := sendChannelPresence_same he hs.rooms hy hy'
    exact ⟨hp.rooms, by simp only [post_append, hs.post, hp.post]⟩
  · cases hx
    cases hx'
    exact hs

theorem onError_same {con : Connection} {ec : String}
    (h : RoomsAlike con.channel (m.get con.channel) (m'.get con.channel)) :
    Same con.channel (weh.onError env con ec m) (weh.onError env' con ec m') := by
  have hs := removeClient_same weh env env' h con.clientKey
    ("Connection Error " ++ ec)
  exact ⟨hs.rooms, by simp only [WssEndpointHandler.onError, post_append, hs.post]⟩

/-- **The same callback in rooms that are alike.** -/
theorem handle_same (hr : ∀ a b, r a b → r b a → a = b) {cb : Callback}
    (he : EnvsAlike r cb.con.channel env env')
    (h : RoomsAlike cb.con.channel (m.get cb.con.channel) (m'.get cb.con.channel))
    {x x' : Clients × List Event} (hx : weh.handle .plain env m cb = some x)
    (hx' : weh.handle .plain env' m' cb = some x') : Same cb.con.channel x x' := by
  cases cb with
  | onMessage con msg => exact onMessage_same hr he h hx hx'
  | onOpen con =>
    cases hx
    cases hx'
    exact onOpen_same hr he h
  | onClose con => exact onClose_same hr he h hx hx'
  | onError con ec =>
    cases hx
    cases hx'
    exact onError_same h

/-- Every connection in the registry stands in its own channel. -/
def Placed (m : Clients) : Prop :=
  ∀ ch k c d, (m.get ch).lookup k = some c → c.connection = some d → d.channel = ch

theorem Effect.placed {cb : Callback} {ev : List Event} (he : Effect weh env m cb m' ev)
    (hp : Placed m) : Placed m' := by
  intro ch k c d hk hd
  cases he.lookup_cases hk with
  | kept hk => exact hp ch k c d hk hd
  | opened hch =>
    cases hd
    exact hch
  | accepted => exact hp ch k _ d (lookup_of_connection hd) hd
  | created => cases hd

/-- Closes go to the connection of the callback. -/
theorem Effect.close_con {cb : Callback} {ev : List Event} (he : Effect weh env m cb m' ev)
    {d : Connection} {status : Nat} {reason : String} (hd : .sendClose d status reason ∈ ev) :
    d = cb.con := by
  have hlog : ∀ {l : List Event}, (∀ e ∈ l, e.IsLog) → .sendClose d status reason ∉ l :=
    fun hl hm => not_isLog_sendClose _ _ _ (hl _ hm)
  have hpres : ∀ {room : Channel} {l : List Event}, Presences env room l →
      .sendClose d status reason ∉ l := fun hl hm => by
    rcases hl.sound _ hm with h | ⟨_, _, _, _, _, _, _, h⟩
    · exact not_isLog_sendClose _ _ _ h
    · cases h
  cases he with
  | ignored _ hev => exact absurd hd (hlog hev)
  | rejected _ _ _ _ hev =>
    simp only [List.mem_cons, reduceCtorEq, false_or, Event.sendClose.injEq] at hd
    rcases hd with hd | hd
    · exact hd.1
    · exact absurd hd (hlog hev)
  | accepted _ _ _ _ hev =>
    simp only [List.mem_cons, reduceCtorEq, false_or] at hd
    exact absurd hd (hpres hev)
  | dumped => simp at hd
  | broadcast _ _ _ _ hev =>
    rcases hev.sound _ hd with h | ⟨_, _, _, _, _, _, h⟩
    · exact absurd h (not_isLog_sendClose _ _ _)
    · cases h
  | refused _ hev =>
    rcases List.mem_append.1 hd with hd | hd
    · exact absurd hd (hlog hev)
    · cases List.mem_singleton.1 hd
      rfl
  | opened _ _ hev => exact absurd hd (hlog hev)
  | nothing => cases hd
  | announced _ _ _ hev => exact absurd hd (hpres hev)
  | left _ _ _ hev => exact absurd hd (hlog hev)
  | errored _ hev => exact absurd hd (hlog hev)

/-- A callback posts nothing to other channels. -/
theorem Effect.post_of_ne {cb : Callback} {ev : List Event} (he : Effect weh env m cb m' ev)
    (hp : Placed m) (hch : cb.con.channel ≠ ch) : post ch ev = [] := by
  refine List.filter_eq_nil_iff.2 fun e hmem hto => ?_
  have hplaced : ∀ k c d, (m'.get cb.con.channel).lookup k = some c → c.lock env = some d →
      d.channel = ch → False := by
    intro k c d hk hl hd
    exact hch ((he.placed hp _ k c d hk (Option.filter_eq_some_iff.1 hl).1).symm.trans hd)
  cases e with
  | send d text =>
    simp only [Event.mailTo, Bool.and_eq_true, decide_eq_true_eq] at hto
    have hd := hto.1
    cases he.send_cases hmem with
    | ok => exact hch hd
    | dump => exact hch hd
    | message _ _ hk _ hl => exact hplaced _ _ _ hk hl hd
    | presence hk _ hl => exact hplaced _ _ _ hk hl hd
  | sendClose d status reason =>
    simp only [Event.mailTo, decide_eq_true_eq] at hto
    rw [he.close_con hmem] at hto
    exact hch hto
  | authenticator => cases hto
  | logger => cases hto

/-! ## Two runs -/

/-- The outside of a run: the authenticator answers by the message alone, a connection is alive as
its own callbacks say (those made before, and the one being handled if it is one of them), and
clients are kept in the key order `r`. -/
def outside (auth : String → String) (live : Connection → List Callback → Option Callback → Bool)
    (r : String → String → Prop) (_ : Clients) (t : Trace) (i : Input) : Prop :=
  i.2.authenticator = auth ∧
  (∀ d, i.2.alive d = live d ((calls t).filter fun cb => cb.con = d)
    (if i.1.con = d then some i.1 else none)) ∧
  InOrder r i.2.clientNodes

theorem placed_of_run {it : Iteration} {guard : Clients → Trace → Input → Prop} {t : Trace}
    (h : Run (weh.inline it) guard ∅ t m) : Placed m := by
  refine clients_invariant h ?_ fun he hs => he.placed hs
  intro ch k c d hk
  cases hk

/-- The callbacks of the channel, picked out of the inputs. -/
theorem filterMap_inputs (ch : String) (t : Trace) :
    (Run.inputs t).filterMap (fun i => if i.1.con.channel = ch then some i.1 else none) =
      (calls t).filter fun cb => cb.con.channel = ch := by
  unfold Run.inputs calls
  induction t with
  | nil => rfl
  | cons x t ih =>
    rw [List.map_cons, List.map_cons, List.filterMap_cons, List.filter_cons, ih]
    by_cases h : x.1.1.con.channel = ch
    · simp [h]
    · simp [h]

/-- Connections of the channel see the same callbacks of their own in both runs. -/
theorem own_calls {d : Connection} {t t' : Trace}
    (h : ((calls t).filter fun cb => cb.con.channel = d.channel) =
      (calls t').filter fun cb => cb.con.channel = d.channel) :
    ((calls t).filter fun cb => cb.con = d) = (calls t').filter fun cb => cb.con = d := by
  have key : ∀ l : List Callback, (l.filter fun cb => cb.con = d) =
      (l.filter fun cb => cb.con.channel = d.channel).filter fun cb => cb.con = d := by
    intro l
    rw [List.filter_filter]
    refine List.filter_congr fun cb _ => ?_
    by_cases hd : cb.con = d
    · simp [hd]
    · simp [hd]
  rw [key (calls t), h, ← key]

/-- A callback of another channel leaves the room and the post of a channel as they are. -/
theorem other_channel {guard : Clients → Trace → Input → Prop} {t : Trace} {cb : Callback}
    {ev : List Event} (hrun : Run (weh.inline it) guard ∅ t m)
    (hstep : weh.inline it m (cb, env) = some (m', ev)) (hch : cb.con.channel ≠ ch) :
    m'.get ch = m.get ch ∧
      post ch ((t ++ [((cb, env), ev)]).flatMap (·.2)) = post ch (t.flatMap (·.2)) := by
  have he := handle_effect hstep
  refine ⟨he.get_of_ne hch.symm, ?_⟩
  rw [List.flatMap_append, post_append, List.flatMap_singleton,
    he.post_of_ne (placed_of_run hrun) hch,
    List.append_nil]

/-- **Channels do not interfere.** Two plain runs, with the same authenticator, liveness and key
order, whose callbacks on the connections of a channel are the same, send each of these connections
the same. -/
theorem mail_eq_of_runs {auth : String → String}
    {live : Connection → List Callback → Option Callback → Bool} (hr : ∀ a b, r a b → r b a → a = b)
    {t t' : Trace} (h : Run (weh.inline .plain) (outside auth live r) ∅ t m)
    (h' : Run (weh.inline .plain) (outside auth live r) ∅ t' m')
    (hcalls : ((calls t).filter fun cb => cb.con.channel = ch) =
      (calls t').filter fun cb => cb.con.channel = ch) (d : Connection) (hd : d.channel = ch) :
    mail d t = mail d t' := by
  have hobs := hcalls
  rw [← filterMap_inputs, ← filterMap_inputs] at hobs
  have hposts := Run.unwinding (R := fun t m t' m' => RoomsAlike ch (m.get ch) (m'.get ch) ∧
    post ch (t.flatMap (·.2)) = post ch (t'.flatMap (·.2))) ?_ ?_ ?_ ?_ h h' hobs
  · rw [mail_eq, mail_eq, hd, hposts.2]
  · exact ⟨related_empty, rfl⟩
  · rintro t₁ m₁ t₂ m₂ ⟨cb, env⟩ m₁' ev hrun ⟨hroom, hpost⟩ hstep hcb
    have hch : cb.con.channel ≠ ch := fun h => by simp [h] at hcb
    obtain ⟨hget, hsame⟩ := other_channel hrun hstep hch
    rw [hget, hsame]
    exact ⟨hroom, hpost⟩
  · rintro t₁ m₁ t₂ m₂ ⟨cb, env⟩ m₁' ev hrun ⟨hroom, hpost⟩ hstep hcb
    have hch : cb.con.channel ≠ ch := fun h => by simp [h] at hcb
    obtain ⟨hget, hsame⟩ := other_channel hrun hstep hch
    rw [hget, hsame]
    exact ⟨hroom, hpost⟩
  · rintro t₁ m₁ t₂ m₂ ⟨cb, env⟩ ⟨cb', env'⟩ m₁' ev m₂' ev' g hpast ⟨hroom, hpost⟩ ⟨ha, hl, ho⟩
      ⟨ha', hl', ho'⟩ hstep hstep' hcb hcb'
    simp only [Option.ite_none_right_eq_some, Option.some.injEq] at hcb hcb'
    obtain ⟨rfl, rfl⟩ := hcb
    obtain ⟨-, rfl⟩ := hcb'
    rw [filterMap_inputs, filterMap_inputs] at hpast
    have he : EnvsAlike r cb'.con.channel env env' := by
      refine ⟨ha.trans ha'.symm, fun d hd => ?_, ho, ho'⟩
      rw [← hd] at hpast
      exact (hl d).trans ((own_calls hpast) ▸ (hl' d).symm)
    have hs := handle_same hr he hroom hstep hstep'
    refine ⟨hs.rooms, ?_⟩
    rw [List.flatMap_append, List.flatMap_append, post_append, post_append, hpost,
      List.flatMap_singleton, List.flatMap_singleton]
    exact congrArg _ hs.post

/-! ## Two concrete runs -/

/-- A client of the channel `room2`. -/
def clientC : Connection := ⟨2, "10.0.0.3", 5000, "room=2"⟩

/-- The handler with neither authenticator nor logger nor pool. -/
def unsecured : WssEndpointHandler := ⟨false, false, false, fun _ => ""⟩

/-- The arrangement that keeps the nodes sorted by key. -/
def sortedNodes : UMap.Arrangement String SocketClient where
  order := List.insertionSort fun n n' => n.1 ≤ n'.1
  perm := List.perm_insertionSort _

/-- Every connection is alive, and clients are sorted. -/
def sorted : Env := { steady with clientNodes := sortedNodes }

theorem inOrder_sortedNodes : InOrder (· ≤ ·) sortedNodes := by
  intro l _
  have h := List.pairwise_insertionSort (fun n n' : (Σ _ : String, SocketClient) => n.1 ≤ n'.1) l
  exact List.pairwise_map.2 h

/-- A conversation in `room1`, alone and with a client of `room2` in between. -/
theorem mail_eq_of_runs_room1 : ∃ t t', mail clientB t = [.send clientB ("MESSAGE" ++ "hi")] ∧
    (calls t').length = 6 ∧ mail clientB t = mail clientB t' := by
  have hout : ∀ l : List Callback, ∀ i ∈ l.map fun cb => (cb, sorted), ∀ m t,
      outside nameOf (fun _ _ _ => true) (· ≤ ·) m t i := by
    intro l i hi m t
    obtain ⟨cb, -, rfl⟩ := List.mem_map.1 hi
    exact ⟨rfl, fun _ => rfl, inOrder_sortedNodes⟩
  obtain ⟨t, m, h, hi, hp⟩ := Run.exists_of_replay (unsecured.inline .plain) anyCallback ∅
    ([Callback.onOpen clientA, .onOpen clientB, .onMessage clientA "hi"].map fun cb => (cb, sorted))
    (fun t _ => decide (mail clientB t = [.send clientB ("MESSAGE" ++ "hi")] ∧
      ((calls t).filter fun cb => cb.con.channel = "room1") =
        [.onOpen clientA, .onOpen clientB, .onMessage clientA "hi"])) (by decide)
  obtain ⟨t', m', h', hi', hp'⟩ := Run.exists_of_replay (unsecured.inline .plain) anyCallback ∅
    ([Callback.onOpen clientC, .onOpen clientA, .onMessage clientC "x", .onOpen clientB,
      .onClose clientC, .onMessage clientA "hi"].map fun cb => (cb, sorted))
    (fun t _ => decide ((calls t).length = 6 ∧
      ((calls t).filter fun cb => cb.con.channel = "room1") =
        [.onOpen clientA, .onOpen clientB, .onMessage clientA "hi"])) (by decide)
  obtain ⟨hmail, hc⟩ := of_decide_eq_true hp
  obtain ⟨hlen, hc'⟩ := of_decide_eq_true hp'
  refine ⟨t, t', hmail, hlen, ?_⟩
  exact mail_eq_of_runs (fun a b => le_antisymm) (h.of_inputs fun i h => hout _ i (hi ▸ h))
    (h'.of_inputs fun i h => hout _ i (hi' ▸ h)) (hc.trans hc'.symm) clientB (by decide)

end CppFrame.Server
