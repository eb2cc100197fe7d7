import CppFrame.Server.Spec
import Mathlib.Data.List.Forall2

/-!
# What the clock changes

The handler reads the clock in `on_open`, for the time of the connection, and writes that time
nowhere but in the dump of all clients. Two registries are `SameButTimes` where they hold the same
clients in the same order but for these times. Two environments that differ in the clock at most
(`SameButClock`) make a callback do the same to two such registries, but for the times in a dump
(`handle_sameButTimes`).
-/

namespace CppFrame.Server

open RangeFor UMap WssEndpointHandler

/-! ## Registries, environments and events -/

/-- Two clients that differ at most in the time of the connection. -/
structure SameClient (c c' : SocketClient) : Prop where
  connection : c.connection = c'.connection
  authenticated : c.authenticated = c'.authenticated
  name : c.name = c'.name

/-- Two registries with the same clients in the same order, but for the times of the connections. -/
abbrev SameButTimes : Clients → Clients → Prop := Related (Related SameClient)

/-- The same connections are alive, the authenticator answers the same, and new nodes go to the same
places. -/
structure SameButClock (env env' : Env) : Prop where
  alive : env.alive = env'.alive
  authenticator : env.authenticator = env'.authenticator
  clientNodes : env.clientNodes.SamePlaces env'.clientNodes
  channelNodes : env.channelNodes.SamePlaces env'.channelNodes

/-- The same is done to the outside, but for the times in a dump. -/
inductive SameEvent (weh : WssEndpointHandler) : Event → Event → Prop
  | same (e : Event) : SameEvent weh e e
  | dump (con : Connection) {m m' : Clients} (h : SameButTimes m m') :
      SameEvent weh (.send con (weh.getAllClientsInJson m)) (.send con (weh.getAllClientsInJson m'))

/-- Two results that are the same but for times. -/
structure SameResult (weh : WssEndpointHandler) (x x' : Clients × List Event) : Prop where
  clients : SameButTimes x.1 x'.1
  events : List.Forall₂ (SameEvent weh) x.2 x'.2

variable {weh : WssEndpointHandler} {it : Iteration} {env env' : Env} {m m' : Clients}
  {room room' : Channel} {x x' : Clients × List Event}

theorem sameClient_default : SameClient default default := ⟨rfl, rfl, rfl⟩

theorem SameButTimes.get (h : SameButTimes m m') (ch : String) :
    Related SameClient (m.get ch) (m'.get ch) := Related.get h related_empty ch

theorem SameClient.lock {c c' : SocketClient} (he : SameButClock env env') (h : SameClient c c') :
    c.lock env = c'.lock env' := by
  unfold SocketClient.lock
  rw [h.connection, he.alive]

theorem sameEvents_self (ev : List Event) : List.Forall₂ (SameEvent weh) ev ev :=
  List.forall₂_same.2 fun e _ => .same e

/-- What follows events that are the same but for times. -/
theorem SameResult.after {ev ev' : List Event} (h : SameResult weh x x')
    (hev : List.Forall₂ (SameEvent weh) ev ev') :
    SameResult weh (x.1, ev ++ x.2) (x'.1, ev' ++ x'.2) :=
  ⟨h.clients, List.rel_append hev h.events⟩

/-! ## The functions of the handler -/

/-- The presence message says nothing of times. -/
theorem presenceJson_eq_of_related (h : Related SameClient room room') (k : String) :
    presenceJson k room.entries = presenceJson k room'.entries := by
  have key : ∀ acc, room.entries.foldl (presenceEntry k) acc =
      room'.entries.foldl (presenceEntry k) acc := by
    have hf := h.forall₂
    generalize room.entries = l at hf
    generalize room'.entries = l' at hf
    induction hf with
    | nil => exact fun _ => rfl
    | @cons n n' l l' hn _ ih =>
      intro acc
      have hn' : presenceEntry k acc n = presenceEntry k acc n' := by
        unfold presenceEntry getPresenceJson
        rw [hn.1, hn.2.authenticated, hn.2.name]
      rw [List.foldl_cons, List.foldl_cons, hn', ih]
  unfold presenceJson
  rw [key]

theorem client_sameButTimes (he : SameButClock env env') (h : SameButTimes m m') (ch k : String) :
    SameButTimes (m.client env ch k) (m'.client env' ch k) :=
  (h.index_samePlaces he.channelNodes related_empty ch).modify ch fun _ _ hroom =>
    hroom.index_samePlaces he.clientNodes sameClient_default k

theorem modifyClient_sameButTimes (h : SameButTimes m m') (ch k : String)
    {f f' : SocketClient → SocketClient} (hf : ∀ c c', SameClient c c' → SameClient (f c) (f' c')) :
    SameButTimes (m.modifyClient ch k f) (m'.modifyClient ch k f') :=
  h.modify ch fun _ _ hroom => hroom.modify k hf

theorem removeClient_sameButTimes (weh : WssEndpointHandler) (he : SameButClock env env')
    (h : SameButTimes m m') (ch k why : String) :
    SameResult weh (weh.removeClient env ch k why m) (weh.removeClient env' ch k why m') := by
  have hm := (h.index_samePlaces he.channelNodes related_empty ch).modify ch
    fun _ _ hroom => hroom.erase k
  refine ⟨?_, sameEvents_self _⟩
  unfold removeClient
  dsimp only
  rw [(SameButTimes.get hm ch).isEmpty_eq]
  split_ifs
  · exact hm.erase ch
  · exact hm

theorem broadcastTo_sameButTimes (weh : WssEndpointHandler) (he : SameButClock env env')
    (message key ch k : String) {c c' : SocketClient} (hc : SameClient c c')
    (h : SameButTimes m m') :
    SameResult weh (weh.broadcastTo env message key ch k c m)
      (weh.broadcastTo env' message key ch k c' m') := by
  unfold broadcastTo receives
  rw [hc.authenticated, hc.lock he]
  split_ifs
  · cases c'.lock env' with
    | some d => exact ⟨h, sameEvents_self _⟩
    | none =>
      exact (removeClient_sameButTimes weh he h ch k "found inactive in broadcast.").after
        (sameEvents_self _)
  · exact ⟨h, .nil⟩

theorem presenceTo_sameButTimes (weh : WssEndpointHandler) (he : SameButClock env env')
    (ch k : String) {c c' : SocketClient} (hc : SameClient c c') (h : SameButTimes m m') :
    SameResult weh (weh.presenceTo env ch k c m) (weh.presenceTo env' ch k c' m') := by
  unfold presenceTo
  rw [hc.authenticated, hc.lock he, presenceJson_eq_of_related (h.get ch)]
  split_ifs
  · cases c'.lock env' with
    | some d => exact ⟨h, sameEvents_self _⟩
    | none => exact removeClient_sameButTimes weh he h ch k "found inactive in presence"
  · exact ⟨h, .nil⟩

theorem sweep_sameButTimes (weh : WssEndpointHandler) (k : String) {c c' : Channel}
    (h : SameButTimes m m') :
    SameResult weh (sweep k c m) (sweep k c' m') := by
  refine ⟨?_, .nil⟩
  unfold sweep
  rw [(h.get k).isEmpty_eq]
  split_ifs
  · exact h.erase k
  · exact h

/-- A loop over rooms or registries that are the same but for times. -/
theorem rangeFor_sameButTimes {α : Type} {walked : Clients → Option (UMap String α)}
    {E : α → α → Prop} {body body' : String → α → Clients → Clients × List Event}
    (hbody : ∀ k v v' s s', E v v' → SameButTimes s s' →
      SameResult weh (body k v s) (body' k v' s'))
    (hwalked : ∀ k s s', SameButTimes s s' → (walked s).any (k ∈ ·) = (walked s').any (k ∈ ·))
    {a a' : UMap String α} (ha : Related E a a') (h : SameButTimes m m') :
    Option.Rel (SameResult weh) (rangeFor it walked body a.entries m)
      (rangeFor it walked body' a'.entries m') := by
  have hrel : Option.Rel (fun r r' => SameButTimes r.1 r'.1 ∧ List.Forall₂ (SameEvent weh) r.2 r'.2)
      (rangeFor it walked body a.entries m) (rangeFor it walked body' a'.entries m') :=
    rangeFor_related (Q := List.Forall₂ (SameEvent weh)) .nil (fun h₁ h₂ => List.rel_append h₁ h₂)
      (fun k v v' s s' hv hs =>
      ⟨(hbody k v v' s s' hv hs).clients, (hbody k v v' s s' hv hs).events⟩) hwalked ha.forall₂ h
  generalize rangeFor it walked body a.entries m = r at hrel
  generalize rangeFor it walked body' a'.entries m' = r' at hrel
  cases hrel with
  | some hr => exact .some ⟨hr.1, hr.2⟩
  | none => exact .none

/-- Whether a client of a channel is there. -/
theorem lookup_any_eq (ch k : String) (h : SameButTimes m m') :
    (m.lookup ch).any (k ∈ ·) = (m'.lookup ch).any (k ∈ ·) := by
  cases hm : m.lookup ch with
  | none =>
    rw [AList.lookup_eq_none.2 (mt (h.mem_iff ch).2 (AList.lookup_eq_none.1 hm))]
  | some room =>
    obtain ⟨room', hm'⟩ := Option.isSome_iff_exists.1
      (AList.lookup_isSome.2 ((h.mem_iff ch).1 (AList.lookup_isSome.1 (hm ▸ rfl))))
    rw [hm', Option.any_some, Option.any_some, decide_eq_decide]
    exact (h.values ch room room' hm hm').mem_iff k

theorem sendChannelPresence_sameButTimes (weh : WssEndpointHandler) (he : SameButClock env env')
    (ch : String) (h : SameButTimes m m') :
    Option.Rel (SameResult weh) (weh.sendChannelPresence it env ch m)
      (weh.sendChannelPresence it env' ch m') := by
  unfold sendChannelPresence
  by_cases hm : ch ∈ m
  · rw [if_pos hm, if_pos ((h.mem_iff ch).1 hm)]
    exact rangeFor_sameButTimes (E := SameClient) (fun k _ _ _ _ hc hs =>
      presenceTo_sameButTimes weh he ch k hc hs)
      (fun k _ _ => lookup_any_eq ch k) (h.get ch) h
  · rw [if_neg hm, if_neg (mt (h.mem_iff ch).2 hm)]
    exact .some ⟨h, .nil⟩

theorem broadcast_sameButTimes (weh : WssEndpointHandler) (he : SameButClock env env')
    (message key ch : String) (h : SameButTimes m m') :
    Option.Rel (SameResult weh) (weh.broadcast it env message key ch m)
      (weh.broadcast it env' message key ch m') := by
  have hi : SameButTimes (m.index env.channelNodes ch) (m'.index env'.channelNodes ch) :=
    h.index_samePlaces he.channelNodes related_empty ch
  unfold broadcast
  refine rel_bind (P := SameResult weh) ?_ fun r r' hr => ?_
  · exact rangeFor_sameButTimes (E := SameClient)
      (fun k _ _ _ _ hc hs => broadcastTo_sameButTimes weh he message key ch k hc hs)
      (fun k _ _ => lookup_any_eq ch k) (hi.get ch) hi
  · refine rel_map (P := SameResult weh) ?_ fun q q' hq => hq.after hr.events
    exact rangeFor_sameButTimes (fun k _ _ _ _ _ hs => sweep_sameButTimes weh k hs)
      (fun k s s' hs => by simp [hs.mem_iff k]) hr.clients hr.clients

/-! ## The callbacks -/

theorem onMessage_sameButTimes (weh : WssEndpointHandler) (he : SameButClock env env')
    (con : Connection) (msg : String) (h : SameButTimes m m') :
    Option.Rel (SameResult weh) (weh.onMessage it env con msg m)
      (weh.onMessage it env' con msg m') := by
  have hm := client_sameButTimes he h con.channel con.clientKey
  have hc := Related.get (hm.get con.channel) sameClient_default con.clientKey
  unfold onMessage
  dsimp only
  rw [← hc.authenticated, ← hc.name, ← he.authenticator]
  split_ifs
  · exact .some ⟨h, sameEvents_self _⟩
  · exact .some ⟨h, .nil⟩
  · exact .some ⟨hm.modify con.channel fun _ _ hroom =>
      hroom.erase con.clientKey, sameEvents_self _⟩
  · have hacc : SameButTimes ((m.client env con.channel con.clientKey).modifyClient
      con.channel con.clientKey
          fun c => { c with authenticated := true, name := env.authenticator msg })
        ((m'.client env' con.channel con.clientKey).modifyClient con.channel con.clientKey
          fun c => { c with authenticated := true, name := env.authenticator msg }) :=
      modifyClient_sameButTimes hm _ _ fun _ _ hc => ⟨hc.connection, rfl, rfl⟩
    refine rel_map (sendChannelPresence_sameButTimes weh he con.channel hacc) fun r r' hr => ?_
    exact hr.after (sameEvents_self (_ :: _ :: weh.log _ _))
  · exact .some ⟨hm, .cons (.dump con hm) .nil⟩
  · exact broadcast_sameButTimes weh he _ con.clientKey con.channel hm

theorem onOpen_sameButTimes (weh : WssEndpointHandler) (he : SameButClock env env')
    (con : Connection) (h : SameButTimes m m') :
    SameResult weh (weh.onOpen env con m) (weh.onOpen env' con m') := by
  unfold onOpen
  split_ifs
  · exact ⟨h, sameEvents_self _⟩
  · refine ⟨modifyClient_sameButTimes (client_sameButTimes he h _ _)
      _ _ fun c c' hc => ?_, sameEvents_self _⟩
    exact ⟨rfl, rfl, hc.name⟩

theorem onClose_sameButTimes (weh : WssEndpointHandler) (he : SameButClock env env')
    (con : Connection) (h : SameButTimes m m') :
    Option.Rel (SameResult weh) (weh.onClose it env con m) (weh.onClose it env' con m') := by
  have hm := client_sameButTimes he h con.channel con.clientKey
  have hc := Related.get (hm.get con.channel) sameClient_default con.clientKey
  have hr := removeClient_sameButTimes weh he hm con.channel con.clientKey "on close"
  unfold onClose
  dsimp only
  rw [← hc.authenticated]
  split_ifs
  · exact .some ⟨h, .nil⟩
  · refine rel_map (sendChannelPresence_sameButTimes weh he con.channel hr.clients)
      fun r r' h' => ?_
    exact h'.after hr.events
  · exact .some hr

theorem onError_sameButTimes (weh : WssEndpointHandler) (he : SameButClock env env')
    (con : Connection) (ec : String) (h : SameButTimes m m') :
    SameResult weh (weh.onError env con ec m) (weh.onError env' con ec m') :=
  (removeClient_sameButTimes weh he h con.channel con.clientKey ("Connection Error " ++ ec)).after
    (sameEvents_self _)

/-- **The clock changes nothing but times.** In environments that differ in the clock at most, a
callback does the same to registries that are the same but for times: it leaves such registries, and
its events are the same but for the times in a dump. A loop that fails does so in both. -/
theorem handle_sameButTimes (weh : WssEndpointHandler) (he : SameButClock env env')
    (h : SameButTimes m m') (cb : Callback) :
    Option.Rel (SameResult weh) (weh.handle it env m cb) (weh.handle it env' m' cb) := by
  cases cb with
  | onMessage con msg => exact onMessage_sameButTimes weh he con msg h
  | onOpen con => exact .some (onOpen_sameButTimes weh he con h)
  | onClose con => exact onClose_sameButTimes weh he con h
  | onError con ec => exact .some (onError_sameButTimes weh he con ec h)

end CppFrame.Server
