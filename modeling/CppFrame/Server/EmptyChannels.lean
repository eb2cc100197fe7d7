import CppFrame.Server.Authorisation

/-!
# No empty channels

Channels are made by `operator[]` and go with their last client in `remove_client`, and a broadcast
drops the empty ones. `Tidy` says that every channel has a client and an alphanumeric name. Every
callback keeps it but for a rejected message: that erases the entry of its sender and leaves the
channel, so it keeps `Tidy` exactly where somebody else is in the channel (`tidy_of_run`).
-/

namespace CppFrame.Server

open RangeFor UMap

/-- A name that the handler accepts for a channel. -/
def Named (ch : String) : Prop := ch ≠ "" ∧ ∀ c ∈ ch.toList, c.isAlphanum = true

instance (ch : String) : Decidable (Named ch) :=
  haveI : Decidable (∀ c ∈ ch.toList, c.isAlphanum = true) := List.decidableBAll _ _
  inferInstanceAs (Decidable (ch ≠ "" ∧ ∀ c ∈ ch.toList, c.isAlphanum = true))

/-- Every channel has a name and at least one client. -/
def Tidy (m : Clients) : Prop :=
  ∀ ch room, m.lookup ch = some room → Named ch ∧ room.isEmpty = false

/-- A message that is rejected comes from a channel in which somebody else has an entry. -/
def rejectsInCompany (weh : WssEndpointHandler) (m : Clients) (_ : Trace) (i : Input) : Prop :=
  match i.1 with
  | .onMessage con msg => handling weh i.2 m con msg = .rejected →
      ∃ n ∈ (m.get con.channel).entries, n.1 ≠ con.clientKey
  | _ => True

variable {weh : WssEndpointHandler} {it : Iteration} {env : Env} {m m' : Clients} {con : Connection}

theorem named_channel (h : con.channel ≠ "") : Named con.channel := by
  refine ⟨h, fun c hc => ?_⟩
  rw [Connection.channel, String.toList_ofList] at hc
  exact (List.mem_filter.1 hc).2

theorem tidy_empty : Tidy ∅ := by
  intro ch room h
  cases h

theorem isEmpty_eq_false {room : Channel} {k : String} {c : SocketClient}
    (h : room.lookup k = some c) :
    room.isEmpty = false := by
  rw [Bool.eq_false_iff]
  intro he
  rw [isEmpty_iff.1 he k] at h
  cases h

/-- A registry with one more room that has a client, under a name. -/
theorem Tidy.set {ch : String} {room : Channel} (hm : Tidy m) (hch : Named ch)
    (hroom : room.isEmpty = false)
    (h : ∀ ch', m'.lookup ch' = if ch' = ch then some room else m.lookup ch') : Tidy m' := by
  intro ch' room' hl
  rw [h] at hl
  split_ifs at hl with hk
  · cases hl
    exact ⟨hk ▸ hch, hroom⟩
  · exact hm ch' room' hl

theorem Tidy.erase (hm : Tidy m) (ch : String) : Tidy (m.erase ch) := by
  intro ch' room hl
  rw [lookup_erase] at hl
  split_ifs at hl
  exact hm ch' room hl

/-! ## The functions -/

theorem Tidy.client (hm : Tidy m) (hc : con.channel ≠ "") :
    Tidy (m.client env con.channel con.clientKey) := by
  refine hm.set (named_channel hc) ?_ fun ch => lookup_client m _ _ ch
  exact isEmpty_eq_false ((lookup_index _ _ _ _).trans (if_pos rfl))

/-- `remove_client` leaves a channel only where it leaves a client in it. -/
theorem lookup_removeClient (weh : WssEndpointHandler) (env : Env) (m : Clients)
    (ch k why ch' : String) :
    (weh.removeClient env ch k why m).1.lookup ch' =
      if ch' = ch then
        if UMap.isEmpty ((m.get ch).erase k) then none else some ((m.get ch).erase k)
      else m.lookup ch' := by
  have hroom := get_modify_index env.channelNodes ch ch (·.erase k) m
  rw [if_pos rfl] at hroom
  unfold WssEndpointHandler.removeClient
  dsimp only
  rw [hroom]
  by_cases he : UMap.isEmpty ((m.get ch).erase k) = true
  · rw [if_pos he, if_pos he, lookup_erase]
    split_ifs with hk
    · rfl
    · rw [lookup_modify, if_neg hk, lookup_index, if_neg hk]
  · rw [if_neg he, if_neg he, lookup_modify, lookup_index, if_pos rfl, lookup_index]
    split_ifs with hk
    · rfl
    · rfl

theorem Tidy.removeClient (hm : Tidy m) (ch k why : String) :
    Tidy (weh.removeClient env ch k why m).1 := by
  intro ch' room hl
  rw [lookup_removeClient] at hl
  split_ifs at hl with hk he
  · cases hl
    refine ⟨?_, Bool.eq_false_iff.2 he⟩
    -- the room has a client, so the channel was there before
    cases hch : m.lookup ch with
    | none =>
      rw [UMap.get, hch] at he
      exact absurd rfl he
    | some room => exact hk ▸ (hm ch room hch).1
  · exact hm ch' room hl

theorem Tidy.visit {body : String → SocketClient → Clients → Clients × List Event}
    (hbody : ∀ k c m, Tidy m → Tidy (body k c m).1) {l : List (Σ _ : String, SocketClient)}
    (hm : Tidy m) :
    Tidy (visit body l m).1 :=
  (visit_induction (I := Tidy) (Q := fun _ => True)
    (fun k c m _ h => ⟨hbody k c m h, fun _ _ => trivial⟩) hm).1

theorem Tidy.presenceTo (ch k : String) (c : SocketClient) (m : Clients) (hm : Tidy m) :
    Tidy (weh.presenceTo env ch k c m).1 := by
  rw [presenceTo_fst]
  split_ifs
  · exact hm.removeClient ch k _
  · exact hm

theorem Tidy.broadcastTo (message key ch k : String) (c : SocketClient) (m : Clients)
    (hm : Tidy m) :
    Tidy (weh.broadcastTo env message key ch k c m).1 := by
  rw [broadcastTo_fst]
  split_ifs
  · exact hm.removeClient ch k _
  · exact hm

theorem Tidy.sendChannelPresence {ch : String} {r : Clients × List Event}
    (h : weh.sendChannelPresence it env ch m = some r) (hm : Tidy m) : Tidy r.1 := by
  unfold WssEndpointHandler.sendChannelPresence at h
  split_ifs at h
  · rw [eq_visit h]
    exact hm.visit (Tidy.presenceTo ch)
  · cases h
    exact hm

theorem Tidy.broadcast {message key ch : String} {r : Clients × List Event} (hch : ch ∈ m)
    (h : weh.broadcast it env message key ch m = some r) (hm : Tidy m) : Tidy r.1 := by
  unfold WssEndpointHandler.broadcast at h
  obtain ⟨r₁, h₁, h⟩ := Option.bind_eq_some_iff.1 h
  obtain ⟨r₂, h₂, rfl⟩ := Option.map_eq_some_iff.1 h
  rw [index_of_mem hch] at h₁
  rw [eq_visit h₂, eq_visit h₁]
  refine (visit_induction (I := Tidy) (Q :=
    fun _ => True) (fun k _ m _ h => ⟨?_, fun _ _ => trivial⟩)
    (hm.visit (Tidy.broadcastTo message key ch))).1
  unfold WssEndpointHandler.sweep
  dsimp only
  split_ifs
  · exact h.erase k
  · exact h

theorem Tidy.modifyClient (hm : Tidy m) (ch k : String) (f : SocketClient → SocketClient) :
    Tidy (m.modifyClient ch k f) := by
  intro ch' room hl
  rw [Clients.modifyClient, lookup_modify] at hl
  split_ifs at hl with hk
  · obtain ⟨room₀, hroom, rfl⟩ := Option.map_eq_some_iff.1 hl
    obtain ⟨hn, he⟩ := hm ch room₀ hroom
    refine ⟨hk ▸ hn, ?_⟩
    unfold UMap.isEmpty at he ⊢
    rw [entries_modify, modifyNodes, List.isEmpty_map]
    exact he
  · exact hm ch' room hl

/-! ## The callbacks -/

/-- A message keeps the registry tidy unless it is rejected and its sender was alone. -/
theorem Tidy.onMessage {msg : String} {ev : List Event} (hm : Tidy m)
    (hg : handling weh env m con msg = .rejected → ∃ n ∈ (m.get con.channel).entries,
      n.1 ≠ con.clientKey)
    (h : weh.onMessage it env con msg m = some (m', ev)) : Tidy m' := by
  have hr := rooms_client env m con
  unfold WssEndpointHandler.onMessage at h
  dsimp only at h
  rw [hr.self, get_roomOf] at h
  split_ifs at h with hl hch ha hn hd
  · cases h
    exact hm
  · cases h
    exact hm
  all_goals have hc : con.channel ≠ "" := fun he => hch ((isEmpty_iff_eq _).2 he)
  all_goals have hclient : Tidy (m.client env con.channel con.clientKey) := hm.client hc
  · cases h
    have hrej : handling weh env m con msg = .rejected := by
      rw [handling_of_asks ⟨by omega, hc⟩ ha, if_pos ((isEmpty_iff_eq _).1 hn)]
    obtain ⟨⟨k, c⟩, hk, hne⟩ := hg hrej
    have hleft : ((roomOf env m con).erase con.clientKey).lookup k = some c := by
      rw [lookup_erase, if_neg hne, lookup_roomOf, if_neg hne, mem_entries.1 hk]
    refine hm.set (named_channel hc) (isEmpty_eq_false hleft) fun ch => ?_
    rw [lookup_modify, lookup_client, if_pos rfl, lookup_client]
    split_ifs with hk
    · rfl
    · rfl
  · obtain ⟨r, hp, he⟩ := Option.map_eq_some_iff.1 h
    cases he
    exact (hclient.modifyClient _ _ _).sendChannelPresence hp
  · cases h
    exact hclient
  · exact hclient.broadcast (mem_client env m _ _) h

theorem Tidy.onOpen (hm : Tidy m) (con : Connection) : Tidy (weh.onOpen env con m).1 := by
  unfold WssEndpointHandler.onOpen
  split_ifs with hch
  · exact hm
  · exact (hm.client fun he => hch ((isEmpty_iff_eq _).2 he)).modifyClient _ _ _

theorem Tidy.onClose {ev : List Event} (hm : Tidy m)
    (h : weh.onClose it env con m = some (m', ev)) :
    Tidy m' := by
  unfold WssEndpointHandler.onClose at h
  dsimp only at h
  split_ifs at h with hch ha
  · cases h
    exact hm
  all_goals
    have hleft : Tidy (weh.removeClient env con.channel con.clientKey "on close"
        (m.client env con.channel con.clientKey)).1 :=
      (hm.client fun he => hch ((isEmpty_iff_eq _).2 he)).removeClient _ _ _
  · obtain ⟨r, hp, he⟩ := Option.map_eq_some_iff.1 h
    cases he
    exact hleft.sendChannelPresence hp
  · cases h
    exact hleft

theorem Tidy.handle {cb : Callback} {ev : List Event} {t : Trace} (hm : Tidy m)
    (hg : rejectsInCompany weh m t (cb, env)) (h : weh.handle it env m cb = some (m', ev)) :
    Tidy m' := by
  cases cb with
  | onMessage con msg => exact hm.onMessage hg h
  | onOpen con =>
    obtain ⟨rfl, -⟩ := Prod.mk.inj (Option.some.inj h)
    exact hm.onOpen con
  | onClose con => exact hm.onClose h
  | onError con ec =>
    obtain ⟨rfl, -⟩ := Prod.mk.inj (Option.some.inj h)
    exact hm.removeClient _ _ _

/-- **No empty channels are kept** in a run in which no client is rejected that is alone in its
channel. -/
theorem tidy_of_run {t : Trace} (h : Run (weh.inline it) (rejectsInCompany weh) ∅ t m) :
    Tidy m := by
  refine h.invariant (P := fun _ m => Tidy m) tidy_empty ?_
  intro t m i m' ev hm hg hstep
  exact hm.handle hg hstep

instance (m : Clients) (t : Trace) (i : Input) : Decidable (rejectsInCompany weh m t i) :=
  match i with
  | (.onMessage .., _) | (.onOpen _, _) | (.onClose _, _) | (.onError .., _) => by
    unfold rejectsInCompany; infer_instance

/-- A client is rejected while another one is in the channel, which then closes. -/
theorem tidy_of_run_rejected : ∃ t m, Run (secured.inline .plain) (rejectsInCompany secured) ∅ t m ∧
    shown t = [(.onOpen clientA, []), (.onOpen clientB, []), (.onMessage clientA "wrong",
      [.authenticator "wrong" "", .sendClose clientA 3000 "Authentication Failed"])] ∧ Tidy m := by
  obtain ⟨t, m, h, -, hp⟩ := Run.exists_of_replay (secured.inline .plain)
    (rejectsInCompany secured) ∅
    (callsOf [.onOpen clientA, .onOpen clientB, .onMessage clientA "wrong"])
    (fun t _ => decide (shown t = [(.onOpen clientA, []), (.onOpen clientB, []),
      (.onMessage clientA "wrong",
        [.authenticator "wrong" "", .sendClose clientA 3000 "Authentication Failed"])])) (by decide)
  exact ⟨t, m, h, of_decide_eq_true hp, tidy_of_run h⟩

/-- A rejected client that was alone leaves an empty channel. -/
theorem empty_channel_kept : ¬ ∀ (t : Trace) (m : Clients),
    Run (secured.inline .plain) anyCallback ∅ t m → Tidy m := by
  intro hall
  obtain ⟨t, m, h, -, hp⟩ := Run.exists_of_replay (secured.inline .plain) anyCallback ∅
    (callsOf [.onOpen clientA, .onMessage clientA "wrong"])
    (fun _ m => (m.lookup "room1").any UMap.isEmpty) (by decide)
  obtain ⟨room, hroom, he⟩ := (Option.any_eq_true _ _).1 hp
  exact absurd he (Bool.eq_false_iff.1 (hall t m h "room1" room hroom).2)

end CppFrame.Server
