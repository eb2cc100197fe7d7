import CppFrame.Server.Contract

/-!
# Erasing while walking

Under the checked reading of the loops a handler function returns `none` when a loop increments an
iterator whose node is gone. The recipients' loop of `broadcast`, its sweep of empty channels and
the loop of `send_channel_presence` each erase the node they stand on, so they end exactly when they
find nothing to erase. Summed up over the handlers this is `NothingToPrune`, a condition on the
registry before the callback, and a sequence of callbacks runs to its end exactly when the condition
holds each time (`loops_end_iff`).
-/

namespace CppFrame.Server

open RangeFor UMap WssEndpointHandler

/-- Everyone in the room of `con` that `p` picks out, `con` left aside, can be locked. -/
def OthersLock (env : Env) (m : Clients) (con : Connection) (p : SocketClient → Bool) : Prop :=
  ∀ n ∈ (m.get con.channel).entries, n.1 ≠ con.clientKey → p n.2 = true →
    (n.2.lock env).isSome = true

/-- No channel but that of `con` is empty. -/
def OthersInhabited (m : Clients) (con : Connection) : Prop :=
  ∀ n ∈ m.entries, n.1 ≠ con.channel → n.2.isEmpty = false

/-- No loop of the callback finds a node to erase: everyone it sends to can be locked, and a
broadcast finds no empty channel. -/
def NothingToPrune (weh : WssEndpointHandler) (env : Env) (m : Clients) : Callback → Prop
  | .onMessage con msg =>
    (handling weh env m con msg = .accepted →
      (((m.get con.channel).get con.clientKey).lock env).isSome = true ∧
        OthersLock env m con (·.authenticated)) ∧
    (handling weh env m con msg = .broadcast →
      OthersLock env m con (fun c => !weh.authenticator || c.authenticated) ∧
        OthersInhabited m con)
  | .onClose con =>
    con.channel ≠ "" → asks weh m con = false → OthersLock env m con (·.authenticated)
  | _ => True

variable {weh : WssEndpointHandler} {env : Env} {m : Clients}

/-! ## The loops -/

/-- A client that was removed is not found again. -/
theorem removeClient_notMem (weh : WssEndpointHandler) (env : Env) (m : Clients)
    (ch k why : String) :
    ((weh.removeClient env ch k why m).1.lookup ch).any (k ∈ ·) = false := by
  have h := get_removeClient weh env m ch k why ch
  rw [if_pos rfl] at h
  cases hl : (weh.removeClient env ch k why m).1.lookup ch with
  | none => rfl
  | some room =>
    rw [UMap.get, hl, Option.getD_some] at h
    subst h
    rw [Option.any_some, decide_eq_false_iff_not, ← AList.lookup_eq_none]
    exact AList.lookup_erase k _

theorem broadcastTo_state {message key ch k : String} {c : SocketClient} :
    (goneInBroadcast weh env key k c = false → (weh.broadcastTo env message key ch k c m).1 = m) ∧
    (goneInBroadcast weh env key k c = true →
      ((weh.broadcastTo env message key ch k c m).1.lookup ch).any (k ∈ ·) = false) := by
  rw [broadcastTo_fst]
  refine ⟨fun h => by rw [h]; rfl, fun h => ?_⟩
  rw [if_pos h]
  exact removeClient_notMem weh env m ch k _

theorem presenceTo_state {ch k : String} {c : SocketClient} :
    (goneInPresence env k c = false → (weh.presenceTo env ch k c m).1 = m) ∧
    (goneInPresence env k c = true →
      ((weh.presenceTo env ch k c m).1.lookup ch).any (k ∈ ·) = false) := by
  rw [presenceTo_fst]
  refine ⟨fun h => by rw [h]; rfl, fun h => ?_⟩
  rw [if_pos h]
  exact removeClient_notMem weh env m ch k _

theorem sweep_state {k : String} {room : Channel} (hk : m.lookup k = some room) :
    (room.isEmpty = false → (sweep k room m).1 = m) ∧
    (room.isEmpty = true → (some (sweep k room m).1).any (k ∈ ·) = false) := by
  have hget : m.get k = room := by rw [UMap.get, hk]; rfl
  unfold WssEndpointHandler.sweep
  rw [hget]
  constructor
  · intro h
    rw [h]
    rfl
  · intro h
    rw [h, if_pos rfl, Option.any_some, decide_eq_false_iff_not, ← AList.lookup_eq_none]
    exact AList.lookup_erase k m

/-- The nodes of a room are found in the channel that is walked. -/
theorem mem_walked {ch : String} (hch : ch ∈ m) {n : Σ _ : String, SocketClient}
    (hn : n ∈ (m.get ch).entries) : (m.lookup ch).any (n.1 ∈ ·) = true := by
  obtain ⟨room, hr⟩ := Option.isSome_iff_exists.1 (AList.lookup_isSome.2 hch)
  rw [UMap.get, hr, Option.getD_some] at hn
  rw [hr, Option.any_some, decide_eq_true_eq, ← AList.lookup_isSome, mem_entries.1 hn]
  rfl

theorem sendChannelPresence_isSome (ch : String) (m : Clients) :
    (weh.sendChannelPresence .checked env ch m).isSome = true ↔
      ∀ n ∈ (m.get ch).entries, goneInPresence env n.1 n.2 = false := by
  unfold WssEndpointHandler.sendChannelPresence
  split_ifs with hch
  · exact rangeFor_checked_isSome (fun n hn => mem_walked hch hn)
      (fun n _ => presenceTo_state.1) fun n _ => presenceTo_state.2
  · have he : m.get ch = ∅ := by rw [UMap.get, AList.lookup_eq_none.2 hch]; rfl
    rw [he]
    exact iff_of_true rfl fun n hn => by cases hn

/-- The sweep of a broadcast, from the registry that it finds. -/
theorem sweep_isSome (m : Clients) :
    (rangeFor .checked some sweep m.entries m).isSome = true ↔
      ∀ n ∈ m.entries, n.2.isEmpty = false := by
  refine @rangeFor_checked_isSome _ _ _ _ _ some sweep (fun _ room => room.isEmpty) _ _
    (fun n hn => ?_) (fun n hn => (sweep_state (mem_entries.1 hn)).1)
    fun n hn => (sweep_state (mem_entries.1 hn)).2
  rw [Option.any_some, decide_eq_true_eq, ← AList.lookup_isSome, mem_entries.1 hn]
  rfl

theorem broadcast_isSome (message key ch : String) (m : Clients) :
    (weh.broadcast .checked env message key ch m).isSome = true ↔
      (∀ n ∈ (m.get ch).entries, goneInBroadcast weh env key n.1 n.2 = false) ∧
        ∀ n ∈ (m.index env.channelNodes ch).entries, n.2.isEmpty = false := by
  have hget : (m.index env.channelNodes ch).get ch = m.get ch := get_index _ _ _ _
  have hch : ch ∈ m.index env.channelNodes ch := mem_index _ _ _
  unfold WssEndpointHandler.broadcast
  dsimp only
  rw [← hget]
  generalize m.index env.channelNodes ch = m at hch
  have hrec : (rangeFor .checked (·.lookup ch) (weh.broadcastTo env message key ch)
      (m.get ch).entries m).isSome = true ↔
      ∀ n ∈ (m.get ch).entries, goneInBroadcast weh env key n.1 n.2 = false :=
    rangeFor_checked_isSome (fun n hn => mem_walked hch hn) (fun n _ => broadcastTo_state.1)
      fun n _ => broadcastTo_state.2
  by_cases hall : ∀ n ∈ (m.get ch).entries, goneInBroadcast weh env key n.1 n.2 = false
  · -- the recipients' loop ends where it began, so the sweep walks the registry as it was
    obtain ⟨r, hr⟩ := Option.isSome_iff_exists.1 (hrec.2 hall)
    have hm : r.1 = m := by
      rw [eq_visit hr, visit_of_const fun n hn => broadcastTo_state.1 (hall n hn)]
    rw [hr, Option.bind_some, Option.isSome_map, hm, sweep_isSome, and_iff_right hall]
  · rw [Option.not_isSome_iff_eq_none.1 (mt hrec.1 hall), Option.bind_none]
    exact iff_of_false Bool.false_ne_true fun h => hall h.1

/-! ## The handlers -/

/-- A test of a whole room that differs from the room of `con` at most in the entry of `con`. -/
theorem forall_room_iff (m : Clients) (con : Connection) {room : Channel}
    {P : String → SocketClient → Prop}
    (hroom : ∀ k, k ≠ con.clientKey → room.lookup k = (m.get con.channel).lookup k) :
    (∀ n ∈ room.entries, P n.1 n.2) ↔
      (∀ c, room.lookup con.clientKey = some c → P con.clientKey c) ∧
        ∀ n ∈ (m.get con.channel).entries, n.1 ≠ con.clientKey → P n.1 n.2 := by
  rw [forall_entries, forall_entries (P := fun k c => k ≠ con.clientKey → P k c)]
  constructor
  · intro h
    refine ⟨h con.clientKey, fun k c hk hne => h k c ?_⟩
    rw [hroom k hne, hk]
  · rintro ⟨hself, hothers⟩ k c hk
    by_cases hne : k = con.clientKey
    · subst hne
      exact hself c hk
    · exact hothers k c (hroom k hne ▸ hk) hne

theorem goneInPresence_eq_false {k : String} {c : SocketClient} :
    goneInPresence env k c = false ↔ (c.authenticated = true → (c.lock env).isSome = true) := by
  unfold goneInPresence
  cases c.authenticated <;> cases c.lock env <;> simp

theorem goneInBroadcast_eq_false {key k : String} {c : SocketClient} :
    goneInBroadcast weh env key k c = false ↔ (k ≠ key →
      (!weh.authenticator || c.authenticated) = true → (c.lock env).isSome = true) := by
  unfold goneInBroadcast receives
  by_cases hk : k = key
  · simp [hk]
  · cases (!weh.authenticator || c.authenticated) <;> cases c.lock env <;> simp [hk]

/-- The presence round after an accepted message. -/
theorem accepted_isSome {con : Connection} {name : String} :
    (weh.sendChannelPresence .checked env con.channel
      ((m.client env con.channel con.clientKey).modifyClient con.channel con.clientKey
        (·.accepted name))).isSome = true ↔
    (((m.get con.channel).get con.clientKey).lock env).isSome = true ∧
      OthersLock env m con (·.authenticated) := by
  rw [sendChannelPresence_isSome, get_modifyClient (mem_client env m _ _), if_pos rfl,
    (rooms_client env m con).self, forall_room_iff m con
      (P := fun k c => goneInPresence env k c = false)]
  · simp only [goneInPresence_eq_false, OthersLock, lookup_modify, if_true, lookup_roomOf_self,
      Option.map_some, Option.some.injEq, forall_eq']
    exact and_congr_left' ⟨fun h => h rfl, fun h _ => h⟩
  · intro k hk
    rw [lookup_modify, if_neg hk, lookup_roomOf, if_neg hk]

/-- The presence round after a close. -/
theorem announced_isSome {con : Connection} {why : String} :
    (weh.sendChannelPresence .checked env con.channel
      (weh.removeClient env con.channel con.clientKey
      why (m.client env con.channel con.clientKey)).1).isSome = true ↔
    OthersLock env m con (·.authenticated) := by
  rw [sendChannelPresence_isSome, get_removeClient, if_pos rfl, (rooms_client env m con).self,
    forall_room_iff m con (P := fun k c => goneInPresence env k c = false)]
  · simp only [goneInPresence_eq_false, OthersLock, lookup_erase, if_true, reduceCtorEq,
      false_implies, implies_true, true_and]
  · intro k hk
    rw [lookup_erase, if_neg hk, lookup_roomOf, if_neg hk]

/-- The recipients' loop and the sweep of a broadcast. -/
theorem broadcast_client_isSome {con : Connection} {message : String} :
    (weh.broadcast .checked env message con.clientKey con.channel
      (m.client env con.channel con.clientKey)).isSome = true ↔
    OthersLock env m con (fun c => !weh.authenticator || c.authenticated) ∧
      OthersInhabited m con := by
  rw [broadcast_isSome, index_of_mem (mem_client env m _ _), (rooms_client env m con).self]
  refine and_congr ?_ ?_
  · rw [forall_room_iff m con
      (P := fun k c => goneInBroadcast weh env con.clientKey k c = false)]
    · simp only [goneInBroadcast_eq_false, OthersLock, ne_eq, not_true_eq_false, false_implies,
        implies_true, true_and]
      exact forall₂_congr fun n _ => ⟨fun h hk => h hk hk, fun h hk _ => h hk⟩
    · intro k hk
      rw [lookup_roomOf, if_neg hk]
  · have hself : isEmpty ((m.get con.channel).index env.clientNodes con.clientKey) = false := by
      rw [Bool.eq_false_iff, ne_eq, UMap.isEmpty_iff]
      intro h
      exact absurd (h con.clientKey) (by rw [lookup_index, if_pos rfl]; exact Option.some_ne_none _)
    unfold OthersInhabited
    rw [forall_entries (P := fun _ (room : Channel) => UMap.isEmpty room = false),
      forall_entries (P := fun k (room : Channel) => k ≠ con.channel → UMap.isEmpty room = false)]
    refine forall_congr' fun k => ?_
    rw [lookup_client]
    split_ifs with hk
    · simp [hk, hself]
    · simp [hk]

theorem nothingToPrune_of_handling {con : Connection} {msg : String}
    (ha : handling weh env m con msg ≠ .accepted) (hb : handling weh env m con msg ≠ .broadcast) :
    NothingToPrune weh env m (.onMessage con msg) := ⟨fun h => absurd h ha, fun h => absurd h hb⟩

theorem onMessage_isSome (con : Connection) (msg : String) :
    (weh.onMessage .checked env con msg m).isSome = true ↔
      NothingToPrune weh env m (.onMessage con msg) := by
  have hr := rooms_client env m con
  have hcons : Considered con msg ↔ ¬ msg.length > 1000000 ∧ ¬ con.channel.isEmpty = true := by
    rw [Considered, isEmpty_iff_eq, gt_iff_lt, not_lt]
  unfold WssEndpointHandler.onMessage
  dsimp only
  rw [hr.self, get_roomOf]
  split_ifs with hl hch ha hn hd
  · have hh : handling weh env m con msg = .ignored := if_neg fun hc => (hcons.1 hc).1 hl
    exact iff_of_true rfl (nothingToPrune_of_handling (by simp [hh]) (by simp [hh]))
  · have hh : handling weh env m con msg = .ignored := if_neg fun hc => (hcons.1 hc).2 hch
    exact iff_of_true rfl (nothingToPrune_of_handling (by simp [hh]) (by simp [hh]))
  all_goals have hc := hcons.2 ⟨hl, hch⟩
  · have hh := (handling_of_asks hc ha).trans (if_pos ((isEmpty_iff_eq _).1 hn))
    exact iff_of_true rfl (nothingToPrune_of_handling (by simp [hh]) (by simp [hh]))
  · have hh := (handling_of_asks hc ha).trans (if_neg (mt (isEmpty_iff_eq _).2 hn))
    rw [Option.isSome_map]
    refine accepted_isSome.trans ?_
    simp [NothingToPrune, hh]
  · have hh : handling weh env m con msg = .dumped := by
      simp only [Bool.and_eq_true, Bool.or_eq_true, decide_eq_true_eq, or_assoc, and_assoc] at hd
      exact (if_pos hc).trans ((if_neg ha).trans (if_pos hd))
    exact iff_of_true rfl (nothingToPrune_of_handling (by simp [hh]) (by simp [hh]))
  · have hh : handling weh env m con msg = .broadcast := by
      simp only [Bool.and_eq_true, Bool.or_eq_true, decide_eq_true_eq, or_assoc, and_assoc] at hd
      exact (if_pos hc).trans ((if_neg ha).trans (if_neg hd))
    refine broadcast_client_isSome.trans ?_
    simp [NothingToPrune, hh]

theorem onClose_isSome (con : Connection) :
    (weh.onClose .checked env con m).isSome = true ↔ NothingToPrune weh env m (.onClose con) := by
  have hr := rooms_client env m con
  unfold WssEndpointHandler.onClose NothingToPrune
  dsimp only
  rw [hr.self, get_roomOf]
  split_ifs with hch ha
  · exact iff_of_true rfl fun hne => absurd ((isEmpty_iff_eq _).1 hch) hne
  · have hasks : asks weh m con = false := by
      unfold asks
      revert ha
      cases weh.authenticator <;> simp
    rw [Option.isSome_map, announced_isSome]
    exact ⟨fun h _ _ => h, fun h => h (mt (isEmpty_iff_eq _).2 hch) hasks⟩
  · refine iff_of_true rfl fun _ h => absurd ?_ ha
    revert h
    unfold asks
    cases weh.authenticator <;> simp

/-- **When the loops of a callback end** without the error outcome. -/
theorem handle_isSome (cb : Callback) :
    (weh.handle .checked env m cb).isSome = true ↔ NothingToPrune weh env m cb := by
  cases cb with
  | onMessage con msg => exact onMessage_isSome con msg
  | onOpen con => exact iff_of_true rfl trivial
  | onClose con => exact onClose_isSome con
  | onError con ec => exact iff_of_true rfl trivial

/-! ## Runs -/

/-- **A sequence of callbacks runs to its end** with all loops ending well exactly when, each time,
no loop finds anything to prune. -/
theorem loops_end_iff (weh : WssEndpointHandler) (is : List Input) :
    (∃ t m, Run (weh.inline .checked) anyCallback ∅ t m ∧ Run.inputs t = is) ↔
      ∀ p i q t m, is = p ++ i :: q → Run (weh.inline .checked) anyCallback ∅ t m →
        Run.inputs t = p → NothingToPrune weh i.2 m i.1 :=
  Run.exists_inputs_iff (fun m i =>
    (handle_isSome i.1 : (weh.inline .checked m i).isSome = true ↔ _))
    (fun _ _ _ => trivial) is

/-- A client that was kicked and is accepted after all makes the presence round fail. -/
theorem presence_round_fails : ¬ ∀ (t : Trace) (m : Clients),
    Run (secured.inline .checked) anyCallback ∅ t m →
      ∀ i, (secured.inline .checked m i).isSome = true := by
  intro hall
  obtain ⟨t, m, hr, -, hp⟩ := Run.exists_of_replay (secured.inline .checked) anyCallback ∅
    (callsOf [.onOpen clientA, .onMessage clientA "wrong"])
    (fun _ m => !(secured.inline .checked m (.onMessage clientA "Ann", steady)).isSome) (by decide)
  rw [hall t m hr] at hp
  cases hp

end CppFrame.Server
