import CppFrame.Server.Channels
import CppFrame.Server.EmptyChannels
import CppFrame.Server.Others

/-!
# Departures

What `on_close` tells those that stay. It announces a departure where no authenticator is set, or
where the client was authenticated. `send_channel_presence` tells only clients with the flag, which
without an authenticator nobody has (`unflagged_of_run`). So a departure is announced as it should
be exactly where an authenticator is set or nobody stays (`departs_iff`).
-/

namespace CppFrame.Server

open UMap WssEndpointHandler

/-! ## What should be sent -/

/-- A client that takes part in its channel: no authenticator is set, or it is authenticated. -/
def WssEndpointHandler.entitled (weh : WssEndpointHandler) (client : SocketClient) : Bool :=
  !weh.authenticator || client.authenticated

/-- The entitled clients. -/
def entitledOf (weh : WssEndpointHandler) (nodes : List (Σ _ : String, SocketClient)) :
    List (Σ _ : String, SocketClient) := nodes.filter fun n => weh.entitled n.2

/-- The entitled clients other than `k`, in walking order. -/
def entitledOthers (weh : WssEndpointHandler) (k : String)
    (nodes : List (Σ _ : String, SocketClient)) :
    List SocketClient := (nodes.filter fun n => weh.entitled n.2 && n.1 ≠ k).map Sigma.snd

/-- The message for an entitled client of a room, which lists the other ones. -/
def announcement (weh : WssEndpointHandler) (env : Env) (room : Channel)
    (n : Σ _ : String, SocketClient) :
    Option Event :=
  (n.2.lock env).map fun con => .send con (othersText (entitledOthers weh n.1 room.entries))

/-- The messages to those that stay in a room: one for each entitled client. -/
def announcements (weh : WssEndpointHandler) (env : Env) (room : Channel) : List Event :=
  (entitledOf weh room.entries).filterMap (announcement weh env room)

/-- A departure. `on_close` removes the entry of its client and nothing else, and those that stay
are told of each other where the client was entitled, else nothing is sent. -/
def Departs (weh : WssEndpointHandler) (it : Iteration) (env : Env) (m : Clients)
    (con : Connection) : Prop :=
  ∃ m' es, weh.onClose it env con m = some (m', es) ∧
    (∀ ch, ch ≠ con.channel → m'.lookup ch = m.lookup ch) ∧
    m'.get con.channel = (m.get con.channel).erase con.clientKey ∧
    (heard es).Perm (if weh.entitled ((m.get con.channel).get con.clientKey) then
      announcements weh env ((m.get con.channel).erase con.clientKey) else [])

/-! ## The flags -/

/-- No client is authenticated. -/
def Unflagged (m : Clients) : Prop :=
  ∀ ch k c, (m.get ch).lookup k = some c → c.authenticated = false

variable {weh : WssEndpointHandler} {it : Iteration} {env : Env} {m m' : Clients} {con : Connection}

theorem Effect.unflagged {cb : Callback} {ev : List Event} (he : Effect weh env m cb m' ev)
    (hauth : weh.authenticator = false) (hm : Unflagged m) : Unflagged m' := by
  intro ch k c hk
  cases he.lookup_cases hk with
  | kept hk => exact hm ch k c hk
  | opened => rfl
  | accepted _ _ _ ha =>
    rw [asks, hauth] at ha
    cases ha
  | created => rfl

theorem unflagged_of_run {guard : Clients → Trace → Input → Prop} {t : Trace}
    (h : Run (weh.inline it) guard ∅ t m) (hauth : weh.authenticator = false) : Unflagged m := by
  refine clients_invariant h ?_ fun he hs => he.unflagged hauth hs
  intro ch k c hk
  cases hk

/-! ## One departure -/

theorem entitled_eq (weh : WssEndpointHandler) (c : SocketClient) :
    (weh.authenticator && c.authenticated || !weh.authenticator) = weh.entitled c := by
  unfold WssEndpointHandler.entitled
  cases weh.authenticator with
  | true => exact Bool.or_false _
  | false => rfl

theorem AllLive.erase {room : Channel} (h : AllLive env room) (k : String) :
    AllLive env (room.erase k) := by
  intro n hn
  refine h n (mem_entries.2 ?_)
  have hk := mem_entries.1 hn
  rw [lookup_erase] at hk
  split_ifs at hk
  exact hk

/-- With an authenticator the entitled clients are those with the flag. -/
theorem announcements_of_authenticator (hauth : weh.authenticator = true) (room : Channel) :
    announcements weh env room = roundOf env room := by
  have hent : ∀ c : SocketClient, weh.entitled c = c.authenticated := by
    intro c
    rw [WssEndpointHandler.entitled, hauth]
    rfl
  unfold announcements roundOf entitledOf flagged announcement presenceMessage
    entitledOthers otherClients
  simp only [hent]

/-- Without an authenticator everyone that stays should be told. -/
theorem length_announcements (hauth : weh.authenticator = false) {room : Channel}
    (hlive : AllLive env room) :
    (announcements weh env room).length = room.entries.length := by
  have hent : entitledOf weh room.entries = room.entries := by
    refine List.filter_eq_self.2 fun n _ => ?_
    rw [WssEndpointHandler.entitled, hauth]
    rfl
  rw [announcements, hent]
  refine length_filterMap_of_isSome fun n hn => ?_
  rw [announcement, Option.isSome_map]
  exact hlive n hn

/-- Without an authenticator nobody should be told of the departure of `k` where `k` was alone. -/
theorem announcements_eq_nil_iff (hauth : weh.authenticator = false) {room : Channel}
    (hlive : AllLive env room) (k : String) :
    announcements weh env (room.erase k) = [] ↔ ∀ k' ∈ room, k' = k := by
  rw [← List.length_eq_zero_iff, length_announcements hauth (hlive.erase k),
    List.length_eq_zero_iff,
    List.eq_nil_iff_forall_not_mem]
  constructor
  · intro h k' hk'
    by_contra hne
    have hkept : k' ∈ room.erase k := AList.mem_erase.2 ⟨hne, hk'⟩
    obtain ⟨c, hc⟩ := Option.isSome_iff_exists.1 (AList.lookup_isSome.2 hkept)
    exact h _ (mem_entries.2 hc)
  · intro h n hn
    have hk := mem_entries.1 hn
    rw [lookup_erase] at hk
    split_ifs at hk with hne
    exact hne (h n.1 (AList.lookup_isSome.1 (Option.isSome_of_eq_some hk)))

/-- Without a flag nobody is told anything. -/
theorem roundOf_of_unflagged {room : Channel}
    (h : ∀ k c, room.lookup k = some c → c.authenticated = false) :
    roundOf env room = [] := by
  have hnone : flagged room.entries = [] := by
    refine List.filter_eq_nil_iff.2 fun n hn => ?_
    rw [h n.1 n.2 (mem_entries.1 hn)]
    exact Bool.false_ne_true
  rw [roundOf, hnone]
  rfl

/-- `on_close` of a client that has an entry, in a channel where everyone can be reached. -/
theorem onClose_run (weh : WssEndpointHandler) (it : Iteration) (hc : con.channel ≠ "")
    (hreg : con.clientKey ∈ m.get con.channel) (hlive : AllLive env (m.get con.channel)) :
    ∃ m' es, weh.onClose it env con m = some (m', es) ∧
      (∀ ch, ch ≠ con.channel → m'.lookup ch = m.lookup ch) ∧
      m'.get con.channel = (m.get con.channel).erase con.clientKey ∧
      heard es = if weh.entitled ((m.get con.channel).get con.clientKey) then
        roundOf env ((m.get con.channel).erase con.clientKey) else [] := by
  have hclient : (m.client env con.channel con.clientKey).get con.channel = m.get con.channel := by
    rw [get_client, if_pos rfl, index_of_mem hreg]
  have hget : (weh.removeClient env con.channel con.clientKey "on close"
      (m.client env con.channel con.clientKey)).1.get con.channel =
        (m.get con.channel).erase con.clientKey := by
    rw [get_removeClient, if_pos rfl, hclient]
  have hlookup : ∀ ch, ch ≠ con.channel → (weh.removeClient env con.channel con.clientKey "on close"
      (m.client env con.channel con.clientKey)).1.lookup ch = m.lookup ch := by
    intro ch hch
    rw [lookup_removeClient, if_neg hch, lookup_client, if_neg hch]
  have hround := sendChannelPresence_eq_round weh it (m :=
    (weh.removeClient env con.channel con.clientKey
    "on close" (m.client env con.channel con.clientKey)).1) (hget ▸ hlive.erase con.clientKey)
  unfold WssEndpointHandler.onClose
  dsimp only
  rw [if_neg (by simpa using hc), hclient, entitled_eq, hround, hget]
  by_cases hent : weh.entitled ((m.get con.channel).get con.clientKey) = true
  · rw [if_pos hent, if_pos hent]
    refine ⟨_, _, rfl, hlookup, hget, ?_⟩
    rw [heard_append]
    exact (congrArg (· ++ _) (heard_log weh _ _)).trans (heard_presenceMessages _ _)
  · rw [if_neg hent, if_neg hent]
    exact ⟨_, _, rfl, hlookup, hget, heard_log weh _ _⟩

/-! ## Every departure -/

/-- **A departure is announced in both modes.** In every state that is reached without a pool,
the `on_close` of a client that has an entry in a channel where everyone can be reached is a
departure as it should be if and only if an authenticator is set or nobody else has an entry in
the channel. -/
theorem departs_iff {guard : Clients → Trace → Input → Prop} {t : Trace}
    (h : Run (weh.inline it) guard ∅ t m) (hreg : con.clientKey ∈ m.get con.channel)
    (hlive : AllLive env (m.get con.channel)) :
    Departs weh it env m con ↔
      weh.authenticator = true ∨ ∀ k ∈ m.get con.channel, k = con.clientKey := by
  obtain ⟨c, hlookup⟩ := Option.isSome_iff_exists.1 (AList.lookup_isSome.2 hreg)
  have hc : con.channel ≠ "" := by
    intro hc
    rw [hc, noNameless_of_run h] at hlookup
    cases hlookup
  obtain ⟨m', es, hrun, hothers, hown, hes⟩ := onClose_run weh it hc hreg hlive
  cases hauth : weh.authenticator with
  | true =>
    refine iff_of_true ⟨m', es, hrun, hothers, hown, ?_⟩ (.inl rfl)
    rw [hes, announcements_of_authenticator hauth]
  | false =>
    have hent : weh.entitled ((m.get con.channel).get con.clientKey) = true := by
      rw [WssEndpointHandler.entitled, hauth]
      rfl
    -- nobody has the flag, so `on_close` tells nobody
    have hquiet : roundOf env ((m.get con.channel).erase con.clientKey) = [] := by
      refine roundOf_of_unflagged fun k c hk => ?_
      rw [lookup_erase] at hk
      split_ifs at hk
      exact unflagged_of_run h hauth _ _ _ hk
    have halone := announcements_eq_nil_iff hauth hlive con.clientKey
    rw [if_pos hent, hquiet] at hes
    constructor
    · rintro ⟨m'', es', hrun', -, -, hperm⟩
      rw [hrun] at hrun'
      cases hrun'
      rw [hes, if_pos hent] at hperm
      exact .inr (halone.1 hperm.nil_eq.symm)
    · rintro (hset | hnobody)
      · cases hset
      · refine ⟨m', es, hrun, hothers, hown, ?_⟩
        rw [hes, if_pos hent, halone.2 hnobody]

/-- Two authenticated clients of `room1`, of which the first one leaves. -/
theorem departs_iff_secured : ∃ t m, Run (secured.inline .checked) kept ∅ t m ∧
    Departs secured .checked steady m clientA := by
  obtain ⟨t, m, h, -, hp⟩ := Run.exists_of_replay (secured.inline .checked) kept ∅
    (callsOf [.onOpen clientA, .onOpen clientB, .onMessage clientA "ann", .onMessage clientB "bob"])
    (fun _ m => decide (clientA.clientKey ∈ m.get clientA.channel ∧
    AllLive steady (m.get clientA.channel)))
    (by decide)
  obtain ⟨hreg, hlive⟩ := of_decide_eq_true hp
  exact ⟨t, m, h, (departs_iff h hreg hlive).2 (.inl rfl)⟩

/-- Without an authenticator the client that stays in `room1` is told nothing when the other one
leaves. -/
theorem departure_unannounced : ∃ t m, Run (unsecured.inline .checked) kept ∅ t m ∧
    clientA.clientKey ∈ m.get clientA.channel ∧ AllLive steady (m.get clientA.channel) ∧
    ¬ Departs unsecured .checked steady m clientA := by
  obtain ⟨t, m, h, -, hp⟩ := Run.exists_of_replay (unsecured.inline .checked) kept ∅
    (callsOf [.onOpen clientA, .onOpen clientB])
    (fun _ m => decide (clientA.clientKey ∈ m.get clientA.channel ∧
    AllLive steady (m.get clientA.channel) ∧
      (unsecured.onClose .checked steady clientA m).map Prod.snd = some [] ∧
      (announcements unsecured steady ((m.get clientA.channel).erase clientA.clientKey)).length =
      1))
    (by decide)
  obtain ⟨hreg, hlive, hquiet, hone⟩ := of_decide_eq_true hp
  refine ⟨t, m, h, hreg, hlive, ?_⟩
  rintro ⟨m', es, hrun, -, -, hperm⟩
  rw [hrun] at hquiet
  cases hquiet
  rw [if_pos (by rfl)] at hperm
  exact absurd (hperm.length_eq.trans hone) (by decide)

end CppFrame.Server
