import CppFrame.Server.Contract

/-!
# Who is authorised

With an authenticator and no pool, the flag of an entry stands for an open connection that had one
of its messages accepted since it was opened (`Flagged`). Keys may be used again: closing and
opening both reset the entry, so the flag never outlives the connection it was set for.
-/

namespace CppFrame.Server

open UMap

/-- A message of the connection was accepted: the authenticator answered with a name. -/
def Accepts (con : Connection) (x : Input × List Event) : Prop :=
  ∃ msg name, x.1.1 = .onMessage con msg ∧ .authenticator msg name ∈ x.2 ∧ name ≠ ""

/-- After its `on_open` the connection had one of its messages accepted. -/
def AcceptedSinceOpen (t : Trace) (con : Connection) : Prop :=
  ∃ t₁ x t₂, t = t₁ ++ x :: t₂ ∧ x.1.1 = .onOpen con ∧ ∃ y ∈ t₂, Accepts con y

theorem AcceptedSinceOpen.append {t : Trace} {con : Connection} (h : AcceptedSinceOpen t con)
    (t' : Trace) : AcceptedSinceOpen (t ++ t') con := by
  obtain ⟨t₁, x, t₂, rfl, hx, y, hy, ha⟩ := h
  exact ⟨t₁, x, t₂ ++ t', by simp, hx, y, List.mem_append_left _ hy, ha⟩

/-- An open connection whose message is accepted now was accepted since its `on_open`. -/
theorem acceptedSinceOpen_snoc {t : Trace} {con : Connection} {y : Input × List Event}
    (ho : phase con (calls t) = .opened) (ha : Accepts con y) :
    AcceptedSinceOpen (t ++ [y]) con := by
  obtain ⟨x, hx, hcb⟩ := List.mem_map.1 (onOpen_mem ho)
  obtain ⟨t₁, t₂, rfl⟩ := List.append_of_mem hx
  exact ⟨t₁, x, t₂ ++ [y], by simp, hcb, y, by simp, ha⟩

/-- Every entry with the flag stands for an open connection that was accepted since its
`on_open`. -/
def Flagged (t : Trace) (m : Clients) : Prop :=
  ∀ ch k c, (m.get ch).lookup k = some c → c.authenticated = true →
    ∃ con, phase con (calls t) = .opened ∧ con.channel = ch ∧ con.clientKey = k ∧
      AcceptedSinceOpen t con

variable {weh : WssEndpointHandler} {it : Iteration} {env : Env} {m m' : Clients} {cb : Callback}
  {ev : List Event} {t : Trace}

theorem Effect.flagged (he : Effect weh env m cb m' ev) (hc : Contract (calls t) cb)
    (hn : NoNameless m) (hf : Flagged t m) : Flagged (t ++ [((cb, env), ev)]) m' := by
  intro ch k c hk ha
  rw [calls_append]
  cases he.lookup_cases hk with
  | kept hk hcb =>
    obtain ⟨con, ho, rfl, rfl, hacc⟩ := hf ch k c hk ha
    refine ⟨con, opened_after ho ?_, rfl, rfl, hacc.append _⟩
    rcases hcb with hmsg | hch | hne
    · exact .inr hmsg
    · rw [hch, hn] at hk
      cases hk
    · exact .inl fun e => hne (e ▸ ⟨rfl, rfl⟩)
  | opened => cases ha
  | @accepted con msg hch hkey _ _ hname hev =>
    have ho : phase con (calls t) = .opened := hc.1
    exact ⟨con, opened_after ho (.inr ⟨_, rfl⟩), hch, hkey,
      acceptedSinceOpen_snoc ho ⟨msg, _, rfl, hev, hname⟩⟩
  | created => cases ha

/-- What holds after every run without a pool. -/
structure Sessions (t : Trace) (m : Clients) : Prop where
  nameless : NoNameless m
  distinct : OpenDistinct (calls t)
  owned : Owned (calls t) m
  flagged : Flagged t m

theorem Effect.sessions (he : Effect weh env m cb m' ev) (hc : Contract (calls t) cb)
    (hs : Sessions t m) : Sessions (t ++ [((cb, env), ev)]) m' where
  nameless := he.noNameless hs.nameless
  distinct := calls_append t _ ▸ hs.distinct.snoc hc.2
  owned := calls_append t _ ▸ he.owned hs.nameless hs.owned
  flagged := he.flagged hc hs.nameless hs.flagged

theorem sessions_start : Sessions [] ∅ where
  nameless _ := rfl
  distinct := openDistinct_nil
  owned := owned_nil
  flagged _ _ _ hk := by cases hk

theorem sessions_of_run (h : Run (weh.inline it) kept ∅ t m) : Sessions t m := by
  refine h.invariant (P := Sessions) sessions_start ?_
  intro t s i s' o hs hg hstep
  exact (handle_effect hstep).sessions hg hs

/-- The flagged entry of an open connection is its own. -/
theorem Sessions.accepted (hs : Sessions t m) {con : Connection} {c : SocketClient}
    (ho : phase con (calls t) = .opened)
    (hk : (m.get con.channel).lookup con.clientKey = some c) (ha : c.authenticated = true) :
    AcceptedSinceOpen t con := by
  obtain ⟨con', ho', hch, hkey, hacc⟩ := hs.flagged _ _ _ hk ha
  rwa [hs.distinct con' con ho' ho ⟨hch, hkey⟩] at hacc

/-- A connection that can be locked from a flagged entry was accepted since its `on_open`. -/
theorem Sessions.accepted_of_lock (hs : Sessions t m) {ch k : String} {c : SocketClient}
    {d : Connection} (hk : (m.get ch).lookup k = some c) (hl : c.lock env = some d)
    (ha : c.authenticated = true) :
    d.channel = ch ∧ d.clientKey = k ∧ AcceptedSinceOpen t d := by
  obtain ⟨ho, rfl, rfl⟩ := hs.owned ch k c d hk (Option.filter_eq_some_iff.1 hl).1
  exact ⟨rfl, rfl, hs.accepted ho hk ha⟩

/-- An open connection whose messages are not put to the authenticator any more was accepted since
its `on_open`. -/
theorem Sessions.accepted_of_asks (hs : Sessions t m) {con : Connection}
    (hauth : weh.authenticator = true) (ho : phase con (calls t) = .opened)
    (ha : asks weh m con = false) : AcceptedSinceOpen t con := by
  rw [asks, hauth, Bool.true_and, Bool.not_eq_false'] at ha
  exact hs.accepted ho (lookup_of_authenticated ha) ha

/-- **Authorisation of deliveries.** Whenever a message of `c` is broadcast to `d`, they are
different connections of one channel, and both were accepted since they were opened; and a presence
message only ever goes to a connection that was. -/
theorem deliveries_authorised (hauth : weh.authenticator = true) {t₁ t₂ : Trace} {cb : Callback}
    {env : Env} {ev : List Event}
    (h : Run (weh.inline it) kept ∅ (t₁ ++ ((cb, env), ev) :: t₂) m) :
    (∀ c d msg, cb = .onMessage c msg → .send d ("MESSAGE" ++ msg) ∈ ev →
      d ≠ c ∧ d.channel = c.channel ∧ AcceptedSinceOpen t₁ c ∧ AcceptedSinceOpen t₁ d) ∧
    ∀ d text, .send d text ∈ ev → IsKind "OTHERS" text →
      AcceptedSinceOpen (t₁ ++ [((cb, env), ev)]) d := by
  obtain ⟨m₁, m₂, h₁, hc, hstep, h₂⟩ := h.step_at
  have hs₁ := sessions_of_run h₁
  have hs₂ := sessions_of_run h₂
  have he := handle_effect hstep
  constructor
  · rintro c d msg rfl hd
    obtain ⟨con, msg', k, cl, hcb, -, -, ha, hk, hr, hl⟩ :=
      he.broadcast_send hd (isKind_message msg)
    cases hcb
    simp only [WssEndpointHandler.receives, hauth, Bool.not_true, Bool.false_or,
      Bool.and_eq_true, decide_eq_true_eq] at hr
    have ho : phase c (calls t₁) = .opened := hc.1
    have hkept : (m₁.get c.channel).lookup k = some cl := by
      cases he.lookup_cases hk with
      | kept hk => exact hk
      | accepted _ hkey => exact absurd hkey.symm hr.1
      | created _ hkey => exact absurd hkey.symm hr.1
    obtain ⟨hch, hkey, hacc⟩ := hs₁.accepted_of_lock hkept hl hr.2
    exact ⟨fun e => hr.1 (hkey.symm.trans (by rw [e])), hch,
      hs₁.accepted_of_asks hauth ho ha, hacc⟩
  · intro d text hd ht
    obtain ⟨k, c, hk, ha, hl⟩ := he.presence_send hd ht
    exact (hs₂.accepted_of_lock hk hl ha).2.2

/-- Two clients authenticate, and a third message of the first reaches the second. -/
theorem deliveries_authorised_run : ∃ t m env ev,
    Run (secured.inline .checked) kept ∅ (t ++ [((.onMessage clientA "hi", env), ev)]) m ∧
      .send clientB ("MESSAGE" ++ "hi") ∈ ev ∧ AcceptedSinceOpen t clientA ∧
      AcceptedSinceOpen t clientB := by
  obtain ⟨t, ⟨cb, env⟩, ev, m, hr, hq⟩ := Run.exists_last_of_replay (secured.inline .checked) kept ∅
    (callsOf [.onOpen clientA, .onOpen clientB, .onMessage clientA "Ann", .onMessage clientB "Bob",
      .onMessage clientA "hi"])
    (fun i o _ => i.1 = .onMessage clientA "hi" && .send clientB ("MESSAGE" ++ "hi") ∈ o)
    (by decide)
  simp only [Bool.and_eq_true, decide_eq_true_eq] at hq
  obtain ⟨rfl, hd⟩ := hq
  obtain ⟨-, -, hA, hB⟩ := (deliveries_authorised rfl hr).1 clientA clientB "hi" rfl hd
  exact ⟨t, m, env, ev, hr, hd, hA, hB⟩

end CppFrame.Server
