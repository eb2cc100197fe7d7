import CppFrame.Run
import CppFrame.Server.Sends

/-!
# The callbacks the server makes, and runs without a thread pool

The WebSocket server of `simple_webSocket_server` calls `on_open` once for a connection, then any
number of `on_message`, then at most one of `on_close` and `on_error`; `on_error` may also come for
a connection that was never opened. `Ordered` states this of one more callback after a history, and
`Distinct` that no two open connections share channel and key.

Without a pool every callback runs at once. A run is then a `Run` of `inline`, and the registry
belongs to the open connections: `Owned` holds in every state.
-/

namespace CppFrame.Server

open UMap

/-! ## Phases of a connection -/

/-- Where a connection is between its first and its last callback. -/
inductive Phase
  | fresh
  | opened
  | closed
  deriving DecidableEq

/-- The phase after a callback of the connection. -/
def Phase.next (p : Phase) : Callback → Phase
  | .onMessage _ _ => p
  | .onOpen _ => .opened
  | .onClose _ => .closed
  | .onError _ _ => .closed

/-- The phase of a connection after the callbacks `h`. -/
def phase (con : Connection) (h : List Callback) : Phase :=
  h.foldl (fun p cb => if cb.con = con then p.next cb else p) .fresh

theorem phase_snoc (con : Connection) (h : List Callback) (cb : Callback) :
    phase con (h ++ [cb]) = if cb.con = con then (phase con h).next cb else phase con h := by
  simp [phase]

theorem phase_snoc_self (h : List Callback) (cb : Callback) :
    phase cb.con (h ++ [cb]) = (phase cb.con h).next cb := by rw [phase_snoc, if_pos rfl]

theorem phase_snoc_ne {con : Connection} {cb : Callback} (hne : cb.con ≠ con) (h : List Callback) :
    phase con (h ++ [cb]) = phase con h := by rw [phase_snoc, if_neg hne]

theorem phase_snoc_onMessage (con c : Connection) (msg : String) (h : List Callback) :
    phase con (h ++ [.onMessage c msg]) = phase con h := by
  rw [phase_snoc]
  split_ifs <;> rfl

/-- An open connection has been opened. -/
theorem onOpen_mem {con : Connection} {h : List Callback} (ho : phase con h = .opened) :
    .onOpen con ∈ h := by
  induction h using List.reverseRecOn with
  | nil => cases ho
  | append_singleton h cb ih =>
    by_cases hc : cb.con = con
    · subst hc
      rw [phase_snoc_self] at ho
      cases cb with
      | onMessage c msg => exact List.mem_append_left _ (ih ho)
      | onOpen c => exact List.mem_append_right _ (List.mem_singleton.2 rfl)
      | onClose c => cases ho
      | onError c ec => cases ho
    · rw [phase_snoc_ne hc] at ho
      exact List.mem_append_left _ (ih ho)

/-! ## The contract of the server -/

/-- The order of the callbacks of one connection. -/
def Ordered (h : List Callback) : Callback → Prop
  | .onMessage con _ => phase con h = .opened
  | .onOpen con => phase con h = .fresh
  | .onClose con => phase con h = .opened
  | .onError con _ => phase con h ≠ .closed

instance (h : List Callback) (cb : Callback) : Decidable (Ordered h cb) := by
  cases cb <;> unfold Ordered <;> infer_instance

/-- Two connections that the registry cannot tell apart. -/
def SameKey (c d : Connection) : Prop := c.channel = d.channel ∧ c.clientKey = d.clientKey

instance (c d : Connection) : Decidable (SameKey c d) := by unfold SameKey; infer_instance

/-- No connection is opened while another one with its channel and key is open. -/
def Distinct (h : List Callback) : Callback → Prop
  | .onOpen con => ∀ cb ∈ h, phase cb.con h = .opened → ¬ SameKey cb.con con
  | _ => True

instance (h : List Callback) (cb : Callback) : Decidable (Distinct h cb) := by
  cases cb <;> unfold Distinct <;> infer_instance

/-- What the server promises of a callback after the callbacks `h`. -/
def Contract (h : List Callback) (cb : Callback) : Prop := Ordered h cb ∧ Distinct h cb

instance (h : List Callback) (cb : Callback) : Decidable (Contract h cb) := by
  unfold Contract; infer_instance

/-- No two open connections share channel and key. -/
def OpenDistinct (h : List Callback) : Prop :=
  ∀ c d, phase c h = .opened → phase d h = .opened → SameKey c d → c = d

theorem openDistinct_nil : OpenDistinct [] := by
  intro c d hc
  cases hc

/-- A connection open after a callback was open before, or the callback opened it. -/
theorem opened_before {h : List Callback} {cb : Callback} {c : Connection}
    (hc : phase c (h ++ [cb]) = .opened) : phase c h = .opened ∨ cb = .onOpen c := by
  by_cases hcb : cb.con = c
  · subst hcb
    rw [phase_snoc_self] at hc
    cases cb with
    | onMessage c msg => exact .inl hc
    | onOpen c => exact .inr rfl
    | onClose c => cases hc
    | onError c ec => cases hc
  · rw [phase_snoc_ne hcb] at hc
    exact .inl hc

/-- A connection is fresh only before its first callback. -/
theorem phase_ne_fresh_snoc {con : Connection} {h : List Callback} (hp : phase con h ≠ .fresh)
    (cb : Callback) :
    phase con (h ++ [cb]) ≠ .fresh := by
  rw [phase_snoc]
  split_ifs
  · cases cb with
    | onMessage => exact hp
    | onOpen => exact Phase.noConfusion
    | onClose => exact Phase.noConfusion
    | onError => exact Phase.noConfusion
  · exact hp

/-- A connection that is fresh after a callback was fresh before, and the callback was another's. -/
theorem fresh_before {c : Connection} {cb : Callback} {h : List Callback} (ho : Ordered h cb)
    (hp : phase c (h ++ [cb]) = .fresh) :
    cb.con ≠ c ∧ phase c h = .fresh := by
  by_cases hc : cb.con = c
  · subst hc
    rw [phase_snoc_self] at hp
    cases cb with
    | onMessage con msg =>
      have ho : phase con h = .opened := ho
      rw [show phase (Callback.onMessage con msg).con h = .opened from ho] at hp
      cases hp
    | onOpen con => cases hp
    | onClose con => cases hp
    | onError con ec => cases hp
  · rw [phase_snoc_ne hc] at hp
    exact ⟨hc, hp⟩

/-- A connection that is closed after a callback was closed before, or by the callback. -/
theorem closed_before {c : Connection} {cb : Callback} {h : List Callback}
    (hp : phase c (h ++ [cb]) = .closed) :
    phase c h = .closed ∨ cb = .onClose c ∨ ∃ ec, cb = .onError c ec := by
  by_cases hc : cb.con = c
  · subst hc
    rw [phase_snoc_self] at hp
    cases cb with
    | onMessage con msg => exact .inl hp
    | onOpen con => cases hp
    | onClose con => exact .inr (.inl rfl)
    | onError con ec => exact .inr (.inr ⟨ec, rfl⟩)
  · rw [phase_snoc_ne hc] at hp
    exact .inl hp

theorem OpenDistinct.snoc {h : List Callback} {cb : Callback} (hd : OpenDistinct h)
    (hcb : Distinct h cb) : OpenDistinct (h ++ [cb]) := by
  intro c d hc hd' hs
  rcases opened_before hc with hc₁ | rfl <;> rcases opened_before hd' with hd₁ | hd₂
  · exact hd c d hc₁ hd₁ hs
  · subst hd₂
    exact absurd hs (hcb (.onOpen c) (onOpen_mem hc₁) hc₁)
  · exact absurd ⟨hs.1.symm, hs.2.symm⟩ (hcb (.onOpen d) (onOpen_mem hd₁) hd₁)
  · cases hd₂
    rfl

/-! ## Runs without a pool -/

/-- A callback with what the outside answers while it runs. -/
abbrev Input := Callback × Env

/-- The callbacks made so far, with their events. -/
abbrev Trace := List (Input × List Event)

/-- The callbacks of a trace. -/
def calls (t : Trace) : List Callback := t.map fun x => x.1.1

@[simp] theorem calls_append (t₁ t₂ : Trace) : calls (t₁ ++ t₂) = calls t₁ ++ calls t₂ :=
  List.map_append

@[simp] theorem calls_cons (x : Input × List Event) (t : Trace) :
    calls (x :: t) = x.1.1 :: calls t := rfl

@[simp] theorem calls_nil : calls [] = [] := rfl

/-- One callback without a pool. -/
def WssEndpointHandler.inline (weh : WssEndpointHandler) (it : Iteration) (m : Clients)
    (i : Input) :
    Option (Clients × List Event) := weh.handle it i.2 m i.1

/-- The server keeps its contract. -/
def kept (_ : Clients) (t : Trace) (i : Input) : Prop := Contract (calls t) i.1

instance (m : Clients) (t : Trace) (i : Input) : Decidable (kept m t i) := by
  unfold kept; infer_instance

/-- Any callback may come at any time. -/
def anyCallback (_ : Clients) (_ : Trace) (_ : Input) : Prop := True

instance (m : Clients) (t : Trace) (i : Input) : Decidable (anyCallback m t i) := by
  unfold anyCallback; infer_instance

/-! ## The registry belongs to the open connections -/

/-- Every connection in the registry is open and stands under its own channel and key. -/
def Owned (h : List Callback) (m : Clients) : Prop :=
  ∀ ch k c d, (m.get ch).lookup k = some c → c.connection = some d →
    phase d h = .opened ∧ d.channel = ch ∧ d.clientKey = k

/-- The room without a name stays empty. -/
def NoNameless (m : Clients) : Prop := ∀ k, (m.get "").lookup k = none

theorem owned_nil : Owned [] ∅ := by
  intro ch k c d hk
  cases hk

variable {weh : WssEndpointHandler} {env : Env} {m m' : Clients} {cb : Callback} {ev : List Event}

theorem Effect.noNameless (h : Effect weh env m cb m' ev) (hm : NoNameless m) : NoNameless m' := by
  intro k
  cases hk : (m'.get "").lookup k with
  | none => rfl
  | some c =>
    cases h.lookup_cases hk with
    | kept hk => rw [hm k] at hk; cases hk
    | opened _ _ hc => exact absurd rfl hc
    | accepted hch _ hc => exact absurd hch hc.2
    | created hch _ hc => exact absurd hch hc.2

/-- The client that `operator[]` finds is stored, or holds no connection yet. -/
theorem lookup_of_connection {room : Channel} {k : String} {d : Connection}
    (h : (room.get k).connection = some d) : room.lookup k = some (room.get k) := by
  unfold UMap.get at *
  cases hk : room.lookup k with
  | none => rw [hk] at h; cases h
  | some c => rfl

/-- A callback that may follow keeps a connection open unless it closes it. -/
theorem opened_after {h : List Callback} {c : Connection} (hc : phase c h = .opened)
    (hcb : cb.con ≠ c ∨ ∃ msg, cb = .onMessage cb.con msg) : phase c (h ++ [cb]) = .opened := by
  rcases hcb with hne | ⟨msg, hmsg⟩
  · rw [phase_snoc_ne hne, hc]
  · rw [hmsg, phase_snoc_onMessage, hc]

theorem Effect.owned {h : List Callback} (he : Effect weh env m cb m' ev) (hn : NoNameless m)
    (hm : Owned h m) : Owned (h ++ [cb]) m' := by
  intro ch k c d hk hd
  cases he.lookup_cases hk with
  | kept hk hcb =>
    obtain ⟨ho, rfl, rfl⟩ := hm ch k c d hk hd
    refine ⟨opened_after ho ?_, rfl, rfl⟩
    rcases hcb with hmsg | hch | hne
    · exact .inr hmsg
    · rw [hch, hn] at hk
      cases hk
    · exact .inl fun e => hne (e ▸ ⟨rfl, rfl⟩)
  | opened hch hkey =>
    cases hd
    exact ⟨phase_snoc_self h (.onOpen d), hch, hkey⟩
  | accepted hch hkey =>
    obtain ⟨ho, h₁, h₂⟩ := hm ch k _ d (lookup_of_connection hd) hd
    exact ⟨opened_after ho (.inr ⟨_, rfl⟩), h₁, h₂⟩
  | created => cases hd

/-- What holds of the empty registry and is kept by every callback holds after every run. -/
theorem clients_invariant {it : Iteration} {guard : Clients → Trace → Input → Prop} {t : Trace}
    {P : Clients → Prop} (h : Run (weh.inline it) guard ∅ t m) (hstart : P ∅)
    (hstep : ∀ {env m cb m' ev}, Effect weh env m cb m' ev → P m → P m') : P m := by
  refine h.invariant (P := fun _ m => P m) hstart ?_
  intro t s i s' o hs _ hi
  exact hstep (handle_effect hi) hs

theorem noNameless_of_run {it : Iteration} {guard : Clients → Trace → Input → Prop} {t : Trace}
    (h : Run (weh.inline it) guard ∅ t m) : NoNameless m :=
  clients_invariant h (fun _ => rfl) Effect.noNameless

/-! ## Concrete runs -/

/-- Two clients of the channel `room1`. -/
def clientA : Connection := ⟨0, "10.0.0.1", 5000, "room=1"⟩

def clientB : Connection := ⟨1, "10.0.0.2", 5000, "room=1"⟩

/-- An authenticator that takes every message but `wrong` for the name of its sender. -/
def nameOf (msg : String) : String := if msg = "wrong" then "" else msg

/-- Every connection is alive, and new nodes go in front. -/
def steady : Env := ⟨fun _ => true, nameOf, 0, .front, .front⟩

/-- The handler with an authenticator, and neither logger nor pool. -/
def secured : WssEndpointHandler := ⟨false, true, false, fun _ => ""⟩

/-- The inline runs of a list of callbacks in the environment `steady`. -/
def callsOf (l : List Callback) : List Input := l.map fun cb => (cb, steady)

/-- A trace without its environments. -/
def shown (t : Trace) : List (Callback × List Event) := t.map fun x => (x.1.1, x.2)

/-- The run of a list of callbacks, with the events it is known to have. -/
theorem exists_run_shown (weh : WssEndpointHandler) (it : Iteration) (l : List Callback)
    (r : List (Callback × List Event))
    (h : (Run.replay (weh.inline it) kept (callsOf l) [] ∅).any
      (fun x => decide (shown x.1 = r)) = true) :
    ∃ t m, Run (weh.inline it) kept ∅ t m ∧ shown t = r := by
  obtain ⟨t, m, hr, -, hp⟩ := Run.exists_of_replay (weh.inline it) kept ∅ (callsOf l)
    (fun t _ => decide (shown t = r)) h
  exact ⟨t, m, hr, of_decide_eq_true hp⟩

end CppFrame.Server
