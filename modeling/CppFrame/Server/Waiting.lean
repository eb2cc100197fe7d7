import CppFrame.Server.Pooled

/-!
# Messages that wait for the authenticator

The authenticator waits for the database. Here the task of such a message is two steps: up to the
call (`onMessageBegin`), which leaves it with a reference to the entry it looked up, and from the
return (`onMessageReturn`), which writes through that reference. All other tasks are one step, and
any task may be the next. An entry has an identity: the number of entries that vanished under its
channel and key before it.

`write_lands_iff` says when the entry written is the one stored: when no step in between erased it.
-/

namespace CppFrame.Server

open RangeFor UMap

/-! ## The two halves of a message -/

namespace WssEndpointHandler

variable (weh : WssEndpointHandler) (it : Iteration) (env : Env)

/-- `on_message` up to the call of the authenticator, where it gets there. -/
def onMessageBegin (con : Connection) (inMessage : String) (m : Clients) : Option Clients :=
  if inMessage.length > 1000000 then none
  else if con.channel.isEmpty then none
  else
    let m := m.client env con.channel con.clientKey
    if weh.authenticator && !((m.get con.channel).get con.clientKey).authenticated then some m
      else none

/-- `on_message` from the return of the authenticator. The writes reach the registry where the entry
looked up before is still `stored` there. -/
def onMessageReturn (con : Connection) (inMessage : String) (stored : Bool) (m : Clients) :
    Option (Clients × List Event) :=
  let clientKey := con.clientKey
  let channel := con.channel
  let name := env.authenticator inMessage
  if name.isEmpty then
    some ((m.index env.channelNodes channel).modify channel (·.erase clientKey),
      .authenticator inMessage name :: .sendClose con 3000 "Authentication Failed" ::
        weh.log (clientKey ++ ": Failed Authentication.") .debug)
  else
    let m := if stored then m.modifyClient channel clientKey fun c =>
      { c with authenticated := true, name := name } else m
    (weh.sendChannelPresence it env channel m).map fun r =>
      (r.1, .authenticator inMessage name :: .send con "ok" ::
        (weh.log (clientKey ++ ": Authenticated") .debug ++ r.2))

end WssEndpointHandler

variable {weh : WssEndpointHandler} {it : Iteration} {env : Env} {m m' : Clients} {con : Connection}
  {msg : String} {ev : List Event}

/-- The messages that go to the authenticator. -/
theorem onMessageBegin_eq_some : weh.onMessageBegin env con msg m = some m' ↔
    Considered con msg ∧ asks weh m con = true ∧ m' = m.client env con.channel con.clientKey := by
  have hr := rooms_client env m con
  unfold WssEndpointHandler.onMessageBegin Considered
  dsimp only
  rw [hr.self, get_roomOf]
  split_ifs with hl hch ha
  · simp only [false_iff]
    omega
  · simp only [false_iff]
    exact fun h => h.1.2 ((isEmpty_iff_eq _).1 hch)
  · have hch : con.channel ≠ "" := fun he => hch ((isEmpty_iff_eq _).2 he)
    simp only [Option.some.injEq]
    exact ⟨fun h => ⟨⟨by omega, hch⟩, ha, h.symm⟩, fun h => h.2.2.symm⟩
  · simp only [false_iff]
    exact fun h => ha h.2.1

/-- The two halves in a row are the whole task. -/
theorem onMessage_eq_return {m₁ : Clients} (h : weh.onMessageBegin env con msg m = some m₁) :
    weh.onMessage it env con msg m = weh.onMessageReturn it env con msg true m₁ := by
  obtain ⟨⟨hl, hch⟩, ha, rfl⟩ := onMessageBegin_eq_some.1 h
  have hr := rooms_client env m con
  have ha : (weh.authenticator && !((m.get con.channel).get con.clientKey).authenticated) =
    true := ha
  unfold WssEndpointHandler.onMessage WssEndpointHandler.onMessageReturn
  dsimp only
  rw [if_neg (by omega), if_neg (fun he => hch ((isEmpty_iff_eq _).1 he)), hr.self, get_roomOf,
    if_pos ha, index_of_mem (mem_client env m _ _), if_pos rfl]

/-- What the second half of a message does. -/
inductive Answered (env : Env) (m : Clients) (con : Connection) (msg : String) (stored : Bool)
    (m' : Clients) : Prop
  | rejected (hn : env.authenticator msg = "")
      (hm : Rooms m m' con ((m.get con.channel).erase con.clientKey))
  | accepted (hn : env.authenticator msg ≠ "")
      (hm : Rooms m m' con (UMap.eraseIf (goneInPresence env)
      (if stored then (m.get con.channel).modify con.clientKey (·.accepted (env.authenticator msg))
        else m.get con.channel)))

theorem onMessageReturn_answered {stored : Bool}
    (hs : stored = true → ((m.get con.channel).lookup con.clientKey).isSome = true)
    (h : weh.onMessageReturn it env con msg stored m = some (m', ev)) :
    Answered env m con msg stored m' := by
  unfold WssEndpointHandler.onMessageReturn at h
  dsimp only at h
  by_cases hn : (env.authenticator msg).isEmpty = true
  · rw [if_pos hn] at h
    cases h
    exact .rejected ((isEmpty_iff_eq _).1 hn) fun ch => get_modify_index _ _ _ _ _
  · rw [if_neg hn] at h
    obtain ⟨r, hp, he⟩ := Option.map_eq_some_iff.1 h
    cases he
    obtain ⟨h₁, -⟩ := sendChannelPresence_spec hp
    refine .accepted (fun he => hn ((isEmpty_iff_eq _).2 he)) fun ch => ?_
    rw [h₁]
    cases stored with
    | false => rfl
    | true =>
      have hget := get_modifyClient (mem_of_lookup (hs rfl))
      simp only [if_true, hget]
      split_ifs <;> rfl

/-! ## The machine -/

/-- A task inside the authenticator: its message, when it looked up its entry (`since`), and which
entry that was. -/
structure Waiting where
  con : Connection
  message : String
  since : Nat
  identity : Nat

/-- The registry, the tasks that are queued and those inside the authenticator, how many entries
have vanished under each channel and key, and the number of steps so far. -/
structure Split where
  clients : Clients
  tasks : List Callback
  waiting : List Waiting
  vanished : String → String → Nat
  clock : Nat

/-- A callback is made, or a worker takes the `n`-th task that is queued, or the authenticator
answers the `n`-th task that waits. -/
inductive SplitInput
  | callback (cb : Callback) (env : Env)
  | execute (n : Nat) (env : Env)
  | answer (n : Nat) (env : Env)

/-- No clients and no tasks. -/
def Split.start : Split := ⟨∅, [], [], fun _ _ => 0, 0⟩

/-- The state after a step. -/
def Split.next (s : Split) (m' : Clients) (tasks : List Callback) (waiting : List Waiting) :
    Split where
  clients := m'
  tasks := tasks
  waiting := waiting
  vanished ch k := if ((s.clients.get ch).lookup k).isSome && ((m'.get ch).lookup k).isNone
    then s.vanished ch k + 1 else s.vanished ch k
  clock := s.clock + 1

/-- The entry that a task looked up is the one stored. -/
def Current (s : Split) (w : Waiting) : Prop :=
  ((s.clients.get w.con.channel).lookup w.con.clientKey).isSome = true ∧
    s.vanished w.con.channel w.con.clientKey = w.identity

instance (s : Split) (w : Waiting) : Decidable (Current s w) := by unfold Current; infer_instance

/-- The entry that a message looks up, where its task goes on to the authenticator. -/
def WssEndpointHandler.begins (weh : WssEndpointHandler) (env : Env) (s : Split) :
    Callback → Option (Clients × Waiting)
  | .onMessage con msg => (weh.onMessageBegin env con msg s.clients).map fun m' =>
      (m', ⟨con, msg, s.clock, s.vanished con.channel con.clientKey⟩)
  | _ => none

/-- One step, with the events of what it handled. -/
def WssEndpointHandler.split (weh : WssEndpointHandler) (it : Iteration) (s : Split) :
    SplitInput → Option (Split × List Event)
  | .callback cb env =>
    if weh.queues cb then some (s.next s.clients (s.tasks ++ [cb]) s.waiting, [])
    else (weh.handle it env s.clients cb).map fun r => (s.next r.1 s.tasks s.waiting, r.2)
  | .execute n env =>
    match s.tasks[n]? with
    | some cb =>
      match weh.begins env s cb with
      | some r => some (s.next r.1 (s.tasks.eraseIdx n) (s.waiting ++ [r.2]), [])
      | none => (weh.handle it env s.clients cb).map fun r =>
          (s.next r.1 (s.tasks.eraseIdx n) s.waiting, r.2)
    | none => none
  | .answer n env =>
    match s.waiting[n]? with
    | some w => (weh.onMessageReturn it env w.con w.message (Current s w) s.clients).map fun r =>
        (s.next r.1 s.tasks (s.waiting.eraseIdx n), r.2)
    | none => none

/-- The steps so far, with their events. -/
abbrev SplitTrace := List (SplitInput × List Event)

variable {s s' : Split} {i : SplitInput}

/-- What a step can do. -/
inductive Advances (weh : WssEndpointHandler) (s : Split) : SplitInput → Split → Prop
  | queued {cb : Callback} {env : Env} (hq : weh.queues cb = true) :
      Advances weh s (.callback cb env) (s.next s.clients (s.tasks ++ [cb]) s.waiting)
  | atOnce {cb : Callback} {env : Env} {m' : Clients} {ev : List Event} (hq : weh.queues cb = false)
      (he : Effect weh env s.clients cb m' ev) :
      Advances weh s (.callback cb env) (s.next m' s.tasks s.waiting)
  | begun {n : Nat} {con : Connection} {msg : String} {env : Env}
      (hn : s.tasks[n]? = some (.onMessage con msg)) (hc : Considered con msg)
      (ha : asks weh s.clients con = true) :
      Advances weh s (.execute n env) (s.next (s.clients.client env con.channel con.clientKey)
        (s.tasks.eraseIdx n)
        (s.waiting ++ [⟨con, msg, s.clock, s.vanished con.channel con.clientKey⟩]))
  | whole {n : Nat} {cb : Callback} {env : Env} {m' : Clients} {ev : List Event}
      (hn : s.tasks[n]? = some cb) (hb : weh.begins env s cb = none)
      (he : Effect weh env s.clients cb m' ev) :
      Advances weh s (.execute n env) (s.next m' (s.tasks.eraseIdx n) s.waiting)
  | answered {n : Nat} {w : Waiting} {env : Env} {m' : Clients} (hn : s.waiting[n]? = some w)
      (ha : Answered env s.clients w.con w.message (Current s w) m') :
      Advances weh s (.answer n env) (s.next m' s.tasks (s.waiting.eraseIdx n))

theorem split_advances (h : weh.split it s i = some (s', ev)) : Advances weh s i s' := by
  cases i with
  | callback cb env =>
    simp only [WssEndpointHandler.split] at h
    split_ifs at h with hq
    · cases h
      exact .queued hq
    · obtain ⟨r, hr, he⟩ := Option.map_eq_some_iff.1 h
      cases he
      exact .atOnce (Bool.eq_false_iff.2 hq) (handle_effect hr)
  | execute n env =>
    simp only [WssEndpointHandler.split] at h
    split at h
    · rename_i cb hn
      split at h
      · rename_i r hb
        cases h
        cases cb with
        | onMessage con msg =>
          obtain ⟨m', hm', rfl⟩ := Option.map_eq_some_iff.1 hb
          obtain ⟨hc, ha, rfl⟩ := onMessageBegin_eq_some.1 hm'
          exact .begun hn hc ha
        | _ => cases hb
      · rename_i hb
        obtain ⟨r, hr, he⟩ := Option.map_eq_some_iff.1 h
        cases he
        exact .whole hn hb (handle_effect hr)
    · cases h
  | answer n env =>
    simp only [WssEndpointHandler.split] at h
    split at h
    · rename_i w hn
      obtain ⟨r, hr, he⟩ := Option.map_eq_some_iff.1 h
      cases he
      exact .answered hn (onMessageReturn_answered (fun hs => (of_decide_eq_true hs).1) hr)
    · cases h

/-! ## What erases an entry -/

/-- A client of the room whose connection is gone. -/
def Unreachable (env : Env) (m : Clients) (ch k : String) (p : SocketClient → Bool) : Prop :=
  ∃ e, (m.get ch).lookup k = some e ∧ p e = true ∧ e.lock env = none

/-- The entry of `k` in channel `ch` is erased by a task that runs as a whole: the close or the
error of its own connection, or a loop over the channel that finds it gone. -/
def erases (weh : WssEndpointHandler) (env : Env) (m : Clients) (ch k : String) : Callback → Prop
  | .onMessage con msg => con.channel = ch ∧ handling weh env m con msg = .broadcast ∧
      Unreachable env m ch k (weh.receives con.clientKey k)
  | .onOpen _ => False
  | .onClose con => con.channel = ch ∧ ch ≠ "" ∧
      (con.clientKey = k ∨ asks weh m con = false ∧ Unreachable env m ch k (·.authenticated))
  | .onError con _ => con.channel = ch ∧ con.clientKey = k

theorem unreachable_iff {ch k : String} {e : SocketClient} (hk : (m.get ch).lookup k = some e)
    (p : SocketClient → Bool) : Unreachable env m ch k p ↔ p e = true ∧ e.lock env = none := by
  unfold Unreachable
  rw [hk]
  simp

/-- A loop over a room erases an entry that is there exactly when it finds it gone. -/
theorem filter_eq_none_iff {room : Option SocketClient} {p : SocketClient → Bool} {e : SocketClient}
    (hk : room = some e) : room.filter (fun e => !(p e && (e.lock env).isNone)) = none ↔
      p e = true ∧ e.lock env = none := by
  rw [hk]
  cases hp : p e <;> cases hl : e.lock env <;> simp [hp, hl, Option.filter]

/-- **What a whole task erases.** -/
theorem Effect.vanishes_iff {cb : Callback} (h : Effect weh env m cb m' ev) {ch k : String}
    {e : SocketClient}
    (hcb : ∀ con msg, cb = .onMessage con msg → ¬ (Considered con msg ∧ asks weh m con = true))
    (hk : (m.get ch).lookup k = some e) :
    (m'.get ch).lookup k = none ↔ erases weh env m ch k cb := by
  cases h with
  | @ignored con msg _ hc =>
    rw [hk, erases, handling, if_neg hc]
    simp
  | rejected hc ha => exact absurd ⟨hc, ha⟩ (hcb _ _ rfl)
  | accepted hc ha => exact absurd ⟨hc, ha⟩ (hcb _ _ rfl)
  | @dumped con msg _ hc ha hn hs hm =>
    have hne : handling weh env m con msg ≠ .broadcast := by
      rw [handling_of_not_asks hc (asks_of_authenticated ha), if_pos ⟨ha, hn, hs⟩]
      exact Handling.noConfusion
    rw [hm ch]
    split_ifs with hch
    · simp [lookup_roomOf_of_some hk hch, erases, hne]
    · simp [hk, erases, hne]
  | @broadcast con msg _ _ hc ha hn hm _ =>
    have hb : handling weh env m con msg = .broadcast := by
      rw [handling_of_not_asks hc ha, if_neg hn]
    rw [hm ch, erases, unreachable_iff hk]
    split_ifs with hch
    · rw [lookup_eraseIf]
      exact (filter_eq_none_iff (lookup_roomOf_of_some hk hch)).trans (by simp [hch, hb])
    · simp [hk, Ne.symm hch]
  | @refused con _ hc => simp [hk, erases]
  | @opened con _ _ hc hm =>
    rw [hm ch]
    split_ifs with hch
    · rw [lookup_modify]
      split_ifs with hkey
      · rw [← hkey, lookup_roomOf_of_some hk hch]
        simp [erases]
      · simp [lookup_roomOf_of_some hk hch, erases]
    · simp [hk, erases]
  | @nothing con hc =>
    rw [hk, erases, hc]
    simp only [reduceCtorEq, false_iff]
    rintro ⟨rfl, hne, -⟩
    exact hne rfl
  | @announced con _ _ hc ha hm =>
    rw [hm ch, erases, unreachable_iff hk]
    split_ifs with hch
    · rw [lookup_eraseIf, lookup_erase]
      split_ifs with hkey
      · simp [hch, hkey, hc]
      · refine (filter_eq_none_iff (lookup_roomOf_of_some hk hch)).trans ?_
        simp [hch, hc, ha, Ne.symm hkey]
    · simp [hk, Ne.symm hch]
  | @left con _ _ hc ha hm =>
    rw [hm ch, erases]
    split_ifs with hch
    · rw [lookup_erase]
      split_ifs with hkey
      · simp [hch, hkey, hc]
      · simp [lookup_roomOf_of_some hk hch, ha, Ne.symm hkey]
    · simp [hk, Ne.symm hch]
  | @errored con _ _ _ hm =>
    rw [hm ch, erases]
    split_ifs with hch
    · rw [lookup_erase]
      split_ifs with hkey
      · simp [hch, hkey]
      · rw [← hch, hk]
        simp [Ne.symm hkey]
    · simp [hk, Ne.symm hch]

/-- The entry of `k` in channel `ch` is erased by the answer to a message: an empty name erases the
entry under the sender's key, and the presence round after another name erases a client that it
finds gone. -/
def answerErases (env : Env) (m : Clients) (con : Connection) (msg : String) (stored : Bool)
    (ch k : String) : Prop :=
  con.channel = ch ∧ if env.authenticator msg = "" then con.clientKey = k
    else Unreachable env m ch k fun e => e.authenticated || (stored && con.clientKey = k)

/-- **What an answer erases.** -/
theorem Answered.vanishes_iff {stored : Bool} (h : Answered env m con msg stored m') {ch k : String}
    {e : SocketClient} (hk : (m.get ch).lookup k = some e) :
    (m'.get ch).lookup k = none ↔ answerErases env m con msg stored ch k := by
  unfold answerErases
  cases h with
  | rejected hn hm =>
    rw [hm ch, if_pos hn]
    split_ifs with hch
    · rw [lookup_erase]
      split_ifs with hkey
      · simp [hch, hkey]
      · simp [← hch, hk, Ne.symm hkey]
    · simp [hk, Ne.symm hch]
  | accepted hn hm =>
    rw [hm ch, if_neg hn, unreachable_iff hk]
    split_ifs with hch hs
    · rw [lookup_eraseIf, lookup_modify, hs, ← hch]
      split_ifs with hkey
      · subst hkey
        rw [hk, Option.map_some]
        exact (filter_eq_none_iff rfl).trans (by simp [SocketClient.accepted, SocketClient.lock])
      · exact (filter_eq_none_iff hk).trans (by simp [Ne.symm hkey])
    · rw [lookup_eraseIf, ← hch]
      exact (filter_eq_none_iff hk).trans (by simp [hs])
    · simp [hk, Ne.symm hch]

/-- A step erases the entry of `k` in channel `ch`. -/
def Split.erases (weh : WssEndpointHandler) (s : Split) (ch k : String) : SplitInput → Prop
  | .callback cb env => weh.queues cb = false ∧ Server.erases weh env s.clients ch k cb
  | .execute n env => ∃ cb ∈ s.tasks[n]?, Server.erases weh env s.clients ch k cb
  | .answer n env => ∃ w ∈ s.waiting[n]?,
      answerErases env s.clients w.con w.message (Current s w) ch k

/-- **What a step erases.** -/
theorem Advances.vanishes_iff (hp : weh.tpool = true) (h : Advances weh s i s') {ch k : String}
    {e : SocketClient} (hk : (s.clients.get ch).lookup k = some e) :
    (s'.clients.get ch).lookup k = none ↔ s.erases weh ch k i := by
  cases h with
  | @queued cb _ hq =>
    show (s.clients.get ch).lookup k = none ↔ _
    simp [hk, Split.erases, hq]
  | @atOnce cb env m' _ hq he =>
    refine (he.vanishes_iff (fun con msg hcb => ?_) hk).trans (by simp [Split.erases, hq])
    -- a message is queued
    subst hcb
    have hq : weh.tpool = false := hq
    rw [hp] at hq
    cases hq
  | @begun n con msg env hn hc ha =>
    have hne : handling weh env s.clients con msg ≠ .broadcast := by
      rw [handling_of_asks hc ha]
      split_ifs <;> exact Handling.noConfusion
    show ((s.clients.client env con.channel con.clientKey).get ch).lookup k = none ↔ _
    rw [rooms_client env s.clients con ch]
    simp only [Split.erases, hn, Option.mem_def, Option.some.injEq,
      exists_eq_left', Server.erases, hne,
      false_and, and_false, iff_false]
    split_ifs with hch
    · rw [lookup_roomOf, ← hch]
      split_ifs <;> simp [hk]
    · simp [hk]
  | @whole n cb env m' _ hn hb he =>
    refine (he.vanishes_iff (fun con msg hcb hca => ?_) hk).trans (by simp [Split.erases, hn])
    subst hcb
    rw [WssEndpointHandler.begins, onMessageBegin_eq_some.2 ⟨hca.1, hca.2, rfl⟩] at hb
    cases hb
  | @answered n w env m' hn ha =>
    exact (ha.vanishes_iff hk).trans (by simp [Split.erases, hn])

/-! ## The entry that is written -/

/-- No step after the lookup of `w` erased an entry under its channel and key. -/
def Untouched (weh : WssEndpointHandler) (it : Iteration) (t : SplitTrace) (w : Waiting) : Prop :=
  ∀ t₁ i ev t₂ s₁, t = t₁ ++ (i, ev) :: t₂ → w.since < t₁.length →
    Run (weh.split it) (fun _ _ _ => True) Split.start t₁ s₁ →
    ¬ s₁.erases weh w.con.channel w.con.clientKey i

/-- One more step. -/
theorem untouched_snoc {t : SplitTrace} {w : Waiting} (hw : w.since < t.length)
    (h : Run (weh.split it) (fun _ _ _ => True) Split.start t s) :
    Untouched weh it (t ++ [(i, ev)]) w ↔
      Untouched weh it t w ∧ ¬ s.erases weh w.con.channel w.con.clientKey i := by
  constructor
  · intro hu
    refine ⟨fun t₁ j ev' t₂ s₁ ht => hu t₁ j ev' (t₂ ++ [(i, ev)]) s₁ (by simp [ht]), ?_⟩
    exact hu t i ev [] s rfl hw h
  · rintro ⟨hu, hi⟩ t₁ j ev' t₂ s₁ ht hs hr
    rcases List.eq_nil_or_concat' t₂ with rfl | ⟨t₂, x, rfl⟩
    · obtain ⟨rfl, hx⟩ := List.append_inj' ht rfl
      cases hx
      rw [hr.state_unique h]
      exact hi
    · rw [← List.cons_append, ← List.append_assoc] at ht
      exact hu t₁ j ev' t₂ s₁ (List.append_inj' ht rfl).1 hs hr

/-- A task that waits: its entry is the one stored exactly when no step erased it. -/
structure Waits (weh : WssEndpointHandler) (it : Iteration) (t : SplitTrace) (s : Split)
    (w : Waiting) : Prop where
  since : w.since < t.length
  identity : w.identity ≤ s.vanished w.con.channel w.con.clientKey
  stored : s.vanished w.con.channel w.con.clientKey = w.identity →
    ((s.clients.get w.con.channel).lookup w.con.clientKey).isSome = true
  current_iff : Current s w ↔ Untouched weh it t w

/-- The parts of a state after a step. -/
theorem next_of_advances (h : Advances weh s i s') :
    ∃ tasks waiting, s' = s.next s'.clients tasks waiting := by
  cases h with
  | queued => exact ⟨_, _, rfl⟩
  | atOnce => exact ⟨_, _, rfl⟩
  | begun => exact ⟨_, _, rfl⟩
  | whole => exact ⟨_, _, rfl⟩
  | answered => exact ⟨_, _, rfl⟩

/-- How many entries have vanished after a step. -/
theorem vanished_of_advances (h : Advances weh s i s') (ch k : String) :
    s'.vanished ch k = if ((s.clients.get ch).lookup k).isSome &&
      ((s'.clients.get ch).lookup k).isNone
      then s.vanished ch k + 1 else s.vanished ch k := by
  obtain ⟨tasks, waiting, hs'⟩ := next_of_advances h
  rw [hs']
  rfl

theorem Waits.step {t : SplitTrace} {w : Waiting} (hp : weh.tpool = true) (hw : Waits weh it t s w)
    (hr : Run (weh.split it) (fun _ _ _ => True) Split.start t s) (h : Advances weh s i s') :
    Waits weh it (t ++ [(i, ev)]) s' w := by
  have hv := vanished_of_advances h w.con.channel w.con.clientKey
  have hmono : s.vanished w.con.channel w.con.clientKey ≤
      s'.vanished w.con.channel w.con.clientKey := by
    rw [hv]
    split_ifs <;> omega
  have hsince : w.since < (t ++ [(i, ev)]).length := by
    rw [List.length_append]
    exact Nat.lt_add_right _ hw.since
  by_cases hcur : Current s w
  · obtain ⟨e, hk⟩ := Option.isSome_iff_exists.1 hcur.1
    have hvan := h.vanishes_iff hp hk
    rw [hk, Option.isSome_some, Bool.true_and, hcur.2] at hv
    have hiff : Current s' w ↔
        ((s'.clients.get w.con.channel).lookup w.con.clientKey).isSome = true := by
      unfold Current
      rw [hv]
      cases (s'.clients.get w.con.channel).lookup w.con.clientKey <;> simp
    refine ⟨hsince, hcur.2 ▸ hmono, fun he => ?_, ?_⟩
    · rw [hv] at he
      cases hl : (s'.clients.get w.con.channel).lookup w.con.clientKey with
      | none => simp [hl] at he
      | some e => rfl
    · rw [untouched_snoc hw.since hr, ← hw.current_iff, hiff, ← hvan, Option.isSome_iff_ne_none]
      exact ⟨fun hne => ⟨hcur, hne⟩, fun hne => hne.2⟩
  · -- an entry that is gone does not come back
    have hne : s.vanished w.con.channel w.con.clientKey ≠ w.identity :=
      fun he => hcur ⟨hw.stored he, he⟩
    have hlt : w.identity < s'.vanished w.con.channel w.con.clientKey :=
      Nat.lt_of_lt_of_le (Nat.lt_of_le_of_ne hw.identity hne.symm) hmono
    refine ⟨hsince, Nat.le_of_lt hlt, fun he => absurd he (Nat.ne_of_gt hlt), ?_⟩
    rw [untouched_snoc hw.since hr, ← hw.current_iff]
    exact ⟨fun hc => absurd hc.2 (Nat.ne_of_gt hlt), fun hc => absurd hc.1 hcur⟩

/-- A task that has just looked up its entry. -/
theorem waits_new {t : SplitTrace} {w : Waiting} (h : Advances weh s i s')
    (hclock : w.since = t.length)
    (hk : ((s'.clients.get w.con.channel).lookup w.con.clientKey).isSome = true)
    (hid : w.identity = s.vanished w.con.channel w.con.clientKey) :
    Waits weh it (t ++ [(i, ev)]) s' w := by
  have hv := vanished_of_advances h w.con.channel w.con.clientKey
  rw [Option.isNone_eq_false_iff.2 hk, Bool.and_false, if_neg Bool.false_ne_true, ← hid] at hv
  refine ⟨by simp [hclock], Nat.le_of_eq hv.symm, fun _ => hk, ⟨fun _ => ?_, fun _ => ⟨hk, hv⟩⟩⟩
  -- no step comes after this one
  intro t₁ j ev' t₂ s₁ ht hs _
  have hlen := congrArg List.length ht
  simp only [List.length_append, List.length_cons, List.length_nil] at hlen
  omega

/-- What waits after a step waited before, or has just looked up its entry. -/
theorem mem_waiting_of_advances {w : Waiting} (h : Advances weh s i s') (hw : w ∈ s'.waiting) :
    w ∈ s.waiting ∨ w.since = s.clock ∧ w.identity = s.vanished w.con.channel w.con.clientKey ∧
      ((s'.clients.get w.con.channel).lookup w.con.clientKey).isSome = true := by
  cases h with
  | queued => exact .inl hw
  | atOnce => exact .inl hw
  | @begun n con msg env =>
    rcases List.mem_append.1 hw with hw | hw
    · exact .inl hw
    · obtain rfl := List.mem_singleton.1 hw
      refine .inr ⟨rfl, rfl, ?_⟩
      show (((s.clients.client env con.channel con.clientKey).get
        con.channel).lookup con.clientKey).isSome = true
      rw [(rooms_client env s.clients con).self, lookup_roomOf_self]
      rfl
  | whole => exact .inl hw
  | answered => exact .inl ((List.eraseIdx_subset) hw)

theorem waits_of_run (hp : weh.tpool = true) {guard : Split → SplitTrace → SplitInput → Prop}
    {t : SplitTrace} (h : Run (weh.split it) guard Split.start t s) :
    s.clock = t.length ∧ ∀ w ∈ s.waiting, Waits weh it t s w := by
  induction h with
  | start => exact ⟨rfl, fun w hw => by cases hw⟩
  | @next t s i s' ev hr _ hs ih =>
    have hadv := split_advances hs
    refine ⟨?_, fun w hw => ?_⟩
    · obtain ⟨tasks, waiting, hs'⟩ := next_of_advances hadv
      rw [hs', List.length_append, ← ih.1]
      rfl
    · rcases mem_waiting_of_advances hadv hw with hw | ⟨hclock, hid, hk⟩
      · exact (ih.2 w hw).step hp (hr.mono fun _ _ _ _ => trivial) hadv
      · exact waits_new hadv (hclock.trans ih.1) hk hid

/-- **An authentication result lands on the right entry** exactly when no step between the lookup
and the answer erased that entry. -/
theorem write_lands_iff (hp : weh.tpool = true) {guard : Split → SplitTrace → SplitInput → Prop}
    {t : SplitTrace} {n : Nat}
    (h : Run (weh.split it) guard Split.start (t ++ [(.answer n env, ev)]) s') :
    ∃ s w, Run (weh.split it) guard Split.start t s ∧ s.waiting[n]? = some w ∧
      (env.authenticator w.message ≠ "" → (Current s w ↔ Untouched weh it t w)) := by
  obtain ⟨s, hr, -, hs⟩ := h.snoc_inv
  cases split_advances hs with
  | answered hn ha =>
    exact ⟨s, _, hr, hn, fun _ => ((waits_of_run hp hr).2 _ (List.mem_of_getElem? hn)).current_iff⟩

/-! ## Concrete runs -/

/-- The callbacks made, in order. -/
def splitCallbacks (t : SplitTrace) : List Callback :=
  t.filterMap fun x => match x.1 with | .callback cb _ => some cb | _ => none

/-- The server keeps its contract. -/
def splitKept (_ : Split) (t : SplitTrace) : SplitInput → Prop
  | .callback cb _ => Contract (splitCallbacks t) cb
  | _ => True

instance (s : Split) (t : SplitTrace) (i : SplitInput) : Decidable (splitKept s t i) := by
  cases i <;> unfold splitKept <;> infer_instance

/-- A message of A waits for the authenticator. -/
def annWaits : List SplitInput :=
  [.callback (.onOpen clientA) steady, .execute 0 steady,
    .callback (.onMessage clientA "Ann") steady,
    .execute 0 steady]

/-- While the message waits, another client is opened. -/
def annWaitsLonger : List SplitInput :=
  annWaits ++ [.callback (.onOpen clientB) steady, .execute 0 steady]

/-- The entry is still there, although the channel has got a second one. -/
theorem write_lands_iff_ann : ∃ (t : SplitTrace) (ev : List Event) (s s' : Split) (w : Waiting),
    Run (pooledSecured.split .plain) splitKept Split.start (t ++ [(.answer 0 steady, ev)]) s' ∧
      Run (pooledSecured.split .plain) splitKept Split.start t s ∧
      (s.clients.entry clientB.channel clientB.clientKey).isSome = true ∧ s.waiting[0]? = some w ∧
      w.message = "Ann" ∧ Untouched pooledSecured .plain t w := by
  obtain ⟨s₁, h₁, hp⟩ := Run.exists_of_outputs (pooledSecured.split .plain) splitKept Split.start
    annWaitsLonger [[], [], [], [], [], []]
    (fun s => s.waiting.all (fun w => decide (w.message = "Ann" ∧
      Current s w)) && (s.clients.entry clientB.channel clientB.clientKey).isSome) (by decide)
  obtain ⟨hp, hb⟩ := Bool.and_eq_true_iff.1 hp
  obtain ⟨s', h, -⟩ := Run.exists_of_outputs (pooledSecured.split .plain) splitKept Split.start
    (annWaitsLonger ++ [.answer 0 steady]) [[], [], [], [], [], [], [.authenticator "Ann" "Ann",
      .send clientA "ok", .send clientA (WssEndpointHandler.presenceJson clientA.clientKey [])]]
    (fun _ => true) (by decide)
  have h : Run (pooledSecured.split .plain) splitKept Split.start
    (annWaitsLonger.zip [[], [], [], [], [], []] ++ [(.answer 0 steady, _)]) s' := h
  obtain ⟨s, w, hs, hw, hiff⟩ := write_lands_iff rfl h
  obtain rfl := h₁.state_unique hs
  obtain ⟨hm, hcur⟩ := of_decide_eq_true (List.all_eq_true.1 hp w (List.mem_of_getElem? hw))
  exact ⟨_, _, s₁, s', w, h, hs, hb, hw, hm, (hiff (by rw [hm]; decide)).1 hcur⟩

/-- The error of A erases its entry while its message waits. -/
theorem write_lost : ¬ ∀ (t : SplitTrace) n env ev s s' w,
    Run (pooledSecured.split .plain) splitKept Split.start (t ++ [(.answer n env, ev)]) s' →
      Run (pooledSecured.split .plain) splitKept Split.start t s → s.waiting[n]? = some w →
        env.authenticator w.message ≠ "" → Current s w := by
  intro hall
  obtain ⟨s, h, hp⟩ := Run.exists_of_outputs (pooledSecured.split .plain) splitKept Split.start
    (annWaits ++ [.callback (.onError clientA "reset") steady]) [[], [], [], [], []]
    (fun s => s.waiting[0]?.any fun w => decide (w.message = "Ann" ∧ ¬ Current s w)) (by decide)
  obtain ⟨s', h', -⟩ := Run.exists_of_outputs (pooledSecured.split .plain) splitKept Split.start
    (annWaits ++ [.callback (.onError clientA "reset") steady, .answer 0 steady])
    [[], [], [], [], [], [.authenticator "Ann" "Ann", .send clientA "ok"]]
      (fun _ => true) (by decide)
  obtain ⟨w, hw, hp⟩ := (Option.any_eq_true _ _).1 hp
  obtain ⟨hm, hcur⟩ := of_decide_eq_true hp
  exact hcur (hall _ 0 steady _ s s' w h' h hw (by rw [hm]; decide))

end CppFrame.Server
