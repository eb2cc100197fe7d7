import CppFrame.Server.Locks
import CppFrame.Server.Others
import Mathlib.Data.List.TakeWhile

/-!
# Sends that throw

The two loops that send, where the sends to some connections throw and everyone in the channel can
be reached. `send_channel_presence` catches what a send throws and goes on. `broadcast` has its loop
inside the try block, so the first send that throws ends it. Where none throws, its sweep erases the
empty channels and increments the iterator that stood on one, which is undefined: loops are the
checked ones here. So a broadcast does what it should exactly where those whose sends throw come
last, and where a send throws or the sweep finds nothing to erase (`fansOut_iff`).
-/

namespace CppFrame.Server

open RangeFor UMap Locking WssEndpointHandler

/-- The sends to the clients of a room whose connections are in `F` throw, and nothing else does. -/
def sendFails (F : Connection → Bool) (room : Channel) : Op → Bool
  | .send clientKey _ => (room.get clientKey).connection.any F
  | _ => false

/-- A client whose connection is in `F`. -/
def failing (F : Connection → Bool) (n : Σ _ : String, SocketClient) : Bool := n.2.connection.any F

/-- A message to a client, at its connection. -/
def messageTo (env : Env) (message : String) (n : Σ _ : String, SocketClient) : Option Event :=
  (n.2.lock env).map fun con => .send con message

/-- The clients that a broadcast by `key` is for. -/
def eligible (weh : WssEndpointHandler) (key : String) (nodes : List (Σ _ : String, SocketClient)) :
    List (Σ _ : String, SocketClient) := nodes.filter fun n => weh.receives key n.1 n.2

/-- The clients whose sends do not throw. -/
def spared (F : Connection → Bool) (nodes : List (Σ _ : String, SocketClient)) :
    List (Σ _ : String, SocketClient) := nodes.filter fun n => !failing F n

/-- Fan-out with isolated failures. `broadcast` sends its message once to each client it is for
whose connection is not in `F`, and keeps every channel that is not empty; `send_channel_presence`
sends once to each authenticated client whose connection is not in `F`. -/
structure FansOut (weh : WssEndpointHandler) (env : Env) (F : Connection → Bool) (m : Clients)
    (channel key message : String) : Prop where
  broadcast : ∃ m' es,
    Task.broadcast weh .checked env (sendFails F (m.get channel))
    message key channel ⟨(m, []), false⟩ =
      (.returned (), ⟨(m', es), false⟩) ∧
    (heard es).Perm ((spared F (eligible weh key (m.get channel).entries)).filterMap
      (messageTo env message)) ∧
    ∀ ch room, m.lookup ch = some room → room.isEmpty = false → m'.lookup ch = some room
  presence : ∃ es,
    Task.sendChannelPresence weh .checked env (sendFails F (m.get channel))
    channel ⟨(m, []), false⟩ =
      (.returned (), ⟨(m, es), false⟩) ∧
    (heard es).Perm ((spared F (flagged (m.get channel).entries)).filterMap
      (presenceMessage env (m.get channel)))

/-- In walking order nobody whose send throws comes before somebody whose send does not. -/
def FailuresLast (weh : WssEndpointHandler) (F : Connection → Bool) (key : String)
    (room : Channel) : Prop :=
  (eligible weh key room.entries).Pairwise fun n n' => failing F n = true → failing F n' = true

/-- A client that the broadcast is for has a send that throws. -/
def SomeoneFails (weh : WssEndpointHandler) (F : Connection → Bool) (key : String)
    (room : Channel) : Prop :=
  ∃ n ∈ eligible weh key room.entries, failing F n = true

/-- The channel is there, and no channel is empty. -/
def NoneEmpty (m : Clients) (channel : String) : Prop :=
  channel ∈ m ∧ ∀ n ∈ m.entries, n.2.isEmpty = false

/-! ## Lists that are walked until a failure -/

section

variable {α : Type} {p : α → Bool} {l : List α}

theorem takeWhile_sublist_filter : (l.takeWhile p).Sublist (l.filter p) := by
  have h : (l.takeWhile p).filter p = l.takeWhile p :=
    List.filter_eq_self.2 fun _ ha => List.mem_takeWhile_imp ha
  rw [← h]
  exact (List.takeWhile_sublist p).filter p

/-- What comes before the first failure is all that does not fail, where the failures come last. -/
theorem takeWhile_eq_filter_iff :
    l.takeWhile p = l.filter p ↔ l.Pairwise fun a b => p a = false → p b = false := by
  induction l with
  | nil => exact iff_of_true rfl .nil
  | cons a l ih =>
    rw [List.pairwise_cons]
    cases ha : p a with
    | true =>
      rw [List.takeWhile_cons_of_pos ha, List.filter_cons_of_pos ha, List.cons_inj_right, ih]
      exact (and_iff_right fun _ _ h => nomatch h).symm
    | false =>
      have hneg : ¬ p a = true := by rw [ha]; exact Bool.false_ne_true
      rw [List.takeWhile_cons_of_neg hneg, List.filter_cons_of_neg hneg]
      constructor
      · intro h
        have hl : ∀ b ∈ l, p b = false := fun b hb =>
          Bool.eq_false_iff.2 (List.filter_eq_nil_iff.1 h.symm b hb)
        exact ⟨fun b hb _ => hl b hb, List.pairwise_of_forall_mem_list fun _ _ b hb _ => hl b hb⟩
      · rintro ⟨h, -⟩
        exact (List.filter_eq_nil_iff.2 fun b hb => Bool.eq_false_iff.1 (h b hb rfl)).symm

end

/-! ## The loops -/

variable {weh : WssEndpointHandler} {env : Env} {F : Connection → Bool} {m : Clients}
  {room : Channel} {channel key message : String} {n : Σ _ : String, SocketClient}
  {l : List (Σ _ : String, SocketClient)}

theorem eligible_cons_of_pos (hr : weh.receives key n.1 n.2 = true) :
    eligible weh key (n :: l) = n :: eligible weh key l := List.filter_cons_of_pos hr

theorem eligible_cons_of_neg (hr : ¬ weh.receives key n.1 n.2 = true) :
    eligible weh key (n :: l) = eligible weh key l := List.filter_cons_of_neg hr

theorem spared_cons_of_pos (hF : failing F n = true) : spared F (n :: l) = spared F l :=
  List.filter_cons_of_neg (by simpa using hF)

theorem spared_cons_of_neg (hF : ¬ failing F n = true) : spared F (n :: l) = n :: spared F l :=
  List.filter_cons_of_pos (by simpa using hF)

theorem not_logFails (weh : WssEndpointHandler) (F : Connection → Bool) (room : Channel)
    (message : String) :
    ¬ LogFails weh (sendFails F room) message := fun h => Bool.false_ne_true h.2

theorem sendFails_send (hn : n ∈ room.entries) (message : String) :
    sendFails F room (.send n.1 message) = failing F n := by
  unfold sendFails failing UMap.get
  dsimp only
  rw [mem_entries.1 hn]
  rfl

/-- A client that a broadcast is for: its send throws, or it gets the message. -/
theorem broadcastTo_run (F : Connection → Bool) (channel message : String) (hn : n ∈ room.entries)
    (hlive : (n.2.lock env).isSome = true) (hr : weh.receives key n.1 n.2 = true) (m : Clients)
    (es : List Event) : ∃ es',
      heard es' = (if failing F n then [] else [n].filterMap (messageTo env message)) ∧
      Task.broadcastTo weh env (sendFails F room) message key channel n ⟨(m, es), false⟩ =
        (if failing F n then .threw else .returned (), ⟨(m, es ++ es'), false⟩) := by
  obtain ⟨con, hcon⟩ := Option.isSome_iff_exists.1 hlive
  have hlog := log_returned (not_logFails weh F room (channel ++ " " ++ n.1 ++
    ": Sending broadcast message"))
    .debug m es false
  unfold Task.broadcastTo
  rw [if_pos hr, hcon]
  dsimp only
  rw [run_bind_of hlog, emit_run, sendFails_send hn]
  by_cases hF : failing F n = true
  · rw [if_pos hF, if_pos hF, if_pos hF]
    exact ⟨_, heard_log _ _ _, rfl⟩
  · rw [if_neg hF, if_neg hF, if_neg hF, List.append_assoc]
    refine ⟨_, ?_, rfl⟩
    rw [heard_append, heard_log, List.filterMap_cons_some (by rw [messageTo, hcon]; rfl)]
    rfl

theorem someoneFails_cons_of_neg (hF : ¬ failing F n = true) :
    (∃ n' ∈ n :: l, failing F n' = true) ↔ ∃ n' ∈ l, failing F n' = true := by
  rw [List.exists_mem_cons_iff, or_iff_right hF]

/-- The loop of `broadcast` sends until the first send that throws. -/
theorem forNodes_broadcastTo_run (weh : WssEndpointHandler) (F : Connection → Bool)
    (key channel message : String) (hl : ∀ n ∈ l, n ∈ room.entries ∧ (n.2.lock env).isSome = true)
    (hin : ∀ n ∈ l, (m.lookup channel).any (n.1 ∈ ·) = true) (es : List Event) :
    ∃ e es', heard es' = ((eligible weh key l).takeWhile fun n => !failing F n).filterMap
        (messageTo env message) ∧
      (e = .threw ∧ (∃ n ∈ eligible weh key l, failing F n = true) ∨
        e = .returned () ∧ ¬ ∃ n ∈ eligible weh key l, failing F n = true) ∧
      Task.forNodes .checked (·.lookup channel)
          (Task.broadcastTo weh env (sendFails F room) message key channel) l ⟨(m, es), false⟩ =
        (e, ⟨(m, es ++ es'), false⟩) := by
  induction l generalizing es with
  | nil => exact ⟨.returned (), [], rfl, .inr ⟨rfl, fun ⟨n, hn, _⟩ => by cases hn⟩, by
    rw [List.append_nil]; rfl⟩
  | cons n l ih =>
    obtain ⟨hn, hlive⟩ := hl n List.mem_cons_self
    have hnext : increments .checked ((m.lookup channel).any (n.1 ∈ ·)) = true :=
      hin n List.mem_cons_self
    have ih := ih (fun n hn => hl n (List.mem_cons_of_mem _ hn)) fun n hn =>
      hin n (List.mem_cons_of_mem _ hn)
    rw [Task.forNodes, forEach]
    by_cases hr : weh.receives key n.1 n.2 = true
    · rw [eligible_cons_of_pos hr]
      obtain ⟨es₁, hes₁, hrun⟩ := broadcastTo_run F channel message hn hlive hr m es
      by_cases hF : failing F n = true
      · rw [if_pos hF] at hes₁ hrun
        rw [List.takeWhile_cons_of_neg (by rw [hF]; decide), run_bind, hrun]
        exact ⟨.threw, es₁, hes₁, .inl ⟨rfl, n, List.mem_cons_self, hF⟩, rfl⟩
      · rw [if_neg hF] at hes₁ hrun
        obtain ⟨e, es₂, hes₂, he, hrest⟩ := ih (es ++ es₁)
        rw [List.takeWhile_cons_of_pos (by simpa using hF), run_bind_of hrun, run_require]
        refine ⟨e, es₁ ++ es₂, ?_, ?_,
          (if_pos hnext).trans (hrest.trans (by rw [List.append_assoc]))⟩
        · rw [heard_append, hes₁, hes₂, ← List.filterMap_append]
          rfl
        · rwa [someoneFails_cons_of_neg hF]
    · have hskip : Task.broadcastTo weh env (sendFails F room)
        message key channel n ⟨(m, es), false⟩ =
          (.returned (), ⟨(m, es), false⟩) := by
        unfold Task.broadcastTo
        rw [if_neg hr]
        rfl
      obtain ⟨e, es', hes', he, hrest⟩ := ih es
      rw [eligible_cons_of_neg hr, run_bind_of hskip, run_require]
      exact ⟨e, es', hes', he, (if_pos hnext).trans hrest⟩

/-- One round of the loop of `send_channel_presence`, which goes on whatever the send does. -/
theorem presenceTo_run (F : Connection → Bool) (hn : n ∈ (m.get channel).entries)
    (hlive : (n.2.lock env).isSome = true) (es : List Event) :
    Task.presenceTo weh env (sendFails F (m.get channel)) channel n
      ⟨(m, es), false⟩ = (.returned (),
      ⟨(m, es ++ (spared F (flagged [n])).filterMap (presenceMessage env (m.get channel))),
        false⟩) := by
  obtain ⟨con, hcon⟩ := Option.isSome_iff_exists.1 hlive
  unfold Task.presenceTo
  by_cases ha : n.2.authenticated = true
  · have hemit : Task.emit (sendFails F (m.get channel)) _ _ ⟨(m, es), false⟩ = _ :=
      emit_run (.send n.1 (presenceJson n.1 (m.get channel).entries))
      (.send con (presenceJson n.1 (m.get channel).entries)) m es false
    rw [sendFails_send hn] at hemit
    have hflag : flagged [n] = [n] := List.filter_cons_of_pos ha
    have hquiet : sendFails F (m.get channel) (.presenceText n.1) = false := rfl
    rw [if_pos ha, run_attempt_of _ hquiet, run_registry, hcon, hflag]
    dsimp only
    by_cases hF : failing F n = true
    · rw [if_pos hF] at hemit
      rw [tryCatch_of_threw hemit, spared_cons_of_pos hF, spared,
        List.filter_nil, List.filterMap_nil,
        List.append_nil]
      rfl
    · rw [if_neg hF] at hemit
      rw [tryCatch_of_returned hemit, spared_cons_of_neg hF, spared, List.filter_nil,
        List.filterMap_cons_some (by rw [presenceMessage, hcon]; rfl), presenceJson_eq_othersText]
      rfl
  · have hflag : flagged [n] = [] := List.filter_cons_of_neg ha
    rw [if_neg ha, hflag, spared, List.filter_nil, List.filterMap_nil, List.append_nil]
    rfl

theorem forNodes_presenceTo_run (F : Connection → Bool)
    (hl : ∀ n ∈ l, n ∈ (m.get channel).entries ∧ (n.2.lock env).isSome = true)
    (hin : ∀ n ∈ l, (m.lookup channel).any (n.1 ∈ ·) = true) (es : List Event) :
    Task.forNodes .checked (·.lookup channel)
      (Task.presenceTo weh env (sendFails F (m.get channel)) channel) l
      ⟨(m, es), false⟩ = (.returned (),
      ⟨(m, es ++ (spared F (flagged l)).filterMap (presenceMessage env (m.get channel))),
        false⟩) := by
  induction l generalizing es with
  | nil =>
    rw [flagged, List.filter_nil, spared, List.filter_nil, List.filterMap_nil, List.append_nil]
    rfl
  | cons n l ih =>
    obtain ⟨hn, hlive⟩ := hl n List.mem_cons_self
    have hnext : increments .checked ((m.lookup channel).any (n.1 ∈ ·)) = true :=
      hin n List.mem_cons_self
    have ih := ih (fun n hn => hl n (List.mem_cons_of_mem _ hn)) fun n hn =>
      hin n (List.mem_cons_of_mem _ hn)
    have hcons : (spared F (flagged (n :: l))).filterMap (presenceMessage env (m.get channel)) =
        (spared F (flagged [n])).filterMap (presenceMessage env (m.get channel)) ++
          (spared F (flagged l)).filterMap (presenceMessage env (m.get channel)) := by
      unfold spared flagged
      rw [← List.filterMap_append, ← List.filter_append, ← List.filter_append]
      rfl
    rw [Task.forNodes, forEach, run_bind_of (presenceTo_run F hn hlive es), run_require, hcons,
      ← List.append_assoc]
    exact (if_pos hnext).trans (ih _)

/-- A presence round reaches everyone whose send does not throw. -/
theorem sendChannelPresence_run (weh : WssEndpointHandler) (F : Connection → Bool)
    (hlive : AllLive env (m.get channel)) :
    Task.sendChannelPresence weh .checked env (sendFails F (m.get channel))
      channel ⟨(m, []), false⟩ =
      (.returned (), ⟨(m, (spared F (flagged (m.get channel).entries)).filterMap
        (presenceMessage env (m.get channel))), false⟩) := by
  have hquiet : sendFails F (m.get channel) .presenceArguments = false := rfl
  unfold Task.sendChannelPresence
  rw [run_attempt_of _ hquiet, run_registry]
  dsimp only
  by_cases hm : channel ∈ m
  · rw [if_pos hm]
    exact forNodes_presenceTo_run F (fun n hn => ⟨hn, hlive n hn⟩) (fun n hn => mem_walked hm hn) []
  · rw [if_neg hm, get_of_notMem hm]
    rfl

/-- A channel that is not empty is found by what `operator[]` gives. -/
theorem lookup_of_get {m' : Clients} {ch : String} (hget : m'.get ch = m.get ch)
    (h : m.lookup ch = some room) (hne : room.isEmpty = false) : m'.lookup ch = some room := by
  unfold UMap.get at hget
  rw [h, Option.getD_some] at hget
  cases h' : m'.lookup ch with
  | some room' =>
    rw [h'] at hget
    exact congrArg some hget
  | none =>
    rw [h', Option.getD_none] at hget
    rw [← hget] at hne
    cases hne

/-- The sweep of a broadcast finds nothing to erase. -/
theorem noneEmpty_iff (nodes : UMap.Arrangement String Channel) (m : Clients) (channel : String) :
    NoneEmpty m channel ↔ ∀ n ∈ (m.index nodes channel).entries, n.2.isEmpty = false := by
  by_cases hm : channel ∈ m
  · rw [index_of_mem hm, NoneEmpty, and_iff_right hm]
  · refine iff_of_false (fun h => hm h.1) fun h => ?_
    -- the node that `operator[]` makes is empty
    have hnew := h ⟨channel, default⟩ ((perm_index_of_notMem hm).mem_iff.2 List.mem_cons_self)
    cases hnew

/-- The recipients' loop of `broadcast`, and what follows it in the try block: where a send threw
nothing, else the sweep. -/
theorem broadcast_loops (weh : WssEndpointHandler) (F : Connection → Bool) (key message : String)
    (hlive : AllLive env (m.get channel)) : ∃ es,
    heard es = ((eligible weh key (m.get channel).entries).takeWhile fun n =>
      !failing F n).filterMap
      (messageTo env message) ∧
    (SomeoneFails weh F key (m.get channel) →
      Task.broadcast weh .checked env (sendFails F (m.get channel)) message key
        channel ⟨(m, []), false⟩ =
        (.returned (), ⟨(m.index env.channelNodes channel, es), false⟩)) ∧
    (¬ SomeoneFails weh F key (m.get channel) →
      EndsLike es (rangeFor .checked some sweep (m.index env.channelNodes channel).entries
        (m.index env.channelNodes channel))
        (Task.broadcast weh .checked env (sendFails F (m.get channel)) message key channel
          ⟨(m, []), false⟩)) := by
  have hquiet : sendFails F (m.get channel) .broadcastArguments = false := rfl
  have hnode : ¬ (channel ∉ m ∧ sendFails F (m.get channel) .broadcastNode = true) := fun h =>
    Bool.false_ne_true h.2
  have hget : (m.index env.channelNodes channel).get channel = m.get channel := get_index _ _ _ _
  have hin : ∀ n ∈ (m.get channel).entries,
    ((m.index env.channelNodes channel).lookup channel).any (n.1 ∈ ·) =
      true := fun n hn => mem_walked (mem_index _ _ _) (hget ▸ hn)
  obtain ⟨e, es, hes, he, hrun⟩ :=
    forNodes_broadcastTo_run weh F key channel message (fun n hn => ⟨hn, hlive n hn⟩) hin []
  unfold Task.broadcast
  rw [run_attempt_of _ hquiet]
  refine ⟨es, hes, fun hfails => tryCatch_of_threw ?_, fun hnone => EndsLike.tryCatch ?_⟩
  · obtain ⟨rfl, -⟩ := he.resolve_right fun h => h.2 hfails
    rw [run_bind_of (channelAt_returned hnode), run_registry]
    dsimp only
    rw [hget, run_bind, hrun]
    rfl
  · obtain ⟨rfl, -⟩ := he.resolve_left fun h => hnone h.2
    rw [run_bind_of (channelAt_returned hnode), run_registry]
    dsimp only
    rw [hget, run_bind_of hrun, run_registry]
    exact forNodes_quiet sweep_quiet _ _ _

/-- Where a send throws or the sweep finds nothing to erase, `broadcast` ends normally. It has sent
to the clients that it is for, until the first send that threw. -/
theorem broadcast_run (weh : WssEndpointHandler) (F : Connection → Bool) (key message : String)
    (hlive : AllLive env (m.get channel))
    (hends : SomeoneFails weh F key (m.get channel) ∨ NoneEmpty m channel) : ∃ m' es,
    Task.broadcast weh .checked env (sendFails F (m.get channel)) message key
      channel ⟨(m, []), false⟩ =
      (.returned (), ⟨(m', es), false⟩) ∧
    heard es = ((eligible weh key (m.get channel).entries).takeWhile fun n =>
      !failing F n).filterMap
      (messageTo env message) ∧
    ∀ ch, m'.get ch = m.get ch := by
  obtain ⟨es, hes, hfailed, hswept⟩ := broadcast_loops weh F key message hlive
  by_cases hfails : SomeoneFails weh F key (m.get channel)
  · exact ⟨_, es, hfailed hfails, hes, fun ch => get_index _ _ _ _⟩
  · have hsome :=
      (sweep_isSome _).2 ((noneEmpty_iff env.channelNodes m channel).1 (hends.resolve_left hfails))
    obtain ⟨r, hr⟩ := Option.isSome_iff_exists.1 hsome
    have hrun := hswept hfails
    rw [hr, eq_visit hr] at hrun
    refine ⟨_, _, hrun, ?_, fun ch => ((get_sweep _ _ ch).1).trans (get_index _ _ _ _)⟩
    rw [(get_sweep _ _ channel).2, List.append_nil, hes]

/-- Where no send throws and the sweep finds an empty channel, `broadcast` comes to an increment of
an iterator whose node is gone. -/
theorem broadcast_undefined (weh : WssEndpointHandler) (F : Connection → Bool)
    (key message : String) (hlive : AllLive env (m.get channel))
    (hnone : ¬ SomeoneFails weh F key (m.get channel)) (hempty : ¬ NoneEmpty m channel) :
    (Task.broadcast weh .checked env (sendFails F (m.get channel)) message key channel
      ⟨(m, []), false⟩).1 =
      .undefined := by
  obtain ⟨es, -, -, hswept⟩ := broadcast_loops weh F key message hlive
  have hrun := hswept hnone
  rw [noneEmpty_iff env.channelNodes, ← sweep_isSome, Option.not_isSome_iff_eq_none] at hempty
  rw [hempty] at hrun
  exact hrun

/-! ## The fan-out -/

theorem failuresLast_iff : FailuresLast weh F key room ↔
    (eligible weh key room.entries).takeWhile (fun n => !failing F n) =
      spared F (eligible weh key room.entries) := by
  unfold FailuresLast spared
  rw [takeWhile_eq_filter_iff]
  simp only [Bool.not_eq_false']

theorem isSome_messageTo (hlive : AllLive env room) (message : String)
    (hn : n ∈ eligible weh key room.entries) :
    (messageTo env message n).isSome = true := by
  rw [messageTo, Option.isSome_map]
  exact hlive n (List.mem_of_mem_filter hn)

/-- **Fan-out with isolated failures.** Where everyone in a channel can be reached, a presence round
and a broadcast reach exactly those that they should, whatever sends throw, if and only if in
walking order no client that the broadcast is for and whose send throws stands before one whose send
does not, and such a send throws or no channel is empty when the sweep runs. -/
theorem fansOut_iff (weh : WssEndpointHandler) (env : Env) (F : Connection → Bool) (m : Clients)
    (channel key message : String) (hlive : AllLive env (m.get channel)) :
    FansOut weh env F m channel key message ↔ FailuresLast weh F key (m.get channel) ∧
      (SomeoneFails weh F key (m.get channel) ∨ NoneEmpty m channel) := by
  rw [failuresLast_iff]
  by_cases hends : SomeoneFails weh F key (m.get channel) ∨ NoneEmpty m channel
  · rw [and_iff_left hends]
    obtain ⟨m', es, hrun, hes, hget⟩ := broadcast_run weh F key message hlive hends
    constructor
    · rintro ⟨⟨m'', es', hrun', hperm, -⟩, -⟩
      have heq : es = es' := by
        rw [hrun] at hrun'
        cases hrun'
        rfl
      rw [← heq, hes] at hperm
      have hspared : ∀ n ∈ spared F (eligible weh key (m.get channel).entries),
          (messageTo env message n).isSome = true := fun n hn =>
        isSome_messageTo hlive message (List.mem_of_mem_filter hn)
      have hsent := hperm.length_eq
      rw [length_filterMap_of_isSome hspared, length_filterMap_of_isSome fun n hn =>
        isSome_messageTo hlive message ((List.takeWhile_sublist _).subset hn)] at hsent
      exact takeWhile_sublist_filter.eq_of_length hsent
    · intro hlast
      refine ⟨⟨m', es, hrun, ?_, fun ch room h hne => lookup_of_get (hget ch) h hne⟩,
        ⟨_, sendChannelPresence_run weh F hlive, .of_eq (heard_presenceMessages _ _)⟩⟩
      rw [hes, hlast]
  · refine iff_of_false ?_ fun h => hends h.2
    rintro ⟨⟨m', es, hrun, -⟩, -⟩
    have hundef := broadcast_undefined weh F key message hlive (fun h => hends (.inl h))
      fun h => hends (.inr h)
    rw [hrun] at hundef
    cases hundef

/-- The connection of the first client of `room1` throws. -/
def firstThrows (con : Connection) : Bool := con = clientA

/-- The connection of the second client of `room1` throws. -/
def secondThrows (con : Connection) : Bool := con = clientB

/-- A broadcast by the third client reaches the first one, as the send that throws is the last. -/
theorem fansOut_iff_second : AllLive steady (threeClients.get "room1") ∧
    FansOut secured steady secondThrows threeClients "room1" "10.0.0.3:5000" "hello" := by
  have hlive : AllLive steady (threeClients.get "room1") := by decide
  refine ⟨hlive, (fansOut_iff secured steady secondThrows threeClients "room1" "10.0.0.3:5000"
    "hello" hlive).2 ?_⟩
  unfold FailuresLast NoneEmpty
  exact ⟨by decide, .inr (by decide)⟩

/-- The second client does not get what the third one broadcasts, as the send to the first one
throws. -/
theorem second_unreached : AllLive steady (threeClients.get "room1") ∧
    ¬ FansOut secured steady firstThrows threeClients "room1" "10.0.0.3:5000" "hello" := by
  have hlive : AllLive steady (threeClients.get "room1") := by decide
  refine ⟨hlive, fun h => ?_⟩
  obtain ⟨m', es, hrun, hes, -⟩ := broadcast_run secured firstThrows "10.0.0.3:5000" "hello" hlive
    (.inr (by unfold NoneEmpty; decide))
  obtain ⟨m'', es', hrun', hperm, -⟩ := h.broadcast
  have hnone : heard es = [] := hes
  rw [hrun] at hrun'
  cases hrun'
  rw [hnone] at hperm
  exact absurd hperm.length_eq (by decide)

end CppFrame.Server
