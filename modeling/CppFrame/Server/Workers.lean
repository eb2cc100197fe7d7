import CppFrame.Concurrency.TaskQueue
import CppFrame.Server.Pooled
import Mathlib.Data.Fintype.Basic

/-!
# The handler and the workers of its pool

A worker takes the oldest task under the lock of the queue and runs it after the lock is released,
so that another worker can take the next task and run it first. `WssEndpointHandler.workers` is the
handler with any number of such workers, where running a task is one step. As a queue with workers
it is a `TaskQueue` (`workers_queue`). Two messages of a connection go out in the order of their
callbacks where no worker takes the later one while another still holds the earlier one
(`messages_in_order`).
-/

namespace CppFrame.Server

open RangeFor

variable {ι : Type}

/-! ## The machine -/

/-- A callback with its number, which tells two equal callbacks apart. -/
abbrev Numbered := Nat × Callback

/-- The registry, the number of callbacks made, and the queue with what each worker holds. -/
structure Workers (ι : Type) where
  clients : Clients
  calls : Nat
  queue : TaskQueue ι Numbered

/-- A callback is made, or a worker takes a task, or it runs the task that it holds. -/
inductive WorkersInput (ι : Type)
  | callback (cb : Callback) (env : Env)
  | take (w : ι)
  | execute (w : ι) (env : Env)

/-- What a step did, and to which callback. -/
inductive Report
  | queued (x : Numbered)
  | taken (x : Numbered)
  | handled (x : Numbered) (ev : List Event)
  deriving DecidableEq

/-- No clients, no tasks, and idle workers. -/
def Workers.start : Workers ι := ⟨∅, 0, TaskQueue.empty⟩

/-- One step. -/
def WssEndpointHandler.workers [DecidableEq ι] (weh : WssEndpointHandler) (it : Iteration)
    (s : Workers ι) : WorkersInput ι → Option (Workers ι × Report)
  | .callback cb env =>
    if weh.queues cb then
      some (⟨s.clients, s.calls + 1, { s.queue with tasks := s.queue.tasks ++ [(s.calls, cb)] }⟩,
        .queued (s.calls, cb))
    else (weh.handle it env s.clients cb).map fun r =>
      (⟨r.1, s.calls + 1, s.queue⟩, .handled (s.calls, cb) r.2)
  | .take w =>
    match s.queue.held w, s.queue.tasks with
    | none, x :: rest =>
      some ({ s with queue := ⟨rest, Function.update s.queue.held w (some x)⟩ }, .taken x)
    | _, _ => none
  | .execute w env =>
    match s.queue.held w with
    | some x => (weh.handle it env s.clients x.2).map fun r =>
        (⟨r.1, s.calls, { s.queue with held := Function.update s.queue.held w none }⟩,
          .handled x r.2)
    | none => none

/-- The steps so far, with what they did. -/
abbrev WorkersTrace (ι : Type) := List (WorkersInput ι × Report)

variable [DecidableEq ι] {weh : WssEndpointHandler} {it : Iteration} {s s' : Workers ι}
  {i : WorkersInput ι} {r : Report} {t : WorkersTrace ι}
  {guard : Workers ι → WorkersTrace ι → WorkersInput ι → Prop}

/-- What a step can do. -/
inductive Works (weh : WssEndpointHandler) (s : Workers ι) : WorkersInput ι →
    Workers ι → Report → Prop
  | queued {cb : Callback} {env : Env} (hq : weh.queues cb = true) :
      Works weh s (.callback cb env)
        ⟨s.clients, s.calls + 1, { s.queue with tasks := s.queue.tasks ++ [(s.calls, cb)] }⟩
        (.queued (s.calls, cb))
  | atOnce {cb : Callback} {env : Env} {m' : Clients} {ev : List Event} (hq : weh.queues cb = false)
      (he : Effect weh env s.clients cb m' ev) :
      Works weh s (.callback cb env) ⟨m', s.calls + 1, s.queue⟩ (.handled (s.calls, cb) ev)
  | taken {w : ι} {x : Numbered} {rest : List Numbered} (hw : s.queue.held w = none)
      (ht : s.queue.tasks = x :: rest) :
      Works weh s (.take w) { s with queue := ⟨rest, Function.update s.queue.held w (some x)⟩ }
        (.taken x)
  | executed {w : ι} {x : Numbered} {env : Env} {m' : Clients} {ev : List Event}
      (hw : s.queue.held w = some x) (he : Effect weh env s.clients x.2 m' ev) :
      Works weh s (.execute w env)
        ⟨m', s.calls, { s.queue with held := Function.update s.queue.held w none }⟩ (.handled x ev)

theorem workers_works (h : weh.workers it s i = some (s', r)) : Works weh s i s' r := by
  cases i with
  | callback cb env =>
    simp only [WssEndpointHandler.workers] at h
    split_ifs at h with hq
    · cases h
      exact .queued hq
    · obtain ⟨r, hr, he⟩ := Option.map_eq_some_iff.1 h
      cases he
      exact .atOnce (Bool.eq_false_iff.2 hq) (handle_effect hr)
  | take w =>
    simp only [WssEndpointHandler.workers] at h
    split at h
    · cases h
      rename_i hw ht
      exact .taken hw ht
    · cases h
  | execute w env =>
    simp only [WssEndpointHandler.workers] at h
    split at h
    · rename_i x hw
      obtain ⟨r, hr, he⟩ := Option.map_eq_some_iff.1 h
      cases he
      exact .executed hw (handle_effect hr)
    · cases h

/-! ## The machine as a queue -/

/-- The move of the queue in a step. -/
def asMove : WorkersInput ι × Report → Option (TaskQueue.Move ι Numbered × TaskQueue.Event Numbered)
  | (.callback _ _, .queued x) => some (.push x, .pushed x)
  | (.take w, .taken x) => some (.take w, .taken x)
  | (.execute w _, .handled x _) => some (.finish w, .finished x)
  | _ => none

/-- The tasks queued, in order. -/
def queued (t : WorkersTrace ι) : List Numbered := TaskQueue.pushed (t.filterMap asMove)

/-- The tasks that were run, in order. -/
def finishedTasks (t : WorkersTrace ι) : List Numbered := TaskQueue.finished (t.filterMap asMove)

omit [DecidableEq ι] in
theorem finishedTasks_append (t t' : WorkersTrace ι) :
    finishedTasks (t ++ t') = finishedTasks t ++ finishedTasks t' := by
  unfold finishedTasks TaskQueue.finished
  rw [List.filterMap_append, List.filterMap_append]

omit [DecidableEq ι] in
theorem queued_append (t t' : WorkersTrace ι) : queued (t ++ t') = queued t ++ queued t' := by
  unfold queued TaskQueue.pushed
  rw [List.filterMap_append, List.filterMap_append]

/-- A step queues nothing, or it queues a callback under the next number. -/
theorem queued_cases (h : Works weh s i s' r) :
    queued [(i, r)] = [] ∧ s.calls ≤ s'.calls ∨
      ∃ cb, queued [(i, r)] = [(s.calls, cb)] ∧ s'.calls = s.calls + 1 := by
  cases h with
  | @queued cb _ _ => exact .inr ⟨cb, rfl, rfl⟩
  | atOnce => exact .inl ⟨rfl, Nat.le_succ _⟩
  | taken => exact .inl ⟨rfl, le_rfl⟩
  | executed => exact .inl ⟨rfl, le_rfl⟩

/-- Tasks are queued in the order of their numbers, all below the number of callbacks made. -/
theorem queued_numbers (h : Run (weh.workers it) guard Workers.start t s) :
    (queued t).Pairwise (fun x y => x.1 < y.1) ∧ ∀ x ∈ queued t, x.1 < s.calls := by
  refine h.invariant (P := fun t s => (queued t).Pairwise (fun x y => x.1 < y.1) ∧
    ∀ x ∈ queued t, x.1 < s.calls) ⟨List.Pairwise.nil, fun x hx => by cases hx⟩ ?_
  intro t s i s' r ⟨hpair, hlt⟩ _ hs
  rw [queued_append]
  rcases queued_cases (workers_works hs) with ⟨hr, hc⟩ | ⟨cb, hr, hc⟩
  · rw [hr, List.append_nil]
    exact ⟨hpair, fun x hx => Nat.lt_of_lt_of_le (hlt x hx) hc⟩
  · rw [hr, hc]
    refine ⟨List.pairwise_append.2 ⟨hpair, List.pairwise_singleton _ _, fun x hx y hy => ?_⟩,
      fun x hx => ?_⟩
    · rw [List.mem_singleton.1 hy]
      exact hlt x hx
    · rcases List.mem_append.1 hx with hx | hx
      · exact Nat.lt_succ_of_lt (hlt x hx)
      · rw [List.mem_singleton.1 hx]
        exact Nat.lt_succ_self _

/-- The callbacks with the numbers `n₁` and `n₂`. -/
def areNumbered (n₁ n₂ : Nat) (x y : Numbered) : Prop := x.1 = n₁ ∧ y.1 = n₂

/-- No worker takes the callback `n₂` while one holds the callback `n₁`. -/
def apart (n₁ n₂ : Nat) (s : Workers ι) (_ : WorkersTrace ι) : WorkersInput ι → Prop
  | .take _ => ∀ y ∈ s.queue.tasks.head?, ∀ w, ∀ x ∈ s.queue.held w, ¬ areNumbered n₁ n₂ x y
  | _ => True

/-- **The pool is a queue with workers.** -/
theorem workers_queue {n₁ n₂ : Nat} (h : Run (weh.workers it) (apart n₁ n₂) Workers.start t s) :
    Run TaskQueue.step (TaskQueue.inTurn (areNumbered n₁ n₂)) TaskQueue.empty (t.filterMap asMove)
      s.queue := by
  refine Run.simulates (f := Workers.queue) (g := asMove) ?_ ?_ h
  · intro t s i s' r _ _ hs hq
    cases workers_works hs with
    | atOnce => rfl
    | _ => cases hq
  · intro t s i s' r a e hr hg hs hm
    cases workers_works hs with
    | queued =>
      cases hm
      exact ⟨fun hx => (Nat.lt_irrefl _ ((queued_numbers hr).2 _ hx)), rfl⟩
    | atOnce => cases hm
    | taken hw ht =>
      cases hm
      exact ⟨hg, by simp [TaskQueue.step, hw, ht]⟩
    | executed hw =>
      cases hm
      exact ⟨trivial, by simp [TaskQueue.step, hw]⟩

/-! ## The order of the messages of a connection -/

/-- A client of the channel of `c` that can be reached and is sent the messages of `c`. -/
def Eligible (weh : WssEndpointHandler) (env : Env) (m : Clients) (c d : Connection) : Prop :=
  ∃ k e, (m.get c.channel).lookup k = some e ∧ weh.receives c.clientKey k e =
    true ∧ e.lock env = some d

/-- The `n`-th callback is a message `msg` of `c`, its task was run and broadcast the message, and
`d` was eligible then. -/
def Broadcast (weh : WssEndpointHandler) (it : Iteration) (t : WorkersTrace ι) (n : Nat)
    (c : Connection) (msg : String) (d : Connection) : Prop :=
  ∃ t₁ w env ev t₂ s₁, t = t₁ ++ (.execute w env, .handled (n, .onMessage c msg) ev) :: t₂ ∧
    Run (weh.workers it) (fun _ _ _ => True) Workers.start t₁ s₁ ∧
    handling weh env s₁.clients c msg = .broadcast ∧ Eligible weh env s₁.clients c d

/-- The `n₁`-th callback is handled before the `n₂`-th, and `d` is sent `x₁` by the one and `x₂` by
the other. -/
def SentBefore (t : WorkersTrace ι) (d : Connection) (n₁ : Nat) (x₁ : String) (n₂ : Nat)
    (x₂ : String) : Prop :=
  ∃ t₁ i₁ cb₁ ev₁ t₂ i₂ cb₂ ev₂ t₃, t = t₁ ++ (i₁, .handled (n₁, cb₁) ev₁) ::
      (t₂ ++ (i₂, .handled (n₂, cb₂) ev₂) :: t₃) ∧ .send d x₁ ∈ ev₁ ∧ .send d x₂ ∈ ev₂

/-- A broadcast reaches everyone who is eligible. -/
theorem Works.send {c d : Connection} {n : Nat} {msg : String} {w : ι} {env : Env} {ev : List Event}
    (h : Works weh s (.execute w env) s' (.handled (n, .onMessage c msg) ev))
    (hb : handling weh env s.clients c msg = .broadcast) (hd : Eligible weh env s.clients c d) :
    .send d ("MESSAGE" ++ msg) ∈ ev := by
  cases h with
  | executed hw he =>
    obtain ⟨k, e, hk, hrec, hl⟩ := hd
    have hne : k ≠ c.clientKey := by
      rintro rfl
      simp [WssEndpointHandler.receives] at hrec
    refine (he.broadcasts hb).complete k e d ?_ hrec hl
    rw [lookup_roomOf, if_neg hne]
    exact hk

/-- The task of a broadcast, with the worker that held it. -/
theorem Broadcast.sent {c d : Connection} {n : Nat} {msg : String}
    (hb : Broadcast weh it t n c msg d) (h : Run (weh.workers it) guard Workers.start t s) :
    ∃ t₁ w env ev t₂ s₁, t = t₁ ++ (.execute w env, .handled (n, .onMessage c msg) ev) :: t₂ ∧
      Run (weh.workers it) guard Workers.start t₁ s₁ ∧ s₁.queue.held w =
        some (n, .onMessage c msg) ∧
      .send d ("MESSAGE" ++ msg) ∈ ev := by
  obtain ⟨t₁, w, env, ev, t₂, s₁, rfl, hr, hb, hd⟩ := hb
  obtain ⟨s₁', s₂, hrun, -, hs, -⟩ := h.step_at
  obtain rfl := (hrun.mono fun _ _ _ _ => trivial).state_unique hr
  have hw := workers_works hs
  refine ⟨t₁, w, env, ev, t₂, s₁', rfl, hrun, ?_, hw.send hb hd⟩
  cases hw with
  | executed hw => exact hw

omit [DecidableEq ι] in
/-- Where two steps of a trace are, if the first of them is known to be over when the second is
taken. -/
theorem before_of_finished {t₁ t₂ t₁' t₂' : WorkersTrace ι} {w₁ w₂ : ι} {env₁ env₂ : Env}
    {x₁ x₂ : Numbered} {ev₁ ev₂ : List Event}
    (h : t₁ ++ (.execute w₁ env₁, .handled x₁ ev₁) :: t₁' =
      t₂ ++ (.execute w₂ env₂, .handled x₂ ev₂) :: t₂')
    (hnd : (finishedTasks (t₁ ++ (.execute w₁ env₁, .handled x₁ ev₁) :: t₁')).Nodup)
    (hx : x₁ ∈ finishedTasks t₂) (hne : x₁ ≠ x₂) :
    ∃ t, t₂ = t₁ ++ (.execute w₁ env₁, .handled x₁ ev₁) :: t := by
  rcases List.append_eq_append_iff.1 h with ⟨as, rfl, has⟩ | ⟨bs, rfl, hbs⟩
  · cases as with
    | nil =>
      cases has
      exact absurd rfl hne
    | cons a as =>
      obtain ⟨rfl, -⟩ := List.cons.inj has
      exact ⟨as, rfl⟩
  · -- then the first task would be finished twice
    rw [finishedTasks_append, finishedTasks_append, List.append_assoc] at hnd
    refine absurd rfl ((List.nodup_append.1 hnd).2.2 x₁ hx x₁ (List.mem_append_right _ ?_))
    exact List.mem_cons_self

/-- A task of a lower number was queued before a task that is queued. -/
theorem sublist_of_lt {q q' : List Numbered} {x y : Numbered}
    (hq : (q ++ q').Pairwise (fun x y => x.1 < y.1)) (hx : x ∈ q ++ q') (hy : y ∈ q)
    (hlt : x.1 < y.1) :
    [x, y].Sublist q := by
  obtain ⟨a, b, rfl⟩ := List.append_of_mem hy
  rw [List.append_assoc, List.cons_append] at hq hx
  obtain ⟨-, hq, -⟩ := List.pairwise_append.1 hq
  rcases List.mem_append.1 hx with hx | hx
  · exact (List.singleton_sublist.2 hx).append (List.singleton_sublist.2 List.mem_cons_self)
  · rcases List.mem_cons.1 hx with rfl | hx
    · exact absurd hlt (Nat.lt_irrefl _)
    · exact absurd hlt (Nat.lt_asymm ((List.pairwise_cons.1 hq).1 x hx))

/-- **Two messages of one sender keep their order** where no worker takes the later one while
another still holds the earlier one: once both were broadcast, the earlier one was sent first to
everyone who was eligible for both. -/
theorem messages_in_order {c d : Connection} {n₁ n₂ : Nat} {m₁ m₂ : String}
    (h : Run (weh.workers it) (apart n₁ n₂) Workers.start t s) (h₁ : Broadcast weh it t n₁ c m₁ d)
    (h₂ : Broadcast weh it t n₂ c m₂ d) (hn : n₁ < n₂) :
    SentBefore t d n₁ ("MESSAGE" ++ m₁) n₂ ("MESSAGE" ++ m₂) := by
  obtain ⟨t₁, w₁, env₁, ev₁, t₁', -, rfl, -, -, hsend₁⟩ := h₁.sent h
  obtain ⟨t₂, w₂, env₂, ev₂, t₂', s₂, ht, hr₂, hheld, hsend₂⟩ := h₂.sent h
  have hacc := TaskQueue.accounted_inTurn (workers_queue h)
  have hfinished : (n₁, Callback.onMessage c m₁) ∈
      finishedTasks (t₁ ++ (.execute w₁ env₁, .handled (n₁, .onMessage c m₁) ev₁) :: t₁') := by
    rw [finishedTasks_append]
    exact List.mem_append_right _ List.mem_cons_self
  -- both tasks were queued before the second one was run
  have hq := workers_queue hr₂
  have hsub : [(n₁, Callback.onMessage c m₁),
      (n₂, Callback.onMessage c m₂)].Sublist (queued t₂) := by
    have hx : (n₁, Callback.onMessage c m₁) ∈ queued _ := (hacc.places _).2 (.inr (.inr hfinished))
    have hnumbers := (queued_numbers h).1
    have hy := ((TaskQueue.accounted_inTurn hq).places _).2 (.inr (.inl ⟨w₂, hheld⟩))
    rw [ht, queued_append] at hx hnumbers
    exact sublist_of_lt hnumbers hx hy hn
  have hover := TaskQueue.finished_of_held hq hheld hsub ⟨rfl, rfl⟩
  obtain ⟨t', rfl⟩ := before_of_finished ht hacc.finished_once hover
    (fun he => Nat.ne_of_lt hn (congrArg Prod.fst he))
  exact ⟨t₁, _, _, ev₁, t', _, _, ev₂,
    t₂', by rw [ht, List.append_assoc, List.cons_append], hsend₁, hsend₂⟩

/-! ## Concrete runs -/

/-- The callbacks made, in order. -/
def callbacks (t : WorkersTrace ι) : List Callback :=
  t.filterMap fun x => match x.1 with | .callback cb _ => some cb | _ => none

/-- The server keeps its contract. -/
def contractKept (_ : Workers ι) (t : WorkersTrace ι) : WorkersInput ι → Prop
  | .callback cb _ => Contract (callbacks t) cb
  | _ => True

instance (s : Workers ι) (t : WorkersTrace ι) (i : WorkersInput ι) :
    Decidable (contractKept s t i) := by
  cases i <;> unfold contractKept <;> infer_instance

/-- The numbers of the callbacks that were handled, in order. -/
def handledNumbers (t : WorkersTrace ι) : List Nat :=
  t.filterMap fun x => match x.2 with | .handled y _ => some y.1 | _ => none

omit [DecidableEq ι] in
theorem SentBefore.sublist {d : Connection} {n₁ n₂ : Nat} {x₁ x₂ : String}
    (h : SentBefore t d n₁ x₁ n₂ x₂) : [n₁, n₂].Sublist (handledNumbers t) := by
  obtain ⟨t₁, i₁, cb₁, ev₁, t₂, i₂, cb₂, ev₂, t₃, rfl, -, -⟩ := h
  simp only [handledNumbers, List.filterMap_append, List.filterMap_cons]
  refine (List.Sublist.cons_cons n₁ ?_).trans (List.sublist_append_right _ _)
  exact (List.singleton_sublist.2 List.mem_cons_self).trans (List.sublist_append_right _ _)

/-- The handler with a pool and without an authenticator. -/
def pooledOpen : WssEndpointHandler := ⟨false, false, true, fun _ => ""⟩

/-- The clients A and B are open, and two messages of A are queued. -/
def twoQueued (w : ι) : List (WorkersInput ι) :=
  [.callback (.onOpen clientA) steady, .callback (.onOpen clientB) steady,
    .take w, .execute w steady,
    .take w, .execute w steady, .callback (.onMessage clientA "1") steady,
    .callback (.onMessage clientA "2") steady]

/-- What the steps of `twoQueued` do. -/
def twoQueuedReports : List Report :=
  [.queued (0, .onOpen clientA), .queued (1, .onOpen clientB), .taken (0, .onOpen clientA),
    .handled (0, .onOpen clientA) [], .taken (1, .onOpen clientB), .handled (1, .onOpen clientB) [],
    .queued (2, .onMessage clientA "1"), .queued (3, .onMessage clientA "2")]

/-- Whether a message of A is broadcast to B now. -/
def reachesB (msg : String) (s : Workers ι) : Bool :=
  decide (handling pooledOpen steady s.clients clientA msg = .broadcast) &&
    ((s.clients.get clientA.channel).lookup clientB.clientKey).any fun e =>
      pooledOpen.receives clientA.clientKey clientB.clientKey e &&
        decide (e.lock steady = some clientB)

/-- A known beginning of a trace, in which the next step is a broadcast to B. -/
theorem broadcast_of_replay (is : List (WorkersInput ι)) (os : List Report) {w : ι} {n : Nat}
    {msg : String} {ev : List Event} {t₂ : WorkersTrace ι}
    (ht : t = is.zip os ++ (.execute w steady, .handled (n, .onMessage clientA msg) ev) :: t₂)
    (h : (Run.replay (pooledOpen.workers .plain) contractKept is [] Workers.start).any (fun r =>
      decide (r.1.map Prod.snd = os) && reachesB msg r.2) = true) :
    Broadcast pooledOpen .plain t n clientA msg clientB := by
  obtain ⟨s, hr, hp⟩ := Run.exists_of_outputs (pooledOpen.workers .plain)
    contractKept Workers.start is os
    (reachesB msg) h
  obtain ⟨hb, he⟩ := Bool.and_eq_true_iff.1 hp
  obtain ⟨e, hk, he⟩ := (Option.any_eq_true _ _).1 he
  obtain ⟨hrec, hl⟩ := Bool.and_eq_true_iff.1 he
  exact ⟨_, w, steady, ev, t₂, s, ht, hr.mono fun _ _ _ _ => trivial, of_decide_eq_true hb,
    clientB.clientKey, e, hk, hrec, of_decide_eq_true hl⟩

instance [Fintype ι] (n₁ n₂ : Nat) (s : Workers ι) (t : WorkersTrace ι) (i : WorkersInput ι) :
    Decidable (apart n₁ n₂ s t i) := by
  cases i <;> unfold apart areNumbered <;> infer_instance

/-- The third message of A is taken and sent while a worker still holds the second; the first and
the third keep their order. -/
theorem messages_in_order_overlap : ∃ (t : WorkersTrace Bool) (s : Workers Bool),
    Run (pooledOpen.workers .plain) (apart 2 4) Workers.start t s ∧
      SentBefore t clientB 2 ("MESSAGE" ++ "1") 4 ("MESSAGE" ++ "3") := by
  let is : List (WorkersInput Bool) := twoQueued true ++ [.callback (.onMessage clientA "3") steady,
    .take true, .execute true steady, .take true, .take false]
  let os : List Report := twoQueuedReports ++ [.queued (4, .onMessage clientA "3"),
    .taken (2, .onMessage clientA "1"),
    .handled (2, .onMessage clientA "1") [.send clientB ("MESSAGE" ++ "1")],
    .taken (3, .onMessage clientA "2"), .taken (4, .onMessage clientA "3")]
  obtain ⟨s, h, -⟩ := Run.exists_of_outputs (pooledOpen.workers .plain) (apart 2 4) Workers.start
    (is ++ [WorkersInput.execute false steady, .execute true steady])
    (os ++ [Report.handled (4, .onMessage clientA "3") [.send clientB ("MESSAGE" ++ "3")],
      .handled (3, .onMessage clientA "2") [.send clientB ("MESSAGE" ++ "2")]])
      (fun _ => true) (by decide)
  refine ⟨_, s, h, messages_in_order (c := clientA) h ?_ ?_ (by decide)⟩
  · exact broadcast_of_replay (is.take 10) (os.take 10) rfl (by decide)
  · exact broadcast_of_replay is os rfl (by decide)

/-- Two workers: the second message is sent while a worker still holds the first. -/
theorem message_overtakes : ¬ ∀ (t : WorkersTrace Bool) (s : Workers Bool) c d n₁ n₂ m₁ m₂,
    Run (pooledOpen.workers .plain) contractKept Workers.start t s →
      Broadcast pooledOpen .plain t n₁ c m₁ d → Broadcast pooledOpen .plain t n₂ c m₂ d → n₁ < n₂ →
        SentBefore t d n₁ ("MESSAGE" ++ m₁) n₂ ("MESSAGE" ++ m₂) := by
  intro hall
  obtain ⟨s, h, -⟩ := Run.exists_of_outputs (pooledOpen.workers .plain) contractKept Workers.start
    (twoQueued true ++ [WorkersInput.take true, .take false, .execute false steady,
    .execute true steady])
    (twoQueuedReports ++
    [Report.taken (2, .onMessage clientA "1"), .taken (3, .onMessage clientA "2"),
      .handled (3, .onMessage clientA "2") [.send clientB ("MESSAGE" ++ "2")],
      .handled (2, .onMessage clientA "1") [.send clientB ("MESSAGE" ++ "1")]])
        (fun _ => true) (by decide)
  have hsent := hall _ s clientA clientB 2 3 "1" "2" h
    (broadcast_of_replay (twoQueued true ++
    [WorkersInput.take true, .take false, .execute false steady])
      (twoQueuedReports ++
      [Report.taken (2, .onMessage clientA "1"), .taken (3, .onMessage clientA "2"),
        .handled (3, .onMessage clientA "2") [.send clientB ("MESSAGE" ++ "2")]]) rfl (by decide))
    (broadcast_of_replay (twoQueued true ++ [WorkersInput.take true, .take false])
      (twoQueuedReports ++
      [Report.taken (2, .onMessage clientA "1"), .taken (3, .onMessage clientA "2")]) rfl
      (by decide)) (by decide)
  exact absurd hsent.sublist (by decide)

end CppFrame.Server
