import CppFrame.Server.Clock
import CppFrame.Server.Pooled

/-!
# One worker and no pool

A pool with one worker runs the oldest task first (`oldestFirst`), each in the environment it finds
when it runs. Such a run is an inline run of what it handles (`inline_of_run`), but `on_error` does
not wait for the queue. Where no task is queued when `on_error` comes (`errorsWait`), the callbacks
are handled in the order in which they were made. A run without a pool of the same callbacks then
leaves the same registry but for the times of the connections, and sends every connection the same
but for the times in a dump, if its environment differs from that of the tasks in the clock at most
(`one_worker_eq_inline`).
-/

namespace CppFrame.Server

/-- The one worker takes the oldest task. -/
def oldestFirst : PoolInput → Prop
  | .callback _ _ => True
  | .execute n _ => n = 0

/-- When `on_error` comes, no task is queued. -/
def errorsWait (weh : WssEndpointHandler) (s : Pooled) : PoolInput → Prop
  | .callback cb _ => weh.queues cb = false → s.tasks = []
  | .execute _ _ => True

/-- What was handled, in order, as a trace without a pool. -/
def handled (t : PoolTrace) : Trace := t.filterMap fun x => x.2.map fun r => ((r.1, x.1.env), r.2)

/-- The environments in which a trace was handled. -/
def environments (t : Trace) : List Env := t.map fun x => x.1.2

/-- Whether an event is a message or a close for a connection. -/
def Event.isFor (d : Connection) : Event → Bool
  | .send con _ => con = d
  | .sendClose con _ _ => con = d
  | _ => false

/-- The messages and closes of a trace that go to a connection. -/
def sentTo (d : Connection) (t : Trace) : List Event := (t.flatMap Prod.snd).filter (Event.isFor d)

variable {weh : WssEndpointHandler} {it : Iteration} {s s' : Pooled} {i : PoolInput} {o : Served}
  {t : PoolTrace} {guard : Pooled → PoolTrace → PoolInput → Prop}

/-! ## What is handled -/

/-- **A pooled run is an inline run of what it handles.** -/
theorem inline_of_run (h : Run (weh.pooled it) guard Pooled.start t s) :
    Run (weh.inline it) anyCallback ∅ (handled t) s.clients := by
  refine Run.simulates (f := Pooled.clients) ?_ ?_ h
  · intro t s i s' o _ _ hs ho
    obtain rfl : o = none := Option.map_eq_none_iff.1 ho
    cases pooled_serves hs
    rfl
  · intro t s i s' o j ev _ _ hs ho
    obtain ⟨r, rfl, hr⟩ := Option.map_eq_some_iff.1 ho
    cases hr
    exact ⟨trivial, handle_of_pooled hs⟩

/-- With one worker for whose tasks `on_error` waits, what was handled and what is queued is what
was made, in order. -/
theorem calls_handled_append_tasks
    (h : Run (weh.pooled it) (fun s _ i => oldestFirst i ∧ errorsWait weh s i) Pooled.start t s) :
    calls (handled t) ++ s.tasks = made t := by
  refine h.invariant (P := fun t s => calls (handled t) ++ s.tasks = made t) rfl ?_
  intro t s i s' o ih ⟨hfirst, hwait⟩ hs
  have hhandled : calls (handled (t ++ [(i, o)])) = calls (handled t) ++
      calls (handled [(i, o)]) := by
    rw [handled, List.filterMap_append, calls_append]
    rfl
  rw [hhandled]
  cases pooled_serves hs with
  | queued =>
    rw [made_callback, ← ih]
    show calls (handled t) ++ [] ++ (s.tasks ++ [_]) = _
    rw [List.append_nil, List.append_assoc]
  | @atOnce cb env m' ev hq =>
    rw [made_callback, ← ih, hwait hq, List.append_nil, List.append_nil]
    rfl
  | @task n cb env m' ev hn =>
    obtain rfl : n = 0 := hfirst
    obtain ⟨rest, htasks⟩ : ∃ rest, s.tasks = cb :: rest := by
      cases hl : s.tasks with
      | nil => simp [hl] at hn
      | cons cb' rest =>
        rw [hl, List.getElem?_cons_zero, Option.some.injEq] at hn
        exact ⟨rest, by rw [hn]⟩
    rw [made_execute, ← ih, htasks, List.append_assoc]
    rfl

/-! ## Another clock -/

theorem SameEvent.isFor_iff {e e' : Event} (h : SameEvent weh e e') (d : Connection) :
    e.isFor d = true ↔ e'.isFor d = true := by
  cases h with
  | same => rfl
  | dump => rfl

/-- **An inline run with another clock** exists, and does the same but for times. -/
theorem exists_run_of_clock {t : Trace} {m : Clients} (h : Run (weh.inline it) anyCallback ∅ t m)
    {is : List Input} (hcalls : is.map Prod.fst = calls t)
    (henv : List.Forall₂ SameButClock (environments t) (is.map Prod.snd)) :
    ∃ t' m', Run (weh.inline it) anyCallback ∅ t' m' ∧ Run.inputs t' = is ∧ SameButTimes m m' ∧
      List.Forall₂ (SameEvent weh) (t.flatMap Prod.snd) (t'.flatMap Prod.snd) := by
  induction h generalizing is with
  | start =>
    obtain rfl := List.map_eq_nil_iff.1 hcalls
    exact ⟨[], ∅, .start, rfl, UMap.related_empty, .nil⟩
  | @next t m i m' ev _ _ hs ih =>
    rw [calls_append] at hcalls
    obtain ⟨is, last, rfl, hpast, hlast⟩ := List.map_eq_append_iff.1 hcalls
    obtain ⟨⟨cb, env'⟩, rfl, hcb⟩ := List.map_eq_singleton_iff.1 hlast
    obtain rfl : cb = i.1 := hcb
    rw [environments, List.map_append, List.map_append] at henv
    have hrev := List.forall₂_reverse_iff.2 henv
    rw [List.reverse_append, List.reverse_append] at hrev
    obtain ⟨hlast, hrev⟩ := List.forall₂_cons.1 hrev
    have henvs : List.Forall₂ SameButClock (environments t) (is.map Prod.snd) :=
      List.forall₂_reverse_iff.1 hrev
    obtain ⟨t', m₁, hrun, rfl, hm, hev⟩ := ih hpast henvs
    have hstep : Option.Rel (SameResult weh) (weh.handle it i.2 m i.1)
        (weh.handle it env' m₁ i.1) :=
      handle_sameButTimes weh hlast hm i.1
    rw [show weh.handle it i.2 m i.1 = some (m', ev) from hs] at hstep
    cases hx : weh.handle it env' m₁ i.1 with
    | none => rw [hx] at hstep; cases hstep
    | some x =>
      rw [hx] at hstep
      cases hstep with
      | some hsame =>
        refine ⟨t' ++ [((i.1, env'), x.2)], x.1, hrun.next trivial hx, by simp, hsame.clients, ?_⟩
        rw [List.flatMap_append, List.flatMap_append, List.flatMap_singleton,
          List.flatMap_singleton]
        exact List.rel_append hev hsame.events

/-- **The pooled path agrees with the inline path** where no task is queued when `on_error` comes:
once the queue is empty, the callbacks can be handled without a pool in environments that differ in
the clock at most from those of the tasks, and that leads to the same registry and sends every
connection the same, but for times. -/
theorem one_worker_eq_inline
    (h : Run (weh.pooled it) (fun s _ i => oldestFirst i ∧ errorsWait weh s i) Pooled.start t s)
    (hq : s.tasks = []) (is : List Input) (hcalls : is.map Prod.fst = made t)
    (henv : List.Forall₂ SameButClock (environments (handled t)) (is.map Prod.snd)) :
    (∃ t' m, Run (weh.inline it) anyCallback ∅ t' m ∧ Run.inputs t' = is) ∧
      ∀ t' m, Run (weh.inline it) anyCallback ∅ t' m → Run.inputs t' = is →
        SameButTimes s.clients m ∧
          ∀ d, List.Forall₂ (SameEvent weh) (sentTo d (handled t)) (sentTo d t') := by
  have horder := calls_handled_append_tasks h
  rw [hq, List.append_nil] at horder
  obtain ⟨t₁, m₁, hrun, hin, hm, hev⟩ :=
    exists_run_of_clock (inline_of_run h) (hcalls.trans horder.symm) henv
  refine ⟨⟨t₁, m₁, hrun, hin⟩, fun t' m h' hin' => ?_⟩
  obtain ⟨rfl, rfl⟩ := Run.eq_of_inputs h' hrun (hin'.trans hin.symm)
  exact ⟨hm, fun d => List.rel_filter (fun _ _ he => he.isFor_iff d) hev⟩

/-! ## Concrete runs -/

instance (i : PoolInput) : Decidable (oldestFirst i) :=
  match i with
  | .callback .. => inferInstanceAs (Decidable True)
  | .execute n _ => inferInstanceAs (Decidable (n = 0))

instance (weh : WssEndpointHandler) (s : Pooled) (i : PoolInput) :
    Decidable (errorsWait weh s i) :=
  match i with
  | .callback cb _ => inferInstanceAs (Decidable (weh.queues cb = false → s.tasks = []))
  | .execute .. => inferInstanceAs (Decidable True)

/-- The environment `steady` at a later time. -/
def later : Env := { steady with now := 60 }

/-- Two tasks wait, and run before the error; without a pool the clock is ahead by a minute. -/
theorem one_worker_eq_inline_error : ∃ t s, Run (pooledSecured.pooled .plain)
      (fun s _ i => oldestFirst i ∧ errorsWait pooledSecured s i) Pooled.start t s ∧
    made t = [.onOpen clientA, .onMessage clientA "Ann", .onError clientA "reset"] ∧
    ∃ t' m, Run (pooledSecured.inline .plain) anyCallback ∅ t' m ∧
      Run.inputs t' = (made t).map (·, later) ∧ SameButTimes s.clients m ∧
        ∀ d, List.Forall₂ (SameEvent pooledSecured) (sentTo d (handled t)) (sentTo d t') := by
  obtain ⟨s, h, hs⟩ := Run.exists_of_outputs (pooledSecured.pooled .plain)
    (fun s _ i => oldestFirst i ∧ errorsWait pooledSecured s i) Pooled.start
    [arrives (.onOpen clientA), arrives (.onMessage clientA "Ann"), runs 0, runs 0,
      arrives (.onError clientA "reset")]
    [none, none, some (.onOpen clientA, []), some (.onMessage clientA "Ann",
      [.authenticator "Ann" "Ann", .send clientA "ok", .send clientA "OTHERS \x7b\x7d"]),
      some (.onError clientA "reset", [])]
    (fun s => s.tasks.isEmpty) (by decide)
  have hclock : SameButClock steady later := ⟨rfl, rfl, fun _ _ hl => hl, fun _ _ hl => hl⟩
  obtain ⟨⟨t', m, h', hin⟩, hall⟩ := one_worker_eq_inline h (List.isEmpty_iff.1 hs)
    [(.onOpen clientA, later), (.onMessage clientA "Ann", later),
    (.onError clientA "reset", later)] rfl
    (.cons hclock (.cons hclock (.cons hclock .nil)))
  exact ⟨_, s, h, rfl, t', m, h', hin, hall t' m h' hin⟩

/-- The error overtakes the queued task of `on_open`, which then makes an entry that the error would
have removed. -/
theorem pool_differs : ¬ ∀ (t : PoolTrace) s t' m,
    Run (pooledSecured.pooled .plain) (fun _ _ i => oldestFirst i) Pooled.start t s → s.tasks = [] →
      Run (pooledSecured.inline .plain) anyCallback ∅ t' m → calls t' = made t →
        List.Forall₂ SameButClock (environments (handled t)) (environments t') →
          SameButTimes s.clients m ∧
            ∀ d, List.Forall₂ (SameEvent pooledSecured) (sentTo d (handled t)) (sentTo d t') := by
  intro hall
  obtain ⟨s, h, hs⟩ := Run.exists_of_outputs (pooledSecured.pooled .plain)
    (fun _ _ i => oldestFirst i) Pooled.start
    [arrives (.onOpen clientA), arrives (.onError clientA "reset"), runs 0]
    [none, some (.onError clientA "reset", []), some (.onOpen clientA, [])]
    (fun s => s.tasks.isEmpty && !s.clients.isEmpty) (by decide)
  obtain ⟨m, h', hm⟩ := Run.exists_of_outputs (pooledSecured.inline .plain) anyCallback ∅
    [(.onOpen clientA, steady), (.onError clientA "reset", steady)] [[], []]
    (fun m => m.isEmpty) (by decide)
  have hclock : SameButClock steady steady := ⟨rfl, rfl, fun _ _ hl => hl, fun _ _ hl => hl⟩
  obtain ⟨hq, hsome⟩ := Bool.and_eq_true_iff.1 hs
  obtain ⟨hsame, -⟩ :=
    hall _ s _ m h (List.isEmpty_iff.1 hq) h' rfl (.cons hclock (.cons hclock .nil))
  rw [hsame.isEmpty_eq, hm] at hsome
  cases hsome

end CppFrame.Server
