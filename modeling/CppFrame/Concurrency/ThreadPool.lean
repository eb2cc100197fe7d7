import CppFrame.Concurrency.TaskQueue

/-!
# The thread pool

`ThreadPool` of `lib/jahan/concurrency/thread_pool.hpp` as a machine whose steps are the atomic
steps of its threads: the callers of `add_task`, the workers and the destructor. `m_tasks_mutex` is
held within single steps only. So is `m_var_mutex`, but for the destructor, which takes it and keeps
it until it returns; a step that needs the mutex is not enabled meanwhile. Signals, the `setjmp`
branch and the thread that logs signals are left out.

`Acts` lists what a step can do. As a queue with workers the pool is a `TaskQueue` (`queue_run`).
-/

namespace CppFrame.Concurrency

/-! ## Data -/

/-- Where a worker is: not yet added; about to test `m_stop`; about to test the queue; about to lock
`m_var_mutex` after it found the queue empty; in `wait`; woken and about to lock `m_var_mutex`
again; with a task; or out of its loop. -/
inductive WorkerPhase (τ : Type)
  | absent
  | loop
  | test
  | gap
  | waiting
  | woken
  | running (task : τ)
  | left
  deriving DecidableEq

/-- The task that a worker holds or runs. -/
def WorkerPhase.task {τ : Type} : WorkerPhase τ → Option τ
  | .running task => some task
  | _ => none

/-- Where a caller of `add_task` is: outside, past the test of `m_stop`, or between push and
notify. -/
inductive ProducerPhase (τ : Type)
  | idle
  | ready (task : τ)
  | pushed (task : τ)
  deriving DecidableEq

/-- A task about to be pushed is not among `tasks`. -/
def ProducerPhase.NewTo {τ : Type} (tasks : List τ) : ProducerPhase τ → Prop
  | .ready task => task ∉ tasks
  | _ => True

instance {τ : Type} [DecidableEq τ] (tasks : List τ) (q : ProducerPhase τ) :
    Decidable (q.NewTo tasks) := by
  cases q <;> unfold ProducerPhase.NewTo <;> infer_instance

/-- Where the destructor is: not called; past `m_stop = true`; with `m_var_mutex` locked; joining
the workers that are left in the list; or done. -/
inductive DestructorPhase (ι : Type)
  | idle
  | stopped
  | locked
  | joining (workers : List ι)
  | done
  deriving DecidableEq

/-- The pool: its members and the places of its threads. `worker` lists the workers as they were
added. -/
structure ThreadPool (ι π τ : Type) where
  tasks : List τ
  stop : Bool
  worker : List ι
  workers : ι → WorkerPhase τ
  producers : π → ProducerPhase τ
  destructor : DestructorPhase ι

/-- One step of a caller of `add_task`, of a worker or of the destructor. A notification goes to a
worker in `wait` where there is one. -/
inductive Action (ι π τ : Type)
  | addTask (p : π) (task : τ)
  | push (p : π)
  | notify (p : π) (woken : Option ι)
  | addNewThread (i : ι)
  | loop (i : ι)
  | test (i : ι)
  | wait (i : ι)
  | wakeSpuriously (i : ι)
  | relock (i : ι)
  | finish (i : ι) (throws : Bool)
  | setStop
  | lock
  | notifyAll
  | join
  | unlock
  deriving DecidableEq

/-- What a step did to a task: `add_task` refused, pushed or returned `true` for it, a worker popped
it, or it ended. -/
inductive Event (ι τ : Type)
  | refused (task : τ)
  | pushed (task : τ)
  | returned (task : τ)
  | popped (i : ι) (task : τ)
  | finished (i : ι) (task : τ) (throws : Bool)
  deriving DecidableEq

namespace ThreadPool

variable {ι π τ : Type}

/-- A pool before its constructor added any worker. -/
def initial : ThreadPool ι π τ := ⟨[], false, [], fun _ => .absent, fun _ => .idle, .idle⟩

/-- The destructor does not hold `m_var_mutex`. -/
def varMutexFree (s : ThreadPool ι π τ) : Bool :=
  match s.destructor with
  | .locked => false
  | .joining _ => false
  | _ => true

/-! ## Traces -/

/-- The steps made so far, with their events. -/
abbrev Trace (ι π τ : Type) := List (Action ι π τ × Option (Event ι τ))

/-- The tasks pushed, in order. -/
def accepted (t : Trace ι π τ) : List τ :=
  t.filterMap fun x => match x.2 with | some (.pushed task) => some task | _ => none

/-- The tasks popped from the queue, in order. -/
def popped (t : Trace ι π τ) : List τ :=
  t.filterMap fun x => match x.2 with | some (.popped _ task) => some task | _ => none

/-- The tasks that ended, in order. -/
def finished (t : Trace ι π τ) : List τ :=
  t.filterMap fun x => match x.2 with | some (.finished _ task _) => some task | _ => none

/-- The pool as a queue with workers. -/
def asQueue (s : ThreadPool ι π τ) : TaskQueue ι τ := ⟨s.tasks, fun i => (s.workers i).task⟩

/-- The move of the queue that a step makes. -/
def asMove (x : Action ι π τ × Option (Event ι τ)) :
    Option (TaskQueue.Move ι τ × TaskQueue.Event τ) :=
  match x.2 with
  | some (.pushed task) => some (.push task, .pushed task)
  | some (.popped i task) => some (.take i, .taken task)
  | some (.finished i task _) => some (.finish i, .finished task)
  | _ => none

/-- Every task that is pushed is a new one. -/
def distinct (s : ThreadPool ι π τ) (t : Trace ι π τ) : Action ι π τ → Prop
  | .push p => (s.producers p).NewTo (accepted t)
  | _ => True

theorem pushed_filterMap (t : Trace ι π τ) :
    TaskQueue.pushed (t.filterMap asMove) = accepted t := by
  unfold TaskQueue.pushed accepted
  rw [List.filterMap_filterMap]
  refine List.filterMap_congr fun x _ => ?_
  unfold asMove
  rcases x.2 with _ | e
  · rfl
  · cases e <;> rfl

theorem taken_filterMap (t : Trace ι π τ) : TaskQueue.taken (t.filterMap asMove) = popped t := by
  unfold TaskQueue.taken popped
  rw [List.filterMap_filterMap]
  refine List.filterMap_congr fun x _ => ?_
  unfold asMove
  rcases x.2 with _ | e
  · rfl
  · cases e <;> rfl

theorem finished_filterMap (t : Trace ι π τ) :
    TaskQueue.finished (t.filterMap asMove) = finished t := by
  unfold TaskQueue.finished finished
  rw [List.filterMap_filterMap]
  refine List.filterMap_congr fun x _ => ?_
  unfold asMove
  rcases x.2 with _ | e
  · rfl
  · cases e <;> rfl

/-! ## Steps -/

variable [DecidableEq ι] [DecidableEq π]

/-- A worker goes on. -/
def setWorker (s : ThreadPool ι π τ) (i : ι) (p : WorkerPhase τ) : ThreadPool ι π τ :=
  { s with workers := Function.update s.workers i p }

/-- A caller of `add_task` goes on. -/
def setProducer (s : ThreadPool ι π τ) (p : π) (q : ProducerPhase τ) : ThreadPool ι π τ :=
  { s with producers := Function.update s.producers p q }

/-- What `notify_all` makes of a worker. -/
def wakeAll : WorkerPhase τ → WorkerPhase τ
  | .waiting => .woken
  | p => p

/-- The worker's test of the queue, under `m_tasks_mutex`. -/
def testQueue (suddenDeathOnTermination : Bool) (s : ThreadPool ι π τ) (i : ι) :
    ThreadPool ι π τ × Option (Event ι τ) :=
  match s.tasks with
  | task :: rest =>
    if !(s.stop && suddenDeathOnTermination) then
      ({ s with tasks := rest }.setWorker i (.running task), some (.popped i task))
    else if !s.stop then (s.setWorker i .gap, none)
    else (s.setWorker i .loop, none)
  | [] => if !s.stop then (s.setWorker i .gap, none) else (s.setWorker i .loop, none)

/-- What a step can do. -/
inductive Acts (suddenDeath : Bool) (s : ThreadPool ι π τ) :
    Action ι π τ → ThreadPool ι π τ → Option (Event ι τ) → Prop
  | refused {p : π} {task : τ} (hp : s.producers p = .idle) (hs : s.stop = true) :
      Acts suddenDeath s (.addTask p task) s (some (.refused task))
  | ready {p : π} {task : τ} (hp : s.producers p = .idle) (hs : s.stop = false) :
      Acts suddenDeath s (.addTask p task) (s.setProducer p (.ready task)) none
  | pushed {p : π} {task : τ} (hp : s.producers p = .ready task) :
      Acts suddenDeath s (.push p)
        ({ s with tasks := s.tasks ++ [task] }.setProducer p (.pushed task))
        (some (.pushed task))
  | notified {p : π} {task : τ} {i : ι} (hp : s.producers p = .pushed task)
      (hm : s.varMutexFree = true) (hi : s.workers i = .waiting) :
      Acts suddenDeath s (.notify p (some i)) ((s.setProducer p .idle).setWorker i .woken)
        (some (.returned task))
  | unheard {p : π} {task : τ} (hp : s.producers p = .pushed task) (hm : s.varMutexFree = true)
      (hi : ∀ i ∈ s.worker, s.workers i ≠ .waiting) :
      Acts suddenDeath s (.notify p none) (s.setProducer p .idle) (some (.returned task))
  | added {i : ι} (hi : s.workers i = .absent) :
      Acts suddenDeath s (.addNewThread i)
      ({ s with worker := s.worker ++ [i] }.setWorker i .loop) none
  | entered {i : ι} (hi : s.workers i = .loop) (hs : s.stop = false) :
      Acts suddenDeath s (.loop i) (s.setWorker i .test) none
  | left {i : ι} (hi : s.workers i = .loop) (hs : s.stop = true) :
      Acts suddenDeath s (.loop i) (s.setWorker i .left) none
  | popped {i : ι} {task : τ} {rest : List τ} (hi : s.workers i = .test)
      (ht : s.tasks = task :: rest)
      (hs : (s.stop && suddenDeath) = false) :
      Acts suddenDeath s (.test i) ({ s with tasks := rest }.setWorker i (.running task))
        (some (.popped i task))
  | foundEmpty {i : ι} (hi : s.workers i = .test) (ht : s.tasks = []) (hs : s.stop = false) :
      Acts suddenDeath s (.test i) (s.setWorker i .gap) none
  | passed {i : ι} (hi : s.workers i = .test) (ht : s.tasks = [] ∨ suddenDeath = true)
      (hs : s.stop = true) : Acts suddenDeath s (.test i) (s.setWorker i .loop) none
  | waited {i : ι} (hi : s.workers i = .gap) (hm : s.varMutexFree = true) :
      Acts suddenDeath s (.wait i) (s.setWorker i .waiting) none
  | woken {i : ι} (hi : s.workers i = .waiting) :
      Acts suddenDeath s (.wakeSpuriously i) (s.setWorker i .woken) none
  | relocked {i : ι} (hi : s.workers i = .woken) (hm : s.varMutexFree = true) :
      Acts suddenDeath s (.relock i) (s.setWorker i .loop) none
  | finished {i : ι} {task : τ} {throws : Bool} (hi : s.workers i = .running task) :
      Acts suddenDeath s (.finish i throws) (s.setWorker i .loop) (some (.finished i task throws))
  | stopped (hd : s.destructor = .idle) :
      Acts suddenDeath s .setStop { s with stop := true, destructor := .stopped } none
  | locked (hd : s.destructor = .stopped) :
      Acts suddenDeath s .lock { s with destructor := .locked } none
  | notifiedAll (hd : s.destructor = .locked) :
      Acts suddenDeath s .notifyAll
        { s with workers := fun i => wakeAll (s.workers i), destructor := .joining s.worker } none
  | joined {i : ι} {rest : List ι} (hd : s.destructor = .joining (i :: rest))
      (hi : s.workers i = .left) : Acts suddenDeath s .join
      { s with destructor := .joining rest } none
  | unlocked (hd : s.destructor = .joining []) :
      Acts suddenDeath s .unlock { s with destructor := .done } none

variable {suddenDeath : Bool} {s s' : ThreadPool ι π τ} {a : Action ι π τ} {e : Option (Event ι τ)}

theorem testQueue_acts {i : ι} (hi : s.workers i = .test) :
    Acts suddenDeath s (.test i) (s.testQueue suddenDeath i).1 (s.testQueue suddenDeath i).2 := by
  unfold testQueue
  split
  · rename_i task rest ht
    by_cases hs : (s.stop && suddenDeath) = false
    · rw [hs]
      exact .popped hi ht hs
    · rw [Bool.not_eq_false] at hs
      obtain ⟨hstop, hsudden⟩ := Bool.and_eq_true_iff.1 hs
      rw [hs, hstop]
      exact .passed hi (.inr hsudden) hstop
  · rename_i ht
    by_cases hs : s.stop = false
    · rw [hs]
      exact .foundEmpty hi ht hs
    · rw [Bool.not_eq_false] at hs
      rw [hs]
      exact .passed hi (.inl ht) hs

/-! ## The list of workers -/

omit [DecidableEq π] in
theorem setWorker_self (s : ThreadPool ι π τ) (i : ι) (p : WorkerPhase τ) :
    (s.setWorker i p).workers i = p := Function.update_self ..

omit [DecidableEq π] in
theorem setWorker_ne {i j : ι} (hj : j ≠ i) (s : ThreadPool ι π τ) (p : WorkerPhase τ) :
    (s.setWorker i p).workers j = s.workers j := Function.update_of_ne hj ..

omit [DecidableEq ι] in
theorem setProducer_ne {p q : π} (hq : q ≠ p) (s : ThreadPool ι π τ) (x : ProducerPhase τ) :
    (s.setProducer p x).producers q = s.producers q := Function.update_of_ne hq ..

/-- Every worker that was added is in the list of workers. -/
theorem Acts.listed (h : Acts suddenDeath s a s' e)
    (hl : ∀ i, s.workers i ≠ .absent → i ∈ s.worker) :
    ∀ i, s'.workers i ≠ .absent → i ∈ s'.worker := by
  -- a worker that was there stays in the list
  have hset : ∀ {i : ι} {p : WorkerPhase τ}, s.workers i ≠ .absent →
      ∀ j, (s.setWorker i p).workers j ≠ .absent → j ∈ s.worker := by
    intro i p hi j hj
    by_cases hji : j = i
    · exact hji ▸ hl i hi
    · exact hl j (setWorker_ne hji s p ▸ hj)
  cases h with
  | refused => exact hl
  | ready => exact hl
  | pushed => exact hl
  | notified _ _ hi => exact hset (by simp [hi])
  | unheard => exact hl
  | @added i hi =>
    intro j hj
    by_cases hji : j = i
    · exact List.mem_append_right _ (List.mem_singleton.2 hji)
    · exact List.mem_append_left _ (hl j (setWorker_ne hji s .loop ▸ hj))
  | entered hi => exact hset (by simp [hi])
  | left hi => exact hset (by simp [hi])
  | popped hi => exact hset (by simp [hi])
  | foundEmpty hi => exact hset (by simp [hi])
  | passed hi => exact hset (by simp [hi])
  | waited hi => exact hset (by simp [hi])
  | woken hi => exact hset (by simp [hi])
  | relocked hi => exact hset (by simp [hi])
  | finished hi => exact hset (by simp [hi])
  | stopped => exact hl
  | locked => exact hl
  | notifiedAll =>
    intro j hj
    refine hl j fun h => hj ?_
    show wakeAll (s.workers j) = .absent
    rw [h]
    rfl
  | joined => exact hl
  | unlocked => exact hl

/-! ## The pool as a queue -/

omit [DecidableEq π] in
theorem asQueue_setWorker (s : ThreadPool ι π τ) (i : ι) (p : WorkerPhase τ) :
    (s.setWorker i p).asQueue = ⟨s.tasks, Function.update s.asQueue.held i p.task⟩ := by
  unfold asQueue setWorker
  congr 1
  funext j
  by_cases hj : j = i
  · subst hj
    simp
  · simp [hj]

omit [DecidableEq π] in
/-- A worker that goes from one place without a task to another. -/
theorem asQueue_setWorker_same {i : ι} {p : WorkerPhase τ} (h : p.task = (s.workers i).task) :
    (s.setWorker i p).asQueue = s.asQueue := by
  rw [asQueue_setWorker, h]
  exact congrArg (TaskQueue.mk s.tasks) (Function.update_eq_self i _)

theorem task_wakeAll (p : WorkerPhase τ) : (wakeAll p).task = p.task := by
  cases p <;> rfl

/-- A step that is no move of the queue leaves it alone. -/
theorem Acts.quiet (h : Acts suddenDeath s a s' e) (hq : asMove (a, e) = none) :
    s'.asQueue = s.asQueue := by
  cases h with
  | refused => rfl
  | ready => rfl
  | pushed => cases hq
  | notified _ _ hi =>
    exact asQueue_setWorker_same (s := s.setProducer _ _) (by rw [setProducer, hi]; rfl)
  | unheard => rfl
  | added hi => exact asQueue_setWorker_same (s := { s with worker := _ }) (by rw [hi]; rfl)
  | entered hi => exact asQueue_setWorker_same (by rw [hi]; rfl)
  | left hi => exact asQueue_setWorker_same (by rw [hi]; rfl)
  | popped => cases hq
  | foundEmpty hi => exact asQueue_setWorker_same (by rw [hi]; rfl)
  | passed hi => exact asQueue_setWorker_same (by rw [hi]; rfl)
  | waited hi => exact asQueue_setWorker_same (by rw [hi]; rfl)
  | woken hi => exact asQueue_setWorker_same (by rw [hi]; rfl)
  | relocked hi => exact asQueue_setWorker_same (by rw [hi]; rfl)
  | finished => cases hq
  | stopped => rfl
  | locked => rfl
  | notifiedAll => exact congrArg (TaskQueue.mk s.tasks) (funext fun i =>
    task_wakeAll (s.workers i))
  | joined => rfl
  | unlocked => rfl

/-- A step that moves a task is that move of the queue. -/
theorem Acts.move (h : Acts suddenDeath s a s' e) {m : TaskQueue.Move ι τ} {o : TaskQueue.Event τ}
    (hm : asMove (a, e) = some (m, o)) : TaskQueue.step s.asQueue m = some (s'.asQueue, o) := by
  cases h with
  | pushed =>
    cases hm
    rfl
  | popped hi ht =>
    cases hm
    rw [asQueue_setWorker]
    simp [TaskQueue.step, asQueue, hi, ht, WorkerPhase.task]
  | finished hi =>
    cases hm
    rw [asQueue_setWorker]
    simp [TaskQueue.step, asQueue, hi, WorkerPhase.task]
  | _ => cases hm

/-! ## The step function -/

variable [DecidableEq τ]

/-- The worker that `notify_one` may wake: somebody in `wait`, or nobody where nobody is. -/
def canWake (s : ThreadPool ι π τ) : Option ι → Bool
  | some i => s.workers i = .waiting
  | none => s.worker.all fun i => s.workers i ≠ .waiting

/-- One step, where it is enabled. -/
def step (suddenDeathOnTermination : Bool) (s : ThreadPool ι π τ) :
    Action ι π τ → Option (ThreadPool ι π τ × Option (Event ι τ))
  | .addTask p task =>
    if s.producers p = .idle then
      if s.stop then some (s, some (.refused task)) else some (s.setProducer p (.ready task), none)
    else none
  | .push p =>
    match s.producers p with
    | .ready task =>
      some ({ s with tasks := s.tasks ++ [task] }.setProducer p (.pushed task), some (.pushed task))
    | _ => none
  | .notify p woken =>
    match s.producers p with
    | .pushed task =>
      if s.varMutexFree && s.canWake woken then
        let s' := s.setProducer p .idle
        some (match woken with
          | some i => s'.setWorker i .woken
          | none => s', some (.returned task))
      else none
    | _ => none
  | .addNewThread i =>
    if s.workers i = .absent then
      some ({ s with worker := s.worker ++ [i] }.setWorker i .loop, none)
    else none
  | .loop i =>
    if s.workers i = .loop then
      some (s.setWorker i (if s.stop then .left else .test), none)
    else none
  | .test i => if s.workers i = .test then some (s.testQueue suddenDeathOnTermination i) else none
  | .wait i =>
    if s.workers i = .gap ∧ s.varMutexFree then some (s.setWorker i .waiting, none) else none
  | .wakeSpuriously i => if s.workers i = .waiting then some (s.setWorker i .woken, none) else none
  | .relock i =>
    if s.workers i = .woken ∧ s.varMutexFree then some (s.setWorker i .loop, none) else none
  | .finish i throws =>
    match s.workers i with
    | .running task => some (s.setWorker i .loop, some (.finished i task throws))
    | _ => none
  | .setStop =>
    if s.destructor = .idle then some ({ s with stop := true, destructor := .stopped }, none)
      else none
  | .lock => if s.destructor = .stopped then some ({ s with destructor := .locked }, none) else none
  | .notifyAll =>
    if s.destructor = .locked then
      some ({ s with workers := fun i => wakeAll (s.workers i), destructor := .joining s.worker },
        none)
    else none
  | .join =>
    match s.destructor with
    | .joining (i :: rest) =>
      if s.workers i = .left then some ({ s with destructor := .joining rest }, none) else none
    | _ => none
  | .unlock => if s.destructor = .joining [] then some ({ s with destructor := .done }, none)
    else none

/-! ### One step, by who takes it -/

theorem addTask_acts {p : π} {task : τ} (h : step suddenDeath s (.addTask p task) = some (s', e)) :
    Acts suddenDeath s (.addTask p task) s' e := by
  simp only [step] at h
  split_ifs at h with hp hs
  · cases h
    exact .refused hp hs
  · cases h
    exact .ready hp (Bool.eq_false_iff.2 hs)

theorem push_acts {p : π} (h : step suddenDeath s (.push p) = some (s', e)) :
    Acts suddenDeath s (.push p) s' e := by
  simp only [step] at h
  split at h
  · rename_i hp
    cases h
    exact .pushed hp
  · cases h

theorem notify_acts {p : π} {w : Option ι} (h : step suddenDeath s (.notify p w) = some (s', e)) :
    Acts suddenDeath s (.notify p w) s' e := by
  simp only [step] at h
  split at h
  · rename_i hp
    split_ifs at h with hm
    obtain ⟨hfree, hw⟩ := Bool.and_eq_true_iff.1 hm
    cases w with
    | none =>
      cases h
      exact .unheard hp hfree fun i hi => of_decide_eq_true (List.all_eq_true.1 hw i hi)
    | some i =>
      cases h
      exact .notified hp hfree (of_decide_eq_true hw)
  · cases h

theorem loop_acts {i : ι} (h : step suddenDeath s (.loop i) = some (s', e)) :
    Acts suddenDeath s (.loop i) s' e := by
  simp only [step] at h
  split_ifs at h with hi hs
  · cases h
    exact .left hi hs
  · cases h
    exact .entered hi (Bool.eq_false_iff.2 hs)

theorem test_acts {i : ι} (h : step suddenDeath s (.test i) = some (s', e)) :
    Acts suddenDeath s (.test i) s' e := by
  simp only [step] at h
  split_ifs at h with hi
  have hacts : Acts suddenDeath s (.test i) _ _ := testQueue_acts hi
  rwa [Option.some.inj h] at hacts

theorem finish_acts {i : ι} {throws : Bool}
    (h : step suddenDeath s (.finish i throws) = some (s', e)) :
    Acts suddenDeath s (.finish i throws) s' e := by
  simp only [step] at h
  split at h
  · rename_i hi
    cases h
    exact .finished hi
  · cases h

theorem join_acts (h : step suddenDeath s .join = some (s', e)) :
    Acts suddenDeath s .join s' e := by
  simp only [step] at h
  split at h
  · rename_i hd
    split_ifs at h with hi
    cases h
    exact .joined hd hi
  · cases h

theorem step_acts (h : step suddenDeath s a = some (s', e)) : Acts suddenDeath s a s' e := by
  cases a with
  | addTask p task => exact addTask_acts h
  | push p => exact push_acts h
  | notify p w => exact notify_acts h
  | loop i => exact loop_acts h
  | test i => exact test_acts h
  | finish i throws => exact finish_acts h
  | join => exact join_acts h
  | addNewThread i =>
    obtain ⟨hi, hs⟩ := Option.ite_none_right_eq_some.1 h
    cases hs
    exact .added hi
  | wait i =>
    obtain ⟨⟨hi, hm⟩, hs⟩ := Option.ite_none_right_eq_some.1 h
    cases hs
    exact .waited hi hm
  | wakeSpuriously i =>
    obtain ⟨hi, hs⟩ := Option.ite_none_right_eq_some.1 h
    cases hs
    exact .woken hi
  | relock i =>
    obtain ⟨⟨hi, hm⟩, hs⟩ := Option.ite_none_right_eq_some.1 h
    cases hs
    exact .relocked hi hm
  | setStop =>
    obtain ⟨hd, hs⟩ := Option.ite_none_right_eq_some.1 h
    cases hs
    exact .stopped hd
  | lock =>
    obtain ⟨hd, hs⟩ := Option.ite_none_right_eq_some.1 h
    cases hs
    exact .locked hd
  | notifyAll =>
    obtain ⟨hd, hs⟩ := Option.ite_none_right_eq_some.1 h
    cases hs
    exact .notifiedAll hd
  | unlock =>
    obtain ⟨hd, hs⟩ := Option.ite_none_right_eq_some.1 h
    cases hs
    exact .unlocked hd

theorem listed_of_run {guard : ThreadPool ι π τ → Trace ι π τ → Action ι π τ → Prop}
    {t : Trace ι π τ} (h : Run (step suddenDeath) guard initial t s) :
    ∀ i, s.workers i ≠ .absent → i ∈ s.worker := by
  refine h.invariant (P := fun _ s => ∀ i, s.workers i ≠ .absent → i ∈ s.worker) ?_ ?_
  · intro i hi
    exact absurd rfl hi
  · intro t s a s' e ih _ hstep
    exact (step_acts hstep).listed ih

/-- **The pool is a queue with workers.** -/
theorem queue_run {guard : ThreadPool ι π τ → Trace ι π τ → Action ι π τ → Prop}
    (hguard : ∀ s t a, guard s t a → distinct s t a) {t : Trace ι π τ}
    (h : Run (step suddenDeath) guard initial t s) :
    Run TaskQueue.step TaskQueue.fresh TaskQueue.empty (t.filterMap asMove) s.asQueue := by
  refine Run.simulates (f := asQueue) (g := asMove) ?_ ?_ h
  · intro t s a s' e _ _ hs hq
    exact (step_acts hs).quiet hq
  · intro t s a s' e m o _ hg hs hm
    have hacts := step_acts hs
    refine ⟨?_, hacts.move hm⟩
    cases hacts with
    | pushed hp =>
      cases hm
      show _ ∉ TaskQueue.pushed _
      rw [pushed_filterMap]
      have hd := hguard _ _ _ hg
      simp only [distinct, hp] at hd
      exact hd
    | popped => cases hm; exact trivial
    | finished => cases hm; exact trivial
    | _ => cases hm

instance (s : ThreadPool ι π τ) (t : Trace ι π τ) (a : Action ι π τ) :
    Decidable (distinct s t a) := by
  cases a <;> unfold distinct <;> infer_instance

/-- Every task accepted is in one place, and tasks leave the queue in the order they came. -/
theorem accounted_of_run {guard : ThreadPool ι π τ → Trace ι π τ → Action ι π τ → Prop}
    (hguard : ∀ s t a, guard s t a → distinct s t a) {t : Trace ι π τ}
    (h : Run (step suddenDeath) guard initial t s) :
    TaskQueue.Accounted (accepted t) (finished t) s.asQueue ∧ popped t ++ s.tasks = accepted t := by
  have hq := queue_run hguard h
  constructor
  · have := TaskQueue.accounted hq
    rwa [pushed_filterMap, finished_filterMap] at this
  · have := TaskQueue.taken_append_tasks hq
    rwa [taken_filterMap, pushed_filterMap] at this

/-- **No task is duplicated or lost while the pool runs.** Where every task pushed is a new one,
each task accepted is in the queue, with one worker, or finished; tasks leave the queue in the order
they came; and a task that throws is finished, with its worker back in the loop. -/
theorem tasks_accounted {t : Trace ι π τ} (h : Run (step suddenDeath) distinct initial t s) :
    TaskQueue.Accounted (accepted t) (finished t) s.asQueue ∧ popped t ++ s.tasks = accepted t ∧
      ∀ t₁ i e t₂, t = t₁ ++ (.finish i true, e) :: t₂ → ∃ s₁ task,
        Run (step suddenDeath) distinct initial (t₁ ++ [(.finish i true, e)]) s₁ ∧
          e = some (.finished i task true) ∧ task ∈ finished (t₁ ++ [(.finish i true, e)]) ∧
          s₁.workers i = .loop := by
  obtain ⟨hplaces, horder⟩ := accounted_of_run (fun _ _ _ hg => hg) h
  refine ⟨hplaces, horder, ?_⟩
  rintro t₁ i e t₂ rfl
  obtain ⟨s₀, s₁, -, -, hs, h₁⟩ := h.step_at
  cases step_acts hs with
  | @finished _ task _ hi =>
    refine ⟨_, task, h₁, rfl, ?_, ?_⟩
    · simp [finished]
    · simp [setWorker]

/-- The steps of one caller and one worker with a task that throws. -/
def oneTask : List (Action Nat Nat Nat) :=
  [.addNewThread 0, .addTask 0 7, .push 0, .notify 0 none, .loop 0, .test 0, .finish 0 true]

/-- The task that throws is finished, and its worker is back in the loop. -/
theorem tasks_accounted_oneTask :
    ∃ t s, Run (step true) distinct (initial : ThreadPool Nat Nat Nat) t s ∧
    finished t = [7] ∧ TaskQueue.Accounted (accepted t) (finished t) s.asQueue := by
  obtain ⟨t, s, h, -, hf⟩ := Run.exists_of_replay (step true) distinct initial oneTask
    (fun t _ => decide (finished t = [7])) (by decide)
  exact ⟨t, s, h, of_decide_eq_true hf, (tasks_accounted h).1⟩

end ThreadPool

end CppFrame.Concurrency
