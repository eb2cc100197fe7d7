import CppFrame.Concurrency.Wakeups
import Mathlib.Data.Finset.Card

/-!
# Shutdown of the pool

Two facts about `~ThreadPool`.

1. **What is drained.** With `sudden_death_on_termination = false` the pool is to clear its queue
   first, but a worker that comes round to `while(!m_stop)` leaves whatever is queued. So exactly
   the workers that stand at their test of the queue when `m_stop` is set take one more task each
   (`drained_iff`).
2. **Where it hangs.** The destructor keeps `m_var_mutex` while it joins. A worker that is about to
   lock the mutex, or is inside `wait`, cannot go on without it. Where there is no such worker when
   the destructor locks the mutex, the destructor never joins one that needs the mutex
   (`not_deadlocked`). That it comes to its end is not shown.
-/

namespace CppFrame.Concurrency

/-- A worker that cannot go on without `m_var_mutex`: it is about to lock it, or is inside
`wait`. -/
def WorkerPhase.needsVarMutex {τ : Type} : WorkerPhase τ → Bool
  | .gap => true
  | .waiting => true
  | .woken => true
  | _ => false

namespace ThreadPool

variable {ι π τ : Type}

/-! ## Tasks that `add_task` returned for -/

/-- The tasks for which `add_task` returned `true`. -/
def returned (t : Trace ι π τ) : List τ :=
  t.filterMap fun x => match x.2 with | some (.returned task) => some task | _ => none

/-- A caller is between push and notify with tasks that were pushed only. -/
def Pushing (t : Trace ι π τ) (s : ThreadPool ι π τ) : Prop :=
  (∀ task ∈ returned t, task ∈ accepted t) ∧ ∀ p task, s.producers p =
    .pushed task → task ∈ accepted t

theorem pushing_initial : Pushing [] (initial : ThreadPool ι π τ) := by
  constructor
  · intro task h
    cases h
  · intro p task h
    cases h

theorem accepted_append (t t' : Trace ι π τ) : accepted (t ++ t') = accepted t ++ accepted t' :=
  List.filterMap_append

theorem popped_append (t t' : Trace ι π τ) : popped (t ++ t') = popped t ++ popped t' :=
  List.filterMap_append

theorem returned_append (t t' : Trace ι π τ) : returned (t ++ t') = returned t ++ returned t' :=
  List.filterMap_append

variable [DecidableEq ι] [DecidableEq π] {suddenDeath : Bool} {s s' s₀ : ThreadPool ι π τ}
  {a : Action ι π τ} {e : Option (Event ι τ)} {t t₁ t₂ : Trace ι π τ}

omit [DecidableEq ι] in
theorem setProducer_cases {p q : π} {x y : ProducerPhase τ}
    (h : (s.setProducer p x).producers q = y) :
    q = p ∧ x = y ∨ s.producers q = y := by
  by_cases hq : q = p
  · subst hq
    have hx : (s.setProducer q x).producers q = x := Function.update_self ..
    exact .inl ⟨rfl, hx.symm.trans h⟩
  · exact .inr ((setProducer_ne hq s x).symm.trans h)

theorem Acts.pushing (h : Acts suddenDeath s a s' e) (hp : Pushing t s) :
    Pushing (t ++ [(a, e)]) s' := by
  have hacc : ∀ task ∈ accepted t, task ∈ accepted (t ++ [(a, e)]) := by
    intro task ht
    rw [accepted_append]
    exact List.mem_append_left _ ht
  -- a step that returns for no task and pushes none
  have hquiet : returned [(a, e)] = [] → (∀ p task, s'.producers p = .pushed task →
      s.producers p = .pushed task) → Pushing (t ++ [(a, e)]) s' := by
    intro hr hprod
    refine ⟨fun task ht => ?_, fun p task ht => hacc task (hp.2 p task (hprod p task ht))⟩
    rw [returned_append, hr, List.append_nil] at ht
    exact hacc task (hp.1 task ht)
  -- a caller that returns for its task
  have hreturn : ∀ {p : π} {task : τ}, s.producers p = .pushed task → returned [(a, e)] = [task] →
      s'.producers = (s.setProducer p .idle).producers → Pushing (t ++ [(a, e)]) s' := by
    intro p task hpt hr hs'
    refine ⟨fun x hx => ?_, fun q x hx => ?_⟩
    · rw [returned_append, hr, List.mem_append, List.mem_singleton] at hx
      rcases hx with hx | rfl
      · exact hacc x (hp.1 x hx)
      · exact hacc x (hp.2 p x hpt)
    · rw [hs'] at hx
      rcases setProducer_cases hx with ⟨-, hx⟩ | hx
      · cases hx
      · exact hacc x (hp.2 q x hx)
  cases h with
  | @ready p task _ _ =>
    refine hquiet rfl fun q x hx => ?_
    rcases setProducer_cases hx with ⟨-, hx⟩ | hx
    · cases hx
    · exact hx
  | @pushed p task hpr =>
    refine ⟨fun x hx => ?_, fun q x hx => ?_⟩
    · rw [returned_append] at hx
      rcases List.mem_append.1 hx with hx | hx
      · exact hacc x (hp.1 x hx)
      · cases hx
    · rcases setProducer_cases (s := { s with tasks := _ }) hx with ⟨-, hx⟩ | hx
      · cases hx
        rw [accepted_append]
        exact List.mem_append_right _ (List.mem_singleton.2 rfl)
      · exact hacc x (hp.2 q x hx)
  | notified hpr => exact hreturn hpr rfl rfl
  | unheard hpr => exact hreturn hpr rfl rfl
  | _ => exact hquiet rfl fun _ _ hx => hx

/-! ## The workers at the test of the queue -/

variable [DecidableEq τ]

/-- The workers that are about to test the queue. -/
def testers (s : ThreadPool ι π τ) : Finset ι :=
  s.worker.toFinset.filter fun i => s.workers i = .test

omit [DecidableEq π] in
theorem mem_testers {i : ι} : i ∈ testers s ↔ i ∈ s.worker ∧ s.workers i = .test := by
  rw [testers, Finset.mem_filter, List.mem_toFinset]

omit [DecidableEq π] in
theorem testers_setWorker {i : ι} {p : WorkerPhase τ} (hp : p ≠ .test) :
    testers (s.setWorker i p) = (testers s).erase i := by
  ext j
  rw [Finset.mem_erase, mem_testers, mem_testers]
  by_cases hj : j = i
  · subst hj
    simp [setWorker_self, hp]
  · rw [setWorker_ne hj]
    exact ⟨fun h => ⟨hj, h⟩, fun h => h.2⟩

omit [DecidableEq π] in
/-- A worker that goes from one place to another, neither of them the test. -/
theorem testers_setWorker_same {i : ι} {p : WorkerPhase τ} (hi : s.workers i ≠ .test)
    (hp : p ≠ .test) :
    testers (s.setWorker i p) = testers s := by
  rw [testers_setWorker hp]
  exact Finset.erase_eq_of_notMem fun h => hi (mem_testers.1 h).2

/-- After the stop a step takes one worker away from the test, with a task or because there is none,
or leaves them all where they are. -/
theorem testers_of_acts (h : Acts false s a s' e) (hstop : s.stop = true) :
    (∃ i, s.workers i = .test ∧ testers s' = (testers s).erase i ∧
      ((∃ task, popped [(a, e)] = [task]) ∨ popped [(a, e)] = [] ∧ s.tasks = [])) ∨
    testers s' = testers s ∧ popped [(a, e)] = [] := by
  cases h with
  | @popped i task rest hi ht hs =>
    exact .inl ⟨i, hi, testers_setWorker (s := { s with tasks := rest })
      (by simp), .inl ⟨task, rfl⟩⟩
  | @passed i hi ht hs =>
    have ht : s.tasks = [] := ht.resolve_right (by simp)
    exact .inl ⟨i, hi, testers_setWorker (by simp), .inr ⟨rfl, ht⟩⟩
  | entered _ hs => rw [hstop] at hs; cases hs
  | foundEmpty _ _ hs => rw [hstop] at hs; cases hs
  | refused => exact .inr ⟨rfl, rfl⟩
  | ready => exact .inr ⟨rfl, rfl⟩
  | pushed => exact .inr ⟨rfl, rfl⟩
  | notified _ _ hi =>
    exact .inr ⟨testers_setWorker_same (s := s.setProducer _ _)
      (by simp [setProducer, hi]) (by simp), rfl⟩
  | unheard => exact .inr ⟨rfl, rfl⟩
  | @added i hi =>
    refine .inr ⟨?_, rfl⟩
    rw [testers_setWorker (s := { s with worker := _ }) (by simp)]
    ext j
    rw [Finset.mem_erase, mem_testers, mem_testers]
    constructor
    · rintro ⟨hj, hmem, hw⟩
      exact ⟨(List.mem_append.1 hmem).resolve_right fun h => hj (List.mem_singleton.1 h), hw⟩
    · rintro ⟨hmem, hw⟩
      refine ⟨?_, List.mem_append_left _ hmem, hw⟩
      rintro rfl
      rw [hi] at hw
      cases hw
  | left hi => exact .inr ⟨testers_setWorker_same (by simp [hi]) (by simp), rfl⟩
  | waited hi => exact .inr ⟨testers_setWorker_same (by simp [hi]) (by simp), rfl⟩
  | woken hi => exact .inr ⟨testers_setWorker_same (by simp [hi]) (by simp), rfl⟩
  | relocked hi => exact .inr ⟨testers_setWorker_same (by simp [hi]) (by simp), rfl⟩
  | finished hi => exact .inr ⟨testers_setWorker_same (by simp [hi]) (by simp), rfl⟩
  | stopped => exact .inr ⟨rfl, rfl⟩
  | locked => exact .inr ⟨rfl, rfl⟩
  | notifiedAll =>
    refine .inr ⟨?_, rfl⟩
    ext j
    rw [mem_testers, mem_testers]
    show j ∈ s.worker ∧ wakeAll (s.workers j) = .test ↔ _
    cases s.workers j <;> simp [wakeAll]
  | joined => exact .inr ⟨rfl, rfl⟩
  | unlocked => exact .inr ⟨rfl, rfl⟩

/-! ## What is drained -/

/-- After the stop in `s₀` each worker at the test takes one task, unless the queue ran out. -/
structure Draining (s₀ : ThreadPool ι π τ) (t : Trace ι π τ) (s : ThreadPool ι π τ) : Prop where
  stop : s.stop = true
  atMost : (popped t).length + (testers s).card ≤ (testers s₀).card
  allOr : (popped t).length + (testers s).card = (testers s₀).card ∨
    s₀.tasks.length ≤ (popped t).length

omit [DecidableEq τ] in
theorem Acts.stop (h : Acts suddenDeath s a s' e) (hs : s.stop = true) : s'.stop = true := by
  cases h with
  | stopped => rfl
  | _ => exact hs

theorem Draining.next (hd : Draining s₀ t s) (h : Acts false s a s' e)
    (hl : ∀ i, s.workers i ≠ .absent → i ∈ s.worker)
    (hempty : s.tasks = [] → s₀.tasks.length ≤ (popped t).length) :
    Draining s₀ (t ++ [(a, e)]) s' := by
  obtain ⟨hstop, hle, hor⟩ := hd
  suffices hcount : (popped (t ++ [(a, e)])).length + (testers s').card ≤ (testers s₀).card ∧
      ((popped (t ++ [(a, e)])).length + (testers s').card = (testers s₀).card ∨
        s₀.tasks.length ≤ (popped (t ++ [(a, e)])).length) from
    ⟨h.stop hstop, hcount.1, hcount.2⟩
  rw [popped_append, List.length_append]
  rcases testers_of_acts h hstop with ⟨i, hi, htest, hpop⟩ | ⟨htest, hpop⟩
  · have hmem : i ∈ testers s := mem_testers.2 ⟨hl i (by simp [hi]), hi⟩
    have hcard : (testers s').card + 1 = (testers s).card := by
      rw [htest, Finset.card_erase_add_one hmem]
    rcases hpop with ⟨task, hpop⟩ | ⟨hpop, ht⟩
    · rw [hpop, List.length_singleton]
      omega
    · have := hempty ht
      rw [hpop, List.length_nil]
      omega
  · rw [htest, hpop, List.length_nil]
    omega

/-- From the stop on, what was queued then is popped first. -/
theorem queue_after {x : Action ι π τ × Option (Event ι τ)} (hx : x.2 = none)
    (h₁ : Run (step suddenDeath) distinct initial t₁ s₀)
    (h : Run (step suddenDeath) distinct initial (t₁ ++ [x] ++ t₂) s) :
    popped t₂ ++ s.tasks = s₀.tasks ++ accepted t₂ := by
  have horder := (accounted_of_run (fun _ _ _ hg => hg) h).2
  have horder₁ := (accounted_of_run (fun _ _ _ hg => hg) h₁).2
  have hpop : popped [x] = [] := by simp [popped, hx]
  have hacc : accepted [x] = [] := by simp [accepted, hx]
  rw [popped_append, popped_append, accepted_append, accepted_append, hpop, hacc, ← horder₁,
    List.append_nil, List.append_nil, List.append_assoc, List.append_assoc] at horder
  exact List.append_cancel_left horder

theorem draining_of_run (h₁ : Run (step false) distinct initial t₁ s₀)
    (h : Run (step false) distinct initial (t₁ ++ [(.setStop, none)] ++ t₂) s) :
    Draining s₀ t₂ s := by
  refine h.invariant_from (P := fun t₂ s => Draining s₀ t₂ s) ?_ ?_
  · intro s hs
    obtain ⟨s₁, h₁', -, hstep⟩ := hs.snoc_inv
    obtain rfl := h₁.state_unique h₁'
    cases step_acts hstep with
    | stopped => exact ⟨rfl, by simp [popped, testers], .inl (by simp [popped, testers])⟩
  · intro t₂ s a s' e hrun hd hg hstep
    refine hd.next (step_acts hstep) (listed_of_run hrun) fun ht => ?_
    have horder := queue_after rfl h₁ hrun
    rw [ht, List.append_nil] at horder
    rw [horder, List.length_append]
    omega

/-- Each task in the queue for which `add_task` returned stands before as many workers at the
test. -/
def Drainable (t : Trace ι π τ) (s : ThreadPool ι π τ) : Prop :=
  ∀ j : Fin s.tasks.length, s.tasks[j] ∈ returned t → j < (testers s).card

instance (t : Trace ι π τ) (s : ThreadPool ι π τ) : Decidable (Drainable t s) := by
  unfold Drainable; infer_instance

theorem pushing_of_run (h : Run (step suddenDeath) distinct initial t s) : Pushing t s :=
  h.invariant pushing_initial fun _ _ _ _ _ ih _ hstep => (step_acts hstep).pushing ih

/-- **What is drained.** Once all workers have left their loop, every task for which `add_task`
returned before the stop is finished exactly where each such task that is queued at the stop finds a
worker at the test of the queue. -/
theorem drained_iff (h₁ : Run (step false) distinct initial t₁ s₀)
    (h : Run (step false) distinct initial (t₁ ++ [(.setStop, none)] ++ t₂) s)
    (hleft : ∀ i, s.workers i = .absent ∨ s.workers i = .left) :
    (∀ task ∈ returned t₁, task ∈ finished (t₁ ++ [(.setStop, none)] ++ t₂)) ↔ Drainable t₁ s₀ := by
  obtain ⟨hplaces, horder⟩ := accounted_of_run (fun _ _ _ hg => hg) h
  have horder₁ := (accounted_of_run (fun _ _ _ hg => hg) h₁).2
  have hafter := queue_after rfl h₁ h
  -- nobody is at the test any more, so the pops since the stop are as many as the testers then
  have hdrain : (popped t₂).length ≤ (testers s₀).card ∧ ((popped t₂).length = (testers s₀).card ∨
      s₀.tasks.length ≤ (popped t₂).length) := by
    have hnone : testers s = ∅ := by
      refine Finset.eq_empty_of_forall_notMem fun i hi => ?_
      rcases hleft i with hw | hw <;> simp [mem_testers, hw] at hi
    obtain ⟨-, hle, hor⟩ := draining_of_run h₁ h
    rw [hnone, Finset.card_empty] at hle hor
    exact ⟨hle, hor⟩
  -- nobody holds a task, so an accepted task is finished or still queued
  have hfin : ∀ task, task ∈ returned t₁ →
      (task ∈ finished (t₁ ++ [(.setStop, none)] ++ t₂) ↔ task ∉ s.tasks) := by
    intro task ht
    have hacc : task ∈ accepted (t₁ ++ [(.setStop, none)] ++ t₂) := by
      rw [accepted_append, accepted_append]
      exact List.mem_append_left _ (List.mem_append_left _ ((pushing_of_run h₁).1 task ht))
    refine ⟨fun hf hq => hplaces.queued_not_finished task hq hf, fun hq => ?_⟩
    rcases (hplaces.places task).1 hacc with hq' | ⟨i, hi⟩ | hf
    · exact absurd hq' hq
    · rcases hleft i with hw | hw <;> simp [asQueue, hw, WorkerPhase.task] at hi
    · exact hf
  constructor
  · intro hall j ht
    have hq := (hfin _ ht).1 (hall _ ht)
    by_contra hlt
    have hj' : (popped t₂ ++ s.tasks)[(j : Nat)]? = some s₀.tasks[j] := by
      rw [hafter, List.getElem?_append_left j.2, List.getElem?_eq_getElem j.2]
      rfl
    rw [List.getElem?_append_right (by omega)] at hj'
    exact hq (List.mem_of_getElem? hj')
  · intro hd task ht
    refine (hfin task ht).2 fun hq => ?_
    have hnodup := hplaces.nodup
    rw [← horder] at hnodup
    have hnot : task ∉ popped (t₁ ++ [(.setStop, none)] ++ t₂) := fun hp =>
      (List.nodup_append.1 hnodup).2.2 task hp task hq rfl
    rw [popped_append, popped_append, List.mem_append, List.mem_append, not_or, not_or] at hnot
    have hacc := (pushing_of_run h₁).1 task ht
    rw [← horder₁] at hacc
    rcases List.mem_append.1 hacc with hp | hq₀
    · exact hnot.1.1 hp
    · obtain ⟨j, hlen, rfl⟩ := List.mem_iff_getElem.1 hq₀
      have hlt := hd ⟨j, hlen⟩ ht
      have hj' : (popped t₂ ++ s.tasks)[j]? = some s₀.tasks[j] := by
        rw [hafter, List.getElem?_append_left hlen, List.getElem?_eq_getElem hlen]
      change j < _ at hlt
      rw [List.getElem?_append_left (by omega)] at hj'
      exact hnot.2 (List.mem_of_getElem? hj')

/-- One task is queued and the worker is about to test `m_stop`. -/
def oneQueued : Trace (Fin 1) (Fin 1) Nat :=
  [(.addNewThread 0, none), (.addTask 0 7, none), (.push 0, some (.pushed 7)),
    (.notify 0 none, some (.returned 7))]

/-- The worker goes on to the test of the queue before the stop, so the task is finished. -/
theorem drained_iff_tested :
    ∃ (t₁ t₂ : Trace (Fin 1) (Fin 1) Nat) (s : ThreadPool (Fin 1) (Fin 1) Nat),
    Run (step false) distinct initial (t₁ ++ [(.setStop, none)] ++ t₂) s ∧ 7 ∈ returned t₁ ∧
      ∀ task ∈ returned t₁, task ∈ finished (t₁ ++ [(.setStop, none)] ++ t₂) := by
  obtain ⟨t₁, s₀, h₁, -, hp₁⟩ := Run.exists_of_replay (step false) distinct
    (initial : ThreadPool (Fin 1) (Fin 1) Nat) (Run.inputs (oneQueued ++ [(Action.loop 0, none)]))
    (fun t s => decide (t = oneQueued ++ [(Action.loop 0, none)] ∧
    Drainable t s)) (by decide +kernel)
  obtain ⟨rfl, hd⟩ := of_decide_eq_true hp₁
  obtain ⟨t, s, h, -, hp⟩ := Run.exists_of_replay (step false) distinct
    (initial : ThreadPool (Fin 1) (Fin 1) Nat)
    (Run.inputs (oneQueued ++ [(Action.loop 0, none)]) ++
    [Action.setStop, .test 0, .finish 0 false, .loop 0])
    (fun t s => decide (t = oneQueued ++ [(Action.loop 0, none)] ++ [(Action.setStop, none)] ++
      [(Action.test 0, some (.popped 0 7)),
      (.finish 0 false, some (.finished 0 7 false)), (.loop 0, none)] ∧
        ∀ i, s.workers i = .absent ∨ s.workers i = .left)) (by decide +kernel)
  obtain ⟨rfl, hleft⟩ := of_decide_eq_true hp
  exact ⟨_, _, s, h, by decide, (drained_iff h₁ h hleft).2 hd⟩

/-- The worker leaves with the task queued. -/
theorem not_drained : ¬ ∀ (t₁ t₂ : Trace (Fin 1) (Fin 1) Nat) (s : ThreadPool (Fin 1) (Fin 1) Nat),
    Run (step false) distinct initial (t₁ ++ [(.setStop, none)] ++ t₂) s → s.worker ≠ [] →
      (∀ i, s.workers i = .absent ∨ s.workers i = .left) →
      ∀ task ∈ returned t₁, task ∈ finished (t₁ ++ [(.setStop, none)] ++ t₂) := by
  intro hall
  obtain ⟨t, s, h, -, hp⟩ := Run.exists_of_replay (step false) distinct
    (initial : ThreadPool (Fin 1) (Fin 1) Nat) (Run.inputs oneQueued ++ [Action.setStop, .loop 0])
    (fun t s => decide (t = oneQueued ++ [(Action.setStop, none)] ++ [(Action.loop 0, none)] ∧
    s.worker ≠ [] ∧
      ∀ i, s.workers i = .absent ∨ s.workers i = .left)) (by decide +kernel)
  obtain ⟨rfl, hworker, hleft⟩ := of_decide_eq_true hp
  exact absurd (hall _ _ s h hworker hleft 7 (by decide)) (by decide)

/-! ## Where the destructor hangs -/

/-- The destructor joins a worker that cannot go on without `m_var_mutex`, which the destructor
holds. -/
def Deadlocked (s : ThreadPool ι π τ) : Prop :=
  ∃ i rest, s.destructor = .joining (i :: rest) ∧ (s.workers i).needsVarMutex = true

/-- No worker needs `m_var_mutex` when the destructor locks it. -/
def varMutexUnneeded (s : ThreadPool ι π τ) (_ : Trace ι π τ) : Action ι π τ → Prop
  | .lock => ∀ i, (s.workers i).needsVarMutex = false
  | _ => True

/-- The destructor has stopped the workers, and while it holds `m_var_mutex` none of them needs
it. -/
structure Unneeded (s : ThreadPool ι π τ) : Prop where
  stop : s.destructor ≠ .idle → s.stop = true
  held : s.varMutexFree = false → ∀ i, (s.workers i).needsVarMutex = false

omit [DecidableEq ι] [DecidableEq π] [DecidableEq τ] in
theorem Unneeded.stop_of_held (hs : Unneeded s) (hm : s.varMutexFree = false) : s.stop = true := by
  refine hs.stop fun hd => ?_
  rw [varMutexFree, hd] at hm
  cases hm

omit [DecidableEq π] [DecidableEq τ] in
theorem Unneeded.setWorker {i : ι} {p : WorkerPhase τ} (hs : Unneeded s)
    (hp : s.varMutexFree = false → p.needsVarMutex = false) : Unneeded (s.setWorker i p) where
  stop := hs.stop
  held hm j := by
    by_cases hj : j = i
    · subst hj
      rw [setWorker_self]
      exact hp hm
    · rw [setWorker_ne hj]
      exact hs.held hm j

omit [DecidableEq τ] in
theorem Acts.unneeded (h : Acts suddenDeath s a s' e) (hg : varMutexUnneeded s t a)
    (hs : Unneeded s) :
    Unneeded s' := by
  have hfree : ∀ {p : WorkerPhase τ}, s.varMutexFree = true → s.varMutexFree = false →
      p.needsVarMutex = false := by
    intro p ht hf
    rw [ht] at hf
    cases hf
  cases h with
  | refused => exact hs
  | ready => exact ⟨hs.stop, hs.held⟩
  | pushed => exact ⟨hs.stop, hs.held⟩
  | @notified p _ _ _ hm _ =>
    exact Unneeded.setWorker (s := s.setProducer p .idle) ⟨hs.stop, hs.held⟩ (hfree hm)
  | unheard => exact ⟨hs.stop, hs.held⟩
  | added => exact Unneeded.setWorker (s := { s with worker := _ }) ⟨hs.stop, hs.held⟩ fun _ => rfl
  | entered => exact hs.setWorker fun _ => rfl
  | left => exact hs.setWorker fun _ => rfl
  | popped => exact Unneeded.setWorker (s := { s with tasks := _ }) ⟨hs.stop, hs.held⟩ fun _ => rfl
  | foundEmpty _ _ hstop =>
    -- after the stop nobody comes to the lock of the mutex any more
    refine hs.setWorker fun hm => ?_
    rw [hs.stop_of_held hm] at hstop
    cases hstop
  | passed => exact hs.setWorker fun _ => rfl
  | waited _ hm => exact hs.setWorker (hfree hm)
  | @woken i hi =>
    refine hs.setWorker fun hm => ?_
    have := hs.held hm i
    rw [hi] at this
    cases this
  | relocked => exact hs.setWorker fun _ => rfl
  | finished => exact hs.setWorker fun _ => rfl
  | stopped => exact ⟨fun _ => rfl, nofun⟩
  | locked hd => exact ⟨fun _ => hs.stop (by simp [hd]), fun _ => hg⟩
  | notifiedAll hd =>
    refine ⟨fun _ => hs.stop (by simp [hd]), fun _ i => ?_⟩
    have hi := hs.held (by simp [varMutexFree, hd]) i
    show (wakeAll (s.workers i)).needsVarMutex = false
    cases hw : s.workers i with
    | waiting => rw [hw] at hi; cases hi
    | _ => rw [hw] at hi; exact hi
  | joined hd => exact ⟨fun _ => hs.stop (by simp [hd]), fun _ =>
    hs.held (by simp [varMutexFree, hd])⟩
  | unlocked hd => exact ⟨fun _ => hs.stop (by simp [hd]), nofun⟩

theorem unneeded_of_run (h : Run (step suddenDeath) varMutexUnneeded initial t s) : Unneeded s :=
  h.invariant (P := fun _ s => Unneeded s) ⟨fun hd => absurd rfl hd, nofun⟩
    fun _ _ _ _ _ ih hg hstep => (step_acts hstep).unneeded hg ih

/-- **The destructor joins no worker that needs the mutex it holds**, where no worker needed the
mutex when the destructor locked it. -/
theorem not_deadlocked (h : Run (step suddenDeath) varMutexUnneeded initial t s) :
    ¬ Deadlocked s := by
  rintro ⟨i, rest, hd, hi⟩
  have hnone := (unneeded_of_run h).held (by simp [varMutexFree, hd]) i
  rw [hi] at hnone
  cases hnone

instance [Fintype ι] (s : ThreadPool ι π τ) (t : Trace ι π τ) (a : Action ι π τ) :
    Decidable (varMutexUnneeded s t a) :=
  match a with
  | .addTask .. | .push _ | .notify .. | .addNewThread _ | .loop _ | .test _
  | .wait _ | .wakeSpuriously _ | .relock _
  | .finish .. | .setStop | .lock | .notifyAll | .join | .unlock => by
    unfold varMutexUnneeded; infer_instance

/-- The worker is at the test of the queue when the destructor locks the mutex, and is joined. -/
theorem not_deadlocked_done : ∃ t s,
    Run (step true) varMutexUnneeded (initial : ThreadPool (Fin 1) (Fin 1) Nat) t s ∧
      s.destructor = .joining [0] ∧ s.workers 0 = .left ∧ ¬ Deadlocked s := by
  obtain ⟨t, s, h, -, hp⟩ := Run.exists_of_replay (step true) varMutexUnneeded
    (initial : ThreadPool (Fin 1) (Fin 1) Nat)
    [.addNewThread 0, .loop 0, .setStop, .lock, .notifyAll, .test 0, .loop 0]
    (fun _ s => decide (s.destructor = .joining [0] ∧ s.workers 0 = .left)) (by decide)
  obtain ⟨hd, hw⟩ := of_decide_eq_true hp
  exact ⟨t, s, h, hd, hw, not_deadlocked h⟩

/-- A waiting worker is notified and cannot lock the mutex that the destructor holds while it
joins. -/
theorem deadlocked_reachable : ¬ ∀ (t : Trace (Fin 1) (Fin 1) Nat) s,
    Run (step true) distinct initial t s → ¬ Deadlocked s := by
  intro hall
  obtain ⟨t, s, h, -, hp⟩ := Run.exists_of_replay (step true) distinct
    (initial : ThreadPool (Fin 1) (Fin 1) Nat)
    [.addNewThread 0, .loop 0, .test 0, .wait 0, .setStop, .lock, .notifyAll]
    (fun _ s => decide (s.destructor = .joining [0] ∧ (s.workers 0).needsVarMutex = true))
    (by decide)
  obtain ⟨hd, hw⟩ := of_decide_eq_true hp
  exact hall t s h ⟨0, [], hd, hw⟩

end ThreadPool

end CppFrame.Concurrency
