import CppFrame.Concurrency.ThreadPool
import Mathlib.Data.Fintype.Basic

/-!
# Wakeups

A task in the queue should be seen: by a worker that is on its way to the queue, or through a
notification that is still to come. `Seen` says so. It is lost when the notification comes while
every worker is between its empty test and its `wait`, as the queue and the condition variable have
different mutexes and the wait has no predicate. In every run in which a notification that matters
finds a worker elsewhere (`heard`), no wakeup is lost (`not_lostWakeup`).
-/

namespace CppFrame.Concurrency

/-- A worker that will come to the queue without being notified. -/
def WorkerPhase.awake {τ : Type} : WorkerPhase τ → Bool
  | .loop => true
  | .test => true
  | .woken => true
  | .running _ => true
  | _ => false

/-- A caller of `add_task` between its push and its notify. -/
def ProducerPhase.between {τ : Type} : ProducerPhase τ → Bool
  | .pushed _ => true
  | _ => false

namespace ThreadPool

variable {ι π τ : Type}

/-- There are tasks, every worker is in `wait`, and no notification is to come. -/
def LostWakeup (s : ThreadPool ι π τ) : Prop :=
  s.tasks ≠ [] ∧ (∀ i, s.workers i = .absent ∨ s.workers i = .waiting) ∧
    ∀ p, (s.producers p).between = false

/-- A notification for a queue with tasks, while no other is to come, finds a worker that is in
`wait` or awake. -/
def heard (s : ThreadPool ι π τ) (_ : Trace ι π τ) : Action ι π τ → Prop
  | .notify p _ => s.tasks ≠ [] → (∀ q, q ≠ p → (s.producers q).between = false) →
      ∃ i, s.workers i = .waiting ∨ (s.workers i).awake = true
  | _ => True

/-- Somebody is on the way to the queue where it has tasks. -/
structure Seen (s : ThreadPool ι π τ) : Prop where
  listed : ∀ i, s.workers i ≠ .absent → i ∈ s.worker
  seen : s.stop = false → s.tasks ≠ [] →
    (∃ p, (s.producers p).between = true) ∨ ∃ i, (s.workers i).awake = true

theorem seen_initial : Seen (initial : ThreadPool ι π τ) where
  listed _ h := absurd rfl h
  seen _ h := absurd rfl h

variable [DecidableEq ι] [DecidableEq π] {suddenDeath : Bool} {s s' : ThreadPool ι π τ}
  {a : Action ι π τ} {e : Option (Event ι τ)}

theorem Acts.seen (h : Acts suddenDeath s a s' e) {t : Trace ι π τ} (hg : heard s t a)
    (hs : Seen s) :
    Seen s' := by
  refine ⟨h.listed hs.listed, fun hstop htasks => ?_⟩
  -- a worker that was just set going is awake
  have hgo : ∀ {s₀ : ThreadPool ι π τ} {i : ι} {p : WorkerPhase τ}, p.awake = true →
      (∃ q, ((s₀.setWorker i p).producers q).between = true) ∨
        ∃ j, ((s₀.setWorker i p).workers j).awake = true := by
    intro s₀ i p hp
    exact .inr ⟨i, (setWorker_self s₀ i p).symm ▸ hp⟩
  cases h with
  | refused => exact hs.seen hstop htasks
  | @ready p task hp =>
    rcases hs.seen hstop htasks with ⟨q, hq⟩ | hi
    · have hqp : q ≠ p := by
        rintro rfl
        rw [hp] at hq
        cases hq
      exact .inl ⟨q, (setProducer_ne hqp s (.ready task)).symm ▸ hq⟩
    · exact .inr hi
  | @pushed p task hp =>
    refine .inl ⟨p, ?_⟩
    show (Function.update s.producers p (.pushed task) p).between = true
    rw [Function.update_self]
    rfl
  | notified => exact hgo rfl
  | @unheard p task hp hm hi =>
    by_cases hq : ∃ q, q ≠ p ∧ (s.producers q).between = true
    · obtain ⟨q, hqp, hq⟩ := hq
      exact .inl ⟨q, (setProducer_ne hqp s .idle).symm ▸ hq⟩
    · have hq' : ∀ q, q ≠ p → (s.producers q).between = false := by
        intro q hqp
        by_contra hb
        exact hq ⟨q, hqp, Bool.not_eq_false _ ▸ hb⟩
      obtain ⟨i, hw | ha⟩ := hg htasks hq'
      · exact absurd hw (hi i (hs.listed i (by simp [hw])))
      · exact .inr ⟨i, ha⟩
  | added => exact hgo rfl
  | entered => exact hgo rfl
  | left _ hst =>
    exact absurd hst (by rw [show s.stop = false from hstop]; exact Bool.false_ne_true)
  | popped => exact hgo rfl
  | foundEmpty _ ht => exact absurd ht htasks
  | passed _ _ hst =>
    exact absurd hst (by rw [show s.stop = false from hstop]; exact Bool.false_ne_true)
  | @waited i hi =>
    rcases hs.seen hstop htasks with hq | ⟨j, hj⟩
    · exact .inl hq
    · have hji : j ≠ i := by
        rintro rfl
        rw [hi] at hj
        cases hj
      exact .inr ⟨j, (setWorker_ne hji s .waiting).symm ▸ hj⟩
  | woken => exact hgo rfl
  | relocked => exact hgo rfl
  | finished => exact hgo rfl
  | stopped => exact absurd hstop Bool.true_eq_false.mp
  | locked => exact hs.seen hstop htasks
  | notifiedAll =>
    rcases hs.seen hstop htasks with hq | ⟨j, hj⟩
    · exact .inl hq
    · refine .inr ⟨j, ?_⟩
      show (wakeAll (s.workers j)).awake = true
      cases hw : s.workers j with
      | waiting => rfl
      | _ => rw [hw] at hj; exact hj
  | joined => exact hs.seen hstop htasks
  | unlocked => exact hs.seen hstop htasks

variable [DecidableEq τ]

/-- **No wakeup is lost** in a run in which every notification that matters finds a worker in `wait`
or awake. -/
theorem not_lostWakeup {t : Trace ι π τ} (h : Run (step suddenDeath) heard initial t s)
    (hstop : s.stop = false) : ¬ LostWakeup s := by
  have hs : Seen s := by
    refine h.invariant (P := fun _ s => Seen s) seen_initial ?_
    intro t s a s' e ih hg hstep
    exact (step_acts hstep).seen hg ih
  rintro ⟨htasks, hworkers, hproducers⟩
  rcases hs.seen hstop htasks with ⟨p, hp⟩ | ⟨i, hi⟩
  · rw [hproducers p] at hp
    cases hp
  · rcases hworkers i with hw | hw
    · rw [hw] at hi
      cases hi
    · rw [hw] at hi
      cases hi

instance [Fintype ι] [Fintype π] (s : ThreadPool ι π τ) (t : Trace ι π τ) (a : Action ι π τ) :
    Decidable (heard s t a) :=
  match a with
  | .addTask .. | .push _ | .notify .. | .addNewThread _ | .loop _ | .test _
  | .wait _ | .wakeSpuriously _ | .relock _
  | .finish .. | .setStop | .lock | .notifyAll | .join | .unlock => by unfold heard; infer_instance

instance [Fintype ι] [Fintype π] (s : ThreadPool ι π τ) : Decidable (LostWakeup s) := by
  unfold LostWakeup; infer_instance

/-- The worker waits before the task comes, and is woken. -/
theorem not_lostWakeup_woken : ∃ t s,
    Run (step true) heard (initial : ThreadPool (Fin 1) (Fin 1) Nat) t s ∧ s.tasks = [7] ∧
      s.workers 0 = .woken ∧ ¬ LostWakeup s := by
  obtain ⟨t, s, h, -, hp⟩ := Run.exists_of_replay (step true) heard
    (initial : ThreadPool (Fin 1) (Fin 1) Nat)
    [.addNewThread 0, .loop 0, .test 0, .wait 0, .addTask 0 7, .push 0, .notify 0 (some 0)]
    (fun _ s => decide (s.tasks = [7] ∧ s.workers 0 = .woken ∧ s.stop = false)) (by decide)
  obtain ⟨ht, hw, hstop⟩ := of_decide_eq_true hp
  exact ⟨t, s, h, ht, hw, not_lostWakeup h hstop⟩

/-- The task comes between the worker's empty test and its `wait`: the notification is lost. -/
theorem lostWakeup_reachable : ¬ ∀ (t : Trace (Fin 1) (Fin 1) Nat) s,
    Run (step true) distinct initial t s → s.stop = false → ¬ LostWakeup s := by
  intro hall
  obtain ⟨t, s, h, -, hp⟩ := Run.exists_of_replay (step true) distinct
    (initial : ThreadPool (Fin 1) (Fin 1) Nat)
    [.addNewThread 0, .loop 0, .test 0, .addTask 0 7, .push 0, .notify 0 none, .wait 0]
    (fun _ s => decide (s.stop = false ∧ LostWakeup s)) (by decide)
  obtain ⟨hstop, hlost⟩ := of_decide_eq_true hp
  exact hall t s h hstop hlost

end ThreadPool

end CppFrame.Concurrency
