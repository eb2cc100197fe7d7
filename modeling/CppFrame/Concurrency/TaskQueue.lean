import CppFrame.Run
import Mathlib.Data.List.Nodup
import Mathlib.Logic.Function.Basic

/-!
# A queue of tasks and its workers

Tasks are pushed at the back of a queue, taken from the front by workers that hold nothing, and
finished by the worker that holds them, in any interleaving. Where no task is pushed twice, every
task pushed is in one place (`Accounted`), and tasks are taken in the order of their pushes
(`taken_append_tasks`).
-/

/-- The queue, and what each worker holds. -/
structure TaskQueue (ι τ : Type) where
  tasks : List τ
  held : ι → Option τ

namespace TaskQueue

variable {ι τ : Type}

/-- One step of the queue or of a worker. -/
inductive Move (ι τ : Type)
  | push (x : τ)
  | take (i : ι)
  | finish (i : ι)

/-- What a step did, and to which task. -/
inductive Event (τ : Type)
  | pushed (x : τ)
  | taken (x : τ)
  | finished (x : τ)

/-- The empty queue, with idle workers. -/
def empty : TaskQueue ι τ := ⟨[], fun _ => none⟩

/-- One step. A worker takes only when it holds nothing and there is a task. -/
def step [DecidableEq ι] (s : TaskQueue ι τ) : Move ι τ → Option (TaskQueue ι τ × Event τ)
  | .push x => some ({ s with tasks := s.tasks ++ [x] }, .pushed x)
  | .take i =>
    match s.held i, s.tasks with
    | none, x :: rest => some (⟨rest, Function.update s.held i (some x)⟩, .taken x)
    | _, _ => none
  | .finish i =>
    match s.held i with
    | some x => some ({ s with held := Function.update s.held i none }, .finished x)
    | none => none

/-- The moves made so far, with their events. -/
abbrev Trace (ι τ : Type) := List (Move ι τ × Event τ)

/-- The tasks pushed, in order. -/
def pushed (t : Trace ι τ) : List τ :=
  t.filterMap fun x => match x.2 with | .pushed x => some x | _ => none

/-- The tasks taken, in order. -/
def taken (t : Trace ι τ) : List τ :=
  t.filterMap fun x => match x.2 with | .taken x => some x | _ => none

/-- The tasks finished, in order. -/
def finished (t : Trace ι τ) : List τ :=
  t.filterMap fun x => match x.2 with | .finished x => some x | _ => none

/-- Every push is of a task that was not pushed before. -/
def fresh (_ : TaskQueue ι τ) (t : Trace ι τ) : Move ι τ → Prop
  | .push x => x ∉ pushed t
  | _ => True

/-- Every task pushed is in one place: in the queue, with one worker, or finished. -/
structure Accounted (pushed finished : List τ) (s : TaskQueue ι τ) : Prop where
  nodup : pushed.Nodup
  places : ∀ x, x ∈ pushed ↔ x ∈ s.tasks ∨ (∃ i, s.held i = some x) ∨ x ∈ finished
  queued_once : s.tasks.Nodup
  finished_once : finished.Nodup
  held_once : ∀ i j x, s.held i = some x → s.held j = some x → i = j
  queued_not_held : ∀ i x, x ∈ s.tasks → s.held i ≠ some x
  queued_not_finished : ∀ x, x ∈ s.tasks → x ∉ finished
  held_not_finished : ∀ i x, s.held i = some x → x ∉ finished

theorem accounted_empty : Accounted [] [] (empty : TaskQueue ι τ) where
  nodup := List.nodup_nil
  places x := by simp [empty]
  queued_once := List.nodup_nil
  finished_once := List.nodup_nil
  held_once i j x hi := by cases hi
  queued_not_held i x hx := by cases hx
  queued_not_finished x hx := by cases hx
  held_not_finished i x hi := by cases hi

theorem Accounted.push {ps fs : List τ} {s : TaskQueue ι τ} (h : Accounted ps fs s) {x : τ}
    (hx : x ∉ ps) :
    Accounted (ps ++ [x]) fs ⟨s.tasks ++ [x], s.held⟩ := by
  have hq : x ∉ s.tasks := fun hm => hx ((h.places x).2 (.inl hm))
  have hh : ∀ i, s.held i ≠ some x := fun i hi => hx ((h.places x).2 (.inr (.inl ⟨i, hi⟩)))
  have hf : x ∉ fs := fun hm => hx ((h.places x).2 (.inr (.inr hm)))
  constructor
  · exact List.nodup_append.2 ⟨h.nodup, List.nodup_singleton x, fun a ha b hb => by
      rw [List.mem_singleton.1 hb]
      exact fun e => hx (e ▸ ha)⟩
  · intro y
    simp only [List.mem_append, List.mem_singleton, h.places y]
    tauto
  · exact List.nodup_append.2 ⟨h.queued_once, List.nodup_singleton x, fun a ha b hb => by
      rw [List.mem_singleton.1 hb]
      exact fun e => hq (e ▸ ha)⟩
  · exact h.finished_once
  · exact h.held_once
  · intro i y hy
    rcases List.mem_append.1 hy with hy | hy
    · exact h.queued_not_held i y hy
    · exact List.mem_singleton.1 hy ▸ hh i
  · intro y hy
    rcases List.mem_append.1 hy with hy | hy
    · exact h.queued_not_finished y hy
    · exact List.mem_singleton.1 hy ▸ hf
  · exact h.held_not_finished

variable [DecidableEq ι] {guard : TaskQueue ι τ → Trace ι τ → Move ι τ → Prop} {t : Trace ι τ}
  {s s' : TaskQueue ι τ}

/-- What a step can do. -/
inductive Steps (s : TaskQueue ι τ) : Move ι τ → TaskQueue ι τ → Event τ → Prop
  | push (x : τ) : Steps s (.push x) ⟨s.tasks ++ [x], s.held⟩ (.pushed x)
  | take {i : ι} {x : τ} {rest : List τ} (hi : s.held i = none) (ht : s.tasks = x :: rest) :
      Steps s (.take i) ⟨rest, Function.update s.held i (some x)⟩ (.taken x)
  | finish {i : ι} {x : τ} (hi : s.held i = some x) :
      Steps s (.finish i) ⟨s.tasks, Function.update s.held i none⟩ (.finished x)

theorem step_steps {a : Move ι τ} {e : Event τ} (h : step s a = some (s', e)) : Steps s a s' e := by
  cases a with
  | push x =>
    cases h
    exact .push x
  | take i =>
    simp only [step] at h
    split at h
    · cases h
      rename_i hi ht
      exact .take hi ht
    · cases h
  | finish i =>
    simp only [step] at h
    split at h
    · cases h
      rename_i hi
      exact .finish hi
    · cases h

/-- **First in, first out.** The tasks taken, followed by those in the queue, are the tasks
pushed. -/
theorem taken_append_tasks (h : Run step guard empty t s) : taken t ++ s.tasks = pushed t := by
  refine h.invariant (P := fun t s => taken t ++ s.tasks = pushed t) rfl ?_
  intro t s a s' e ih _ hs
  unfold taken pushed at *
  rw [List.filterMap_append, List.filterMap_append, ← ih]
  cases step_steps hs with
  | push x => simp
  | take hi ht => simp [ht]
  | finish hi => simp

/-! ## Every task is in one place -/

theorem Accounted.take {ps fs rest : List τ} (h : Accounted ps fs s) {i : ι} {x : τ}
    (hi : s.held i = none) (ht : s.tasks = x :: rest) :
    Accounted ps fs ⟨rest, Function.update s.held i (some x)⟩ := by
  have hx : x ∈ s.tasks := ht ▸ List.mem_cons_self
  have hmem : ∀ y, y ∈ rest → y ∈ s.tasks := fun y hy => ht ▸ List.mem_cons_of_mem x hy
  have hnd := h.queued_once
  rw [ht, List.nodup_cons] at hnd
  -- the worker had nothing before, so all other places stay
  have hheld : ∀ j y, Function.update s.held i (some x) j = some y ↔
      s.held j = some y ∨ j = i ∧ y = x := by
    intro j y
    by_cases hj : j = i
    · subst hj
      simp [hi, eq_comm]
    · simp [hj]
  constructor
  · exact h.nodup
  · intro y
    have hy := h.places y
    rw [ht, List.mem_cons] at hy
    simp only [hheld, hy]
    constructor
    · rintro ((rfl | hy) | ⟨j, hj⟩ | hy)
      · exact .inr (.inl ⟨i, .inr ⟨rfl, rfl⟩⟩)
      · exact .inl hy
      · exact .inr (.inl ⟨j, .inl hj⟩)
      · exact .inr (.inr hy)
    · rintro (hy | ⟨j, hj | ⟨-, rfl⟩⟩ | hy)
      · exact .inl (.inr hy)
      · exact .inr (.inl ⟨j, hj⟩)
      · exact .inl (.inl rfl)
      · exact .inr (.inr hy)
  · exact hnd.2
  · exact h.finished_once
  · intro j k y hj hk
    rw [hheld] at hj hk
    rcases hj with hj | ⟨rfl, rfl⟩ <;> rcases hk with hk | ⟨rfl, hk⟩
    · exact h.held_once j k y hj hk
    · exact absurd hj (hk ▸ h.queued_not_held j x hx)
    · exact absurd hk (h.queued_not_held k y hx)
    · rfl
  · intro j y hy hj
    rcases (hheld j y).1 hj with hj | ⟨-, rfl⟩
    · exact h.queued_not_held j y (hmem y hy) hj
    · exact hnd.1 hy
  · intro y hy
    exact h.queued_not_finished y (hmem y hy)
  · intro j y hj
    rcases (hheld j y).1 hj with hj | ⟨-, rfl⟩
    · exact h.held_not_finished j y hj
    · exact h.queued_not_finished y hx

theorem Accounted.finish {ps fs : List τ} (h : Accounted ps fs s) {i : ι} {x : τ}
    (hi : s.held i = some x) :
    Accounted ps (fs ++ [x]) ⟨s.tasks, Function.update s.held i none⟩ := by
  have hheld : ∀ j y, Function.update s.held i none j = some y ↔ s.held j = some y ∧ y ≠ x := by
    intro j y
    by_cases hj : j = i
    · subst hj
      simp [hi, eq_comm]
    · rw [Function.update_of_ne hj, iff_self_and]
      rintro hy rfl
      exact hj (h.held_once j i y hy hi)
  constructor
  · exact h.nodup
  · intro y
    simp only [h.places y, hheld, List.mem_append, List.mem_singleton]
    constructor
    · rintro (hy | ⟨j, hj⟩ | hy)
      · exact .inl hy
      · by_cases hyx : y = x
        · exact .inr (.inr (.inr hyx))
        · exact .inr (.inl ⟨j, hj, hyx⟩)
      · exact .inr (.inr (.inl hy))
    · rintro (hy | ⟨j, hj, -⟩ | hy | rfl)
      · exact .inl hy
      · exact .inr (.inl ⟨j, hj⟩)
      · exact .inr (.inr hy)
      · exact .inr (.inl ⟨i, hi⟩)
  · exact h.queued_once
  · exact List.nodup_append.2 ⟨h.finished_once, List.nodup_singleton x, fun a ha b hb => by
      rw [List.mem_singleton.1 hb]
      exact fun e => h.held_not_finished i x hi (e ▸ ha)⟩
  · intro j k y hj hk
    exact h.held_once j k y ((hheld j y).1 hj).1 ((hheld k y).1 hk).1
  · intro j y hy hj
    exact h.queued_not_held j y hy ((hheld j y).1 hj).1
  · intro y hy hm
    rcases List.mem_append.1 hm with hm | hm
    · exact h.queued_not_finished y hy hm
    · exact h.queued_not_held i y hy (List.mem_singleton.1 hm ▸ hi)
  · intro j y hj hm
    obtain ⟨hj, hne⟩ := (hheld j y).1 hj
    rcases List.mem_append.1 hm with hm | hm
    · exact h.held_not_finished j y hj hm
    · exact hne (List.mem_singleton.1 hm)

/-- **Nothing is lost and nothing is done twice.** -/
theorem accounted (h : Run step fresh empty t s) : Accounted (pushed t) (finished t) s := by
  refine h.invariant (P := fun t s => Accounted (pushed t) (finished t) s) accounted_empty ?_
  intro t s a s' e ih hg hs
  have hp : ∀ e, pushed (t ++ [(a, e)]) = pushed t ++ pushed [(a, e)] :=
    fun e => List.filterMap_append
  have hf : ∀ e, finished (t ++ [(a, e)]) = finished t ++ finished [(a, e)] := fun e =>
    List.filterMap_append
  rw [hp, hf]
  cases step_steps hs with
  | push x => exact (List.append_nil (finished t)).symm ▸ ih.push hg
  | take hi ht =>
    rw [show pushed [(Move.take _, Event.taken _)] = [] from rfl,
      show finished [(Move.take _, Event.taken _)] = [] from rfl, List.append_nil, List.append_nil]
    exact ih.take hi ht
  | finish hi => exact (List.append_nil (pushed t)).symm ▸ ih.finish hi

/-! ## Tasks that wait for each other -/

/-- No task is pushed twice, and none is taken while a worker holds one that `rel` puts before
it. -/
def inTurn (rel : τ → τ → Prop) (s : TaskQueue ι τ) (t : Trace ι τ) : Move ι τ → Prop
  | .push x => x ∉ pushed t
  | .take _ => ∀ y ∈ s.tasks.head?, ∀ i x, s.held i = some x → ¬ rel x y
  | .finish _ => True

theorem accounted_inTurn {rel : τ → τ → Prop} (h : Run step (inTurn rel) empty t s) :
    Accounted (pushed t) (finished t) s := by
  refine accounted (h.mono fun s t a hg => ?_)
  cases a with
  | push x => exact hg
  | take i => trivial
  | finish i => trivial

/-- What comes before the first task of the queue was taken and is not queued. -/
theorem passed_of_sublist {rest : List τ} {x y : τ} (h : Run step guard empty t s)
    (ht : s.tasks = y :: rest) (hxy : [x, y].Sublist (pushed t)) (hnd : (pushed t).Nodup) :
    x ∈ pushed t ∧ x ∉ s.tasks := by
  have hx : x ∈ pushed t := hxy.subset List.mem_cons_self
  rw [← taken_append_tasks h] at hxy hx hnd
  obtain ⟨-, hq, hdisj⟩ := List.nodup_append.1 hnd
  rw [← taken_append_tasks h]
  refine ⟨hx, fun hm => ?_⟩
  obtain ⟨l₁, l₂, he, h₁, h₂⟩ := List.sublist_append_iff.1 hxy
  cases l₁ with
  | nil =>
    -- then `y` stands behind the first task, which is `y`
    rw [List.nil_append] at he
    subst he
    rw [ht] at h₂ hq
    have hy : y ∈ rest := by
      cases h₂ with
      | cons _ h₂ => exact h₂.subset (by simp)
      | cons_cons _ h₂ => exact h₂.subset List.mem_cons_self
    exact (List.nodup_cons.1 hq).1 hy
  | cons z l₁ =>
    obtain rfl : x = z := (List.cons.inj he).1
    exact hdisj x (h₁.subset List.mem_cons_self) x hm rfl

/-- A pair among tasks and a new one, but not ending with the new one, is a pair among the tasks. -/
theorem sublist_of_sublist_push {ps : List τ} {x y z : τ} (h : [x, y].Sublist (ps ++ [z]))
    (hy : y ≠ z) :
    [x, y].Sublist ps := by
  obtain ⟨l₁, l₂, he, h₁, h₂⟩ := List.sublist_append_iff.1 h
  cases List.sublist_singleton.1 h₂ with
  | inl hnil =>
    rw [hnil, List.append_nil] at he
    exact he ▸ h₁
  | inr hz =>
    rw [hz] at he
    obtain ⟨-, hl⟩ := List.append_inj' (show [x] ++ [y] = l₁ ++ [z] from he) rfl
    exact absurd (List.singleton_inj.1 hl) hy

/-- **Tasks that wait are finished in turn.** When a worker holds a task, every task pushed before
it for which it had to wait is finished. -/
theorem finished_of_held {rel : τ → τ → Prop} (h : Run step (inTurn rel) empty t s) {i : ι}
    {x y : τ} (hi : s.held i = some y) (hxy : [x, y].Sublist (pushed t)) (hrel : rel x y) :
    x ∈ finished t := by
  induction h generalizing i with
  | start => cases hi
  | @next t s a s' e hr hg hs ih =>
    have hacc := accounted_inTurn hr
    have hp : pushed (t ++ [(a, e)]) = pushed t ++ pushed [(a, e)] := List.filterMap_append
    have hf : finished (t ++ [(a, e)]) = finished t ++ finished [(a, e)] := List.filterMap_append
    rw [hf]
    rw [hp] at hxy
    cases step_steps hs with
    | push z =>
      have hy : y ∈ pushed t := (hacc.places y).2 (.inr (.inl ⟨i, hi⟩))
      have hne : y ≠ z := fun he => hg (he ▸ hy)
      exact List.mem_append_left _ (ih hi (sublist_of_sublist_push hxy hne))
    | @take j z rest hj ht =>
      rw [show pushed [(Move.take j, Event.taken z)] = [] from rfl, List.append_nil] at hxy
      refine List.mem_append_left _ ?_
      by_cases hij : i = j
      · subst hij
        obtain rfl : z = y := Option.some.inj ((Function.update_self i _ _).symm.trans hi)
        obtain ⟨hx, hq⟩ := passed_of_sublist hr ht hxy hacc.nodup
        rcases (hacc.places x).1 hx with hm | ⟨k, hk⟩ | hm
        · exact absurd hm hq
        · exact absurd hrel (hg z (by rw [ht]; rfl) k x hk)
        · exact hm
      · exact ih ((Function.update_of_ne hij _ _).symm.trans hi) hxy
    | @finish j z hj =>
      rw [show pushed [(Move.finish j, Event.finished z)] = [] from rfl, List.append_nil] at hxy
      have hij : i ≠ j := by
        rintro rfl
        cases (Function.update_self i none s.held).symm.trans hi
      exact List.mem_append_left _ (ih ((Function.update_of_ne hij _ _).symm.trans hi) hxy)

end TaskQueue
