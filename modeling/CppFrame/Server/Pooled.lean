import CppFrame.Server.Contract
import Mathlib.Data.List.Perm.Basic

/-!
# The handler with a thread pool

With a pool `on_open`, `on_message` and `on_close` queue a task that holds the connection, and
`on_error` runs at once. Tasks are atomic here, and any queued task may be the next to run.
`WssEndpointHandler.pooled` is that machine; where no pool is set it runs every callback at once.
`Serves` lists what a step can do.
-/

namespace CppFrame.Server

open UMap

/-! ## The machine -/

/-- The registry, and the tasks that are queued, oldest first. -/
structure Pooled where
  clients : Clients
  tasks : List Callback

/-- The server makes a callback, or a worker runs the `n`-th of the queued tasks. -/
inductive PoolInput
  | callback (cb : Callback) (env : Env)
  | execute (n : Nat) (env : Env)

/-- The environment of a step. -/
def PoolInput.env : PoolInput → Env
  | .callback _ env => env
  | .execute _ env => env

/-- What a step handled, with its events; nothing where it only queued a task. -/
abbrev Served := Option (Callback × List Event)

/-- Whether a callback goes through the pool. -/
def WssEndpointHandler.queues (weh : WssEndpointHandler) : Callback → Bool
  | .onError _ _ => false
  | _ => weh.tpool

/-- One step with a pool. -/
def WssEndpointHandler.pooled (weh : WssEndpointHandler) (it : Iteration) (s : Pooled) :
    PoolInput → Option (Pooled × Served)
  | .callback cb env =>
    if weh.queues cb then some ({ s with tasks := s.tasks ++ [cb] }, none)
    else (weh.handle it env s.clients cb).map fun r => ({ s with clients := r.1 }, some (cb, r.2))
  | .execute n env =>
    match s.tasks[n]? with
    | some cb => (weh.handle it env s.clients cb).map fun r =>
        (⟨r.1, s.tasks.eraseIdx n⟩, some (cb, r.2))
    | none => none

/-- No clients and no tasks. -/
def Pooled.start : Pooled := ⟨∅, []⟩

/-- The steps so far, with what they handled. -/
abbrev PoolTrace := List (PoolInput × Served)

/-- The callbacks made, in order. -/
def made (t : PoolTrace) : List Callback :=
  t.filterMap fun x => match x.1 with | .callback cb _ => some cb | .execute _ _ => none

/-- The callbacks handled, in order. -/
def served (t : PoolTrace) : List Callback := t.filterMap fun x => x.2.map Prod.fst

/-- What a step handles in a state. -/
def WssEndpointHandler.next (weh : WssEndpointHandler) (s : Pooled) : PoolInput → Option Callback
  | .callback cb _ => if weh.queues cb then none else some cb
  | .execute n _ => s.tasks[n]?

@[simp] theorem made_append (t t' : PoolTrace) : made (t ++ t') = made t ++ made t' :=
  List.filterMap_append

theorem made_callback (t : PoolTrace) (cb : Callback) (env : Env) (o : Served) :
    made (t ++ [(.callback cb env, o)]) = made t ++ [cb] := made_append t _

theorem made_execute (t : PoolTrace) (n : Nat) (env : Env) (o : Served) :
    made (t ++ [(.execute n env, o)]) = made t :=
  (made_append t _).trans (List.append_nil _)

@[simp] theorem served_append (t t' : PoolTrace) : served (t ++ t') = served t ++ served t' :=
  List.filterMap_append

theorem served_singleton (i : PoolInput) (o : Served) :
    served [(i, o)] = (o.map Prod.fst).toList := by
  cases o with
  | none => rfl
  | some r => rfl

/-- What a step can do: queue a callback, handle it at once, or run a queued task. -/
inductive Serves (weh : WssEndpointHandler) (s : Pooled) : PoolInput → Pooled → Served → Prop
  | queued {cb : Callback} {env : Env} (hq : weh.queues cb = true) :
      Serves weh s (.callback cb env) { s with tasks := s.tasks ++ [cb] } none
  | atOnce {cb : Callback} {env : Env} {m' : Clients} {ev : List Event} (hq : weh.queues cb = false)
      (he : Effect weh env s.clients cb m' ev) :
      Serves weh s (.callback cb env) { s with clients := m' } (some (cb, ev))
  | task {n : Nat} {cb : Callback} {env : Env} {m' : Clients} {ev : List Event}
      (hn : s.tasks[n]? = some cb) (he : Effect weh env s.clients cb m' ev) :
      Serves weh s (.execute n env) ⟨m', s.tasks.eraseIdx n⟩ (some (cb, ev))

variable {weh : WssEndpointHandler} {it : Iteration} {s s' : Pooled} {i : PoolInput} {o : Served}

theorem pooled_serves (h : weh.pooled it s i = some (s', o)) : Serves weh s i s' o := by
  cases i with
  | callback cb env =>
    simp only [WssEndpointHandler.pooled] at h
    split_ifs at h with hq
    · cases h
      exact .queued hq
    · obtain ⟨r, hr, he⟩ := Option.map_eq_some_iff.1 h
      cases he
      exact .atOnce (Bool.eq_false_iff.2 hq) (handle_effect hr)
  | execute n env =>
    simp only [WssEndpointHandler.pooled] at h
    split at h
    · rename_i cb hn
      obtain ⟨r, hr, he⟩ := Option.map_eq_some_iff.1 h
      cases he
      exact .task hn (handle_effect hr)
    · cases h

/-- A step that handles a callback does with the registry what the handler does. -/
theorem handle_of_pooled {cb : Callback} {ev : List Event}
    (h : weh.pooled it s i = some (s', some (cb, ev))) :
    weh.handle it i.env s.clients cb = some (s'.clients, ev) := by
  cases i with
  | callback cb' env =>
    simp only [WssEndpointHandler.pooled] at h
    split_ifs at h with hq
    · cases h
    · obtain ⟨r, hr, he⟩ := Option.map_eq_some_iff.1 h
      cases he
      exact hr
  | execute n env =>
    simp only [WssEndpointHandler.pooled] at h
    split at h
    · obtain ⟨r, hr, he⟩ := Option.map_eq_some_iff.1 h
      cases he
      exact hr
    · cases h

/-- The next callback of a step that handles one. -/
theorem Serves.next_eq {cb : Callback} {ev : List Event} (h : Serves weh s i s' (some (cb, ev))) :
    weh.next s i = some cb ∧ Effect weh i.env s.clients cb s'.clients ev := by
  cases h with
  | atOnce hq he => exact ⟨if_neg (by simp [hq]), he⟩
  | task hn he => exact ⟨hn, he⟩

/-- The tasks before a task is taken out are that task and the others. -/
theorem perm_eraseIdx {l : List Callback} {n : Nat} {cb : Callback} (h : l[n]? = some cb) :
    (cb :: l.eraseIdx n).Perm l := by
  obtain ⟨hn, rfl⟩ := List.getElem?_eq_some_iff.1 h
  exact List.getElem_cons_eraseIdx_perm hn

/-! ## What the server promises -/

/-- The server still holds the connection, or a task does. -/
def Held (t : PoolTrace) (s : Pooled) (d : Connection) : Prop :=
  phase d (made t) = .opened ∨ ∃ cb ∈ s.tasks, cb.con = d

/-- Every connection that the server or a task holds is alive. -/
def HeldAlive (t : PoolTrace) (s : Pooled) (env : Env) : Prop :=
  ∀ cb ∈ made t ++ s.tasks, Held t s cb.con → env.alive cb.con = true

theorem HeldAlive.alive {t : PoolTrace} {env : Env} (h : HeldAlive t s env) {d : Connection}
    (hd : Held t s d) : env.alive d = true := by
  rcases hd with ho | ⟨cb, hcb, rfl⟩
  · exact h (.onOpen d) (List.mem_append_left _ (onOpen_mem ho)) (.inl ho)
  · exact h cb (List.mem_append_right _ hcb) (.inr ⟨cb, hcb, rfl⟩)

instance (t : PoolTrace) (s : Pooled) (d : Connection) : Decidable (Held t s d) := by
  unfold Held; infer_instance

instance (t : PoolTrace) (s : Pooled) (env : Env) : Decidable (HeldAlive t s env) := by
  unfold HeldAlive; infer_instance

/-- The server keeps its contract. -/
def poolKept (t : PoolTrace) : PoolInput → Prop
  | .callback cb _ => Contract (made t) cb
  | .execute _ _ => True

instance (t : PoolTrace) (i : PoolInput) : Decidable (poolKept t i) := by
  cases i <;> unfold poolKept <;> infer_instance

/-! ## Concrete runs -/

/-- The handler with an authenticator and a pool, and without a logger. -/
def pooledSecured : WssEndpointHandler := ⟨false, true, true, fun _ => ""⟩

/-- A callback is made, in the environment `steady`. -/
def arrives (cb : Callback) : PoolInput := .callback cb steady

/-- A queued task runs, in the environment `steady`. -/
def runs (n : Nat) : PoolInput := .execute n steady

end CppFrame.Server
