/-!
# Programs that hold a mutex and may throw

A program over a state `σ` ends with a value, by an exception, or not at all because it locks the
mutex that it holds. It may also come to an operation that the state leaves undefined, as the
increment of an iterator whose element is gone; nothing catches that. In every case the state it
comes to is known, with the mutex held or not. `Triple` is a Hoare triple for the parts of a program
that start and end without the mutex, with one postcondition for values and one for exceptions.
-/

/-- How a program ends; `blocked` stands for a lock of the mutex that the program holds, and
`undefined` for an operation that the state leaves undefined. -/
inductive Locking.Ending (α : Type)
  | returned (a : α)
  | threw
  | blocked
  | undefined
  deriving DecidableEq

/-- The data, and whether the program holds the mutex. -/
structure Locking.State (σ : Type) where
  data : σ
  held : Bool

/-- A program with one mutex. -/
def Locking (σ α : Type) : Type := Locking.State σ → Locking.Ending α × Locking.State σ

namespace Locking

variable {σ α β γ : Type}

/-! ## Programs -/

instance : Monad (Locking σ) where
  pure a := fun s => (.returned a, s)
  bind p f := fun s =>
    match p s with
    | (.returned a, s') => f a s'
    | (.threw, s') => (.threw, s')
    | (.blocked, s') => (.blocked, s')
    | (.undefined, s') => (.undefined, s')

/-- The data. -/
def get : Locking σ σ := fun s => (.returned s.data, s)

/-- Changes the data. -/
def update (f : σ → σ) : Locking σ Unit := fun s => (.returned (), { s with data := f s.data })

/-- An operation that may throw, and does nothing then. -/
def attempt (throws : Bool) : Locking σ Unit :=
  fun s => (if throws then .threw else .returned (), s)

/-- An operation that is defined only where the data allow it. -/
def require (ok : σ → Bool) : Locking σ Unit := fun s =>
  (if ok s.data then .returned () else .undefined, s)

/-- Locks the mutex. -/
def lock : Locking σ Unit := fun s =>
  if s.held then (.blocked, s) else (.returned (), { s with held := true })

/-- Unlocks the mutex. -/
def unlock : Locking σ Unit := fun s => (.returned (), { s with held := false })

/-- `try body catch(...) handler`. -/
def tryCatch (body handler : Locking σ α) : Locking σ α := fun s =>
  match body s with
  | (.threw, s') => handler s'
  | r => r

/-- A loop over the elements of a list, that goes on from an element only where `valid` says so. -/
def forEach (valid : β → σ → Bool) (body : β → Locking σ Unit) : List β → Locking σ Unit
  | [] => pure ()
  | x :: l => do
    body x
    require (valid x)
    forEach valid body l

/-! ## Running a program -/

section

variable (s : State σ)

theorem run_bind (p : Locking σ α) (f : α → Locking σ β) : (p >>= f) s =
    match p s with
    | (.returned a, s') => f a s'
    | (.threw, s') => (.threw, s')
    | (.blocked, s') => (.blocked, s')
    | (.undefined, s') => (.undefined, s') := rfl

/-- A program that starts with one that returns. -/
theorem run_bind_of {s s' : State σ} {p : Locking σ α} {a : α} (h : p s = (.returned a, s'))
    (f : α → Locking σ β) : (p >>= f) s = f a s' := by
  rw [run_bind, h]

theorem tryCatch_of_returned {s s' : State σ} {p handler : Locking σ α} {a : α}
    (h : p s = (.returned a, s')) : tryCatch p handler s = (.returned a, s') := by
  rw [tryCatch, h]

theorem tryCatch_of_undefined {p handler : Locking σ α} (h : (p s).1 = .undefined) :
    (tryCatch p handler s).1 = .undefined := by
  unfold tryCatch
  split
  · rename_i s' hp
    rw [hp] at h
    cases h
  · exact h

theorem tryCatch_of_threw {s s' : State σ} {p handler : Locking σ α} (h : p s = (.threw, s')) :
    tryCatch p handler s = handler s' := by
  rw [tryCatch, h]

@[simp] theorem run_unlock (p : Unit → Locking σ α) :
    (unlock >>= p) s = p () { s with held := false } := rfl

theorem run_attempt (throws : Bool) (p : Unit → Locking σ α) :
    (attempt throws >>= p) s = if throws then (.threw, s) else p () s := by
  cases throws <;> rfl

theorem run_attempt_of {throws : Bool} (h : throws = false) (p : Unit → Locking σ α) :
    (attempt throws >>= p) s = p () s := by
  rw [h]
  rfl

theorem run_require (ok : σ → Bool) (p : Unit → Locking σ α) :
    (require ok >>= p) s = if ok s.data then p () s else (.undefined, s) := by
  rw [run_bind, require]
  cases ok s.data <;> rfl

theorem run_lock {s : State σ} (hs : s.held = false) (p : Unit → Locking σ α) :
    (lock >>= p) s = p () { s with held := true } := by
  rw [run_bind, lock, hs]
  rfl

end

/-! ## Triples -/

/-- The program did not block, and it does not hold the mutex where it ended. -/
def Unlocked (r : Ending α × State σ) : Prop := r.1 ≠ .blocked ∧ r.2.held = false

/-- From data that satisfy `pre`, without the mutex, the program ends without the mutex: with a
value, and data that satisfy `post`, or by an exception, and data that satisfy `exc`, or it comes to
an undefined operation without the mutex. -/
def Triple (pre : σ → Prop) (p : Locking σ α) (post : α → σ → Prop) (exc : σ → Prop) : Prop :=
  ∀ s : State σ, s.held = false → pre s.data →
    match p s with
    | (.returned a, s') => s'.held = false ∧ post a s'.data
    | (.threw, s') => s'.held = false ∧ exc s'.data
    | (.blocked, _) => False
    | (.undefined, s') => s'.held = false

variable {pre pre' : σ → Prop} {post : α → σ → Prop} {post' : β → σ → Prop} {exc exc' : σ → Prop}
  {p : Locking σ α} {f : α → Locking σ β}

theorem Triple.unlocked (h : Triple pre p post exc) {s : State σ} (hs : s.held = false)
    (hpre : pre s.data) :
    Unlocked (p s) := by
  have hp := h s hs hpre
  unfold Unlocked
  split at hp
  · rename_i hr
    rw [hr]
    exact ⟨by simp, hp.1⟩
  · rename_i hr
    rw [hr]
    exact ⟨by simp, hp.1⟩
  · exact hp.elim
  · rename_i hr
    rw [hr]
    exact ⟨by simp, hp⟩

theorem triple_pure {a : α} (h : ∀ d, pre d → post a d) : Triple pre (pure a) post exc :=
  fun s hs hpre => ⟨hs, h s.data hpre⟩

theorem triple_update {g : σ → σ} {post : Unit → σ → Prop} (h : ∀ d, pre d → post () (g d)) :
    Triple pre (update g) post exc := fun s hs hpre => ⟨hs, h s.data hpre⟩

/-- An operation that may throw, and what comes after it. -/
theorem triple_attempt {throws : Bool} {f : Unit → Locking σ α} (hexc : ∀ d, pre d → exc d)
    (hf : throws = false → Triple pre (f ()) post exc) :
    Triple pre (attempt throws >>= f) post exc := by
  intro s hs hpre
  rw [run_attempt]
  cases throws with
  | true => exact ⟨hs, hexc s.data hpre⟩
  | false => exact hf rfl s hs hpre

/-- An operation that the data may leave undefined, and what comes after it. -/
theorem triple_require {ok : σ → Bool} {f : Unit → Locking σ α} (hf : Triple pre (f ()) post exc) :
    Triple pre (require ok >>= f) post exc := by
  intro s hs hpre
  rw [run_require]
  cases ok s.data with
  | true => exact hf s hs hpre
  | false => exact hs

/-- Locks the mutex, changes the data and unlocks the mutex. -/
theorem triple_section {g : σ → σ} {post : Unit → σ → Prop} (h : ∀ d, pre d → post () (g d)) :
    Triple pre (do lock; update g; unlock) post exc := by
  intro s hs hpre
  rw [run_lock hs]
  exact ⟨rfl, h s.data hpre⟩

theorem Triple.bind (hp : Triple pre p post exc) (hf : ∀ a, Triple (post a) (f a) post' exc) :
    Triple pre (p >>= f) post' exc := by
  intro s hs hpre
  have h := hp s hs hpre
  rw [run_bind]
  split at h
  · rename_i a s' _
    exact hf a s' h.1 h.2
  · exact h
  · exact h.elim
  · exact h

theorem Triple.tryCatch {handler : Locking σ α} (hp : Triple pre p post exc')
    (hh : Triple exc' handler post exc) : Triple pre (tryCatch p handler) post exc := by
  intro s hs hpre
  have h := hp s hs hpre
  unfold Locking.tryCatch
  split at h
  · rename_i a s' hr
    rw [hr]
    exact h
  · rename_i s' hr
    rw [hr]
    exact hh s' h.1 h.2
  · exact h.elim
  · rename_i s' hr
    rw [hr]
    exact h

/-- **The invariant rule for loops.** `inv` says what holds before each round, by the elements still
to come. -/
theorem triple_forEach (inv : List β → σ → Prop) {valid : β → σ → Bool} {body : β → Locking σ Unit}
    (h : ∀ x l, Triple (inv (x :: l)) (body x) (fun _ => inv l) exc) (l : List β) :
    Triple (inv l) (forEach valid body l) (fun _ => inv []) exc := by
  induction l with
  | nil => exact triple_pure fun d hd => hd
  | cons x l ih => exact (h x l).bind fun _ => triple_require ih

theorem Triple.weaken (h : Triple pre p post exc) (hpre : ∀ d, pre' d → pre d)
    {post' : α → σ → Prop} (hpost : ∀ a d, post a d → post' a d) (hexc : ∀ d, exc d → exc' d) :
    Triple pre' p post' exc' := by
  intro s hs hp
  have h := h s hs (hpre _ hp)
  split at h
  · exact ⟨h.1, hpost _ _ h.2⟩
  · exact ⟨h.1, hexc _ h.2⟩
  · exact h.elim
  · exact h

end Locking
