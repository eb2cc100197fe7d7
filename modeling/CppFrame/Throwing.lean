/-!
# Programs that may throw

A program over a state `σ` ends with a value, by an exception `ε`, or by doing what is undefined,
which no handler catches. In every case the state that it leaves is known. `Triple` is a Hoare
triple with one postcondition for values and one for exceptions; it excludes what is undefined.
-/

/-- Why a program ends without a value. -/
inductive Throwing.Failure (ε : Type)
  | exception (e : ε)
  | undefinedBehaviour
  deriving DecidableEq

/-- A program that may throw. -/
abbrev Throwing (ε σ : Type) : Type → Type := ExceptT (Throwing.Failure ε) (StateM σ)

namespace Throwing

variable {ε σ α β : Type}

/-! ## Programs -/

/-- How a program ends from a state, and the state that it leaves. -/
def exec (p : Throwing ε σ α) (s : σ) : Except (Failure ε) α × σ := p s

/-- Changes the state. -/
def update (f : σ → σ) : Throwing ε σ Unit := modify f

/-- An operation that throws or not, and what it does in either case. -/
def attempt (throws : Option ε) (f : Bool → σ → σ) : Throwing ε σ Unit :=
  match throws with
  | some e => do update (f true); throw (.exception e)
  | none => update (f false)

/-- What is undefined. -/
def undefinedBehaviour : Throwing ε σ α := throw .undefinedBehaviour

/-- `try body catch(ε) handler`. -/
def catching (body : Throwing ε σ α) (handler : ε → Throwing ε σ α) : Throwing ε σ α :=
  ExceptT.mk fun s =>
    match exec body s with
    | (.error (.exception e), s') => exec (handler e) s'
    | r => r

/-! ## Running a program -/

theorem exec_bind (p : Throwing ε σ α) (f : α → Throwing ε σ β) (s : σ) : exec (p >>= f) s =
    match exec p s with
    | (.ok a, s') => exec (f a) s'
    | (.error e, s') => (.error e, s') := by
  unfold exec
  change ExceptT.bindCont f (p s).1 (p s).2 = _
  cases p s with
  | mk r s' => cases r <;> rfl

/-- A program that starts with one that returns. -/
theorem exec_bind_of_ok {p : Throwing ε σ α} {a : α} {s s' : σ} (h : exec p s = (.ok a, s'))
    (f : α → Throwing ε σ β) : exec (p >>= f) s = exec (f a) s' := by
  rw [exec_bind, h]

/-- A program that starts with one that does not return. -/
theorem exec_bind_of_error {p : Throwing ε σ α} {e : Failure ε} {s s' : σ}
    (h : exec p s = (.error e, s')) (f : α → Throwing ε σ β) :
    exec (p >>= f) s = (.error e, s') := by
  rw [exec_bind, h]

/-- A program that first looks at the state. -/
theorem exec_get_bind (f : σ → Throwing ε σ α) (s : σ) : exec (get >>= f) s = exec (f s) s := rfl

theorem exec_catching (body : Throwing ε σ α) (handler : ε → Throwing ε σ α) (s : σ) :
    exec (catching body handler) s =
    match exec body s with
    | (.error (.exception e), s') => exec (handler e) s'
    | r => r := rfl

/-- A program that returns needs no handler. -/
theorem exec_catching_of_ok {body : Throwing ε σ α} {a : α} {s s' : σ}
    (h : exec body s = (.ok a, s')) (handler : ε → Throwing ε σ α) :
    exec (catching body handler) s = (.ok a, s') := by
  rw [exec_catching, h]

/-- A handler starts where the exception was thrown. -/
theorem exec_catching_of_exception {body : Throwing ε σ α} {e : ε} {s s' : σ}
    (h : exec body s = (.error (.exception e), s')) (handler : ε → Throwing ε σ α) :
    exec (catching body handler) s = exec (handler e) s' := by
  rw [exec_catching, h]

/-- What no handler changes is as the body left it. -/
theorem exec_catching_frame {γ : Type} {body : Throwing ε σ α} {handler : ε → Throwing ε σ α}
    (f : σ → γ) (hf : ∀ e s, f (exec (handler e) s).2 = f s) (s : σ) :
    f (exec (catching body handler) s).2 = f (exec body s).2 := by
  rw [exec_catching]
  split
  · rename_i h
    rw [hf, h]
  · rfl

/-! ## Triples -/

/-- From a state that satisfies `pre` the program does nothing undefined. It ends with a value, in a
state that satisfies `post`, or by an exception, in a state that satisfies `exc`. -/
def Triple (pre : σ → Prop) (p : Throwing ε σ α) (post : α → σ → Prop) (exc : σ → Prop) : Prop :=
  ∀ s, pre s →
    match exec p s with
    | (.ok a, s') => post a s'
    | (.error (.exception _), s') => exc s'
    | (.error .undefinedBehaviour, _) => False

variable {pre pre' : σ → Prop} {post post' : α → σ → Prop} {exc exc' : σ → Prop}
  {p : Throwing ε σ α}

theorem triple_pure {a : α} (h : ∀ s, pre s → post a s) :
    Triple pre (pure a : Throwing ε σ α) post exc :=
  h

theorem triple_update {f : σ → σ} {Q : Unit → σ → Prop} (h : ∀ s, pre s → Q () (f s)) :
    Triple pre (update f : Throwing ε σ Unit) Q exc := h

theorem triple_attempt {throws : Option ε} {f : Bool → σ → σ} {post : Unit → σ → Prop}
    (hexc : ∀ s, pre s → exc (f true s)) (hpost : ∀ s, pre s → post () (f false s)) :
    Triple pre (attempt throws f : Throwing ε σ Unit) post exc := by
  intro s hs
  cases throws with
  | none => exact hpost s hs
  | some e => exact hexc s hs

theorem Triple.bind {f : α → Throwing ε σ β} {post' : β → σ → Prop} (hp : Triple pre p post exc)
    (hf : ∀ a, Triple (post a) (f a) post' exc) : Triple pre (p >>= f) post' exc := by
  intro s hs
  have h := hp s hs
  rw [exec_bind]
  split at h
  · rename_i hr
    rw [hr]
    exact hf _ _ h
  · rename_i hr
    rw [hr]
    exact h
  · exact h.elim

/-- The state may be looked at. -/
theorem triple_get {f : σ → Throwing ε σ α} (h : ∀ s, pre s → Triple (· = s) (f s) post exc) :
    Triple pre (get >>= f) post exc := by
  intro s hs
  rw [exec_bind]
  exact h s hs s rfl

theorem Triple.catching {handler : ε → Throwing ε σ α} (hp : Triple pre p post exc')
    (hh : ∀ e, Triple exc' (handler e) post exc) : Triple pre (catching p handler) post exc := by
  intro s hs
  have h := hp s hs
  rw [exec_catching]
  split at h
  · rename_i hr
    rw [hr]
    exact h
  · rename_i hr
    rw [hr]
    exact hh _ _ h
  · exact h.elim

theorem Triple.weaken (h : Triple pre p post exc) (hpre : ∀ s, pre' s → pre s)
    (hpost : ∀ a s, post a s → post' a s) (hexc : ∀ s, exc s → exc' s) :
    Triple pre' p post' exc' := by
  intro s hs
  have h := h s (hpre s hs)
  split at h
  · exact hpost _ _ h
  · exact hexc _ h
  · exact h.elim

/-- A program that throws nothing and does nothing undefined ends with a value. -/
theorem Triple.returns (h : Triple pre p post fun _ => False) {s : σ} (hs : pre s) :
    ∃ a s', exec p s = (.ok a, s') ∧ post a s' := by
  have h := h s hs
  split at h
  · rename_i a s' hr
    exact ⟨a, s', hr, h⟩
  · exact h.elim
  · exact h.elim

end Throwing
