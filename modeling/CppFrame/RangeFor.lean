import CppFrame.UnorderedMap

/-!
# Range-for loops that erase while they walk

`rangeFor` walks the nodes of a map that its body may change. The iterator stands on one node at a
time. After the body it is incremented, and `Iteration` says what that asks for: under `checked` the
node must still be there, so erasing it, or destroying the map, makes the loop end in the error
outcome `none`; under `plain` an erasure is a mere removal and the walk goes on with the nodes that
followed. Bodies are expected to insert nothing and to erase at most the node they stand on, so
those are the nodes that followed at the start.

`visit` is the walk without the check. Every loop that ends without the error outcome ends like it
(`eq_visit`), so what is proved of `visit` holds for both readings.
-/

/-- What the increment of an iterator asks for. -/
inductive Iteration
  | plain
  | checked
  deriving DecidableEq

namespace RangeFor

variable {κ α β σ ο : Type}

/-! ## The walk -/

/-- The walk without the check of the iterator. -/
def visit (body : κ → α → σ → σ × List ο) : List (Σ _ : κ, α) → σ → σ × List ο
  | [], s => (s, [])
  | ⟨k, v⟩ :: rest, s =>
    let r := body k v s
    let r' := visit body rest r.1
    (r'.1, r.2 ++ r'.2)

section

variable {body : κ → α → σ → σ × List ο}

/-- **The invariant rule.** What every body keeps holds after the walk, and what every body says of
its outputs holds of all of them. -/
theorem visit_induction {I : σ → Prop} {Q : ο → Prop} {l : List (Σ _ : κ, α)} {s : σ}
    (hbody : ∀ k v s, ⟨k, v⟩ ∈ l → I s → I (body k v s).1 ∧ ∀ o ∈ (body k v s).2, Q o) (hs : I s) :
    I (visit body l s).1 ∧ ∀ o ∈ (visit body l s).2, Q o := by
  induction l generalizing s with
  | nil => exact ⟨hs, fun o ho => by cases ho⟩
  | cons n l ih =>
    obtain ⟨k, v⟩ := n
    obtain ⟨h₁, h₂⟩ := hbody k v s List.mem_cons_self hs
    obtain ⟨h₃, h₄⟩ := ih (fun k v s hm => hbody k v s (List.mem_cons_of_mem _ hm)) h₁
    refine ⟨h₃, fun o ho => ?_⟩
    rcases List.mem_append.1 ho with ho | ho
    · exact h₂ o ho
    · exact h₄ o ho

/-- The outputs of a walk are those of its bodies, each in a state that the invariant describes. -/
theorem mem_visit {I : σ → Prop} {l : List (Σ _ : κ, α)} {s : σ} {o : ο}
    (hbody : ∀ k v s, ⟨k, v⟩ ∈ l → I s → I (body k v s).1) (hs : I s)
    (ho : o ∈ (visit body l s).2) :
    ∃ k v s', ⟨k, v⟩ ∈ l ∧ I s' ∧ o ∈ (body k v s').2 := by
  refine (visit_induction (I := I) (Q := fun o => ∃ k v s', ⟨k, v⟩ ∈ l ∧ I s' ∧
    o ∈ (body k v s').2) (fun k v s hm hI => ⟨hbody k v s hm hI, ?_⟩) hs).2 o ho
  exact fun o ho => ⟨k, v, s, hm, hI, ho⟩

/-- An output that a body emits in every state is among those of the walk. -/
theorem mem_visit_of_forall {l : List (Σ _ : κ, α)} {k : κ} {v : α} {o : ο} (hm : ⟨k, v⟩ ∈ l)
    (ho : ∀ s, o ∈ (body k v s).2) {s : σ} : o ∈ (visit body l s).2 := by
  induction l generalizing s with
  | nil => cases hm
  | cons n l ih =>
    rcases List.mem_cons.1 hm with rfl | hm
    · exact List.mem_append_left _ (ho s)
    · exact List.mem_append_right _ (ih hm)

/-- A walk whose bodies leave the state alone emits the outputs of the bodies in order. -/
theorem visit_of_const {l : List (Σ _ : κ, α)} {s : σ} (h : ∀ n ∈ l, (body n.1 n.2 s).1 = s) :
    visit body l s = (s, l.flatMap fun n => (body n.1 n.2 s).2) := by
  induction l with
  | nil => rfl
  | cons n l ih =>
    obtain ⟨k, v⟩ := n
    have hs := h ⟨k, v⟩ List.mem_cons_self
    simp only [visit, List.flatMap_cons] at hs ⊢
    rw [hs, ih fun n hn => h n (List.mem_cons_of_mem _ hn)]

end

/-! ## The loop -/

/-- Whether an iterator can be incremented, given whether its node is still there. -/
def increments (it : Iteration) (valid : Bool) : Bool :=
  match it with
  | .plain => true
  | .checked => valid

@[simp] theorem increments_plain (valid : Bool) : increments .plain valid = true := rfl

@[simp] theorem increments_checked (valid : Bool) : increments .checked valid = valid := rfl

variable [DecidableEq κ]

/-- The loop `for (auto& [k, v] : walked) body`, from the nodes still to come. -/
def rangeFor (it : Iteration) (walked : σ → Option (UMap κ α)) (body : κ → α → σ → σ × List ο) :
    List (Σ _ : κ, α) → σ → Option (σ × List ο)
  | [], s => some (s, [])
  | ⟨k, v⟩ :: rest, s =>
    let r := body k v s
    if increments it ((walked r.1).any (k ∈ ·)) then
      (rangeFor it walked body rest r.1).map fun r' => (r'.1, r.2 ++ r'.2)
    else none

section

variable {walked : σ → Option (UMap κ α)} {body : κ → α → σ → σ × List ο}

/-- A plain loop always ends. -/
theorem rangeFor_plain (l : List (Σ _ : κ, α)) (s : σ) :
    rangeFor .plain walked body l s = some (visit body l s) := by
  induction l generalizing s with
  | nil => rfl
  | cons n l ih =>
    obtain ⟨k, v⟩ := n
    simp only [rangeFor, visit, increments_plain, if_true, ih, Option.map_some]

/-- A loop that ends without the error outcome ends like the walk. -/
theorem eq_visit {it : Iteration} {l : List (Σ _ : κ, α)} {s : σ} {r : σ × List ο}
    (h : rangeFor it walked body l s = some r) : r = visit body l s := by
  induction l generalizing s r with
  | nil => exact (Option.some.inj h).symm
  | cons n l ih =>
    obtain ⟨k, v⟩ := n
    simp only [rangeFor] at h
    split at h
    · obtain ⟨r', hr', rfl⟩ := Option.map_eq_some_iff.1 h
      rw [ih hr']; rfl
    · cases h

theorem rel_map {γ δ ε ζ : Type} {P : γ → δ → Prop} {Q : ε → ζ → Prop} {f : γ → ε} {g : δ → ζ}
    {x : Option γ} {y : Option δ} (h : Option.Rel P x y) (hfg : ∀ a b, P a b → Q (f a) (g b)) :
    Option.Rel Q (x.map f) (y.map g) := by
  cases h with
  | some h => exact .some (hfg _ _ h)
  | none => exact .none

theorem rel_bind {γ δ ε ζ : Type} {P : γ → δ → Prop} {Q : ε → ζ → Prop} {f : γ → Option ε}
    {g : δ → Option ζ} {x : Option γ} {y : Option δ} (h : Option.Rel P x y)
    (hfg : ∀ a b, P a b → Option.Rel Q (f a) (g b)) : Option.Rel Q (x.bind f) (y.bind g) := by
  cases h with
  | some h => exact hfg _ _ h
  | none => exact .none

/-- **Two loops over matching nodes**, whose bodies keep a relation of the states and have outputs
that `Q` relates: they end, or fail, together. -/
theorem rangeFor_related {τ : Type} {it : Iteration} {walked' : τ → Option (UMap κ β)}
    {body' : κ → β → τ → τ × List ο} {R : σ → τ → Prop} {E : α → β → Prop}
    {Q : List ο → List ο → Prop} (hnil : Q [] [])
    (happ : ∀ {a a' b b'}, Q a a' → Q b b' → Q (a ++ b) (a' ++ b'))
    (hbody : ∀ k v v' s s', E v v' → R s s' → R (body k v s).1 (body' k v' s').1 ∧
      Q (body k v s).2 (body' k v' s').2)
    (hwalked : ∀ k s s', R s s' → (walked s).any (k ∈ ·) = (walked' s').any (k ∈ ·))
    {l : List (Σ _ : κ, α)} {l' : List (Σ _ : κ, β)}
    (hl : List.Forall₂ (fun n n' => n.1 = n'.1 ∧ E n.2 n'.2) l l') {s : σ} {s' : τ} (hs : R s s') :
    Option.Rel (fun r r' => R r.1 r'.1 ∧ Q r.2 r'.2) (rangeFor it walked body l s)
      (rangeFor it walked' body' l' s') := by
  induction hl generalizing s s' with
  | nil => exact .some ⟨hs, hnil⟩
  | @cons n n' l l' hn _ ih =>
    obtain ⟨k, v⟩ := n
    obtain ⟨k', v'⟩ := n'
    obtain ⟨rfl, hv⟩ := hn
    obtain ⟨h₁, h₂⟩ := hbody k v v' s s' hv hs
    rw [rangeFor, rangeFor, hwalked k _ _ h₁]
    split_ifs
    · exact rel_map (ih h₁) fun _ _ hr => ⟨hr.1, happ h₂ hr.2⟩
    · exact .none

/-- Two walks over matching nodes. -/
theorem visit_related {τ : Type} {body' : κ → β → τ → τ × List ο} {R : σ → τ → Prop}
    {E : α → β → Prop} {Q : List ο → List ο → Prop} (hnil : Q [] [])
    (happ : ∀ {a a' b b'}, Q a a' → Q b b' → Q (a ++ b) (a' ++ b'))
    (hbody : ∀ k v v' s s', E v v' → R s s' → R (body k v s).1 (body' k v' s').1 ∧
      Q (body k v s).2 (body' k v' s').2)
    {l : List (Σ _ : κ, α)} {l' : List (Σ _ : κ, β)}
    (hl : List.Forall₂ (fun n n' => n.1 = n'.1 ∧ E n.2 n'.2) l l') {s : σ} {s' : τ} (hs : R s s') :
    R (visit body l s).1 (visit body' l' s').1 ∧ Q (visit body l s).2 (visit body' l' s').2 := by
  have h : Option.Rel (fun r r' => R r.1 r'.1 ∧ Q r.2 r'.2)
    (rangeFor .plain (fun _ => none) body l s)
      (rangeFor .plain (fun _ => none) body' l' s') :=
    rangeFor_related hnil happ hbody (fun _ _ _ _ => rfl) hl hs
  rw [rangeFor_plain, rangeFor_plain] at h
  cases h with
  | some h => exact h

/-- **What a pruning loop leaves.** A walk over all nodes of a map whose bodies erase the node they
stand on where `p` says so, and else keep the map, leaves the nodes that `p` does not pick out. -/
theorem visit_eraseIf {g : σ → UMap κ α} {p : κ → α → Bool} {s : σ}
    (hbody : ∀ k v s, g (body k v s).1 = if p k v then (g s).erase k else g s) :
    g (visit body (g s).entries s).1 = (g s).eraseIf p := by
  have key : ∀ (l done : List (Σ _ : κ, α)) (s : σ), (g s).entries = done ++ l →
      (g (visit body l s).1).entries = done ++ l.filter fun n => !p n.1 n.2 := by
    intro l
    induction l with
    | nil => intro done s h; simpa [visit] using h
    | cons n l ih =>
      intro done s h
      obtain ⟨k, v⟩ := n
      have hb := hbody k v s
      have hn := (g s).nodupKeys
      rw [h, List.NodupKeys, List.keys_append, List.keys_cons] at hn
      have hk : k ∉ done.keys := fun hm =>
        (List.nodup_append.1 hn).2.2 k hm k List.mem_cons_self rfl
      show (g (visit body l (body k v s).1).1).entries = _
      cases hp : p k v with
      | false =>
        rw [hp, if_neg Bool.false_ne_true] at hb
        rw [ih (done ++ [⟨k, v⟩]) _ (by rw [hb, h, List.append_assoc]; rfl), List.append_assoc,
          List.filter_cons_of_pos (by simp [hp])]
        rfl
      | true =>
        rw [hp, if_pos rfl] at hb
        have he : (g (body k v s).1).entries = done ++ l := by
          rw [hb]
          show List.kerase k (g s).entries = _
          rw [h, List.kerase_append_right hk]
          exact congrArg (done ++ ·) (List.kerase_cons_eq rfl)
        rw [ih done _ he, List.filter_cons_of_neg (by simp [hp])]
  exact AList.ext (key _ [] s rfl)

/-- **When a checked loop ends.** Let `prunes` tell which nodes the body erases, leaving the state
alone on the others. Then the loop ends without the error outcome exactly when it meets no node to
prune. -/
theorem rangeFor_checked_isSome {prunes : κ → α → Bool} {l : List (Σ _ : κ, α)} {s : σ}
    (hin : ∀ n ∈ l, (walked s).any (n.1 ∈ ·) = true)
    (hkeep : ∀ n ∈ l, prunes n.1 n.2 = false → (body n.1 n.2 s).1 = s)
    (herase : ∀ n ∈ l, prunes n.1 n.2 = true → (walked (body n.1 n.2 s).1).any (n.1 ∈ ·) = false) :
    (rangeFor .checked walked body l s).isSome ↔ ∀ n ∈ l, prunes n.1 n.2 = false := by
  induction l with
  | nil => simp [rangeFor]
  | cons n l ih =>
    obtain ⟨k, v⟩ := n
    have ih := ih (fun n hn => hin n (List.mem_cons_of_mem _ hn))
      (fun n hn => hkeep n (List.mem_cons_of_mem _ hn))
      (fun n hn => herase n (List.mem_cons_of_mem _ hn))
    have hk := hkeep _ List.mem_cons_self
    have he := herase _ List.mem_cons_self
    have hi := hin _ List.mem_cons_self
    simp only at hk he hi
    rw [rangeFor, List.forall_mem_cons]
    cases hp : prunes k v with
    | false => simp only [hk hp, increments_checked, hi, if_true, Option.isSome_map, ih, true_and]
    | true => simp [he hp]

end

end RangeFor
