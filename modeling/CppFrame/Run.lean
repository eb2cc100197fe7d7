import Mathlib.Data.List.Induction

/-!
# Guarded runs of a partial step function

A step takes a state and an input to a next state and an output, or to nothing. `Run step guard s₀`
collects the runs from `s₀` as traces of inputs with their outputs; `guard` is asked before each
step and sees the state and the trace so far, so it can hold what the environment promises as well
as a condition on the state in which a step is taken.
-/

universe u v w

variable {σ : Type u} {ι : Type v} {ο : Type w}

/-- The runs from `s₀`: the trace so far and the state it leads to. -/
inductive Run (step : σ → ι → Option (σ × ο)) (guard : σ → List (ι × ο) → ι → Prop) (s₀ : σ) :
    List (ι × ο) → σ → Prop
  | start : Run step guard s₀ [] s₀
  | next {t : List (ι × ο)} {s : σ} {i : ι} {s' : σ} {o : ο} : Run step guard s₀ t s →
      guard s t i → step s i = some (s', o) → Run step guard s₀ (t ++ [(i, o)]) s'

namespace Run

variable {step : σ → ι → Option (σ × ο)} {guard : σ → List (ι × ο) → ι → Prop} {s₀ : σ}

/-- **The invariant rule.** A property of trace and state that holds at the start and is kept by
every guarded step holds of every run. -/
theorem invariant {P : List (ι × ο) → σ → Prop} (hstart : P [] s₀)
    (hnext : ∀ t s i s' o, P t s → guard s t i → step s i = some (s', o) → P (t ++ [(i, o)]) s')
    {t : List (ι × ο)} {s : σ} (h : Run step guard s₀ t s) : P t s := by
  induction h with
  | start => exact hstart
  | next _ hg hs ih => exact hnext _ _ _ _ _ ih hg hs

theorem mono {guard' : σ → List (ι × ο) → ι → Prop} (hg : ∀ s t i, guard s t i → guard' s t i)
    {t : List (ι × ο)} {s : σ} (h : Run step guard s₀ t s) : Run step guard' s₀ t s := by
  induction h with
  | start => exact .start
  | next _ h₁ h₂ ih => exact ih.next (hg _ _ _ h₁) h₂

/-- A run satisfies every guard that follows from its own at the steps it takes. -/
theorem mono_of_initial {guard' : σ → List (ι × ο) → ι → Prop} {t : List (ι × ο)} {s : σ}
    (h : Run step guard s₀ t s)
    (hg : ∀ s' t' i o, t' ++ [(i, o)] <+: t → guard s' t' i → guard' s' t' i) :
    Run step guard' s₀ t s := by
  induction h with
  | start => exact .start
  | @next t s i s' o _ h₁ h₂ ih =>
    have hpast := ih fun s' t' i' o' hp => hg s' t' i' o' (hp.trans (List.prefix_append t [(i, o)]))
    exact hpast.next (hg s t i o (List.prefix_refl _) h₁) h₂

/-- The last step of a run that took one. -/
theorem snoc_inv {t : List (ι × ο)} {i : ι} {o : ο} {s' : σ}
    (h : Run step guard s₀ (t ++ [(i, o)]) s') :
    ∃ s, Run step guard s₀ t s ∧ guard s t i ∧ step s i = some (s', o) := by
  generalize ht : t ++ [(i, o)] = t' at h
  cases h with
  | start => simp at ht
  | next hr hg hs =>
    obtain ⟨rfl, h₂⟩ := List.append_inj' ht rfl
    cases h₂
    exact ⟨_, hr, hg, hs⟩

/-- A prefix of a run is a run. -/
theorem of_append {t₁ t₂ : List (ι × ο)} {s : σ} (h : Run step guard s₀ (t₁ ++ t₂) s) :
    ∃ s₁, Run step guard s₀ t₁ s₁ := by
  induction t₂ using List.reverseRecOn generalizing s with
  | nil => exact ⟨s, by rwa [List.append_nil] at h⟩
  | append_singleton t₂ x ih =>
    rw [← List.append_assoc] at h
    obtain ⟨s', hr, -, -⟩ := snoc_inv h
    exact ih hr

/-- Any step of a run, with the states around it. -/
theorem step_at {t₁ t₂ : List (ι × ο)} {i : ι} {o : ο} {s : σ}
    (h : Run step guard s₀ (t₁ ++ (i, o) :: t₂) s) :
    ∃ s₁ s₂, Run step guard s₀ t₁ s₁ ∧ guard s₁ t₁ i ∧ step s₁ i = some (s₂, o) ∧
      Run step guard s₀ (t₁ ++ [(i, o)]) s₂ := by
  rw [List.append_cons] at h
  obtain ⟨s₂, h₂⟩ := h.of_append
  obtain ⟨s₁, h₁, hg, hs⟩ := h₂.snoc_inv
  exact ⟨s₁, s₂, h₁, hg, hs, h₂⟩

/-- Steps are functions, so a trace leads to one state only. -/
theorem state_unique {t : List (ι × ο)} {s s' : σ} (h : Run step guard s₀ t s)
    (h' : Run step guard s₀ t s') : s = s' := by
  induction h generalizing s' with
  | start =>
    generalize ht : ([] : List (ι × ο)) = t at h'
    cases h' with
    | start => rfl
    | next _ _ _ => simp at ht
  | next hr hg hs ih =>
    obtain ⟨s₁, hr₁, -, hs₁⟩ := snoc_inv h'
    obtain rfl := ih hr₁
    rw [hs, Option.some.injEq, Prod.mk.injEq] at hs₁
    exact hs₁.1

/-- The inputs of a trace. -/
def inputs (t : List (ι × ο)) : List ι := t.map Prod.fst

@[simp] theorem inputs_nil : inputs ([] : List (ι × ο)) = [] := rfl

@[simp] theorem inputs_append (t t' : List (ι × ο)) : inputs (t ++ t') = inputs t ++ inputs t' :=
  List.map_append

@[simp] theorem inputs_singleton (x : ι × ο) : inputs [x] = [x.1] := rfl

/-- The inputs determine the run. -/
theorem eq_of_inputs {t t' : List (ι × ο)} {s s' : σ} (h : Run step guard s₀ t s)
    (h' : Run step guard s₀ t' s') (hi : inputs t = inputs t') : t = t' ∧ s = s' := by
  induction h generalizing t' s' with
  | start =>
    obtain rfl := List.map_eq_nil_iff.1 hi.symm
    exact ⟨rfl, state_unique .start h'⟩
  | @next t s i s₁ o hr hg hs ih =>
    rw [inputs_append, inputs_singleton] at hi
    obtain ⟨t₁, x, rfl, h₁, h₂⟩ := List.map_eq_append_iff.1 hi.symm
    obtain ⟨⟨i', o'⟩, rfl, rfl⟩ := List.map_eq_singleton_iff.1 h₂
    obtain ⟨s₂, hr₂, -, hs₂⟩ := snoc_inv h'
    obtain ⟨rfl, rfl⟩ := ih hr₂ h₁.symm
    rw [hs, Option.some.injEq, Prod.mk.injEq] at hs₂
    obtain ⟨rfl, rfl⟩ := hs₂
    exact ⟨rfl, rfl⟩

/-- **When a list of inputs can be run.** Where `Pre` tells when a step can be taken, the inputs can
all be taken exactly when `Pre` holds of each of them in the state that those before it lead to. -/
theorem exists_inputs_iff {Pre : σ → ι → Prop} (hpre : ∀ s i, (step s i).isSome = true ↔ Pre s i)
    (hguard : ∀ s t i, guard s t i) (is : List ι) :
    (∃ t s, Run step guard s₀ t s ∧ inputs t = is) ↔
      ∀ p i q t s, is = p ++ i :: q → Run step guard s₀ t s → inputs t = p → Pre s i := by
  constructor
  · rintro ⟨t, s, hr, rfl⟩ p i q t₁ s₁ ht hr₁ rfl
    obtain ⟨t₂, t₃, rfl, h₂, h₃⟩ := List.map_eq_append_iff.1 ht
    obtain ⟨⟨i, o⟩, t₃, rfl, rfl, -⟩ := List.map_eq_cons_iff.1 h₃
    obtain ⟨s₂, s₃, hr₂, -, hs, -⟩ := hr.step_at
    obtain ⟨-, rfl⟩ := eq_of_inputs hr₂ hr₁ h₂
    exact (hpre s₂ i).1 (hs ▸ rfl)
  · intro h
    induction is using List.reverseRecOn with
    | nil => exact ⟨[], s₀, .start, rfl⟩
    | append_singleton is i ih =>
      obtain ⟨t, s, hr, ht⟩ := ih fun p i' q t s hp => h p i' (q ++ [i]) t s (by simp [hp])
      obtain ⟨⟨s', o⟩, hs⟩ :=
        Option.isSome_iff_exists.1 ((hpre s i).2 (h is i [] t s rfl hr ht))
      exact ⟨_, s', hr.next (hguard s t i) hs, by rw [inputs_append, ht, inputs_singleton]⟩

/-- **The rule for the rest of a run.** What holds after a first part and is kept by every later
step holds after every continuation. -/
theorem invariant_from {t₁ : List (ι × ο)} {P : List (ι × ο) → σ → Prop}
    (hbase : ∀ s, Run step guard s₀ t₁ s → P [] s)
    (hnext : ∀ t₂ s i s' o, Run step guard s₀ (t₁ ++ t₂) s → P t₂ s → guard s (t₁ ++ t₂) i →
      step s i = some (s', o) → P (t₂ ++ [(i, o)]) s')
    {t₂ : List (ι × ο)} {s : σ} (h : Run step guard s₀ (t₁ ++ t₂) s) : P t₂ s := by
  induction t₂ using List.reverseRecOn generalizing s with
  | nil =>
    rw [List.append_nil] at h
    exact hbase s h
  | append_singleton t₂ x ih =>
    rw [← List.append_assoc] at h
    obtain ⟨s', hr, hg, hs⟩ := snoc_inv h
    exact hnext t₂ s' _ _ _ hr (ih hr) hg hs

/-- **The rule for two runs.** `obs` is what one party sees of an input. A relation that is kept by
every step that the party does not see, on either side, and by two steps that look the same to it,
relates all runs that look the same to it. -/
theorem unwinding {γ : Type} {obs : ι → Option γ} {R : List (ι × ο) → σ → List (ι × ο) → σ → Prop}
    (hstart : R [] s₀ [] s₀)
    (hleft : ∀ t₁ s₁ t₂ s₂ i s' o, Run step guard s₀ t₁ s₁ → R t₁ s₁ t₂ s₂ →
      step s₁ i = some (s', o) → obs i = none → R (t₁ ++ [(i, o)]) s' t₂ s₂)
    (hright : ∀ t₁ s₁ t₂ s₂ i s' o, Run step guard s₀ t₂ s₂ → R t₁ s₁ t₂ s₂ →
      step s₂ i = some (s', o) → obs i = none → R t₁ s₁ (t₂ ++ [(i, o)]) s')
    (hboth : ∀ t₁ s₁ t₂ s₂ i j s₁' o₁ s₂' o₂ g, (inputs t₁).filterMap obs =
      (inputs t₂).filterMap obs → R t₁ s₁ t₂ s₂ → guard s₁ t₁ i → guard s₂ t₂ j →
      step s₁ i = some (s₁', o₁) → step s₂ j = some (s₂', o₂) → obs i = some g → obs j = some g →
      R (t₁ ++ [(i, o₁)]) s₁' (t₂ ++ [(j, o₂)]) s₂')
    {t₁ t₂ : List (ι × ο)} {s₁ s₂ : σ} (h₁ : Run step guard s₀ t₁ s₁) (h₂ : Run step guard s₀ t₂ s₂)
    (hobs : (inputs t₁).filterMap obs = (inputs t₂).filterMap obs) : R t₁ s₁ t₂ s₂ := by
  have hsnoc : ∀ (t : List (ι × ο)) (i : ι) (o : ο), (inputs (t ++ [(i, o)])).filterMap obs =
      (inputs t).filterMap obs ++ (obs i).toList := by
    intro t i o
    rw [inputs_append, inputs_singleton, List.filterMap_append]
    cases hi : obs i with
    | none => simp [hi]
    | some g => simp [hi]
  induction h₁ generalizing t₂ s₂ with
  | start =>
    induction h₂ with
    | start => exact hstart
    | @next t₂ s₂ j s' o hr _ hs ih =>
      rw [hsnoc] at hobs
      cases hj : obs j with
      | none =>
        rw [hj, Option.toList_none, List.append_nil] at hobs
        exact hright _ _ _ _ _ _ _ hr (ih hobs) hs hj
      | some g => simp [hj] at hobs
  | @next t₁ s₁ i s₁' o₁ hr₁ hg₁ hs₁ ih₁ =>
    rw [hsnoc] at hobs
    cases hi : obs i with
    | none =>
      rw [hi, Option.toList_none, List.append_nil] at hobs
      exact hleft _ _ _ _ _ _ _ hr₁ (ih₁ h₂ hobs) hs₁ hi
    | some g =>
      rw [hi, Option.toList_some] at hobs
      induction h₂ with
      | start => simp at hobs
      | @next t₂ s₂ j s₂' o₂ hr₂ hg₂ hs₂ ih₂ =>
        rw [hsnoc] at hobs
        cases hj : obs j with
        | none =>
          rw [hj, Option.toList_none, List.append_nil] at hobs
          exact hright _ _ _ _ _ _ _ hr₂ (ih₂ hobs) hs₂ hj
        | some g' =>
          rw [hj, Option.toList_some] at hobs
          obtain ⟨hpast, hg⟩ := List.append_inj' hobs rfl
          cases hg
          exact hboth _ _ _ _ _ _ _ _ _ _ g hpast (ih₁ hr₂ hpast) hg₁ hg₂ hs₁ hs₂ hi hj

/-- **The rule for a simulation.** Where `f` takes each step either to nothing or to a step of
another machine, which `g` reads off the input and the output, it takes runs to runs. -/
theorem simulates {σ' : Type u} {ι' : Type v} {ο' : Type w} {step' : σ' → ι' → Option (σ' × ο')}
    {guard' : σ' → List (ι' × ο') → ι' → Prop} {f : σ → σ'} {g : ι × ο → Option (ι' × ο')}
    (hquiet : ∀ t s i s' o, Run step guard s₀ t s → guard s t i → step s i = some (s', o) →
      g (i, o) = none → f s' = f s)
    (hmove : ∀ t s i s' o i' o', Run step guard s₀ t s → guard s t i → step s i = some (s', o) →
      g (i, o) = some (i', o') → guard' (f s) (t.filterMap g) i' ∧ step' (f s) i' = some (f s', o'))
    {t : List (ι × ο)} {s : σ} (h : Run step guard s₀ t s) :
    Run step' guard' (f s₀) (t.filterMap g) (f s) := by
  induction h with
  | start => exact .start
  | @next t s i s' o hr hg hs ih =>
    rw [List.filterMap_append, List.filterMap_cons, List.filterMap_nil]
    cases hgi : g (i, o) with
    | none =>
      rw [List.append_nil, hquiet t s i s' o hr hg hs hgi]
      exact ih
    | some x =>
      obtain ⟨hg', hs'⟩ := hmove t s i s' o x.1 x.2 hr hg hs hgi
      exact ih.next hg' hs'

/-- A run satisfies every guard that its inputs satisfy anywhere. -/
theorem of_inputs {guard' : σ → List (ι × ο) → ι → Prop} {t : List (ι × ο)} {s : σ}
    (h : Run step guard s₀ t s) (hg : ∀ i ∈ inputs t, ∀ s t, guard' s t i) :
    Run step guard' s₀ t s := by
  induction h with
  | start => exact .start
  | @next t s i s' o _ _ hs ih =>
    simp only [inputs_append, inputs_singleton, List.mem_append, List.mem_singleton] at hg
    exact (ih fun i hi => hg i (.inl hi)).next (hg i (.inr rfl) _ _) hs

/-! ## Replaying a list of inputs -/

section

variable (step guard s₀) [∀ s t i, Decidable (guard s t i)]

/-- Takes the steps of a list of inputs one after the other, each only where the guard allows it. -/
def replay : List ι → List (ι × ο) → σ → Option (List (ι × ο) × σ)
  | [], t, s => some (t, s)
  | i :: is, t, s =>
    if guard s t i then
      match step s i with
      | some (s', o) => replay is (t ++ [(i, o)]) s'
      | none => none
    else none

theorem of_replay {is : List ι} {t t' : List (ι × ο)} {s s' : σ} (h : Run step guard s₀ t s)
    (hr : replay step guard is t s = some (t', s')) : Run step guard s₀ t' s' := by
  induction is generalizing t s with
  | nil =>
    cases hr
    exact h
  | cons i is ih =>
    simp only [replay] at hr
    split at hr
    · rename_i hi
      cases hs : step s i with
      | none => rw [hs] at hr; cases hr
      | some r =>
        obtain ⟨s₁, o⟩ := r
        rw [hs] at hr
        exact ih (h.next hi hs) hr
    · cases hr

theorem inputs_of_replay {is : List ι} {t t' : List (ι × ο)} {s s' : σ}
    (hr : replay step guard is t s = some (t', s')) : inputs t' = inputs t ++ is := by
  induction is generalizing t s with
  | nil =>
    cases hr
    rw [List.append_nil]
  | cons i is ih =>
    simp only [replay] at hr
    split at hr
    · cases hs : step s i with
      | none => rw [hs] at hr; cases hr
      | some r =>
        rw [hs] at hr
        rw [ih hr, inputs_append, inputs_singleton, List.append_assoc, List.singleton_append]
    · cases hr

/-- A replay that ends where `p` holds is a run that ends where `p` holds. -/
theorem exists_of_replay (is : List ι) (p : List (ι × ο) → σ → Bool)
    (h : (replay step guard is [] s₀).any (fun r => p r.1 r.2) = true) :
    ∃ t s, Run step guard s₀ t s ∧ inputs t = is ∧ p t s = true := by
  obtain ⟨⟨t, s⟩, hr, hp⟩ := (Option.any_eq_true _ _).1 h
  exact ⟨t, s, of_replay step guard s₀ .start hr, inputs_of_replay step guard hr, hp⟩

/-- A replay with the given outputs is the run of the inputs with these outputs. -/
theorem exists_of_outputs [DecidableEq ο] (is : List ι) (os : List ο) (p : σ → Bool)
    (h : (replay step guard is [] s₀).any
      (fun r => decide (r.1.map Prod.snd = os) && p r.2) = true) :
    ∃ s, Run step guard s₀ (is.zip os) s ∧ p s = true := by
  obtain ⟨t, s, hr, hin, hp⟩ :=
    exists_of_replay step guard s₀ is (fun t s => decide (t.map Prod.snd = os) && p s) h
  obtain ⟨hos, hp⟩ := Bool.and_eq_true_iff.1 hp
  refine ⟨s, ?_, hp⟩
  rwa [← List.zip_of_prod hin (of_decide_eq_true hos)]

/-- A replay whose last step satisfies `q` is a run that ends with such a step. -/
theorem exists_last_of_replay (is : List ι) (q : ι → ο → σ → Bool)
    (h : (replay step guard is [] s₀).any (fun r => r.1.getLast?.any fun x =>
      q x.1 x.2 r.2) = true) :
    ∃ t i o s, Run step guard s₀ (t ++ [(i, o)]) s ∧ q i o s = true := by
  obtain ⟨t, s, hr, -, hq⟩ :=
    exists_of_replay step guard s₀ is (fun t s => t.getLast?.any fun x => q x.1 x.2 s) h
  obtain ⟨x, hx, hx'⟩ := (Option.any_eq_true _ _).1 hq
  obtain ⟨t', rfl⟩ := List.getLast?_eq_some_iff.1 hx
  exact ⟨t', x.1, x.2, s, hr, hx'⟩

end

end Run
