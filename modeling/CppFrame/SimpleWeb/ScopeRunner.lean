import CppFrame.Run
import Mathlib.Data.Fintype.Card
import Mathlib.Data.Finset.Card
import Mathlib.Logic.Function.Basic

/-!
# The scope runner

`ScopeRunner` of `utility.hpp`. Every handler of the library takes a lock with `continue_lock` and
ends at once where it gets none; the destructor of a client waits in `stop` until no lock is held,
and from then on there are none. Both are loops around `compare_exchange_weak` on one atomic
counter, which may fail for no reason. A step is one access to the counter by one of the calls `ι`,
in any order.
-/

namespace CppFrame.SimpleWeb

namespace ScopeRunner

/-! ## The code -/

/-- Where a call stands. -/
inductive Pc
  | idle
  /-- In the loop of `continue_lock`, with the local `expected`. -/
  | trying (expected : Int)
  /-- A `SharedLock` is held. -/
  | holding
  /-- In the loop of `stop`. -/
  | stopping
  | stopped
  deriving DecidableEq

/-- The counter, and where each call stands. -/
structure State (ι : Type) where
  count : Int
  pc : ι → Pc

/-- One access to the counter; `spurious` tells whether `compare_exchange_weak` fails for no
reason. -/
inductive Access
  | load
  | attempt (spurious : Bool)
  | release
  | stop
  | attemptStop (spurious : Bool)

/-- What a call returns in a step. -/
inductive Result
  | nothing
  | lock
  | nullptr
  | released
  | stopped
  deriving DecidableEq

variable {ι : Type} [DecidableEq ι]

/-- The call goes on elsewhere. -/
def State.goto (s : State ι) (i : ι) (p : Pc) : State ι := { s with pc := Function.update s.pc i p }

/-- One step of a call. -/
def step (s : State ι) (x : ι × Access) : Option (State ι × Result) :=
  match s.pc x.1, x.2 with
  | .idle, .load => some (s.goto x.1 (.trying s.count), .nothing)
  | .trying expected, .attempt spurious =>
    if expected < 0 then some (s.goto x.1 .idle, .nullptr)
    else if s.count = expected ∧ spurious = false then
      some ({ s with count := expected + 1 }.goto x.1 .holding, .lock)
    else some (s.goto x.1 (.trying s.count), .nothing)
  | .holding, .release => some ({ s with count := s.count - 1 }.goto x.1 .idle, .released)
  | .idle, .stop => some (s.goto x.1 .stopping, .nothing)
  | .stopping, .attemptStop spurious =>
    if s.count = 0 ∧ spurious = false then some ({ s with count := -1 }.goto x.1 .stopped, .stopped)
    else if s.count < 0 then some (s.goto x.1 .stopped, .stopped)
    else some (s, .nothing)
  | _, _ => none

/-- `ScopeRunner()`, before any call. -/
def start : State ι := ⟨0, fun _ => .idle⟩

/-- Any call may come next. -/
def anyAccess (_ : State ι) (_ : List ((ι × Access) × Result)) (_ : ι × Access) : Prop := True

instance (s : State ι) (t : List ((ι × Access) × Result)) (x : ι × Access) :
    Decidable (anyAccess s t x) := by
  unfold anyAccess; infer_instance

@[simp] theorem pc_goto_self (s : State ι) (i : ι) (p : Pc) : (s.goto i p).pc i = p := by
  show Function.update s.pc i p i = p
  exact Function.update_self ..

theorem pc_goto_ne {i j : ι} (h : j ≠ i) (s : State ι) (p : Pc) : (s.goto i p).pc j = s.pc j := by
  show Function.update s.pc i p j = s.pc j
  exact Function.update_of_ne h ..

/-! ## Calls that have returned -/

/-- A call that has returned from `stop` does nothing more. -/
theorem stopped_of_step {s s' : State ι} {i : ι} {x : ι × Access} {r : Result}
    (hi : s.pc i = .stopped) (hs : step s x = some (s', r)) :
    s'.pc i = .stopped := by
  obtain ⟨j, a⟩ := x
  have hj : j ≠ i := by
    rintro rfl
    unfold step at hs
    rw [hi] at hs
    cases hs
  have hgoto : ∀ (s : State ι) (p : Pc), s.pc i = .stopped → (s.goto j p).pc i = .stopped := by
    intro s p hp
    rw [pc_goto_ne hj.symm, hp]
  unfold step at hs
  dsimp only at hs
  split at hs
  · cases hs
    exact hgoto _ _ hi
  · split_ifs at hs
    · cases hs
      exact hgoto _ _ hi
    · cases hs
      exact hgoto _ _ hi
    · cases hs
      exact hgoto _ _ hi
  · cases hs
    exact hgoto _ _ hi
  · cases hs
    exact hgoto _ _ hi
  · split_ifs at hs
    · cases hs
      exact hgoto _ _ hi
    · cases hs
      exact hgoto _ _ hi
    · cases hs
      exact hi
  · cases hs

/-- The results `stopped` and `lock`, and what they say of the state. -/
theorem stopped_of_result {s s' : State ι} {x : ι × Access} {r : Result}
    (hs : step s x = some (s', r)) :
    (r = .stopped → s'.pc x.1 = .stopped) ∧ (r = .lock → s'.pc x.1 = .holding) := by
  unfold step at hs
  split at hs
  · cases hs
    exact ⟨nofun, nofun⟩
  · split_ifs at hs
    · cases hs
      exact ⟨nofun, nofun⟩
    · cases hs
      exact ⟨nofun, fun _ => pc_goto_self _ _ _⟩
    · cases hs
      exact ⟨nofun, nofun⟩
  · cases hs
    exact ⟨nofun, nofun⟩
  · cases hs
    exact ⟨nofun, nofun⟩
  · split_ifs at hs
    · cases hs
      exact ⟨fun _ => pc_goto_self _ _ _, nofun⟩
    · cases hs
      exact ⟨fun _ => pc_goto_self _ _ _, nofun⟩
    · cases hs
      exact ⟨nofun, nofun⟩
  · cases hs

/-! ## The counter counts the locks -/

variable [Fintype ι]

/-- The calls that hold a lock. -/
def State.holders (s : State ι) : Finset ι := {i | s.pc i = .holding}

omit [DecidableEq ι] in
theorem mem_holders {s : State ι} {i : ι} : i ∈ s.holders ↔ s.pc i = .holding := by
  simp [State.holders]

/-- A call that neither gets nor gives up a lock. -/
theorem holders_goto {s : State ι} {i : ι} {p : Pc} (h : s.pc i ≠ .holding) (hp : p ≠ .holding) :
    (s.goto i p).holders = s.holders := by
  ext j
  rw [mem_holders, mem_holders]
  by_cases hj : j = i
  · subst hj
    rw [pc_goto_self]
    exact ⟨fun e => absurd e hp, fun e => absurd e h⟩
  · rw [pc_goto_ne hj]

theorem card_holders_lock {s : State ι} {i : ι} (h : s.pc i ≠ .holding) :
    (s.goto i .holding).holders.card = s.holders.card + 1 := by
  have hins : (s.goto i .holding).holders = insert i s.holders := by
    ext j
    rw [Finset.mem_insert, mem_holders, mem_holders]
    by_cases hj : j = i
    · subst hj
      simp
    · rw [pc_goto_ne hj]
      simp [hj]
  rw [hins, Finset.card_insert_of_notMem fun hm => h (mem_holders.1 hm)]

theorem card_holders_release {s : State ι} {i : ι} {p : Pc} (h : s.pc i = .holding)
    (hp : p ≠ .holding) :
    (s.goto i p).holders.card + 1 = s.holders.card := by
  have herase : (s.goto i p).holders = s.holders.erase i := by
    ext j
    rw [Finset.mem_erase, mem_holders, mem_holders]
    by_cases hj : j = i
    · subst hj
      simp [hp]
    · rw [pc_goto_ne hj]
      simp [hj]
  rw [herase, Finset.card_erase_add_one (mem_holders.2 h)]

/-- The counter is the number of locks, or it is -1: then there are none, and a `stop` has got
through. A call that has read the -1 has not been overtaken since. -/
structure Counted (s : State ι) : Prop where
  locks : 0 ≤ s.count → s.count = s.holders.card
  none : s.count < 0 → s.count = -1 ∧ s.holders = ∅
  stopped : ∀ i, s.pc i = .stopped → s.count = -1
  read : ∀ i expected, s.pc i = .trying expected → expected < 0 → s.count = -1

omit [DecidableEq ι] in
theorem counted_start : Counted (start : State ι) where
  locks _ := by simp [start, State.holders]
  none h := absurd h (show ¬ (0 : Int) < 0 by omega)
  stopped i h := by cases h
  read i expected h := by cases h

variable {s s' : State ι} {i : ι}

omit [Fintype ι] in
/-- A property of where a call stands that the call with number `i` and the others have. -/
theorem forall_goto {P : Pc → Prop} {p : Pc} (hp : P p) (hs : ∀ j, P (s.pc j)) (j : ι) :
    P ((s.goto i p).pc j) := by
  by_cases hji : j = i
  · rw [hji, pc_goto_self]
    exact hp
  · rw [pc_goto_ne hji]
    exact hs j

/-- A step that leaves the counter and the locks. -/
theorem Counted.goto (h : Counted s) {p : Pc} (hi : s.pc i ≠ .holding) (hp : p ≠ .holding)
    (hs : p = .stopped → s.count = -1)
    (hr : ∀ expected, p = .trying expected → expected < 0 → s.count = -1) :
    Counted (s.goto i p) := by
  have hh := holders_goto hi hp
  refine ⟨fun hc => by rw [hh]; exact h.locks hc, fun hc => by rw [hh]; exact h.none hc, ?_, ?_⟩
  · exact forall_goto (P := fun p => p = .stopped → s.count = -1) hs h.stopped
  · exact forall_goto (P := fun p => ∀ expected, p = .trying expected → expected < 0 →
      s.count = -1) hr h.read

/-- A step that changes the counter, where it was not negative. -/
theorem Counted.change (h : Counted s) {p : Pc} {count : Int} (hc : 0 ≤ s.count)
    (hlocks : 0 ≤ count → count = (s.goto i p).holders.card)
    (hnone : count < 0 → count = -1 ∧ (s.goto i p).holders = ∅) (hs : p = .stopped → count = -1)
    (hr : ∀ expected, p ≠ .trying expected) : Counted ({ s with count := count }.goto i p) := by
  refine ⟨hlocks, hnone, ?_, ?_⟩
  · refine forall_goto (P := fun p => p = .stopped → count = -1) hs fun j hj => ?_
    have := h.stopped j hj
    omega
  · refine forall_goto (P := fun p => ∀ expected, p = .trying expected → expected < 0 → count = -1)
      (fun expected hp => absurd hp (hr expected)) fun j expected hj hneg => ?_
    have := h.read j expected hj hneg
    omega

/-- **One access keeps the count.** -/
theorem Counted.step {x : ι × Access} {r : Result} (h : Counted s) (hs : step s x = some (s', r)) :
    Counted s' := by
  obtain ⟨i, a⟩ := x
  -- what a call reads is the counter, which is -1 where it is negative
  have hread : ∀ expected, Pc.trying s.count = .trying expected → expected < 0 → s.count = -1 := by
    rintro expected he hneg
    cases he
    exact (h.none hneg).1
  unfold ScopeRunner.step at hs
  dsimp only at hs
  split at hs
  · rename_i hpc
    cases hs
    exact h.goto (by rw [hpc]; decide) nofun nofun hread
  · rename_i expected spurious hpc
    have hi : s.pc i ≠ .holding := by rw [hpc]; exact nofun
    split_ifs at hs with hneg heq
    · cases hs
      exact h.goto hi nofun nofun nofun
    · cases hs
      -- the exchange succeeds: one lock more
      have hcard := card_holders_lock hi
      have hlocks := h.locks (by omega)
      refine h.change (by omega) (fun _ => ?_) (fun hc => by omega) nofun nofun
      rw [hcard]
      push_cast
      omega
    · cases hs
      exact h.goto hi nofun nofun hread
  · rename_i hpc
    cases hs
    have hcard : (s.goto i .idle).holders.card + 1 = s.holders.card :=
      card_holders_release hpc nofun
    have hmem : i ∈ s.holders := mem_holders.2 hpc
    have hnonneg : 0 ≤ s.count := by
      by_contra hc
      rw [(h.none (by omega)).2] at hmem
      exact absurd hmem (Finset.notMem_empty i)
    have hlocks := h.locks hnonneg
    exact h.change hnonneg (fun _ => by omega) (fun hc => by omega) nofun nofun
  · rename_i hpc
    cases hs
    exact h.goto (by rw [hpc]; decide) nofun nofun nofun
  · rename_i spurious hpc
    have hi : s.pc i ≠ .holding := by rw [hpc]; decide
    split_ifs at hs with heq hneg
    · cases hs
      have hempty : s.holders = ∅ := by
        have hlocks := h.locks (by omega)
        exact Finset.card_eq_zero.1 (by omega)
      refine h.change (by omega) (fun hc => by omega) (fun _ => ⟨rfl, ?_⟩) (fun _ => rfl) nofun
      rw [← hempty]
      exact holders_goto hi nofun
    · cases hs
      exact h.goto hi nofun (fun _ => (h.none hneg).1) nofun
    · cases hs
      exact h
  · cases hs

/-! ## Runs -/

variable {guard : State ι → List ((ι × Access) × Result) → ι × Access → Prop}
  {t t' : List ((ι × Access) × Result)}

theorem counted_of_run (h : Run step guard start t s) : Counted s :=
  h.invariant (P := fun _ s => Counted s) counted_start fun _ _ _ _ _ hs _ hstep => hs.step hstep

/-- **`stop` is final.** When a call of `stop` has returned, no lock is held, none is held at any
later time, and no later call of `continue_lock` gets one. -/
theorem none_after_stop {x : ι × Access} (h : Run step guard start (t ++ (x, .stopped) :: t') s) :
    (∀ j, s.pc j ≠ .holding) ∧ ∀ y ∈ t', y.2 ≠ .lock := by
  have hnone : ∀ {s : State ι} {u}, Run step guard start u s → s.pc x.1 = .stopped →
      ∀ j, s.pc j ≠ .holding := by
    intro s u hr hx j hj
    have hcounted := counted_of_run hr
    have hempty := (hcounted.none (by rw [hcounted.stopped x.1 hx]; decide)).2
    exact absurd (mem_holders.2 hj) (by rw [hempty]; exact Finset.notMem_empty j)
  rw [List.append_cons] at h
  have hrest : s.pc x.1 = .stopped ∧ ∀ y ∈ t', y.2 ≠ .lock := by
    refine Run.invariant_from (P := fun t' s => s.pc x.1 = .stopped ∧ ∀ y ∈ t', y.2 ≠ .lock) ?_ ?_ h
    · intro s hr
      obtain ⟨s₁, -, -, hs⟩ := hr.snoc_inv
      exact ⟨(stopped_of_result hs).1 rfl, nofun⟩
    · rintro t₂ s y s' o hr ⟨hx, ht₂⟩ hg hs
      have hx' := stopped_of_step hx hs
      refine ⟨hx', ?_⟩
      intro z hz
      rcases List.mem_append.1 hz with hz | hz
      · exact ht₂ z hz
      · obtain rfl := List.mem_singleton.1 hz
        rintro rfl
        exact hnone (hr.next hg hs) hx' y.1 ((stopped_of_result hs).2 rfl)
  exact ⟨hnone h hrest.1, hrest.2⟩

theorem none_after_stop_waiting : ∃ s, Run step anyAccess (start : State Bool)
    ([((false, .load), .nothing), ((false, .attempt false), .lock), ((true, .stop), .nothing),
      ((true, .attemptStop false), .nothing), ((false, .release), .released)] ++
      ((true, .attemptStop false), .stopped) ::
        [((false, .load), .nothing), ((false, .attempt false), .nullptr)]) s ∧
    ∀ j, s.pc j ≠ .holding := by
  obtain ⟨s, h, -⟩ := Run.exists_of_outputs step anyAccess (start : State Bool)
    [(false, .load), (false, .attempt false), (true, .stop),
    (true, .attemptStop false), (false, .release),
      (true, .attemptStop false), (false, .load), (false, .attempt false)]
    [.nothing, .lock, .nothing, .nothing, .released, .stopped, .nothing, .nullptr]
      (fun _ => true) (by decide)
  exact ⟨s, h, (none_after_stop (t := [((false, .load), .nothing), ((false, .attempt false), .lock),
    ((true, .stop), .nothing), ((true, .attemptStop false), .nothing),
    ((false, .release), .released)]) h).1⟩

/-- The counter stays within the number of calls, and far from the ends of its type. -/
theorem count_le_card (h : Run step guard start t s) : -1 ≤ s.count ∧ s.count ≤ Fintype.card ι := by
  have hcounted := counted_of_run h
  by_cases hc : 0 ≤ s.count
  · have hle := Finset.card_le_univ s.holders
    have hlocks := hcounted.locks hc
    omega
  · have := (hcounted.none (by omega)).1
    omega

/-- What a call returns that makes one exchange after the other while all others stand still. -/
def alone (s : State ι) (i : ι) (exchange : Bool → Access) : List Bool → Result
  | [] => .nothing
  | spurious :: l =>
    match step s (i, exchange spurious) with
    | some (s', .nothing) => alone s' i exchange l
    | some (_, r) => r
    | none => .nothing

omit [Fintype ι] in
/-- A call of `continue_lock` that runs alone has returned what it should, or at most one exchange
of it did not fail for no reason, and none where it has already read the counter. -/
theorem alone_attempt {expected : Int} (hpc : s.pc i = .trying expected)
    (hread : expected < 0 → s.count < 0) (l : List Bool) :
    alone s i .attempt l = (if 0 ≤ s.count then .lock else .nullptr) ∨
      alone s i .attempt l = .nothing ∧ l.count false ≤ 1 ∧
        (s.count = expected → l.count false = 0) := by
  induction l generalizing s expected with
  | nil => exact .inr ⟨rfl, Nat.zero_le _, fun _ => rfl⟩
  | cons spurious l ih =>
    by_cases hneg : expected < 0
    · have hstep : step s (i, .attempt spurious) = some (s.goto i .idle, .nullptr) := by
        unfold step
        rw [hpc]
        exact if_pos hneg
      left
      rw [alone, hstep, if_neg (not_le.2 (hread hneg))]
    by_cases heq : s.count = expected ∧ spurious = false
    · have hstep : step s (i, .attempt spurious) =
          some ({ s with count := expected + 1 }.goto i .holding, .lock) := by
        unfold step
        rw [hpc]
        exact (if_neg hneg).trans (if_pos heq)
      left
      rw [alone, hstep, if_pos (by omega)]
    -- the exchange fails, and the call has read the counter
    have hstep : step s (i, .attempt spurious) = some (s.goto i (.trying s.count), .nothing) := by
      unfold step
      rw [hpc]
      exact (if_neg hneg).trans (if_neg heq)
    rw [alone, hstep]
    rcases ih (s := s.goto i (.trying s.count)) (pc_goto_self s i _) id with hret | ⟨hnot, -, hnone⟩
    · exact .inl hret
    · have hl := hnone rfl
      refine .inr ⟨hnot, ?_, fun he => ?_⟩
      · rw [List.count_cons, hl]
        split_ifs <;> omega
      · rw [List.count_cons, hl, if_neg]
        exact fun hs => heq ⟨he, eq_of_beq hs⟩

omit [Fintype ι] in
/-- A call of `stop` that runs alone, where no lock is held. -/
theorem alone_attemptStop (hpc : s.pc i = .stopping) (hc : s.count ≤ 0) (l : List Bool) :
    alone s i .attemptStop l = .stopped ∨ alone s i .attemptStop l = .nothing ∧
      l.count false = 0 := by
  induction l with
  | nil => exact .inr ⟨rfl, rfl⟩
  | cons spurious l ih =>
    by_cases heq : s.count = 0 ∧ spurious = false
    · have hstep : step s (i, .attemptStop spurious) =
          some ({ s with count := -1 }.goto i .stopped, .stopped) := by
        unfold step
        rw [hpc]
        exact if_pos heq
      left
      rw [alone, hstep]
    by_cases hneg : s.count < 0
    · have hstep : step s (i, .attemptStop spurious) = some (s.goto i .stopped, .stopped) := by
        unfold step
        rw [hpc]
        exact (if_neg heq).trans (if_pos hneg)
      left
      rw [alone, hstep]
    have hstep : step s (i, .attemptStop spurious) = some (s, .nothing) := by
      unfold step
      rw [hpc]
      exact (if_neg heq).trans (if_neg hneg)
    rw [alone, hstep]
    refine ih.imp_right fun ⟨hnot, hl⟩ => ⟨hnot, ?_⟩
    rw [List.count_cons, hl, if_neg]
    exact fun hs => heq ⟨by omega, eq_of_beq hs⟩

/-- **Only `stop` waits, and only for the locks.** In every state of a run, while the others stand
still, a call of `continue_lock` returns at the latest with the second of its exchanges that does
not fail for no reason, and it returns a lock exactly where the counter is not negative; a call of
`stop` returns at the latest with the first such exchange, when no lock is held. -/
theorem returns_alone (h : Run step guard start t s) (i : ι) (l : List Bool) :
    (∀ expected, s.pc i = .trying expected →
      alone s i .attempt l = (if 0 ≤ s.count then .lock else .nullptr) ∨
        alone s i .attempt l = .nothing ∧ l.count false ≤ 1) ∧
    (s.pc i = .stopping → (∀ j, s.pc j ≠ .holding) →
      alone s i .attemptStop l = .stopped ∨ alone s i .attemptStop l = .nothing ∧
        l.count false = 0) := by
  have hcounted := counted_of_run h
  constructor
  · intro expected hpc
    have hread : expected < 0 → s.count < 0 := fun hneg => by
      have := hcounted.read i expected hpc hneg
      omega
    exact (alone_attempt hpc hread l).imp_right fun hnot => ⟨hnot.1, hnot.2.1⟩
  · intro hpc hnone
    refine alone_attemptStop hpc ?_ l
    by_contra hc
    have hlocks := hcounted.locks (by omega)
    rw [Finset.eq_empty_of_forall_notMem fun j hj => hnone j (mem_holders.1 hj),
      Finset.card_empty] at hlocks
    exact hc hlocks.le

/-- A call that was overtaken, and whose first exchange then fails for no reason, gets its lock with
the third. -/
theorem returns_alone_overtaken :
    ∃ t s, Run step anyAccess (start : State Bool) t s ∧ s.pc true = .holding ∧
    alone s false .attempt [true, false, false] = .lock := by
  obtain ⟨t, s, h, -, hp⟩ := Run.exists_of_replay step anyAccess (start : State Bool)
    [(false, .load), (true, .load), (true, .attempt false)]
    (fun _ s => decide (s.pc true = .holding) &&
    decide (s.pc false = .trying 0 ∧ 0 ≤ s.count)) (by decide)
  obtain ⟨htrue, hfalse⟩ := Bool.and_eq_true_iff.1 hp
  obtain ⟨hpc, hc⟩ := of_decide_eq_true hfalse
  refine ⟨t, s, h, of_decide_eq_true htrue, ?_⟩
  rcases (returns_alone h false [true, false, false]).1 0 hpc with hlock | ⟨-, hcount⟩
  · rwa [if_pos hc] at hlock
  · exact absurd hcount (by decide)

end ScopeRunner

end CppFrame.SimpleWeb
