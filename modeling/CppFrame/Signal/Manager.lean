import CppFrame.File.Logger
import Mathlib.Data.List.Induction

/-!
# The signal manager

`Manager` of `lib/jahan/signal/manager.cpp`. The handler writes two flags, `m_run` and
`m_sig_caught`; `thread_loop` waits for the first and reads the second three times in
`handle_signal`, which then resets both. Each access to a flag is a step of its own, and so are the
two writes of `setup_handler`. A thread does not run the handler inside the handler (`sa_mask` is
full), but several threads may run it.

`Caught` follows the signal delivered last through the loop. It is lost when it comes while
`handle_signal` is under way, when the loop reads between the two writes of its handler, when the
handler of an older signal writes after it, or when `setup_handler` resets a flag too early;
`timely` excludes just these, and then the signal reaches the logger and the callback
(`caught_of_quiet`).
-/

namespace CppFrame.Signal

open File (LogLevel)

/-! ## Data -/

/-- Where `thread_loop` is: at the test of `m_run`; in `handle_signal`, about to read the signal for
the message, about to read it for the `switch`, about to call the logger, about to read it for the
callback, about to call the callback, about to reset `m_sig_caught`, or about to reset `m_run`. -/
inductive LoopPhase
  | waiting
  | message
  | switch (message : String)
  | logger (message : String) (logLevel : LogLevel)
  | read
  | callback (signal : Nat)
  | clear
  | resume
  deriving DecidableEq

/-- The two flags, the signal of each thread that is between the two writes of the handler, and the
place of `thread_loop`. -/
structure Manager (η : Type) where
  mRun : Bool
  mSigCaught : Nat
  handlers : η → Option Nat
  loop : LoopPhase

/-- Whether a logger and a callback are set. -/
structure Setup where
  logger : Bool
  userNotifyCallback : Bool

namespace Manager

/-- A step: the first and the second write of the handler, a step of `thread_loop`, and the two
writes of `setup_handler`. -/
inductive Action (η : Type)
  | deliver (h : η) (signum : Nat)
  | store (h : η)
  | loop
  | setupRun
  | setupSig
  deriving DecidableEq

/-- What a step did to the outside. -/
inductive Event
  | logged (message : String) (logLevel : LogLevel)
  | printed (message : String)
  | notified (signal : Nat)
  deriving DecidableEq

/-! ## Functions -/

/-- The signals of the `switch`: `SIGALRM`, `SIGVTALRM`, `SIGPROF`, `SIGXCPU`, `SIGBUS`, `SIGFPE`,
`SIGHUP`, `SIGILL`, `SIGQUIT`, `SIGSEGV` and `SIGTERM`. -/
def terminating : List Nat := [14, 26, 27, 24, 7, 8, 1, 4, 3, 11, 15]

/-- The start of the message. -/
def messageOf (signal : Nat) : String := "Signal:" ++ toString signal

/-- What the `switch` makes of the message and the level. -/
def switchOn (message : String) (signal : Nat) : String × LogLevel :=
  if signal ∈ terminating then (message ++ " Terminating", .critical) else (message, .error)

variable {η : Type}

/-- One step of `thread_loop`. -/
def loopStep (setup : Setup) (s : Manager η) : Manager η × Option Event :=
  match s.loop with
  | .waiting => (if s.mRun then s else { s with loop := .message }, none)
  | .message => ({ s with loop := .switch (messageOf s.mSigCaught) }, none)
  | .switch message =>
    ({ s with loop := .logger (switchOn message s.mSigCaught).1 (switchOn message s.mSigCaught).2 },
      none)
  | .logger message logLevel =>
    ({ s with loop := .read },
      some (if setup.logger then .logged message logLevel else .printed message))
  | .read =>
    ({ s with loop := if setup.userNotifyCallback then .callback s.mSigCaught else .clear }, none)
  | .callback signal => ({ s with loop := .clear }, some (.notified signal))
  | .clear => ({ s with mSigCaught := 0, loop := .resume }, none)
  | .resume => ({ s with mRun := true, loop := .waiting }, none)

variable [DecidableEq η]

/-- One step, where it is enabled. -/
def step (setup : Setup) (s : Manager η) : Action η → Option (Manager η × Option Event)
  | .deliver h signum =>
    match s.handlers h with
    | some _ => none
    | none => some
      ({ s with mRun := false, handlers := Function.update s.handlers h (some signum) }, none)
  | .store h =>
    match s.handlers h with
    | some signum =>
      some ({ s with mSigCaught := signum, handlers := Function.update s.handlers h none }, none)
    | none => none
  | .loop => some (s.loopStep setup)
  | .setupRun => some ({ s with mRun := true }, none)
  | .setupSig => some ({ s with mSigCaught := 0 }, none)

/-- Before the first signal. -/
def initial (mRun : Bool) : Manager η := ⟨mRun, 0, fun _ => none, .waiting⟩

/-! ## The signal delivered last -/

/-- The steps made so far, with their events. -/
abbrev Trace (η : Type) := List (Action η × Option Event)

/-- The thread to which the last signal of a trace was delivered. -/
def latest (t : Trace η) : Option η :=
  t.foldl (fun acc x => match x.1 with | .deliver h _ => some h | _ => acc) none

/-- No signal is delivered. -/
def NoDelivery (t : Trace η) : Prop := ∀ x ∈ t, ∀ h signum, x.1 ≠ .deliver h signum

/-- The handler that was called last has made both of its writes. -/
def Stored (s : Manager η) (t : Trace η) : Prop := ∀ h ∈ latest t, s.handlers h = none

/-- The loop is in `handle_signal` and has not read the signal for the callback. -/
def LoopPhase.reading : LoopPhase → Bool
  | .message => true
  | .switch _ => true
  | .logger _ _ => true
  | .read => true
  | _ => false

/-- A signal comes while the loop waits, or before it reads; an older handler does not write after
the last one; the loop reads when the last handler has made its writes; and `setup_handler` does not
write `m_run` while the loop has a signal to handle, nor `m_sig_caught` before it has read it. -/
def timely (s : Manager η) (t : Trace η) : Action η → Prop
  | .deliver _ _ => s.loop = .waiting ∨ s.loop = .message
  | .store h => ∀ h' ∈ latest t, h' = h ∨ s.handlers h' ≠ none
  | .loop => s.loop = .message → Stored s t
  | .setupRun => s.loop = .waiting → s.mRun = true ∨ latest t = none
  | .setupSig => LoopPhase.reading s.loop = true ∨ s.loop = .waiting ∧ s.mRun = false →
      latest t = none ∨ ¬ Stored s t

/-- The logger was given the message of the signal, where one is set. -/
def Logged (setup : Setup) (signum : Nat) (t : Trace η) : Prop :=
  setup.logger = true → ∃ a, (a, some (.logged (switchOn (messageOf signum) signum).1
    (switchOn (messageOf signum) signum).2)) ∈ t

/-- The callback was given the signal, where one is set. -/
def Notified (setup : Setup) (signum : Nat) (t : Trace η) : Prop :=
  setup.userNotifyCallback = true → ∃ a, (a, some (.notified signum)) ∈ t

/-- How far the signal that was delivered last has come, after the steps `t`. -/
def Caught (setup : Setup) (h : η) (signum : Nat) (t : Trace η) (s : Manager η) : Prop :=
  match s.loop with
  | .waiting => s.mRun = false ∧ (s.handlers h = none → s.mSigCaught = signum) ∧
      (s.handlers h = none ∨ s.handlers h = some signum) ∨
    s.mRun = true ∧ Logged setup signum t ∧ Notified setup signum t
  | .message => (s.handlers h = none → s.mSigCaught = signum) ∧
      (s.handlers h = none ∨ s.handlers h = some signum)
  | .switch message => s.handlers h = none ∧ s.mSigCaught = signum ∧ message = messageOf signum
  | .logger message logLevel => s.handlers h = none ∧ s.mSigCaught = signum ∧
      (message, logLevel) = switchOn (messageOf signum) signum
  | .read => s.handlers h = none ∧ s.mSigCaught = signum ∧ Logged setup signum t
  | .callback signal => signal = signum ∧ Logged setup signum t
  | .clear => Logged setup signum t ∧ Notified setup signum t
  | .resume => Logged setup signum t ∧ Notified setup signum t

variable {setup : Setup} {s s' : Manager η} {a : Action η} {e : Option Event} {h : η} {signum : Nat}
  {t t₁ t₂ : Trace η}

omit [DecidableEq η] in
theorem latest_append_singleton (t : Trace η) (a : Action η) (e : Option Event) :
    latest (t ++ [(a, e)]) = match a with | .deliver h _ => some h | _ => latest t := by
  rw [latest, List.foldl_append]
  cases a <;> rfl

omit [DecidableEq η] in
theorem latest_of_noDelivery (h₂ : NoDelivery t₂) :
    latest (t₁ ++ [(.deliver h signum, e)] ++ t₂) = some h := by
  induction t₂ using List.reverseRecOn with
  | nil =>
    rw [List.append_nil, latest_append_singleton]
  | append_singleton t₂ x ih =>
    obtain ⟨a, e'⟩ := x
    rw [← List.append_assoc, latest_append_singleton]
    have hlast := ih fun y hy => h₂ y (List.mem_append_left _ hy)
    cases a with
    | deliver h' n =>
      exact absurd rfl (h₂ _ (List.mem_append_right _ (List.mem_singleton.2 rfl)) h' n)
    | _ => exact hlast

omit [DecidableEq η] in
theorem Logged.append (hl : Logged setup signum t) (t' : Trace η) :
    Logged setup signum (t ++ t') := by
  intro hset
  obtain ⟨a, ha⟩ := hl hset
  exact ⟨a, List.mem_append_left _ ha⟩

omit [DecidableEq η] in
theorem Notified.append (hn : Notified setup signum t) (t' : Trace η) :
    Notified setup signum (t ++ t') := by
  intro hset
  obtain ⟨a, ha⟩ := hn hset
  exact ⟨a, List.mem_append_left _ ha⟩

omit [DecidableEq η] in
/-- A step of the loop brings the signal on. -/
theorem Caught.loop (hc : Caught setup h signum t s)
    (hg : s.loop = .message → s.handlers h = none) :
    Caught setup h signum (t ++ [(.loop, (s.loopStep setup).2)]) (s.loopStep setup).1 := by
  unfold loopStep
  unfold Caught at hc
  cases hl : s.loop with
  | waiting =>
    simp only [hl] at hc ⊢
    rcases hc with ⟨hr, hc⟩ | ⟨hr, hlog, hnot⟩
    · simp only [hr, Bool.false_eq_true, if_false]
      exact hc
    · simp only [hr, if_true, Caught, hl]
      exact .inr ⟨trivial, hlog.append _, hnot.append _⟩
  | message =>
    simp only [hl] at hc
    have hi := hg hl
    exact ⟨hi, hc.1 hi, by rw [hc.1 hi]⟩
  | switch message =>
    simp only [hl] at hc
    obtain ⟨hi, hsig, rfl⟩ := hc
    exact ⟨hi, hsig, by rw [hsig]⟩
  | logger message logLevel =>
    simp only [hl] at hc
    obtain ⟨hi, hsig, hm⟩ := hc
    refine ⟨hi, hsig, fun hset => ⟨.loop, List.mem_append_right _ ?_⟩⟩
    rw [← hm]
    simp [hset]
  | read =>
    simp only [hl] at hc
    obtain ⟨hi, hsig, hlog⟩ := hc
    by_cases hset : setup.userNotifyCallback = true
    · simp only [hset, if_true]
      exact ⟨hsig, hlog.append _⟩
    · simp only [hset]
      exact ⟨hlog.append _, fun h => absurd h hset⟩
  | callback signal =>
    simp only [hl] at hc
    obtain ⟨rfl, hlog⟩ := hc
    exact ⟨hlog.append _, fun _ => ⟨.loop, List.mem_append_right _ (List.mem_singleton.2 rfl)⟩⟩
  | clear =>
    simp only [hl] at hc
    exact ⟨hc.1.append _, hc.2.append _⟩
  | resume =>
    simp only [hl] at hc
    exact .inr ⟨rfl, hc.1.append _, hc.2.append _⟩

/-- A write of a handler, the last one's or an older one's. -/
theorem Caught.store {h' : η} {n : Nat} (hc : Caught setup h signum t s)
    (hn : s.handlers h' = some n) (hg : h = h' ∨ s.handlers h ≠ none)
    (x : Action η × Option Event) :
    Caught setup h signum (t ++ [x])
      { s with mSigCaught := n, handlers := Function.update s.handlers h' none } := by
  -- after the write the last signal is stored, or its handler is still between its writes
  have hstill : (s.handlers h = none ∨ s.handlers h = some signum) →
      (Function.update s.handlers h' none h = none → n = signum) ∧
      (Function.update s.handlers h' none h = none ∨
        Function.update s.handlers h' none h = some signum) := by
    intro hi
    by_cases hh : h = h'
    · subst hh
      rw [Function.update_self]
      rw [hn] at hi
      exact ⟨fun _ => Option.some.inj (hi.resolve_left (by simp)), .inl rfl⟩
    · rw [Function.update_of_ne hh]
      exact ⟨fun hnone => absurd hnone (hg.resolve_left hh), hi⟩
  -- in the later places no handler can write
  have hnot : s.handlers h = none → False := by
    intro hi
    rcases hg with rfl | hg
    · rw [hi] at hn
      cases hn
    · exact hg hi
  unfold Caught at hc ⊢
  cases hl : s.loop with
  | waiting =>
    simp only [hl] at hc ⊢
    rcases hc with ⟨hr, -, hi⟩ | ⟨hr, hlog, hnotif⟩
    · exact .inl ⟨hr, hstill hi⟩
    · exact .inr ⟨hr, hlog.append _, hnotif.append _⟩
  | message =>
    simp only [hl] at hc ⊢
    exact hstill hc.2
  | switch message => simp only [hl] at hc; exact absurd hc.1 hnot
  | logger message logLevel => simp only [hl] at hc; exact absurd hc.1 hnot
  | read => simp only [hl] at hc; exact absurd hc.1 hnot
  | callback signal => simp only [hl] at hc ⊢; exact ⟨hc.1, hc.2.append _⟩
  | clear => simp only [hl] at hc ⊢; exact ⟨hc.1.append _, hc.2.append _⟩
  | resume => simp only [hl] at hc ⊢; exact ⟨hc.1.append _, hc.2.append _⟩

theorem Caught.step {u : Trace η} (hc : Caught setup h signum t s) (hu : latest u = some h)
    (hg : timely s u a) (hs : Manager.step setup s a = some (s', e))
    (hnd : ∀ h' n, a ≠ .deliver h' n) : Caught setup h signum (t ++ [(a, e)]) s' := by
  cases a with
  | deliver h' n => exact absurd rfl (hnd h' n)
  | store h' =>
    simp only [Manager.step] at hs
    split at hs
    · rename_i n hn
      cases hs
      exact hc.store hn (hg h hu) _
    · cases hs
  | loop =>
    have hs : s.loopStep setup = (s', e) := Option.some.inj hs
    have hnext := hc.loop fun hl => hg hl h hu
    rwa [hs] at hnext
  | setupRun =>
    cases hs
    unfold timely at hg
    unfold Caught at hc ⊢
    cases hl : s.loop with
    | waiting =>
      simp only [hl] at hc hg ⊢
      have hr : s.mRun = true := (hg trivial).resolve_right (by simp [hu])
      rcases hc with ⟨hr', -⟩ | ⟨-, hlog, hnot⟩
      · rw [hr] at hr'
        cases hr'
      · exact .inr ⟨trivial, hlog.append _, hnot.append _⟩
    | message => simp only [hl] at hc ⊢; exact hc
    | switch message => simp only [hl] at hc ⊢; exact hc
    | logger message logLevel => simp only [hl] at hc ⊢; exact hc
    | read => simp only [hl] at hc ⊢; exact ⟨hc.1, hc.2.1, hc.2.2.append _⟩
    | callback signal => simp only [hl] at hc ⊢; exact ⟨hc.1, hc.2.append _⟩
    | clear => simp only [hl] at hc ⊢; exact ⟨hc.1.append _, hc.2.append _⟩
    | resume => simp only [hl] at hc ⊢; exact ⟨hc.1.append _, hc.2.append _⟩
  | setupSig =>
    cases hs
    -- the last handler is still between its writes where the loop has yet to read
    have hbetween : LoopPhase.reading s.loop = true ∨ s.loop = .waiting ∧ s.mRun = false →
        s.handlers h ≠ none := by
      intro hr hnone
      refine (hg hr).elim (by simp [hu]) fun hns => hns fun h' hh' => ?_
      rw [hu] at hh'
      cases hh'
      exact hnone
    unfold Caught at hc ⊢
    cases hl : s.loop with
    | waiting =>
      simp only [hl] at hc hbetween ⊢
      rcases hc with ⟨hr, -, hi⟩ | ⟨hr, hlog, hnot⟩
      · exact .inl ⟨hr, fun hnone => absurd hnone (hbetween (.inr ⟨trivial, hr⟩)), hi⟩
      · exact .inr ⟨hr, hlog.append _, hnot.append _⟩
    | message =>
      simp only [hl] at hc hbetween ⊢
      exact ⟨fun hnone => absurd hnone (hbetween (.inl rfl)), hc.2⟩
    | switch message => simp only [hl] at hc hbetween; exact absurd hc.1 (hbetween (.inl rfl))
    | logger message logLevel =>
      simp only [hl] at hc hbetween; exact absurd hc.1 (hbetween (.inl rfl))
    | read => simp only [hl] at hc hbetween; exact absurd hc.1 (hbetween (.inl rfl))
    | callback signal => simp only [hl] at hc ⊢; exact ⟨hc.1, hc.2.append _⟩
    | clear => simp only [hl] at hc ⊢; exact ⟨hc.1.append _, hc.2.append _⟩
    | resume => simp only [hl] at hc ⊢; exact ⟨hc.1.append _, hc.2.append _⟩

/-- From its delivery on, the last signal is on its way. -/
theorem caught_of_run {mRun : Bool}
    (hrun : Run (Manager.step setup) timely (initial mRun) (t₁ ++ [(.deliver h signum, e)] ++ t₂) s)
    (h₂ : NoDelivery t₂) : Caught setup h signum t₂ s := by
  refine hrun.invariant_from (P := fun t₂ s => NoDelivery t₂ → Caught setup h signum t₂ s) ?_ ?_ h₂
  · intro s₁ h₁ _
    obtain ⟨s₀, -, hg, hs⟩ := h₁.snoc_inv
    simp only [Manager.step] at hs
    split at hs
    · cases hs
    · cases hs
      rcases hg with hl | hl
      · simp [Caught, hl]
      · simp [Caught, hl]
  · intro t₂ s a s' e' hrun ih hg hs hnd
    have hnd₂ : NoDelivery t₂ := fun x hx => hnd x (List.mem_append_left _ hx)
    exact (ih hnd₂).step (latest_of_noDelivery hnd₂) hg hs
      (hnd _ (List.mem_append_right _ (List.mem_singleton.2 rfl)))

/-- **The last signal is not lost.** Where every step is timely and the loop waits with `m_run` set,
the signal that was delivered last has since been given to the logger and to the callback. -/
theorem caught_of_quiet {mRun : Bool} (hrun : Run (Manager.step setup) timely (initial mRun)
    (t₁ ++ [(.deliver h signum, e)] ++ t₂) s) (h₂ : NoDelivery t₂) (hl : s.loop = .waiting)
    (hr : s.mRun = true) : Logged setup signum t₂ ∧ Notified setup signum t₂ := by
  have hc := caught_of_run hrun h₂
  unfold Caught at hc
  simp only [hl] at hc
  rcases hc with ⟨hr', -⟩ | ⟨-, hc⟩
  · rw [hr] at hr'
    cases hr'
  · exact hc

instance (s : Manager η) (t : Trace η) : Decidable (Stored s t) := by
  unfold Stored; infer_instance

instance (s : Manager η) (t : Trace η) (a : Action η) : Decidable (timely s t a) := by
  cases a <;> unfold timely <;> infer_instance

/-- Any step may come at any time. -/
def anyStep (_ : Manager η) (_ : Trace η) (_ : Action η) : Prop := True

instance (s : Manager η) (t : Trace η) (a : Action η) : Decidable (anyStep s t a) := by
  unfold anyStep; infer_instance

-- for the numerals of `Fin 1` below
local instance one_neZero : @NeZero Nat Zero.ofOfNat0 1 := ⟨Nat.one_ne_zero⟩

/-- A logger and a callback are set. -/
def bothSet : Setup := ⟨true, true⟩

/-- `SIGALRM` comes while the loop waits, and the loop handles it. -/
def handled : Trace (Fin 1) :=
  [(.store 0, none), (.loop, none), (.loop, none), (.loop, none),
    (.loop, some (.logged "Signal:14 Terminating" .critical)), (.loop, none),
    (.loop, some (.notified 14)), (.loop, none), (.loop, none)]

/-- The signal is logged and given to the callback. -/
theorem caught_of_quiet_handled : ∃ s, Run (Manager.step bothSet) timely (initial true)
    ([] ++ [(.deliver 0 14, none)] ++ handled) s ∧ Logged bothSet 14 handled ∧
      Notified bothSet 14 handled := by
  obtain ⟨t, s, h, -, hp⟩ := Run.exists_of_replay (Manager.step bothSet) timely
    (initial true : Manager (Fin 1)) (.deliver 0 14 :: Run.inputs handled)
    (fun t s => decide (t = [] ++ [(.deliver 0 14, none)] ++ handled ∧ s.loop = .waiting ∧
      s.mRun = true)) (by decide)
  obtain ⟨rfl, hl, hr⟩ := of_decide_eq_true hp
  refine ⟨s, h, caught_of_quiet h ?_ hl hr⟩
  simp [NoDelivery, handled]

/-- `SIGALRM` is in hand, and read for the last time. -/
def inHand : Trace (Fin 1) :=
  [(.deliver 0 14, none), (.store 0, none), (.loop, none), (.loop, none), (.loop, none),
    (.loop, some (.logged "Signal:14 Terminating" .critical)), (.loop, none)]

/-- The rest of `handle_signal`, with the writes of the handler for the next signal. -/
def restOfHand : Trace (Fin 1) :=
  [(.store 0, none), (.loop, some (.notified 14)), (.loop, none), (.loop, none)]

/-- `SIGTERM` comes while `SIGALRM` is handled, and is forgotten. -/
theorem last_signal_lost : ¬ ∀ (t₁ t₂ : Trace (Fin 1)) h signum e s,
    Run (Manager.step bothSet) anyStep (initial true) (t₁ ++ [(.deliver h signum, e)] ++ t₂) s →
      NoDelivery t₂ → s.loop = .waiting → s.mRun = true → (∀ h, s.handlers h = none) →
      Logged bothSet signum t₂ ∧ Notified bothSet signum t₂ := by
  intro hall
  obtain ⟨t, s, h, -, hp⟩ := Run.exists_of_replay (Manager.step bothSet) anyStep
    (initial true : Manager (Fin 1)) (Run.inputs inHand ++ .deliver 0 15 :: Run.inputs restOfHand)
    (fun t s => decide (t = inHand ++ [(.deliver 0 15, none)] ++ restOfHand ∧ s.loop = .waiting ∧
      s.mRun = true ∧ ∀ h, s.handlers h = none)) (by decide)
  obtain ⟨rfl, hl, hr, hi⟩ := of_decide_eq_true hp
  obtain ⟨-, hn⟩ := hall _ _ 0 15 none s h (by simp [NoDelivery, restOfHand]) hl hr hi
  obtain ⟨a, ha⟩ := hn rfl
  simp [restOfHand] at ha

end Manager

end CppFrame.Signal
