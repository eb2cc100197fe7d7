import CppFrame.SimpleWeb.SendQueue
import Mathlib.Data.Fintype.Basic

/-!
# Closing once

`send_close` of `Connection` in `server_ws.hpp` and `client_ws.hpp`. It is to send the close frame
only once, and asks the flag `close_sent` whether one has been sent. To read the flag and to set it
are two accesses to an atomic variable: calls that do not overlap there send one frame at most
(`closes_le_one`), and any number of calls that do all send theirs (`closes_of_overlap`).
-/

namespace CppFrame.SimpleWeb

namespace SendClose

/-- Where a call of `send_close` stands: before its test of the flag or behind its end, behind the
test, or behind the store. -/
inductive Pc
  | idle
  | tested
  | stored
  deriving DecidableEq

variable {ι κ : Type}

/-- The flag, the calls, and the queue of frames. -/
structure State (ι κ : Type) where
  closeSent : Bool
  pc : ι → Pc
  queue : SendQueue κ

/-- One step of a call of `send_close`, or of anything else on the connection. -/
inductive Input (ι κ : Type)
  | test (x : ι)
  | store (x : ι)
  | send (x : ι) (frame : OutData κ)
  | other (i : SendQueue.Input κ)

/-- Whether a step has sent a close frame. -/
inductive Event
  | nothing
  | closed
  deriving DecidableEq

variable [DecidableEq ι]

/-- One step. -/
def step (s : State ι κ) : Input ι κ → Option (State ι κ × Event)
  | .test x =>
    if s.pc x = .idle then
      some (if s.closeSent then (s, .nothing)
        else ({ s with pc := Function.update s.pc x .tested }, .nothing))
    else none
  | .store x =>
    if s.pc x = .tested then
      some ({ s with closeSent := true, pc := Function.update s.pc x .stored }, .nothing)
    else none
  | .send x frame =>
    if s.pc x = .stored then
      (s.queue.send frame).map fun q =>
        ({ s with queue := q, pc := Function.update s.pc x .idle }, .closed)
    else none
  | .other i => (s.queue.step i).map fun q => ({ s with queue := q.1 }, .nothing)

/-- A connection that has been opened. -/
def start : State ι κ := ⟨false, fun _ => .idle, .empty⟩

/-- What has happened on a connection. -/
abbrev Trace (ι κ : Type) := List (Input ι κ × Event)

/-- How many close frames have been sent. -/
def closes (t : Trace ι κ) : Nat := t.countP fun x => x.2 = .closed

omit [DecidableEq ι] in
@[simp] theorem closes_snoc (t : Trace ι κ) (x : Input ι κ × Event) :
    closes (t ++ [x]) = closes t + closes [x] := List.countP_append

/-- No call tests the flag while another one stands between its test and its store. -/
def apart (s : State ι κ) (_ : Trace ι κ) : Input ι κ → Prop
  | .test _ => ∀ y, s.pc y ≠ .tested
  | _ => True

instance [Fintype ι] (s : State ι κ) (t : Trace ι κ) (i : Input ι κ) : Decidable (apart s t i) := by
  cases i <;> unfold apart <;> infer_instance

/-- How far the closing has come, where calls do not overlap. -/
inductive Stage (s : State ι κ) (n : Nat) : Prop
  | open (hs : s.closeSent = false) (hpc : ∀ y, s.pc y = .idle) (hn : n = 0)
  | tested (x : ι) (hs : s.closeSent = false) (hx : s.pc x = .tested) (hpc : ∀ y, y ≠ x →
      s.pc y = .idle) (hn : n = 0)
  | stored (x : ι) (hs : s.closeSent = true) (hx : s.pc x = .stored) (hpc : ∀ y, y ≠ x →
      s.pc y = .idle) (hn : n = 0)
  | sent (hs : s.closeSent = true) (hpc : ∀ y, s.pc y = .idle) (hn : n = 1)

variable {s s' : State ι κ} {i : Input ι κ} {e : Event} {t : Trace ι κ}

/-- The only call that stands elsewhere than at its start. -/
theorem eq_of_ne_idle {x y : ι} (hpc : ∀ y, y ≠ x → s.pc y = .idle) (hy : s.pc y ≠ .idle) :
    y = x := by
  by_contra hne
  exact hy (hpc y hne)

/-- **One step of the closing.** -/
theorem Stage.step (h : Stage s (closes t)) (hg : apart s t i) (hs : step s i = some (s', e)) :
    Stage s' (closes (t ++ [(i, e)])) := by
  rw [closes_snoc]
  cases i with
  | test x =>
    simp only [SendClose.step] at hs
    split_ifs at hs with hx hflag
    · cases hs
      exact h
    · cases hs
      cases h with
      | «open» hs hpc hn =>
        refine .tested x hs (Function.update_self ..) (fun y hy => ?_) hn
        exact (Function.update_of_ne hy ..).trans (hpc y)
      | tested y hs hy hpc hn => exact absurd hy (hg y)
      | stored y hs hy hpc hn => exact absurd hs hflag
      | sent hs hpc hn => exact absurd hs hflag
  | store x =>
    simp only [SendClose.step] at hs
    split_ifs at hs with hx
    cases hs
    have hne : s.pc x ≠ .idle := by rw [hx]; decide
    cases h with
    | «open» hs hpc hn => exact absurd (hpc x) hne
    | tested y hs hy hpc hn =>
      obtain rfl := eq_of_ne_idle hpc hne
      refine .stored x rfl (Function.update_self ..) (fun z hz => ?_) hn
      exact (Function.update_of_ne hz ..).trans (hpc z hz)
    | stored y hs hy hpc hn =>
      obtain rfl := eq_of_ne_idle hpc hne
      rw [hx] at hy
      cases hy
    | sent hs hpc hn => exact absurd (hpc x) hne
  | send x frame =>
    simp only [SendClose.step] at hs
    split_ifs at hs with hx
    obtain ⟨q, -, he⟩ := Option.map_eq_some_iff.1 hs
    cases he
    have hne : s.pc x ≠ .idle := by rw [hx]; decide
    cases h with
    | «open» hs hpc hn => exact absurd (hpc x) hne
    | tested y hs hy hpc hn =>
      obtain rfl := eq_of_ne_idle hpc hne
      rw [hx] at hy
      cases hy
    | stored y hs hy hpc hn =>
      obtain rfl := eq_of_ne_idle hpc hne
      refine .sent hs (fun z => ?_) (by rw [hn]; rfl)
      by_cases hz : z = x
      · rw [hz]
        exact Function.update_self ..
      · exact (Function.update_of_ne hz ..).trans (hpc z hz)
    | sent hs hpc hn => exact absurd (hpc x) hne
  | other i =>
    obtain ⟨q, -, he⟩ := Option.map_eq_some_iff.1 hs
    cases he
    cases h with
    | «open» hs hpc hn => exact .open hs hpc hn
    | tested x hs hx hpc hn => exact .tested x hs hx hpc hn
    | stored x hs hx hpc hn => exact .stored x hs hx hpc hn
    | sent hs hpc hn => exact .sent hs hpc hn

/-- **Calls that do not overlap send one close frame at most.** -/
theorem closes_le_one (h : Run step apart (start : State ι κ) t s) : closes t ≤ 1 := by
  have hstage : Stage s (closes t) :=
    h.invariant (P := fun t s => Stage s (closes t)) (.open rfl (fun _ => rfl) rfl)
      fun _ _ _ _ _ hs hg hstep => hs.step hg hstep
  cases hstage with
  | «open» _ _ hn => omega
  | tested _ _ _ _ hn => omega
  | stored _ _ _ _ hn => omega
  | sent _ _ hn => omega

theorem closes_le_one_twice :
    ∃ t s, Run step apart (start : State Bool Nat) t s ∧ closes t = 1 ∧ closes t ≤ 1 := by
  obtain ⟨t, s, h, -, hp⟩ := Run.exists_of_replay step apart (start : State Bool Nat)
    [.test true, .store true, .send true ⟨[0x88, 0x02, 3, 232], none⟩, .test false]
    (fun t _ => decide (closes t = 1)) (by decide)
  exact ⟨t, s, h, of_decide_eq_true hp, closes_le_one h⟩

/-- Anything may happen next. -/
def anyInput (_ : State ι κ) (_ : Trace ι κ) (_ : Input ι κ) : Prop := True

/-- A frame can always be sent. -/
theorem exists_send (frame : OutData κ) (q : SendQueue κ) : ∃ q', q.send frame = some q' := by
  unfold SendQueue.send SendQueue.sendFromQueue
  cases q.queue with
  | nil => exact ⟨_, rfl⟩
  | cons d rest =>
    rw [if_neg (by simp)]
    exact ⟨_, rfl⟩

/-- The first `k` calls have tested the flag before any of them sets it. -/
theorem exists_tested (k : ℕ) : ∃ t s, Run step anyInput (start : State ℕ κ) t s ∧ closes t = 0 ∧
    s.closeSent = false ∧ (∀ y < k, s.pc y = .tested) ∧ ∀ y, k ≤ y → s.pc y = .idle := by
  induction k with
  | zero => exact ⟨[], start, .start, rfl, rfl, nofun, fun _ _ => rfl⟩
  | succ k ih =>
    obtain ⟨t, s, h, hc, hflag, htested, hidle⟩ := ih
    have hstep : step s (.test k) =
        some ({ s with pc := Function.update s.pc k .tested }, .nothing) := by
      simp only [step, if_pos (hidle k le_rfl), hflag]
      rfl
    have hnext := h.next (i := .test k) trivial hstep
    refine ⟨_, _, hnext, ?_, hflag, ?_, ?_⟩
    · rw [closes_snoc, hc]
      rfl
    · intro y hy
      by_cases hyk : y = k
      · rw [hyk]
        exact Function.update_self ..
      · exact (Function.update_of_ne hyk ..).trans (htested y (by omega))
    · intro y hy
      exact (Function.update_of_ne (by omega) ..).trans (hidle y (by omega))

/-- **Calls that overlap all send their close frames**, however many they are. -/
theorem closes_of_overlap (frame : OutData κ) (n : ℕ) :
    ∃ t s, Run step anyInput (start : State ℕ κ) t s ∧ closes t = n := by
  have hsends : ∀ k ≤ n, ∃ t s, Run step anyInput (start : State ℕ κ) t s ∧ closes t = k ∧
      ∀ y, k ≤ y → y < n → s.pc y = .tested := by
    intro k
    induction k with
    | zero =>
      intro _
      obtain ⟨t, s, h, hc, -, htested, -⟩ := exists_tested (κ := κ) n
      exact ⟨t, s, h, hc, fun y _ hy => htested y hy⟩
    | succ k ih =>
      intro hk
      obtain ⟨t, s, h, hc, htested⟩ := ih (by omega)
      obtain ⟨q, hq⟩ := exists_send frame s.queue
      have hstore : step s (.store k) =
          some (⟨true, Function.update s.pc k .stored, s.queue⟩, .nothing) := by
        simp only [step, if_pos (htested k le_rfl (by omega))]
      have hsend : step ⟨true, Function.update s.pc k .stored, s.queue⟩ (.send k frame) =
          some (⟨true, Function.update (Function.update s.pc k .stored) k .idle, q⟩, .closed) := by
        have hpc : Function.update s.pc k Pc.stored k = .stored := Function.update_self ..
        simp only [step, if_pos hpc, hq]
        rfl
      have hnext := (h.next (i := .store k) trivial hstore).next (i := .send k frame) trivial hsend
      refine ⟨_, _, hnext, ?_, ?_⟩
      · rw [closes_snoc, closes_snoc, hc]
        rfl
      · intro y hky hy
        have hne : y ≠ k := by omega
        exact (Function.update_of_ne hne ..).trans
          ((Function.update_of_ne hne ..).trans (htested y (by omega) hy))
  obtain ⟨t, s, h, hc, -⟩ := hsends n le_rfl
  exact ⟨t, s, h, hc⟩

end SendClose

end CppFrame.SimpleWeb
