import CppFrame.Run
import Mathlib.Data.List.Basic
import Mathlib.Logic.Function.Basic

/-!
# The logger

`Logger` of `lib/jahan/file/logger.cpp`: `log` puts a message into one queue, `save` writes the
queue to one file per level. Both hold `m_queue_mutex`, so each is one step. What the disk does
during a `save` is an input (`Disk`): which files open, and which writes stop short.

Every message leaves the queue at its front with a `Fate`. Where writes succeed, the fates of all
messages logged, in order, are what the files and the queue hold (`log_kept`). What is lost where
they do not is in `Failures`.
-/

namespace CppFrame.File

/-! ## Data -/

/-- `Logger::LogLevel`. -/
inductive LogLevel
  | critical
  | error
  | warning
  | info
  | debug
  deriving DecidableEq

/-- The name that `log` gives a level, which is also the name of its file. -/
def LogLevel.name : LogLevel → String
  | .critical => "critical"
  | .error => "error"
  | .warning => "warning"
  | .info => "info"
  | .debug => "debug"

/-- `LogMessage`; the timestamp counts nanoseconds. -/
structure LogMessage where
  message : String
  level : String
  timestamp : Int
  deriving DecidableEq

/-- `std::chrono::minutes(1440)`. -/
def day : Int := 1440 * 60 * 1000000000

/-- The disk during one `save`: which files can be opened, and after how many characters a write
stops, for the rounds of the loop in which it does. -/
structure Disk where
  opens : String → Bool
  stops : Nat → Option Nat

/-- `m_log_queue`, and the contents of the files. -/
structure Logger where
  logQueue : List LogMessage
  files : String → String

/-- How a message left the queue: written to its file, written in part, or dropped. -/
inductive Fate
  | written
  | cut
  | dropped
  deriving DecidableEq

namespace Logger

/-- What a `save` returns and leaves, the messages it took from the queue, and how many of its opens
and writes failed. -/
structure Saved where
  ret : Bool
  logger : Logger
  removed : List (LogMessage × Fate)
  failures : Nat

/-- A call, at the time that the clock shows. -/
inductive Action
  | log (message : String) (level : LogLevel) (now : Int)
  | save (disk : Disk) (now : Int)

/-- What a call did: the message it queued, or what `save` returned and took from the queue. -/
inductive Event
  | logged (e : LogMessage)
  | saved (ret : Bool) (removed : List (LogMessage × Fate))
  deriving DecidableEq

/-- The members that stay as they are: `m_folder`, and how `std::put_time` writes a local time. -/
structure Setup where
  folder : String
  putTime : Int → String

variable (setup : Setup)

/-- The file of a level. -/
def Setup.path (level : String) : String := setup.folder ++ "/" ++ level

/-- What `save` writes for a message. -/
def Setup.line (e : LogMessage) : String := setup.putTime e.timestamp ++ " " ++ e.message ++ "\n"

/-! ## Functions -/

/-- The text of a round that reaches the file. Nothing does once a write to its stream has
failed. -/
def Disk.accepted (disk : Disk) (failed : Bool) (round : Nat) (text : String) : String :=
  if failed then "" else
    match disk.stops round with
    | none => text
    | some n => String.ofList (text.toList.take n)

/-- The streams that are open, each with its error state: whether a write to it has failed. -/
abbrev Streams := String → Option Bool

/-- The loop of `save`. A file that does not open ends it, and a message older than a day is dropped
then. A write that fails ends nothing: its message is popped like any other. -/
def saveLoop (disk : Disk) (now : Int) :
    Streams → Nat → List LogMessage → (String → String) → Saved
  | _, _, [], files => ⟨true, ⟨[], files⟩, [], 0⟩
  | f, round, e :: rest, files =>
    if (f e.level).isSome || disk.opens (setup.path e.level) then
      let line := setup.line e
      let text := Disk.accepted disk ((f e.level).getD false) round line
      let r := saveLoop disk now (Function.update f e.level (some (text ≠ line))) (round + 1) rest
        (Function.update files (setup.path e.level) (files (setup.path e.level) ++ text))
      { r with
        removed := (e, if text = line then .written else .cut) :: r.removed
        failures := r.failures + if text = line then 0 else 1 }
    else if now - day > e.timestamp then ⟨false, ⟨rest, files⟩, [(e, .dropped)], 1⟩
    else ⟨false, ⟨e :: rest, files⟩, [], 1⟩

/-- `log`. -/
def log (s : Logger) (message : String) (level : LogLevel) (now : Int) : Logger × LogMessage :=
  let e := ⟨message, level.name, now⟩
  ({ s with logQueue := s.logQueue ++ [e] }, e)

/-- `save`. -/
def save (s : Logger) (disk : Disk) (now : Int) : Saved :=
  saveLoop setup disk now (fun _ => none) 0 s.logQueue s.files

/-- One call. -/
def step (s : Logger) : Action → Option (Logger × Event)
  | .log message level now =>
    some ((s.log message level now).1, .logged (s.log message level now).2)
  | .save disk now =>
    let r := s.save setup disk now
    some (r.logger, .saved r.ret r.removed)

/-- An empty queue, over the files as they are. -/
def initial (files : String → String) : Logger := ⟨[], files⟩

/-! ## What became of the messages -/

/-- The calls made so far, with their events. -/
abbrev Trace := List (Action × Event)

/-- The messages logged, in order. -/
def logged (t : Trace) : List LogMessage :=
  t.filterMap fun x => match x.2 with | .logged e => some e | _ => none

/-- The messages that left the queue, in order, with their fates. -/
def removed (t : Trace) : List (LogMessage × Fate) :=
  t.flatMap fun x => match x.2 with | .saved _ removed => removed | _ => []

/-- The messages that left the queue and those still in it, with the fate of the former. -/
def fates (t : Trace) (s : Logger) : List (LogMessage × Option Fate) :=
  (removed t).map (fun x => (x.1, some x.2)) ++ s.logQueue.map fun e => (e, none)

/-- The messages written to the file of a level, in order. -/
def written (level : String) (rs : List (LogMessage × Fate)) : List LogMessage :=
  (rs.filter fun x => x.2 = .written ∧ x.1.level = level).map Prod.fst

/-- The messages of a level that are still queued. -/
def queued (level : String) (s : Logger) : List LogMessage :=
  s.logQueue.filter fun e => e.level = level

/-- The lines of some messages. -/
def Setup.lines (es : List LogMessage) : String := String.join (es.map setup.line)

/-- No write stops short. -/
def writesSucceed (_ : Logger) (_ : Trace) : Action → Prop
  | .save disk _ => ∀ round, disk.stops round = none
  | _ => True

theorem logged_append (t t' : Trace) : logged (t ++ t') = logged t ++ logged t' :=
  List.filterMap_append

theorem removed_append (t t' : Trace) : removed (t ++ t') = removed t ++ removed t' :=
  List.flatMap_append

theorem written_append (level : String) (rs rs' : List (LogMessage × Fate)) :
    written level (rs ++ rs') = written level rs ++ written level rs' := by
  rw [written, List.filter_append, List.map_append]
  rfl

variable {setup}

theorem path_inj {level level' : String} (h : setup.path level = setup.path level') :
    level = level' :=
  (String.append_right_inj _).1 h

theorem lines_cons (e : LogMessage) (es : List LogMessage) :
    setup.lines (e :: es) = setup.line e ++ setup.lines es := String.join_cons

theorem lines_append (es es' : List LogMessage) :
    setup.lines (es ++ es') = setup.lines es ++ setup.lines es' := by
  unfold Setup.lines
  rw [List.map_append, String.join_append]

theorem written_cons_self (e : LogMessage) (rs : List (LogMessage × Fate)) :
    written e.level ((e, .written) :: rs) = e :: written e.level rs := by
  simp [written]

theorem written_cons_ne {level : String} {x : LogMessage × Fate}
    (h : x.2 ≠ .written ∨ x.1.level ≠ level) (rs : List (LogMessage × Fate)) :
    written level (x :: rs) = written level rs := by
  unfold written
  rw [List.filter_cons_of_neg (by simp; tauto)]

/-- What the loop of a `save` whose writes succeed takes from the queue, and where it puts it. -/
structure Spec (setup : Setup) (disk : Disk) (now : Int) (queue : List LogMessage)
    (files : String → String) (r : Saved) : Prop where
  queue_eq : r.removed.map Prod.fst ++ r.logger.logQueue = queue
  dropped : ∀ e, (e, .dropped) ∈ r.removed →
    disk.opens (setup.path e.level) = false ∧ now - e.timestamp > day
  files_eq : ∀ level, r.logger.files (setup.path level) =
    files (setup.path level) ++ setup.lines (written level r.removed)
  not_cut : ∀ x ∈ r.removed, x.2 ≠ .cut
  ret_iff : r.ret = true ↔ r.removed = queue.map fun e => (e, .written)

theorem Spec.cons {disk : Disk} {now : Int} {e : LogMessage} {rest : List LogMessage}
    {files : String → String} {r : Saved}
    (h : Spec setup disk now rest
      (Function.update files (setup.path e.level) (files (setup.path e.level) ++ setup.line e)) r) :
    Spec setup disk now (e :: rest) files { r with removed := (e, .written) :: r.removed } where
  queue_eq := congrArg (e :: ·) h.queue_eq
  dropped e' he' := by
    rcases List.mem_cons.1 he' with he' | he'
    · cases he'
    · exact h.dropped e' he'
  files_eq level := by
    rw [h.files_eq level]
    by_cases hl : e.level = level
    · subst hl
      rw [Function.update_self, written_cons_self, lines_cons, String.append_assoc]
    · rw [Function.update_of_ne fun he => hl (path_inj he).symm, written_cons_ne (.inr hl)]
  not_cut x hx := by
    rcases List.mem_cons.1 hx with rfl | hx
    · exact Fate.noConfusion
    · exact h.not_cut x hx
  ret_iff := by
    rw [h.ret_iff, List.map_cons, List.cons_inj_right]

/-- No write to a stream has failed. -/
def Clean (f : Streams) : Prop := ∀ level, (f level).getD false = false

theorem Clean.update {f : Streams} (h : Clean f) (level : String) :
    Clean (Function.update f level (some false)) := by
  intro level'
  by_cases hl : level' = level
  · subst hl
    rw [Function.update_self]
    rfl
  · rw [Function.update_of_ne hl]
    exact h level'

/-- The round of a message whose write succeeds. -/
theorem saveLoop_written {disk : Disk} {now : Int} {f : Streams} {round : Nat} {e : LogMessage}
    {rest : List LogMessage} {files : String → String}
    (hopen : ((f e.level).isSome || disk.opens (setup.path e.level)) = true)
    (ht : Disk.accepted disk ((f e.level).getD false) round (setup.line e) = setup.line e) :
    saveLoop setup disk now f round (e :: rest) files =
      let r := saveLoop setup disk now (Function.update f e.level (some false)) (round + 1) rest
        (Function.update files (setup.path e.level) (files (setup.path e.level) ++ setup.line e))
      { r with removed := (e, .written) :: r.removed } := by
  rw [saveLoop, if_pos hopen]
  simp [ht]

theorem saveLoop_spec {disk : Disk} {now : Int} (hd : ∀ round, disk.stops round = none)
    {f : Streams} (hf : Clean f) (round : Nat) (queue : List LogMessage) (files : String → String) :
    Spec setup disk now queue files (saveLoop setup disk now f round queue files) := by
  induction queue generalizing f round files with
  | nil =>
    constructor
    · rfl
    · intro e he
      cases he
    · intro level
      exact (String.append_empty).symm
    · intro x hx
      cases hx
    · exact iff_of_true rfl rfl
  | cons e rest ih =>
    by_cases hopen : ((f e.level).isSome || disk.opens (setup.path e.level)) = true
    · have ht : Disk.accepted disk ((f e.level).getD false) round (setup.line e) =
          setup.line e := by
        rw [hf e.level, Disk.accepted, hd round]
        rfl
      rw [saveLoop_written hopen ht]
      exact (ih (hf.update e.level) (round + 1) _).cons
    · rw [saveLoop, if_neg hopen]
      have hclosed : disk.opens (setup.path e.level) = false := by
        rw [Bool.or_eq_true, not_or] at hopen
        exact Bool.eq_false_iff.2 hopen.2
      split_ifs with hold
      · constructor
        · rfl
        · intro e' he'
          cases List.mem_singleton.1 he'
          exact ⟨hclosed, by omega⟩
        · intro level
          rw [written_cons_ne (.inl (by simp))]
          exact (String.append_empty).symm
        · intro x hx
          rw [List.mem_singleton.1 hx]
          exact Fate.noConfusion
        · exact iff_of_false Bool.false_ne_true (by simp)
      · constructor
        · rfl
        · intro e' he'
          cases he'
        · intro level
          exact (String.append_empty).symm
        · intro x hx
          cases hx
        · exact iff_of_false Bool.false_ne_true (by simp)

/-- No stream is open yet. -/
theorem clean_none : Clean fun _ => none := fun _ => rfl

variable {files : String → String} {t : Trace} {s s' : Logger} {a : Action} {e : Event}

/-- What was logged is what left the queue and what is in it, and the files hold what was
written. -/
structure Kept (setup : Setup) (files : String → String) (t : Trace) (s : Logger) : Prop where
  order : (removed t).map Prod.fst ++ s.logQueue = logged t
  files_eq : ∀ level, s.files (setup.path level) =
    files (setup.path level) ++ setup.lines (written level (removed t))
  not_cut : ∀ x ∈ removed t, x.2 ≠ .cut

theorem Kept.step (hk : Kept setup files t s) (hg : writesSucceed s t a)
    (h : Logger.step setup s a = some (s', e)) : Kept setup files (t ++ [(a, e)]) s' := by
  cases a with
  | log message level now =>
    cases h
    have hrem : removed (t ++ [(.log message level now, .logged (s.log message level now).2)]) =
        removed t := by
      rw [removed_append]
      simp [removed]
    refine ⟨?_, fun level => ?_, hrem ▸ hk.not_cut⟩
    · rw [hrem, logged_append, ← hk.order]
      simp [logged, Logger.log]
    · rw [hrem]
      exact hk.files_eq level
  | save disk now =>
    cases h
    have hspec : Spec setup disk now s.logQueue s.files (s.save setup disk now) :=
      saveLoop_spec hg clean_none 0 s.logQueue s.files
    have hrem : removed (t ++ [(.save disk now,
        .saved (s.save setup disk now).ret (s.save setup disk now).removed)]) =
        removed t ++ (s.save setup disk now).removed := by
      rw [removed_append]
      simp [removed]
    refine ⟨?_, fun level => ?_, fun x hx => ?_⟩
    · rw [hrem, logged_append, ← hk.order, ← hspec.queue_eq, List.map_append]
      simp [logged]
    · rw [hrem, hspec.files_eq level, hk.files_eq level, written_append, lines_append,
        String.append_assoc]
    · rw [hrem] at hx
      exact (List.mem_append.1 hx).elim (hk.not_cut x) (hspec.not_cut x)

theorem kept_of_run (h : Run (Logger.step setup) writesSucceed (initial files) t s) :
    Kept setup files t s := by
  refine h.invariant (P := Kept setup files) ⟨rfl, fun level => ?_, fun x hx => by cases hx⟩
    fun _ _ _ _ _ ih hg hs => ih.step hg hs
  exact (String.append_empty).symm

theorem map_fst_fates (t : Trace) (s : Logger) :
    (fates t s).map Prod.fst = (removed t).map Prod.fst ++ s.logQueue := by
  simp [fates, Function.comp_def]

/-- Where nothing is cut, what was written and what is queued of a level is all that was not
dropped. -/
theorem written_append_queued (hw : ∀ x ∈ removed t, x.2 ≠ .cut) (level : String) :
    written level (removed t) ++ queued level s =
      ((fates t s).filter fun x => x.1.level = level ∧ x.2 ≠ some .dropped).map Prod.fst := by
  unfold fates written queued
  rw [List.filter_append, List.map_append, List.filter_map, List.filter_map,
    List.map_map, List.map_map]
  congr 1
  · refine congrArg (List.map Prod.fst) (List.filter_congr fun x hx => ?_)
    have hx := hw x hx
    rcases x with ⟨e, fate⟩
    cases fate with
    | written => simp
    | cut => exact absurd rfl hx
    | dropped => simp
  · simp [Function.comp_def]

/-- **The log keeps every message once and in order.** The fates of all messages logged, in order,
are those of the messages that left the queue followed by the queue; the file of each level has
grown by the messages written to it, which with the queued ones of that level are all that were not
dropped; a message is dropped only by a `save` that finds its file closed when it is more than a day
old; and `save` returns `true` exactly where it wrote all that was queued. -/
theorem log_kept (h : Run (Logger.step setup) writesSucceed (initial files) t s) (level : String) :
    (fates t s).map Prod.fst = logged t ∧
    s.files (setup.path level) = files (setup.path level) ++ setup.lines
      (written level (removed t)) ∧
    written level (removed t) ++ queued level s =
      ((fates t s).filter fun x => x.1.level = level ∧ x.2 ≠ some .dropped).map Prod.fst ∧
    ∀ t₁ disk now ret rs t₂, t = t₁ ++ (.save disk now, .saved ret rs) :: t₂ →
      (∀ e, (e, .dropped) ∈ rs → disk.opens (setup.path e.level) = false ∧
        now - e.timestamp > day) ∧
      ∃ s₁, Run (Logger.step setup) writesSucceed (initial files) t₁ s₁ ∧
        (ret = true ↔ rs = s₁.logQueue.map fun e => (e, .written)) := by
  have hk := kept_of_run h
  refine ⟨(map_fst_fates t s).trans hk.order, hk.files_eq level,
    written_append_queued hk.not_cut level, ?_⟩
  rintro t₁ disk now ret rs t₂ rfl
  obtain ⟨s₁, s₂, h₁, hg, hs, -⟩ := h.step_at
  have hspec : Spec setup disk now s₁.logQueue s₁.files (s₁.save setup disk now) :=
    saveLoop_spec hg clean_none 0 s₁.logQueue s₁.files
  cases hs
  exact ⟨hspec.dropped, s₁, h₁, hspec.ret_iff⟩

/-- Any call may come at any time. -/
def anyCall (_ : Logger) (_ : Trace) (_ : Action) : Prop := True

instance (s : Logger) (t : Trace) (a : Action) : Decidable (anyCall s t a) := by
  unfold anyCall; infer_instance

/-- Logs under `logs`, with one time of day. -/
def oneFolder : Setup := ⟨"logs", fun _ => "noon"⟩

/-- A message whose file stays closed for a day is dropped, the next one is written. -/
def twoMessages : List Action :=
  [.log "late" .error 0, .save ⟨fun _ => false, fun _ => none⟩ 0, .log "kept" .info 0,
    .save ⟨fun path => path = "logs/info", fun _ => none⟩ (day + 1),
    .save ⟨fun path => path = "logs/info", fun _ => none⟩ (day + 2)]

/-- The error message is the one that is not in a file. -/
theorem log_kept_twoMessages :
    ∃ t s, Run (Logger.step oneFolder) writesSucceed (initial fun _ => "") t s ∧
    removed t = [(⟨"late", "error", 0⟩, .dropped), (⟨"kept", "info", 0⟩, .written)] ∧
    s.files (oneFolder.path "info") = "" ++ oneFolder.lines (written "info" (removed t)) := by
  obtain ⟨t, s, h, hin, hp⟩ := Run.exists_of_replay (Logger.step oneFolder) anyCall
    (initial fun _ => "") twoMessages
    (fun t _ => decide (removed t =
      [(⟨"late", "error", 0⟩, .dropped), (⟨"kept", "info", 0⟩, .written)])) (by decide)
  have hrun : Run (Logger.step oneFolder) writesSucceed (initial fun _ => "") t s := by
    refine h.of_inputs fun a ha _ _ => ?_
    rw [hin] at ha
    simp only [twoMessages, List.mem_cons, List.not_mem_nil, or_false] at ha
    rcases ha with rfl | rfl | rfl | rfl | rfl
    · trivial
    · exact fun _ => rfl
    · trivial
    · exact fun _ => rfl
    · exact fun _ => rfl
  exact ⟨t, s, hrun, of_decide_eq_true hp, (log_kept hrun "info").2.1⟩

end Logger

end CppFrame.File
