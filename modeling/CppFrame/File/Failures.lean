import CppFrame.File.Logger
import Mathlib.Data.List.TakeDrop

/-!
# Failures of the disk

What a `save` loses when the disk fails under it. `save` looks at the result of every open: it
returns `false` and keeps the message. It looks at no stream after writing to it: the message is
popped, in its file or not, and `true` is returned. So nothing is lost exactly where no write stops
short (`losesNothing_iff`).
-/

namespace CppFrame.File

namespace Logger

/-- A message that may leave the queue: it was written to its file, or its file did not open and it
was more than a day old. -/
def Accounted (setup : Setup) (disk : Disk) (now : Int) (x : LogMessage × Fate) : Prop :=
  x.2 = .written ∨ x.2 = .dropped ∧ disk.opens (setup.path x.1.level) = false ∧
    now - x.1.timestamp > day

/-- A `save` that takes accounted messages only, and says so where an open or a write failed. -/
structure LosesNothing (setup : Setup) (disk : Disk) (now : Int) (r : Saved) : Prop where
  accounted : ∀ x ∈ r.removed, Accounted setup disk now x
  ret_false : r.failures ≠ 0 → r.ret = false

/-- No write stops short: of the messages before the first one whose file does not open, each fits
into what the disk takes in its round. -/
def WritesFit (setup : Setup) (disk : Disk) (round : Nat) (queue : List LogMessage) : Prop :=
  ∀ i e, (queue.takeWhile fun e => disk.opens (setup.path e.level))[i]? = some e →
    ∀ n, disk.stops (round + i) = some n → (setup.line e).length ≤ n

variable {setup : Setup} {disk : Disk} {now : Int} {f : Streams} {round : Nat} {e : LogMessage}
  {rest queue : List LogMessage} {files : String → String} {r : Saved}

/-! ## One round -/

/-- A write succeeds where the disk takes the whole text. -/
theorem accepted_eq_iff (text : String) : Disk.accepted disk false round text = text ↔
    ∀ n, disk.stops round = some n → text.length ≤ n := by
  unfold Disk.accepted
  rw [if_neg Bool.false_ne_true]
  cases hs : disk.stops round with
  | none => simp
  | some n =>
    simp only [Option.some.injEq, forall_eq']
    rw [String.ext_iff, String.toList_ofList, List.take_eq_self_iff, String.length_toList]

/-- The round of a message whose write fails. -/
theorem saveLoop_cut (hopen : ((f e.level).isSome || disk.opens (setup.path e.level)) = true)
    (ht : Disk.accepted disk ((f e.level).getD false) round (setup.line e) ≠ setup.line e) :
    (e, .cut) ∈ (saveLoop setup disk now f round (e :: rest) files).removed := by
  rw [saveLoop, if_pos hopen]
  simp only [if_neg ht]
  exact List.mem_cons_self

theorem not_accounted_cut : ¬ Accounted setup disk now (e, .cut) := by
  rintro (h | h)
  · cases h
  · cases h.1

theorem losesNothing_cons :
    LosesNothing setup disk now { r with removed := (e, .written) :: r.removed } ↔
    LosesNothing setup disk now r := by
  constructor
  · intro h
    exact ⟨fun x hx => h.accounted x (List.mem_cons_of_mem _ hx), h.ret_false⟩
  · intro h
    refine ⟨fun x hx => ?_, h.ret_false⟩
    rcases List.mem_cons.1 hx with rfl | hx
    · exact .inl rfl
    · exact h.accounted x hx

theorem writesFit_cons (ho : disk.opens (setup.path e.level) = true) :
    WritesFit setup disk round (e :: rest) ↔
      (∀ n, disk.stops round = some n → (setup.line e).length ≤ n) ∧
        WritesFit setup disk (round + 1) rest := by
  have hw : (e :: rest).takeWhile (fun e => disk.opens (setup.path e.level)) =
      e :: rest.takeWhile fun e => disk.opens (setup.path e.level) := List.takeWhile_cons_of_pos ho
  unfold WritesFit
  rw [hw]
  constructor
  · intro h
    refine ⟨h 0 e rfl, fun i e' hi n hn => h (i + 1) e' hi n ?_⟩
    rw [← hn]
    congr 1
    omega
  · rintro ⟨hhead, htail⟩ i e' hi n hn
    cases i with
    | zero =>
      cases hi
      exact hhead n hn
    | succ i =>
      refine htail i e' hi n ?_
      rw [← hn]
      congr 1
      omega

theorem writesFit_of_closed (ho : disk.opens (setup.path e.level) = false) :
    WritesFit setup disk round (e :: rest) := by
  intro i e' hi
  rw [List.takeWhile_cons, ho] at hi
  cases hi

/-! ## The files -/

theorem prefix_accepted (disk : Disk) (failed : Bool) (round : Nat) (text : String) :
    (Disk.accepted disk failed round text).toList <+: text.toList := by
  unfold Disk.accepted
  split_ifs
  · exact List.nil_prefix
  · cases disk.stops round with
    | none => exact List.prefix_refl _
    | some n =>
      rw [String.toList_ofList]
      exact List.take_prefix n text.toList

/-- What stands in a file for a message that left the queue: all of its line, or a part of it. -/
def StandsFor (setup : Setup) (x : LogMessage × Fate) (text : String) : Prop :=
  text.toList <+: (setup.line x.1).toList ∧ (x.2 = .written ↔ text = setup.line x.1)

/-- The messages of a level that left the queue through its file. -/
def sent (level : String) (rs : List (LogMessage × Fate)) : List (LogMessage × Fate) :=
  rs.filter fun x => x.1.level = level ∧ x.2 ≠ .dropped

/-- The fate of a message says whether all of its text is in the file. -/
theorem standsFor_write {text : String} (h : text.toList <+: (setup.line e).toList) :
    StandsFor setup (e, if text = setup.line e then .written else .cut) text := by
  refine ⟨h, ?_⟩
  by_cases ht : text = setup.line e
  · exact iff_of_true (if_pos ht) ht
  · refine iff_of_false (fun hw => ?_) ht
    rw [if_neg ht] at hw
    cases hw

theorem write_ne_dropped (p : Prop) [Decidable p] :
    (if p then Fate.written else .cut) ≠ .dropped := by
  split_ifs
  · exact Fate.noConfusion
  · exact Fate.noConfusion

theorem sent_cons_self {x : LogMessage × Fate} {rs : List (LogMessage × Fate)}
    (h : x.2 ≠ .dropped) :
    sent x.1.level (x :: rs) = x :: sent x.1.level rs := by
  simp [sent, h]

theorem sent_cons_ne {level : String} {x : LogMessage × Fate} {rs : List (LogMessage × Fate)}
    (h : x.1.level ≠ level ∨ x.2 = .dropped) : sent level (x :: rs) = sent level rs := by
  unfold sent
  rw [List.filter_cons_of_neg (by simp; tauto)]

/-- What a `save` adds to a file: for each message of the level that it took, in order, the part of
its line that was written. -/
theorem saveLoop_files (level : String) : ∃ texts,
    List.Forall₂ (StandsFor setup)
      (sent level (saveLoop setup disk now f round queue files).removed) texts ∧
    (saveLoop setup disk now f round queue files).logger.files (setup.path level) =
      files (setup.path level) ++ String.join texts := by
  induction queue generalizing f round files with
  | nil => exact ⟨[], .nil, String.append_empty.symm⟩
  | cons e rest ih =>
    rw [saveLoop]
    split_ifs with hopen hold
    · let text := Disk.accepted disk ((f e.level).getD false) round (setup.line e)
      let x : LogMessage × Fate := (e, if text = setup.line e then .written else .cut)
      have hx : x.2 ≠ .dropped := write_ne_dropped _
      obtain ⟨texts, hts, hfiles⟩ :=
        @ih (Function.update f e.level (some (text ≠ setup.line e))) (round + 1)
        (Function.update files (setup.path e.level) (files (setup.path e.level) ++ text))
      by_cases hl : e.level = level
      · subst hl
        have hstands : StandsFor setup x text := standsFor_write (prefix_accepted _ _ _ _)
        refine ⟨text :: texts, ?_, ?_⟩
        · exact (sent_cons_self hx).symm ▸ List.Forall₂.cons hstands hts
        · rw [hfiles, Function.update_self, String.join_cons, String.append_assoc]
      · refine ⟨texts, ?_, ?_⟩
        · exact (sent_cons_ne (x := x) (.inl hl)).symm ▸ hts
        · rw [hfiles, Function.update_of_ne fun he => hl (path_inj he).symm]
    · rw [sent_cons_ne (.inr rfl)]
      exact ⟨[], .nil, String.append_empty.symm⟩
    · exact ⟨[], .nil, String.append_empty.symm⟩

/-! ## The loop -/

/-- Every stream is of a file that opens. -/
def Opened (setup : Setup) (disk : Disk) (f : Streams) : Prop :=
  ∀ level, (f level).isSome = true → disk.opens (setup.path level) = true

theorem Opened.update (h : Opened setup disk f) {level : String}
    (hl : disk.opens (setup.path level) = true) (failed : Bool) :
    Opened setup disk (Function.update f level (some failed)) := by
  intro level' hl'
  by_cases he : level' = level
  · rw [he]
    exact hl
  · rw [Function.update_of_ne he] at hl'
    exact h level' hl'

theorem saveLoop_losesNothing_iff (hf : Clean f) (ho : Opened setup disk f) :
    LosesNothing setup disk now (saveLoop setup disk now f round queue files) ↔
      WritesFit setup disk round queue := by
  induction queue generalizing f round files with
  | nil =>
    refine iff_of_true ⟨fun x hx => (List.not_mem_nil hx).elim, fun h =>
      absurd rfl h⟩ fun i e hi => ?_
    cases hi
  | cons e rest ih =>
    cases hopen : disk.opens (setup.path e.level) with
    | true =>
      have hopens : ((f e.level).isSome || disk.opens (setup.path e.level)) = true := by
        rw [hopen, Bool.or_true]
      rw [writesFit_cons hopen, ← accepted_eq_iff]
      by_cases ht : Disk.accepted disk false round (setup.line e) = setup.line e
      · rw [saveLoop_written hopens (by rw [hf e.level]; exact ht), losesNothing_cons,
          ih (hf.update e.level) (ho.update hopen false)]
        exact (and_iff_right ht).symm
      · refine iff_of_false (fun h => ?_) fun h => ht h.1
        exact not_accounted_cut (h.accounted _ (saveLoop_cut hopens (by rw [hf e.level]; exact ht)))
    | false =>
      have hclosed : ¬ ((f e.level).isSome || disk.opens (setup.path e.level)) = true := by
        rw [hopen, Bool.or_false]
        intro h
        rw [ho e.level h] at hopen
        cases hopen
      refine iff_of_true ?_ (writesFit_of_closed hopen)
      rw [saveLoop, if_neg hclosed]
      split_ifs with hold
      · refine ⟨fun x hx => ?_, fun _ => rfl⟩
        cases List.mem_singleton.1 hx
        have hday : now - e.timestamp > day := by omega
        exact .inr ⟨rfl, hopen, hday⟩
      · exact ⟨fun x hx => (List.not_mem_nil hx).elim, fun _ => rfl⟩

/-- **A `save` loses nothing** exactly where no write stops short. -/
theorem losesNothing_iff (setup : Setup) (disk : Disk) (now : Int) (s : Logger) :
    LosesNothing setup disk now (s.save setup disk now) ↔ WritesFit setup disk 0 s.logQueue :=
  saveLoop_losesNothing_iff clean_none fun _ h => by cases h

/-- A disk that is full after three characters: the first message is cut, the second not written at
all. -/
theorem message_lost :
    ¬ LosesNothing oneFolder ⟨fun _ => true, fun n => if n = 0 then some 3 else none⟩ 0
    (Logger.save oneFolder ⟨[⟨"late", "error", 0⟩, ⟨"kept", "error", 0⟩], fun _ => ""⟩
      ⟨fun _ => true, fun n => if n = 0 then some 3 else none⟩ 0) := by
  intro h
  exact not_accounted_cut (h.accounted (⟨"kept", "error", 0⟩, .cut) (by decide))

end Logger

end CppFrame.File
