import CppFrame.SimpleWeb.Delivery

/-!
# The queue of frames to be sent

`send`, `send_close` and `send_from_queue` of `Connection`, which `server_ws.hpp` and
`client_ws.hpp` share but for the mask. `send` may be called by any thread: it puts its frame at the
end of `send_queue` and starts a write where the queue was empty. When a write completes, its frame
leaves the queue and the next write starts; when one fails, the queue is cleared. The handler makes
its callbacks behind the lock of the queue, so those of two handlers may come in any order.

A step is what happens under one lock, one transfer to the socket, or one callback. From any order
of steps it follows that at most one write is outstanding, that the frames stand on the wire whole
and in the order of their sends (`wire_of_run`), and that every callback is made once, with the
result of its own frame (`callbacks_of_run`).
-/

namespace CppFrame.SimpleWeb

/-! ## The code -/

/-- `OutData`: the bytes of a frame, and the callback that came with it. -/
structure OutData (κ : Type) where
  bytes : List UInt8
  callback : Option κ

/-- The `send_queue` of a connection, the writes that are outstanding with the bytes still to be
transferred, what stands on the wire, and the callbacks that each handler is still to make. -/
structure SendQueue (κ : Type) where
  queue : List (OutData κ)
  writes : List (List UInt8)
  wire : List UInt8
  due : List (List (κ × Option ErrorCode))

namespace SendQueue

variable {κ : Type}

/-- What may happen next. `transfer i n` moves `n` bytes of a write to the wire; `stopped i` is a
write whose handler gets no lock from the `ScopeRunner`. -/
inductive Input (κ : Type)
  | send (d : OutData κ)
  | transfer (i n : Nat)
  | complete (i : Nat)
  | fail (i : Nat) (ec : ErrorCode)
  | stopped (i : Nat)
  | call (i : Nat)

/-- What a step did. -/
inductive Event (κ : Type)
  | nothing
  | written (d : OutData κ)
  | cleared (ds : List (OutData κ))
  | called (callback : κ) (ec : Option ErrorCode)

/-- `send_from_queue`: a write of the first frame. There is no result where the queue is empty. -/
def sendFromQueue (s : SendQueue κ) : Option (SendQueue κ) :=
  match s.queue with
  | [] => none
  | d :: _ => some { s with writes := s.writes ++ [d.bytes] }

/-- `send`, from its lock on. -/
def send (d : OutData κ) (s : SendQueue κ) : Option (SendQueue κ) :=
  let s := { s with queue := s.queue ++ [d] }
  if s.queue.length = 1 then s.sendFromQueue else some s

/-- The handler of a write that has completed. -/
def onWritten (i : Nat) (s : SendQueue κ) : Option (SendQueue κ × Event κ) :=
  match s.queue with
  | [] => none
  | d :: rest =>
    let s := ⟨rest, s.writes.eraseIdx i, s.wire, s.due ++
      [d.callback.toList.map fun c => (c, none)]⟩
    (if rest.length > 0 then s.sendFromQueue else some s).map fun s => (s, .written d)

/-- The handler of a write that has failed. -/
def onFailed (i : Nat) (ec : ErrorCode) (s : SendQueue κ) : SendQueue κ × Event κ :=
  (⟨[], s.writes.eraseIdx i, s.wire, s.due ++
    [(s.queue.filterMap OutData.callback).map fun c => (c, some ec)]⟩,
    .cleared s.queue)

/-- One step. -/
def step (s : SendQueue κ) : Input κ → Option (SendQueue κ × Event κ)
  | .send d => (s.send d).map fun s => (s, .nothing)
  | .transfer i n =>
    match s.writes[i]? with
    | some w =>
      some ({ s with writes := s.writes.set i (w.drop n), wire := s.wire ++ w.take n }, .nothing)
    | none => none
  | .complete i => if s.writes[i]? = some [] then s.onWritten i else none
  | .fail i ec => if i < s.writes.length then some (s.onFailed i ec) else none
  | .stopped i =>
    if i < s.writes.length then some ({ s with writes := s.writes.eraseIdx i }, .nothing) else none
  | .call i =>
    match s.due[i]? with
    | some ((c, ec) :: rest) => some ({ s with due := s.due.set i rest }, .called c ec)
    | _ => none

/-- A connection on which nothing has been sent. -/
def empty : SendQueue κ := ⟨[], [], [], []⟩

/-- What has happened on a connection. -/
abbrev Trace (κ : Type) := List (Input κ × Event κ)

/-- Anything may happen next. -/
def anyInput (_ : SendQueue κ) (_ : Trace κ) (_ : Input κ) : Prop := True

instance (s : SendQueue κ) (t : Trace κ) (i : Input κ) : Decidable (anyInput s t i) := by
  unfold anyInput; infer_instance

/-! ## What has been sent, written and told -/

/-- The frames of the calls of `send`, in their order. -/
def sent (t : Trace κ) : List (OutData κ) :=
  t.filterMap fun x => match x.1 with | .send d => some d | _ => none

/-- The frames that have been written. -/
def written (t : Trace κ) : List (OutData κ) :=
  t.filterMap fun x => match x.2 with | .written d => some d | _ => none

/-- The frames that have been given up. -/
def cleared (t : Trace κ) : List (OutData κ) :=
  t.flatMap fun x => match x.2 with | .cleared ds => ds | _ => []

/-- The callbacks that have been made. -/
def called (t : Trace κ) : List (κ × Option ErrorCode) :=
  t.filterMap fun x => match x.2 with | .called c ec => some (c, ec) | _ => none

section

variable (t : Trace κ) (x : Input κ × Event κ)

@[simp] theorem sent_snoc : sent (t ++ [x]) = sent t ++ sent [x] := List.filterMap_append

@[simp] theorem written_snoc : written (t ++ [x]) = written t ++ written [x] :=
  List.filterMap_append

@[simp] theorem called_snoc : called (t ++ [x]) = called t ++ called [x] := List.filterMap_append

end

/-! ## What a step can do -/

/-- **What a step can do.** -/
inductive Steps (s : SendQueue κ) : Input κ → SendQueue κ → Event κ → Prop
  | sendFirst (d : OutData κ) (hq : s.queue = []) :
      Steps s (.send d) ⟨[d], s.writes ++ [d.bytes], s.wire, s.due⟩ .nothing
  | send (d : OutData κ) (hq : s.queue ≠ []) : Steps s (.send d)
      { s with queue := s.queue ++ [d] } .nothing
  | transfer {i : Nat} (n : Nat) {w : List UInt8} (hw : s.writes[i]? = some w) :
      Steps s (.transfer i n)
      { s with writes := s.writes.set i (w.drop n), wire := s.wire ++ w.take n } .nothing
  | last {i : Nat} {d : OutData κ} (hw : s.writes[i]? = some []) (hq : s.queue = [d]) :
      Steps s (.complete i) ⟨[], s.writes.eraseIdx i, s.wire, s.due ++
      [d.callback.toList.map fun c => (c, none)]⟩
        (.written d)
  | next {i : Nat} {d e : OutData κ} {rest : List (OutData κ)} (hw : s.writes[i]? = some [])
      (hq : s.queue = d :: e :: rest) :
      Steps s (.complete i) ⟨e :: rest, s.writes.eraseIdx i ++ [e.bytes], s.wire,
        s.due ++ [d.callback.toList.map fun c => (c, none)]⟩ (.written d)
  | fail {i : Nat} (ec : ErrorCode) (hi : i < s.writes.length) :
      Steps s (.fail i ec) ⟨[], s.writes.eraseIdx i, s.wire,
        s.due ++ [(s.queue.filterMap OutData.callback).map fun c => (c, some ec)]⟩
        (.cleared s.queue)
  | stopped {i : Nat} (hi : i < s.writes.length) :
      Steps s (.stopped i) { s with writes := s.writes.eraseIdx i } .nothing
  | call {i : Nat} {c : κ} {ec : Option ErrorCode} {rest : List (κ × Option ErrorCode)}
      (hd : s.due[i]? = some ((c, ec) :: rest)) :
      Steps s (.call i) { s with due := s.due.set i rest } (.called c ec)

theorem step_cases {s s' : SendQueue κ} {i : Input κ} {e : Event κ} (h : step s i = some (s', e)) :
    Steps s i s' e := by
  cases i with
  | send d =>
    obtain ⟨s₁, hs, he⟩ := Option.map_eq_some_iff.1 h
    cases he
    unfold SendQueue.send at hs
    cases hq : s.queue with
    | nil =>
      simp only [hq, List.nil_append, List.length_singleton, if_true] at hs
      cases hs
      exact .sendFirst d hq
    | cons a l =>
      simp only [hq, List.length_append, List.length_cons] at hs
      rw [if_neg (by simp)] at hs
      cases hs
      rw [← hq]
      exact .send d (by rw [hq]; exact List.cons_ne_nil a l)
  | transfer i n =>
    simp only [step] at h
    split at h
    · rename_i w hw
      cases h
      exact .transfer n hw
    · cases h
  | complete i =>
    simp only [step, onWritten] at h
    split_ifs at h with hw
    split at h
    · cases h
    · rename_i d rest hq
      obtain ⟨s₁, hs, he⟩ := Option.map_eq_some_iff.1 h
      cases he
      cases rest with
      | nil =>
        cases hs
        exact .last hw hq
      | cons e rest =>
        cases hs
        exact .next hw hq
  | fail i ec =>
    simp only [step] at h
    split_ifs at h with hi
    cases h
    exact .fail ec hi
  | stopped i =>
    simp only [step] at h
    split_ifs at h with hi
    cases h
    exact .stopped hi
  | call i =>
    simp only [step] at h
    split at h
    · rename_i c ec rest hd
      cases h
      exact .call hd
    · cases h

/-! ## The order on the wire -/

/-- At most one write is outstanding, and it is of the first frame. -/
def Writing (s : SendQueue κ) : Prop :=
  s.writes = [] ∨ ∃ w d rest, s.writes = [w] ∧ s.queue = d :: rest ∧ w <:+ d.bytes

variable {s s' : SendQueue κ} {i : Input κ} {e : Event κ} {t : Trace κ}

theorem Writing.nil_of_queue (h : Writing s) (hq : s.queue = []) : s.writes = [] := by
  rcases h with h | ⟨w, d, rest, -, hq', -⟩
  · exact h
  · rw [hq] at hq'
    cases hq'

/-- The only write there can be. -/
theorem Writing.eq_of_getElem? (h : Writing s) {j : Nat} {w : List UInt8}
    (hw : s.writes[j]? = some w) :
    j = 0 ∧ ∃ d rest, s.writes = [w] ∧ s.queue = d :: rest ∧ w <:+ d.bytes := by
  rcases h with h | ⟨w', d, rest, hws, hq, hsuf⟩
  · rw [h] at hw
    cases hw
  · rw [hws, List.getElem?_singleton] at hw
    split_ifs at hw with hj
    cases hw
    exact ⟨hj, d, rest, hws, hq, hsuf⟩

theorem Writing.erase (h : Writing s) {j : Nat} (hj : j < s.writes.length) :
    s.writes.eraseIdx j = [] := by
  obtain ⟨rfl, d, rest, hws, -⟩ := h.eq_of_getElem? (List.getElem?_eq_getElem hj)
  rw [hws]
  rfl

theorem Steps.writing (hs : Steps s i s' e) (h : Writing s) : Writing s' := by
  cases hs with
  | sendFirst d hq =>
    exact .inr ⟨d.bytes, d, [], by rw [h.nil_of_queue hq]; rfl, rfl, List.suffix_rfl⟩
  | send d hq =>
    rcases h with h | ⟨w, d', rest, hws, hq', hsuf⟩
    · exact .inl h
    · exact .inr ⟨w, d', rest ++ [d], hws, by rw [hq']; rfl, hsuf⟩
  | transfer n hw =>
    obtain ⟨rfl, d, rest, hws, hq, hsuf⟩ := h.eq_of_getElem? hw
    exact .inr ⟨_, d, rest, by rw [hws]; rfl, hq, (List.drop_suffix ..).trans hsuf⟩
  | last hw hq => exact .inl (h.erase (List.getElem?_eq_some_iff.1 hw).1)
  | @next j d e rest hw hq =>
    refine .inr ⟨e.bytes, e, rest, ?_, rfl, List.suffix_rfl⟩
    rw [h.erase (List.getElem?_eq_some_iff.1 hw).1]
    rfl
  | fail ec hi => exact .inl (h.erase hi)
  | stopped hi => exact .inl (h.erase hi)
  | call hd => exact h

/-- The frames that have left the queue, in their order. -/
def removed (t : Trace κ) : List (OutData κ) :=
  t.flatMap fun x => match x.2 with | .written d => [d] | .cleared ds => ds | _ => []

@[simp] theorem removed_snoc (t : Trace κ) (x : Input κ × Event κ) :
    removed (t ++ [x]) = removed t ++ removed [x] :=
  List.flatMap_append

/-- Frames leave the queue in the order of their sends. -/
theorem Steps.sent (hs : Steps s i s' e) (h : sent t = removed t ++ s.queue) :
    SendQueue.sent (t ++ [(i, e)]) = removed (t ++ [(i, e)]) ++ s'.queue := by
  rw [sent_snoc, removed_snoc, h]
  cases hs with
  | sendFirst d hq => simp [SendQueue.sent, removed, hq]
  | send d hq => simp [SendQueue.sent, removed]
  | transfer n hw => simp [SendQueue.sent, removed]
  | last hw hq => simp [SendQueue.sent, removed, hq]
  | next hw hq => simp [SendQueue.sent, removed, hq]
  | fail ec hi => simp [SendQueue.sent, removed]
  | stopped hi => simp [SendQueue.sent, removed]
  | call hd => simp [SendQueue.sent, removed]

/-- No write has failed. -/
def Unfailed (t : Trace κ) : Prop := ∀ x ∈ t, ∀ ds, x.2 ≠ .cleared ds

theorem unfailed_nil : Unfailed ([] : Trace κ) := fun _ hx => absurd hx List.not_mem_nil

theorem unfailed_snoc {t : Trace κ} {x : Input κ × Event κ} :
    Unfailed (t ++ [x]) ↔ Unfailed t ∧ ∀ ds, x.2 ≠ .cleared ds := by
  unfold Unfailed
  rw [List.forall_mem_append, List.forall_mem_singleton]

/-- What stands on the wire: the frames that have been written, and a part of the first one in the
queue. -/
def OnWire (t : Trace κ) (s : SendQueue κ) : Prop :=
  ∃ p, s.wire = (written t).flatMap OutData.bytes ++ p ∧ (s.queue = [] → p = []) ∧
    (∀ d rest, s.queue = d :: rest → p <+: d.bytes ∧ ∀ w ∈ s.writes, d.bytes = p ++ w)

theorem Steps.onWire (hs : Steps s i s' e) (hw : Writing s) (hn : ∀ ds, e ≠ .cleared ds)
    (h : OnWire t s) :
    OnWire (t ++ [(i, e)]) s' := by
  obtain ⟨p, hwire, hnil, hcons⟩ := h
  unfold OnWire
  rw [written_snoc]
  cases hs with
  | sendFirst d hq =>
    obtain rfl := hnil hq
    refine ⟨[], by simpa [written] using hwire, nofun, ?_⟩
    rintro _ _ ⟨⟩
    refine ⟨List.nil_prefix, ?_⟩
    rw [hw.nil_of_queue hq]
    intro w hmem
    obtain rfl := List.mem_singleton.1 hmem
    rfl
  | send d hq =>
    refine ⟨p, by simpa [written] using hwire, by simp, ?_⟩
    intro d' rest hq'
    obtain ⟨d₀, l, hl⟩ := List.exists_cons_of_ne_nil hq
    rw [hl] at hq'
    cases hq'
    exact hcons d' l hl
  | transfer n hget =>
    obtain ⟨rfl, d, rest, hws, hq, hsuf⟩ := hw.eq_of_getElem? hget
    rename_i w
    have hbytes : d.bytes = p ++ w :=
      (hcons d rest hq).2 w (by rw [hws]; exact List.mem_singleton_self w)
    refine ⟨p ++ w.take n, by simp [written, hwire], ?_, ?_⟩
    · intro hq'
      rw [hq] at hq'
      cases hq'
    · intro d' rest' hq'
      rw [hq] at hq'
      cases hq'
      refine ⟨⟨w.drop n, by rw [List.append_assoc, List.take_append_drop, hbytes]⟩, ?_⟩
      rw [hws]
      intro w' hmem
      obtain rfl := List.mem_singleton.1 hmem
      rw [List.append_assoc, List.take_append_drop, hbytes]
  | last hget hq =>
    have hbytes := (hcons _ _ hq).2 [] (List.mem_of_getElem? hget)
    rw [List.append_nil] at hbytes
    exact ⟨[], by simp [written, hwire, hbytes], fun _ => rfl, nofun⟩
  | next hget hq =>
    have hbytes := (hcons _ _ hq).2 [] (List.mem_of_getElem? hget)
    rw [List.append_nil] at hbytes
    refine ⟨[], by simp [written, hwire, hbytes], nofun, ?_⟩
    rintro _ _ ⟨⟩
    refine ⟨List.nil_prefix, ?_⟩
    rw [hw.erase (List.getElem?_eq_some_iff.1 hget).1]
    intro w hmem
    obtain rfl := List.mem_singleton.1 hmem
    rfl
  | fail ec hi => exact absurd rfl (hn _)
  | stopped hi =>
    refine ⟨p, by simpa [written] using hwire, hnil, ?_⟩
    intro d rest hq
    refine ⟨(hcons d rest hq).1, ?_⟩
    rw [hw.erase hi]
    exact nofun
  | call hd => exact ⟨p, by simpa [written] using hwire, hnil, hcons⟩

variable {guard : SendQueue κ → Trace κ → Input κ → Prop}

theorem writing_of_run (h : Run step guard empty t s) : Writing s :=
  h.invariant (P := fun _ s => Writing s) (.inl rfl) fun _ _ _ _ _ hs _ hstep =>
    (step_cases hstep).writing hs

theorem sent_of_run (h : Run step guard empty t s) : sent t = removed t ++ s.queue :=
  h.invariant (P := fun t s => sent t = removed t ++ s.queue) rfl fun _ _ _ _ _ hs _ hstep =>
    (step_cases hstep).sent hs

theorem written_eq_removed (h : Unfailed t) : removed t = written t := by
  induction t using List.reverseRecOn with
  | nil => rfl
  | append_singleton t x ih =>
    obtain ⟨h, he⟩ := unfailed_snoc.1 h
    rw [removed_snoc, written_snoc, ih h]
    obtain ⟨i, e⟩ := x
    cases e with
    | nothing => rfl
    | written d => rfl
    | cleared ds => exact absurd rfl (he ds)
    | called c ec => rfl

theorem onWire_of_run (h : Run step guard empty t s) (hn : Unfailed t) : OnWire t s := by
  induction h with
  | start => exact ⟨[], rfl, fun _ => rfl, nofun⟩
  | next hr _ hs ih =>
    obtain ⟨hn, he⟩ := unfailed_snoc.1 hn
    exact (step_cases hs).onWire (writing_of_run hr) he (ih hn)

/-- A frame in the queue has its write, where every handler got its lock. -/
theorem writes_iff_of_run (h : Run step guard empty t s) (hrun : ∀ x ∈ t, ∀ j, x.1 ≠ .stopped j) :
    s.writes ≠ [] ↔ s.queue ≠ [] := by
  constructor
  · exact fun hw hq => hw ((writing_of_run h).nil_of_queue hq)
  · induction h with
    | start => exact fun hq => absurd rfl hq
    | @next t s i s' e hr _ hs ih =>
      have ih := ih fun x hx => hrun x (List.mem_append_left _ hx)
      cases step_cases hs with
      | sendFirst d hq => exact fun _ => List.append_ne_nil_of_right_ne_nil _ (List.cons_ne_nil _ _)
      | send d hq => exact fun _ => ih hq
      | transfer n hw =>
        intro hq hnil
        exact ih hq (List.length_eq_zero_iff.1
          (List.length_set.symm.trans (congrArg List.length hnil)))
      | last hw hq => exact fun hq' => absurd rfl hq'
      | next hw hq => exact fun _ => List.append_ne_nil_of_right_ne_nil _ (List.cons_ne_nil _ _)
      | fail ec hi => exact fun hq' => absurd rfl hq'
      | @stopped j hi =>
        exact absurd rfl (hrun (.stopped j, .nothing)
          (List.mem_append_right _ (List.mem_singleton_self _)) j)
      | call hd => exact ih

/-- As long as no write has failed, the wire carries a part of what was sent, and all of it when the
queue is empty. -/
theorem wire_of_unfailed (h : Run step guard empty t s) (hn : Unfailed t) :
    s.wire <+: (sent t).flatMap OutData.bytes ∧
      (s.queue = [] → s.wire = (sent t).flatMap OutData.bytes) := by
  obtain ⟨p, hwire, hnil, hcons⟩ := onWire_of_run h hn
  rw [sent_of_run h, written_eq_removed hn, List.flatMap_append, hwire]
  refine ⟨?_, fun hq => by rw [hq, hnil hq, List.flatMap_nil]⟩
  cases hq : s.queue with
  | nil => exact ⟨[], by rw [hnil hq, List.flatMap_nil, List.append_nil]⟩
  | cons d rest =>
    rw [List.flatMap_cons]
    exact (List.prefix_append_right_inj _).2 ((hcons d rest hq).1.trans (List.prefix_append ..))

/-- **The frames stand on the wire whole, and in the order of their sends.** Whatever the threads
that send and the handlers do, one write at most is outstanding, one is while the queue has a frame
and the handlers get their locks, its handler finds its frame, and frames leave the queue in their
order; as long as no write has failed, the wire carries the bytes of the frames sent from the first
one on, and all of them when the queue is empty. -/
theorem wire_of_run (h : Run step guard empty t s) :
    s.writes.length ≤ 1 ∧ ((∀ x ∈ t, ∀ j, x.1 ≠ .stopped j) → (s.writes ≠ [] ↔ s.queue ≠ [])) ∧
      (∀ j, s.writes[j]? = some [] → (step s (.complete j)).isSome = true) ∧
      sent t = removed t ++ s.queue ∧
      (Unfailed t → s.wire <+: (sent t).flatMap OutData.bytes ∧
        (s.queue = [] → s.wire = (sent t).flatMap OutData.bytes)) := by
  have hw := writing_of_run h
  refine ⟨?_, writes_iff_of_run h, ?_, sent_of_run h, wire_of_unfailed h⟩
  · rcases hw with hw | ⟨w, d, rest, hw, -⟩
    · simp [hw]
    · simp [hw]
  · intro j hj
    obtain ⟨-, d, rest, -, hq, -⟩ := hw.eq_of_getElem? hj
    simp only [step, if_pos hj, onWritten, hq, Option.isSome_map]
    cases rest with
    | nil => rfl
    | cons e rest => rfl

/-- Two threads send before the first frame is on the wire. -/
theorem wire_of_run_two :
    ∃ t s, Run step anyInput (empty : SendQueue Nat) t s ∧ s.wire = [1, 2, 3] ∧
    s.wire <+: (sent t).flatMap OutData.bytes := by
  obtain ⟨t, s, h, -, hp⟩ := Run.exists_of_replay step anyInput (empty : SendQueue Nat)
    [.send ⟨[1, 2], some 7⟩, .send ⟨[3, 4], none⟩, .transfer 0 1, .transfer 0 1,
    .complete 0, .transfer 0 1]
    (fun t s => decide (s.wire = [1, 2, 3]) &&
    (t.all fun x => match x.2 with | .cleared _ => false | _ => true))
    (by decide)
  obtain ⟨hwire, hall⟩ := Bool.and_eq_true_iff.1 hp
  have hn : Unfailed t := by
    intro x hx ds he
    have := List.all_eq_true.1 hall x hx
    rw [he] at this
    cases this
  exact ⟨t, s, h, of_decide_eq_true hwire, ((wire_of_run h).2.2.2.2 hn).1⟩

/-! ## The callbacks -/

/-- What the callbacks of the frames that have left the queue are to be told. -/
def outcomes (t : Trace κ) : List (κ × Option ErrorCode) :=
  t.flatMap fun x =>
    match x.2, x.1 with
    | .written d, _ => d.callback.toList.map fun c => (c, none)
    | .cleared ds, .fail _ ec => (ds.filterMap OutData.callback).map fun c => (c, some ec)
    | _, _ => []

@[simp] theorem outcomes_snoc (t : Trace κ) (x : Input κ × Event κ) :
    outcomes (t ++ [x]) = outcomes t ++ outcomes [x] := List.flatMap_append

theorem perm_flatten_set {α : Type} {l : List (List α)} {j : Nat} {a : α} {r : List α}
    (h : l[j]? = some (a :: r)) :
    l.flatten.Perm (a :: (l.set j r).flatten) := by
  induction l generalizing j with
  | nil => cases h
  | cons b l ih =>
    cases j with
    | zero =>
      cases h
      exact .refl _
    | succ j =>
      rw [List.set_cons_succ, List.flatten_cons, List.flatten_cons]
      exact ((ih h).append_left b).trans List.perm_middle

/-- Each step makes or owes the callbacks of the frames that it removes. -/
theorem Steps.told (hs : Steps s i s' e) (h : (called t ++ s.due.flatten).Perm (outcomes t)) :
    (called (t ++ [(i, e)]) ++ s'.due.flatten).Perm (outcomes (t ++ [(i, e)])) := by
  rw [called_snoc, outcomes_snoc]
  have hkeep : (called t ++ [] ++ s.due.flatten).Perm (outcomes t ++ []) := by
    rwa [List.append_nil, List.append_nil]
  have hmore : ∀ l : List (κ × Option ErrorCode),
      (called t ++ [] ++ (s.due ++ [l]).flatten).Perm (outcomes t ++ l) := by
    intro l
    rw [List.append_nil, List.flatten_append, List.flatten_singleton, ← List.append_assoc]
    exact h.append_right l
  cases hs with
  | sendFirst d hq => exact hkeep
  | send d hq => exact hkeep
  | transfer n hw => exact hkeep
  | stopped hi => exact hkeep
  | last hw hq => simpa [called, outcomes] using hmore _
  | next hw hq => simpa [called, outcomes] using hmore _
  | fail ec hi => simpa [called, outcomes] using hmore _
  | @call j c ec rest hd =>
    show (called t ++ [(c, ec)] ++ _).Perm (outcomes t ++ [])
    rw [List.append_nil, List.append_assoc]
    exact (((perm_flatten_set hd).append_left (called t)).symm).trans h

theorem callbacks_outcomes (h : Run step guard empty t s) :
    (outcomes t).map Prod.fst = (removed t).filterMap OutData.callback := by
  induction h with
  | start => rfl
  | @next t s i s' e _ _ hs ih =>
    rw [outcomes_snoc, removed_snoc, List.map_append, List.filterMap_append, ih]
    congr 1
    have hmap : ∀ (l : List κ) (ec : Option ErrorCode),
        (l.map fun c => (c, ec)).map Prod.fst = l := by
      intro l ec
      rw [List.map_map]
      exact List.map_id l
    cases step_cases hs with
    | sendFirst d hq => rfl
    | send d hq => rfl
    | transfer n hw => rfl
    | stopped hi => rfl
    | call hd => rfl
    | @last _ d hw hq => cases hd : d.callback <;> simp [outcomes, removed, hd]
    | @next _ d _ _ hw hq => cases hd : d.callback <;> simp [outcomes, removed, hd]
    | fail ec hi =>
      simp only [outcomes, removed, List.flatMap_cons, List.flatMap_nil, List.append_nil]
      exact hmap _ _

theorem written_of_outcome {c : κ} (h : (c, none) ∈ outcomes t) :
    ∃ d ∈ written t, d.callback = some c := by
  obtain ⟨⟨i, e⟩, hx, hc⟩ := List.mem_flatMap.1 h
  cases e with
  | nothing => cases hc
  | called c ec => cases hc
  | written d =>
    obtain ⟨c', hc', he⟩ := List.mem_map.1 hc
    cases he
    exact ⟨d, List.mem_filterMap.2 ⟨_, hx, rfl⟩, Option.mem_toList.1 hc'⟩
  | cleared ds =>
    cases i with
    | fail j ec =>
      obtain ⟨c', hc', he⟩ := List.mem_map.1 hc
      cases he
    | _ => cases hc

/-- **Every callback is made once.** The callbacks of the frames sent are those that have been made,
those that the handlers are still to make and those in the queue; one that is told of no error came
with a frame that has been written. -/
theorem callbacks_of_run (h : Run step guard empty t s) :
    ((called t ++ s.due.flatten).map Prod.fst ++ s.queue.filterMap OutData.callback).Perm
        ((sent t).filterMap OutData.callback) ∧
      ∀ c, (c, none) ∈ called t → ∃ d ∈ written t, d.callback = some c := by
  have hperm : (called t ++ s.due.flatten).Perm (outcomes t) :=
    h.invariant (P := fun t s => (called t ++ s.due.flatten).Perm (outcomes t)) (.refl _)
      fun _ _ _ _ _ hs _ hstep => (step_cases hstep).told hs
  constructor
  · rw [sent_of_run h, List.filterMap_append, ← callbacks_outcomes h]
    exact (hperm.map Prod.fst).append_right _
  · exact fun c hc => written_of_outcome (hperm.mem_iff.1 (List.mem_append_left _ hc))

/-- The first of two frames is written, the second one fails. -/
theorem callbacks_of_run_failed : ∃ t s, Run step anyInput (empty : SendQueue Nat) t s ∧
    called t = [(8, some (.socket "broken pipe")), (7, none)] ∧
      ((called t ++ s.due.flatten).map Prod.fst ++ s.queue.filterMap OutData.callback).Perm
        ((sent t).filterMap OutData.callback) := by
  obtain ⟨t, s, h, -, hp⟩ := Run.exists_of_replay step anyInput (empty : SendQueue Nat)
    [.send ⟨[1, 2], some 7⟩, .send ⟨[3, 4], some 8⟩, .transfer 0 2, .complete 0,
    .fail 0 (.socket "broken pipe"),
      .call 1, .call 0]
    (fun t _ => decide (called t = [(8, some (.socket "broken pipe")), (7, none)])) (by decide)
  exact ⟨t, s, h, of_decide_eq_true hp, (callbacks_of_run h).1⟩

end SendQueue

end CppFrame.SimpleWeb
