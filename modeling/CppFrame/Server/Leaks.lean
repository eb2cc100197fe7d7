import CppFrame.Server.Pooled

/-!
# Entries that outlive their connection

Under the pool the entry of a connection is made by its `on_open` task, or by a message where no
authenticator is set, and removed by its `on_close` task, or by `on_error`, which does not wait for
the queue. Where nothing that makes an entry is still queued when the connection ends (`endsLast`),
every entry stands for a connection that is open or has its close queued (`Guarded`), so that no
entry is left when the queue is empty (`no_entry_left`).
-/

namespace CppFrame.Server

open UMap

/-! ## The condition -/

/-- A callback that ends its connection. -/
def Callback.ends : Callback → Bool
  | .onClose _ => true
  | .onError _ _ => true
  | _ => false

/-- A task that makes an entry where there is none. -/
def Inserts (weh : WssEndpointHandler) : Callback → Prop
  | .onOpen con => con.channel ≠ ""
  | .onMessage con msg => weh.authenticator = false ∧ Considered con msg
  | _ => False

/-- The callbacks of each connection come in order. -/
def inOrder (t : PoolTrace) : PoolInput → Prop
  | .callback cb _ => Ordered (made t) cb
  | .execute _ _ => True

/-- The callbacks come in order, and when the end of a connection is handled nothing that makes an
entry is queued for it. -/
def endsLast (weh : WssEndpointHandler) (s : Pooled) (t : PoolTrace) (i : PoolInput) : Prop :=
  inOrder t i ∧ ∀ cb ∈ weh.next s i, cb.ends = true → ∀ cb' ∈ s.tasks, cb'.con =
    cb.con → ¬ Inserts weh cb'

/-! ## Entries and their guardians -/

/-- The connection is open, or its close is queued. -/
def Remains (d : Connection) (t : PoolTrace) (s : Pooled) : Prop :=
  phase d (made t) = .opened ∨ .onClose d ∈ s.tasks

/-- Every entry, and every task that makes one, has a connection that remains. -/
structure Guarded (weh : WssEndpointHandler) (t : PoolTrace) (s : Pooled) : Prop where
  nameless : NoNameless s.clients
  entries : ∀ ch k e, (s.clients.get ch).lookup k = some e →
    ∃ d, d.channel = ch ∧ d.clientKey = k ∧ Remains d t s
  pending : ∀ cb ∈ s.tasks, Inserts weh cb → Remains cb.con t s
  ended : ∀ cb ∈ made t, cb.ends = true → phase cb.con (made t) = .closed

variable {weh : WssEndpointHandler} {it : Iteration} {s s' : Pooled} {t t' : PoolTrace}
  {i : PoolInput} {o : Served} {cb : Callback} {ev : List Event} {env : Env} {m m' : Clients}

theorem guarded_start : Guarded weh [] Pooled.start where
  nameless _ := rfl
  entries ch k e h := by cases h
  pending cb h := by cases h
  ended cb h := by cases h

/-- The entries after a callback that leaves the other connections where they are. -/
theorem Effect.guarded (he : Effect weh env s.clients cb s'.clients ev) (hg : Guarded weh t s)
    (hrem : ∀ d, Remains d t s → ¬ (cb.ends = true ∧ cb.con = d) → Remains d t' s')
    (hins : Inserts weh cb → Remains cb.con t' s') :
    ∀ ch k e, (s'.clients.get ch).lookup k = some e → ∃ d, d.channel = ch ∧ d.clientKey = k ∧
      Remains d t' s' := by
  intro ch k e hk
  cases he.lookup_cases hk with
  | kept hk hcb =>
    obtain ⟨d, rfl, rfl, hd⟩ := hg.entries ch k e hk
    refine ⟨d, rfl, rfl, hrem d hd ?_⟩
    rintro ⟨hends, rfl⟩
    rcases hcb with ⟨msg, hmsg⟩ | hch | hne
    · rw [hmsg] at hends
      cases hends
    · rw [hch, hg.nameless] at hk
      cases hk
    · exact hne ⟨rfl, rfl⟩
  | @opened con hch hkey hc =>
    exact ⟨con, hch, hkey, hins (show con.channel ≠ "" by rw [hch]; exact hc)⟩
  | @accepted con msg hch hkey hc ha hn hev hgone =>
    -- a client that is accepted and kept had a connection, so its entry is not new
    obtain ⟨d, hd⟩ : ∃ d, ((s.clients.get ch).get k).connection = some d := by
      cases hcon : ((s.clients.get ch).get k).connection with
      | none => simp [goneInPresence, SocketClient.accepted, SocketClient.lock, hcon] at hgone
      | some d => exact ⟨d, rfl⟩
    obtain ⟨d, h₁, h₂, hd⟩ := hg.entries ch k _ (lookup_of_connection hd)
    exact ⟨d, h₁, h₂, hrem d hd fun h => Bool.false_ne_true h.1⟩
  | @created con msg hch hkey hc hauth => exact ⟨con, hch, hkey, hins ⟨hauth, hc⟩⟩

/-- The phases of the connections that ended stay closed. -/
theorem ended_snoc {h : List Callback} (hord : Ordered h cb)
    (hended : ∀ cb' ∈ h, cb'.ends = true → phase cb'.con h = .closed) :
    ∀ cb' ∈ h ++ [cb], cb'.ends = true → phase cb'.con (h ++ [cb]) = .closed := by
  intro cb' hcb' hends
  rcases List.mem_append.1 hcb' with hcb' | hcb'
  · have hclosed := hended cb' hcb' hends
    have hne : cb.con ≠ cb'.con := by
      intro he
      rw [← he] at hclosed
      cases cb with
      | onMessage con msg =>
        rw [show phase (Callback.onMessage con msg).con h = .opened from hord] at hclosed
        cases hclosed
      | onOpen con =>
        rw [show phase (Callback.onOpen con).con h = .fresh from hord] at hclosed
        cases hclosed
      | onClose con =>
        rw [show phase (Callback.onClose con).con h = .opened from hord] at hclosed
        cases hclosed
      | onError con ec => exact hord hclosed
    rw [phase_snoc_ne hne, hclosed]
  · rw [List.mem_singleton.1 hcb'] at hends ⊢
    rw [phase_snoc_self]
    cases cb with
    | onMessage con msg => cases hends
    | onOpen con => cases hends
    | onClose con => rfl
    | onError con ec => rfl

/-- A connection that is open stays so until its end. -/
theorem opened_snoc {h : List Callback} {d : Connection} (ho : phase d h = .opened)
    (hno : ¬ (cb.ends = true ∧ cb.con = d)) : phase d (h ++ [cb]) = .opened := by
  by_cases hc : cb.con = d
  · subst hc
    rw [phase_snoc_self]
    cases cb with
    | onMessage con msg => exact ho
    | onOpen con => rfl
    | onClose con => exact absurd ⟨rfl, rfl⟩ hno
    | onError con ec => exact absurd ⟨rfl, rfl⟩ hno
  · rw [phase_snoc_ne hc, ho]

/-- The connection of a callback that makes an entry is open. -/
theorem opened_of_inserts {h : List Callback} (hord : Ordered h cb) (hins : Inserts weh cb) :
    phase cb.con (h ++ [cb]) = .opened := by
  rw [phase_snoc_self]
  cases cb with
  | onMessage con msg => exact hord
  | onOpen con => rfl
  | onClose con => exact hins.elim
  | onError con ec => exact hins.elim

theorem ends_of_inserts (hins : Inserts weh cb) : cb.ends = false := by
  cases cb with
  | onMessage con msg => rfl
  | onOpen con => rfl
  | onClose con => exact hins.elim
  | onError con ec => exact hins.elim

/-- A callback that is queued leaves every connection that remains: its end, if it is one, is
queued. -/
theorem Remains.queued {d : Connection} (hd : Remains d t s) (hq : weh.queues cb = true) :
    Remains d (t ++ [(.callback cb env, none)]) { s with tasks := s.tasks ++ [cb] } := by
  unfold Remains at hd ⊢
  rw [made_callback]
  rcases hd with ho | hm
  · by_cases hend : cb.ends = true ∧ cb.con = d
    · obtain ⟨hends, rfl⟩ := hend
      refine .inr (List.mem_append_right _ (List.mem_singleton.2 ?_))
      cases cb with
      | onMessage con msg => cases hends
      | onOpen con => cases hends
      | onClose con => rfl
      | onError con ec => cases hq
    · exact .inl (opened_snoc ho hend)
  · exact .inr (List.mem_append_left _ hm)

/-- A callback that is handled at once leaves the connections that it does not end. -/
theorem Remains.atOnce {d : Connection} {o : Served} (hd : Remains d t s)
    (hno : ¬ (cb.ends = true ∧ cb.con = d)) :
    Remains d (t ++ [(.callback cb env, o)]) { s with clients := m' } := by
  unfold Remains at hd ⊢
  rw [made_callback]
  exact hd.imp_left fun ho => opened_snoc ho hno

/-- A task leaves the connections that it does not end. -/
theorem Remains.task {d : Connection} {n : Nat} {o : Served} (hd : Remains d t s)
    (hn : s.tasks[n]? = some cb) (hno : ¬ (cb.ends = true ∧ cb.con = d)) :
    Remains d (t ++ [(.execute n env, o)]) ⟨m', s.tasks.eraseIdx n⟩ := by
  unfold Remains at hd ⊢
  rw [made_execute]
  refine hd.imp_right fun hm => ?_
  rcases List.mem_cons.1 ((perm_eraseIdx hn).symm.subset hm) with rfl | hm
  · exact absurd ⟨rfl, rfl⟩ hno
  · exact hm

theorem Guarded.step (h : Guarded weh t s) (hg : endsLast weh s t i) (hs : Serves weh s i s' o) :
    Guarded weh (t ++ [(i, o)]) s' := by
  obtain ⟨hord, hlast⟩ := hg
  cases hs with
  | @queued cb env hq =>
    have hord : Ordered (made t) cb := hord
    refine ⟨h.nameless, fun ch k e hk => ?_, fun cb' hcb' hins => ?_, ?_⟩
    · obtain ⟨d, h₁, h₂, hd⟩ := h.entries ch k e hk
      exact ⟨d, h₁, h₂, hd.queued hq⟩
    · rcases List.mem_append.1 hcb' with hcb' | hcb'
      · exact (h.pending cb' hcb' hins).queued hq
      · rw [List.mem_singleton.1 hcb'] at hins ⊢
        unfold Remains
        rw [made_callback]
        exact .inl (opened_of_inserts hord hins)
    · rw [made_callback]
      exact ended_snoc hord h.ended
  | @atOnce cb env m' ev hq he =>
    have hord : Ordered (made t) cb := hord
    have hnext : weh.next s (.callback cb env) = some cb := if_neg (by simp [hq])
    refine ⟨he.noNameless h.nameless, ?_, fun cb' hcb' hins' => ?_, ?_⟩
    · refine he.guarded h (fun d hd hno => hd.atOnce hno) fun hins => ?_
      unfold Remains
      rw [made_callback]
      exact .inl (opened_of_inserts hord hins)
    · exact (h.pending cb' hcb' hins').atOnce fun hends =>
        hlast cb hnext hends.1 cb' hcb' hends.2.symm hins'
    · rw [made_callback]
      exact ended_snoc hord h.ended
  | @task n cb env m' ev hn he =>
    have hperm := perm_eraseIdx hn
    have hcb : cb ∈ s.tasks := hperm.subset List.mem_cons_self
    refine ⟨he.noNameless h.nameless, ?_, fun cb' hcb' hins' => ?_, ?_⟩
    · refine he.guarded h (fun d hd hno => hd.task hn hno) fun hins => ?_
      exact (h.pending cb hcb hins).task hn fun hends => by
        rw [ends_of_inserts hins] at hends
        exact Bool.false_ne_true hends.1
    · have hcb' : cb' ∈ s.tasks := hperm.subset (List.mem_cons_of_mem _ hcb')
      exact (h.pending cb' hcb' hins').task hn fun hends =>
        hlast cb hn hends.1 cb' hcb' hends.2.symm hins'
    · rw [made_execute]
      exact h.ended

theorem guarded_of_run (h : Run (weh.pooled it) (endsLast weh) Pooled.start t s) :
    Guarded weh t s := by
  refine h.invariant (P := Guarded weh) guarded_start ?_
  intro t s i s' o ih hg hstep
  exact ih.step hg (pooled_serves hstep)

/-- **No entry outlives its connection.** Where nothing that makes an entry is queued for a
connection when its end is handled, then once the queue is empty a connection whose `on_close` or
`on_error` came has no entry, unless another open connection has its channel and key. -/
theorem no_entry_left (h : Run (weh.pooled it) (endsLast weh) Pooled.start t s) (hq : s.tasks = [])
    (hcb : cb ∈ made t) (hends : cb.ends = true) :
    (s.clients.get cb.con.channel).lookup cb.con.clientKey = none ∨
      ∃ d, d ≠ cb.con ∧ phase d (made t) = .opened ∧ SameKey d cb.con := by
  have hg := guarded_of_run h
  cases hk : (s.clients.get cb.con.channel).lookup cb.con.clientKey with
  | none => exact .inl rfl
  | some e =>
    obtain ⟨d, h₁, h₂, hd⟩ := hg.entries _ _ e hk
    have ho : phase d (made t) = .opened := by
      refine hd.resolve_right fun hm => ?_
      rw [hq] at hm
      cases hm
    refine .inr ⟨d, ?_, ho, h₁, h₂⟩
    rintro rfl
    rw [hg.ended cb hcb hends] at ho
    cases ho

/-! ## Concrete runs -/

instance (cb : Callback) : Decidable (Inserts weh cb) :=
  match cb with
  | .onMessage .. | .onOpen _ | .onClose _ | .onError .. => by unfold Inserts; infer_instance

instance (t : PoolTrace) (i : PoolInput) : Decidable (inOrder t i) :=
  match i with
  | .callback .. | .execute .. => by unfold inOrder; infer_instance

instance (s : Pooled) (t : PoolTrace) (i : PoolInput) : Decidable (endsLast weh s t i) := by
  unfold endsLast; infer_instance

instance (s : Pooled) (t : PoolTrace) (i : PoolInput) :
    Decidable ((fun _ t i => inOrder t i : Pooled → PoolTrace → PoolInput → Prop) s t i) :=
  inferInstanceAs (Decidable (inOrder t i))

/-- The task of `on_open` runs before the error. -/
theorem no_entry_left_error : ∃ t s, Run (pooledSecured.pooled .plain) (endsLast pooledSecured)
    Pooled.start t s ∧ .onError clientA "reset" ∈ made t ∧
    ((s.clients.get clientA.channel).lookup clientA.clientKey = none ∨
      ∃ d, d ≠ clientA ∧ phase d (made t) = .opened ∧ SameKey d clientA) := by
  obtain ⟨t, s, h, -, hp⟩ := Run.exists_of_replay (pooledSecured.pooled .plain)
    (endsLast pooledSecured)
    Pooled.start [arrives (.onOpen clientA), runs 0, arrives (.onError clientA "reset")]
    (fun t s => decide (.onError clientA "reset" ∈ made t ∧ s.tasks = [])) (by decide)
  obtain ⟨hm, hq⟩ := of_decide_eq_true hp
  have hends : (Callback.onError clientA "reset").ends = true := rfl
  have hgone := no_entry_left h hq hm hends
  exact ⟨t, s, h, hm, hgone⟩

/-- The error overtakes the queued task of `on_open`, which then makes an entry. -/
theorem entry_left : ¬ ∀ (t : PoolTrace) s cb,
    Run (pooledSecured.pooled .plain) (fun _ t i => inOrder t i) Pooled.start t s → s.tasks = [] →
      cb ∈ made t → cb.ends = true →
      (s.clients.get cb.con.channel).lookup cb.con.clientKey = none ∨
        ∃ d, d ≠ cb.con ∧ phase d (made t) = .opened ∧ SameKey d cb.con := by
  intro hall
  obtain ⟨t, s, h, -, hp⟩ := Run.exists_of_replay (pooledSecured.pooled .plain)
    (fun _ t i => inOrder t i) Pooled.start
    [arrives (.onOpen clientA), arrives (.onError clientA "reset"), runs 0]
    (fun t s => decide (made t = [.onOpen clientA, .onError clientA "reset"] ∧ s.tasks = []) &&
      ((s.clients.get clientA.channel).lookup clientA.clientKey).isSome) (by decide)
  obtain ⟨hm, hsome⟩ := Bool.and_eq_true_iff.1 hp
  obtain ⟨hm, hq⟩ := of_decide_eq_true hm
  rcases hall t s (.onError clientA "reset") h hq (by simp [hm]) rfl with hnone | ⟨d, hne, ho, -⟩
  · rw [show (Callback.onError clientA "reset").con = clientA from rfl] at hnone
    rw [hnone] at hsome
    cases hsome
  · -- nobody else was opened
    have hd := onOpen_mem ho
    rw [hm] at hd
    simp only [List.mem_cons, Callback.onOpen.injEq, reduceCtorEq, List.not_mem_nil, or_false] at hd
    exact hne hd

end CppFrame.Server
