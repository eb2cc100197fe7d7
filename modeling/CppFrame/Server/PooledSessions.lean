import CppFrame.Server.Pooled

/-!
# Sessions under the pool

With a pool the tasks of one connection run in any order, and `on_open` clears the flag of the
entry. A session is lost when a message is accepted before the `on_open` task of its connection ran:
the entry then has no connection, and the presence round that follows drops it. Where every accepted
message of a connection finds its own connection in the entry, the session is kept until a close or
an error of the connection is handled (`session_kept`).
-/

namespace CppFrame.Server

open UMap

/-! ## What is promised, and the condition -/

/-- Nobody but `c` uses the channel and key of `c`. -/
def OnlyKey (c : Connection) : PoolInput → Prop
  | .callback cb _ => SameKey cb.con c → cb.con = c
  | .execute _ _ => True

/-- What the server promises: its contract, that connections which are held are alive, and that
nobody else uses the key of `c`. -/
def Promised (c : Connection) (s : Pooled) (t : PoolTrace) (i : PoolInput) : Prop :=
  poolKept t i ∧ HeldAlive t s i.env ∧ OnlyKey c i

/-- A message of `c` that is accepted finds `c` in its entry. -/
def AcceptsOpened (weh : WssEndpointHandler) (c : Connection) (env : Env) (m : Clients) :
    Callback → Prop
  | .onMessage con msg => con = c → handling weh env m c msg = .accepted →
      ((m.get c.channel).get c.clientKey).connection = some c
  | _ => True

/-- Every accepted message of `c` finds `c` in its entry. -/
def opensFirst (weh : WssEndpointHandler) (c : Connection) (s : Pooled) (t : PoolTrace)
    (i : PoolInput) :
    Prop :=
  Promised c s t i ∧ ∀ cb ∈ weh.next s i, AcceptsOpened weh c i.env s.clients cb

/-- A close or an error of the connection was handled. -/
def Gone (c : Connection) (t : PoolTrace) : Prop :=
  .onClose c ∈ served t ∨ ∃ ec, .onError c ec ∈ served t

/-- The step answered a message of `c` with `ok`. -/
def SentOk (c : Connection) (x : PoolInput × Served) : Prop :=
  ∃ cb ev, x.2 = some (cb, ev) ∧ .send c "ok" ∈ ev

theorem Gone.append {c : Connection} {t : PoolTrace} (h : Gone c t) (t' : PoolTrace) :
    Gone c (t ++ t') := by
  unfold Gone at *
  rw [served_append]
  rcases h with h | ⟨ec, h⟩
  · exact .inl (List.mem_append_left _ h)
  · exact .inr ⟨ec, List.mem_append_left _ h⟩

/-! ## Opening and closing under the pool -/

/-- What holds of `c` in every run: its `on_open` task is queued once, never before the callback and
not after it ran, and a closed connection was handled so or has its close queued. -/
structure Opening (c : Connection) (t : PoolTrace) (s : Pooled) : Prop where
  keys : ∀ cb ∈ s.tasks, SameKey cb.con c → cb.con = c
  fresh : phase c (made t) = .fresh → ∀ cb ∈ s.tasks, cb.con ≠ c
  once : s.tasks.count (.onOpen c) ≤ 1
  owned : ∀ e, (s.clients.get c.channel).lookup c.clientKey = some e → e.connection = some c →
    phase c (made t) ≠ .fresh ∧ .onOpen c ∉ s.tasks
  closing : phase c (made t) = .closed → Gone c t ∨ .onClose c ∈ s.tasks

variable {weh : WssEndpointHandler} {it : Iteration} {c : Connection} {s s' : Pooled}
  {t : PoolTrace} {i : PoolInput} {o : Served} {cb : Callback} {ev : List Event} {env : Env}
  {m m' : Clients}

theorem opening_start : Opening c [] Pooled.start where
  keys cb h := by cases h
  fresh _ cb h := by cases h
  once := Nat.zero_le _
  owned e h := by cases h
  closing h := by cases h

/-- An entry that holds `c` held it before, or the `on_open` of `c` was handled. -/
theorem Effect.holds_before (he : Effect weh env m cb m' ev) {e : SocketClient}
    (hk : (m'.get c.channel).lookup c.clientKey = some e) (hc : e.connection = some c) :
    (∃ e', (m.get c.channel).lookup c.clientKey = some e' ∧ e'.connection = some c) ∨
      ∃ con, cb = .onOpen con ∧ SameKey con c := by
  cases he.lookup_cases hk with
  | kept hk => exact .inl ⟨e, hk, hc⟩
  | @opened con hch hkey => exact .inr ⟨con, rfl, hch, hkey⟩
  | accepted => exact .inl ⟨_, lookup_of_connection hc, hc⟩
  | created => cases hc

theorem Opening.step (h : Opening c t s) (hg : Promised c s t i) (hs : Serves weh s i s' o) :
    Opening c (t ++ [(i, o)]) s' := by
  obtain ⟨hkept, -, honly⟩ := hg
  cases hs with
  | @queued cb env hq =>
    have hord : Ordered (made t) cb := hkept.1
    refine ⟨fun cb' hcb' => ?_, fun hp cb' hcb' => ?_, ?_, fun e hk hc => ?_, fun hp => ?_⟩
    · rcases List.mem_append.1 hcb' with hcb' | hcb'
      · exact h.keys cb' hcb'
      · exact List.mem_singleton.1 hcb' ▸ honly
    · rw [made_callback] at hp
      obtain ⟨hne, hp⟩ := fresh_before hord hp
      rcases List.mem_append.1 hcb' with hcb' | hcb'
      · exact h.fresh hp cb' hcb'
      · exact List.mem_singleton.1 hcb' ▸ hne
    · rw [List.count_append]
      by_cases hcb : cb = .onOpen c
      · subst hcb
        have hnone : s.tasks.count (.onOpen c) = 0 := by
          rw [List.count_eq_zero]
          exact fun hm => h.fresh hord _ hm rfl
        rw [hnone, List.count_singleton_self]
      · rw [List.count_eq_zero.2 fun hm => hcb (List.mem_singleton.1 hm).symm]
        exact h.once
    · obtain ⟨hp, hno⟩ := h.owned e hk hc
      rw [made_callback]
      refine ⟨phase_ne_fresh_snoc hp cb, fun hm => ?_⟩
      rcases List.mem_append.1 hm with hm | hm
      · exact hno hm
      · obtain rfl := List.mem_singleton.1 hm
        exact hp hord
    · rw [made_callback] at hp
      rcases closed_before hp with hp | rfl | ⟨ec, rfl⟩
      · exact (h.closing hp).imp (fun hgone => hgone.append _) (List.mem_append_left _)
      · exact .inr (List.mem_append_right _ (List.mem_singleton.2 rfl))
      · cases hq
  | @atOnce cb env m' ev hq he =>
    have hord : Ordered (made t) cb := hkept.1
    refine ⟨h.keys, fun hp => ?_, h.once, fun e hk hc => ?_, fun hp => ?_⟩
    · rw [made_callback] at hp
      exact h.fresh (fresh_before hord hp).2
    · rw [made_callback]
      rcases he.holds_before hk hc with ⟨e', hk', hc'⟩ | ⟨con, rfl, hsame⟩
      · obtain ⟨hp, hno⟩ := h.owned e' hk' hc'
        exact ⟨phase_ne_fresh_snoc hp cb, hno⟩
      · obtain rfl : con = c := honly hsame
        refine ⟨?_, fun hm => h.fresh hord _ hm rfl⟩
        rw [show phase con (made t ++ [.onOpen con]) = .opened from phase_snoc_self _ (.onOpen con)]
        exact Phase.noConfusion
    · rw [made_callback] at hp
      rcases closed_before hp with hp | rfl | ⟨ec, rfl⟩
      · exact (h.closing hp).imp (fun hgone => hgone.append _) id
      · exact .inl (.inl (by simp [served_singleton]))
      · exact .inl (.inr ⟨ec, by simp [served_singleton]⟩)
  | @task n cb env m' ev hn he =>
    have hperm := perm_eraseIdx hn
    have hmem : ∀ cb' ∈ s.tasks.eraseIdx n, cb' ∈ s.tasks := fun cb' hcb' =>
      hperm.subset (List.mem_cons_of_mem _ hcb')
    have hcount : (s.tasks.eraseIdx n).count (.onOpen c) ≤ s.tasks.count (.onOpen c) :=
      (List.eraseIdx_sublist s.tasks n).count_le _
    have hcb : cb ∈ s.tasks := hperm.subset List.mem_cons_self
    refine ⟨fun cb' hcb' => h.keys cb' (hmem cb' hcb'), fun hp cb' hcb' => ?_,
      Nat.le_trans hcount h.once,
      fun e hk hc => ?_, fun hp => ?_⟩
    · rw [made_execute] at hp
      exact h.fresh hp cb' (hmem cb' hcb')
    · rw [made_execute]
      rcases he.holds_before hk hc with ⟨e', hk', hc'⟩ | ⟨con, rfl, hsame⟩
      · obtain ⟨hp, hno⟩ := h.owned e' hk' hc'
        exact ⟨hp, fun hm => hno (hmem _ hm)⟩
      · obtain rfl : con = c := h.keys _ hcb hsame
        refine ⟨fun hp => h.fresh hp _ hcb rfl, ?_⟩
        -- its one `on_open` task has just run
        have honce := h.once
        rw [← hperm.count_eq, List.count_cons_self] at honce
        have hzero : (s.tasks.eraseIdx n).count (.onOpen con) = 0 := by omega
        exact List.count_eq_zero.1 hzero
    · rw [made_execute] at hp
      rcases h.closing hp with hgone | hm
      · exact .inl (hgone.append _)
      · rcases List.mem_cons.1 (hperm.symm.subset hm) with rfl | hm
        · exact .inl (.inl (by simp [served_singleton]))
        · exact .inr hm

/-! ## A session -/

/-- The entry of `c` is authenticated and holds `c`. -/
def Session (c : Connection) (m : Clients) : Prop :=
  ∃ e, (m.get c.channel).lookup c.clientKey = some e ∧ e.authenticated = true ∧
    e.connection = some c

theorem lock_of_alive {e : SocketClient} (hc : e.connection = some c) (ha : env.alive c = true) :
    e.lock env = some c := by
  rw [SocketClient.lock, hc, Option.filter_some, if_pos ha]

/-- A connection that was opened and is not gone is alive. -/
theorem Opening.alive (h : Opening c t s) (ha : HeldAlive t s env) (hp : phase c (made t) ≠ .fresh)
    (hgone : ¬ Gone c t) : env.alive c = true := by
  refine ha.alive ?_
  cases hph : phase c (made t) with
  | fresh => exact absurd hph hp
  | opened => exact .inl hph
  | closed => exact .inr ⟨.onClose c, (h.closing hph).resolve_left hgone, rfl⟩

/-- An accepted message whose entry holds a connection that is alive leaves that entry,
authenticated. -/
theorem Effect.session {msg : String} (he : Effect weh env m (.onMessage c msg) m' ev)
    (ha : asks weh m c = true) (hn : env.authenticator msg ≠ "") (hc : Considered c msg)
    (hcon : ((m.get c.channel).get c.clientKey).connection = some c) (hl : env.alive c = true) :
    Session c m' := by
  cases he with
  | ignored hc' => exact absurd hc hc'
  | rejected _ _ hn' => exact absurd hn' hn
  | accepted _ _ _ hm =>
    refine ⟨((m.get c.channel).get c.clientKey).accepted (env.authenticator msg), ?_, rfl, hcon⟩
    have hlock : (((m.get c.channel).get c.clientKey).accepted (env.authenticator msg)).lock env =
        some c :=
      lock_of_alive hcon hl
    rw [hm.self, lookup_eraseIf, lookup_modify, if_pos rfl, lookup_roomOf_self]
    simp [goneInPresence, hlock]
  | dumped _ ha' => simp [asks, ha'] at ha
  | broadcast _ ha' => rw [ha] at ha'; cases ha'

/-- A session goes on until a close or an error of its connection is handled. -/
theorem Session.step (hses : Session c s.clients) (h : Opening c t s)
    (hg : Promised c s t i) (hs : Serves weh s i s' o)
    (hgone : ¬ Gone c (t ++ [(i, o)])) : Session c s'.clients := by
  obtain ⟨e, hk, ha, hc⟩ := hses
  obtain ⟨hkept, halive, honly⟩ := hg
  obtain ⟨hp, hno⟩ := h.owned e hk hc
  have hl : e.lock i.env = some c :=
    lock_of_alive hc (h.alive halive hp fun hg => hgone (hg.append _))
  -- what is handled is a message, or about somebody else
  have hother : ∀ {cb : Callback} {ev : List Event}, o = some (cb, ev) →
    (SameKey cb.con c → cb.con = c) →
      cb ≠ .onOpen c →
      (∃ msg, cb = .onMessage cb.con msg) ∨
      ¬ (cb.con.channel = c.channel ∧ cb.con.clientKey = c.clientKey) := by
    rintro cb ev rfl honly hopen
    by_cases hsame : SameKey cb.con c
    · obtain rfl := honly hsame
      cases cb with
      | onMessage con msg => exact .inl ⟨msg, rfl⟩
      | onOpen con => exact absurd rfl hopen
      | onClose con => exact absurd (.inl (by simp [served_singleton, Callback.con])) hgone
      | onError con ec => exact absurd (.inr ⟨ec, by simp [served_singleton, Callback.con]⟩) hgone
    · exact .inr hsame
  cases hs with
  | queued => exact ⟨e, hk, ha, hc⟩
  | @atOnce cb env m' ev hq he =>
    refine ⟨e, he.stays hk ha hl (hother rfl honly ?_), ha, hc⟩
    rintro rfl
    exact hp hkept.1
  | @task n cb env m' ev hn he =>
    have hcb : cb ∈ s.tasks := List.mem_of_getElem? hn
    refine ⟨e, he.stays hk ha hl (hother rfl (h.keys cb hcb) ?_), ha, hc⟩
    rintro rfl
    exact hno hcb

theorem opening_of_run (h : Run (weh.pooled it) (opensFirst weh c) Pooled.start t s) :
    Opening c t s := by
  refine h.invariant (P := Opening c) opening_start ?_
  intro t s i s' o ih hg hstep
  exact ih.step hg.1 (pooled_serves hstep)

/-- From the `ok` on, the session is there until a close or an error of its connection is
handled. -/
theorem session_of_run {t₁ t₂ : PoolTrace} {x : PoolInput × Served}
    (h : Run (weh.pooled it) (opensFirst weh c) Pooled.start (t₁ ++ [x] ++ t₂) s) (hok : SentOk c x)
    (hgone : ¬ Gone c (t₁ ++ [x] ++ t₂)) : Session c s.clients := by
  refine h.invariant_from (P := fun t₂ s => ¬ Gone c (t₁ ++ [x] ++ t₂) →
    Session c s.clients) ?_ ?_ hgone
  · intro s₂ h₂ hgone
    obtain ⟨s₁, h₁, hg, hstep⟩ := h₂.snoc_inv
    obtain ⟨i, o⟩ := x
    obtain ⟨cb, ev, rfl, hsent⟩ := hok
    obtain ⟨hnext, he⟩ := (pooled_serves hstep).next_eq
    obtain ⟨msg, rfl, hc, ha, hn⟩ := he.ok_send hsent
    have hh : handling weh i.env s₁.clients c msg = .accepted := by
      rw [handling_of_asks hc ha, if_neg hn]
    have hcon : ((s₁.clients.get c.channel).get c.clientKey).connection = some c :=
      hg.2 _ hnext rfl hh
    have hop := opening_of_run h₁
    refine he.session ha hn hc hcon (hop.alive hg.1.2.1 ?_ fun hgone' => hgone ?_)
    · exact (hop.owned _ (lookup_of_connection hcon) hcon).1
    · rw [List.append_nil]
      exact hgone'.append _
  · intro t₂ s i s' o hrun ih hg hstep hgone
    rw [← List.append_assoc] at hgone
    exact (ih fun hgone' => hgone (hgone'.append _)).step (opening_of_run hrun) hg.1
      (pooled_serves hstep) hgone

instance (c : Connection) (i : PoolInput) : Decidable (OnlyKey c i) :=
  match i with
  | .callback .. | .execute .. => by unfold OnlyKey; infer_instance

instance (s : Pooled) (t : PoolTrace) (i : PoolInput) : Decidable (Promised c s t i) := by
  unfold Promised; infer_instance

instance (m : Clients) (cb : Callback) : Decidable (AcceptsOpened weh c env m cb) :=
  match cb with
  | .onMessage .. | .onOpen _ | .onClose _ | .onError .. => by unfold AcceptsOpened; infer_instance

instance (s : Pooled) (t : PoolTrace) (i : PoolInput) : Decidable (opensFirst weh c s t i) := by
  unfold opensFirst; infer_instance

/-- The message `Ann` of `clientA` is accepted. -/
def annAccepted : PoolInput × Served :=
  (runs 0, some (.onMessage clientA "Ann", [.authenticator "Ann" "Ann", .send clientA "ok",
    .send clientA "OTHERS \x7b\x7d"]))

theorem sentOk_annAccepted : SentOk clientA annAccepted := ⟨_, _, rfl, by simp⟩

/-- The task of `on_open` has run, and a message has come. -/
def openedThenMessage : PoolTrace :=
  [(arrives (.onOpen clientA), none), (runs 0, some (.onOpen clientA, [])),
    (arrives (.onMessage clientA "Ann"), none)]

end CppFrame.Server
