import CppFrame.Server.EmptyChannels
import CppFrame.Server.Presence
import CppFrame.Server.Pruning

/-!
# The registry mirrors the open connections

Where the authenticator has a name for everybody it is asked about, or none is set, the registry
holds an entry for each open connection with a channel, under its channel and key, and no other
entry (`mirrors_of_run`). Then nothing that is walked is ever erased from: everyone in the registry
can be locked while it is open, and no channel is empty. So every loop of every callback ends, also
where a loop may not go on from a node that is gone (`inline_isSome`).

A single refused message breaks both: its entry goes while its connection stays open.
-/

namespace CppFrame.Server

open RangeFor UMap

/-- A connection that shares its key with an open one is that one. -/
def Apart (h : List Callback) (cb : Callback) : Prop :=
  ∀ cb' ∈ h, phase cb'.con h = .opened → SameKey cb'.con cb.con → cb'.con = cb.con

instance (h : List Callback) (cb : Callback) : Decidable (Apart h cb) := by
  unfold Apart; infer_instance

/-- The authenticator does not refuse the sender of a message. -/
def Accepting (weh : WssEndpointHandler) (m : Clients) (i : Input) : Prop :=
  match i.1 with
  | .onMessage con msg => handling weh i.2 m con msg ≠ .rejected
  | _ => True

instance (weh : WssEndpointHandler) (m : Clients) (i : Input) : Decidable (Accepting weh m i) :=
  match i with
  | (.onMessage .., _) | (.onOpen _, _) | (.onClose _, _) | (.onError .., _) => by
    unfold Accepting; infer_instance

/-- The server keeps its contract, whoever is open is alive and has a key of its own, and nobody is
refused. -/
def keptAccepting (weh : WssEndpointHandler) (m : Clients) (t : Trace) (i : Input) : Prop :=
  keptAlive m t i ∧ Apart (calls t) i.1 ∧ Accepting weh m i

instance (weh : WssEndpointHandler) (m : Clients) (t : Trace) (i : Input) :
    Decidable (keptAccepting weh m t i) := by
  unfold keptAccepting; infer_instance

/-- Every entry is that of an open connection, and every open connection with a channel has its
entry. -/
structure Mirrors (h : List Callback) (m : Clients) : Prop where
  entry : ∀ ch k c, (m.get ch).lookup k = some c →
    ∃ d, c.connection = some d ∧ phase d h = .opened ∧ d.channel = ch ∧ d.clientKey = k
  registered : ∀ d, phase d h = .opened → d.channel ≠ "" →
    ∃ c, (m.get d.channel).lookup d.clientKey = some c ∧ c.connection = some d

variable {weh : WssEndpointHandler} {it : Iteration} {env : Env} {m m' : Clients} {cb : Callback}
  {ev : List Event} {h : List Callback} {t : Trace}

theorem mirrors_empty : Mirrors [] ∅ where
  entry _ _ _ hk := by cases hk
  registered _ ho := by cases ho

/-- The entry of a connection that is alive stays, but for a callback of its own that is no message,
and for a message that is refused. -/
theorem Effect.remains (he : Effect weh env m cb m' ev) {d : Connection} {c : SocketClient}
    (hk : (m.get d.channel).lookup d.clientKey = some c) (hd : c.connection = some d)
    (hl : env.alive d = true)
    (hcb : (∃ msg, cb = .onMessage cb.con msg ∧ handling weh env m cb.con msg ≠ .rejected) ∨
      ¬ SameKey d cb.con) :
    ∃ c', (m'.get d.channel).lookup d.clientKey = some c' ∧ c'.connection = some d := by
  by_cases hch : d.channel = cb.con.channel
  case neg => exact ⟨c, by rwa [he.get_of_ne hch], hd⟩
  have hlock : c.lock env = some d := Option.filter_eq_some_iff.2 ⟨hd, hl⟩
  have hpres : goneInPresence env d.clientKey c = false := by simp [goneInPresence, hlock]
  -- a callback that is no message is about another client
  have hother : (∀ msg, cb ≠ .onMessage cb.con msg) → d.clientKey ≠ cb.con.clientKey := by
    intro hno hkey
    rcases hcb with ⟨msg, hmsg, -⟩ | hne
    · exact hno msg hmsg
    · exact hne ⟨hch, hkey⟩
  cases he with
  | ignored => exact ⟨c, hk, hd⟩
  | @rejected con _ _ _ hc ha hn hm _ =>
    have hne : d.clientKey ≠ con.clientKey := by
      intro hkey
      rcases hcb with ⟨msg, hmsg, hh⟩ | hne
      · cases hmsg
        exact hh ((handling_of_asks hc ha).trans (if_pos hn))
      · exact hne ⟨hch, hkey⟩
    rw [hm.get_eq hch, lookup_erase, if_neg hne]
    exact ⟨c, lookup_roomOf_of_some hk hch, hd⟩
  | @accepted con msg _ _ _ _ _ hm _ =>
    have hroom : (roomOf env m con).lookup d.clientKey = some c := lookup_roomOf_of_some hk hch
    have hpres' : goneInPresence env d.clientKey (c.accepted (env.authenticator msg)) = false := by
      simp [goneInPresence, SocketClient.accepted, SocketClient.lock, hd, hl]
    rw [hm.get_eq hch, lookup_eraseIf, lookup_modify]
    split_ifs with hkey
    · rw [← hkey, hroom]
      exact ⟨c.accepted (env.authenticator msg), by simp [hpres'], hd⟩
    · rw [hroom]
      exact ⟨c, by simp [hpres], hd⟩
  | dumped _ _ _ _ hm =>
    rw [hm.get_eq hch]
    exact ⟨c, lookup_roomOf_of_some hk hch, hd⟩
  | @broadcast con _ _ _ _ _ _ hm _ =>
    have hroom : (roomOf env m con).lookup d.clientKey = some c := lookup_roomOf_of_some hk hch
    rw [hm.get_eq hch, lookup_eraseIf, hroom]
    exact ⟨c, by simp [goneInBroadcast, hlock], hd⟩
  | refused => exact ⟨c, hk, hd⟩
  | @opened con _ _ _ hm _ =>
    have hne : d.clientKey ≠ con.clientKey := hother (by simp)
    rw [hm.get_eq hch, lookup_modify, if_neg hne]
    exact ⟨c, lookup_roomOf_of_some hk hch, hd⟩
  | nothing => exact ⟨c, hk, hd⟩
  | @announced con _ _ _ _ hm _ =>
    have hne : d.clientKey ≠ con.clientKey := hother (by simp)
    have hroom : (roomOf env m con).lookup d.clientKey = some c := lookup_roomOf_of_some hk hch
    rw [hm.get_eq hch, lookup_eraseIf, lookup_erase, if_neg hne, hroom]
    exact ⟨c, by simp [hpres], hd⟩
  | @left con _ _ _ _ hm _ =>
    have hne : d.clientKey ≠ con.clientKey := hother (by simp)
    rw [hm.get_eq hch, lookup_erase, if_neg hne]
    exact ⟨c, lookup_roomOf_of_some hk hch, hd⟩
  | @errored con _ _ _ hm _ =>
    have hne : d.clientKey ≠ con.clientKey := hother (by simp)
    rw [hm.get_eq hch, lookup_erase, if_neg hne]
    exact ⟨c, hch ▸ hk, hd⟩

theorem Effect.mirrors (he : Effect weh env m cb m' ev) (hc : Contract h cb) (ha : Apart h cb)
    (hl : Lives h cb env) (hacc : Accepting weh m (cb, env)) (hn : NoNameless m)
    (hm : Mirrors h m) : Mirrors (h ++ [cb]) m' where
  entry := by
    intro ch k c hk
    cases he.lookup_cases hk with
    | kept hk hcb =>
      obtain ⟨d, hd, ho, rfl, rfl⟩ := hm.entry ch k c hk
      refine ⟨d, hd, opened_after ho ?_, rfl, rfl⟩
      rcases hcb with hmsg | hch | hne
      · exact .inr hmsg
      · rw [hch, hn] at hk
        cases hk
      · exact .inl fun e => hne (e ▸ ⟨rfl, rfl⟩)
    | @opened con hch hkey => exact ⟨con, rfl, phase_snoc_self h (.onOpen con), hch, hkey⟩
    | @accepted con msg hch hkey hcons =>
      have ho : phase con h = .opened := hc.1
      obtain ⟨c, hk', hd⟩ := hm.registered con ho hcons.2
      subst hch hkey
      refine ⟨con, ?_, opened_after ho (.inr ⟨msg, rfl⟩), rfl, rfl⟩
      rw [UMap.get, hk']
      exact hd
    | @created con msg hch hkey hcons _ hnone =>
      obtain ⟨c, hsome, -⟩ := hm.registered con hc.1 hcons.2
      subst hch hkey
      rw [hnone] at hsome
      cases hsome
  registered := by
    intro d ho hch
    have halive : env.alive d = true := by
      rcases opened_before ho with ho' | rfl
      · exact hl (.onOpen d) (List.mem_append_left _ (onOpen_mem ho')) ho
      · exact hl (.onOpen d) (List.mem_append_right _ (List.mem_singleton.2 rfl)) ho
    rcases opened_before ho with ho' | rfl
    · obtain ⟨c, hk, hd⟩ := hm.registered d ho' hch
      refine he.remains hk hd halive ?_
      by_cases hcon : cb.con = d
      · left
        subst hcon
        cases cb with
        | onMessage con msg => exact ⟨msg, rfl, hacc⟩
        | onOpen con => exact absurd (ho'.symm.trans hc.1) (by decide)
        | onClose con => rw [phase_snoc_self] at ho; cases ho
        | onError con ec => rw [phase_snoc_self] at ho; cases ho
      · exact .inr fun hsame => hcon (ha (.onOpen d) (onOpen_mem ho') ho' hsame).symm
    · cases he with
      | refused he => exact absurd he hch
      | opened _ hroom =>
        refine ⟨((m.get d.channel).get d.clientKey).opened env d, ?_, rfl⟩
        rw [hroom.self, lookup_modify, if_pos rfl, lookup_roomOf_self]
        rfl

theorem Mirrors.owned (hm : Mirrors h m) : Owned h m := by
  intro ch k c d hk hd
  obtain ⟨d', hd', ho, hch, hkey⟩ := hm.entry ch k c hk
  obtain rfl := Option.some.inj (hd.symm.trans hd')
  exact ⟨ho, hch, hkey⟩

/-- Everyone else in the room can be locked. -/
theorem Mirrors.othersLock (hm : Mirrors h m) (hl : Lives h cb env) (p : SocketClient → Bool) :
    OthersLock env m cb.con p := by
  intro n hn hne _
  have hk := mem_entries.1 hn
  obtain ⟨d, hd, -⟩ := hm.entry _ _ _ hk
  exact Option.isSome_iff_exists.2 ⟨d, lock_of_lives hm.owned hl hk hd (.inl hne.symm)⟩

/-- Where the registry mirrors the open connections, no loop of a callback finds a node to erase. -/
theorem Mirrors.nothingToPrune (hm : Mirrors h m) (ht : Tidy m) (hc : Contract h cb)
    (hl : Lives h cb env) :
    NothingToPrune weh env m cb := by
  cases cb with
  | onMessage con msg =>
    refine ⟨fun hh => ⟨?_, hm.othersLock hl _⟩, fun _ =>
      ⟨hm.othersLock hl _, fun n hn _ => (ht _ _ (mem_entries.1 hn)).2⟩⟩
    have hcons : Considered con msg := by
      by_contra hno
      rw [handling, if_neg hno] at hh
      cases hh
    have ho : phase con h = .opened := hc.1
    obtain ⟨c, hk, hd⟩ := hm.registered con ho hcons.2
    rw [UMap.get, hk]
    exact Option.isSome_iff_exists.2 ⟨con, lock_of_lives hm.owned hl hk hd (.inr ⟨msg, rfl⟩)⟩
  | onOpen con => trivial
  | onClose con => exact fun _ _ => hm.othersLock hl _
  | onError con ec => trivial

/-! ## Runs -/

theorem Accepting.rejectsInCompany {i : Input} (h : Accepting weh m i) :
    rejectsInCompany weh m t i := by
  obtain ⟨cb, env⟩ := i
  cases cb with
  | onMessage con msg => exact fun hh => absurd hh h
  | _ => trivial

/-- **The registry mirrors the open connections**, and every channel in it has a client, in every
run in which nobody is refused. -/
theorem mirrors_of_run (h : Run (weh.inline it) (keptAccepting weh) ∅ t m) :
    Mirrors (calls t) m ∧ Tidy m := by
  refine (h.invariant (P := fun t m => NoNameless m ∧ Mirrors (calls t) m ∧ Tidy m)
    ⟨fun _ => rfl, mirrors_empty, tidy_empty⟩ ?_).2
  rintro t m ⟨cb, env⟩ m' ev ⟨hn, hm, ht⟩ ⟨⟨hc, hl⟩, ha, hacc⟩ hstep
  have he := handle_effect hstep
  refine ⟨he.noNameless hn, ?_, ht.handle (t := t) hacc.rejectsInCompany hstep⟩
  rw [calls_append]
  exact he.mirrors hc ha hl hacc hn hm

/-- **Every loop ends.** After a run in which nobody is refused, the next callback runs to its end,
also where no loop may go on from a node that is gone. -/
theorem inline_isSome (h : Run (weh.inline it) (keptAccepting weh) ∅ t m) {i : Input}
    (hi : keptAccepting weh m t i) :
    (weh.inline .checked m i).isSome = true := by
  obtain ⟨hm, ht⟩ := mirrors_of_run h
  exact (handle_isSome i.1).2 (hm.nothingToPrune ht hi.1.1 hi.1.2)

end CppFrame.Server
