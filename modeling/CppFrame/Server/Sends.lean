import CppFrame.Server.Spec

/-!
# What is sent, and which entries a callback leaves

The four kinds of text the handler sends start differently: `ok`, `MESSAGE`, `OTHERS` and `ALL`.
From `Effect` follow who can receive a text of each kind (`Effect.broadcast_send`,
`Effect.presence_send`, `Effect.dump_send`) and where an entry of the registry can come from
(`Effect.lookup_cases`).
-/

namespace CppFrame.Server

open UMap WssEndpointHandler

variable {weh : WssEndpointHandler} {it : Iteration} {env : Env}

/-! ## The kinds of text -/

/-- A text starts with `kind`. -/
def IsKind (kind text : String) : Prop := kind.toList <+: text.toList

instance (kind text : String) : Decidable (IsKind kind text) := by unfold IsKind; infer_instance

theorem toList_popBack (s : String) : (popBack s).toList = s.toList.dropLast := by
  simp [popBack]

/-- Appending in a loop keeps the start. -/
theorem prefix_foldl {α β : Type} {p : List Char} {g : β → String} {f : β → α → β}
    (hf : ∀ b a, (g b).toList <+: (g (f b a)).toList) (l : List α) (b : β)
    (hb : p <+: (g b).toList) : p <+: (g (l.foldl f b)).toList := by
  induction l generalizing b with
  | nil => exact hb
  | cons a l ih => exact ih _ (hb.trans (hf b a))

/-- A text that is closed by `popBack` and a brace keeps all of its start but the last character. -/
theorem prefix_popBack {p : List Char} {c : Char} {s : String} (h : p ++ [c] <+: s.toList) :
    p <+: (popBack s ++ "\x7d").toList := by
  obtain ⟨r, hr⟩ := h
  rw [String.toList_append, toList_popBack, ← hr, List.append_assoc,
    List.dropLast_append_of_ne_nil (by simp), List.append_assoc]
  exact List.prefix_append _ _

theorem presenceJson_start (k : String) (cs : List (Σ _ : String, SocketClient)) :
    "OTHERS \x7b".toList <+: (presenceJson k cs).toList := by
  refine prefix_popBack (c := ' ') (prefix_foldl (g := Prod.fst) (fun b n => ?_) _ _ ?_)
  · unfold presenceEntry
    split_ifs
    · simp only [String.toList_append, List.append_assoc]
      exact List.prefix_append _ _
    · exact List.prefix_refl _
  · exact List.prefix_refl _

theorem getAllClientsInJson_start (m : Clients) :
    "ALL    \x7b".toList <+: (weh.getAllClientsInJson m).toList := by
  refine prefix_popBack (c := ' ') (prefix_foldl (g := id) (fun b n => ?_) _ _ ?_)
  · show b.toList <+: (b ++ weh.channelJson n).toList
    rw [String.toList_append]
    exact List.prefix_append _ _
  · exact List.prefix_refl _

/-- Two kinds that differ in their first letter have no text in common. -/
theorem IsKind.head {kind text : String} {c : Char} (h : IsKind kind text)
    (hc : kind.toList.head? = some c) : text.toList.head? = some c := by
  obtain ⟨r, hr⟩ := h
  rw [← hr, List.head?_append, hc]
  rfl

theorem isKind_message (msg : String) : IsKind "MESSAGE" ("MESSAGE" ++ msg) := by
  rw [IsKind, String.toList_append]
  exact List.prefix_append _ _

theorem isKind_presence (k : String) (cs : List (Σ _ : String, SocketClient)) :
    IsKind "OTHERS" (presenceJson k cs) :=
  List.IsPrefix.trans (by decide) (presenceJson_start k cs)

theorem isKind_dump (m : Clients) : IsKind "ALL" (weh.getAllClientsInJson m) :=
  List.IsPrefix.trans (by decide) (getAllClientsInJson_start m)

theorem head_message (msg : String) : ("MESSAGE" ++ msg).toList.head? = some 'M' :=
  (isKind_message msg).head rfl

theorem head_presence (k : String) (cs : List (Σ _ : String, SocketClient)) :
    (presenceJson k cs).toList.head? = some 'O' := (isKind_presence k cs).head rfl

theorem head_dump (m : Clients) : (weh.getAllClientsInJson m).toList.head? = some 'A' :=
  (isKind_dump m).head rfl

/-! ## Who receives what -/

section

variable {m m' : Clients} {cb : Callback} {ev : List Event} {d : Connection} {text : String}

theorem Presences.send {room : Channel} (h : Presences env room ev) (hd : .send d text ∈ ev) :
    ∃ k c cs, room.lookup k = some c ∧ c.authenticated = true ∧ c.lock env = some d ∧
      text = presenceJson k cs := by
  rcases h.sound _ hd with hl | ⟨k, c, d', cs, hk, ha, hl, he⟩
  · exact absurd hl (not_isLog_send _ _)
  · cases he
    exact ⟨k, c, cs, hk, ha, hl, rfl⟩

/-- A client that a presence round reaches stays in its room. -/
theorem lookup_eraseIf_presence {room : Channel} {k : String} {c : SocketClient}
    (hk : room.lookup k = some c) (hl : c.lock env = some d) :
    (room.eraseIf (goneInPresence env)).lookup k = some c := by
  rw [lookup_eraseIf, hk]
  simp [goneInPresence, hl]

/-- The sender of an `ok`, a broadcast, a presence round or a dump, and what it sends. -/
inductive SendCase (weh : WssEndpointHandler) (env : Env) (m : Clients) :
    Callback → Clients → Connection → String → Prop
  | ok {con : Connection} {msg : String} {m' : Clients} (hc : Considered con msg)
      (ha : asks weh m con = true) (hn : env.authenticator msg ≠ "") :
      SendCase weh env m (.onMessage con msg) m' con "ok"
  | dump {con : Connection} {msg : String} {m' : Clients} (hc : Considered con msg)
      (ha : ((m.get con.channel).get con.clientKey).authenticated = true)
      (hn : ((m.get con.channel).get con.clientKey).isAdmin) :
      SendCase weh env m (.onMessage con msg) m' con (weh.getAllClientsInJson m')
  | message {con : Connection} {msg : String} {m' : Clients} {d : Connection} {k : String}
      {c : SocketClient} (hc : Considered con msg) (ha : asks weh m con = false)
      (hk : (m'.get con.channel).lookup k = some c) (hr : weh.receives con.clientKey k c = true)
      (hl : c.lock env = some d) :
      SendCase weh env m (.onMessage con msg) m' d ("MESSAGE" ++ msg)
  | presence {cb : Callback} {m' : Clients} {d : Connection} {k : String} {c : SocketClient}
      {cs : List (Σ _ : String, SocketClient)} (hk : (m'.get cb.con.channel).lookup k = some c)
      (ha : c.authenticated = true) (hl : c.lock env = some d) :
      SendCase weh env m cb m' d (presenceJson k cs)

theorem Effect.send_cases (h : Effect weh env m cb m' ev) (hd : .send d text ∈ ev) :
    SendCase weh env m cb m' d text := by
  have hlog : ∀ {l : List Event}, (∀ e ∈ l, e.IsLog) → .send d text ∉ l :=
    fun hl hm => not_isLog_send _ _ (hl _ hm)
  cases h with
  | ignored _ hev => exact absurd hd (hlog hev)
  | rejected _ _ _ _ hev =>
    simp only [List.mem_cons, reduceCtorEq, false_or] at hd
    exact absurd hd (hlog hev)
  | @accepted con msg _ _ hc ha hn hm hev =>
    simp only [List.mem_cons, reduceCtorEq, false_or] at hd
    rcases hd with hd | hd
    · cases hd
      exact .ok hc ha hn
    · obtain ⟨k, c, cs, hk, ha, hl, rfl⟩ := hev.send hd
      refine .presence (k := k) (c := c) ?_ ha hl
      exact hm.self ▸ lookup_eraseIf_presence hk hl
  | dumped hc ha hn _ hm =>
    rw [List.mem_singleton] at hd
    cases hd
    exact .dump hc ha hn
  | broadcast hc ha _ hm hev =>
    rcases hev.sound _ hd with hl | ⟨k, c, d', hk, hr, hl, he⟩
    · exact absurd hl (not_isLog_send _ _)
    · cases he
      refine .message (k := k) (c := c) hc ha ?_ hr hl
      rw [hm.self, lookup_eraseIf, hk]
      simp [goneInBroadcast, hl]
  | refused _ hev =>
    simp only [List.mem_append, List.mem_singleton, reduceCtorEq, or_false] at hd
    exact absurd hd (hlog hev)
  | opened _ _ hev => exact absurd hd (hlog hev)
  | nothing => cases hd
  | @announced con _ _ _ _ hm hev =>
    obtain ⟨k, c, cs, hk, ha, hl, rfl⟩ := hev.send hd
    refine .presence (k := k) (c := c) ?_ ha hl
    exact hm.self ▸ lookup_eraseIf_presence hk hl
  | left _ _ _ hev => exact absurd hd (hlog hev)
  | errored _ hev => exact absurd hd (hlog hev)

/-- A `MESSAGE` text goes to an eligible client of the sender's room other than the sender. -/
theorem Effect.broadcast_send (h : Effect weh env m cb m' ev) (hd : .send d text ∈ ev)
    (ht : IsKind "MESSAGE" text) :
    ∃ con msg k c, cb = .onMessage con msg ∧ text = "MESSAGE" ++ msg ∧ Considered con msg ∧
      asks weh m con = false ∧ (m'.get con.channel).lookup k = some c ∧
      weh.receives con.clientKey k c = true ∧ c.lock env = some d := by
  have hM := ht.head (c := 'M') rfl
  cases h.send_cases hd with
  | ok => exact absurd hM (by decide)
  | dump => rw [head_dump] at hM; exact absurd hM (by decide)
  | message hc ha hk hr hl => exact ⟨_, _, _, _, rfl, rfl, hc, ha, hk, hr, hl⟩
  | presence => rw [head_presence] at hM; exact absurd hM (by decide)

/-- An `OTHERS` text goes to an authenticated client of the room. -/
theorem Effect.presence_send (h : Effect weh env m cb m' ev) (hd : .send d text ∈ ev)
    (ht : IsKind "OTHERS" text) :
    ∃ k c, (m'.get cb.con.channel).lookup k = some c ∧ c.authenticated = true ∧
      c.lock env = some d := by
  have hO := ht.head (c := 'O') rfl
  cases h.send_cases hd with
  | ok => exact absurd hO (by decide)
  | dump => rw [head_dump] at hO; exact absurd hO (by decide)
  | message => rw [head_message] at hO; exact absurd hO (by decide)
  | presence hk ha hl => exact ⟨_, _, hk, ha, hl⟩

/-- An `ALL` text answers a message of an authenticated client with one of the three names. -/
theorem Effect.dump_send (h : Effect weh env m cb m' ev) (hd : .send d text ∈ ev)
    (ht : IsKind "ALL" text) :
    ∃ msg, cb = .onMessage d msg ∧
      ((m.get d.channel).get d.clientKey).authenticated = true ∧
      ((m.get d.channel).get d.clientKey).isAdmin := by
  have hA := ht.head (c := 'A') rfl
  cases h.send_cases hd with
  | ok => exact absurd hA (by decide)
  | dump _ ha hn => exact ⟨_, rfl, ha, hn⟩
  | message => rw [head_message] at hA; exact absurd hA (by decide)
  | presence => rw [head_presence] at hA; exact absurd hA (by decide)

/-- An `ok` answers an accepted message. -/
theorem Effect.ok_send (h : Effect weh env m cb m' ev) (hd : .send d "ok" ∈ ev) :
    ∃ msg, cb = .onMessage d msg ∧ Considered d msg ∧ asks weh m d = true ∧
      env.authenticator msg ≠ "" := by
  generalize ht : "ok" = text at hd
  have ho : text.toList.head? = some 'o' := ht ▸ rfl
  cases h.send_cases hd with
  | ok hc ha hn => exact ⟨_, rfl, hc, ha, hn⟩
  | dump => rw [head_dump] at ho; exact absurd ho (by decide)
  | message => rw [head_message] at ho; exact absurd ho (by decide)
  | presence => rw [head_presence] at ho; exact absurd ho (by decide)

/-- The authenticator is asked about a considered message of a client without the flag. -/
theorem Effect.authenticator_cases {msg name : String} (h : Effect weh env m cb m' ev)
    (hd : .authenticator msg name ∈ ev) :
    cb = .onMessage cb.con msg ∧ Considered cb.con msg ∧ asks weh m cb.con = true ∧
      name = env.authenticator msg := by
  have hlog : ∀ {l : List Event}, (∀ e ∈ l, e.IsLog) → .authenticator msg name ∉ l :=
    fun hl hm => not_isLog_authenticator _ _ (hl _ hm)
  have hpres : ∀ {room : Channel} {l : List Event}, Presences env room l →
      .authenticator msg name ∉ l := fun hl hm => by
    rcases hl.sound _ hm with h | ⟨_, _, _, _, _, _, _, h⟩
    · exact not_isLog_authenticator _ _ h
    · cases h
  cases h with
  | ignored _ hev => exact absurd hd (hlog hev)
  | rejected hc ha hn _ hev =>
    simp only [List.mem_cons, reduceCtorEq, false_or] at hd
    rcases hd with hd | hd
    · cases hd
      exact ⟨rfl, hc, ha, hn.symm⟩
    · exact absurd hd (hlog hev)
  | accepted hc ha _ _ hev =>
    simp only [List.mem_cons, reduceCtorEq, false_or] at hd
    rcases hd with hd | hd
    · cases hd
      exact ⟨rfl, hc, ha, rfl⟩
    · exact absurd hd (hpres hev)
  | dumped => simp at hd
  | broadcast _ _ _ _ hev =>
    rcases hev.sound _ hd with h | ⟨_, _, _, _, _, _, h⟩
    · exact absurd h (not_isLog_authenticator _ _)
    · cases h
  | refused _ hev =>
    simp only [List.mem_append, List.mem_singleton, reduceCtorEq, or_false] at hd
    exact absurd hd (hlog hev)
  | opened _ _ hev => exact absurd hd (hlog hev)
  | nothing => cases hd
  | announced _ _ _ hev => exact absurd hd (hpres hev)
  | left _ _ _ hev => exact absurd hd (hlog hev)
  | errored _ hev => exact absurd hd (hlog hev)

end

/-! ## Where entries come from -/

/-- The entry of `k` in channel `ch` after a callback, compared with the registry before. -/
inductive EntryCase (weh : WssEndpointHandler) (env : Env) (m : Clients) (ev : List Event)
    (ch k : String) : Callback → SocketClient → Prop
  | kept {cb : Callback} {c : SocketClient} (hk : (m.get ch).lookup k = some c)
      (hcb : (∃ msg, cb = .onMessage cb.con msg) ∨ ch = "" ∨
        ¬ (cb.con.channel = ch ∧ cb.con.clientKey = k)) : EntryCase weh env m ev ch k cb c
  | opened {con : Connection} (hch : con.channel = ch) (hkey : con.clientKey = k) (hc : ch ≠ "") :
      EntryCase weh env m ev ch k (.onOpen con) (((m.get ch).get k).opened env con)
  | accepted {con : Connection} {msg : String} (hch : con.channel = ch) (hkey : con.clientKey = k)
      (hc : Considered con msg) (ha : asks weh m con = true) (hn : env.authenticator msg ≠ "")
      (hev : .authenticator msg (env.authenticator msg) ∈ ev)
      (hgone : goneInPresence env k
        (((m.get ch).get k).accepted (env.authenticator msg)) = false) :
      EntryCase weh env m ev ch k (.onMessage con msg)
        (((m.get ch).get k).accepted (env.authenticator msg))
  | created {con : Connection} {msg : String} (hch : con.channel = ch) (hkey : con.clientKey = k)
      (hc : Considered con msg) (hauth : weh.authenticator = false)
      (hk : (m.get ch).lookup k = none) : EntryCase weh env m ev ch k (.onMessage con msg) default

section

variable {m m' : Clients} {cb : Callback} {ev : List Event}

theorem lookup_roomOf (m : Clients) (con : Connection) (k : String) :
    (roomOf env m con).lookup k =
      if k = con.clientKey then some ((m.get con.channel).get k)
        else (m.get con.channel).lookup k := by
  rw [roomOf, lookup_index]
  split_ifs with hk
  · rw [hk]
  · rfl

theorem lookup_roomOf_self (m : Clients) (con : Connection) :
    (roomOf env m con).lookup con.clientKey = some ((m.get con.channel).get con.clientKey) := by
  rw [lookup_roomOf, if_pos rfl]

/-- An entry of the sender's channel is among the clients that a task finds. -/
theorem lookup_roomOf_of_some {con : Connection} {ch k : String} {c : SocketClient}
    (hk : (m.get ch).lookup k = some c) (hch : ch = con.channel) :
    (roomOf env m con).lookup k = some c := by
  subst hch
  rw [lookup_roomOf]
  split_ifs with hkey
  · rw [UMap.get, hk]
    rfl
  · exact hk

/-- The client that a message finds is the one stored, or a new one. -/
theorem lookup_of_authenticated {room : Channel} {k : String}
    (h : (room.get k).authenticated = true) : room.lookup k = some (room.get k) := by
  unfold UMap.get at *
  cases hk : room.lookup k with
  | none => rw [hk] at h; cases h
  | some c => rfl

/-- A callback leaves the other channels alone. -/
theorem Effect.get_of_ne (h : Effect weh env m cb m' ev) {ch : String} (hch : ch ≠ cb.con.channel) :
    m'.get ch = m.get ch := by
  cases h with
  | ignored => rfl
  | rejected _ _ _ hm => exact (hm ch).trans (if_neg hch)
  | accepted _ _ _ hm => exact (hm ch).trans (if_neg hch)
  | dumped _ _ _ _ hm => exact (hm ch).trans (if_neg hch)
  | broadcast _ _ _ hm => exact (hm ch).trans (if_neg hch)
  | refused => rfl
  | opened _ hm => exact (hm ch).trans (if_neg hch)
  | nothing => rfl
  | announced _ _ hm => exact (hm ch).trans (if_neg hch)
  | left _ _ hm => exact (hm ch).trans (if_neg hch)
  | errored hm => exact (hm ch).trans (if_neg hch)

theorem Effect.lookup_cases (h : Effect weh env m cb m' ev) {ch k : String} {c : SocketClient}
    (hk : (m'.get ch).lookup k = some c) : EntryCase weh env m ev ch k cb c := by
  have hfilter : ∀ {o : Option SocketClient} {p : SocketClient → Bool},
      o.filter p = some c → o = some c := fun h => (Option.filter_eq_some_iff.1 h).1
  by_cases hch : ch = cb.con.channel
  case neg =>
    rw [h.get_of_ne hch] at hk
    exact .kept hk (.inr (.inr fun h => hch h.1.symm))
  cases h with
  | ignored => exact .kept hk (.inl ⟨_, rfl⟩)
  | rejected _ _ _ hm =>
    rw [hm.get_eq hch, lookup_erase, lookup_roomOf] at hk
    subst hch
    split_ifs at hk with hkey
    exact .kept hk (.inl ⟨_, rfl⟩)
  | accepted hc ha hn hm =>
    rw [hm.get_eq hch, lookup_eraseIf, lookup_modify, lookup_roomOf_self, lookup_roomOf] at hk
    subst hch
    split_ifs at hk with hkey
    · rw [← hkey] at hk
      obtain ⟨hk, hg⟩ := Option.filter_eq_some_iff.1 hk
      cases hk
      exact .accepted rfl hkey.symm hc ha hn List.mem_cons_self (by rwa [Bool.not_eq_true'] at hg)
    · exact .kept (hfilter hk) (.inl ⟨_, rfl⟩)
  | dumped _ ha _ _ hm =>
    rw [hm.get_eq hch, lookup_roomOf] at hk
    subst hch
    split_ifs at hk with hkey
    · subst hkey
      exact .kept ((lookup_of_authenticated ha).trans hk) (.inl ⟨_, rfl⟩)
    · exact .kept hk (.inl ⟨_, rfl⟩)
  | @broadcast con msg _ _ hc ha hn hm _ =>
    rw [hm.get_eq hch, lookup_eraseIf, lookup_roomOf] at hk
    subst hch
    split_ifs at hk with hkey
    · subst hkey
      have hk := hfilter hk
      cases hl : (m.get con.channel).lookup con.clientKey with
      | some c' =>
        rw [UMap.get, hl] at hk
        exact .kept (hl.trans hk) (.inl ⟨_, rfl⟩)
      | none =>
        rw [UMap.get, hl] at hk
        cases hk
        refine .created rfl rfl hc ?_ hl
        rw [asks, UMap.get, hl] at ha
        simpa using ha
    · exact .kept (hfilter hk) (.inl ⟨_, rfl⟩)
  | refused hc => exact .kept hk (.inr (.inl (hch.trans hc)))
  | opened hc hm =>
    rw [hm.get_eq hch, lookup_modify, lookup_roomOf_self, lookup_roomOf] at hk
    subst hch
    split_ifs at hk with hkey
    · rw [← hkey] at hk
      cases hk
      exact .opened rfl hkey.symm hc
    · exact .kept hk (.inr (.inr fun h => hkey h.2.symm))
  | nothing hc => exact .kept hk (.inr (.inl (hch.trans hc)))
  | announced _ _ hm =>
    rw [hm.get_eq hch, lookup_eraseIf] at hk
    subst hch
    have hk := hfilter hk
    rw [lookup_erase, lookup_roomOf] at hk
    split_ifs at hk with hkey
    exact .kept hk (.inr (.inr fun h => hkey h.2.symm))
  | left _ _ hm =>
    rw [hm.get_eq hch, lookup_erase, lookup_roomOf] at hk
    subst hch
    split_ifs at hk with hkey
    exact .kept hk (.inr (.inr fun h => hkey h.2.symm))
  | errored hm =>
    rw [hm.get_eq hch, lookup_erase] at hk
    subst hch
    split_ifs at hk with hkey
    exact .kept hk (.inr (.inr fun h => hkey h.2.symm))

/-- The entry of an authenticated client that is alive stays, but for a callback of its own
connection that is no message. -/
theorem Effect.stays (h : Effect weh env m cb m' ev) {ch k : String} {c : SocketClient}
    {d : Connection} (hk : (m.get ch).lookup k = some c) (ha : c.authenticated = true)
    (hl : c.lock env = some d)
    (hcb : (∃ msg, cb = .onMessage cb.con msg) ∨ ¬ (cb.con.channel = ch ∧ cb.con.clientKey = k)) :
    (m'.get ch).lookup k = some c := by
  have hpres : goneInPresence env k c = false := by simp [goneInPresence, hl]
  by_cases hch : ch = cb.con.channel
  case neg => rwa [h.get_of_ne hch]
  -- the sender of a message that goes to the authenticator has another key
  have hasks : ∀ {con : Connection}, asks weh m con = true → ch = con.channel →
      k ≠ con.clientKey := by
    rintro con hasks rfl rfl
    rw [asks, UMap.get, hk] at hasks
    simp [ha] at hasks
  -- the other callbacks are about another client
  have hother : (∀ msg, cb ≠ .onMessage cb.con msg) → k ≠ cb.con.clientKey := by
    rintro hno rfl
    rcases hcb with ⟨msg, hmsg⟩ | hne
    · exact hno msg hmsg
    · exact hne ⟨hch.symm, rfl⟩
  cases h with
  | ignored => exact hk
  | rejected _ hq _ hm =>
    rw [hm.get_eq hch, lookup_erase, if_neg (hasks hq hch)]
    exact lookup_roomOf_of_some hk hch
  | @accepted con _ _ _ _ hq _ hm _ =>
    have hroom : (roomOf env m con).lookup k = some c := lookup_roomOf_of_some hk hch
    rw [hm.get_eq hch, lookup_eraseIf, lookup_modify, if_neg (hasks hq hch), hroom]
    simp [hpres]
  | dumped _ _ _ _ hm =>
    rw [hm.get_eq hch]
    exact lookup_roomOf_of_some hk hch
  | @broadcast con _ _ _ _ _ _ hm _ =>
    have hroom : (roomOf env m con).lookup k = some c := lookup_roomOf_of_some hk hch
    rw [hm.get_eq hch, lookup_eraseIf, hroom]
    simp [goneInBroadcast, hl]
  | refused => exact hk
  | @opened con _ _ _ hm _ =>
    have hne : k ≠ con.clientKey := hother (by simp)
    have hroom : (roomOf env m con).lookup k = some c := lookup_roomOf_of_some hk hch
    rw [hm.get_eq hch, lookup_modify, if_neg hne, hroom]
  | nothing => exact hk
  | @announced con _ _ _ _ hm _ =>
    have hne : k ≠ con.clientKey := hother (by simp)
    have hroom : (roomOf env m con).lookup k = some c := lookup_roomOf_of_some hk hch
    rw [hm.get_eq hch, lookup_eraseIf, lookup_erase, if_neg hne, hroom]
    simp [hpres]
  | @left con _ _ _ _ hm _ =>
    have hne : k ≠ con.clientKey := hother (by simp)
    rw [hm.get_eq hch, lookup_erase, if_neg hne]
    exact lookup_roomOf_of_some hk hch
  | @errored con _ _ _ hm _ =>
    have hne : k ≠ con.clientKey := hother (by simp)
    rw [hm.get_eq hch, lookup_erase, if_neg hne]
    exact hch ▸ hk

/-- The authenticator's answer to a message of a client without the flag decides. -/
theorem handling_of_asks {con : Connection} {msg : String} (hc : Considered con msg)
    (ha : asks weh m con = true) :
    handling weh env m con msg = if env.authenticator msg = "" then .rejected else .accepted := by
  unfold handling
  rw [if_pos hc, if_pos ha]

/-- Where the authenticator is not asked, the name of the client and the text decide. -/
theorem handling_of_not_asks {con : Connection} {msg : String} (hc : Considered con msg)
    (ha : asks weh m con = false) :
    handling weh env m con msg =
      if ((m.get con.channel).get con.clientKey).authenticated = true ∧
        ((m.get con.channel).get con.clientKey).isAdmin ∧ msg = "CSTATUS" then .dumped
          else .broadcast := by
  unfold handling
  rw [if_pos hc, ha, if_neg Bool.false_ne_true]

theorem asks_of_authenticated {con : Connection}
    (ha : ((m.get con.channel).get con.clientKey).authenticated = true) :
    asks weh m con = false := by
  rw [asks, ha, Bool.not_true, Bool.and_false]

/-- A rejected message leaves no entry for its sender. -/
theorem Effect.absent_of_rejected {con : Connection} {msg : String}
    (h : Effect weh env m (.onMessage con msg) m' ev)
    (hh : handling weh env m con msg = .rejected) :
    (m'.get con.channel).lookup con.clientKey = none := by
  cases h with
  | ignored hc => rw [handling, if_neg hc] at hh; cases hh
  | rejected hc ha hn hm => rw [hm.self, lookup_erase, if_pos rfl]
  | accepted hc ha hn => rw [handling_of_asks hc ha, if_neg hn] at hh; cases hh
  | dumped hc ha hn hs =>
    rw [handling_of_not_asks hc (asks_of_authenticated ha), if_pos ⟨ha, hn, hs⟩] at hh
    cases hh
  | broadcast hc ha hn => rw [handling_of_not_asks hc ha, if_neg hn] at hh; cases hh

/-- A message that is broadcast goes out to the room as it stands. -/
theorem Effect.broadcasts {con : Connection} {msg : String}
    (h : Effect weh env m (.onMessage con msg) m' ev)
    (hh : handling weh env m con msg = .broadcast) :
    Broadcasts weh env ("MESSAGE" ++ msg) con.clientKey (roomOf env m con) ev := by
  cases h with
  | ignored hc => rw [handling, if_neg hc] at hh; cases hh
  | rejected hc ha hn => rw [handling_of_asks hc ha, if_pos hn] at hh; cases hh
  | accepted hc ha hn => rw [handling_of_asks hc ha, if_neg hn] at hh; cases hh
  | dumped hc ha hn hs =>
    rw [handling_of_not_asks hc (asks_of_authenticated ha), if_pos ⟨ha, hn, hs⟩] at hh
    cases hh
  | broadcast _ _ _ _ hev => exact hev

/-- Without an entry a client is not authenticated. -/
theorem asks_of_absent {con : Connection} (hauth : weh.authenticator = true)
    (hk : (m.get con.channel).lookup con.clientKey = none) : asks weh m con = true := by
  rw [asks, hauth, UMap.get, hk]
  rfl

end

end CppFrame.Server
