import CppFrame.Server.Authorisation

/-!
# Presence views

With an authenticator and no pool, the last `OTHERS` message of an authenticated client names the
other authenticated clients of its channel (`Fresh`). What changes the set of authenticated clients
is followed by a presence round, with two exceptions: `on_error` removes a client without one, and a
client that was kicked and is accepted after all is announced to some and pruned in the same round,
as it has no connection. Both are harmless while nobody else in the channel is authenticated
(`Told`), and in every run where they only come then the views are fresh (`fresh_of_run`).
-/

namespace CppFrame.Server

open UMap WssEndpointHandler

/-! ## The message and the names in it -/

/-- The names of the authenticated clients of a room other than `k`, in walking order. -/
def others (k : String) (nodes : List (Σ _ : String, SocketClient)) : List String :=
  (nodes.filter fun n => n.2.authenticated && n.1 ≠ k).map fun n => n.2.name

/-- One more name under a running number. -/
def othersEntry (acc : String × Nat) (name : String) : String × Nat :=
  (acc.1 ++ ("\"" ++ toString acc.2 ++ "\":") ++
    ("\x7b" ++ "\"Name\":\"" ++ name ++ "\"" ++ "\x7d") ++
    ",", acc.2 + 1)

/-- The `OTHERS` message that lists `names`. -/
def othersJson (names : List String) : String :=
  popBack (names.foldl othersEntry ("OTHERS \x7b ", 0)).1 ++ "\x7d"

theorem foldl_presenceEntry (k : String) (nodes : List (Σ _ : String, SocketClient))
    (acc : String × Nat) :
    nodes.foldl (presenceEntry k) acc = (others k nodes).foldl othersEntry acc := by
  induction nodes generalizing acc with
  | nil => rfl
  | cons n nodes ih =>
    rw [List.foldl_cons, ih]
    unfold presenceEntry others
    rw [List.filter_cons]
    split_ifs with h
    · rw [List.map_cons, List.foldl_cons]
      rfl
    · rfl

/-- The message for `k` lists the names of the others. -/
theorem presenceJson_eq (k : String) (nodes : List (Σ _ : String, SocketClient)) :
    presenceJson k nodes = othersJson (others k nodes) := by
  unfold presenceJson othersJson
  rw [foldl_presenceEntry]

/-- Two rooms with the same authenticated clients. -/
def SameFlagged (room room' : Channel) : Prop :=
  ∀ k c, c.authenticated = true → (room.lookup k = some c ↔ room'.lookup k = some c)

theorem SameFlagged.refl (room : Channel) : SameFlagged room room := fun _ _ _ => Iff.rfl

theorem SameFlagged.others_perm {room room' : Channel} (h : SameFlagged room room') (k : String) :
    (others k room.entries).Perm (others k room'.entries) := by
  have hnd : ∀ r : Channel, r.entries.Nodup := fun r => List.Nodup.of_map _ r.nodupKeys
  refine List.Perm.map _ ((List.perm_ext_iff_of_nodup ((hnd _).filter _) ((hnd _).filter _)).2 ?_)
  rintro ⟨k', c⟩
  simp only [List.mem_filter, mem_entries]
  refine and_congr_left fun hc => h k' c ?_
  exact (Bool.and_eq_true_iff.1 hc).1

/-! ## The last message -/

/-- An `OTHERS` text sent to `d`. -/
def Event.othersTo (d : Connection) : Event → Option String
  | .send con text => if con = d ∧ IsKind "OTHERS" text then some text else none
  | _ => none

theorem othersTo_eq_some {d : Connection} {e : Event} {text : String} :
    e.othersTo d = some text ↔ e = .send d text ∧ IsKind "OTHERS" text := by
  cases e with
  | send con text' =>
    simp only [Event.othersTo, Option.ite_none_right_eq_some, Option.some.injEq, Event.send.injEq]
    constructor
    · rintro ⟨⟨rfl, h⟩, rfl⟩
      exact ⟨⟨rfl, rfl⟩, h⟩
    · rintro ⟨⟨rfl, rfl⟩, h⟩
      exact ⟨⟨rfl, h⟩, rfl⟩
  | sendClose => simp [Event.othersTo]
  | authenticator => simp [Event.othersTo]
  | logger => simp [Event.othersTo]

/-- The last `OTHERS` text sent to `d`. -/
def lastOthers (t : Trace) (d : Connection) : Option String :=
  ((t.flatMap (·.2)).filterMap (Event.othersTo d)).getLast?

theorem lastOthers_snoc (t : Trace) (x : Input × List Event) (d : Connection) :
    lastOthers (t ++ [x]) d = ((x.2.filterMap (Event.othersTo d)).getLast?).or
      (lastOthers t d) := by
  unfold lastOthers
  rw [List.flatMap_append, List.flatMap_singleton, List.filterMap_append, List.getLast?_append]

/-- A step that sends `d` no `OTHERS` text leaves the last one. -/
theorem lastOthers_of_quiet {t : Trace} {x : Input × List Event} {d : Connection}
    (h : ∀ text, .send d text ∈ x.2 → ¬ IsKind "OTHERS" text) :
    lastOthers (t ++ [x]) d = lastOthers t d := by
  rw [lastOthers_snoc, List.filterMap_eq_nil_iff.2]
  · rfl
  · intro e he
    rw [Option.eq_none_iff_forall_ne_some]
    intro text ht
    obtain ⟨rfl, hk⟩ := othersTo_eq_some.1 ht
    exact h text he hk

/-- A step whose only `OTHERS` text for `d` is `text` makes it the last one. -/
theorem lastOthers_of_told {t : Trace} {x : Input × List Event} {d : Connection} {text : String}
    (hd : .send d text ∈ x.2) (ht : IsKind "OTHERS" text)
    (h : ∀ text', .send d text' ∈ x.2 → IsKind "OTHERS" text' → text' = text) :
    lastOthers (t ++ [x]) d = some text := by
  rw [lastOthers_snoc]
  cases hl : (x.2.filterMap (Event.othersTo d)).getLast? with
  | none =>
    rw [List.getLast?_eq_none_iff] at hl
    have := List.filterMap_eq_nil_iff.1 hl _ hd
    rw [othersTo_eq_some.2 ⟨rfl, ht⟩] at this
    cases this
  | some text' =>
    obtain ⟨e, he, hk⟩ := List.mem_filterMap.1 (List.mem_of_getLast? hl)
    obtain ⟨rfl, hk'⟩ := othersTo_eq_some.1 hk
    rw [h text' he hk']
    rfl

/-! ## Fresh views -/

/-- Every authenticated client has a connection, and the last `OTHERS` text sent to it lists the
names of the others that are authenticated in its channel. -/
def Fresh (t : Trace) (m : Clients) : Prop :=
  ∀ ch k c, (m.get ch).lookup k = some c → c.authenticated = true →
    ∃ d names, c.connection = some d ∧ names.Perm (others k (m.get ch).entries) ∧
      lastOthers t d = some (othersJson names)

/-- Nobody but `con` is authenticated in the channel of `con`. -/
def Alone (m : Clients) (con : Connection) : Prop :=
  ∀ n ∈ (m.get con.channel).entries, n.1 ≠ con.clientKey → n.2.authenticated = false

instance (m : Clients) (con : Connection) : Decidable (Alone m con) := by
  unfold Alone; infer_instance

/-- A client that is accepted without having a connection, or that is removed by an error while it
is authenticated, is alone. -/
def Told (weh : WssEndpointHandler) (env : Env) (m : Clients) : Callback → Prop
  | .onMessage con msg => handling weh env m con msg = .accepted →
      ((m.get con.channel).get con.clientKey).connection = none → Alone m con
  | .onError con _ =>
      ((m.get con.channel).get con.clientKey).authenticated = true → Alone m con
  | _ => True

instance (weh : WssEndpointHandler) (env : Env) (m : Clients) (cb : Callback) :
    Decidable (Told weh env m cb) :=
  match cb with
  | .onMessage .. | .onOpen _ | .onClose _ | .onError .. => by unfold Told; infer_instance

/-- Whoever is open after the callback is alive while it runs. -/
def Lives (h : List Callback) (cb : Callback) (env : Env) : Prop :=
  ∀ cb' ∈ h ++ [cb], phase cb'.con (h ++ [cb]) = .opened → env.alive cb'.con = true

instance (h : List Callback) (cb : Callback) (env : Env) : Decidable (Lives h cb env) := by
  unfold Lives; infer_instance

/-- What a callback does to the authenticated clients of a channel, and whom it tells. -/
inductive Announcement (env : Env) (m m' : Clients) (ch : String) (ev : List Event) : Prop
  | silent (same : SameFlagged (m.get ch) (m'.get ch))
      (quiet : ∀ d text, .send d text ∈ ev → ¬ IsKind "OTHERS" text)
  | round (room : Channel) (hr : Reachable env room) (same : SameFlagged room (m'.get ch))
      (told : ∀ k c d, room.lookup k = some c → c.authenticated = true → c.lock env = some d →
        .send d (presenceJson k room.entries) ∈ ev)
      (only : ∀ d text, .send d text ∈ ev → IsKind "OTHERS" text → ∃ k c,
        room.lookup k = some c ∧ c.authenticated = true ∧ c.lock env = some d ∧
          text = presenceJson k room.entries)
  | deserted (hn : ∀ k c, (m'.get ch).lookup k = some c → c.authenticated = false)

variable {weh : WssEndpointHandler} {it : Iteration} {env : Env} {m m' : Clients} {cb : Callback}
  {ev : List Event} {t : Trace}

/-! ## Rooms under a callback -/

/-- A presence round that reaches everyone removes nobody authenticated. -/
theorem sameFlagged_eraseIf {room : Channel} (hr : Reachable env room) :
    SameFlagged room (room.eraseIf (goneInPresence env)) := by
  intro k c ha
  rw [lookup_eraseIf, Option.filter_eq_some_iff]
  refine (and_iff_left_of_imp fun hk => ?_).symm
  obtain ⟨d, hd⟩ := Option.isSome_iff_exists.1 (hr k c hk ha)
  simp [goneInPresence, hd]

/-- With an authenticator a broadcast in a room where everyone can be reached removes nobody. -/
theorem sameFlagged_eraseIf_broadcast {room : Channel} (key : String) (hr : Reachable env room) :
    SameFlagged room (room.eraseIf (goneInBroadcast weh env key)) := by
  intro k c ha
  rw [lookup_eraseIf, Option.filter_eq_some_iff]
  refine (and_iff_left_of_imp fun hk => ?_).symm
  obtain ⟨d, hd⟩ := Option.isSome_iff_exists.1 (hr k c hk ha)
  simp [goneInBroadcast, hd]

/-- Removing a client without the flag. -/
theorem sameFlagged_erase {room : Channel} {key : String}
    (hn : (room.get key).authenticated = false) : SameFlagged room (room.erase key) := by
  intro k c ha
  rw [lookup_erase]
  split_ifs with hk
  · subst hk
    constructor
    · intro h
      rw [UMap.get, h, Option.getD_some, ha] at hn
      cases hn
    · exact fun h => by cases h
  · rfl

/-- Making room for a client without the flag. -/
theorem sameFlagged_roomOf (m : Clients) (con : Connection) :
    SameFlagged (m.get con.channel) (roomOf env m con) := by
  intro k c ha
  rw [lookup_roomOf]
  split_ifs with hk
  · subst hk
    rw [Option.some.injEq]
    constructor
    · intro h
      rw [UMap.get, h]
      rfl
    · intro h
      rw [lookup_of_authenticated (h ▸ ha), h]
  · rfl

theorem SameFlagged.trans {r₁ r₂ r₃ : Channel} (h : SameFlagged r₁ r₂) (h' : SameFlagged r₂ r₃) :
    SameFlagged r₁ r₃ := fun k c ha => (h k c ha).trans (h' k c ha)

/-- A write that takes the flag from a client without it. -/
theorem sameFlagged_modify {room : Channel} {key : String} {f : SocketClient → SocketClient}
    (hn : (room.get key).authenticated = false) (hf : ∀ c, (f c).authenticated = false) :
    SameFlagged room (room.modify key f) := by
  intro k c ha
  rw [lookup_modify]
  split_ifs with hk
  · subst hk
    constructor
    · intro h
      rw [UMap.get, h, Option.getD_some, ha] at hn
      cases hn
    · intro h
      obtain ⟨c', -, rfl⟩ := Option.map_eq_some_iff.1 h
      rw [hf] at ha
      cases ha
  · rfl

theorem Rooms.sameFlagged {con : Connection} {room : Channel} (hm : Rooms m m' con room)
    (h : SameFlagged (m.get con.channel) room) :
    SameFlagged (m.get con.channel) (m'.get con.channel) := hm.self.symm ▸ h

theorem Rooms.lookup {con : Connection} {room : Channel} (hm : Rooms m m' con room) {k : String}
    {c : SocketClient} (hk : (m'.get con.channel).lookup k = some c) : room.lookup k = some c :=
  hm.self ▸ hk

theorem SameFlagged.reachable {room room' : Channel} (h : SameFlagged room room')
    (hr : Reachable env room) : Reachable env room' := fun k c hk ha => hr k c ((h k c ha).2 hk) ha

/-! ## One callback -/

/-- A client of the registry can be reached unless the callback closes its connection. -/
theorem lock_of_lives {h : List Callback} {ch k : String} {c : SocketClient} {d : Connection}
    (hown : Owned h m) (hl : Lives h cb env) (hk : (m.get ch).lookup k = some c)
    (hd : c.connection = some d) (hcb : cb.con.clientKey ≠ k ∨ ∃ msg, cb = .onMessage cb.con msg) :
    c.lock env = some d := by
  obtain ⟨ho, -, hkey⟩ := hown ch k c d hk hd
  have hne : cb.con ≠ d ∨ ∃ msg, cb = .onMessage cb.con msg := hcb.imp_left fun hne e =>
    hne (e ▸ hkey)
  have ho := opened_after ho hne
  exact Option.filter_eq_some_iff.2 ⟨hd, hl (.onOpen d) (onOpen_mem ho) ho⟩

/-- The announcement of a presence round over `room`. -/
theorem announcement_of_round {ch : String} {room : Channel} {evs : List Event}
    (hr : Reachable env room) (hm : m'.get ch = room.eraseIf (goneInPresence env))
    (hp : Presences env room ev) (hsub : ∀ e ∈ ev, e ∈ evs)
    (hother : ∀ d text, .send d text ∈ evs → IsKind "OTHERS" text → .send d text ∈ ev) :
    Announcement env m m' ch evs := by
  refine .round room hr (hm ▸ sameFlagged_eraseIf hr) ?_ ?_
  · intro k c d hk ha hl
    exact hsub _ (hp.told hr k c d hk ha hl)
  · intro d text hd ht
    exact hp.only hr d text (hother d text hd ht)

theorem not_send_of_isLog {evs : List Event} (h : ∀ e ∈ evs, e.IsLog) (d : Connection)
    (text : String) (hd : .send d text ∈ evs) : ¬ IsKind "OTHERS" text :=
  absurd (h _ hd) (not_isLog_send _ _)

theorem authenticated_of_asks {con : Connection} (ha : asks weh m con = true) :
    ((m.get con.channel).get con.clientKey).authenticated = false := by
  unfold asks at ha
  rw [Bool.and_eq_true, Bool.not_eq_true'] at ha
  exact ha.2

/-- An authenticated client whose connection the callback does not close can be reached. -/
theorem isSome_lock {h : List Callback} {k : String} {c : SocketClient} (hown : Owned h m)
    (hl : Lives h cb env)
    (hconn : ∀ k c, (m.get cb.con.channel).lookup k = some c → c.authenticated = true →
      ∃ d, c.connection = some d)
    (hk : (m.get cb.con.channel).lookup k = some c) (hca : c.authenticated = true)
    (hcb : cb.con.clientKey ≠ k ∨ ∃ msg, cb = .onMessage cb.con msg) :
    (c.lock env).isSome = true := by
  obtain ⟨d, hd⟩ := hconn k c hk hca
  exact Option.isSome_iff_exists.2 ⟨d, lock_of_lives hown hl hk hd hcb⟩

/-- An accepted message is announced to the room, unless its sender has no connection in its entry;
then it was alone, and nobody is left. -/
theorem announcement_of_accepted {h : List Callback} {con : Connection} {msg : String}
    {evs : List Event} (hown : Owned h m) (hl : Lives h (.onMessage con msg) env)
    (ht : Told weh env m (.onMessage con msg))
    (hconn : ∀ k c, (m.get con.channel).lookup k = some c → c.authenticated = true →
      ∃ d, c.connection = some d)
    (hc : Considered con msg) (ha : asks weh m con = true) (hn : env.authenticator msg ≠ "")
    (hm : Rooms m m' con
      (((roomOf env m con).modify con.clientKey (·.accepted (env.authenticator msg))).eraseIf
      (goneInPresence env)))
    (hev : Presences env ((roomOf env m con).modify con.clientKey
      (·.accepted (env.authenticator msg))) evs) :
    Announcement env m m' con.channel (.authenticator msg (env.authenticator msg) ::
      .send con "ok" :: evs) := by
  have hlook : ∀ k, k ≠ con.clientKey → ((roomOf env m con).modify con.clientKey
      (·.accepted (env.authenticator msg))).lookup k = (m.get con.channel).lookup k := by
    intro k hk
    rw [lookup_modify, if_neg hk, lookup_roomOf, if_neg hk]
  have hself : ((roomOf env m con).modify con.clientKey
      (·.accepted (env.authenticator msg))).lookup con.clientKey =
      some (((m.get con.channel).get con.clientKey).accepted (env.authenticator msg)) := by
    rw [lookup_modify, if_pos rfl, lookup_roomOf_self]
    rfl
  cases hd : ((m.get con.channel).get con.clientKey).connection with
  | some d =>
    refine announcement_of_round ?_ hm.self hev ?_ ?_
    · intro k c hk hca
      by_cases hkey : k = con.clientKey
      · subst hkey
        rw [hself, Option.some.injEq] at hk
        have hlock := lock_of_lives hown hl (lookup_of_connection hd) hd (.inr ⟨msg, rfl⟩)
        subst hk
        exact Option.isSome_iff_exists.2 ⟨d, hlock⟩
      · rw [hlook k hkey] at hk
        exact isSome_lock hown hl hconn hk hca (.inr ⟨msg, rfl⟩)
    · intro e he
      exact List.mem_cons_of_mem _ (List.mem_cons_of_mem _ he)
    · intro d' text hd' hk
      simp only [List.mem_cons, reduceCtorEq, false_or] at hd'
      rcases hd' with hd' | hd'
      · cases hd'
        exact absurd hk (by decide)
      · exact hd'
  | none =>
    have halone : Alone m con := ht ((handling_of_asks hc ha).trans (if_neg hn)) hd
    refine .deserted fun k c hk => ?_
    have hk := hm.lookup hk
    rw [lookup_eraseIf] at hk
    obtain ⟨hk, hg⟩ := Option.filter_eq_some_iff.1 hk
    by_cases hkey : k = con.clientKey
    · subst hkey
      rw [hself, Option.some.injEq] at hk
      subst hk
      simp [goneInPresence, SocketClient.accepted, SocketClient.lock, hd] at hg
    · exact halone ⟨k, c⟩ (mem_entries.2 (hlook k hkey ▸ hk)) hkey

/-- **What a callback announces.** -/
theorem Effect.announcement {h : List Callback} (he : Effect weh env m cb m' ev)
    (hc : Contract h cb) (hown : Owned h m)
    (hconn : ∀ k c, (m.get cb.con.channel).lookup k = some c → c.authenticated = true →
      ∃ d, c.connection = some d)
    (hl : Lives h cb env) (ht : Told weh env m cb) :
    Announcement env m m' cb.con.channel ev := by
  cases he with
  | ignored _ hev => exact .silent (.refl _) (not_send_of_isLog hev)
  | @rejected con msg _ logs hc ha hn hm hev =>
    have hf := authenticated_of_asks ha
    refine .silent (hm.sameFlagged ?_) fun d text hd => ?_
    · exact (sameFlagged_roomOf m con).trans (sameFlagged_erase ((get_roomOf m con).symm ▸ hf))
    · simp only [List.mem_cons, reduceCtorEq, false_or] at hd
      exact not_send_of_isLog hev d text hd
  | accepted hcons ha hn hm hev =>
    exact announcement_of_accepted hown hl ht hconn hcons ha hn hm hev
  | @dumped con msg _ hc ha hn _ hm =>
    refine .silent (hm.sameFlagged (sameFlagged_roomOf m con)) fun d text hd hk => ?_
    rw [List.mem_singleton] at hd
    cases hd
    have hA := hk.head (c := 'O') rfl
    rw [head_dump] at hA
    exact absurd hA (by decide)
  | @broadcast con msg _ evs hc ha hn hm hev =>
    have hsame : SameFlagged (m.get con.channel) (roomOf env m con) := sameFlagged_roomOf m con
    have hr : Reachable env (m.get con.channel) := fun k c hk hca =>
      isSome_lock hown hl hconn hk hca (.inr ⟨msg, rfl⟩)
    refine .silent (hm.sameFlagged ?_) fun d text hd hk => ?_
    · exact hsame.trans (sameFlagged_eraseIf_broadcast con.clientKey (hsame.reachable hr))
    · rcases hev.sound _ hd with hlog | ⟨k, c, d', -, -, -, he⟩
      · exact not_isLog_send _ _ hlog
      · cases he
        have hM := hk.head (c := 'O') rfl
        rw [head_message] at hM
        exact absurd hM (by decide)
  | refused _ hev =>
    refine .silent (.refl _) fun d text hd => ?_
    simp only [List.mem_append, List.mem_singleton, reduceCtorEq, or_false] at hd
    exact not_send_of_isLog hev d text hd
  | @opened con _ _ hch hm hev =>
    have hf : ((m.get con.channel).get con.clientKey).authenticated = false := by
      by_contra hca
      rw [Bool.not_eq_false] at hca
      obtain ⟨d, hd⟩ := hconn _ _ (lookup_of_authenticated hca) hca
      obtain ⟨ho, hk₁, hk₂⟩ := hown _ _ _ d (lookup_of_connection hd) hd
      exact hc.2 (.onOpen d) (onOpen_mem ho) ho ⟨hk₁, hk₂⟩
    refine .silent (hm.sameFlagged ?_) (not_send_of_isLog hev)
    exact (sameFlagged_roomOf m con).trans (sameFlagged_modify ((get_roomOf m con).symm ▸ hf)
      fun _ => rfl)
  | nothing => exact .silent (.refl _) fun d text hd => by cases hd
  | @announced con _ _ hch ha hm hev =>
    refine announcement_of_round ?_ hm.self hev (fun e he => he)
      fun d text hd _ => hd
    intro k c hk hca
    rw [lookup_erase, lookup_roomOf] at hk
    split_ifs at hk with hkey
    exact isSome_lock hown hl hconn hk hca (.inl fun e => hkey e.symm)
  | @left con _ _ hch ha hm hev =>
    have hf := authenticated_of_asks ha
    refine .silent (hm.sameFlagged ?_) (not_send_of_isLog hev)
    exact (sameFlagged_roomOf m con).trans (sameFlagged_erase ((get_roomOf m con).symm ▸ hf))
  | @errored con ec _ _ hm hev =>
    cases hca : ((m.get con.channel).get con.clientKey).authenticated with
    | false =>
      exact .silent (hm.sameFlagged (sameFlagged_erase hca)) (not_send_of_isLog hev)
    | true =>
      refine .deserted fun k c hk => ?_
      have hk := hm.lookup hk
      rw [lookup_erase] at hk
      split_ifs at hk with hkey
      exact ht hca ⟨k, c⟩ (mem_entries.2 hk) hkey

/-! ## Runs -/

/-- Views that are fresh before a callback of the contract are fresh after it. -/
theorem Effect.fresh (he : Effect weh env m cb m' ev) (hc : Contract (calls t) cb)
    (hl : Lives (calls t) cb env) (ht : Told weh env m cb) (hs : Sessions t m) (hf : Fresh t m) :
    Fresh (t ++ [((cb, env), ev)]) m' := by
  have hown := (he.sessions hc hs).owned
  intro ch k c hk ha
  by_cases hch : ch = cb.con.channel
  · subst hch
    have hconn : ∀ k c, (m.get cb.con.channel).lookup k = some c → c.authenticated = true →
        ∃ d, c.connection = some d := by
      intro k c hk ha
      obtain ⟨d, -, hd, -⟩ := hf _ k c hk ha
      exact ⟨d, hd⟩
    cases he.announcement hc hs.owned hconn hl ht with
    | silent same quiet =>
      obtain ⟨d, names, hd, hp, hlast⟩ := hf _ k c ((same k c ha).2 hk) ha
      refine ⟨d, names, hd, hp.trans (same.others_perm k), ?_⟩
      rw [lastOthers_of_quiet (quiet d), hlast]
    | round room hr same told only =>
      have hk' := (same k c ha).2 hk
      obtain ⟨d, hd⟩ := Option.isSome_iff_exists.1 (hr k c hk' ha)
      have hconn := (Option.filter_eq_some_iff.1 hd).1
      refine ⟨d, others k room.entries, hconn, same.others_perm k, ?_⟩
      rw [← presenceJson_eq]
      refine lastOthers_of_told (told k c d hk' ha hd) (isKind_presence _ _)
        fun text hd' htext => ?_
      obtain ⟨k', c', hk₁, ha₁, hl₁, rfl⟩ := only d text hd' htext
      have h₁ := (hown _ k c d hk hconn).2.2
      have h₂ := (hown _ k' c' d ((same k' c' ha₁).1 hk₁) (Option.filter_eq_some_iff.1 hl₁).1).2.2
      rw [← h₁, ← h₂]
    | deserted hn =>
      rw [hn k c hk] at ha
      cases ha
  · have hget := he.get_of_ne hch
    rw [hget] at hk ⊢
    obtain ⟨d, names, hd, hp, hlast⟩ := hf ch k c hk ha
    refine ⟨d, names, hd, hp, ?_⟩
    rw [lastOthers_of_quiet, hlast]
    -- the presence round of another channel does not reach `d`
    intro text hd' htext
    obtain ⟨k', c', hk', -, hl'⟩ := he.presence_send hd' htext
    have h₁ := (hown _ k c d (hget ▸ hk) hd).2.1
    have h₂ := (hown _ k' c' d hk' (Option.filter_eq_some_iff.1 hl').1).2.1
    exact hch (h₁.symm.trans h₂)

/-- The server keeps its contract, and whoever is open is alive. -/
def keptAlive (_ : Clients) (t : Trace) (i : Input) : Prop :=
  Contract (calls t) i.1 ∧ Lives (calls t) i.1 i.2

/-- Moreover nobody leaves, or is announced, behind the others' backs. -/
def keptTold (weh : WssEndpointHandler) (m : Clients) (t : Trace) (i : Input) : Prop :=
  keptAlive m t i ∧ Told weh i.2 m i.1

instance (m : Clients) (t : Trace) (i : Input) : Decidable (keptAlive m t i) := by
  unfold keptAlive; infer_instance

instance (weh : WssEndpointHandler) (m : Clients) (t : Trace) (i : Input) :
    Decidable (keptTold weh m t i) := by
  unfold keptTold; infer_instance

/-- **Presence views are fresh** in every run in which an authenticated client that an error
removes, and a client that is accepted without a connection, are the only authenticated ones of
their channel. -/
theorem fresh_of_run (h : Run (weh.inline it) (keptTold weh) ∅ t m) : Fresh t m := by
  refine (h.invariant (P := fun t m => Sessions t m ∧ Fresh t m) ⟨sessions_start, ?_⟩ ?_).2
  · intro ch k c hk
    cases hk
  · rintro t s ⟨cb, env⟩ s' ev ⟨hs, hf⟩ ⟨⟨hc, hl⟩, ht⟩ hstep
    have he := handle_effect hstep
    exact ⟨he.sessions hc hs, he.fresh hc hl ht hs hf⟩

/-- Two clients authenticate and the first one closes: the second is told that nobody is left. -/
theorem fresh_of_run_close : ∃ t m, Run (secured.inline .checked) (keptTold secured) ∅ t m ∧
    lastOthers t clientB = some (othersJson []) ∧ Fresh t m := by
  obtain ⟨t, m, hr, -, hq⟩ := Run.exists_of_replay (secured.inline .checked) (keptTold secured) ∅
    (callsOf [.onOpen clientA, .onOpen clientB, .onMessage clientA "Ann", .onMessage clientB "Bob",
      .onClose clientA]) (fun t _ => decide (lastOthers t clientB = some (othersJson [])))
      (by decide)
  exact ⟨t, m, hr, of_decide_eq_true hq, fresh_of_run hr⟩

/-- When an error removes the first client instead, the second still believes it is there. -/
theorem stale_after_error : ¬ ∀ (t : Trace) (m : Clients),
    Run (secured.inline .checked) keptAlive ∅ t m → Fresh t m := by
  intro hall
  obtain ⟨t, m, hr, -, hq⟩ := Run.exists_of_replay (secured.inline .checked) keptAlive ∅
    (callsOf [.onOpen clientA, .onOpen clientB, .onMessage clientA "Ann", .onMessage clientB "Bob",
      .onError clientA "reset"])
    (fun t m => decide (lastOthers t clientB = some (othersJson ["Ann"]) ∧
      m.entry clientB.channel clientB.clientKey = some ⟨some clientB, 0, true, "Bob"⟩ ∧
      others clientB.clientKey (m.get clientB.channel).entries = [])) (by decide)
  obtain ⟨hlast, hk, hno⟩ := of_decide_eq_true hq
  rw [Clients.entry_eq] at hk
  obtain ⟨d, names, hd, hp, hl⟩ := hall t m hr _ _ _ hk rfl
  cases hd
  rw [hno] at hp
  rw [hp.eq_nil, hlast] at hl
  exact absurd hl (by decide)

end CppFrame.Server
