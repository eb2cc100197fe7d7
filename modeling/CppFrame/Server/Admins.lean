import CppFrame.Db.Auth
import CppFrame.Server.Pooled

/-!
# The dump is for admins

`on_message` answers `CSTATUS` with all clients where the flag of the sender's entry is set and its
name is one of three. With `Auth::from_first_wss_message` as authenticator the names of agents begin
with their number, so that such a name was given to an `admin` (`dump_for_admins`), whatever the
database answers and whatever the order of the tasks.
-/

namespace CppFrame.Server

open RangeFor
open Db (Answers fields fourth_field_of_name)

/-! ## The message that was accepted last -/

/-- The message and the name of a call of the authenticator that gave a name. -/
def Event.named : Event → Option (String × String)
  | .authenticator message name => if name = "" then none else some (message, name)
  | _ => none

/-- The message that a step accepted under a key, with its name. -/
def acceptedIn (ch key : String) (x : PoolInput × Served) : Option (String × String) :=
  x.2.bind fun r =>
    if r.1.con.channel = ch ∧ r.1.con.clientKey = key then r.2.findSome? Event.named else none

/-- The message that was accepted last under a key, with its name. -/
def lastAccepted (ch key : String) (t : PoolTrace) : Option (String × String) :=
  (t.filterMap (acceptedIn ch key)).getLast?

theorem lastAccepted_snoc (ch key : String) (t : PoolTrace) (x : PoolInput × Served) :
    lastAccepted ch key (t ++ [x]) = (acceptedIn ch key x).or (lastAccepted ch key t) := by
  unfold lastAccepted
  rw [List.filterMap_append, List.getLast?_append]
  cases h : acceptedIn ch key x <;> simp [h]

/-- The name that `from_first_wss_message` gives to a message. -/
def nameFrom (answers : Answers) (message : String) : String :=
  Db.Auth.fromFirstWssMessage (m := Id) answers message

/-- The authenticator of a step is `from_first_wss_message`, with a database that may answer
anything. -/
def byFirstMessage (_ : Pooled) (_ : PoolTrace) (i : PoolInput) : Prop :=
  ∃ answers, i.env.authenticator = nameFrom answers

variable {weh : WssEndpointHandler} {it : Iteration} {env : Env} {m m' : Clients} {cb : Callback}
  {ev : List Event} {s s' : Pooled} {t : PoolTrace} {i : PoolInput} {o : Served} {ch key : String}

/-- What was accepted in a step had gone to the authenticator. -/
theorem Effect.of_acceptedIn (he : Effect weh env m cb m' ev) {msg name : String}
    (h : acceptedIn ch key (i, some (cb, ev)) = some (msg, name)) :
    cb = .onMessage cb.con msg ∧ cb.con.channel = ch ∧ cb.con.clientKey = key ∧
      asks weh m cb.con = true ∧ name = env.authenticator msg := by
  simp only [acceptedIn, Option.bind_some] at h
  split_ifs at h with hkey
  obtain ⟨e, hm, hn⟩ := List.exists_of_findSome?_eq_some h
  cases e with
  | authenticator msg' name' =>
    simp only [Event.named] at hn
    split_ifs at hn
    cases hn
    obtain ⟨hcb, -, ha, hname⟩ := he.authenticator_cases hm
    exact ⟨hcb, hkey.1, hkey.2, ha, hname⟩
  | _ => cases hn

/-- A name in the events is found. -/
theorem acceptedIn_isSome {msg name : String} (hch : cb.con.channel = ch)
    (hkey : cb.con.clientKey = key) (hm : .authenticator msg name ∈ ev) (hn : name ≠ "") :
    (acceptedIn ch key (i, some (cb, ev))).isSome = true := by
  simp only [acceptedIn, Option.bind_some, if_pos (And.intro hch hkey), List.findSome?_isSome_iff]
  exact ⟨_, hm, by simp [Event.named, hn]⟩

/-- The name of an authenticated entry is that of the message accepted last under its key. -/
def NameGiven (weh : WssEndpointHandler) (t : PoolTrace) (m : Clients) : Prop :=
  ∀ ch key e, (m.get ch).lookup key = some e → e.authenticated = true →
    weh.authenticator = true ∧ ∃ msg answers, lastAccepted ch key t = some (msg, e.name) ∧
      e.name = nameFrom answers msg

theorem Effect.nameGiven (he : Effect weh i.env m cb m' ev)
    (hi : ∃ answers, i.env.authenticator = nameFrom answers) (h : NameGiven weh t m) :
    NameGiven weh (t ++ [(i, some (cb, ev))]) m' := by
  intro ch key e hk ha
  rw [lastAccepted_snoc]
  cases he.lookup_cases hk with
  | kept hk =>
    -- a message under this key would not have gone to the authenticator
    have hnone : acceptedIn ch key (i, some (cb, ev)) = none := by
      cases hacc : acceptedIn ch key (i, some (cb, ev)) with
      | none => rfl
      | some r =>
        obtain ⟨-, rfl, rfl, hasks, -⟩ := he.of_acceptedIn hacc
        rw [asks, UMap.get, hk] at hasks
        simp [ha] at hasks
    rw [hnone, Option.none_or]
    exact h ch key e hk ha
  | opened => cases ha
  | @accepted con msg hch hkey hc hasks hn hev =>
    obtain ⟨answers, hi⟩ := hi
    have hsome : (acceptedIn ch key (i, some (.onMessage con msg, ev))).isSome = true :=
      acceptedIn_isSome hch hkey hev hn
    obtain ⟨⟨msg', name⟩, hr⟩ := Option.isSome_iff_exists.1 hsome
    obtain ⟨hcb, -, -, hasks, rfl⟩ := he.of_acceptedIn hr
    cases hcb
    rw [hr, Option.some_or]
    refine ⟨?_, msg, answers, rfl, ?_⟩
    · rw [asks, Bool.and_eq_true] at hasks
      exact hasks.1
    · rw [← hi]
      rfl
  | created => cases ha

theorem nameGiven_of_run (h : Run (weh.pooled it) byFirstMessage Pooled.start t s) :
    NameGiven weh t s.clients := by
  refine h.invariant (P := fun t s => NameGiven weh t s.clients) (fun ch key e hk => by cases hk) ?_
  intro t s i s' o ih hg hs
  cases pooled_serves hs with
  | queued =>
    intro ch key e hk ha
    rw [lastAccepted_snoc]
    exact ih ch key e hk ha
  | atOnce hq he => exact he.nameGiven hg ih
  | task hn he => exact he.nameGiven hg ih

/-! ## The dump -/

/-- None of the three names begins like a number. -/
theorem SocketClient.isAdmin.letter {c : SocketClient} (h : c.isAdmin) :
    ∃ x l, c.name.toList = x :: l ∧ x.isDigit = false ∧ x ≠ '-' := by
  rcases h with h | h | h
  · exact ⟨'S', "ean J".toList, by rw [h]; rfl, by decide, by decide⟩
  · exact ⟨'A', "sh D".toList, by rw [h]; rfl, by decide, by decide⟩
  · exact ⟨'A', "lex D".toList, by rw [h]; rfl, by decide, by decide⟩

/-- **Only admins are sent the dump.** Whoever is sent it has just sent a message, an authenticator
is set, and the name of its entry was given to the message accepted last under its key, whose fourth
field is `admin`. -/
theorem dump_for_admins {d : Connection} {m : Clients}
    (h : Run (weh.pooled it) byFirstMessage Pooled.start (t ++ [(i, some (cb, ev))]) s')
    (hd : .send d (weh.getAllClientsInJson m) ∈ ev) :
    weh.authenticator = true ∧ (∃ request, cb = .onMessage d request) ∧ ∃ s msg answers,
      Run (weh.pooled it) byFirstMessage Pooled.start t s ∧
      lastAccepted d.channel d.clientKey t =
        some (msg, ((s.clients.get d.channel).get d.clientKey).name) ∧
      ((s.clients.get d.channel).get d.clientKey).name = nameFrom answers msg ∧
      (fields msg)[3]? = some "admin" := by
  obtain ⟨s, hr, hg, hs⟩ := h.snoc_inv
  obtain ⟨-, he⟩ := (pooled_serves hs).next_eq
  obtain ⟨msg', hcb, ha, hadmin⟩ := he.dump_send hd (isKind_dump m)
  obtain ⟨hauth, msg, answers, hlast, hname⟩ :=
    nameGiven_of_run hr _ _ _ (lookup_of_authenticated ha) ha
  obtain ⟨c, l, hl, hc, hne⟩ := hadmin.letter
  rw [hname] at hl
  exact ⟨hauth, ⟨_, hcb⟩, s, msg, answers, hr, hlast, hname, fourth_field_of_name hl hc hne⟩

/-! ## A concrete run -/

/-- A database in which every session is known and everyone has the name of an admin. -/
def adminDb : Answers := fun query _ =>
  if query = "SELECT id AS value FROM usr_sess WHERE usr = ? AND token = ? AND type = ?" then
    some "1"
  else some "Sean J"

/-- The environment of every step. -/
def asked : Env := { steady with authenticator := nameFrom adminDb }

/-- Whether the last step answered A with the dump. -/
def dumpedLast (t : PoolTrace) (s : Pooled) : Bool :=
  t.getLast?.any fun x => decide (x.2 = some (.onMessage clientA "CSTATUS",
    [.send clientA (pooledSecured.getAllClientsInJson s.clients)]))

/-- An admin asks for the dump. -/
theorem dump_for_admins_asked : ∃ (t : PoolTrace) (i : PoolInput) (ev : List Event) (s' : Pooled),
    Run (pooledSecured.pooled .plain) byFirstMessage Pooled.start
      (t ++ [(i, some (.onMessage clientA "CSTATUS", ev))]) s' ∧
    .send clientA (pooledSecured.getAllClientsInJson s'.clients) ∈ ev ∧
    ∃ msg name, lastAccepted clientA.channel clientA.clientKey t = some (msg, name) ∧
      (fields msg)[3]? = some "admin" := by
  obtain ⟨t, s', h, hin, hp⟩ :=
    Run.exists_of_replay (pooledSecured.pooled .plain) (fun _ _ _ => True)
    Pooled.start ([Callback.onOpen clientA, .onMessage clientA "7-x-token-admin",
      .onMessage clientA "CSTATUS"].flatMap fun cb => [.callback cb asked, .execute 0 asked])
    dumpedLast (by decide +kernel)
  have henv : ∀ i ∈ Run.inputs t, i.env = asked := by
    rw [hin]
    intro i hi
    obtain ⟨cb, -, hi⟩ := List.mem_flatMap.1 hi
    rcases List.mem_pair.1 hi with rfl | rfl <;> rfl
  have h : Run _ byFirstMessage _ t s' := h.of_inputs fun i hi _ _ =>
    ⟨adminDb, by rw [henv i hi]; rfl⟩
  obtain ⟨⟨i, o⟩, hx, ho⟩ := (Option.any_eq_true _ _).1 hp
  obtain ⟨t, rfl⟩ := List.getLast?_eq_some_iff.1 hx
  obtain rfl : o = _ := of_decide_eq_true ho
  have hd : Event.send clientA (pooledSecured.getAllClientsInJson s'.clients) ∈
      [Event.send clientA (pooledSecured.getAllClientsInJson s'.clients)] :=
      List.mem_singleton.2 rfl
  obtain ⟨-, -, s, msg, answers, -, hlast, -, hfield⟩ := dump_for_admins h hd
  exact ⟨t, i, _, s', h, hd, msg, _, hlast, hfield⟩

end CppFrame.Server
