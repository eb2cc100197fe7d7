import CppFrame.Server.Presence
import CppFrame.Server.Pruning

/-!
# The others

What one round of `send_channel_presence` says, and to whom, in a channel where every client can be
reached: one message to each authenticated client, which lists the other authenticated clients of
the channel in walking order (`sendChannelPresence_lists`). The text is built with a blank or a
comma too many at its end, which `pop_back` takes away (`presenceJson_eq_othersText`).
-/

namespace CppFrame.Server

open UMap RangeFor WssEndpointHandler

/-! ## Events -/

/-- What others than the logger get of some events. -/
def heard (es : List Event) : List Event :=
  es.filter fun e => match e with | .logger .. => false | _ => true

theorem heard_append (es es' : List Event) : heard (es ++ es') = heard es ++ heard es' :=
  List.filter_append ..

theorem heard_log (weh : WssEndpointHandler) (message : String) (level : File.LogLevel) :
    heard (weh.log message level) = [] := by
  unfold WssEndpointHandler.log
  split_ifs <;> rfl

theorem length_filterMap_of_isSome {α β : Type} {f : α → Option β} {l : List α}
    (h : ∀ a ∈ l, (f a).isSome = true) :
    (l.filterMap f).length = l.length := by
  induction l with
  | nil => rfl
  | cons a l ih =>
    obtain ⟨b, hb⟩ := Option.isSome_iff_exists.1 (h a List.mem_cons_self)
    rw [List.filterMap_cons_some hb, List.length_cons, List.length_cons,
      ih fun a ha => h a (List.mem_cons_of_mem _ ha)]

/-! ## The text -/

/-- The authenticated clients other than `k`, in walking order. -/
def otherClients (k : String) (nodes : List (Σ _ : String, SocketClient)) : List SocketClient :=
  (nodes.filter fun n => n.2.authenticated && n.1 ≠ k).map Sigma.snd

/-- A client under a number. -/
def numbered (i : Nat) (client : SocketClient) : String :=
  "\"" ++ toString i ++ "\":" ++ getPresenceJson client

/-- The text that lists some clients, numbered from `0` and separated by commas. -/
def othersText (clients : List SocketClient) : String :=
  if clients = [] then "OTHERS \x7b\x7d"
  else "OTHERS \x7b " ++ ",".intercalate (clients.mapIdx numbered) ++ "\x7d"

theorem others_eq_map (k : String) (nodes : List (Σ _ : String, SocketClient)) :
    others k nodes = (otherClients k nodes).map SocketClient.name := by
  unfold others otherClients
  rw [List.map_map]
  rfl

theorem popBack_append (s : String) (c : Char) : popBack (s ++ String.singleton c) = s := by
  unfold popBack
  rw [String.toList_append, String.toList_singleton, List.dropLast_concat, String.ofList_toList]

/-- What the inner loop adds to a text: the clients from a number on, each with a comma. -/
theorem foldl_othersEntry (clients : List SocketClient) (s : String) (i : Nat) (h : clients ≠ []) :
    ((clients.map SocketClient.name).foldl othersEntry (s, i)).1 =
      s ++ ",".intercalate (clients.mapIdx fun j c => numbered (i + j) c) ++ "," := by
  induction clients generalizing s i with
  | nil => exact absurd rfl h
  | cons c clients ih =>
    have hentry : othersEntry (s, i) c.name = (s ++ numbered i c ++ ",", i + 1) := by
      unfold othersEntry numbered getPresenceJson
      simp only [String.append_assoc]
    rw [List.map_cons, List.foldl_cons, hentry, List.mapIdx_cons]
    cases clients with
    | nil =>
      rw [List.mapIdx_nil, String.intercalate_singleton]
      rfl
    | cons c' clients =>
      have hrest : (fun j c => numbered (i + 1 + j) c) = fun j c => numbered (i + (j + 1)) c := by
        funext j c
        rw [Nat.add_right_comm, Nat.add_assoc]
      rw [ih _ _ (List.cons_ne_nil _ _), hrest, String.intercalate_cons_of_ne_nil (by simp)]
      simp only [String.append_assoc, Nat.add_zero]

/-- The message for `k` lists the others. -/
theorem presenceJson_eq_othersText (k : String) (nodes : List (Σ _ : String, SocketClient)) :
    presenceJson k nodes = othersText (otherClients k nodes) := by
  rw [presenceJson_eq, others_eq_map, othersJson]
  unfold othersText
  by_cases h : otherClients k nodes = []
  · rw [if_pos h, h]
    rfl
  · have hnumbered : (fun j c => numbered (0 + j) c) = numbered := by
      funext j c
      rw [Nat.zero_add]
    rw [if_neg h, foldl_othersEntry _ _ _ h, hnumbered]
    exact congrArg (· ++ "\x7d") (popBack_append _ ',')

/-! ## The round -/

variable {weh : WssEndpointHandler} {env : Env} {m : Clients} {channel : String}

/-- Everyone in a channel can be reached. -/
def AllLive (env : Env) (room : Channel) : Prop := ∀ n ∈ room.entries, (n.2.lock env).isSome = true

instance (env : Env) (room : Channel) : Decidable (AllLive env room) := by
  unfold AllLive; infer_instance

theorem AllLive.reachable {room : Channel} (h : AllLive env room) : Reachable env room :=
  fun k c hk _ => h ⟨k, c⟩ (mem_entries.2 hk)

/-- The message for a client, at its connection. -/
def presenceMessage (env : Env) (room : Channel) (n : Σ _ : String, SocketClient) : Option Event :=
  (n.2.lock env).map fun con => .send con (othersText (otherClients n.1 room.entries))

/-- The authenticated clients. -/
def flagged (nodes : List (Σ _ : String, SocketClient)) : List (Σ _ : String, SocketClient) :=
  nodes.filter fun n => n.2.authenticated

theorem heard_presenceMessages (room : Channel) (l : List (Σ _ : String, SocketClient)) :
    heard (l.filterMap (presenceMessage env room)) = l.filterMap (presenceMessage env room) := by
  refine List.filter_eq_self.2 fun e he => ?_
  obtain ⟨n, -, hn⟩ := List.mem_filterMap.1 he
  obtain ⟨con, -, rfl⟩ := Option.map_eq_some_iff.1 hn
  rfl

/-- The messages of a round: one for each authenticated client. -/
def roundOf (env : Env) (room : Channel) : List Event :=
  (flagged room.entries).filterMap (presenceMessage env room)

theorem flatMap_presenceTo (hlive : AllLive env (m.get channel)) :
    ((m.get channel).entries.flatMap fun n => (weh.presenceTo env channel n.1 n.2 m).2) =
      roundOf env (m.get channel) := by
  unfold roundOf flagged
  rw [List.filterMap_filter, List.filterMap_eq_flatMap_toList]
  refine List.flatMap_congr fun n hn => ?_
  unfold WssEndpointHandler.presenceTo
  split_ifs
  · obtain ⟨con, hcon⟩ := Option.isSome_iff_exists.1 (hlive n hn)
    rw [presenceMessage, hcon, presenceJson_eq_othersText]
    rfl
  · rfl

theorem get_of_notMem (h : channel ∉ m) : m.get channel = ∅ := by
  rw [UMap.get, AList.lookup_eq_none.2 h]
  rfl

/-- A round ends, whether its iterator is checked or not, as it removes nobody. -/
theorem sendChannelPresence_isSome_of_live (weh : WssEndpointHandler) (it : Iteration)
    (hlive : AllLive env (m.get channel)) :
    (weh.sendChannelPresence it env channel m).isSome = true := by
  cases it with
  | plain =>
    unfold sendChannelPresence
    split_ifs
    · rw [rangeFor_plain]
      rfl
    · rfl
  | checked =>
    refine (sendChannelPresence_isSome _ _).2 fun n hn => ?_
    obtain ⟨con, hcon⟩ := Option.isSome_iff_exists.1 (hlive n hn)
    simp [goneInPresence, hcon]

theorem roundOf_of_notMem (h : channel ∉ m) : roundOf env (m.get channel) = [] := by
  rw [get_of_notMem h]
  rfl

theorem sendChannelPresence_eq_round (weh : WssEndpointHandler) (it : Iteration)
    (hlive : AllLive env (m.get channel)) :
    weh.sendChannelPresence it env channel m = some (m, roundOf env (m.get channel)) := by
  obtain ⟨r, hr⟩ := Option.isSome_iff_exists.1 (sendChannelPresence_isSome_of_live weh it hlive)
  rw [hr]
  unfold sendChannelPresence at hr
  split_ifs at hr with hm
  · rw [eq_visit hr, visit_presenceTo hlive.reachable, flatMap_presenceTo hlive]
  · cases hr
    rw [roundOf_of_notMem hm]

/-- **Presence lists exactly the others.** Where everyone in a channel can be reached, a round sends
one message to each authenticated client and none to anyone else. It lists the other authenticated
clients. The registry stays as it is, and where there is no channel nothing is sent. -/
theorem sendChannelPresence_lists (weh : WssEndpointHandler) (it : Iteration) (env : Env)
    (m : Clients) (channel : String) (hlive : AllLive env (m.get channel)) :
    weh.sendChannelPresence it env channel m = some (m, roundOf env (m.get channel)) ∧
    (channel ∉ m → roundOf env (m.get channel) = []) :=
  ⟨sendChannelPresence_eq_round weh it hlive, roundOf_of_notMem⟩

/-- The third client of `room1`. -/
def thirdClient : Connection := ⟨2, "10.0.0.3", 5000, "room=1"⟩

/-- Two authenticated clients of `room1` and one that is not. -/
def roomOfThree : Channel where
  entries := [⟨"10.0.0.1:5000", ⟨some clientA, 0, true, "ann"⟩⟩,
    ⟨"10.0.0.2:5000", ⟨some clientB, 0, true, "bob"⟩⟩,
    ⟨"10.0.0.3:5000", ⟨some thirdClient, 0, false, ""⟩⟩]
  nodupKeys := by unfold List.NodupKeys; decide

def threeClients : Clients := AList.singleton "room1" roomOfThree

/-- Both authenticated clients are told of each other. -/
theorem sendChannelPresence_lists_three : AllLive steady (threeClients.get "room1") ∧
    secured.sendChannelPresence .checked steady "room1" threeClients = some (threeClients,
      [.send clientA "OTHERS \x7b \"0\":\x7b\"Name\":\"bob\"\x7d\x7d",
        .send clientB "OTHERS \x7b \"0\":\x7b\"Name\":\"ann\"\x7d\x7d"]) := by
  have hlive : AllLive steady (threeClients.get "room1") := by decide
  have hround : roundOf steady (threeClients.get "room1") =
      [.send clientA "OTHERS \x7b \"0\":\x7b\"Name\":\"bob\"\x7d\x7d",
        .send clientB "OTHERS \x7b \"0\":\x7b\"Name\":\"ann\"\x7d\x7d"] := by decide
  refine ⟨hlive, ?_⟩
  rw [(sendChannelPresence_lists secured .checked steady threeClients "room1" hlive).1, hround]

end CppFrame.Server
