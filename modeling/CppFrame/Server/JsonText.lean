import CppFrame.Json
import CppFrame.Server.Others

/-!
# The JSON that is sent

What `get_all_clients_in_json` and `send_channel_presence` write is a JSON object behind a word. The
blank behind an opening brace stands where the first member goes, or `pop_back` takes it away where
there is none, and the last comma goes the same way (`popBack_foldl`). Nothing is escaped, so the
texts read back exactly where nothing needed it (`readsBack_iff`).
-/

namespace CppFrame.Server

open UMap WssEndpointHandler Json

/-! ## What should be read back -/

/-- What the dump says of a client. -/
def clientMembers (weh : WssEndpointHandler) (c : SocketClient) : List (String × String) :=
  [("Name", c.name), ("Authenticated", if c.authenticated then "Yes" else "No"),
    ("Connection Timestamp", weh.timeTToString c.connectionTstamp)]

def clientValue (weh : WssEndpointHandler) (c : SocketClient) : Value :=
  .object ((clientMembers weh c).map fun n => (n.1, .string n.2))

def roomValue (weh : WssEndpointHandler) (room : Channel) : Value :=
  .object (room.entries.map fun n => (n.1, clientValue weh n.2))

/-- The channels with their clients. -/
def clientsValue (weh : WssEndpointHandler) (m : Clients) : Value :=
  .object (m.entries.map fun n => (n.1, roomValue weh n.2))

/-- The clients of a presence message under their numbers, by their names. -/
def othersValue (clients : List SocketClient) : Value :=
  .object ((clients.mapIdx Prod.mk).map fun n =>
    (toString n.1, .object [("Name", .string n.2.name)]))

/-- What is sent can be read back. Behind their words the dump and every presence message say what
they should, and nothing else. -/
structure ReadsBack (weh : WssEndpointHandler) (m : Clients) : Prop where
  dump : ∃ text, weh.getAllClientsInJson m = "ALL    " ++ text ∧
    ∀ v, Parses text v ↔ v = clientsValue weh m
  presence : ∀ channel clientKey, ∃ text,
    presenceJson clientKey (m.get channel).entries = "OTHERS " ++ text ∧
      ∀ v, Parses text v ↔ v = othersValue (otherClients clientKey (m.get channel).entries)

/-- The strings of a client need no escape. -/
def PlainClient (weh : WssEndpointHandler) (c : SocketClient) : Prop :=
  Plain c.name ∧ Plain (weh.timeTToString c.connectionTstamp)

/-- No string in the registry needs an escape. -/
def AllPlain (weh : WssEndpointHandler) (m : Clients) : Prop :=
  ∀ n ∈ m.entries, Plain n.1 ∧ ∀ c ∈ n.2.entries, Plain c.1 ∧ PlainClient weh c.2

instance (weh : WssEndpointHandler) (c : SocketClient) : Decidable (PlainClient weh c) := by
  unfold PlainClient; infer_instance

instance (weh : WssEndpointHandler) (m : Clients) : Decidable (AllPlain weh m) := by
  unfold AllPlain; infer_instance

/-! ## The texts -/

def clientText (weh : WssEndpointHandler) (c : SocketClient) : String :=
  objectText "" ((clientMembers weh c).map fun n => (n.1, quoted n.2))

def roomText (weh : WssEndpointHandler) (room : Channel) : String :=
  objectText " " (room.entries.map fun n => (n.1, clientText weh n.2))

theorem foldl_comma {α : Type} (g : α → String) (l : List α) (hl : l ≠ []) (s : String) :
    l.foldl (fun json a => json ++ (g a ++ ",")) s = s ++ ",".intercalate (l.map g) ++ "," := by
  induction l generalizing s with
  | nil => exact absurd rfl hl
  | cons a l ih =>
    rw [List.foldl_cons, List.map_cons]
    cases l with
    | nil =>
      rw [List.foldl_nil, List.map_nil, String.intercalate_singleton, String.append_assoc]
    | cons b l =>
      rw [ih (List.cons_ne_nil _ _), String.intercalate_cons_of_ne_nil (by simp)]
      simp only [String.append_assoc]

/-- A loop that writes members with commas, and what closes the object behind it. -/
theorem popBack_foldl {α : Type} (f : α → String × String) (l : List α) (s : String) :
    popBack (l.foldl (fun json a => json ++ (memberText (f a) ++ ",")) (s ++ "\x7b ")) ++ "\x7d" =
      s ++ objectText " " (l.map f) := by
  cases l with
  | nil =>
    have hblank : s ++ "\x7b " = s ++ "\x7b" ++ String.singleton ' ' := by
      rw [String.append_assoc]
      rfl
    rw [List.foldl_nil, hblank, popBack_append, String.append_assoc]
    rfl
  | cons a l =>
    rw [foldl_comma (fun a => memberText (f a)) _ (List.cons_ne_nil _ _), objectText,
      if_neg (by simp), List.map_map]
    have hcomma :=
      popBack_append (s ++ "\x7b " ++ ",".intercalate ((a :: l).map fun a => memberText (f a))) ','
    refine (congrArg (· ++ "\x7d") hcomma).trans ?_
    simp only [String.append_assoc]
    rfl

variable {weh : WssEndpointHandler} {m : Clients}

theorem clientJson_eq (weh : WssEndpointHandler) (n : Σ _ : String, SocketClient) :
    weh.clientJson n = memberText (n.1, clientText weh n.2) ++ "," := by
  apply String.toList_injective
  simp [clientJson, memberText, quoted, clientText, clientMembers, objectText]

theorem channelJson_eq (weh : WssEndpointHandler) (n : Σ _ : String, Channel) :
    weh.channelJson n = memberText (n.1, roomText weh n.2) ++ "," := by
  have hloop :=
    popBack_foldl (fun c : Σ _ : String, SocketClient => (c.1, clientText weh c.2)) n.2.entries
    (quoted n.1 ++ ":")
  have hstart : "\"" ++ n.1 ++ "\":\x7b " = quoted n.1 ++ ":" ++ "\x7b " := by
    apply String.toList_injective
    simp [quoted]
  have hend : "\x7d," = "\x7d" ++ "," := rfl
  unfold channelJson
  simp only [clientJson_eq]
  rw [hstart, hend, ← String.append_assoc, hloop, memberText, roomText]

/-- The dump is an object behind its word. -/
theorem getAllClientsInJson_eq (weh : WssEndpointHandler) (m : Clients) :
    weh.getAllClientsInJson m =
      "ALL    " ++ objectText " " (m.entries.map fun n => (n.1, roomText weh n.2)) := by
  have hstart : "ALL    \x7b " = "ALL    " ++ "\x7b " := rfl
  unfold getAllClientsInJson
  simp only [channelJson_eq]
  rw [hstart, popBack_foldl (fun n : Σ _ : String, Channel => (n.1, roomText weh n.2))]

/-- The text of one client in a presence message. -/
theorem getPresenceJson_eq (c : SocketClient) :
    getPresenceJson c = objectText "" ([("Name", c.name)].map fun n => (n.1, quoted n.2)) := by
  apply String.toList_injective
  simp [getPresenceJson, objectText, memberText, quoted]

/-- A presence message is an object behind its word. -/
theorem othersText_eq (clients : List SocketClient) : othersText clients =
    "OTHERS " ++ objectText " " ((clients.mapIdx Prod.mk).map fun n =>
      (toString n.1, getPresenceJson n.2)) := by
  unfold othersText objectText
  by_cases h : clients = []
  · rw [if_pos h, h]
    rfl
  · rw [if_neg h, if_neg (by simpa using h), List.map_map]
    have hnumbered : (clients.mapIdx Prod.mk).map (memberText ∘
      fun n => (toString n.1, getPresenceJson n.2)) =
        clients.mapIdx numbered := by
      rw [List.mapIdx_eq_zipIdx_map, List.mapIdx_eq_zipIdx_map, List.map_map]
      refine List.map_congr_left fun n _ => ?_
      apply String.toList_injective
      simp [numbered, memberText, quoted]
    rw [hnumbered]
    apply String.toList_injective
    simp

/-! ## Reading them back -/

theorem isBlank_empty : ∀ c ∈ "".toList, isBlank c = true := List.all_eq_true.1 (by decide)

theorem isBlank_blank : ∀ c ∈ " ".toList, isBlank c = true := List.all_eq_true.1 (by decide)

/-- Members that are strings. -/
theorem spells_strings (l : List (String × String)) :
    Spells (objectText "" (l.map fun n => (n.1, quoted n.2))).toList
      (.value (.object (l.map fun n => (n.1, .string n.2)))) (∀ n ∈ l, Plain n.1 ∧ Plain n.2) :=
  spells_object Prod.fst isBlank_empty l fun n _ => spells_string n.2

theorem spells_client (weh : WssEndpointHandler) (c : SocketClient) :
    Spells (clientText weh c).toList (.value (clientValue weh c)) (PlainClient weh c) := by
  refine (spells_strings (clientMembers weh c)).congr ?_
  have hname : Plain "Name" := by decide
  have hflag : Plain "Authenticated" := by decide
  have htime : Plain "Connection Timestamp" := by decide
  have hyes : Plain (if c.authenticated then "Yes" else "No") := by
    cases c.authenticated <;> decide
  simp [clientMembers, PlainClient, hname, hflag, htime, hyes]

theorem spells_room (weh : WssEndpointHandler) (room : Channel) :
    Spells (roomText weh room).toList (.value (roomValue weh room))
      (∀ n ∈ room.entries, Plain n.1 ∧ PlainClient weh n.2) :=
  spells_object (fun n : Σ _ : String, SocketClient => n.1) isBlank_blank room.entries fun n _ =>
    spells_client weh n.2

theorem spells_clients (weh : WssEndpointHandler) (m : Clients) :
    Spells (objectText " " (m.entries.map fun n => (n.1, roomText weh n.2))).toList
      (.value (clientsValue weh m)) (AllPlain weh m) :=
  spells_object (fun n : Σ _ : String, Channel => n.1) isBlank_blank m.entries
    fun n _ => spells_room weh n.2

theorem isPlain_of_isAlphanum {c : Char} (h : c.isAlphanum = true) : isPlain c = true := by
  have hle : ' ' ≤ c := by
    have hcontrol : ∀ n < 32, (Char.ofNat n).isAlphanum = false := by decide
    by_contra hlt
    have hn : c.toNat < 32 := UInt32.lt_iff_toNat_lt.1 (Char.not_le.1 hlt)
    rw [← Char.ofNat_toNat c, hcontrol _ hn] at h
    cases h
  have hquote : c ≠ '"' := by
    rintro rfl
    exact absurd h (by decide)
  have hback : c ≠ '\\' := by
    rintro rfl
    exact absurd h (by decide)
  simp [isPlain, hle, hquote, hback]

theorem plain_toString (i : Nat) : Plain (toString i) := by
  intro c hc
  rw [Nat.toString_eq_repr, Nat.toList_repr] at hc
  refine isPlain_of_isAlphanum ?_
  rw [Char.isAlphanum, Nat.isDigit_of_mem_toDigits (by decide) (Nat.le_refl 10) hc, Bool.or_true]

theorem spells_others (clients : List SocketClient) :
    Spells (objectText " " ((clients.mapIdx Prod.mk).map fun n =>
      (toString n.1, getPresenceJson n.2))).toList
      (.value (othersValue clients)) (∀ c ∈ clients, Plain c.name) := by
  have hclient : ∀ c : SocketClient, Spells (getPresenceJson c).toList
      (.value (.object [("Name", .string c.name)])) (Plain c.name) := by
    intro c
    rw [getPresenceJson_eq]
    refine (spells_strings [("Name", c.name)]).congr ?_
    have hname : Plain "Name" := by decide
    simp [hname]
  refine (spells_object (fun n : Nat × SocketClient => toString n.1)
    isBlank_blank (clients.mapIdx Prod.mk)
    fun n _ => hclient n.2).congr ?_
  constructor
  · intro h c hc
    obtain ⟨i, hi, rfl⟩ := List.mem_iff_getElem.1 hc
    exact (h (i, clients[i]) (List.mem_mapIdx.2 ⟨i, hi, rfl⟩)).2
  · intro h n hn
    obtain ⟨i, hi, rfl⟩ := List.mem_mapIdx.1 hn
    exact ⟨plain_toString i, h _ (List.getElem_mem hi)⟩

/-! ## What is sent -/

/-- A channel, if it exists, has plain clients. -/
theorem AllPlain.room (h : AllPlain weh m) (channel : String) :
    ∀ n ∈ (m.get channel).entries, PlainClient weh n.2 := by
  intro n hn
  have hch : m.lookup channel = some (m.get channel) := by
    cases hl : m.lookup channel with
    | some room =>
      rw [UMap.get, hl]
      rfl
    | none =>
      rw [UMap.get, hl] at hn
      cases hn
  exact ((h ⟨channel, m.get channel⟩ (mem_entries.2 hch)).2 n hn).2

theorem ReadsBack.allPlain (h : ReadsBack weh m) : AllPlain weh m := by
  obtain ⟨text, htext, hparse⟩ := h.dump
  rw [getAllClientsInJson_eq] at htext
  rw [← (String.append_right_inj _).1 htext] at hparse
  exact (spells_clients weh m).parses_iff.1 hparse

/-- **The JSON sent can be read back** if and only if no string in the registry has a character that
needs an escape. -/
theorem readsBack_iff (weh : WssEndpointHandler) (m : Clients) :
    ReadsBack weh m ↔ AllPlain weh m := by
  constructor
  · exact ReadsBack.allPlain
  · intro h
    refine ⟨⟨_, getAllClientsInJson_eq weh m, (spells_clients weh m).parses_iff.2 h⟩,
      fun channel clientKey => ?_⟩
    refine ⟨_, (presenceJson_eq_othersText _ _).trans (othersText_eq _),
      (spells_others _).parses_iff.2 ?_⟩
    intro c hc
    obtain ⟨n, hn, rfl⟩ := List.mem_map.1 hc
    exact (h.room channel n (List.mem_of_mem_filter hn)).1

/-- Where the channels are alphanumeric and neither the keys nor the times need an escape, only the
names count. -/
theorem allPlain_iff_names (hchannels : ∀ n ∈ m.entries, ∀ c ∈ n.1.toList, c.isAlphanum = true)
    (hkeys : ∀ n ∈ m.entries, ∀ c ∈ n.2.entries, Plain c.1)
    (htime : ∀ time, Plain (weh.timeTToString time)) :
    AllPlain weh m ↔ ∀ n ∈ m.entries, ∀ c ∈ n.2.entries, Plain c.2.name := by
  constructor
  · intro h n hn c hc
    exact ((h n hn).2 c hc).2.1
  · intro h n hn
    exact ⟨fun c hc => isPlain_of_isAlphanum (hchannels n hn c hc),
      fun c hc => ⟨hkeys n hn c hc, h n hn c hc, htime _⟩⟩

/-- A client of `room1` whose name has a quote. -/
def quotedName : Clients :=
  AList.singleton "room1" (AList.singleton "10.0.0.1:5000" ⟨some clientA, 0, true, "ann\"s"⟩)

/-- The quote ends the name too early. -/
theorem quotedName_unreadable : ¬ ReadsBack secured quotedName :=
  fun h => absurd h.allPlain (by decide)

end CppFrame.Server
