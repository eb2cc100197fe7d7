import CppFrame.Db.Auth
import CppFrame.Db.Core

/-!
# Authentication over the database

`Auth::from_first_wss_message` with the queries of `Core`, for every behaviour of the connector. The
statements that it issues are planned from the message (`plan`): their texts are fixed, up to the
table of the second one, and what the client sent is bound (`statements_fixed`).

A failure of the database ends in the empty string. Only a query without `m_db` does not end, which
is how `main` leaves it (`failsClosed_iff`).
-/

namespace CppFrame.Db

open Throwing

/-- A run of `from_first_wss_message`. -/
def authenticate (core : Core) (message : String) : Except (Failure Thrown) String × World :=
  exec (Auth.fromFirstWssMessage core.ask message) ⟨[], []⟩

/-! ## The statements of a message -/

/-- The text that `verify_token` asks. -/
def sessionQuery : String :=
  "SELECT id AS value FROM usr_sess WHERE usr = ? AND token = ? AND type = ?"

/-- The text that `get_name` asks. -/
def nameQuery (table : String) : String :=
  "SELECT CONCAT(fname, ' ' ,LEFT(lname,1)) FROM " ++ table ++ " WHERE id = ?"

/-- The texts that a message may lead to, by the type of its sender. -/
def texts (type : String) : List String :=
  sessionQuery ::
    if type = "admin" then ["SELECT CONCAT(fname, ' ' ,LEFT(lname,1)) FROM admin WHERE id = ?"]
    else if type = "agent" then ["SELECT CONCAT(fname, ' ' ,LEFT(lname,1)) FROM agent WHERE id = ?"]
    else []

/-- The calls that bind the parameters of the two statements. -/
def binds (user : Int) (token type : String) : List (List Call) :=
  [[.setInt 1 user, .setString 2 token, .setString 3 type], [.setInt 1 user]]

/-- The `?` of a text. -/
def placeholders (query : String) : Nat := query.toList.count '?'

/-- The parameters of the session query. -/
def sessionParams (user : Int) (token type : String) : List Param :=
  [(default : Param).setInt user false, (default : Param).setString token false,
    (default : Param).setString type false]

/-- The query that `get_name` asks, if it asks one. -/
def namePlan (user : Int) (type : String) : List (String × List Param) :=
  if type = "admin" ∨ type = "agent" then
    [(nameQuery type, [(default : Param).setInt user false])]
  else []

/-- The queries of a message, with their parameters. -/
def plan (message : String) : List (String × List Param) :=
  match credentials message with
  | some (user, token, type) => (sessionQuery, sessionParams user token type) :: namePlan user type
  | none => []

/-- A statement issued for a query. -/
def Statement.Of (st : Statement) (q : String × List Param) : Prop :=
  st.query = q.1 ∧ st.Complete q.2

/-- The statements issued are the first ones of some queries. -/
inductive Follows : List (String × List Param) → List Statement → Prop
  | nil (queries : List (String × List Param)) : Follows queries []
  | cons {q : String × List Param} {st : Statement} {queries : List (String × List Param)}
      {sts : List Statement} (hst : st.Of q) (h : Follows queries sts) : Follows
      (q :: queries) (st :: sts)

variable {core : Core} {db : Connector} {user : Int} {token type message : String} {w : World}
  {q : String × List Param} {queries : List (String × List Param)} {sts : List Statement}
  {st : Statement}

theorem Follows.prefix_queries (h : Follows queries sts) :
    sts.map Statement.query <+: queries.map Prod.fst := by
  induction h with
  | nil queries => exact List.nil_prefix
  | cons hst _ ih =>
    rw [List.map_cons, List.map_cons, hst.1]
    exact (List.prefix_cons_inj _).2 ih

theorem Follows.of_getElem? (h : Follows queries sts) {i : Nat} (hi : sts[i]? = some st) :
    ∃ q, queries[i]? = some q ∧ st.Of q := by
  induction h generalizing i with
  | nil queries => cases hi
  | @cons q _ _ _ hst _ ih =>
    cases i with
    | zero =>
      cases hi
      exact ⟨q, rfl, hst⟩
    | succ i => exact ih hi

theorem follows_of_issued {w' : World} (hw : w.statements = []) (h : w'.Issued w.statements q.1 q.2)
    (queries : List (String × List Param)) : Follows (q :: queries) w'.statements := by
  rw [hw] at h
  rcases h with h | ⟨st, hq, hc, h⟩
  · rw [h]
    exact .nil _
  · rw [h]
    exact .cons ⟨hq, hc⟩ (.nil _)

/-! ## The functions of `Auth` over `Core` -/

theorem exec_verifyToken (hdb : core.db = some db) (user : Int) (token type : String) (w : World) :
    ∃ verified w', exec (Auth.verifyToken core.ask user token type) w = (.ok verified, w') ∧
      w'.Issued w.statements sessionQuery (sessionParams user token type) ∧
      (verified = true → w'.Going w.statements sessionQuery
        (sessionParams user token type) w.failed) := by
  obtain ⟨r, w', hr, hi, hg⟩ := getValue_spec hdb sessionQuery (sessionParams user token type) w
  refine ⟨r.elim false fun value => (stoi value).isSome, w', ?_, hi, fun h => hg ?_⟩
  · refine (exec_bind_of_ok hr _).trans ?_
    cases r <;> rfl
  · cases r with
    | none => cases h
    | some value => rfl

/-- `get_name` follows its plan. A name is given only where nothing failed. -/
theorem exec_getName (hdb : core.db = some db) (user : Int) (type : String) (w : World) :
    ∃ name w', exec (Auth.getName core.ask user type) w = (.ok name, w') ∧
      (w'.statements = w.statements ∨ ∃ st : Statement, w'.statements = w.statements ++ [st] ∧
        Follows (namePlan user type) [st]) ∧
      (name ≠ "" → w'.failed = w.failed) := by
  unfold Auth.getName namePlan
  by_cases htype : type = "admin" ∨ type = "agent"
  · simp only [if_pos htype]
    obtain ⟨r, w', hr, hi, hg⟩ :=
      getValue_spec hdb (nameQuery type) [(default : Param).setInt user false] w
    refine ⟨r.elim "" fun value => if type = "agent" then toString user ++ ": " ++ value
      else value, w', ?_, ?_,
      fun hname => ?_⟩
    · refine (exec_bind_of_ok hr _).trans ?_
      cases r <;> rfl
    · rcases hi with hi | ⟨st, hq, hc, hi⟩
      · exact .inl hi
      · exact .inr ⟨st, hi, .cons ⟨hq, hc⟩ (.nil _)⟩
    · cases r with
      | none => exact absurd rfl hname
      | some value => exact (hg rfl).failed
  · simp only [if_neg htype]
    exact ⟨"", w, rfl, .inl rfl, fun hname => absurd rfl hname⟩

theorem authenticate_of_credentials_none (h : credentials message = none) :
    authenticate core message = (.ok "", ⟨[], []⟩) := by
  rw [authenticate, fromFirstWssMessage_of_credentials, h]
  rfl

/-- With `m_db` set a message gets an answer. The statements issued are those planned, and a name is
given only where nothing failed. -/
theorem authenticate_spec (hdb : core.db = some db) (message : String) :
    ∃ name w, authenticate core message = (.ok name, w) ∧ Follows (plan message) w.statements ∧
      (name ≠ "" → w.failed = false) := by
  cases hc : credentials message with
  | none =>
    exact ⟨"", _, authenticate_of_credentials_none hc, .nil _, fun hname => absurd rfl hname⟩
  | some c =>
    obtain ⟨user, token, type⟩ := c
    rw [authenticate, fromFirstWssMessage_of_credentials, plan, hc]
    dsimp only
    obtain ⟨verified, w₁, hv, hi₁, hg₁⟩ := exec_verifyToken hdb user token type ⟨[], []⟩
    rw [exec_bind_of_ok hv]
    cases verified with
    | false =>
      exact ⟨"", w₁, rfl, follows_of_issued rfl hi₁ _, fun hname => absurd rfl hname⟩
    | true =>
      obtain ⟨name, w₂, hn, hs₂, hf₂⟩ := exec_getName hdb user type w₁
      obtain ⟨⟨st₁, hq, hcomplete, hs₁⟩, hf₁⟩ := hg₁ rfl
      refine ⟨name, w₂, hn, ?_, fun hname => (hf₂ hname).trans hf₁⟩
      rw [show (⟨[], []⟩ : World).statements = [] from rfl, List.nil_append] at hs₁
      rw [hs₁] at hs₂
      rcases hs₂ with hs₂ | ⟨st₂, hs₂, hfollows⟩
      · rw [hs₂]
        exact .cons ⟨hq, hcomplete⟩ (.nil _)
      · rw [hs₂]
        exact .cons ⟨hq, hcomplete⟩ hfollows

/-- Without `m_db` the first query is undefined. -/
theorem authenticate_of_db_none (hdb : core.db = none) {c : Int × String × String}
    (hc : credentials message = some c) :
    authenticate core message =
      (.error .undefinedBehaviour, ⟨[], sessionParams c.1 c.2.1 c.2.2⟩) := by
  rw [authenticate, fromFirstWssMessage_of_credentials, hc]
  refine exec_bind_of_error (exec_bind_of_error (exec_ask_of_none hdb _ _ _) _) _

/-- The statements issued for a message. -/
def issued (core : Core) (message : String) : List Statement :=
  (authenticate core message).2.statements

theorem follows_issued (core : Core) (message : String) :
    Follows (plan message) (issued core message) := by
  cases hdb : core.db with
  | some db =>
    obtain ⟨name, w, h, hfollows, -⟩ := authenticate_spec hdb message
    rw [issued, h]
    exact hfollows
  | none =>
    cases hc : credentials message with
    | none =>
      rw [issued, authenticate_of_credentials_none hc]
      exact .nil _
    | some c =>
      rw [issued, authenticate_of_db_none hdb hc]
      exact .nil _

/-! ## Failing closed -/

/-- A message gets an answer, which is empty where a step failed. -/
def FailsClosed (core : Core) (message : String) : Prop :=
  ∃ name w, authenticate core message = (.ok name, w) ∧ (w.failed = true → name = "")

/-- **The authenticator fails closed** exactly where `m_db` is set, or the message does not lead to
a query. -/
theorem failsClosed_iff (core : Core) (message : String) :
    FailsClosed core message ↔ core.db.isSome ∨ credentials message = none := by
  constructor
  · rintro ⟨name, w, h, -⟩
    cases hdb : core.db with
    | some db => exact .inl rfl
    | none =>
      cases hc : credentials message with
      | none => exact .inr rfl
      | some c =>
        rw [authenticate_of_db_none hdb hc] at h
        cases h
  · intro h
    cases hdb : core.db with
    | some db =>
      obtain ⟨name, w, hrun, -, hfailed⟩ := authenticate_spec hdb message
      refine ⟨name, w, hrun, fun hw => ?_⟩
      by_contra hname
      rw [hfailed hname] at hw
      cases hw
    | none =>
      have hc : credentials message = none := h.resolve_left (by rw [hdb]; exact Bool.false_ne_true)
      exact ⟨"", _, authenticate_of_credentials_none hc, fun _ => rfl⟩

/-- As `main` leaves it, the authenticator does not survive a well-formed message. -/
theorem not_failsClosed : ¬ FailsClosed ⟨none, false⟩ "1-c-t-admin" := by
  rintro ⟨name, w, h, -⟩
  rw [authenticate_of_db_none (c := (1, "t", "admin")) rfl (by decide)] at h
  cases h

/-! ## What the client sent is bound -/

/-- The type that a message names. -/
def typeField (message : String) : String := (fields message)[3]?.getD ""

theorem typeField_of_credentials (h : credentials message = some (user, token, type)) :
    typeField message = type := by
  rw [typeField, fourth_field_of_credentials h, Option.getD_some]

theorem map_fst_namePlan (user : Int) (token type : String) :
    ((sessionQuery, sessionParams user token type) :: namePlan user type).map Prod.fst =
      texts type := by
  unfold namePlan texts
  by_cases h₁ : type = "admin"
  · subst h₁
    rfl
  by_cases h₂ : type = "agent"
  · subst h₂
    rfl
  · rw [if_neg (by simp [h₁, h₂]), if_neg h₁, if_neg h₂]
    rfl

theorem prefix_plan_texts (message : String) :
    (plan message).map Prod.fst <+: texts (typeField message) := by
  unfold plan
  split
  · rename_i hc
    rw [typeField_of_credentials hc]
    exact (map_fst_namePlan _ _ _) ▸ List.prefix_refl _
  · exact List.nil_prefix

/-- Every query of the plan has a parameter for each of its placeholders. -/
theorem setCalls_of_plan {i : Nat} (hc : credentials message = some (user, token, type))
    (hq : (plan message)[i]? = some q) :
    (binds user token type)[i]? = some (setCalls 1 q.2) ∧ (setCalls 1 q.2).length =
      placeholders q.1 := by
  rw [plan, hc] at hq
  dsimp only at hq
  match i with
  | 0 =>
    have h : placeholders sessionQuery = 3 := by decide +kernel
    cases hq
    exact ⟨rfl, h.symm⟩
  | 1 =>
    have h : ∀ table ∈ ["admin", "agent"], placeholders (nameQuery table) = 1 := by decide +kernel
    unfold namePlan at hq
    split_ifs at hq with htype
    · cases hq
      exact ⟨rfl, (h type (by simpa using htype)).symm⟩
    · cases hq
  | i + 2 =>
    unfold namePlan at hq
    split_ifs at hq <;> cases hq

/-- The texts depend on the type by way of whether it is `admin`. -/
theorem texts_agree {type type' text text' : String} {i : Nat} (h₁ : (texts type)[i]? = some text)
    (h₂ : (texts type')[i]? = some text') (h : i = 0 ∨ (type = "admin" ↔ type' = "admin")) :
    text = text' := by
  rcases h with rfl | h
  · exact (Option.some.inj h₁).symm.trans (Option.some.inj h₂)
  cases i with
  | zero => exact (Option.some.inj h₁).symm.trans (Option.some.inj h₂)
  | succ i =>
    unfold texts at h₁ h₂
    by_cases ha : type = "admin"
    · rw [if_pos ha] at h₁
      rw [if_pos (h.1 ha)] at h₂
      exact Option.some.inj (h₁.symm.trans h₂)
    · rw [if_neg ha] at h₁
      rw [if_neg fun hb => ha (h.2 hb)] at h₂
      split_ifs at h₁ h₂
      · exact Option.some.inj (h₁.symm.trans h₂)
      · cases h₂
      · cases h₁
      · cases h₁

theorem getElem?_of_prefix {α : Type} {l l' : List α} {i : Nat} {a : α} (h : l <+: l')
    (hi : l[i]? = some a) :
    l'[i]? = some a := by
  obtain ⟨t, rfl⟩ := h
  rw [List.getElem?_append_left (List.getElem?_eq_some_iff.1 hi).1, hi]

/-- **What the client sends never becomes the text of a statement.** The statements issued for a
message are the first ones of its type's fixed texts, two at most. So for two messages, whatever the
database answers, the first statements agree, and so do the second ones where both types are `admin`
or neither is. A statement that is executed has one parameter bound for each of its placeholders, at
its index, and the queue is empty then. -/
theorem statements_fixed (core core' : Core) (message message' : String) :
    (issued core message).map Statement.query <+: texts (typeField message) ∧
    (issued core message).length ≤ 2 ∧
    (∀ (i : Nat) (st st' : Statement), (issued core message)[i]? = some st →
      (issued core' message')[i]? = some st' →
      (i = 0 ∨ (typeField message = "admin" ↔ typeField message' = "admin")) →
        st.query = st'.query) ∧
    ∀ (i : Nat) (st : Statement) left, (issued core message)[i]? = some st →
      st.executed = some left →
      left = [] ∧ st.bound.length = placeholders st.query ∧
      ∃ user token type, credentials message = some (user, token, type) ∧
        (binds user token type)[i]? = some st.bound := by
  have htexts : ∀ (core : Core) message,
      (issued core message).map Statement.query <+: texts (typeField message) := fun core message =>
    (follows_issued core message).prefix_queries.trans (prefix_plan_texts message)
  have hlength : ∀ type, (texts type).length ≤ 2 := by
    intro type
    unfold texts
    split_ifs <;> simp
  have hat : ∀ (core : Core) message (i : Nat) (st : Statement),
    (issued core message)[i]? = some st →
      (texts (typeField message))[i]? = some st.query := fun core message i st hi =>
    getElem?_of_prefix (htexts core message) (by rw [List.getElem?_map, hi]; rfl)
  refine ⟨htexts core message, ?_, fun i st st' hi hi' h => ?_, fun i st left hi hleft => ?_⟩
  · rw [← List.length_map (f := Statement.query)]
    exact (htexts core message).length_le.trans (hlength _)
  · exact texts_agree (hat core message i st hi) (hat core' message' i st' hi') h
  · obtain ⟨q, hq, hof⟩ := (follows_issued core message).of_getElem? hi
    obtain ⟨rfl, hbound⟩ := hof.2 left hleft
    cases hc : credentials message with
    | none =>
      rw [plan, hc] at hq
      cases hq
    | some c =>
      obtain ⟨user, token, type⟩ := c
      have hb := setCalls_of_plan hc hq
      rw [hbound, hof.1]
      exact ⟨rfl, hb.2, user, token, type, rfl, hb.1⟩

end CppFrame.Db
