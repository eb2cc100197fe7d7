import CppFrame.Db.Authentication

/-!
# Sessions and accounts

The authenticator over a database with the tables `usr_sess`, `admin` and `agent`, where the
statements of `Auth` mean what they say. A name tells that there is a session. That there is an
account it does not tell of agents: the name of an agent begins with its number, row or no row
(`backed_iff`).
-/

namespace CppFrame.Db

/-! ## The database -/

/-- A row of `usr_sess`, as the connector gives it. -/
structure Session where
  id : Option String
  usr : Option Int
  token : Option String
  type : Option String

/-- A row of `admin` or `agent`. -/
structure Account where
  id : Option Int
  fname : Option String
  lname : Option String

structure Database where
  usrSess : List Session
  admin : List Account
  agent : List Account

/-- The first column of the first row, empty where there is no row or the value is `NULL`. -/
def firstColumn {α : Type} (column : α → Option String) (rows : List α) : String :=
  (rows.head?.bind column).getD ""

/-- `usr = ? AND token = ? AND type = ?`. -/
def Session.IsOf (user : Int) (token type : String) (row : Session) : Prop :=
  row.usr = some user ∧ row.token = some token ∧ row.type = some type

instance (user : Int) (token type : String) : DecidablePred (Session.IsOf user token type) :=
  fun row => by
  unfold Session.IsOf; infer_instance

/-- `CONCAT(fname, ' ' ,LEFT(lname,1))`. -/
def Account.name (row : Account) : Option String := do
  return (← row.fname) ++ " " ++ String.ofList ((← row.lname).toList.take 1)

/-- `SELECT id AS value FROM usr_sess WHERE ..`. -/
def Database.sessionId (db : Database) (user : Int) (token type : String) : String :=
  firstColumn Session.id (db.usrSess.filter (Session.IsOf user token type))

/-- `SELECT CONCAT(..) FROM .. WHERE id = ?`. -/
def nameIn (table : List Account) (user : Int) : String :=
  firstColumn Account.name (table.filter fun row => row.id = some user)

/-- What `get_value` answers. -/
def Database.answers (db : Database) : Answers := fun query params =>
  match params with
  | [user, token, type] =>
    if query = sessionQuery then some (db.sessionId user.intVal token.strVal type.strVal) else none
  | [user] =>
    if query = nameQuery "admin" then some (nameIn db.admin user.intVal)
    else if query = nameQuery "agent" then some (nameIn db.agent user.intVal)
    else none
  | _ => none

/-- The table that a type names. -/
def Database.table (db : Database) : String → List Account
  | "admin" => db.admin
  | "agent" => db.agent
  | _ => []

/-- The name that a message is given. -/
def Database.name (db : Database) (message : String) : String :=
  Auth.fromFirstWssMessage (m := Id) db.answers message

/-! ## What a name tells -/

/-- A message that is given a name has a session, its type names a table, and the user has a row
there. -/
def Backed (db : Database) (message : String) : Prop :=
  db.name message ≠ "" → ∃ user token type, credentials message = some (user, token, type) ∧
    (∃ row ∈ db.usrSess, row.IsOf user token type) ∧ (type = "admin" ∨ type = "agent") ∧
    ∃ row ∈ db.table type, row.id = some user

/-- A message of an agent with a session is of an agent that has a row. -/
def AgentKnown (db : Database) (message : String) : Prop :=
  ∀ user token, credentials message = some (user, token, "agent") →
    (stoi (db.sessionId user token "agent")).isSome → ∃ row ∈ db.agent, row.id = some user

variable {db : Database} {message token type : String} {user : Int}

theorem firstColumn_ne_empty {α : Type} {column : α → Option String} {rows : List α}
    (h : firstColumn column rows ≠ "") : ∃ row, row ∈ rows := by
  cases rows with
  | nil => exact absurd rfl h
  | cons row rows => exact ⟨row, List.mem_cons_self⟩

/-- A session id that is a number is that of a row. -/
theorem exists_session (h : (stoi (db.sessionId user token type)).isSome) :
    ∃ row ∈ db.usrSess, row.IsOf user token type := by
  have hne : db.sessionId user token type ≠ "" := by
    intro he
    rw [he] at h
    exact absurd h (by decide)
  obtain ⟨row, hrow⟩ := firstColumn_ne_empty hne
  obtain ⟨hmem, hof⟩ := List.mem_filter.1 hrow
  exact ⟨row, hmem, of_decide_eq_true hof⟩

theorem exists_account {table : List Account} (h : nameIn table user ≠ "") :
    ∃ row ∈ table, row.id = some user := by
  obtain ⟨row, hrow⟩ := firstColumn_ne_empty h
  obtain ⟨hmem, hid⟩ := List.mem_filter.1 hrow
  exact ⟨row, hmem, of_decide_eq_true hid⟩

/-! ## The queries of `Auth` -/

theorem answers_session (db : Database) (user : Int) (token type : String) :
    db.answers sessionQuery (sessionParams user token type) =
      some (db.sessionId user token type) := by
  unfold Database.answers sessionParams
  exact if_pos rfl

theorem answers_admin (db : Database) (user : Int) :
    db.answers (nameQuery "admin") [(default : Param).setInt user false] =
      some (nameIn db.admin user) := by
  unfold Database.answers
  exact if_pos rfl

theorem answers_agent (db : Database) (user : Int) :
    db.answers (nameQuery "agent") [(default : Param).setInt user false] =
      some (nameIn db.agent user) := by
  have hne : nameQuery "agent" ≠ nameQuery "admin" := by decide
  unfold Database.answers
  exact (if_neg hne).trans (if_pos rfl)

theorem verified_eq (db : Database) (user : Int) (token type : String) :
    verified db.answers user token type = (stoi (db.sessionId user token type)).isSome := by
  have h : verified db.answers user token type =
      (db.answers sessionQuery (sessionParams user token type)).elim false fun value =>
      (stoi value).isSome := rfl
  rw [h, answers_session]
  rfl

theorem getName_admin_eq (db : Database) (user : Int) :
    Auth.getName (m := Id) db.answers user "admin" = nameIn db.admin user := by
  have h : Auth.getName (m := Id) db.answers user "admin" =
      (db.answers (nameQuery "admin") [(default : Param).setInt user false]).elim "" id := rfl
  rw [h, answers_admin]
  rfl

theorem getName_agent_eq (db : Database) (user : Int) :
    Auth.getName (m := Id) db.answers user "agent" = toString user ++ ": " ++
      nameIn db.agent user := by
  have h : agentName db.answers user = some (nameIn db.agent user) := answers_agent db user
  rw [getName_agent, h]

/-- A message with credentials that has no session has no name. -/
theorem name_of_credentials (hc : credentials message = some (user, token, type)) :
    db.name message =
    if (stoi (db.sessionId user token type)).isSome then
      Auth.getName (m := Id) db.answers user type else "" := by
  rw [Database.name, fromFirstWssMessage_of_some hc, verified_eq]

theorem name_of_credentials_none (hc : credentials message = none) : db.name message = "" :=
  fromFirstWssMessage_of_none hc

theorem toString_append_ne_empty (user : Int) (name : String) :
    toString user ++ ": " ++ name ≠ "" := by
  intro h
  have := congrArg String.toList h
  simp at this

/-- **A name stands for a session and an account** exactly where no agent with a session lacks a
row. -/
theorem backed_iff (db : Database) (message : String) :
    Backed db message ↔ AgentKnown db message := by
  constructor
  · intro h user token hc hs
    have hname : db.name message ≠ "" := by
      rw [name_of_credentials hc, if_pos hs, getName_agent_eq]
      exact toString_append_ne_empty _ _
    obtain ⟨user', token', type', hc', -, -, hrow⟩ := h hname
    rw [hc] at hc'
    cases hc'
    exact hrow
  · intro h hname
    cases hc : credentials message with
    | none => exact absurd (name_of_credentials_none hc) hname
    | some c =>
      obtain ⟨user, token, type⟩ := c
      rw [name_of_credentials hc] at hname
      by_cases hs : (stoi (db.sessionId user token type)).isSome
      · rw [if_pos hs] at hname
        refine ⟨user, token, type, rfl, exists_session hs, ?_⟩
        by_cases ha : type = "admin"
        · subst ha
          rw [getName_admin_eq] at hname
          exact ⟨.inl rfl, exists_account hname⟩
        by_cases hg : type = "agent"
        · subst hg
          exact ⟨.inr rfl, h user token hc hs⟩
        · exact absurd (getName_of_ne ha hg) hname
      · rw [if_neg hs] at hname
        exact absurd rfl hname

/-- An agent with a session and without a row. -/
def orphan : Database := ⟨[⟨some "7", some 5, some "t", some "agent"⟩], [], []⟩

theorem orphan_named : ¬ Backed orphan "5-c-t-agent" := by
  intro h
  have hcred : credentials "5-c-t-agent" = some (5, "t", "agent") := by decide
  have hname : orphan.name "5-c-t-agent" ≠ "" := by
    rw [name_of_credentials hcred]
    decide
  obtain ⟨user, token, type, hc, -, -, row, hrow, -⟩ := h hname
  rw [hcred] at hc
  cases hc
  cases hrow

end CppFrame.Db
