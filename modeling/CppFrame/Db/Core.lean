import CppFrame.Db.Param
import CppFrame.File.Logger
import CppFrame.Throwing
import Mathlib.Data.List.ModifyLast

/-!
# The queries

`Core` of `lib/jahan/db/core.hpp`. `get_value` takes a connection from `m_db`, binds the parameters
in the queue to a prepared statement, and gives the first column of the first row. Every call that
leaves the program is an `Event`; what a call answers and whether it throws depends on the events
before it in any way (`Connector`). `m_db` is used without a test, so a query without it is
undefined.

`getValue_spec` says what one query does: it issues its statement once or not at all, with the
parameters in their places, and gives a value only where nothing failed.
-/

namespace CppFrame.Db

open Throwing

/-! ## Data -/

/-- What the connector throws: an `SQLException` with its text, or anything else. -/
inductive Thrown
  | sqlException (what : String)
  | other

/-- The calls to the connector and to `m_logger`. -/
inductive Call
  | getConnection
  | prepareStatement (query : String)
  | setNull (index : Nat) (sqlType : Int)
  | setInt (index : Nat) (val : Int)
  | setString (index : Nat) (val : String)
  | executeQuery
  | rowsCount
  | next
  | getString (column : Nat)
  | returnConnection
  | logger (message : String) (level : File.LogLevel)
  deriving DecidableEq

/-- A call, with the parameters that were still queued, and whether it threw or gave no
connection. -/
structure Event where
  call : Call
  params : List Param
  failed : Bool
  deriving DecidableEq

/-- `m_db` and the database behind it, by what happened before. -/
structure Connector where
  connects : List Event → Bool
  throws : List Event → Call → Option Thrown
  rowsCount : List Event → Nat
  getString : List Event → String

/-- `m_db`, and whether `m_logger` is set. -/
structure Core where
  db : Option Connector
  logger : Bool

/-- The calls made so far, and the queue that `get_value` was given. -/
structure World where
  events : List Event
  params : List Param

def World.push (w : World) (call : Call) (failed : Bool) : World :=
  { w with events := w.events ++ [⟨call, w.params, failed⟩] }

/-- A program that uses `Core`. -/
abbrev CoreM := Throwing Thrown World

/-! ## The functions -/

namespace Connector

variable (db : Connector)

/-- A call that may throw. -/
def call (x : Call) : CoreM Unit := do
  let w ← get
  attempt (db.throws w.events x) fun failed w => w.push x failed

def getConnection : CoreM Bool := do
  let w ← get
  let connection := db.connects w.events
  update (·.push .getConnection !connection)
  return connection

/-- The set function for a parameter, if it has one. -/
def setCall (index : Nat) (param : Param) : Option Call :=
  match param.type with
  | .integer => some (if param.isNull then .setNull index 3 else .setInt index param.intVal)
  | .string => some (if param.isNull then .setNull index 254 else .setString index param.strVal)
  | .unset => none

/-- `set_param`; `stmt` tells whether there is a statement. -/
def setParam (stmt : Bool) (index : Nat) (param : Param) : CoreM Unit :=
  if stmt then
    match setCall index param with
    | some x => db.call x
    | none => return ()
  else return ()

/-- The loop of `get_value` over the queue. -/
def setParams : Nat → List Param → CoreM Unit
  | _, [] => return ()
  | i, param :: params => do
    update fun w => { w with params := params }
    db.setParam true i param
    setParams (i + 1) params

/-- The first column of the first row, empty where there is no row. -/
def firstValue : CoreM String := do
  let w ← get
  db.call .rowsCount
  if db.rowsCount w.events > 0 then
    db.call .next
    let w ← get
    db.call (.getString 1)
    return db.getString w.events
  else return ""

end Connector

namespace Core

variable (core : Core)

/-- `log`. -/
def log (message : String) (level : File.LogLevel) : CoreM Unit :=
  if core.logger then update (·.push (.logger message level) false) else return ()

/-- The try block of `get_value`. -/
def query (query : String) : CoreM (Option String) :=
  match core.db with
  | some db => do
    if ← db.getConnection then
      db.call (.prepareStatement query)
      let w ← get
      db.setParams 1 w.params
      db.call .executeQuery
      let ret ← db.firstValue
      update (·.push .returnConnection false)
      return some ret
    else return none
  | none => undefinedBehaviour

/-- `get_value`, of the parameters in the queue. -/
def getValue (query : String) : CoreM (Option String) :=
  catching (core.query query) fun
    | .sqlException what => do
      core.log what .error
      return none
    | .other => do
      core.log "We are dying here. core.hpp" .critical
      return none

/-- A call of `get_value` with a queue of its own. -/
def ask (query : String) (params : List Param) : CoreM (Option String) := do
  update fun w => { w with params := params }
  core.getValue query

end Core

/-! ## What the database sees -/

/-- A statement that was issued: its text, the parameters bound so far, and the queue when it was
executed, if it was. -/
structure Statement where
  query : String
  bound : List Call
  executed : Option (List Param)
  deriving DecidableEq

/-- The statements after one more event. -/
def Statement.add (statements : List Statement) (e : Event) : List Statement :=
  match e.call with
  | .prepareStatement query => statements ++ [⟨query, [], none⟩]
  | .setNull .. | .setInt .. | .setString .. =>
    statements.modifyLast fun st => { st with bound := st.bound ++ [e.call] }
  | .executeQuery => statements.modifyLast fun st => { st with executed := some e.params }
  | _ => statements

/-- The statements issued, in order. -/
def World.statements (w : World) : List Statement := w.events.foldl Statement.add []

/-- Some step failed: a call threw, or there was no connection. -/
def World.failed (w : World) : Bool := w.events.any Event.failed

/-- The calls that bind parameters from an index on. -/
def setCalls : Nat → List Param → List Call
  | _, [] => []
  | i, param :: params => (Connector.setCall i param).toList ++ setCalls (i + 1) params

/-- A statement with its parameters: where it was executed they are all bound, each in its place,
and none is left in the queue. -/
def Statement.Complete (params : List Param) (st : Statement) : Prop :=
  ∀ left, st.executed = some left → left = [] ∧ st.bound = setCalls 1 params

/-- Since there were the statements `sts`, a query was issued once. -/
def World.IssuedOnce (sts : List Statement) (query : String) (params : List Param) (w : World) :
    Prop :=
  ∃ st : Statement, st.query = query ∧ st.Complete params ∧ w.statements = sts ++ [st]

/-- Since there were the statements `sts`, a query was issued once or not at all. -/
def World.Issued (sts : List Statement) (query : String) (params : List Param) (w : World) : Prop :=
  w.statements = sts ∨ w.IssuedOnce sts query params

theorem World.push_statements (w : World) (call : Call) (failed : Bool) :
    (w.push call failed).statements = Statement.add w.statements ⟨call, w.params, failed⟩ :=
  List.foldl_concat ..

@[simp] theorem World.push_failed (w : World) (call : Call) (failed : Bool) :
    (w.push call failed).failed = (w.failed || failed) := by
  simp [World.failed, World.push]

/-! ## What one query does -/

variable {core : Core} {db : Connector} {sts : List Statement} {query : String}
  {params rest : List Param} {b : Bool} {post : Unit → World → Prop} {pre exc : World → Prop}

/-- A call that may throw, by what it does to the events. -/
theorem triple_call {x : Call} (hexc : ∀ w, pre w → exc (w.push x true))
    (hpost : ∀ w, pre w → post () (w.push x false)) : Triple pre (db.call x) post exc := by
  refine triple_get fun w hw => triple_attempt ?_ ?_
  · rintro w rfl
    exact hexc w hw
  · rintro w rfl
    exact hpost w hw

/-- A call that is no part of a statement. -/
def Call.Silent (x : Call) : Prop :=
  ∀ sts params failed, Statement.add sts ⟨x, params, failed⟩ = sts

/-- A call that binds a parameter. -/
def Call.Binds (x : Call) : Prop := ∀ sts (st : Statement) params failed,
  Statement.add (sts ++ [st]) ⟨x, params, failed⟩ = sts ++ [{ st with bound := st.bound ++ [x] }]

theorem binds_of_setCall {index : Nat} {param : Param} {x : Call}
    (h : Connector.setCall index param = some x) :
    x.Binds := by
  unfold Connector.setCall at h
  split at h
  · cases h
    split_ifs <;> exact fun sts st params failed => List.modifyLast_concat ..
  · cases h
    split_ifs <;> exact fun sts st params failed => List.modifyLast_concat ..
  · cases h

/-- The last statement is `query`, with these parameters bound and not executed; `params` are
queued. -/
structure World.Prepared (sts : List Statement) (query : String) (bound : List Call)
    (params : List Param)
    (b : Bool) (w : World) : Prop where
  statements : w.statements = sts ++ [⟨query, bound, none⟩]
  params : w.params = params
  failed : w.failed = b

theorem issued_of_statements {w : World} (bound : List Call)
    (h : w.statements = sts ++ [⟨query, bound, none⟩]) : w.Issued sts query params :=
  .inr ⟨⟨query, bound, none⟩, rfl, (fun _ hleft => nomatch hleft), h⟩

/-- One round of the loop over the queue. -/
theorem triple_setParam {bound : List Call} (index : Nat) (param : Param) :
    Triple (World.Prepared sts query bound rest b) (db.setParam true index param)
      (fun _ => World.Prepared sts query (bound ++ (Connector.setCall index param).toList) rest b)
      (World.Issued sts query params) := by
  unfold Connector.setParam
  rw [if_pos rfl]
  cases hx : Connector.setCall index param with
  | none => exact triple_pure fun w hw => by simpa using hw
  | some x =>
    have hb := binds_of_setCall hx
    refine triple_call (fun w hw => issued_of_statements (bound ++ [x]) ?_)
      fun w hw => ⟨?_, hw.params, ?_⟩
    · rw [World.push_statements, hw.statements, hb]
    · rw [World.push_statements, hw.statements, hb]
      rfl
    · rw [World.push_failed, hw.failed, Bool.or_false]

/-- The loop over the queue binds every parameter in its place and leaves none. -/
theorem triple_setParams {bound : List Call} (index : Nat) :
    Triple (World.Prepared sts query bound rest b) (db.setParams index rest)
      (fun _ => World.Prepared sts query (bound ++ setCalls index rest) [] b)
      (World.Issued sts query params) := by
  induction rest generalizing bound index with
  | nil => exact triple_pure fun w hw => by simpa [setCalls] using hw
  | cons param rest ih =>
    unfold Connector.setParams
    refine (triple_update (Q := fun _ => World.Prepared sts query bound rest b)
      fun w hw => ?_).bind fun _ =>
      (triple_setParam index param).bind fun _ => ?_
    · exact ⟨hw.statements, rfl, hw.failed⟩
    · have h := @ih (bound ++ (Connector.setCall index param).toList) (index + 1)
      rwa [List.append_assoc] at h

/-- The query was issued once, and nothing failed in it so far. -/
structure World.Going (sts : List Statement) (query : String) (params : List Param)
    (b : Bool) (w : World) :
    Prop where
  issued : w.IssuedOnce sts query params
  failed : w.failed = b

theorem Call.Silent.push {x : Call} (hx : x.Silent) (w : World) (failed : Bool) :
    (w.push x failed).statements = w.statements := by
  rw [World.push_statements, hx]

theorem World.Issued.push {w : World} {x : Call} (h : w.Issued sts query params) (hx : x.Silent)
    (failed : Bool) : (w.push x failed).Issued sts query params := by
  unfold World.Issued World.IssuedOnce at h ⊢
  rwa [hx.push]

theorem World.Going.push {w : World} {x : Call} (h : w.Going sts query params b) (hx : x.Silent) :
    (w.push x false).Going sts query params b where
  issued := by
    unfold World.IssuedOnce
    rw [hx.push]
    exact h.issued
  failed := by rw [World.push_failed, h.failed, Bool.or_false]

theorem triple_silent {x : Call} (hx : x.Silent) :
    Triple (World.Going sts query params b) (db.call x)
    (fun _ => World.Going sts query params b) (World.Issued sts query params) :=
  triple_call (fun _ hw => World.Issued.push (.inr hw.issued) hx true) fun _ hw => hw.push hx

/-- The call that executes the statement, when all parameters are bound. -/
theorem triple_executeQuery :
    Triple (World.Prepared sts query (setCalls 1 params) [] b) (db.call .executeQuery)
      (fun _ => World.Going sts query params b) (World.Issued sts query params) := by
  have hissued : ∀ w failed, World.Prepared sts query (setCalls 1 params) [] b w →
      (w.push .executeQuery failed).IssuedOnce sts query params := by
    intro w failed hw
    refine ⟨⟨query, setCalls 1 params, some []⟩, rfl, ?_, ?_⟩
    · rintro left ⟨⟩
      exact ⟨rfl, rfl⟩
    · rw [World.push_statements, hw.statements, hw.params]
      exact List.modifyLast_concat ..
  exact triple_call (fun w hw => .inr (hissued w true hw)) fun w hw =>
    ⟨hissued w false hw, by rw [World.push_failed, hw.failed, Bool.or_false]⟩

theorem triple_getConnection :
    Triple (fun w => w.statements = sts ∧ w.params = params ∧ w.failed = b) db.getConnection
      (fun connection w => w.statements = sts ∧ w.params = params ∧
        (connection = true → w.failed = b))
      (World.Issued sts query params) := by
  refine triple_get fun w hw => ?_
  refine (triple_update (Q := fun _ w' => w' = w.push .getConnection !db.connects w.events)
    fun w' hw' => by rw [hw']).bind fun _ => triple_pure fun w' hw' => ?_
  subst hw'
  refine ⟨?_, hw.2.1, fun hc => ?_⟩
  · rw [World.push_statements]
    exact hw.1
  · rw [World.push_failed, hw.2.2, hc, Bool.not_true, Bool.or_false]

theorem triple_prepareStatement :
    Triple (fun w => w.statements = sts ∧ w.params = params ∧ (true = true → w.failed = b))
      (db.call (.prepareStatement query)) (fun _ => World.Prepared sts query [] params b)
      (World.Issued sts query params) := by
  have hs : ∀ (w : World) failed, w.statements = sts →
      (w.push (.prepareStatement query) failed).statements = sts ++ [⟨query, [], none⟩] := by
    intro w failed hw
    rw [World.push_statements, hw]
    rfl
  refine triple_call (fun w hw => issued_of_statements [] (hs w true hw.1)) fun w hw =>
    ⟨hs w false hw.1, hw.2.1, ?_⟩
  rw [World.push_failed, hw.2.2 rfl, Bool.or_false]

theorem triple_firstValue : Triple (World.Going sts query params b) db.firstValue
    (fun _ => World.Going sts query params b) (World.Issued sts query params) := by
  refine triple_get fun w hw => ?_
  have hsilent : ∀ x ∈ [Call.rowsCount, .next, .getString 1], x.Silent := by
    intro x hx sts params failed
    simp only [List.mem_cons, List.not_mem_nil, or_false] at hx
    rcases hx with rfl | rfl | rfl <;> rfl
  refine ((triple_silent (hsilent _ (by simp))).weaken (fun w' hw' => hw' ▸ hw) (fun _ _ h => h)
    fun _ h => h).bind fun _ => ?_
  split_ifs
  · refine (triple_silent (hsilent _ (by simp))).bind fun _ => triple_get fun w' hw' => ?_
    exact ((triple_silent (hsilent _ (by simp))).weaken (fun w hw => hw ▸ hw') (fun _ _ h => h)
      fun _ h => h).bind fun _ => triple_pure fun w hw => hw
  · exact triple_pure fun w hw => hw

/-- A query that fails has issued its statement at most once; one that answers has not failed. -/
theorem triple_query (hdb : core.db = some db) :
    Triple (fun w => w.statements = sts ∧ w.params = params ∧ w.failed = b) (core.query query)
      (fun r w => w.Issued sts query params ∧ (r.isSome → w.Going sts query params b))
      (World.Issued sts query params) := by
  unfold Core.query
  rw [hdb]
  refine (triple_getConnection).bind fun connection => ?_
  cases connection with
  | false => exact triple_pure fun w hw => ⟨.inl hw.1, fun h => nomatch h⟩
  | true =>
    rw [if_pos rfl]
    refine (triple_prepareStatement).bind fun _ => triple_get fun w hw => ?_
    rw [hw.params]
    refine (Triple.weaken (triple_setParams 1) (fun w' hw' => hw' ▸ hw) (fun _ w' hw' => hw')
      fun w' hw' => hw').bind fun _ => ?_
    rw [List.nil_append]
    refine triple_executeQuery.bind fun _ => (triple_firstValue).bind fun ret => ?_
    refine (triple_update (Q := fun _ => World.Going sts query params b)
      fun w hw => ?_).bind fun _ => ?_
    · exact hw.push fun _ _ _ => rfl
    · exact triple_pure fun w hw => ⟨.inr hw.issued, fun _ => hw⟩

theorem triple_log (message : String) (level : File.LogLevel) :
    Triple (World.Issued sts query params) (core.log message level)
      (fun _ => World.Issued sts query params) fun _ => False := by
  unfold Core.log
  split_ifs
  · exact triple_update fun w hw => hw.push (fun _ _ _ => rfl) false
  · exact triple_pure fun w hw => hw

/-- **A query.** Where `m_db` is set, `get_value` ends normally. It issues its statement once or not
at all, with its parameters in their places, and it gives a value only where it did and nothing
failed. -/
theorem getValue_spec (hdb : core.db = some db) (query : String) (params : List Param) (w : World) :
    ∃ r w', exec (core.ask query params) w = (.ok r, w') ∧
      w'.Issued w.statements query params ∧
        (r.isSome → w'.Going w.statements query params w.failed) := by
  have hlog : ∀ message level, Triple (World.Issued w.statements query params)
      (do core.log message level; return none)
      (fun (r : Option String) w' => w'.Issued w.statements query params ∧
        (r.isSome → w'.Going w.statements query params w.failed))
      fun _ => False := fun message level =>
    (triple_log message level).bind fun _ => triple_pure fun w' hw' => ⟨hw', fun h => nomatch h⟩
  have h : Triple (· = w) (core.ask query params)
      (fun r w' => w'.Issued w.statements query params ∧
        (r.isSome → w'.Going w.statements query params w.failed))
      fun _ => False := by
    refine (triple_update (Q := fun _ w' => w'.statements = w.statements ∧ w'.params = params ∧
      w'.failed = w.failed) fun w' hw' => ?_).bind fun _ => (triple_query hdb).catching fun e => ?_
    · rw [hw']
      exact ⟨rfl, rfl, rfl⟩
    · cases e with
      | sqlException what => exact hlog what .error
      | other => exact hlog "We are dying here. core.hpp" .critical
  exact h.returns rfl

/-- Without `m_db` a query is undefined. -/
theorem exec_ask_of_none (hdb : core.db = none) (query : String) (params : List Param) (w : World) :
    exec (core.ask query params) w = (.error .undefinedBehaviour, { w with params := params }) := by
  unfold Core.ask Core.getValue Core.query
  rw [hdb]
  rfl

end CppFrame.Db
