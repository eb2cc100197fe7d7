import CppFrame.Db.MariaDB
import CppFrame.File.Logger
import CppFrame.Throwing

/-!
# Closing connections

One pass of the loop of `cleanup_loop`, of `lib/jahan/db/mariadb.cpp`, while no other thread acts.
It closes the connections at the front of `m_connections` that are beyond `m_init_connection_count`,
and pops each one after it is closed. What `close` throws ends the pass: an
`sql::SQLSyntaxErrorException` is logged, any other `sql::SQLException` leaves `cleanup_loop`. The
number of connections to close is an `unsigned int`.

The pass leaves what the steps of `MariaDB` leave where the loop acts alone (`cleanupPass_run`).
-/

namespace CppFrame.Db.Cleanup

open Throwing

/-! ## Data -/

/-- An `sql::SQLException`: its text, and whether it is an `sql::SQLSyntaxErrorException`. -/
structure SqlException where
  what : String
  isSyntaxError : Bool

/-- The calls that a pass makes. -/
inductive Call (κ : Type)
  | close (connection : κ)
  | logger (message : String) (level : File.LogLevel)

/-- `m_connections`, and the calls made so far. -/
structure Pool (κ : Type) where
  connections : List κ
  calls : List (Call κ)

abbrev CleanupM (κ : Type) := Throwing SqlException (Pool κ)

variable {κ : Type}

def Pool.push (s : Pool κ) (call : Call κ) : Pool κ := { s with calls := s.calls ++ [call] }

/-! ## The pass -/

section

variable (logger : Bool) (initConnectionCount : UInt32) (close : κ → Option SqlException)

/-- `log`; `logger` tells whether `m_logger` is set. -/
def log (message : String) (level : File.LogLevel) : CleanupM κ Unit :=
  if logger then update (·.push (.logger message level)) else return ()

/-- One turn of the loop over the extra connections. -/
def closeFront : CleanupM κ Unit := do
  let s ← get
  match s.connections with
  | connection :: rest =>
    attempt (close connection) fun _ s => s.push (.close connection)
    update fun s => { s with connections := rest }
  | [] => undefinedBehaviour

/-- The loop over the extra connections. -/
def closeExtra : Nat → CleanupM κ Unit
  | 0 => return ()
  | n + 1 => do
    closeFront close
    closeExtra n

/-- `catch(sql::SQLSyntaxErrorException& e)`: what is not of that type goes on. -/
def catchSyntaxError (e : SqlException) : CleanupM κ Unit :=
  if e.isSyntaxError then log logger e.what .error else throw (.exception e)

/-- One pass of the loop of `cleanup_loop`, after the sleep. -/
def cleanupPass : CleanupM κ Unit := do
  let s ← get
  if s.connections.length > initConnectionCount.toNat then
    let extraConnections := UInt32.ofNat (s.connections.length - initConnectionCount.toNat)
    catching (closeExtra close extraConnections.toNat) (catchSyntaxError logger)
  else return ()

end

/-! ## What one pass does -/

variable {logger : Bool} {initConnectionCount : UInt32} {close : κ → Option SqlException}
  {connections before rest : List κ} {calls : List (Call κ)} {c : κ} {e : SqlException} {n : Nat}

theorem exec_closeFront (hc : close c = none) :
    exec (closeFront close) ⟨c :: rest, calls⟩ = (.ok (), ⟨rest, calls ++ [.close c]⟩) := by
  unfold closeFront
  rw [exec_get_bind]
  dsimp only
  rw [hc]
  rfl

theorem exec_closeFront_of_thrown (hc : close c = some e) :
    exec (closeFront close) ⟨c :: rest, calls⟩ =
      (.error (.exception e), ⟨c :: rest, calls ++ [.close c]⟩) := by
  unfold closeFront
  rw [exec_get_bind]
  dsimp only
  rw [hc]
  rfl

/-- Connections that let themselves be closed are popped one by one. -/
theorem exec_closeExtra_append (n : Nat) (hbefore : ∀ c ∈ before, close c = none) :
    exec (closeExtra close (before.length + n)) ⟨before ++ rest, calls⟩ =
      exec (closeExtra close n) ⟨rest, calls ++ before.map .close⟩ := by
  induction before generalizing calls with
  | nil => rw [List.length_nil, Nat.zero_add, List.nil_append, List.map_nil, List.append_nil]
  | cons c before ih =>
    rw [List.length_cons, Nat.succ_add, closeExtra, List.cons_append,
      exec_bind_of_ok (exec_closeFront (hbefore c List.mem_cons_self)),
      ih fun x hx => hbefore x (List.mem_cons_of_mem c hx), List.append_assoc]
    rfl

/-- The loop closes and pops the first `n` connections, if they can all be closed. -/
theorem exec_closeExtra (hn : n ≤ connections.length)
    (hclosed : ∀ c ∈ connections.take n, close c = none) :
    exec (closeExtra close n) ⟨connections, calls⟩ =
      (.ok (), ⟨connections.drop n, calls ++ (connections.take n).map .close⟩) := by
  have h : exec (closeExtra close ((connections.take n).length + 0))
      ⟨connections.take n ++ connections.drop n, calls⟩ =
        (.ok (), ⟨connections.drop n, calls ++ (connections.take n).map .close⟩) :=
        exec_closeExtra_append 0 hclosed
  rw [List.length_take_of_le hn, List.take_append_drop] at h
  exact h

/-- The loop ends at the first connection that throws, and leaves it in the deque. -/
theorem exec_closeExtra_of_thrown (hbefore : ∀ c ∈ before, close c = none) (hc : close c = some e)
    (hn : before.length < n) : exec (closeExtra close n) ⟨before ++ c :: rest, calls⟩ =
      (.error (.exception e), ⟨c :: rest, calls ++ before.map .close ++ [.close c]⟩) := by
  obtain ⟨m, rfl⟩ := Nat.exists_eq_add_of_lt hn
  rw [Nat.add_assoc, exec_closeExtra_append (m + 1) hbefore]
  exact exec_bind_of_error (exec_closeFront_of_thrown hc) _

/-- Either all of the first `n` connections can be closed, or one of them is the first that
throws. -/
theorem closed_or_thrown (close : κ → Option SqlException) (hn : n ≤ connections.length) :
    (∀ c ∈ connections.take n, close c = none) ∨ ∃ before c rest e, connections =
      before ++ c :: rest ∧
      before.length < n ∧ (∀ x ∈ before, close x = none) ∧ close c = some e := by
  cases h : (connections.take n).find? fun c => (close c).isSome with
  | none => exact .inl fun c hc => by simpa using List.find?_eq_none.1 h c hc
  | some c =>
    obtain ⟨hc, before, rest, htake, hbefore⟩ := List.find?_eq_some_iff_append.1 h
    obtain ⟨e, he⟩ := Option.isSome_iff_exists.1 hc
    refine .inr ⟨before, c, rest ++ connections.drop n, e, ?_, ?_,
      fun x hx => by simpa using hbefore x hx, he⟩
    · rw [← List.cons_append, ← List.append_assoc, ← htake, List.take_append_drop]
    · have hlen := congrArg List.length htake
      rw [List.length_take_of_le hn, List.length_append, List.length_cons] at hlen
      omega

/-- How many connections a pass sets out to close. -/
def extraConnections (initConnectionCount : UInt32) (size : Nat) : Nat :=
  (UInt32.ofNat (size - initConnectionCount.toNat)).toNat

theorem extraConnections_eq (initConnectionCount : UInt32) (size : Nat) :
    extraConnections initConnectionCount size = (size - initConnectionCount.toNat) % UInt32.size :=
  UInt32.toNat_ofNat'

/-- A pass that finds nothing to close. -/
theorem exec_cleanupPass_of_le (h : connections.length ≤ initConnectionCount.toNat) :
    exec (cleanupPass logger initConnectionCount close) ⟨connections, calls⟩ =
      (.ok (), ⟨connections, calls⟩) := by
  unfold cleanupPass
  rw [exec_get_bind, if_neg (Nat.not_lt_of_le h)]
  rfl

/-- A pass that finds something to close. -/
theorem exec_cleanupPass_of_lt (h : initConnectionCount.toNat < connections.length) :
    exec (cleanupPass logger initConnectionCount close) ⟨connections, calls⟩ =
      exec (catching (closeExtra close (extraConnections initConnectionCount connections.length))
        (catchSyntaxError logger)) ⟨connections, calls⟩ := by
  unfold cleanupPass
  rw [exec_get_bind, if_pos h]
  rfl

/-- What the handler does not take leaves `cleanup_loop`. -/
theorem exec_catchSyntaxError (logger : Bool) (e : SqlException) (connections : List κ)
    (calls : List (Call κ)) :
    ∃ calls', exec (catchSyntaxError logger e) ⟨connections, calls⟩ =
      (if e.isSyntaxError then .ok () else .error (.exception e), ⟨connections, calls'⟩) := by
  unfold catchSyntaxError log
  split_ifs
  · exact ⟨_, rfl⟩
  · exact ⟨_, rfl⟩
  · exact ⟨_, rfl⟩

/-! ## Failing closes -/

/-- One pass survives: no exception leaves it, and the last connections stay, as many as there
should be. -/
def Survives (logger : Bool) (initConnectionCount : UInt32) (close : κ → Option SqlException)
    (connections : List κ) : Prop :=
  ∃ calls, exec (cleanupPass logger initConnectionCount close) ⟨connections, []⟩ =
    (.ok (), ⟨connections.drop (connections.length -
    min connections.length initConnectionCount.toNat), calls⟩)

/-- **The cleanup survives failing closes** if and only if none of the connections beyond
`m_init_connection_count` throws, and their number is an `unsigned int`. -/
theorem survives_iff (logger : Bool) (initConnectionCount : UInt32)
    (close : κ → Option SqlException) (connections : List κ) :
    Survives logger initConnectionCount close connections ↔
      connections.length - initConnectionCount.toNat < UInt32.size ∧
        ∀ c ∈ connections.take (connections.length - initConnectionCount.toNat),
          close c = none := by
  have hdrop : connections.length - min connections.length initConnectionCount.toNat =
      connections.length - initConnectionCount.toNat := by omega
  have hextra := extraConnections_eq initConnectionCount connections.length
  unfold Survives
  rw [hdrop]
  generalize hk : connections.length - initConnectionCount.toNat = k at hextra ⊢
  by_cases hlt : initConnectionCount.toNat < connections.length
  · rw [exec_cleanupPass_of_lt hlt]
    generalize extraConnections initConnectionCount connections.length = n at hextra ⊢
    have hn : n ≤ k := hextra ▸ Nat.mod_le k UInt32.size
    have hle : n ≤ connections.length := by omega
    constructor
    · rintro ⟨calls, h⟩
      obtain hclosed | ⟨before, c, rest, e, rfl, hbefore, hnone, hc⟩ := closed_or_thrown close hle
      · -- the loop closed `n` connections, so that is how many it should have closed
        rw [exec_catching_of_ok (exec_closeExtra hle hclosed)] at h
        have hlen := congrArg (fun r => r.2.connections.length) h
        simp only [List.length_drop] at hlen
        obtain rfl : n = k := by omega
        exact ⟨hextra ▸ Nat.mod_lt _ (by decide), hclosed⟩
      · -- the connection that threw is still there
        rw [exec_catching_of_exception (exec_closeExtra_of_thrown hnone hc hbefore)] at h
        obtain ⟨calls', hrun⟩ := exec_catchSyntaxError logger e (c :: rest)
          ([] ++ before.map .close ++ [.close c])
        rw [hrun] at h
        have hlen := congrArg (fun r => r.2.connections.length) h
        simp only [List.length_drop, List.length_append, List.length_cons] at hlen hk
        omega
    · rintro ⟨hfit, hclosed⟩
      obtain rfl : n = k := hextra.trans (Nat.mod_eq_of_lt hfit)
      exact ⟨_, exec_catching_of_ok (exec_closeExtra hle hclosed) _⟩
  · have hk0 : k = 0 := by omega
    rw [hk0, exec_cleanupPass_of_le (Nat.le_of_not_lt hlt)]
    exact iff_of_true ⟨[], rfl⟩ ⟨by decide, fun c hc => by cases hc⟩

/-- The connection `a` is lost. -/
def lost (connection : String) : Option SqlException :=
  if connection = "a" then some ⟨"Connection reset by peer", false⟩ else none

/-- What the connection at the front throws is no syntax error, and leaves `cleanup_loop`. -/
theorem lost_connection_escapes : ¬ Survives true 1 lost ["a", "b"] := by
  rintro ⟨calls, h⟩
  have hrun : exec (cleanupPass true 1 lost) ⟨["a", "b"], []⟩ =
      (.error (.exception ⟨"Connection reset by peer", false⟩), ⟨["a", "b"], [.close "a"]⟩) := rfl
  rw [hrun] at h
  cases h

/-! ## The steps of `MariaDB` -/

/-- The loop leaves what the loop of `MariaDB` leaves. -/
theorem closeExtra_connections (n : Nat) (connections : List κ) (calls : List (Call κ)) :
    (exec (closeExtra close n) ⟨connections, calls⟩).2.connections =
      (MariaDB.closeLoop (fun c => (close c).isSome) n connections).1 := by
  induction n generalizing connections calls with
  | zero => rfl
  | succ n ih =>
    unfold closeExtra MariaDB.closeLoop
    cases connections with
    | nil => rfl
    | cons c rest =>
      dsimp only
      cases hc : close c with
      | none =>
        rw [exec_bind_of_ok (exec_closeFront hc), ih, if_neg (by simp)]
      | some e =>
        rw [exec_bind_of_error (exec_closeFront_of_thrown hc), if_pos Option.isSome_some]

/-- One pass is a run of the pool in which only the loop acts. -/
theorem cleanupPass_run {ι : Type} [DecidableEq ι] (s : MariaDB ι κ)
    (hs : s.extraConnections = none) : ∃ t s',
    Run (MariaDB.step initConnectionCount) MariaDB.anyStep s t s' ∧
      s'.connections =
        (exec (cleanupPass logger initConnectionCount close) ⟨s.connections, calls⟩).2.connections ∧
      s'.callers = s.callers ∧ s'.extraConnections = none := by
  have htest : MariaDB.step initConnectionCount s .cleanupTest =
      if s.connections.length > initConnectionCount.toNat then
        some ({ s with
          extraConnections :=
            some (UInt32.ofNat (s.connections.length - initConnectionCount.toNat)) }, .extra)
      else some (s, .enough) := by
    unfold MariaDB.step
    rw [hs]
  by_cases hlt : initConnectionCount.toNat < s.connections.length
  · rw [if_pos hlt] at htest
    generalize hn : UInt32.ofNat (s.connections.length - initConnectionCount.toNat) = n at htest
    have hclean : MariaDB.step initConnectionCount ⟨s.connections, s.callers, some n⟩
        (.cleanup fun c => (close c).isSome) = some (⟨_, s.callers, none⟩, _) := rfl
    refine ⟨_, _, (Run.start.next trivial htest).next trivial hclean, ?_, rfl, rfl⟩
    rw [exec_cleanupPass_of_lt hlt, exec_catching_frame Pool.connections, closeExtra_connections,
      extraConnections, hn]
    intro e s
    obtain ⟨calls', h⟩ := exec_catchSyntaxError logger e s.connections s.calls
    exact congrArg (fun r => r.2.connections) h
  · rw [if_neg hlt] at htest
    refine ⟨_, _, Run.start.next trivial htest, ?_, rfl, hs⟩
    rw [exec_cleanupPass_of_le (Nat.le_of_not_lt hlt)]

end CppFrame.Db.Cleanup
