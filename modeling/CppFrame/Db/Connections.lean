import CppFrame.Db.MariaDB
import Mathlib.Data.List.Perm.Basic
import Mathlib.Data.List.Nodup

/-!
# Who holds a connection

The queries of `Core::get_value`, of `lib/jahan/db/core.hpp`, at work on one `MariaDB`. A query
takes a connection with `get_connection`, which pops one or makes one, holds it in a `unique_ptr`,
and ends with `return_connection`, or with an exception that destroys the connection on its way out.
`cleanup_loop` closes connections meanwhile. A `front` or `pop_front` of an empty deque is undefined
and has no step here.

Over every run, each connection is in one place (`owned_of_run`), there are never more of them open
than queries were ever at work or connections made at the start (`opened_le_of_run`), and whoever
found a connection gets one of its own where every decision leaves enough (`served_of_run`).
-/

namespace CppFrame.Db

/-! ## Data -/

/-- `m_connections` with who is about to take some, the queries that found none and are about to
make one, the connections that queries hold, and those that are closed. -/
structure Queries (ι κ : Type) where
  db : MariaDB ι κ
  making : List ι
  held : List (ι × κ)
  closed : List κ

namespace Queries

/-- A step of a query or of `cleanup_loop`. `make_connection` gives a connection or throws; the
connection that a query returns is valid or not; `throw` is anything thrown while a query holds its
connection. -/
inductive Action (ι κ : Type)
  | testSize (p : ι)
  | makeConnection (p : ι) (connection : Option κ)
  | popFront (p : ι)
  | returnConnection (p : ι) (isValid : Bool)
  | throw (p : ι)
  | cleanupTest
  | cleanup (fails : κ → Bool)

/-- What a step did to `m_connections`, or that it left them alone. -/
inductive Event
  | db (e : MariaDB.Event)
  | connected
  | thrown
  deriving DecidableEq

variable {ι κ : Type}

/-- The queries at work. -/
def users (s : Queries ι κ) : List ι := s.making ++ s.db.callers ++ s.held.map Prod.fst

/-- The connections that are open. -/
def opened (s : Queries ι κ) : List κ := s.db.connections ++ s.held.map Prod.snd

/-- Every connection, where it is. -/
def places (s : Queries ι κ) : List κ := s.opened ++ s.closed

/-- One step, where it is enabled and defined. -/
def step [DecidableEq ι] [DecidableEq κ] (initConnectionCount : UInt32) (s : Queries ι κ) :
    Action ι κ → Option (Queries ι κ × Event)
  | .testSize p =>
    if p ∈ s.users then none
    else match MariaDB.step initConnectionCount s.db (.testSize p) with
      | some (db, .made) => some ({ s with db := db, making := p :: s.making }, .db .made)
      | some (db, e) => some ({ s with db := db }, .db e)
      | none => none
  | .makeConnection p connection =>
    if p ∈ s.making then
      some ({ s with making := s.making.erase p, held := (connection.map (p, ·)).toList ++ s.held },
        .connected)
    else none
  | .popFront p =>
    match s.db.connections, MariaDB.step initConnectionCount s.db (.popFront p) with
    | connection :: _, some (db, e) =>
      some ({ s with db := db, held := (p, connection) :: s.held }, .db e)
    | _, _ => none
  | .returnConnection p isValid =>
    match s.held.lookup p with
    | some connection =>
      match MariaDB.step initConnectionCount s.db (.returnConnection connection isValid) with
      | some (db, e) => some ({ s with
          db := db
          held := s.held.erase (p, connection)
          closed := if isValid then s.closed else connection :: s.closed }, .db e)
      | none => none
    | none => none
  | .throw p =>
    match s.held.lookup p with
    | some connection =>
      some ({ s with held := s.held.erase (p, connection), closed := connection :: s.closed },
        .thrown)
    | none => none
  | .cleanupTest =>
    match MariaDB.step initConnectionCount s.db .cleanupTest with
    | some (db, e) => some ({ s with db := db }, .db e)
    | none => none
  | .cleanup fails =>
    match MariaDB.step initConnectionCount s.db (.cleanup fails) with
    | some (db, .closed sizes) =>
      if 0 ∈ sizes then none
      else
        let closed := s.db.connections.take (s.db.connections.length - db.connections.length)
        some ({ s with db := db, closed := closed ++ s.closed }, .db (.closed sizes))
    | _ => none

/-- A pool with some connections, and no query. -/
def initial (connections : List κ) : Queries ι κ := ⟨.initial connections, [], [], []⟩

/-- The steps made so far, with their events. -/
abbrev Trace (ι κ : Type) := List (Action ι κ × Event)

/-! ## What a step can do -/

/-- The connection that an action makes. -/
def Action.made : Action ι κ → List κ
  | .makeConnection _ connection => connection.toList
  | _ => []

/-- The connections made in a run. -/
def made (t : Trace ι κ) : List κ := t.flatMap fun x => x.1.made

section

variable [DecidableEq ι] [DecidableEq κ]

/-- What the actions do, each with the conditions under which it does it. -/
inductive Moves (s : Queries ι κ) : Action ι κ → Queries ι κ → Prop
  | found (p : ι) (hp : p ∉ s.users) (hc : s.db.connections ≠ []) :
    Moves s (.testSize p) { s with db := { s.db with callers := p :: s.db.callers } }
  | missed (p : ι) (hp : p ∉ s.users) (hc : s.db.connections = []) :
    Moves s (.testSize p) { s with making := p :: s.making }
  | connected (p : ι) (connection : Option κ) (hp : p ∈ s.making) :
    Moves s (.makeConnection p connection)
      { s with making := s.making.erase p, held := (connection.map (p, ·)).toList ++ s.held }
  | popped (p : ι) (connection : κ) (rest : List κ) (hp : p ∈ s.db.callers)
    (hc : s.db.connections = connection :: rest) :
    Moves s (.popFront p) { s with
      db := { s.db with connections := rest, callers := s.db.callers.erase p }
      held := (p, connection) :: s.held }
  | pushed (p : ι) (connection : κ) (hp : (p, connection) ∈ s.held) :
    Moves s (.returnConnection p true) { s with
      db := { s.db with connections := s.db.connections ++ [connection] }
      held := s.held.erase (p, connection) }
  | refused (p : ι) (connection : κ) (hp : (p, connection) ∈ s.held) :
    Moves s (.returnConnection p false)
      { s with held := s.held.erase (p, connection), closed := connection :: s.closed }
  | thrown (p : ι) (connection : κ) (hp : (p, connection) ∈ s.held) :
    Moves s (.throw p)
    { s with held := s.held.erase (p, connection), closed := connection :: s.closed }
  | tested (extraConnections : Option UInt32) :
    Moves s .cleanupTest { s with db := { s.db with extraConnections := extraConnections } }
  | cleaned (fails : κ → Bool) (before rest : List κ) (hc : s.db.connections = before ++ rest) :
    Moves s (.cleanup fails) { s with
      db := { s.db with connections := rest, extraConnections := none }
      closed := before ++ s.closed }

variable {n : UInt32} {s s' : Queries ι κ} {a : Action ι κ} {e : Event} {t : Trace ι κ}

omit [DecidableEq ι] [DecidableEq κ] in
/-- The loop closes connections at the front. -/
theorem closeLoop_suffix (fails : κ → Bool) (k : Nat) (connections : List κ) :
    (MariaDB.closeLoop fails k connections).1 <:+ connections := by
  induction k generalizing connections with
  | zero => exact List.suffix_rfl
  | succ k ih =>
    cases connections with
    | nil => exact List.suffix_rfl
    | cons c rest =>
      unfold MariaDB.closeLoop
      split_ifs
      · exact List.suffix_rfl
      · exact (ih rest).trans (List.suffix_cons c rest)

omit [DecidableEq κ] in
theorem mem_of_lookup {held : List (ι × κ)} {p : ι} {connection : κ}
    (h : held.lookup p = some connection) :
    (p, connection) ∈ held := by
  obtain ⟨l₁, l₂, rfl, -⟩ := List.lookup_eq_some_iff.1 h
  exact List.mem_append_right l₁ List.mem_cons_self

/-- **What a step does.** -/
theorem Moves.of_step (h : step n s a = some (s', e)) : Moves s a s' := by
  cases a with
  | testSize p =>
    simp only [step, MariaDB.step] at h
    split_ifs at h with hp hcallers hempty
    · cases h
      exact .missed p hp (List.length_eq_zero_iff.1 hempty)
    · cases h
      exact .found p hp fun hc => hempty (by rw [hc]; rfl)
  | makeConnection p connection =>
    simp only [step] at h
    split_ifs at h with hp
    cases h
    exact .connected p connection hp
  | popFront p =>
    simp only [step, MariaDB.step] at h
    split at h
    · rename_i connection rest db e hc hpop
      split_ifs at hpop with hp
      cases hpop
      cases h
      rw [hc, List.tail_cons]
      exact .popped p connection rest hp hc
    · cases h
  | returnConnection p isValid =>
    simp only [step, MariaDB.step] at h
    split at h
    · rename_i connection hp
      cases isValid with
      | true =>
        cases h
        exact .pushed p connection (mem_of_lookup hp)
      | false =>
        cases h
        exact .refused p connection (mem_of_lookup hp)
    · cases h
  | throw p =>
    simp only [step] at h
    split at h
    · rename_i connection hp
      cases h
      exact .thrown p connection (mem_of_lookup hp)
    · cases h
  | cleanupTest =>
    simp only [step, MariaDB.step] at h
    split at h
    · rename_i db e htest
      cases h
      split at htest
      · cases htest
      · split_ifs at htest
        · cases htest
          exact .tested _
        · cases htest
          exact .tested s.db.extraConnections
    · cases h
  | cleanup fails =>
    simp only [step, MariaDB.step] at h
    split at h
    · rename_i db sizes hclean
      split_ifs at h
      cases h
      split at hclean
      · rename_i extra hextra
        cases hclean
        obtain ⟨before, hc⟩ := closeLoop_suffix fails extra.toNat s.db.connections
        have hlen : s.db.connections.length -
            (MariaDB.closeLoop fails extra.toNat s.db.connections).1.length = before.length := by
          rw [← congrArg List.length hc, List.length_append, Nat.add_sub_cancel]
        have htake : s.db.connections.take before.length = before := by
          rw [← congrArg (List.take before.length) hc, List.take_left]
        rw [hlen, htake]
        exact .cleaned fails before _ hc.symm
      · cases hclean
    · cases h

/-- What an action asks of `m_connections`. -/
def Action.onDb (s : Queries ι κ) : Action ι κ → Option (MariaDB.Action ι κ)
  | .testSize p => some (.testSize p)
  | .popFront p => some (.popFront p)
  | .returnConnection p isValid => (s.held.lookup p).map fun connection =>
    .returnConnection connection isValid
  | .cleanupTest => some .cleanupTest
  | .cleanup fails => some (.cleanup fails)
  | .makeConnection .. => none
  | .throw _ => none

/-- **What the queries do to `m_connections` are steps of `MariaDB`.** -/
theorem db_of_step (h : step n s a = some (s', e)) :
    a.onDb s = none ∧ s'.db = s.db ∨ ∃ b ev, a.onDb s = some b ∧ MariaDB.step n s.db b =
      some (s'.db, ev) := by
  cases a with
  | testSize p =>
    simp only [step] at h
    split_ifs at h
    split at h
    · rename_i db hb
      cases h
      exact .inr ⟨_, _, rfl, hb⟩
    · rename_i db ev _ hb
      cases h
      exact .inr ⟨_, _, rfl, hb⟩
    · cases h
  | makeConnection p connection =>
    simp only [step] at h
    split_ifs at h
    cases h
    exact .inl ⟨rfl, rfl⟩
  | popFront p =>
    simp only [step] at h
    split at h
    · rename_i connection rest db ev hc hb
      cases h
      exact .inr ⟨_, _, rfl, hb⟩
    · cases h
  | returnConnection p isValid =>
    simp only [step] at h
    split at h
    · rename_i connection hp
      split at h
      · rename_i db ev hb
        cases h
        exact .inr ⟨_, _, by rw [Action.onDb, hp]; rfl, hb⟩
      · cases h
    · cases h
  | throw p =>
    simp only [step] at h
    split at h
    · cases h
      exact .inl ⟨rfl, rfl⟩
    · cases h
  | cleanupTest =>
    simp only [step] at h
    split at h
    · rename_i db ev hb
      cases h
      exact .inr ⟨_, _, rfl, hb⟩
    · cases h
  | cleanup fails =>
    simp only [step] at h
    split at h
    · rename_i db sizes hb
      split_ifs at h
      cases h
      exact .inr ⟨_, _, rfl, hb⟩
    · cases h

/-! ## One place for each connection -/

omit [DecidableEq ι] [DecidableEq κ] in
theorem places_append (s : Queries ι κ) :
    s.places = s.db.connections ++ (s.held.map Prod.snd ++ s.closed) :=
  List.append_assoc ..

/-- A step moves connections about, and adds the one that it makes. -/
theorem Moves.places (h : Moves s a s') : s'.places.Perm (a.made ++ s.places) := by
  simp only [places_append]
  cases h with
  | found p hp hc => exact .refl _
  | missed p hp hc => exact .refl _
  | connected p connection hp =>
    show (s.db.connections ++
      (((connection.map (p, ·)).toList ++ s.held).map Prod.snd ++ s.closed)).Perm
      (connection.toList ++ (s.db.connections ++ (s.held.map Prod.snd ++ s.closed)))
    rw [List.map_append, List.append_assoc]
    have hmap : (connection.map (p, ·)).toList.map Prod.snd =
      connection.toList := by cases connection <;> rfl
    rw [hmap]
    exact List.perm_append_comm_assoc _ _ _
  | popped p connection rest hp hc =>
    rw [hc]
    exact List.perm_middle
  | pushed p connection hp =>
    have hheld := ((List.perm_cons_erase hp).map Prod.snd).append_right s.closed
    rw [List.append_assoc]
    exact (hheld.append_left s.db.connections).symm
  | refused p connection hp =>
    have hheld := ((List.perm_cons_erase hp).map Prod.snd).append_right s.closed
    exact (List.perm_middle.trans hheld.symm).append_left s.db.connections
  | thrown p connection hp =>
    have hheld := ((List.perm_cons_erase hp).map Prod.snd).append_right s.closed
    exact (List.perm_middle.trans hheld.symm).append_left s.db.connections
  | tested extraConnections => exact .refl _
  | cleaned fails before rest hc =>
    show (rest ++ (s.held.map Prod.snd ++ (before ++ s.closed))).Perm
      (s.db.connections ++ (s.held.map Prod.snd ++ s.closed))
    rw [hc, List.append_assoc]
    calc (rest ++ (s.held.map Prod.snd ++ (before ++ s.closed))).Perm _ :=
          (List.perm_append_comm_assoc _ before _).append_left rest
      List.Perm _ (before ++ (rest ++ (s.held.map Prod.snd ++ s.closed))) :=
        List.perm_append_comm_assoc rest before _

omit [DecidableEq ι] [DecidableEq κ] in
theorem users_append (s : Queries ι κ) :
    s.users = s.making ++ (s.db.callers ++ s.held.map Prod.fst) :=
  List.append_assoc ..

/-- A step lets one query in, or lets one go, or neither. -/
theorem Moves.users (h : Moves s a s') : s'.users.Subperm s.users ∨
    ∃ p, a = .testSize p ∧ p ∉ s.users ∧ s'.users.Perm (p :: s.users) := by
  have hdone : ∀ p connection, (p, connection) ∈ s.held →
      (s.making ++ (s.db.callers ++ (s.held.erase (p, connection)).map Prod.fst)).Subperm
        (s.making ++ (s.db.callers ++ s.held.map Prod.fst)) := fun p connection hp =>
    (((List.erase_sublist.map Prod.fst).append_left _).append_left _).subperm
  simp only [users_append] at hdone ⊢
  cases h with
  | found p hp hc =>
    exact .inr ⟨p, rfl, by rwa [← users_append], List.perm_middle⟩
  | missed p hp hc =>
    exact .inr ⟨p, rfl, by rwa [← users_append], .refl _⟩
  | connected p connection hp =>
    left
    cases connection with
    | none => exact (List.erase_sublist.append_right _).subperm
    | some connection =>
      have hmove : (s.making.erase p ++ (s.db.callers ++ p :: s.held.map Prod.fst)).Perm
          (p :: s.making.erase p ++ (s.db.callers ++ s.held.map Prod.fst)) :=
        (List.perm_middle.append_left _).trans List.perm_middle
      exact (hmove.trans ((List.perm_cons_erase hp).symm.append_right _)).subperm
  | popped p connection rest hp hc =>
    left
    have hmove : (s.db.callers.erase p ++ p :: s.held.map Prod.fst).Perm (s.db.callers ++
        s.held.map Prod.fst) :=
      List.perm_middle.trans ((List.perm_cons_erase hp).symm.append_right _)
    exact (hmove.append_left _).subperm
  | pushed p connection hp => exact .inl (hdone p connection hp)
  | refused p connection hp => exact .inl (hdone p connection hp)
  | thrown p connection hp => exact .inl (hdone p connection hp)
  | tested extraConnections => exact .inl (.refl _)
  | cleaned fails before rest hc => exact .inl (.refl _)

/-- A connection that is made is a new one. -/
def fresh (s : Queries ι κ) (_ : Trace ι κ) (a : Action ι κ) : Prop := ∀ c ∈ a.made, c ∉ s.places

/-- Every connection is in one place, and every query has one connection or is about to get one. -/
structure Owned (s : Queries ι κ) : Prop where
  places : s.places.Nodup
  users : s.users.Nodup

omit [DecidableEq ι] [DecidableEq κ] in
theorem Owned.initial {connections : List κ} (hc : connections.Nodup) :
    Owned (initial connections : Queries ι κ) where
  places := by
    show (connections ++ [] ++ []).Nodup
    rwa [List.append_nil, List.append_nil]
  users := List.nodup_nil

theorem Owned.step (hs : Owned s) (hf : fresh s t a) (h : Queries.step n s a = some (s', e)) :
    Owned s' where
  places := by
    have hm := Moves.of_step h
    refine hm.places.nodup_iff.2 (List.nodup_append'.2 ⟨?_, hs.places, fun c => hf c⟩)
    cases a with
    | makeConnection p connection => cases connection <;> simp [Action.made]
    | _ => exact List.nodup_nil
  users := by
    obtain ⟨l, hperm, hsub⟩ | ⟨p, -, hp, hperm⟩ := (Moves.of_step h).users
    · exact hperm.nodup_iff.1 (hs.users.sublist hsub)
    · exact hperm.nodup_iff.2 (List.nodup_cons.2 ⟨hp, hs.users⟩)

/-- What a query may rely on: its connection is open, and no other query and no caller to come has
it. -/
structure Exclusive (s : Queries ι κ) : Prop where
  one_query : ∀ p q connection, (p, connection) ∈ s.held → (q, connection) ∈ s.held → p = q
  one_connection : ∀ p connection connection', (p, connection) ∈ s.held →
    (p, connection') ∈ s.held →
    connection = connection'
  taken : ∀ p connection, (p, connection) ∈ s.held → connection ∉ s.db.connections
  opened : ∀ connection ∈ s.opened, connection ∉ s.closed

omit [DecidableEq ι] [DecidableEq κ] in
theorem Owned.exclusive (hs : Owned s) : Exclusive s := by
  obtain ⟨hopened, -, hclosed⟩ := List.nodup_append'.1 hs.places
  obtain ⟨-, hheld, htaken⟩ := List.nodup_append'.1 hopened
  obtain ⟨-, husers, -⟩ := List.nodup_append'.1 hs.users
  refine ⟨fun p q c hp hq => ?_, fun p c c' hp hp' => ?_, fun p c hp hc => ?_,
    fun c hc hc' => hclosed hc hc'⟩
  · exact congrArg Prod.fst (List.inj_on_of_nodup_map hheld hp hq rfl)
  · exact congrArg Prod.snd (List.inj_on_of_nodup_map husers hp hp' rfl)
  · exact htaken hc (List.mem_map_of_mem hp)

omit [DecidableEq ι] [DecidableEq κ] in
theorem made_concat (t : Trace ι κ) (a : Action ι κ) (e : Event) :
    made (t ++ [(a, e)]) = made t ++ a.made := by
  unfold made
  rw [List.flatMap_append, List.flatMap_singleton]

/-- **No connection is shared, lost or used after it is closed.** In every run the connections that
were there or were made are, each once, in the pool, with a query, or closed. No two queries hold
the same one, and none holds one that the pool could still give away or that is closed. -/
theorem owned_of_run {connections : List κ} (hc : connections.Nodup)
    (h : Run (step n) fresh (initial connections) t s) :
    s.places.Perm (made t ++ connections) ∧ Exclusive s := by
  have hrun : s.places.Perm (made t ++ connections) ∧ Owned s := by
    refine h.invariant (P := fun t s => s.places.Perm (made t ++ connections) ∧ Owned s)
      ⟨?_, .initial hc⟩ ?_
    · show (connections ++ [] ++ []).Perm connections
      rw [List.append_nil, List.append_nil]
    · rintro t s a s' e ⟨hplaces, hs⟩ hf hstep
      refine ⟨?_, hs.step hf hstep⟩
      rw [made_concat]
      calc s'.places.Perm (a.made ++ s.places) := (Moves.of_step hstep).places
        List.Perm _ (a.made ++ (made t ++ connections)) := hplaces.append_left a.made
        List.Perm _ (made t ++ a.made ++ connections) := by
          rw [List.append_assoc]
          exact List.perm_append_comm_assoc _ _ _
  exact ⟨hrun.1, hrun.2.exclusive⟩

instance (s : Queries ι κ) (t : Trace ι κ) (a : Action ι κ) : Decidable (fresh s t a) := by
  unfold fresh; infer_instance

/-- Two queries, one with the connection that was there and one with its own. The cleanup closes the
first one. -/
theorem owned_of_run_two : ∃ t s, Run (step 1) fresh (initial ["a"] : Queries Nat String) t s ∧
    s.closed = ["a"] ∧ s.held = [] ∧ s.places.Perm (made t ++ ["a"]) ∧ Exclusive s := by
  obtain ⟨t, s, h, -, hp⟩ :=
    Run.exists_of_replay (step 1) fresh (initial ["a"] : Queries Nat String)
    [.testSize 0, .popFront 0, .testSize 1, .makeConnection 1 (some "b"), .returnConnection 0 true,
      .returnConnection 1 true, .cleanupTest, .cleanup fun _ => false]
    (fun _ s => decide (s.closed = ["a"] ∧ s.held = [])) (by decide)
  obtain ⟨hclosed, hheld⟩ := of_decide_eq_true hp
  obtain ⟨hplaces, hs⟩ := owned_of_run (List.nodup_singleton "a") h
  exact ⟨t, s, h, hclosed, hheld, hplaces, hs⟩

/-! ## As many connections as queries -/

/-- The queries have `threads` threads to run on. -/
def within (threads : Nat) (s : Queries ι κ) (_ : Trace ι κ) : Action ι κ → Prop
  | .testSize _ => s.users.length < threads
  | _ => True

/-- The connections that are open, and those about to be made. -/
def pending (s : Queries ι κ) : Nat := s.db.connections.length + s.held.length + s.making.length

omit [DecidableEq ι] [DecidableEq κ] in
theorem users_length (s : Queries ι κ) :
    s.users.length = s.making.length + s.db.callers.length + s.held.length := by
  rw [users, List.length_append, List.length_append, List.length_map]

/-- A query sets out to make a connection only where there is none to take. -/
theorem Moves.pending (h : Moves s a s') : s'.pending ≤ s.pending ∨
    ∃ p, a = .testSize p ∧ s'.pending ≤ s.users.length + 1 := by
  unfold Queries.pending
  cases h with
  | found p hp hc => exact .inl (Nat.le_refl _)
  | missed p hp hc =>
    refine .inr ⟨p, rfl, ?_⟩
    show s.db.connections.length + s.held.length + (s.making.length + 1) ≤ s.users.length + 1
    rw [users_length, hc, List.length_nil]
    omega
  | connected p connection hp =>
    have hpos := List.length_pos_of_mem hp
    have hone : (connection.map (p, ·)).toList.length ≤ 1 := by cases connection <;> simp
    left
    show s.db.connections.length + ((connection.map (p, ·)).toList ++ s.held).length +
      (s.making.erase p).length ≤ _
    rw [List.length_append, List.length_erase_of_mem hp]
    omega
  | popped p connection rest hp hc =>
    left
    show rest.length + (s.held.length + 1) + s.making.length ≤ _
    rw [hc, List.length_cons]
    omega
  | pushed p connection hp =>
    have hpos := List.length_pos_of_mem hp
    left
    show (s.db.connections ++ [connection]).length +
      (s.held.erase (p, connection)).length + s.making.length ≤ _
    rw [List.length_append, List.length_singleton, List.length_erase_of_mem hp]
    omega
  | refused p connection hp =>
    have herase := (s.held.erase_sublist (a := (p, connection))).length_le
    left
    show s.db.connections.length + (s.held.erase (p, connection)).length + s.making.length ≤ _
    omega
  | thrown p connection hp =>
    have herase := (s.held.erase_sublist (a := (p, connection))).length_le
    left
    show s.db.connections.length + (s.held.erase (p, connection)).length + s.making.length ≤ _
    omega
  | tested extraConnections => exact .inl (Nat.le_refl _)
  | cleaned fails before rest hc =>
    left
    show rest.length + s.held.length + s.making.length ≤ _
    rw [hc, List.length_append]
    omega

/-- **The load bounds the connections.** Where queries run on so many threads, there are never more
connections open than threads, or than were made at the start. -/
theorem opened_le_of_run {threads : Nat} {connections : List κ}
    (h : Run (step n) (within threads) (initial connections) t s) :
    s.opened.length ≤ max connections.length threads := by
  have hrun : s.pending ≤ max connections.length threads := by
    refine h.invariant (P := fun _ s => s.pending ≤ max connections.length threads) ?_ ?_
    · exact Nat.le_max_left ..
    · rintro t s a s' e hs hg hstep
      obtain hle | ⟨p, rfl, hle⟩ := (Moves.of_step hstep).pending
      · exact Nat.le_trans hle hs
      · have hlt : s.users.length < threads := hg
        omega
  rw [opened, List.length_append, List.length_map]
  unfold pending at hrun
  omega

instance (threads : Nat) (s : Queries ι κ) (t : Trace ι κ) (a : Action ι κ) :
    Decidable (within threads s t a) := by
  cases a <;> unfold within <;> infer_instance

/-- Two threads and no connection: both queries make one, and a third takes the first that comes
back. -/
theorem opened_le_of_run_two :
    ∃ t s, Run (step 0) (within 2) (initial [] : Queries Nat String) t s ∧
    s.held = [(2, "a"), (1, "b")] ∧ s.opened.length ≤ max 0 2 := by
  obtain ⟨t, s, h, -, hp⟩ :=
    Run.exists_of_replay (step 0) (within 2) (initial [] : Queries Nat String)
    [.testSize 0, .testSize 1, .makeConnection 0 (some "a"), .makeConnection 1 (some "b"),
      .returnConnection 0 true, .testSize 2, .popFront 2]
    (fun _ s => decide (s.held = [(2, "a"), (1, "b")])) (by decide)
  exact ⟨t, s, h, of_decide_eq_true hp, opened_le_of_run h⟩

/-! ## A connection for everyone -/

/-- Every decision to take connections leaves enough for those who decided before. -/
def sparing (initConnectionCount : UInt32) (s : Queries ι κ) (_ : Trace ι κ) (a : Action ι κ) :
    Prop :=
  ∀ b ∈ a.onDb s, MariaDB.sparing initConnectionCount s.db [] b

theorem spared_step (hs : MariaDB.Spared n s.db) (hg : sparing n s t a)
    (h : step n s a = some (s', e)) :
    MariaDB.Spared n s'.db := by
  obtain ⟨-, hdb⟩ | ⟨b, ev, hb, hdb⟩ := db_of_step h
  · rwa [hdb]
  · exact (hs.step (hg b hb) hdb).1

/-- **Whoever found a connection gets one**, in a run in which every decision leaves enough, and
nobody else has it. -/
theorem served_of_run {connections : List κ} (hc : connections.Nodup)
    (h : Run (step n) (fun s t a => fresh s t a ∧ sparing n s t a) (initial connections) t s) :
    ∀ p ∈ s.db.callers, ∃ connection s' e, step n s (.popFront p) = some (s', e) ∧ Exclusive s' ∧
      (p, connection) ∈ s'.held := by
  have hrun : Owned s ∧ MariaDB.Spared n s.db := by
    refine h.invariant (P := fun _ s => Owned s ∧ MariaDB.Spared n s.db)
      ⟨.initial hc, MariaDB.spared_initial connections⟩ ?_
    rintro t s a s' e ⟨hs, hspared⟩ ⟨hf, hg⟩ hstep
    exact ⟨hs.step hf hstep, spared_step hspared hg hstep⟩
  obtain ⟨hs, hspared⟩ := hrun
  intro p hp
  have hpos := List.length_pos_of_mem hp
  unfold MariaDB.Spared at hspared
  obtain ⟨connection, rest, hconnections⟩ : ∃ c rest, s.db.connections = c :: rest :=
    List.exists_cons_of_length_pos (by omega)
  have hstep : ∃ s' e, step n s (.popFront p) = some (s', e) ∧ (p, connection) ∈ s'.held := by
    simp only [step, MariaDB.step, hconnections, if_pos hp]
    exact ⟨_, _, rfl, List.mem_cons_self⟩
  obtain ⟨s', e, hstep, hheld⟩ := hstep
  exact ⟨connection, s', e, hstep,
    (hs.step (t := t) (by intro c hc; cases hc) hstep).exclusive, hheld⟩

instance (s : Queries ι κ) (t : Trace ι κ) (a : Action ι κ) : Decidable (sparing n s t a) := by
  unfold sparing; infer_instance

/-- Two connections and two queries that both found one. -/
theorem served_of_run_two : ∃ s s' : Queries Nat String, s.db.callers = [1, 0] ∧
    (∃ connection e, step 1 s (.popFront 0) = some (s', e) ∧ Exclusive s' ∧
      (0, connection) ∈ s'.held) := by
  obtain ⟨t, s, h, -, hp⟩ :=
    Run.exists_of_replay (step 1) (fun s t a => fresh s t a ∧ sparing 1 s t a)
    (initial ["a", "b"] : Queries Nat String) [.testSize 0, .testSize 1]
    (fun _ s => decide (s.db.callers = [1, 0])) (by decide)
  have hcallers := of_decide_eq_true hp
  have hmem : 0 ∈ s.db.callers := by rw [hcallers]; decide
  obtain ⟨connection, s', e, hserved⟩ := served_of_run (by decide) h 0 hmem
  exact ⟨s, s', hcallers, connection, e, hserved⟩

end

end Queries

end CppFrame.Db
