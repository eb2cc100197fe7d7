import CppFrame.Run
import Mathlib.Data.List.Basic

/-!
# The connections of MariaDB

`MariaDB` of `lib/jahan/db/mariadb.cpp` keeps its idle connections in a deque. `get_connection` and
`cleanup_loop` decide from a size that they read before they lock `m_connections_mutex`, so each of
them is two steps here. Every `front` and `pop_front` is an event with the size of the deque it is
applied to.

`Spared` is the invariant: there are connections enough for everyone who has decided to take some.
It is kept where each decision leaves enough (`sparing`), and then no pop meets too small a deque
(`pops_within`).
-/

namespace CppFrame.Db

/-! ## Data -/

/-- `m_connections`, the callers of `get_connection` between their test and their pop, and the
number of connections that `cleanup_loop` is about to close. -/
structure MariaDB (ι κ : Type) where
  connections : List κ
  callers : List ι
  extraConnections : Option UInt32

namespace MariaDB

/-- A step of a caller or of `cleanup_loop`; `fails` tells which connections throw on `close`. -/
inductive Action (ι κ : Type)
  | testSize (p : ι)
  | popFront (p : ι)
  | returnConnection (connection : κ) (isValid : Bool)
  | cleanupTest
  | cleanup (fails : κ → Bool)

/-- What a step did: `get_connection` made a connection of its own, decided to pop, or popped from a
deque of the given size; a connection was pushed or refused; the loop found nothing or something to
close, or closed connections at the front of deques of the given sizes. -/
inductive Event
  | made
  | found
  | popped (size : Nat)
  | pushed
  | refused
  | enough
  | extra
  | closed (sizes : List Nat)
  deriving DecidableEq

variable {ι κ : Type}

/-- The loop of `cleanup_loop`, with the size of the deque at each `front`. It stops where `close`
throws; what it does after the `front` of an empty deque is undefined. -/
def closeLoop (fails : κ → Bool) : Nat → List κ → List κ × List Nat
  | 0, connections => (connections, [])
  | _ + 1, [] => ([], [0])
  | n + 1, connection :: rest =>
    if fails connection then (connection :: rest, [rest.length + 1])
    else ((closeLoop fails n rest).1, (rest.length + 1) :: (closeLoop fails n rest).2)

/-- One step, where it is enabled. -/
def step [DecidableEq ι] (initConnectionCount : UInt32) (s : MariaDB ι κ) :
    Action ι κ → Option (MariaDB ι κ × Event)
  | .testSize p =>
    if p ∈ s.callers then none
    else if s.connections.length = 0 then some (s, .made)
    else some ({ s with callers := p :: s.callers }, .found)
  | .popFront p =>
    if p ∈ s.callers then
      some ({ s with connections := s.connections.tail, callers := s.callers.erase p },
        .popped s.connections.length)
    else none
  | .returnConnection connection isValid =>
    if isValid then some ({ s with connections := s.connections ++ [connection] }, .pushed)
    else some (s, .refused)
  | .cleanupTest =>
    match s.extraConnections with
    | some _ => none
    | none =>
      if s.connections.length > initConnectionCount.toNat then
        let extra := UInt32.ofNat (s.connections.length - initConnectionCount.toNat)
        some ({ s with extraConnections := some extra }, .extra)
      else some (s, .enough)
  | .cleanup fails =>
    match s.extraConnections with
    | some extraConnections =>
      let r := closeLoop fails extraConnections.toNat s.connections
      some ({ s with connections := r.1, extraConnections := none }, .closed r.2)
    | none => none

/-- A pool with some connections and nobody about to take one. -/
def initial (connections : List κ) : MariaDB ι κ := ⟨connections, [], none⟩

/-- The steps made so far, with their events. -/
abbrev Trace (ι κ : Type) := List (Action ι κ × Event)

/-- Any step may come at any time. -/
def anyStep (_ : MariaDB ι κ) (_ : Trace ι κ) (_ : Action ι κ) : Prop := True

instance (s : MariaDB ι κ) (t : Trace ι κ) (a : Action ι κ) : Decidable (anyStep s t a) := by
  unfold anyStep; infer_instance

/-! ## Connections enough for everyone -/

/-- How many connections have to be there for the loop, if it has anything to close. -/
def reserve (initConnectionCount : UInt32) : Option UInt32 → Nat
  | some extra => if extra = 0 then 0 else initConnectionCount.toNat + extra.toNat
  | none => 0

/-- The loop needs nothing, or as many connections as it closes beyond those to be kept. -/
theorem reserve_some (initConnectionCount extra : UInt32) :
    extra.toNat = 0 ∧ reserve initConnectionCount (some extra) = 0 ∨
      reserve initConnectionCount (some extra) = initConnectionCount.toNat + extra.toNat := by
  unfold reserve
  dsimp only
  split_ifs with he
  · exact .inl ⟨by rw [he]; rfl, rfl⟩
  · exact .inr rfl

/-- There are connections for every caller about to pop, and for the loop. -/
def Spared (initConnectionCount : UInt32) (s : MariaDB ι κ) : Prop :=
  s.callers.length + reserve initConnectionCount s.extraConnections ≤ s.connections.length

/-- `get_connection` decides to pop only where there is a connection beyond those that others have
decided to take, and `cleanup_loop` decides to close only as many as they leave. -/
def sparing (initConnectionCount : UInt32) (s : MariaDB ι κ) (_ : Trace ι κ) : Action ι κ → Prop
  | .testSize _ => s.connections.length ≠ 0 →
      s.callers.length + reserve initConnectionCount s.extraConnections < s.connections.length
  | .cleanupTest => s.connections.length > initConnectionCount.toNat →
      s.callers.length + reserve initConnectionCount
        (some (UInt32.ofNat (s.connections.length - initConnectionCount.toNat))) ≤
          s.connections.length
  | _ => True

/-- What the event says of its deque: not empty for `get_connection`, and with more than
`m_init_connection_count` connections for `cleanup_loop`. -/
def Event.Within (initConnectionCount : UInt32) : Event → Prop
  | .popped size => 0 < size
  | .closed sizes => ∀ size ∈ sizes, initConnectionCount.toNat < size
  | _ => True

variable {initConnectionCount : UInt32}

/-- A loop that leaves enough connections meets enough at every turn. -/
theorem closeLoop_spec (fails : κ → Bool) {n m : Nat} {connections : List κ}
    (h : n = 0 ∨ m + n ≤ connections.length) :
    connections.length ≤ (closeLoop fails n connections).1.length + n ∧
      ∀ size ∈ (closeLoop fails n connections).2, m < size := by
  induction n generalizing connections with
  | zero =>
    refine ⟨Nat.le_refl _, fun size hs => ?_⟩
    cases hs
  | succ n ih =>
    cases connections with
    | nil =>
      rw [List.length_nil] at h
      omega
    | cons c rest =>
      rw [List.length_cons] at h ⊢
      unfold closeLoop
      split_ifs with hc
      · refine ⟨by simp, fun size hs => ?_⟩
        rw [List.mem_singleton.1 hs]
        omega
      · have hrest : n = 0 ∨ m + n ≤ rest.length := by omega
        obtain ⟨hlen, hsizes⟩ := ih hrest
        refine ⟨by simp only; omega, fun size hs => ?_⟩
        rcases List.mem_cons.1 hs with rfl | hs
        · omega
        · exact hsizes size hs

variable [DecidableEq ι] {s s' : MariaDB ι κ} {a : Action ι κ} {e : Event} {t : Trace ι κ}

omit [DecidableEq ι] in
theorem spared_initial (connections : List κ) :
    Spared initConnectionCount (initial connections : MariaDB ι κ) := Nat.zero_le _

/-- A step keeps enough connections for everyone, and pops where there are enough. -/
theorem Spared.step (hs : Spared initConnectionCount s) (hg : sparing initConnectionCount s t a)
    (h : MariaDB.step initConnectionCount s a = some (s', e)) :
    Spared initConnectionCount s' ∧ e.Within initConnectionCount := by
  unfold Spared at hs ⊢
  cases a with
  | testSize p =>
    simp only [MariaDB.step] at h
    split_ifs at h with hp hempty
    · cases h
      exact ⟨hs, trivial⟩
    · cases h
      have hlt := hg hempty
      refine ⟨?_, trivial⟩
      show s.callers.length + 1 + reserve initConnectionCount s.extraConnections ≤
        s.connections.length
      omega
  | popFront p =>
    simp only [MariaDB.step] at h
    split_ifs at h with hp
    cases h
    have hpos : 0 < s.callers.length := List.length_pos_of_mem hp
    refine ⟨?_, ?_⟩
    · show (s.callers.erase p).length + reserve initConnectionCount s.extraConnections ≤
        s.connections.tail.length
      rw [List.length_erase_of_mem hp, List.length_tail]
      omega
    · show 0 < s.connections.length
      omega
  | returnConnection connection isValid =>
    simp only [MariaDB.step] at h
    split_ifs at h with hv
    · cases h
      refine ⟨?_, trivial⟩
      show s.callers.length + reserve initConnectionCount s.extraConnections ≤
        (s.connections ++ [connection]).length
      rw [List.length_append]
      omega
    · cases h
      exact ⟨hs, trivial⟩
  | cleanupTest =>
    simp only [MariaDB.step] at h
    split at h
    · cases h
    · rename_i hextra
      split_ifs at h with hlt
      · cases h
        exact ⟨hg hlt, trivial⟩
      · cases h
        exact ⟨hs, trivial⟩
  | cleanup fails =>
    simp only [MariaDB.step] at h
    split at h
    · rename_i extra hextra
      cases h
      rw [hextra] at hs
      have hr := reserve_some initConnectionCount extra
      have henough : extra.toNat = 0 ∨ initConnectionCount.toNat + extra.toNat ≤
        s.connections.length := by omega
      obtain ⟨hlen, hsizes⟩ := closeLoop_spec fails henough
      refine ⟨?_, hsizes⟩
      show s.callers.length + 0 ≤ (closeLoop fails extra.toNat s.connections).1.length
      omega
    · cases h

/-- **No pop meets a deque that is too small** in a run in which every decision to take connections
leaves enough for those who decided before. -/
theorem pops_within {connections : List κ}
    (h : Run (MariaDB.step initConnectionCount) (sparing initConnectionCount)
      (initial connections) t s) :
    ∀ x ∈ t, x.2.Within initConnectionCount := by
  have hrun : Spared initConnectionCount s ∧ ∀ x ∈ t, x.2.Within initConnectionCount := by
    refine h.invariant (P := fun t s => Spared initConnectionCount s ∧
      ∀ x ∈ t, x.2.Within initConnectionCount) ⟨spared_initial connections,
      fun x hx => by cases hx⟩ ?_
    rintro t s a s' e ⟨hs, ht⟩ hg hstep
    obtain ⟨hs', he⟩ := hs.step hg hstep
    refine ⟨hs', fun x hx => ?_⟩
    rcases List.mem_append.1 hx with hx | hx
    · exact ht x hx
    · rw [List.mem_singleton.1 hx]
      exact he
  exact hrun.2

instance (s : MariaDB ι κ) (t : Trace ι κ) (a : Action ι κ) :
    Decidable (sparing initConnectionCount s t a) := by
  cases a <;> unfold sparing <;> infer_instance

/-- Three connections, one of them to be kept: a caller takes one, and the loop closes one more. -/
theorem pops_within_three : ∃ t s, Run (MariaDB.step 1) (sparing 1)
    (initial ["a", "b", "c"] : MariaDB Nat String) t s ∧ s.connections = ["c"] ∧
      (∀ x ∈ t, x.2.Within 1) ∧ .popped 3 ∈ t.map Prod.snd ∧ .closed [2] ∈ t.map Prod.snd := by
  obtain ⟨t, s, h, -, hp⟩ := Run.exists_of_replay (MariaDB.step 1) (sparing 1)
    (initial ["a", "b", "c"] : MariaDB Nat String)
    [.testSize 0, .popFront 0, .cleanupTest, .cleanup fun _ => false]
    (fun t s => decide (s.connections = ["c"] ∧ .popped 3 ∈ t.map Prod.snd ∧
      .closed [2] ∈ t.map Prod.snd)) (by decide)
  obtain ⟨hc, hpop, hclose⟩ := of_decide_eq_true hp
  exact ⟨t, s, h, hc, pops_within h, hpop, hclose⟩

/-- Two callers find the one connection that is there, and both pop. -/
theorem empty_pop_reachable : ¬ ∀ (t : Trace Nat String) s, Run (MariaDB.step 1) anyStep
    (initial ["a"] : MariaDB Nat String) t s → ∀ x ∈ t, x.2.Within 1 := by
  intro hall
  obtain ⟨t, s, h, -, hp⟩ := Run.exists_of_replay (MariaDB.step 1) anyStep
    (initial ["a"] : MariaDB Nat String) [.testSize 0, .testSize 1, .popFront 0, .popFront 1]
    (fun t _ => decide (.popped 0 ∈ t.map Prod.snd)) (by decide)
  obtain ⟨x, hx, he⟩ := List.mem_map.1 (of_decide_eq_true hp)
  have hw := hall t s h x hx
  rw [he] at hw
  exact Nat.lt_irrefl 0 hw

end MariaDB

end CppFrame.Db
