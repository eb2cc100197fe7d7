import CppFrame.Run

/-!
# Reading a stream in pieces of known size

A `PieceReader` knows in every state how long the next piece of its input is, and what to do with
it. `Reads s l out s'` says that the pieces which make up `l` lead from `s` to `s'` with the outputs
`out`. Pieces may be empty, so a reader may stand in more than one state behind the same input; of
two readings of one stream, one always goes on from where the other stands (`Reads.comparable`).

An implementation holds what it has received in a buffer, from which it takes the pieces. However
much it asks for at a time, it has read a part of the stream, and the rest stands in the buffer
(`Holds.arrive`).
-/

universe u v w

/-- A reader with states `σ`, input `β` and outputs `α`. -/
structure PieceReader (σ : Type u) (β : Type v) (α : Type w) where
  /-- The size of the next piece, `none` when the reader has ended. -/
  want : σ → Option Nat
  /-- What a piece leads to, `none` when the reader cannot go on. -/
  take : σ → List β → Option (σ × List α)

namespace PieceReader

variable {σ : Type u} {β : Type v} {α : Type w} (m : PieceReader σ β α)

/-! ## Readings -/

/-- The pieces of a stretch of input, from one state to another. -/
inductive Reads : σ → List β → List α → σ → Prop
  | nil (s : σ) : Reads s [] [] s
  | piece {s s' s'' : σ} {piece l : List β} {out out' : List α} (hw : m.want s = some piece.length)
      (ht : m.take s piece = some (s', out)) (h : Reads s' l out' s'') :
      Reads s (piece ++ l) (out ++ out') s''

variable {m} {s s' s₁ s₂ : σ} {l l' p : List β} {out out' o₁ o₂ : List α}

namespace Reads

/-- A reading of one piece. -/
theorem one (hw : m.want s = some p.length) (ht : m.take s p = some (s', out)) :
    m.Reads s p out s' := by
  have h := piece hw ht (nil s')
  rwa [List.append_nil, List.append_nil] at h

/-- A reading goes on where another one ends. -/
theorem append (h₁ : m.Reads s l o₁ s₁) (h₂ : m.Reads s₁ l' o₂ s₂) :
    m.Reads s (l ++ l') (o₁ ++ o₂) s₂ := by
  induction h₁ with
  | nil s => exact h₂
  | piece hw ht _ ih =>
    rw [List.append_assoc, List.append_assoc]
    exact piece hw ht (ih h₂)

/-- One piece more. -/
theorem snoc {o : List α} (h : m.Reads s l out s₁) (hw : m.want s₁ = some p.length)
    (ht : m.take s₁ p = some (s₂, o)) : m.Reads s (l ++ p) (out ++ o) s₂ := h.append (one hw ht)

/-- **Of two readings of one stream, one goes on from the other.** -/
theorem comparable (h₁ : m.Reads s l o₁ s₁) (h₂ : m.Reads s l' o₂ s₂) {r r' : List β}
    (hr : l ++ r = l' ++ r') :
    (∃ x o, l' = l ++ x ∧ o₂ = o₁ ++ o ∧ m.Reads s₁ x o s₂) ∨
      ∃ x o, l = l' ++ x ∧ o₁ = o₂ ++ o ∧ m.Reads s₂ x o s₁ := by
  induction h₁ generalizing l' o₂ with
  | nil s => exact .inl ⟨l', o₂, rfl, rfl, h₂⟩
  | @piece s s' s₁ p l out o₁ hw ht h ih =>
    cases h₂ with
    | nil => exact .inr ⟨p ++ l, out ++ o₁, rfl, rfl, piece hw ht h⟩
    | @piece _ s'' _ p' l' out' o₂ hw' ht' h' =>
      -- both take a piece of the same size, hence the same piece
      have hlen : p.length = p'.length := Option.some.inj (hw.symm.trans hw')
      rw [List.append_assoc, List.append_assoc] at hr
      obtain ⟨rfl, hrest⟩ := List.append_inj hr hlen
      obtain ⟨rfl, rfl⟩ := Prod.mk.inj (Option.some.inj (ht.symm.trans ht'))
      rcases ih h' hrest with ⟨x, o, rfl, rfl, hx⟩ | ⟨x, o, rfl, rfl, hx⟩
      · exact .inl ⟨x, o, by rw [List.append_assoc], by rw [List.append_assoc], hx⟩
      · exact .inr ⟨x, o, by rw [List.append_assoc], by rw [List.append_assoc], hx⟩

/-- A reader that cannot take a piece of its input reads nothing. -/
theorem of_stuck (h : m.Reads s l out s')
    (hstuck : ∀ p r, l = p ++ r → m.want s = some p.length → m.take s p = none) :
    l = [] ∧ out = [] ∧ s' = s := by
  cases h with
  | nil => exact ⟨rfl, rfl, rfl⟩
  | @piece _ _ _ p r _ _ hw ht =>
    rw [hstuck p r rfl hw] at ht
    cases ht

/-- Without input there is nothing to read for a reader that waits for some. -/
theorem of_nil (h : m.Reads s [] out s') (hw : m.want s ≠ some 0) : out = [] ∧ s' = s := by
  refine (h.of_stuck ?_).2
  intro p r hp hw'
  obtain ⟨rfl, -⟩ := List.append_eq_nil_iff.1 hp.symm
  exact absurd hw' hw

end Reads

/-! ## Buffers -/

/-- A reader with what it has received and not yet taken. -/
structure Buffered (σ : Type u) (β : Type v) where
  state : σ
  buffer : List β

variable (m) in
/-- The bytes that were asked for have arrived: the reader takes a piece from the front of its
buffer. -/
def arrive (b : Buffered σ β) (arrived : List β) : Option (Buffered σ β × List α) :=
  match m.want b.state with
  | none => none
  | some n =>
    if n ≤ (b.buffer ++ arrived).length then
      (m.take b.state ((b.buffer ++ arrived).take n)).map fun r =>
        (⟨r.1, (b.buffer ++ arrived).drop n⟩, r.2)
    else none

/-- A read of as many bytes as are taken leaves as many in the buffer as there were. -/
theorem length_buffer_of_arrive {b b' : Buffered σ β} {x : List β}
    (hs : m.arrive b x = some (b', out)) (hx : m.want b.state = some x.length) :
    b'.buffer.length = b.buffer.length := by
  unfold arrive at hs
  rw [hx] at hs
  simp only [List.length_append, Nat.le_add_left, if_true] at hs
  obtain ⟨r, -, he⟩ := Option.map_eq_some_iff.1 hs
  cases he
  rw [List.length_drop, List.length_append, Nat.add_sub_cancel]

/-- What has arrived during a run. -/
def arrived (t : List (List β × List α)) : List β := t.flatMap Prod.fst

/-- What a run has put out. -/
def outputs (t : List (List β × List α)) : List α := t.flatMap Prod.snd

@[simp] theorem arrived_snoc (t : List (List β × List α)) (x : List β × List α) :
    arrived (t ++ [x]) = arrived t ++ x.1 := by simp [arrived]

@[simp] theorem outputs_snoc (t : List (List β × List α)) (x : List β × List α) :
    outputs (t ++ [x]) = outputs t ++ x.2 := by simp [outputs]

/-- What has been read, with the buffer behind it, is what was there and what arrived. -/
def Holds (m : PieceReader σ β α) (start : Buffered σ β) (t : List (List β × List α))
    (b : Buffered σ β) : Prop :=
  ∃ l, start.buffer ++ arrived t = l ++ b.buffer ∧ m.Reads start.state l (outputs t) b.state

theorem holds_start (start : Buffered σ β) : Holds m start [] start :=
  ⟨[], by simp [arrived], .nil _⟩

theorem Holds.arrive {start b b' : Buffered σ β} {t : List (List β × List α)} {x : List β}
    (h : Holds m start t b) (hs : m.arrive b x = some (b', out)) :
    Holds m start (t ++ [(x, out)]) b' := by
  obtain ⟨l, hl, hr⟩ := h
  unfold PieceReader.arrive at hs
  split at hs
  · cases hs
  · rename_i n hw
    split at hs
    · rename_i hn
      obtain ⟨r, ht, he⟩ := Option.map_eq_some_iff.1 hs
      cases he
      refine ⟨l ++ (b.buffer ++ x).take n, ?_, ?_⟩
      · rw [arrived_snoc, ← List.append_assoc, hl, List.append_assoc, List.append_assoc,
          List.take_append_drop]
      · rw [outputs_snoc]
        refine hr.snoc ?_ ht
        rw [hw, List.length_take, Nat.min_eq_left hn]
    · cases hs

end PieceReader
