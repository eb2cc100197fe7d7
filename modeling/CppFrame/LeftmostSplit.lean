import Mathlib.Data.List.Infix
import Mathlib.Data.Nat.Find

/-!
# The leftmost split

A list is cut at a separator where this first stands, and what comes behind is cut in the same way,
until the separator stands nowhere any more (`LeftmostSplit`). Where the separator is not empty
every list has such pieces (`LeftmostSplit.exists_of_ne_nil`): joined they are the list, and the
separator stands in none of them.
-/

variable {α : Type}

/-- The separator stands at a place, and at no place before. -/
def LeftmostSplit.FirstAt (sep l : List α) (i : Nat) : Prop :=
  sep <+: l.drop i ∧ ∀ j < i, ¬ sep <+: l.drop j

/-- The pieces of a list. -/
inductive LeftmostSplit (sep : List α) : List α → List (List α) → Prop
  | last {l : List α} (h : ¬ sep <:+: l) : LeftmostSplit sep l [l]
  | cut {piece rest : List α} {pieces : List (List α)}
      (h : LeftmostSplit.FirstAt sep (piece ++ (sep ++ rest)) piece.length)
      (hs : LeftmostSplit sep rest pieces) :
      LeftmostSplit sep (piece ++ (sep ++ rest)) (piece :: pieces)

namespace LeftmostSplit

/-- Where a piece starts, behind the pieces before it, each with its separator. -/
def start (sep : List α) : List (List α) → Nat
  | [] => 0
  | piece :: before => piece.length + sep.length + start sep before

variable {sep l piece : List α} {pieces before after : List (List α)} {i : Nat}

/-! ## The first place -/

theorem infix_iff_drop : sep <:+: l ↔ ∃ j, sep <+: l.drop j := by
  constructor
  · rintro ⟨a, b, rfl⟩
    refine ⟨a.length, ?_⟩
    rw [List.append_assoc, List.drop_left]
    exact List.prefix_append sep b
  · rintro ⟨j, h⟩
    exact h.isInfix.trans (List.drop_suffix j l).isInfix

/-- What stands somewhere has a first place. -/
theorem exists_firstAt (h : sep <:+: l) : ∃ i, FirstAt sep l i := by
  classical
  have h := infix_iff_drop.1 h
  exact ⟨Nat.find h, Nat.find_spec h, fun _ hj => Nat.find_min h hj⟩

theorem FirstAt.le_length (h : FirstAt sep l i) : i ≤ l.length := by
  by_contra hlt
  have hlt := Nat.lt_of_not_le hlt
  have hnil : sep = [] := by
    have hp := h.1
    rw [List.drop_eq_nil_of_le (Nat.le_of_lt hlt)] at hp
    exact List.prefix_nil.1 hp
  refine h.2 l.length hlt ?_
  rw [hnil]
  exact List.nil_prefix

/-- The list before the first place, and behind the separator that stands there. -/
theorem FirstAt.eq_append (h : FirstAt sep l i) :
    ∃ piece rest, l = piece ++ (sep ++ rest) ∧ piece.length = i := by
  obtain ⟨rest, hrest⟩ := h.1
  refine ⟨l.take i, rest, ?_, List.length_take_of_le h.le_length⟩
  rw [hrest, List.take_append_drop]

/-- The separator does not stand in what comes before its first place. -/
theorem FirstAt.not_infix (h : FirstAt sep (piece ++ l) piece.length) (hsep : sep ≠ []) :
    ¬ sep <:+: piece := by
  rintro ⟨a, b, hab⟩
  have hpos := List.length_pos_iff.2 hsep
  have hlen := congrArg List.length hab
  simp only [List.length_append] at hlen
  refine h.2 a.length (by omega) ?_
  rw [← hab, List.append_assoc, List.append_assoc, List.drop_left]
  exact List.prefix_append sep _

/-- Where one element first stands. -/
theorem firstAt_singleton {c : α} {a : List α} (ha : c ∉ a) (b : List α) :
    FirstAt [c] (a ++ ([c] ++ b)) a.length := by
  refine ⟨?_, fun j hj hp => ha ?_⟩
  · rw [List.drop_left]
    exact List.prefix_append [c] b
  · rw [List.drop_append_of_le_length (Nat.le_of_lt hj),
      List.drop_eq_getElem_cons hj, List.cons_append,
      List.cons_prefix_cons] at hp
    rw [hp.1]
    exact List.getElem_mem hj

/-! ## The pieces -/

/-- A separator that is not empty cuts every list. -/
theorem exists_of_ne_nil (hsep : sep ≠ []) (l : List α) : ∃ pieces, LeftmostSplit sep l pieces := by
  induction hn : l.length using Nat.strong_induction_on generalizing l with
  | _ n ih =>
    by_cases h : sep <:+: l
    · obtain ⟨i, hi⟩ := exists_firstAt h
      obtain ⟨piece, rest, rfl, rfl⟩ := hi.eq_append
      have hpos := List.length_pos_iff.2 hsep
      simp only [List.length_append] at hn
      obtain ⟨pieces, hs⟩ := ih rest.length (by omega) rest rfl
      exact ⟨piece :: pieces, .cut hi hs⟩
    · exact ⟨[l], .last h⟩

/-- The pieces between the places of one element. -/
theorem splitOn [BEq α] [LawfulBEq α] (c : α) (l : List α) : LeftmostSplit [c] l (l.splitOn c) := by
  induction hn : l.length using Nat.strong_induction_on generalizing l with
  | _ n ih =>
    by_cases hc : c ∈ l
    · obtain ⟨a, b, rfl, ha⟩ := List.eq_append_cons_of_mem hc
      rw [List.length_append, List.length_cons] at hn
      rw [List.splitOn_append_cons_self_of_not_mem ha]
      exact .cut (firstAt_singleton ha b) (ih b.length (by omega) b rfl)
    · rw [List.splitOn_eq_singleton hc]
      exact .last fun h => hc (List.singleton_sublist.1 h.sublist)

theorem ne_nil (h : LeftmostSplit sep l pieces) : pieces ≠ [] := by
  cases h with
  | last => exact List.cons_ne_nil _ _
  | cut => exact List.cons_ne_nil _ _

/-- Joined with the separator the pieces are the list. -/
theorem intercalate_eq (h : LeftmostSplit sep l pieces) : sep.intercalate pieces = l := by
  induction h with
  | last => exact List.intercalate_singleton
  | cut _ hs ih => rw [List.intercalate_cons_of_ne_nil hs.ne_nil, ih, List.append_assoc]

theorem not_infix_of_mem (h : LeftmostSplit sep l pieces) (hsep : sep ≠ []) :
    ∀ piece ∈ pieces, ¬ sep <:+: piece := by
  induction h with
  | last h =>
    intro piece hp
    rw [List.mem_singleton.1 hp]
    exact h
  | cut h _ ih =>
    intro piece hp
    rcases List.mem_cons.1 hp with rfl | hp
    · exact h.not_infix hsep
    · exact ih piece hp

/-- There are no more pieces than places. -/
theorem length_le (h : LeftmostSplit sep l pieces) (hsep : sep ≠ []) :
    pieces.length ≤ l.length + 1 := by
  have hpos := List.length_pos_iff.2 hsep
  induction h with
  | last => simp
  | cut _ _ ih =>
    simp only [List.length_cons, List.length_append]
    omega

/-- From a piece on, the pieces are those of the part of the list that starts there. -/
theorem drop_start (h : LeftmostSplit sep l pieces) (hp : pieces = before ++ piece :: after) :
    LeftmostSplit sep (l.drop (start sep before)) (piece :: after) := by
  induction h generalizing before with
  | last h =>
    obtain ⟨rfl, hnil⟩ | ⟨before', rfl, hnil⟩ := List.cons_eq_append_iff.1 hp
    · rw [hnil]
      exact .last h
    · exact absurd hnil (by simp)
  | @cut piece' rest pieces h hs ih =>
    obtain ⟨rfl, hcons⟩ | ⟨before', rfl, hrest⟩ := List.cons_eq_append_iff.1 hp
    · rw [hcons]
      exact .cut h hs
    · rw [start, ← List.length_append, ← List.append_assoc, ← List.drop_drop, List.drop_left]
      exact ih hrest

/-- The separator first stands right behind a piece that is not the last one. -/
theorem firstAt_length (h : LeftmostSplit sep l (piece :: after)) (hafter : after ≠ []) :
    FirstAt sep l piece.length := by
  cases h with
  | last => exact absurd rfl hafter
  | cut h => exact h

end LeftmostSplit
