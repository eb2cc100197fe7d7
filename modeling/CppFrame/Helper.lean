import CppFrame.LeftmostSplit
import Mathlib.Data.List.TakeWhile

/-!
# Strings

What is used of `std::string`, and `explode` and `remove` of `lib/jahan/helper.hpp`. The loop of
`explode` keeps a position in the string; it is given a number of rounds, and says so where they did
not suffice. The pieces are those of the leftmost split (`explode_eq`); with a separator of one
character they are those of the list of characters split there (`explode_singleton`).
-/

namespace CppFrame

open LeftmostSplit (FirstAt)

/-- `str.find(s, pos)`: the first place from `pos` on where `s` stands; `none` is `npos`. -/
def find (str s : String) (pos : Nat) : Option Nat :=
  (List.range' pos (str.length + 1 - pos)).find? fun i => s.toList.isPrefixOf (str.toList.drop i)

/-- Why a loop over a string did not end: a position beyond the end (`std::out_of_range`), or no
rounds left. -/
inductive Stop
  | outOfRange
  | running
  deriving DecidableEq

/-- `str.substr(pos, count)`; without `count` it is the rest. -/
def substr (str : String) (pos : Nat) (count : Option Nat) : Except Stop String :=
  if pos ≤ str.length then
    .ok (String.ofList ((str.toList.drop pos).take (count.getD str.length)))
  else .error .outOfRange

/-- The loop of `explode`, for a number of rounds. -/
def explodeLoop (separator str : String) (ignoreBlank : Bool) :
    Nat → Nat → List String → Except Stop (List String)
  | 0, _, _ => .error .running
  | rounds + 1, pos, ret =>
    let found := find str separator pos
    match substr str pos (found.map (· - pos)) with
    | .error e => .error e
    | .ok piece =>
      let ret := if ignoreBlank && piece.isEmpty then ret else ret ++ [piece]
      match found with
      | some found => explodeLoop separator str ignoreBlank rounds (found + separator.length) ret
      | none => .ok ret

/-- `explode`, for a number of rounds. -/
def explode (separator str : String) (ignoreBlank : Bool) (rounds : Nat) :
    Except Stop (List String) :=
  explodeLoop separator str ignoreBlank rounds 0 []

/-- `isspace` in the C locale. -/
def isSpace (c : Char) : Bool := c.toNat = 32 || (9 ≤ c.toNat && c.toNat ≤ 13)

/-- `remove`: the characters that the predicate does not hold of. -/
def remove (set : String) (unaryPredicate : Char → Bool) : String :=
  String.ofList (set.toList.filter fun c => !unaryPredicate c)

theorem not_isSpace_of_isDigit {c : Char} (h : c.isDigit = true) : isSpace c = false := by
  have hc : 48 ≤ c.toNat := by
    have h := (Bool.and_eq_true_iff.1 h).1
    exact UInt32.le_iff_toNat_le.1 (of_decide_eq_true h)
  unfold isSpace
  rw [Bool.or_eq_false_iff, Bool.and_eq_false_iff, decide_eq_false_iff_not, decide_eq_false_iff_not,
    decide_eq_false_iff_not]
  omega

/-! ## Places in a string -/

theorem not_isPrefixOf {l l' : List Char} : (!l.isPrefixOf l') = true ↔ ¬ l <+: l' := by
  rw [Bool.not_eq_true', ← Bool.not_eq_true, List.isPrefixOf_iff_prefix]

/-- `find` answers with the first place. -/
theorem find_eq_some_iff {str s : String} {pos i : Nat} : find str s pos = some i ↔
    (pos ≤ i ∧ i ≤ str.length ∧ s.toList <+: str.toList.drop i) ∧
      ∀ j, pos ≤ j → j < i → ¬ s.toList <+: str.toList.drop j := by
  unfold find
  rw [List.find?_range'_eq_some, List.mem_range'_1, List.isPrefixOf_iff_prefix]
  simp only [not_isPrefixOf]
  constructor
  · rintro ⟨hp, ⟨hle, hlt⟩, hfirst⟩
    exact ⟨⟨hle, by omega, hp⟩, hfirst⟩
  · rintro ⟨⟨hle, hlt, hp⟩, hfirst⟩
    exact ⟨hp, ⟨hle, by omega⟩, hfirst⟩

/-- `find` answers `npos` where there is no place. -/
theorem find_eq_none_iff {str s : String} {pos : Nat} : find str s pos = none ↔
    ∀ j, pos ≤ j → j ≤ str.length → ¬ s.toList <+: str.toList.drop j := by
  unfold find
  rw [List.find?_range'_eq_none]
  simp only [not_isPrefixOf]
  constructor
  · intro h j hj hlt
    exact h j hj (by omega)
  · intro h j hj hlt
    exact h j hj (by omega)

/-- `find` in terms of the text from `pos` on. -/
theorem find_of_firstAt {str s : String} {pos i : Nat}
    (h : FirstAt s.toList (str.toList.drop pos) i) (hpos : pos ≤ str.length) :
    find str s pos = some (pos + i) := by
  have hle := h.le_length
  rw [List.length_drop, String.length_toList] at hle
  rw [find_eq_some_iff]
  refine ⟨⟨Nat.le_add_right pos i, by omega, ?_⟩, fun j hj hlt => ?_⟩
  · rw [← List.drop_drop]
    exact h.1
  · obtain ⟨k, rfl⟩ := Nat.exists_eq_add_of_le hj
    rw [← List.drop_drop]
    exact h.2 k (by omega)

theorem find_of_not_infix {str s : String} {pos : Nat} (h : ¬ s.toList <:+: str.toList.drop pos) :
    find str s pos = none := by
  rw [find_eq_none_iff]
  intro j hj _ hp
  obtain ⟨k, rfl⟩ := Nat.exists_eq_add_of_le hj
  rw [← List.drop_drop] at hp
  exact h (LeftmostSplit.infix_iff_drop.2 ⟨k, hp⟩)

/-- The text before the first place of a string. -/
theorem substr_of_append {str : String} {pos : Nat} {a b : List Char}
    (hl : str.toList.drop pos = a ++ b) (hpos : pos ≤ str.length) :
    substr str pos (some a.length) = .ok (String.ofList a) := by
  rw [substr, if_pos hpos, Option.getD_some, hl, List.take_left]

/-- The text from a place on. -/
theorem substr_none {str : String} {pos : Nat} (hpos : pos ≤ str.length) :
    substr str pos none = .ok (String.ofList (str.toList.drop pos)) := by
  have hle : (str.toList.drop pos).length ≤ str.length := by
    rw [List.length_drop, String.length_toList]
    exact Nat.sub_le _ _
  rw [substr, if_pos hpos, Option.getD_none, List.take_of_length_le hle]

/-- A character is found where the text from `pos` on first has it. -/
theorem find_singleton {str s : String} {c : Char} {pos : Nat} {a b : List Char}
    (hs : s.toList = [c]) (hl : str.toList.drop pos = a ++ c :: b) (ha : c ∉ a) :
    find str s pos = some (pos + a.length) := by
  have hfirst : FirstAt s.toList (str.toList.drop pos) a.length := by
    rw [hs, hl]
    exact LeftmostSplit.firstAt_singleton ha b
  refine find_of_firstAt hfirst (Nat.le_of_not_lt fun hlt => ?_)
  rw [← String.length_toList] at hlt
  rw [List.drop_eq_nil_of_le (Nat.le_of_lt hlt)] at hl
  cases a <;> cases hl

/-- A character that the text from `pos` on does not have is not found. -/
theorem find_singleton_eq_none {str s : String} {c : Char} {pos : Nat} (hs : s.toList = [c])
    (hc : c ∉ str.toList.drop pos) : find str s pos = none := by
  refine find_of_not_infix fun h => hc ?_
  rw [hs] at h
  exact List.singleton_sublist.1 h.sublist

/-- The text before the first place of a character, all of it where there is none. -/
theorem substr_find_singleton {s : String} {c : Char} (hs : s.toList = [c]) (str : String) :
    substr str 0 (find str s 0) = .ok (String.ofList (str.toList.takeWhile (· ≠ c))) := by
  have hzero : str.toList.drop 0 = str.toList := List.drop_zero
  by_cases hc : c ∈ str.toList
  · obtain ⟨a, b, hl, ha⟩ := List.eq_append_cons_of_mem hc
    have hne : ∀ x ∈ a, decide (x ≠ c) = true := fun x hx => decide_eq_true fun he => ha (he ▸ hx)
    rw [find_singleton hs (hzero.trans hl) ha, Nat.zero_add,
      substr_of_append (hzero.trans hl) (Nat.zero_le _),
      hl, List.takeWhile_append_of_pos hne]
    simp
  · have hne : ∀ x ∈ str.toList, decide (x ≠ c) = true :=
      fun x hx => decide_eq_true fun he => hc (he ▸ hx)
    rw [find_singleton_eq_none hs (hzero ▸ hc), substr_none (Nat.zero_le _), hzero,
      List.takeWhile_eq_self_iff.2 hne]

/-! ## The pieces of a string -/

/-- The pieces that `explode` keeps. -/
def keptPieces (ignoreBlank : Bool) (pieces : List String) : List String :=
  pieces.filter fun piece => !(ignoreBlank && piece.isEmpty)

theorem keptPieces_false (pieces : List String) : keptPieces false pieces = pieces :=
  List.filter_eq_self.2 fun _ _ => rfl

theorem keptPieces_true (pieces : List String) : keptPieces true pieces = pieces.filter (· ≠ "") :=
  List.filter_congr fun piece _ => by
    rw [Bool.true_and, Bool.eq_iff_iff, Bool.not_eq_true',
      String.isEmpty_eq_false_iff, decide_eq_true_iff]

theorem push_eq (ignoreBlank : Bool) (ret : List String) (piece : String) :
    (if ignoreBlank && piece.isEmpty then ret else ret ++ [piece]) =
      ret ++ keptPieces ignoreBlank [piece] := by
  unfold keptPieces
  cases h : ignoreBlank && piece.isEmpty with
  | false => rw [List.filter_cons_of_pos (by rw [h]; rfl)]; rfl
  | true => rw [List.filter_cons_of_neg (by rw [h]; decide)]; simp

theorem keptPieces_cons (ignoreBlank : Bool) (piece : String) (pieces : List String) :
    keptPieces ignoreBlank (piece :: pieces) = keptPieces ignoreBlank [piece] ++
      keptPieces ignoreBlank pieces :=
  List.filter_append [piece] pieces

/-- The loop gives the pieces of the rest of the string, in as many rounds as there are pieces. -/
theorem explodeLoop_eq {separator str : String} {l : List Char} {pieces : List (List Char)}
    (h : LeftmostSplit separator.toList l pieces) (ignoreBlank : Bool) {rounds pos : Nat}
    (ret : List String) (hpos : pos ≤ str.length) (hl : str.toList.drop pos = l)
    (hrounds : pieces.length ≤ rounds) :
    explodeLoop separator str ignoreBlank rounds pos ret =
      .ok (ret ++ keptPieces ignoreBlank (pieces.map String.ofList)) := by
  induction h generalizing rounds pos ret with
  | last h =>
    obtain ⟨rounds, rfl⟩ := Nat.exists_eq_succ_of_ne_zero (Nat.ne_zero_of_lt hrounds)
    have hfind : find str separator pos = none := find_of_not_infix (hl ▸ h)
    simp only [explodeLoop, hfind, Option.map_none, substr_none hpos, push_eq,
      hl, List.map_singleton]
  | @cut piece rest pieces h hs ih =>
    obtain ⟨rounds, rfl⟩ := Nat.exists_eq_succ_of_ne_zero (Nat.ne_zero_of_lt hrounds)
    have hfind : find str separator pos = some (pos + piece.length) := find_of_firstAt (hl ▸ h) hpos
    have hsum : str.length - pos = piece.length + (separator.length + rest.length) := by
      rw [← String.length_toList, ← List.length_drop, hl, List.length_append, List.length_append,
        String.length_toList]
    have hrest : str.toList.drop (pos + piece.length + separator.length) = rest := by
      rw [← List.drop_drop, ← List.drop_drop, hl, List.drop_left,
        ← String.length_toList, List.drop_left]
    simp only [explodeLoop, hfind, Option.map_some, Nat.add_sub_cancel_left,
      substr_of_append hl hpos, push_eq]
    rw [ih _ (by omega) hrest (Nat.le_of_succ_le_succ hrounds), List.map_cons,
      keptPieces_cons ignoreBlank _ (List.map _ _), List.append_assoc]

/-- The empty string stands at every place, and behind it the next round starts at the same
place. -/
theorem explodeLoop_empty {str : String} (ignoreBlank : Bool) (rounds : Nat) {pos : Nat}
    (ret : List String) (hpos : pos ≤ str.length) :
    explodeLoop "" str ignoreBlank rounds pos ret = .error .running := by
  have hfirst : FirstAt "".toList (str.toList.drop pos) 0 := by
    rw [String.toList_empty]
    exact ⟨List.nil_prefix, fun _ hj => absurd hj (Nat.not_lt_zero _)⟩
  have hfind : find str "" pos = some pos := find_of_firstAt hfirst hpos
  have hpiece : substr str pos (some (pos - pos)) = .ok "" := by
    rw [Nat.sub_self]
    exact substr_of_append (List.nil_append _).symm hpos
  induction rounds generalizing ret with
  | zero => rfl
  | succ rounds ih =>
    simp only [explodeLoop, hfind, Option.map_some, hpiece]
    exact ih _

theorem explode_empty (str : String) (ignoreBlank : Bool) (rounds : Nat) :
    explode "" str ignoreBlank rounds = .error .running :=
  explodeLoop_empty ignoreBlank rounds [] (Nat.zero_le _)

/-- **`explode`** gives the pieces of the leftmost split. -/
theorem explode_eq {separator str : String} {pieces : List (List Char)}
    (h : LeftmostSplit separator.toList str.toList pieces) (hs : separator.toList ≠ [])
    (ignoreBlank : Bool) :
    explode separator str ignoreBlank (str.length + 1) =
      .ok (keptPieces ignoreBlank (pieces.map String.ofList)) := by
  refine explodeLoop_eq h ignoreBlank [] (Nat.zero_le _) List.drop_zero ?_
  rw [← String.length_toList]
  exact h.length_le hs

/-- **`explode` at a character** gives the pieces between its occurrences. -/
theorem explode_singleton {separator : String} {c : Char} (hs : separator.toList = [c])
    (str : String) (ignoreBlank : Bool) : explode separator str ignoreBlank (str.length + 1) =
      .ok (keptPieces ignoreBlank ((str.toList.splitOn c).map String.ofList)) :=
  explode_eq (hs ▸ LeftmostSplit.splitOn c str.toList)
    (by rw [hs]; exact List.cons_ne_nil c []) ignoreBlank

end CppFrame
