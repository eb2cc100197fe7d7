import CppFrame.Helper

/-!
# `explode` with its positions

`explode` of `lib/jahan/helper.hpp` as it computes. Positions are of type `size_t`, `npos` is the
greatest of them, and in the last round the difference `found-pos` and the sum `found +
separator.length()` are taken with it. No string is as long as `npos`, so that `explode` does what
it does without a bound (`explode_unbounded`).

With a separator that is not empty it gives the leftmost split (`explode_splits`), in at most one
round more than the string is long; with the empty separator it does not end (`ends_iff`).
-/

namespace CppFrame

open LeftmostSplit (FirstAt start)

/-- `std::string::npos`. -/
def npos : UInt64 := 0xffffffffffffffff

/-- `std::string`. -/
structure StdString where
  text : String
  length_lt : text.length < npos.toNat

namespace StdString

/-! ## The function -/

def length (s : StdString) : UInt64 := .ofNat s.text.length

def find (str s : StdString) (pos : UInt64) : UInt64 :=
  match CppFrame.find str.text s.text pos.toNat with
  | some found => .ofNat found
  | none => npos

def substr (str : StdString) (pos count : UInt64) : Except Stop String :=
  CppFrame.substr str.text pos.toNat (some count.toNat)

/-- The loop of `explode`, for a number of rounds. -/
def explodeLoop (separator str : StdString) (iqnoreBlank : Bool) :
    Nat → UInt64 → List String → Except Stop (List String)
  | 0, _, _ => .error .running
  | rounds + 1, pos, ret =>
    let found := str.find separator pos
    match str.substr pos (found - pos) with
    | .error e => .error e
    | .ok piece =>
      let ret := ret ++ [piece]
      let ret := if iqnoreBlank && ret.getLast?.any String.isEmpty then ret.dropLast else ret
      let pos := found + separator.length
      if found ≠ npos then explodeLoop separator str iqnoreBlank rounds pos ret else .ok ret

/-- `explode`, for a number of rounds. -/
def explode (separator str : StdString) (iqnoreBlank : Bool) (rounds : Nat) :
    Except Stop (List String) :=
  explodeLoop separator str iqnoreBlank rounds 0 []

/-! ## Positions without a bound -/

variable {separator str : StdString} {iqnoreBlank : Bool} {pos : UInt64} {found : Nat}

theorem toNat_length (s : StdString) : s.length.toNat = s.text.length :=
  UInt64.toNat_ofNat_of_lt' (Nat.lt_trans s.length_lt (by decide))

/-- What is popped is the piece that was pushed last. -/
theorem pop_eq (iqnoreBlank : Bool) (ret : List String) (piece : String) :
    (if iqnoreBlank && (ret ++ [piece]).getLast?.any String.isEmpty then (ret ++ [piece]).dropLast
      else ret ++ [piece]) = if iqnoreBlank && piece.isEmpty then ret else ret ++ [piece] := by
  rw [List.getLast?_concat, List.dropLast_concat]
  rfl

/-- Behind a place there is room for the separator. -/
theorem add_le_of_find (h : CppFrame.find str.text separator.text pos.toNat = some found) :
    pos.toNat ≤ found ∧ found + separator.text.length ≤ str.text.length := by
  obtain ⟨⟨hpos, hle, hp⟩, -⟩ := find_eq_some_iff.1 h
  have hlen := hp.length_le
  rw [List.length_drop, String.length_toList, String.length_toList] at hlen
  exact ⟨hpos, by omega⟩

/-- A round that finds the separator computes without a wrap. -/
theorem positions_of_find (h : CppFrame.find str.text separator.text pos.toNat = some found) :
    (UInt64.ofNat found - pos).toNat = found - pos.toNat ∧ UInt64.ofNat found ≠ npos ∧
      (UInt64.ofNat found + separator.length).toNat = found + separator.text.length := by
  obtain ⟨hpos, hle⟩ := add_le_of_find h
  have hstr := str.length_lt
  have hnpos : npos.toNat = 2 ^ 64 - 1 := rfl
  have hsize : UInt64.size = 2 ^ 64 := rfl
  have hfound : (UInt64.ofNat found).toNat = found := UInt64.toNat_ofNat_of_lt' (by omega)
  refine ⟨?_, fun he => ?_, ?_⟩
  · rw [UInt64.toNat_sub_of_le _ _ (UInt64.le_iff_toNat_le.2 (by rw [hfound]; exact hpos)), hfound]
  · rw [he] at hfound
    omega
  · rw [UInt64.toNat_add, hfound, toNat_length, Nat.mod_eq_of_lt (by omega)]

/-- Up to `npos` is the rest of the string. -/
theorem substr_npos (hpos : pos.toNat ≤ str.text.length) :
    str.substr pos (npos - pos) = CppFrame.substr str.text pos.toNat none := by
  have hstr := str.length_lt
  have hcount : (npos - pos).toNat = npos.toNat - pos.toNat :=
    UInt64.toNat_sub_of_le _ _ (UInt64.le_iff_toNat_le.2 (by omega))
  have hle : (str.text.toList.drop pos.toNat).length ≤ (npos - pos).toNat := by
    rw [List.length_drop, String.length_toList, hcount]
    omega
  rw [substr_none hpos, StdString.substr, CppFrame.substr, if_pos hpos, Option.getD_some,
    List.take_of_length_le hle]

theorem explodeLoop_unbounded (separator str : StdString) (iqnoreBlank : Bool) (rounds : Nat)
    {pos : UInt64} (ret : List String) (hpos : pos.toNat ≤ str.text.length) :
    explodeLoop separator str iqnoreBlank rounds pos ret =
      CppFrame.explodeLoop separator.text str.text iqnoreBlank rounds pos.toNat ret := by
  induction rounds generalizing pos ret with
  | zero => rfl
  | succ rounds ih =>
    unfold explodeLoop CppFrame.explodeLoop StdString.find
    cases h : CppFrame.find str.text separator.text pos.toNat with
    | none =>
      dsimp only [Option.map_none]
      rw [substr_npos hpos, substr_none hpos]
      dsimp only
      rw [pop_eq, if_neg (not_not_intro rfl)]
    | some found =>
      obtain ⟨hcount, hne, hnext⟩ := positions_of_find h
      obtain ⟨-, hle⟩ := add_le_of_find h
      dsimp only [Option.map_some]
      rw [StdString.substr, hcount]
      cases CppFrame.substr str.text pos.toNat (some (found - pos.toNat)) with
      | error e => rfl
      | ok piece =>
        dsimp only
        rw [pop_eq, if_pos hne, ih _ (by rw [hnext]; exact hle), hnext]

theorem explode_unbounded (separator str : StdString) (iqnoreBlank : Bool) (rounds : Nat) :
    explode separator str iqnoreBlank rounds =
      CppFrame.explode separator.text str.text iqnoreBlank rounds :=
  explodeLoop_unbounded separator str iqnoreBlank rounds [] (Nat.zero_le _)

/-! ## The pieces -/

/-- The pieces of `str` at a separator. Joined they give `str` back, none of them contains the
separator, and in the part of `str` that starts at a piece the separator first stands right behind
it, where another piece comes. -/
structure Splits (separator str : String) (pieces : List String) : Prop where
  nonempty : pieces ≠ []
  joined : separator.intercalate pieces = str
  free : ∀ piece ∈ pieces, ¬ separator.toList <:+: piece.toList
  leftmost : ∀ before piece after, pieces = before ++ piece :: after → after ≠ [] →
    FirstAt separator.toList (str.toList.drop (start separator.toList (before.map String.toList)))
    piece.length

theorem splits_of_leftmostSplit {separator str : String} {pieces : List (List Char)}
    (h : LeftmostSplit separator.toList str.toList pieces) (hs : separator.toList ≠ []) :
    Splits separator str (pieces.map String.ofList) where
  nonempty := fun hnil => h.ne_nil (List.map_eq_nil_iff.1 hnil)
  joined := by
    rw [← String.toList_inj, String.toList_intercalate, List.map_map]
    simp only [Function.comp_def, String.toList_ofList, List.map_id']
    exact h.intercalate_eq
  free := by
    intro piece hpiece
    obtain ⟨p, hp, rfl⟩ := List.mem_map.1 hpiece
    rw [String.toList_ofList]
    exact h.not_infix_of_mem hs p hp
  leftmost := by
    intro before piece after hp hafter
    have hpieces : pieces = before.map String.toList ++ piece.toList ::
        after.map String.toList := by
      have := congrArg (List.map String.toList) hp
      simpa [Function.comp_def] using this
    have hfirst := (h.drop_start hpieces).firstAt_length fun hnil =>
      hafter (List.map_eq_nil_iff.1 hnil)
    rwa [String.length_toList] at hfirst

/-- **`explode` is the leftmost split and loses nothing.** With a separator that is not empty it
ends, without a `substr` out of range, and gives the pieces of the string; where blanks are ignored
it gives those that are not empty, in the same order. -/
theorem explode_splits (separator str : StdString) (hs : separator.text ≠ "") :
    ∃ pieces, Splits separator.text str.text pieces ∧
      explode separator str false (str.text.length + 1) = .ok pieces ∧
      explode separator str true (str.text.length + 1) = .ok (pieces.filter (· ≠ "")) := by
  have hs : separator.text.toList ≠ [] := fun hnil => hs (String.toList_eq_nil_iff.1 hnil)
  obtain ⟨pieces, h⟩ := LeftmostSplit.exists_of_ne_nil hs str.text.toList
  refine ⟨_, splits_of_leftmostSplit h hs, ?_, ?_⟩
  · rw [explode_unbounded, explode_eq h hs, keptPieces_false]
  · rw [explode_unbounded, explode_eq h hs, keptPieces_true]

/-- A separator that overlaps itself. -/
def pair : StdString := ⟨"aa", by decide⟩

def pairs : StdString := ⟨"xaaaay", by decide⟩

/-- Between two separators that touch there is an empty piece. -/
theorem explode_splits_pairs : Splits "aa" "xaaaay" ["x", "", "y"] ∧
    explode pair pairs false 7 = .ok ["x", "", "y"] ∧ explode pair pairs true 7 =
      .ok ["x", "y"] := by
  obtain ⟨pieces, hsplits, hall, hkept⟩ := explode_splits pair pairs (by decide)
  have hrun : explode pair pairs false 7 = .ok ["x", "", "y"] := by decide
  obtain rfl : pieces = ["x", "", "y"] := Except.ok.inj (hall.symm.trans hrun)
  exact ⟨hsplits, hall, hkept.trans (by decide)⟩

/-! ## The rounds -/

/-- **`explode`'s loop ends** in at most one round more than the string is long if and only if the
separator is not empty. -/
theorem ends_iff (separator str : StdString) (iqnoreBlank : Bool) :
    (∃ rounds ≤ str.text.length + 1, ∃ pieces,
      explode separator str iqnoreBlank rounds = .ok pieces) ↔
      separator.text ≠ "" := by
  constructor
  · rintro ⟨rounds, -, pieces, h⟩ hs
    rw [explode_unbounded, hs, explode_empty] at h
    cases h
  · intro hs
    have hs : separator.text.toList ≠ [] := fun hnil => hs (String.toList_eq_nil_iff.1 hnil)
    obtain ⟨pieces, h⟩ := LeftmostSplit.exists_of_ne_nil hs str.text.toList
    refine ⟨_, Nat.le_refl _, keptPieces iqnoreBlank (pieces.map String.ofList), ?_⟩
    rw [explode_unbounded]
    exact explode_eq h hs iqnoreBlank

/-- The empty separator. -/
def noSeparator : StdString := ⟨"", by decide⟩

/-- The empty separator stands at the start of every string, and the loop stays there. -/
theorem noSeparator_runs_on : ¬ ∃ rounds ≤ pairs.text.length + 1, ∃ pieces,
    explode noSeparator pairs true rounds = .ok pieces := by
  rintro ⟨rounds, -, pieces, h⟩
  rw [explode_unbounded, noSeparator, explode_empty] at h
  cases h

end StdString

end CppFrame
