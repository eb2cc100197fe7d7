import CppFrame.Helper
import Mathlib.Data.List.Induction
import Mathlib.Logic.Function.Basic

/-!
# The configuration file

`Config` of `lib/jahan/file/config.hpp`: `load` reads the lines of a file into `settings`, `get`
looks one up.

A line of the form `key=value` sets a key (`assignment`). A line without `=` sets one too: `find`
answers `npos`, and `npos + 1` is `0`, so the whole line is both the key and the value. Whether that
shows is `get_after_load_iff`.
-/

namespace CppFrame.File

namespace Config

/-! ## The functions -/

/-- `settings`. -/
abbrev Settings := String → Option String

/-- `getline` until the file ends. A last line need not be closed. -/
def getlines (content : String) : List String :=
  let pieces := content.toList.splitOn '\n'
  (if pieces.getLast? = some [] then pieces.dropLast else pieces).map String.ofList

/-- One round of the loop of `load`. -/
def loadLine (settings : Settings) (line : String) : Except Stop Settings := do
  let line := remove line isSpace
  let line ← substr line 0 (find line "#" 0)
  if line.isEmpty then return settings
  let eqPos := find line "=" 0
  let key ← substr line 0 eqPos
  -- `npos + 1` wraps around
  let value ← substr line ((eqPos.map (· + 1)).getD 0) none
  return Function.update settings key (some value)

/-- `load`, of a file or where there is none that opens. -/
def load (settings : Settings) : Option String → Except Stop (Bool × Settings)
  | some content => do return (true, ← (getlines content).foldlM loadLine settings)
  | none => return (false, settings)

/-- `get`. -/
def get (settings : Settings) (key defaultValue : String) : String :=
  (settings key).getD defaultValue

/-! ## What a line says -/

/-- A line without white space, up to the first `#`. -/
def cleaned (line : String) : List Char :=
  (line.toList.filter fun c => !isSpace c).takeWhile (· ≠ '#')

/-- The key and the value of a line `key=value`, split at the first `=`. -/
def assignment (line : String) : Option (String × String) :=
  if '=' ∈ cleaned line then
    some (String.ofList ((cleaned line).takeWhile (· ≠ '=')),
      String.ofList ((cleaned line).dropWhile (· ≠ '=')).tail)
  else none

/-- What is left of a line that is not empty and has no `=`. -/
def bare (line : String) : Option String :=
  if cleaned line ≠ [] ∧ '=' ∉ cleaned line then some (String.ofList (cleaned line)) else none

/-- The value of the last line that sets a key. -/
def lastValue (lines : List String) (key : String) : Option String :=
  ((lines.filterMap assignment).reverse).lookup key

/-- The settings that some lines specify, after those there were. -/
def specified (settings : Settings) (lines : List String) : Settings :=
  fun key => (lastValue lines key).or (settings key)

/-- No line without `=` shows: its text is set as a key by a later line, or had itself as its value
already. -/
def Harmless (settings : Settings) (lines : List String) : Prop :=
  ∀ l₁ line l₂, lines = l₁ ++ line :: l₂ → ∀ key, bare line = some key →
    (lastValue l₂ key).isSome ∨ specified settings l₁ key = some key

/-- `assignment`, in other words. -/
theorem assignment_eq_some_iff {line key value : String} : assignment line = some (key, value) ↔
    cleaned line = key.toList ++ '=' :: value.toList ∧ '=' ∉ key.toList := by
  unfold assignment
  constructor
  · intro h
    split_ifs at h with hc
    obtain ⟨a, b, hl, ha⟩ := List.eq_append_cons_of_mem hc
    have hne : ∀ x ∈ a, decide (x ≠ '=') = true := fun x hx => decide_eq_true fun he => ha (he ▸ hx)
    rw [hl, List.takeWhile_append_of_pos hne, List.dropWhile_append_of_pos hne] at h
    simp only [Option.some.injEq, Prod.mk.injEq] at h
    obtain ⟨rfl, rfl⟩ := h
    simpa using ⟨hl, ha⟩
  · rintro ⟨hl, ha⟩
    have hne : ∀ x ∈ key.toList, decide (x ≠ '=') = true :=
      fun x hx => decide_eq_true fun he => ha (he ▸ hx)
    rw [hl, if_pos (by simp), List.takeWhile_append_of_pos hne, List.dropWhile_append_of_pos hne]
    simp

/-! ## What a line does -/

/-- The key and the value that a line puts into the settings. -/
def entry (line : String) : Option (String × String) :=
  (assignment line).or ((bare line).map fun key => (key, key))

/-- The settings after a line. -/
def put (settings : Settings) (line : String) : Settings :=
  match entry line with
  | some (key, value) => Function.update settings key (some value)
  | none => settings

theorem cleaned_eq (line : String) :
    substr (remove line isSpace) 0 (find (remove line isSpace) "#" 0) =
      .ok (String.ofList (cleaned line)) := by
  rw [substr_find_singleton rfl, remove, String.toList_ofList]
  rfl

theorem entry_of_empty {line : String} (h : cleaned line = []) : entry line = none := by
  simp [entry, assignment, bare, h]

theorem entry_of_mem {line : String} {a b : List Char} (h : cleaned line = a ++ '=' :: b)
    (ha : '=' ∉ a) :
    entry line = some (String.ofList a, String.ofList b) := by
  have : assignment line = some (String.ofList a, String.ofList b) :=
    assignment_eq_some_iff.2 (by simpa using ⟨h, ha⟩)
  rw [entry, this]
  rfl

theorem entry_of_not_mem {line : String} (h : cleaned line ≠ []) (he : '=' ∉ cleaned line) :
    entry line = some (String.ofList (cleaned line), String.ofList (cleaned line)) := by
  rw [entry, assignment, if_neg he, bare, if_pos ⟨h, he⟩]
  rfl

/-- The rest of a text after its first `=`. -/
theorem substr_after {l a b : List Char} (hl : l = a ++ '=' :: b) :
    substr (String.ofList l) (a.length + 1) none = .ok (String.ofList b) := by
  have hle : a.length + 1 ≤ (String.ofList l).length := by
    rw [String.length_ofList, hl, List.length_append, List.length_cons]
    omega
  have hdrop : l.drop (a.length + 1) = b := by
    rw [hl, ← List.drop_drop, List.drop_left, List.drop_one, List.tail_cons]
  rw [substr, if_pos hle, String.toList_ofList, hdrop, Option.getD_none,
    List.take_of_length_le
    (by rw [String.length_ofList, hl, List.length_append, List.length_cons]; omega)]

theorem substr_all (s : String) : substr s 0 none = .ok s := by
  rw [substr, if_pos (Nat.zero_le _), List.drop_zero, Option.getD_none,
    List.take_of_length_le (Nat.le_of_eq String.length_toList), String.ofList_toList]

theorem loadLine_eq (settings : Settings) (line : String) :
    loadLine settings line = .ok (put settings line) := by
  unfold loadLine put
  dsimp only
  rw [cleaned_eq]
  simp only [Except.bind, bind, pure, Except.pure]
  by_cases hne : cleaned line = []
  · rw [entry_of_empty hne, hne]
    rfl
  have hisEmpty : ¬ (String.ofList (cleaned line)).isEmpty = true := by
    rw [String.isEmpty_iff]
    intro h
    exact hne (String.ofList_eq_empty_iff.1 h)
  have hs : "=".toList = ['='] := rfl
  rw [if_neg hisEmpty, substr_find_singleton hs, String.toList_ofList]
  by_cases he : '=' ∈ cleaned line
  · obtain ⟨a, b, hl, ha⟩ := List.eq_append_cons_of_mem he
    have hne : ∀ x ∈ a, decide (x ≠ '=') = true := fun x hx => decide_eq_true fun he => ha (he ▸ hx)
    have hkey : (cleaned line).takeWhile (· ≠ '=') = a := by
      rw [hl, List.takeWhile_append_of_pos hne]
      simp
    rw [find_singleton hs (by simpa using hl) ha, entry_of_mem hl ha, hkey,
      Nat.zero_add, Option.map_some,
      Option.getD_some, substr_after hl]
  · have hkey : (cleaned line).takeWhile (· ≠ '=') = cleaned line :=
      List.takeWhile_eq_self_iff.2 fun x hx => decide_eq_true fun hx' => he (hx' ▸ hx)
    rw [find_singleton_eq_none hs (by simpa using he), entry_of_not_mem hne he,
      hkey, Option.map_none,
      Option.getD_none, substr_all]

theorem foldlM_loadLine (settings : Settings) (lines : List String) :
    lines.foldlM loadLine settings = .ok (lines.foldl put settings) := by
  induction lines generalizing settings with
  | nil => rfl
  | cons line lines ih =>
    rw [List.foldlM_cons, loadLine_eq]
    exact ih (put settings line)

/-- What `load` leaves: the lines, one after the other. -/
theorem load_eq (settings : Settings) (content : String) :
    load settings (some content) = .ok (true, (getlines content).foldl put settings) := by
  unfold load
  dsimp only
  rw [foldlM_loadLine]
  rfl

/-! ## Looking up -/

variable {settings : Settings} {lines l₁ l₂ : List String} {line key value : String}

theorem lastValue_append (l₁ l₂ : List String) (key : String) :
    lastValue (l₁ ++ l₂) key = (lastValue l₂ key).or (lastValue l₁ key) := by
  unfold lastValue
  rw [List.filterMap_append, List.reverse_append, List.lookup_append]

theorem lastValue_of_assignment (h : assignment line = some (key, value)) :
    lastValue [line] key = some value := by
  simp [lastValue, h]

theorem lastValue_of_ne (h : ∀ value, assignment line ≠ some (key, value)) :
    lastValue [line] key = none := by
  unfold lastValue
  cases ha : assignment line with
  | none => simp [ha]
  | some x =>
    have hne : key ≠ x.1 := fun he => h x.2 (he ▸ ha)
    simp [ha, hne]

/-- A line without `=` sets nothing by the rules. -/
theorem assignment_of_bare (h : bare line = some key) : assignment line = none := by
  unfold bare at h
  split_ifs at h with hb
  rw [assignment, if_neg hb.2]

theorem assignment_ne_of_bare {key' : String} (h : bare line = some key') (value : String) :
    assignment line ≠ some (key, value) := by
  rw [assignment_of_bare h]
  exact nofun

theorem specified_snoc_of_assignment (h : assignment line = some (key, value)) :
    specified settings (lines ++ [line]) key = some value := by
  rw [specified, lastValue_append, lastValue_of_assignment h]
  rfl

/-- A line that does not set a key leaves what is specified of it. -/
theorem specified_snoc_of_ne (h : ∀ value, assignment line ≠ some (key, value)) :
    specified settings (lines ++ [line]) key = specified settings lines key := by
  rw [specified, lastValue_append, lastValue_of_ne h]
  rfl

/-- The settings after some lines. -/
def loaded (settings : Settings) (lines : List String) : Settings := lines.foldl put settings

theorem loaded_snoc (settings : Settings) (lines : List String) (line : String) :
    loaded settings (lines ++ [line]) = put (loaded settings lines) line := List.foldl_concat ..

theorem put_of_assignment (h : assignment line = some (key, value)) :
    put settings line key = some value := by
  rw [put, entry, h]
  exact Function.update_self ..

theorem put_of_bare (h : bare line = some key) : put settings line key = some key := by
  rw [put, entry, assignment_of_bare h, h]
  exact Function.update_self ..

theorem put_of_ne (ha : ∀ value, assignment line ≠ some (key, value)) (hb : bare line ≠ some key) :
    put settings line key = settings key := by
  unfold put entry
  cases h : assignment line with
  | some x =>
    have hne : key ≠ x.1 := fun he => ha x.2 (he ▸ h)
    exact Function.update_of_ne hne ..
  | none =>
    cases h' : bare line with
    | none => rfl
    | some key' =>
      have hne : key ≠ key' := fun he => hb (he ▸ h')
      exact Function.update_of_ne hne ..

/-- `Harmless`, for one key. -/
def HarmlessFor (settings : Settings) (lines : List String) (key : String) : Prop :=
  ∀ l₁ line l₂, lines = l₁ ++ line :: l₂ → bare line = some key →
    (lastValue l₂ key).isSome ∨ specified settings l₁ key = some key

theorem harmless_iff : Harmless settings lines ↔ ∀ key, HarmlessFor settings lines key := by
  constructor
  · intro h key l₁ line l₂ hl hb
    exact h l₁ line l₂ hl key hb
  · intro h l₁ line l₂ hl key hb
    exact h key l₁ line l₂ hl hb

/-- The places of a line in a list that ends with one. -/
theorem snoc_eq_append_cons {line' : String} (h : lines ++ [line] = l₁ ++ line' :: l₂) :
    (l₁ = lines ∧ line' = line ∧ l₂ = []) ∨ ∃ l, l₂ = l ++ [line] ∧ lines = l₁ ++ line' :: l := by
  rcases List.eq_nil_or_concat l₂ with rfl | ⟨l, x, rfl⟩
  · left
    obtain ⟨h₁, h₂⟩ := List.append_inj' h rfl
    exact ⟨h₁.symm, (List.cons.inj h₂).1.symm, rfl⟩
  · right
    rw [List.concat_eq_append, ← List.cons_append, ← List.append_assoc] at h
    obtain ⟨h₁, h₂⟩ := List.append_inj' h rfl
    exact ⟨l, by rw [List.concat_eq_append, (List.cons.inj h₂).1], h₁⟩

theorem harmlessFor_snoc_of_assignment (h : assignment line = some (key, value)) :
    HarmlessFor settings (lines ++ [line]) key := by
  intro l₁ line' l₂ hl hb
  rcases snoc_eq_append_cons hl with ⟨-, rfl, -⟩ | ⟨l, rfl, -⟩
  · exact absurd h (assignment_ne_of_bare hb value)
  · left
    rw [lastValue_append, lastValue_of_assignment h]
    rfl

/-- Between a line without `=` and the end, the key is set by a line, or its value is as it was. -/
theorem specified_eq_of_bare (hb : bare line = some key) (h : lastValue l₂ key = none) :
    specified settings (l₁ ++ line :: l₂) key = specified settings l₁ key := by
  have hl : l₁ ++ line :: l₂ = l₁ ++ [line] ++ l₂ := by simp
  rw [specified, hl, lastValue_append, h, Option.none_or, lastValue_append,
    lastValue_of_ne (assignment_ne_of_bare hb)]
  rfl

theorem harmlessFor_snoc_of_bare (h : bare line = some key) :
    HarmlessFor settings (lines ++ [line]) key ↔ specified settings lines key = some key := by
  constructor
  · intro hh
    exact (hh lines line [] rfl h).resolve_left (by simp [lastValue])
  · intro hs l₁ line' l₂ hl hb
    rcases snoc_eq_append_cons hl with ⟨rfl, -, -⟩ | ⟨l, rfl, rfl⟩
    · exact .inr hs
    · rw [lastValue_append, lastValue_of_ne (assignment_ne_of_bare h), Option.none_or]
      cases hv : lastValue l key with
      | some value => exact .inl rfl
      | none => exact .inr ((specified_eq_of_bare hb hv).symm.trans hs)

theorem harmlessFor_snoc_of_ne (ha : ∀ value, assignment line ≠ some (key, value))
    (hb : bare line ≠ some key) :
    HarmlessFor settings (lines ++ [line]) key ↔ HarmlessFor settings lines key := by
  constructor
  · rintro hh l₁ line' l₂ rfl hb'
    have h := hh l₁ line' (l₂ ++ [line]) (by simp) hb'
    rwa [lastValue_append, lastValue_of_ne ha, Option.none_or] at h
  · intro hh l₁ line' l₂ hl hb'
    rcases snoc_eq_append_cons hl with ⟨-, rfl, -⟩ | ⟨l, rfl, hl'⟩
    · exact absurd hb' hb
    · rw [lastValue_append, lastValue_of_ne ha, Option.none_or]
      exact hh l₁ line' l hl' hb'

theorem loaded_eq_specified_iff :
    loaded settings lines key = specified settings lines key ↔ HarmlessFor settings lines key := by
  induction lines using List.reverseRecOn with
  | nil => exact iff_of_true rfl fun l₁ line l₂ hl => by simp at hl
  | append_singleton lines line ih =>
    rw [loaded_snoc]
    by_cases ha : ∃ value, assignment line = some (key, value)
    · obtain ⟨value, ha⟩ := ha
      rw [put_of_assignment ha, specified_snoc_of_assignment ha]
      exact iff_of_true rfl (harmlessFor_snoc_of_assignment ha)
    rw [not_exists] at ha
    by_cases hb : bare line = some key
    · rw [put_of_bare hb, specified_snoc_of_ne ha, harmlessFor_snoc_of_bare hb]
      exact eq_comm
    · rw [put_of_ne ha hb, specified_snoc_of_ne ha, ih, harmlessFor_snoc_of_ne ha hb]

/-- What is found under a key, whatever the default, is its setting. -/
theorem forall_getD_eq_iff {v w : Option String} : (∀ d, v.getD d = w.getD d) ↔ v = w := by
  constructor
  · intro h
    cases v with
    | none =>
      cases w with
      | none => rfl
      | some w =>
        have h₁ := h ""
        have h₂ := h "x"
        rw [Option.getD_none, Option.getD_some] at h₁ h₂
        exact absurd (h₁.trans h₂.symm) (by decide)
    | some v =>
      cases w with
      | none =>
        have h₁ := h ""
        have h₂ := h "x"
        rw [Option.getD_none, Option.getD_some] at h₁ h₂
        exact absurd (h₁.symm.trans h₂) (by decide)
      | some w => exact congrArg some (h "")
  · rintro rfl d
    rfl

/-- **The settings after `load`.** `load` always reads the file. What `get` finds then is what the
lines `key=value` specify, over the settings there were, exactly where the lines without `=` are
harmless. -/
theorem get_after_load_iff (settings : Settings) (content : String) :
    (∃ settings', load settings (some content) = .ok (true, settings') ∧
      ∀ key defaultValue, get settings' key defaultValue =
        (specified settings (getlines content) key).getD defaultValue) ↔
    Harmless settings (getlines content) := by
  rw [load_eq, harmless_iff]
  simp only [Except.ok.injEq, Prod.mk.injEq, true_and, exists_eq_left', get, forall_getD_eq_iff]
  exact forall_congr' fun key => loaded_eq_specified_iff

/-- The line `debug` becomes a setting. -/
theorem bare_line_sets :
    ¬ ∃ settings', load (fun _ => none) (some "debug # on\n") = .ok (true, settings') ∧
    ∀ key defaultValue, get settings' key defaultValue =
      (specified (fun _ => none) (getlines "debug # on\n") key).getD defaultValue := by
  rintro ⟨settings', h, hget⟩
  rw [load_eq] at h
  cases h
  exact absurd (hget "debug" "off") (by decide)

end Config

end CppFrame.File
