import Mathlib.Data.List.Basic
import Mathlib.Order.Basic

/-!
# JSON texts

The grammar of RFC 8259 as a relation between texts and what they say: `Reads` passes over one item
at the start of a text, `Parses` takes a whole text. A text says at most one thing
(`Parses.unique`).

`Spells` is the rule for writers that escape nothing. A text spells an item under a condition: read
with anything behind it, it says that item if and only if the condition holds. A string between
quotes spells itself under the condition that none of its characters needs an escape
(`spells_string`), whatever comes behind it, and an object spells what its members do
(`spells_object`).
-/

namespace CppFrame.Json

/-! ## Values -/

/-- A value. Numbers keep their text, and the members of an object their order. -/
inductive Value
  | null
  | bool (b : Bool)
  | number (text : String)
  | string (s : String)
  | array (items : List Value)
  | object (members : List (String × Value))

/-- What the grammar has a rule for: a value, what is left of an array behind its bracket or a
comma, a member of an object, and what is left of an object. -/
inductive Item
  | value (v : Value)
  | elements (vs : List Value)
  | member (n : String × Value)
  | members (ns : List (String × Value))

/-! ## Tokens -/

def isBlank (c : Char) : Bool := c = ' ' || c = '\t' || c = '\n' || c = '\r'

/-- A text from its first character that is not blank. -/
def skip (text : List Char) : List Char := text.dropWhile isBlank

def isNumberChar (c : Char) : Bool :=
  c.isDigit || c = '-' || c = '+' || c = '.' || c = 'e' || c = 'E'

/-- The exponent of a number, and nothing behind it. -/
def isExponent : List Char → Bool
  | [] => true
  | e :: t =>
    let digits := match t with
      | '+' :: d => d
      | '-' :: d => d
      | d => d
    (e = 'e' || e = 'E') && !digits.isEmpty && digits.all Char.isDigit

/-- The fraction and the exponent of a number, and nothing behind them. -/
def isFraction : List Char → Bool
  | '.' :: t => !(t.takeWhile Char.isDigit).isEmpty && isExponent (t.dropWhile Char.isDigit)
  | t => isExponent t

/-- A number: a minus where it has one, digits without a zero in front, a fraction and an
exponent. -/
def isNumber (text : List Char) : Bool :=
  let text := match text with
    | '-' :: t => t
    | t => t
  let digits := text.takeWhile Char.isDigit
  !digits.isEmpty && (digits.length = 1 || digits.head? ≠ some '0') &&
    isFraction (text.dropWhile Char.isDigit)

/-- A literal name or a number at the start of a text, with what follows it. -/
def scalar : List Char → Option (Value × List Char)
  | 'n' :: 'u' :: 'l' :: 'l' :: t => some (.null, t)
  | 't' :: 'r' :: 'u' :: 'e' :: t => some (.bool true, t)
  | 'f' :: 'a' :: 'l' :: 's' :: 'e' :: t => some (.bool false, t)
  | t =>
    if isNumber (t.takeWhile isNumberChar) then
      some (.number (String.ofList (t.takeWhile isNumberChar)), t.dropWhile isNumberChar)
    else none

/-- The value of a hexadecimal digit. -/
def hexDigit (c : Char) : Option Nat :=
  if c.isDigit then some (c.toNat - '0'.toNat)
  else if 'a' ≤ c && c ≤ 'f' then some (c.toNat - 'a'.toNat + 10)
  else if 'A' ≤ c && c ≤ 'F' then some (c.toNat - 'A'.toNat + 10)
  else none

/-- The four digits of a code unit. -/
def codeUnit : List Char → Option (Nat × List Char)
  | a :: b :: c :: d :: t => do
    let a ← hexDigit a
    let b ← hexDigit b
    let c ← hexDigit c
    let d ← hexDigit d
    some (((a * 16 + b) * 16 + c) * 16 + d, t)
  | _ => none

/-- The code unit of a low surrogate, with the escape that starts it. -/
def lowSurrogate : List Char → Option (Nat × List Char)
  | '\\' :: 'u' :: t => (codeUnit t).filter fun n => 0xDC00 ≤ n.1 && n.1 < 0xE000
  | _ => none

/-- The character of a numeric escape. A high surrogate needs a low one behind it, and neither
stands alone. -/
def unicode (t : List Char) : Option (Char × List Char) :=
  (codeUnit t).bind fun n =>
    if 0xD800 ≤ n.1 && n.1 < 0xDC00 then
      (lowSurrogate n.2).map fun n' =>
        (Char.ofNat (0x10000 + (n.1 - 0xD800) * 0x400 + (n'.1 - 0xDC00)), n'.2)
    else if 0xDC00 ≤ n.1 && n.1 < 0xE000 then none
    else some (Char.ofNat n.1, n.2)

/-- The character of an escape of two characters, by the second one. -/
def shortEscape (c : Char) : Option Char :=
  if c = '"' || c = '\\' || c = '/' then some c
  else if c = 'b' then some '\x08'
  else if c = 'f' then some '\x0c'
  else if c = 'n' then some '\n'
  else if c = 'r' then some '\r'
  else if c = 't' then some '\t'
  else none

/-- The character of the escape whose backslash stands before a text. -/
def escape : List Char → Option (Char × List Char)
  | [] => none
  | c :: t => if c = 'u' then unicode t else (shortEscape c).map fun c' => (c', t)

/-- A character that stands for itself in a string. -/
def isPlain (c : Char) : Bool := c ≠ '"' && c ≠ '\\' && ' ' ≤ c

/-- The characters of a string, from behind its opening quote up to its closing one. -/
inductive Chars : List Char → List Char → List Char → Prop
  | close {rest : List Char} : Chars [] ('"' :: rest) rest
  | raw {c : Char} {s t rest : List Char} : isPlain c = true → Chars s t rest →
      Chars (c :: s) (c :: t) rest
  | escape {c : Char} {s t t' rest : List Char} : Json.escape t = some (c, t') → Chars s t' rest →
      Chars (c :: s) ('\\' :: t) rest

/-! ## The grammar -/

/-- A text starts with an item, and this follows it. -/
inductive Reads : Item → List Char → List Char → Prop
  | scalar {text rest : List Char} {v : Value} : Json.scalar (skip text) = some (v, rest) →
      Reads (.value v) text rest
  | string {text t rest s : List Char} : skip text = '"' :: t → Chars s t rest →
      Reads (.value (.string (String.ofList s))) text rest
  | emptyArray {text t rest : List Char} : skip text = '[' :: t → skip t = ']' :: rest →
      Reads (.value (.array [])) text rest
  | array {text t rest : List Char} {vs : List Value} : skip text = '[' :: t →
      Reads (.elements vs) t rest →
      Reads (.value (.array vs)) text rest
  | emptyObject {text t rest : List Char} : skip text = '\x7b' :: t → skip t = '\x7d' :: rest →
      Reads (.value (.object [])) text rest
  | object {text t rest : List Char} {ns : List (String × Value)} : skip text = '\x7b' :: t →
      Reads (.members ns) t rest → Reads (.value (.object ns)) text rest
  | lastElement {text t rest : List Char} {v : Value} : Reads (.value v) text t →
      skip t = ']' :: rest →
      Reads (.elements [v]) text rest
  | elements {text t t' rest : List Char} {v : Value} {vs : List Value} : Reads (.value v) text t →
      skip t = ',' :: t' → Reads (.elements vs) t' rest → Reads (.elements (v :: vs)) text rest
  | member {text t t₁ t₂ rest k : List Char} {v : Value} : skip text = '"' :: t → Chars k t t₁ →
      skip t₁ = ':' :: t₂ → Reads (.value v) t₂ rest →
        Reads (.member (String.ofList k, v)) text rest
  | lastMember {text t rest : List Char} {n : String × Value} : Reads (.member n) text t →
      skip t = '\x7d' :: rest → Reads (.members [n]) text rest
  | members {text t t' rest : List Char} {n : String × Value} {ns : List (String × Value)} :
      Reads (.member n) text t → skip t = ',' :: t' → Reads (.members ns) t' rest →
      Reads (.members (n :: ns)) text rest

/-- A text says a value: it starts with that value and only blanks follow. -/
def Parses (text : String) (v : Value) : Prop :=
  ∃ rest, Reads (.value v) text.toList rest ∧ skip rest = []

/-! ## Strings -/

/-- A string in which no character needs an escape. -/
def Plain (s : String) : Prop := ∀ c ∈ s.toList, isPlain c = true

instance (s : String) : Decidable (Plain s) := List.decidableBAll _ _

section

variable {s s' t t' rest rest' : List Char} {c : Char}

theorem not_isPlain_quote : ¬ isPlain '"' = true := by decide

theorem not_isPlain_backslash : ¬ isPlain '\\' = true := by decide

theorem Chars.unique (h : Chars s t rest) (h' : Chars s' t rest') : s = s' ∧ rest = rest' := by
  induction h generalizing s' with
  | close =>
    cases h' with
    | close => exact ⟨rfl, rfl⟩
    | raw hc => exact absurd hc not_isPlain_quote
  | raw hc _ ih =>
    cases h' with
    | close => exact absurd hc not_isPlain_quote
    | raw _ h' =>
      obtain ⟨rfl, rfl⟩ := ih h'
      exact ⟨rfl, rfl⟩
    | escape => exact absurd hc not_isPlain_backslash
  | escape he _ ih =>
    cases h' with
    | raw hc => exact absurd hc not_isPlain_backslash
    | escape he' h' =>
      rw [he] at he'
      cases he'
      obtain ⟨rfl, rfl⟩ := ih h'
      exact ⟨rfl, rfl⟩

/-- Plain characters are read as they stand. -/
theorem chars_plain (h : ∀ c ∈ s, isPlain c = true) (rest : List Char) :
    Chars s (s ++ '"' :: rest) rest := by
  induction s with
  | nil => exact .close
  | cons c s ih => exact .raw (h c List.mem_cons_self) (ih fun c hc =>
    h c (List.mem_cons_of_mem _ hc))

theorem ne_quote_of_hexDigit {n : Nat} (h : hexDigit c = some n) : c ≠ '"' := by
  rintro rfl
  cases h

/-- The four digits of a code unit have no quote among them. -/
theorem codeUnit_split {n : Nat} (h : codeUnit t = some (n, rest)) :
    ∃ e, t = e ++ rest ∧ '"' ∉ e := by
  match t, h with
  | a :: b :: c :: d :: t, h =>
    unfold codeUnit at h
    simp only [Option.bind_eq_bind, Option.bind_eq_some_iff] at h
    obtain ⟨_, ha, _, hb, _, hc, _, hd, h⟩ := h
    cases h
    refine ⟨[a, b, c, d], rfl, ?_⟩
    simp [(ne_quote_of_hexDigit ha).symm, (ne_quote_of_hexDigit hb).symm,
      (ne_quote_of_hexDigit hc).symm,
      (ne_quote_of_hexDigit hd).symm]

theorem lowSurrogate_split {n : Nat} (h : lowSurrogate t = some (n, rest)) :
    ∃ e, t = e ++ rest ∧ '"' ∉ e := by
  unfold lowSurrogate at h
  split at h
  · obtain ⟨e, rfl, he⟩ := codeUnit_split (Option.filter_eq_some_iff.1 h).1
    exact ⟨'\\' :: 'u' :: e, rfl, by simpa using he⟩
  · cases h

theorem unicode_split (h : unicode t = some (c, rest)) : ∃ e, t = e ++ rest ∧ '"' ∉ e := by
  obtain ⟨⟨n, t'⟩, hn, hchar⟩ := Option.bind_eq_some_iff.1 h
  obtain ⟨e, rfl, he⟩ := codeUnit_split hn
  split_ifs at hchar
  · obtain ⟨⟨n', t''⟩, hn', hpair⟩ := Option.map_eq_some_iff.1 hchar
    obtain ⟨e', he', hquote⟩ := lowSurrogate_split hn'
    obtain ⟨-, rfl⟩ := Prod.mk.inj hpair
    exact ⟨e ++ e', by rw [List.append_assoc, ← he'], by simp [he, hquote]⟩
  · obtain ⟨-, rfl⟩ := Prod.mk.inj (Option.some.inj hchar)
    exact ⟨e, rfl, he⟩

/-- An escape that is not the one of a quote has no quote in it. -/
theorem escape_split (h : escape t = some (c, rest)) (hc : c ≠ '"') : ∃ e, t = e ++ rest ∧
    e ≠ [] ∧ '"' ∉ e := by
  cases t with
  | nil => cases h
  | cons x t =>
    rw [escape] at h
    split_ifs at h with hx
    · obtain ⟨e, rfl, he⟩ := unicode_split h
      exact ⟨x :: e, rfl, List.cons_ne_nil _ _, by simp [hx, he]⟩
    · obtain ⟨c', hs, hpair⟩ := Option.map_eq_some_iff.1 h
      cases hpair
      refine ⟨[x], rfl, List.cons_ne_nil _ _, ?_⟩
      rw [List.mem_singleton]
      rintro rfl
      exact hc (Option.some.inj hs).symm

/-- A part without quotes of a text that goes on with a quote lies before that quote. -/
theorem append_quote_split {m tail e : List Char}
    (h : m ++ '"' :: tail = e ++ rest) (he : '"' ∉ e) :
    ∃ m', m = e ++ m' ∧ rest = m' ++ '"' :: tail := by
  rcases List.append_eq_append_iff.1 h with ⟨e', rfl, hrest⟩ | ⟨m', rfl, hrest⟩
  · cases e' with
    | nil => exact ⟨[], by rw [List.append_nil, List.append_nil], hrest.symm⟩
    | cons x e' =>
      cases hrest
      exact absurd (List.mem_append_right _ List.mem_cons_self) he
  · exact ⟨m', rfl, hrest⟩

/-- What is read from `m` up to a quote cannot end in `m` behind something without quotes: an escape
takes more than it gives, so what is missing never gets shorter. -/
theorem not_chars_append {w m tail : List Char} (hw : w ≠ []) (hquote : '"' ∉ w)
    (h : Chars (w ++ m) (m ++ '"' :: tail) rest) : False := by
  generalize hs : w ++ m = s at h
  generalize ht : m ++ '"' :: tail = t at h
  induction h generalizing w m with
  | close => exact hw (List.append_eq_nil_iff.1 hs).1
  | @raw c s t rest hc _ ih =>
    obtain ⟨x, w, rfl⟩ := List.exists_cons_of_ne_nil hw
    cases m with
    | nil =>
      cases ht
      exact not_isPlain_quote hc
    | cons y m =>
      cases hs
      cases ht
      refine ih (w := w ++ [c]) (by simp) ?_ (by simp) rfl
      simp only [List.mem_append, List.mem_singleton, not_or]
      exact ⟨fun h => hquote (List.mem_cons_of_mem _ h), fun h => not_isPlain_quote (h ▸ hc)⟩
  | @escape c s t t' rest he _ ih =>
    obtain ⟨x, w, rfl⟩ := List.exists_cons_of_ne_nil hw
    cases m with
    | nil => cases ht
    | cons y m =>
      cases hs
      cases ht
      obtain ⟨e, hsplit, hne, heq⟩ := escape_split he fun h => hquote (h ▸ List.mem_cons_self)
      obtain ⟨m', rfl, rfl⟩ := append_quote_split hsplit heq
      refine ih (w := w ++ '\\' :: e) (by simp) ?_ (by simp) rfl
      simp only [List.mem_append, List.mem_cons, not_or]
      exact ⟨fun h => hquote (List.mem_cons_of_mem _ h), by decide, heq⟩

/-- **A string spells itself.** Between quotes it is read as itself if and only if it is plain,
whatever comes behind it. -/
theorem chars_self_iff {tail : List Char} :
    Chars s (s ++ '"' :: tail) rest ↔ (∀ c ∈ s, isPlain c = true) ∧ rest = tail := by
  constructor
  · intro h
    suffices hplain : ∀ c ∈ s, isPlain c =
      true from ⟨hplain, ((chars_plain hplain tail).unique h).2.symm⟩
    generalize ht : s ++ '"' :: tail = t at h
    induction h with
    | close => exact List.forall_mem_nil _
    | raw hc _ ih =>
      cases ht
      exact List.forall_mem_cons.2 ⟨hc, ih rfl⟩
    | @escape c s t t' rest he hchars ih =>
      cases ht
      obtain ⟨e, hsplit, hne, heq⟩ := escape_split he (by decide)
      obtain ⟨m, rfl, rfl⟩ := append_quote_split hsplit heq
      exact (not_chars_append hne heq hchars).elim
  · rintro ⟨h, rfl⟩
    exact chars_plain h rest

end

/-! ## A text says one thing -/

/-- The rule that an item belongs to. -/
inductive Kind
  | value
  | elements
  | member
  | members

def Item.kind : Item → Kind
  | .value _ => .value
  | .elements _ => .elements
  | .member _ => .member
  | .members _ => .members

section

variable {i i' : Item} {text t rest rest' : List Char} {c : Char}

theorem scalar_of_mem (hc : c ∈ ['"', '[', ']', '\x7b', '\x7d']) (t : List Char) : scalar
    (c :: t) = none := by
  simp only [List.mem_cons, List.not_mem_nil, or_false] at hc
  rcases hc with rfl | rfl | rfl | rfl | rfl <;> rfl

/-- Nothing starts with a closing bracket. -/
theorem Reads.skip_ne (h : Reads i text rest) (hc : c ∈ [']', '\x7d']) (t :
    List Char) : skip text ≠ c :: t := by
  intro ht
  have hne : c ≠ '"' ∧ c ≠ '[' ∧ c ≠ '\x7b' := by
    simp only [List.mem_cons, List.not_mem_nil, or_false] at hc
    rcases hc with rfl | rfl <;> decide
  have hhead : ∀ {x : Char} {t' : List Char}, skip text = x :: t' → c = x := fun h =>
    (List.cons.inj (ht.symm.trans h)).1
  induction h with
  | scalar h =>
    rw [ht, scalar_of_mem (by revert hc; simp; tauto)] at h
    cases h
  | string h => exact hne.1 (hhead h)
  | emptyArray h => exact hne.2.1 (hhead h)
  | array h => exact hne.2.1 (hhead h)
  | emptyObject h => exact hne.2.2 (hhead h)
  | object h => exact hne.2.2 (hhead h)
  | lastElement _ _ ih => exact ih ht hhead
  | elements _ _ _ ih => exact ih ht hhead
  | member h => exact hne.1 (hhead h)
  | lastMember _ _ ih => exact ih ht hhead
  | members _ _ _ ih => exact ih ht hhead

theorem not_scalar {v : Value} (h : skip text = c :: t) (hc : c ∈ ['"', '[', ']', '\x7b', '\x7d'])
    (h' : scalar (skip text) = some (v, rest)) : False := by
  rw [h, scalar_of_mem hc] at h'
  cases h'

theorem skip_inj {x y : Char} {t' : List Char} (h : skip text = x :: t) (h' : skip text = y :: t') :
    x = y ∧ t = t' := List.cons.inj (h.symm.trans h')

/-! The first character of a value, and what follows an item of a list, tell the rule. -/

theorem Reads.of_scalar {v : Value} (h : Reads i text rest) (hk : i.kind = .value)
    (ht : Json.scalar (skip text) = some (v, t)) : i = .value v ∧ rest = t := by
  cases h with
  | scalar h =>
    rw [ht] at h
    cases h
    exact ⟨rfl, rfl⟩
  | string h | emptyArray h | array h | emptyObject h | object h =>
    exact (not_scalar h (by decide) ht).elim
  | _ => cases hk

theorem Reads.of_quote (h : Reads i text rest) (hk : i.kind = .value) (ht : skip text = '"' :: t) :
    ∃ s, i = .value (.string (String.ofList s)) ∧ Chars s t rest := by
  cases h with
  | scalar h => exact (not_scalar ht (by decide) h).elim
  | string h hs =>
    obtain ⟨-, rfl⟩ := skip_inj ht h
    exact ⟨_, rfl, hs⟩
  | emptyArray h | array h | emptyObject h | object h => exact absurd (skip_inj ht h).1 (by decide)
  | _ => cases hk

theorem Reads.of_bracket (h : Reads i text rest) (hk : i.kind = .value)
    (ht : skip text = '[' :: t) : (i = .value (.array []) ∧ skip t = ']' :: rest) ∨
      ∃ vs, i = .value (.array vs) ∧ Reads (.elements vs) t rest := by
  cases h with
  | scalar h => exact (not_scalar ht (by decide) h).elim
  | emptyArray h hend =>
    obtain ⟨-, rfl⟩ := skip_inj ht h
    exact .inl ⟨rfl, hend⟩
  | array h hvs =>
    obtain ⟨-, rfl⟩ := skip_inj ht h
    exact .inr ⟨_, rfl, hvs⟩
  | string h | emptyObject h | object h => exact absurd (skip_inj ht h).1 (by decide)
  | _ => cases hk

theorem Reads.of_brace (h : Reads i text rest) (hk : i.kind = .value)
    (ht : skip text = '\x7b' :: t) : (i = .value (.object []) ∧ skip t = '\x7d' :: rest) ∨
      ∃ ns, i = .value (.object ns) ∧ Reads (.members ns) t rest := by
  cases h with
  | scalar h => exact (not_scalar ht (by decide) h).elim
  | emptyObject h hend =>
    obtain ⟨-, rfl⟩ := skip_inj ht h
    exact .inl ⟨rfl, hend⟩
  | object h hns =>
    obtain ⟨-, rfl⟩ := skip_inj ht h
    exact .inr ⟨_, rfl, hns⟩
  | string h | emptyArray h | array h => exact absurd (skip_inj ht h).1 (by decide)
  | _ => cases hk

theorem Reads.of_elements (h : Reads i text rest) (hk : i.kind = .elements) :
    ∃ v t, Reads (.value v) text t ∧ ((i = .elements [v] ∧ skip t = ']' :: rest) ∨
      ∃ t' vs, i = .elements (v :: vs) ∧ skip t = ',' :: t' ∧ Reads (.elements vs) t' rest) := by
  cases h with
  | lastElement hv hend => exact ⟨_, _, hv, .inl ⟨rfl, hend⟩⟩
  | elements hv hmore hvs => exact ⟨_, _, hv, .inr ⟨_, _, rfl, hmore, hvs⟩⟩
  | _ => cases hk

theorem Reads.of_members (h : Reads i text rest) (hk : i.kind = .members) :
    ∃ n t, Reads (.member n) text t ∧ ((i = .members [n] ∧ skip t = '\x7d' :: rest) ∨
      ∃ t' ns, i = .members (n :: ns) ∧ skip t = ',' :: t' ∧ Reads (.members ns) t' rest) := by
  cases h with
  | lastMember hn hend => exact ⟨_, _, hn, .inl ⟨rfl, hend⟩⟩
  | members hn hmore hns => exact ⟨_, _, hn, .inr ⟨_, _, rfl, hmore, hns⟩⟩
  | _ => cases hk

theorem Reads.of_member (h : Reads i text rest) (hk : i.kind = .member)
    (ht : skip text = '"' :: t) : ∃ k v t₁ t₂, i = .member (String.ofList k, v) ∧ Chars k t t₁ ∧
      skip t₁ = ':' :: t₂ ∧ Reads (.value v) t₂ rest := by
  cases h with
  | member h hk hcolon hv =>
    obtain ⟨-, rfl⟩ := skip_inj ht h
    exact ⟨_, _, _, _, rfl, hk, hcolon, hv⟩
  | _ => cases hk

/-- What a text starts with is one item of each kind. -/
theorem Reads.unique (h : Reads i text rest) (h' : Reads i' text rest') (hk : i'.kind = i.kind) :
    i = i' ∧ rest = rest' := by
  induction h generalizing i' rest' with
  | scalar h =>
    obtain ⟨rfl, rfl⟩ := h'.of_scalar hk h
    exact ⟨rfl, rfl⟩
  | string h hs =>
    obtain ⟨s', rfl, hs'⟩ := h'.of_quote hk h
    obtain ⟨rfl, rfl⟩ := hs.unique hs'
    exact ⟨rfl, rfl⟩
  | emptyArray h hend =>
    rcases h'.of_bracket hk h with ⟨rfl, hend'⟩ | ⟨vs', rfl, hvs'⟩
    · exact ⟨rfl, (skip_inj hend hend').2⟩
    · exact absurd hend (hvs'.skip_ne (by decide) _)
  | array h hvs ih =>
    rcases h'.of_bracket hk h with ⟨rfl, hend'⟩ | ⟨vs', rfl, hvs'⟩
    · exact absurd hend' (hvs.skip_ne (by decide) _)
    · obtain ⟨heq, rfl⟩ := ih hvs' rfl
      cases heq
      exact ⟨rfl, rfl⟩
  | emptyObject h hend =>
    rcases h'.of_brace hk h with ⟨rfl, hend'⟩ | ⟨ns', rfl, hns'⟩
    · exact ⟨rfl, (skip_inj hend hend').2⟩
    · exact absurd hend (hns'.skip_ne (by decide) _)
  | object h hns ih =>
    rcases h'.of_brace hk h with ⟨rfl, hend'⟩ | ⟨ns', rfl, hns'⟩
    · exact absurd hend' (hns.skip_ne (by decide) _)
    · obtain ⟨heq, rfl⟩ := ih hns' rfl
      cases heq
      exact ⟨rfl, rfl⟩
  | lastElement _ hend ih =>
    obtain ⟨v', t', hv', hnext⟩ := h'.of_elements hk
    obtain ⟨heq, rfl⟩ := ih hv' rfl
    cases heq
    rcases hnext with ⟨rfl, hend'⟩ | ⟨_, _, -, hmore', -⟩
    · exact ⟨rfl, (skip_inj hend hend').2⟩
    · exact absurd (skip_inj hend hmore').1 (by decide)
  | elements _ hmore _ ih ihs =>
    obtain ⟨v', t', hv', hnext⟩ := h'.of_elements hk
    obtain ⟨heq, rfl⟩ := ih hv' rfl
    cases heq
    rcases hnext with ⟨-, hend'⟩ | ⟨_, _, rfl, hmore', hvs'⟩
    · exact absurd (skip_inj hmore hend').1 (by decide)
    · obtain ⟨-, rfl⟩ := skip_inj hmore hmore'
      obtain ⟨heqs, rfl⟩ := ihs hvs' rfl
      cases heqs
      exact ⟨rfl, rfl⟩
  | member h hs hcolon _ ih =>
    obtain ⟨k', v', t₁, t₂, rfl, hs', hcolon', hv'⟩ := h'.of_member hk h
    obtain ⟨rfl, rfl⟩ := hs.unique hs'
    obtain ⟨-, rfl⟩ := skip_inj hcolon hcolon'
    obtain ⟨heq, rfl⟩ := ih hv' rfl
    cases heq
    exact ⟨rfl, rfl⟩
  | lastMember _ hend ih =>
    obtain ⟨n', t', hn', hnext⟩ := h'.of_members hk
    obtain ⟨heq, rfl⟩ := ih hn' rfl
    cases heq
    rcases hnext with ⟨rfl, hend'⟩ | ⟨_, _, -, hmore', -⟩
    · exact ⟨rfl, (skip_inj hend hend').2⟩
    · exact absurd (skip_inj hend hmore').1 (by decide)
  | members _ hmore _ ih ihs =>
    obtain ⟨n', t', hn', hnext⟩ := h'.of_members hk
    obtain ⟨heq, rfl⟩ := ih hn' rfl
    cases heq
    rcases hnext with ⟨-, hend'⟩ | ⟨_, _, rfl, hmore', hns'⟩
    · exact absurd (skip_inj hmore hend').1 (by decide)
    · obtain ⟨-, rfl⟩ := skip_inj hmore hmore'
      obtain ⟨heqs, rfl⟩ := ihs hns' rfl
      cases heqs
      exact ⟨rfl, rfl⟩

/-- **A text says at most one thing.** -/
theorem Parses.unique {text : String} {v v' : Value} (h : Parses text v) (h' : Parses text v') :
    v = v' := by
  obtain ⟨_, h, -⟩ := h
  obtain ⟨_, h', -⟩ := h'
  cases (h.unique h' rfl).1
  rfl

end

/-! ## Writers that escape nothing -/

/-- A text spells an item under a condition: read with anything behind it, it says that item and no
more if and only if the condition holds. -/
def Spells (text : List Char) (i : Item) (p : Prop) : Prop :=
  ∀ rest rest', Reads i (text ++ rest) rest' ↔ p ∧ rest' = rest

/-- A string between quotes, as it is. -/
def quoted (s : String) : String := "\"" ++ s ++ "\""

/-- A member of an object, by its name and the text of its value. -/
def memberText (n : String × String) : String := quoted n.1 ++ ":" ++ n.2

/-- An object, with `blank` in front of its first member. -/
def objectText (blank : String) (ns : List (String × String)) : String :=
  if ns = [] then "\x7b\x7d" else "\x7b" ++ blank ++ ",".intercalate (ns.map memberText) ++ "\x7d"

section

variable {text t rest : List Char} {v : Value} {p : Prop}

theorem Reads.congr_skip {i : Item} {text' : List Char} (h : Reads i text rest)
    (hs : skip text = skip text') :
    Reads i text' rest := by
  induction h with
  | scalar h => exact .scalar (hs ▸ h)
  | string h hr => exact .string (hs ▸ h) hr
  | emptyArray h hr => exact .emptyArray (hs ▸ h) hr
  | array h hr => exact .array (hs ▸ h) hr
  | emptyObject h hr => exact .emptyObject (hs ▸ h) hr
  | object h hr => exact .object (hs ▸ h) hr
  | lastElement _ hend ih => exact .lastElement (ih hs) hend
  | elements _ hmore hr ih => exact .elements (ih hs) hmore hr
  | member h hk hcolon hr => exact .member (hs ▸ h) hk hcolon hr
  | lastMember _ hend ih => exact .lastMember (ih hs) hend
  | members _ hmore hr ih => exact .members (ih hs) hmore hr

theorem skip_append {blank : String} (h : ∀ c ∈ blank.toList, isBlank c = true) (t : List Char) :
    skip (blank.toList ++ t) = skip t := List.dropWhile_append_of_pos h

theorem Spells.congr {q : Prop} {i : Item} (h : Spells text i p) (hpq : p ↔ q) :
    Spells text i q := by
  intro rest rest'
  rw [h, hpq]

theorem toList_quoted (s : String) (rest : List Char) :
    (quoted s).toList ++ rest = '"' :: (s.toList ++ '"' :: rest) := by
  simp [quoted]

/-- **A string spells itself** under the condition that it is plain. -/
theorem spells_string (s : String) : Spells (quoted s).toList (.value (.string s)) (Plain s) := by
  intro rest rest'
  rw [toList_quoted, Plain, ← chars_self_iff]
  constructor
  · intro h
    obtain ⟨s', hs, hchars⟩ := h.of_quote rfl rfl
    cases hs
    rw [String.toList_ofList] at hchars ⊢
    exact hchars
  · intro h
    have hread : Reads (.value (.string (String.ofList s.toList)))
        ('"' :: (s.toList ++ '"' :: rest)) rest' :=
      .string rfl h
    rwa [String.ofList_toList] at hread

/-- A member spells its name and what its value spells. -/
theorem Spells.member {t : String} (h : Spells t.toList (.value v) p) (k : String) :
    Spells (memberText (k, t)).toList (.member (k, v)) (Plain k ∧ p) := by
  intro rest rest'
  have htext : (memberText (k, t)).toList ++ rest =
      '"' :: (k.toList ++ '"' :: (':' :: (t.toList ++ rest))) := by
    simp [memberText, quoted]
  rw [htext, Plain]
  constructor
  · intro hread
    obtain ⟨k', v', t₁, t₂, hkv, hs, hcolon, hv⟩ := hread.of_member rfl rfl
    cases hkv
    rw [String.toList_ofList] at hs ⊢
    obtain ⟨hplain, rfl⟩ := chars_self_iff.1 hs
    cases hcolon
    obtain ⟨hp, hrest⟩ := (h _ _).1 hv
    exact ⟨⟨hplain, hp⟩, hrest⟩
  · rintro ⟨⟨hplain, hp⟩, rfl⟩
    have hread : Reads (.member (String.ofList k.toList, v))
        ('"' :: (k.toList ++ '"' :: (':' :: (t.toList ++ rest')))) rest' :=
      .member rfl (chars_plain hplain _) rfl ((h _ _).2 ⟨hp, rfl⟩)
    rwa [String.ofList_toList] at hread

variable {α : Type} (key : α → String) {text' : α → String} {value : α → Value} {q : α → Prop}

/-- What is left of an object spells what its members do. -/
theorem spells_members (l : List α) (hl : l ≠ [])
    (h : ∀ a ∈ l, Spells (text' a).toList (.value (value a)) (q a)) :
    Spells ((",".intercalate (l.map fun a => memberText (key a, text' a))).toList ++ ['\x7d'])
      (.members (l.map fun a => (key a, value a))) (∀ a ∈ l, Plain (key a) ∧ q a) := by
  induction l with
  | nil => exact absurd rfl hl
  | cons a l ih =>
    have hmember := (h a List.mem_cons_self).member (key a)
    intro rest rest'
    rw [List.forall_mem_cons]
    cases l with
    | nil =>
      simp only [List.map_singleton, String.intercalate_singleton, List.append_assoc]
      constructor
      · intro hread
        cases hread with
        | lastMember hn hend =>
          obtain ⟨hp, rfl⟩ := (hmember _ _).1 hn
          cases hend
          exact ⟨⟨hp, List.forall_mem_nil _⟩, rfl⟩
        | members _ _ hns => cases hns
      · rintro ⟨⟨hp, -⟩, rfl⟩
        exact .lastMember ((hmember _ _).2 ⟨hp, rfl⟩) rfl
    | cons b l =>
      have ih := ih (List.cons_ne_nil _ _) fun a ha => h a (List.mem_cons_of_mem _ ha)
      have htext : (",".intercalate ((a :: b :: l).map fun a =>
        memberText (key a, text' a))).toList ++
          ['\x7d'] ++ rest = (memberText (key a, text' a)).toList ++
            ',' :: ((",".intercalate ((b :: l).map fun a => memberText (key a, text' a))).toList ++
            ['\x7d'] ++
              rest) := by
        rw [List.map_cons, String.intercalate_cons_of_ne_nil (by simp)]
        simp only [String.toList_append, List.append_assoc]
        rfl
      rw [htext, List.map_cons]
      constructor
      · intro hread
        cases hread with
        | members hn hmore hns =>
          obtain ⟨hp, rfl⟩ := (hmember _ _).1 hn
          cases hmore
          obtain ⟨hps, hrest⟩ := (ih _ _).1 hns
          exact ⟨⟨hp, hps⟩, hrest⟩
      · rintro ⟨⟨hp, hps⟩, hrest⟩
        exact .members ((hmember _ _).2 ⟨hp, rfl⟩) rfl ((ih _ _).2 ⟨hps, hrest⟩)

/-- **An object spells what its members do** under the condition that their names are plain. -/
theorem spells_object {blank : String} (hblank : ∀ c ∈ blank.toList, isBlank c = true) (l : List α)
    (h : ∀ a ∈ l, Spells (text' a).toList (.value (value a)) (q a)) :
    Spells (objectText blank (l.map fun a => (key a, text' a))).toList
      (.value (.object (l.map fun a => (key a, value a)))) (∀ a ∈ l, Plain (key a) ∧ q a) := by
  intro rest rest'
  cases l with
  | nil =>
    have htext : (objectText blank (([] : List α).map fun a => (key a, text' a))).toList ++ rest =
        '\x7b' :: '\x7d' :: rest := by simp [objectText]
    rw [htext, List.map_nil]
    constructor
    · intro hread
      rcases hread.of_brace rfl rfl with ⟨-, hend⟩ | ⟨ns, hnil, hns⟩
      · cases hend
        exact ⟨List.forall_mem_nil _, rfl⟩
      · cases hnil
        cases hns
    · rintro ⟨-, rfl⟩
      exact .emptyObject rfl rfl
  | cons a l =>
    have hmembers := spells_members key (a :: l) (List.cons_ne_nil _ _) h
    have htext : (objectText blank ((a :: l).map fun a => (key a, text' a))).toList ++ rest =
        '\x7b' :: (blank.toList ++ ((",".intercalate
          ((a :: l).map fun a => memberText (key a, text' a))).toList ++ ['\x7d'] ++ rest)) := by
      rw [objectText, if_neg (by simp), List.map_map]
      simp only [String.toList_append, List.append_assoc]
      rfl
    rw [htext]
    constructor
    · intro hread
      rcases hread.of_brace rfl rfl with ⟨hnil, -⟩ | ⟨ns, hns, hread⟩
      · cases hnil
      · cases hns
        exact (hmembers _ _).1 (hread.congr_skip (skip_append hblank _))
    · intro hread
      exact .object rfl (((hmembers _ _).2 hread).congr_skip (skip_append hblank _).symm)

/-- A text that spells a value says that value and no other, under its condition. -/
theorem Spells.parses_iff {text : String} (h : Spells text.toList (.value v) p) :
    (∀ v', Parses text v' ↔ v' = v) ↔ p := by
  have hv : Parses text v ↔ p := by
    constructor
    · rintro ⟨rest, hread, -⟩
      exact ((h [] rest).1 (by rwa [List.append_nil])).1
    · intro hp
      refine ⟨[], ?_, rfl⟩
      have hread := (h [] []).2 ⟨hp, rfl⟩
      rwa [List.append_nil] at hread
  rw [← hv]
  constructor
  · intro h
    exact (h v).2 rfl
  · intro hparse v'
    exact ⟨fun h' => h'.unique hparse, fun h' => h' ▸ hparse⟩

end

end CppFrame.Json
