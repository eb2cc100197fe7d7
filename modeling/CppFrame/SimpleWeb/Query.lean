import CppFrame.Helper
import CppFrame.SimpleWeb.Http

/-!
# Percent-encoding and query strings

`Percent` and `QueryString` of `utility.hpp`. `Percent::encode` writes the bytes that are not
unreserved as two hexadecimal digits, and `Percent::decode` reads them back
(`Percent.decode_encode`). `QueryString::create` encodes the values of its fields, but not their
names: what it writes is read back, in whatever order it walked the fields, exactly when every name
can stand in a query string as it is (`QueryString.parse_create_iff`).
-/

namespace CppFrame.SimpleWeb

/-! ## Percent-encoding -/

namespace Percent

/-- The characters that stand for themselves. -/
def isUnreserved (chr : Char) : Bool :=
  '0' ≤ chr && chr ≤ '9' || 'A' ≤ chr && chr ≤ 'Z' || 'a' ≤ chr && chr ≤ 'z' ||
    chr == '-' || chr == '.' ||
    chr == '_' || chr == '~'

def hexChars : List Char := "0123456789ABCDEF".toList

/-- What is written for a character. -/
def encodeChar (chr : Char) : List Char :=
  if isUnreserved chr then [chr]
  else
    let byte := UInt8.ofNat chr.toNat
    ['%', hexChars.getD (byte >>> 4).toNat '0', hexChars.getD (byte &&& 15).toNat '0']

/-- `Percent::encode`. -/
def encode (value : List Char) : List Char := value.flatMap encodeChar

/-- The value of a hexadecimal digit. -/
def hexDigit (chr : Char) : Option Nat :=
  if '0' ≤ chr && chr ≤ '9' then some (chr.toNat - '0'.toNat)
  else if 'A' ≤ chr && chr ≤ 'F' then some (chr.toNat - 'A'.toNat + 10)
  else if 'a' ≤ chr && chr ≤ 'f' then some (chr.toNat - 'a'.toNat + 10)
  else none

/-- The digits at the front of a string, behind `0x` where a digit follows it. -/
def hexDigits : List Char → Nat
  | '0' :: x :: chr :: l =>
    if (x == 'x' || x == 'X') && (hexDigit chr).isSome then digits 0 (chr :: l)
      else digits 0 ('0' :: x :: chr :: l)
  | l => digits 0 l
where
  digits (n : Nat) : List Char → Nat
    | [] => n
    | chr :: l =>
      match hexDigit chr with
      | some d => digits (16 * n + d) l
      | none => n

/-- `strtol` with the base 16, of a string so short that nothing overflows. -/
def strtol (str : List Char) : Int :=
  match (str.takeWhile (· ≠ '\x00')).dropWhile isSpace with
  | '-' :: l => -(hexDigits l : Int)
  | '+' :: l => hexDigits l
  | l => hexDigits l

/-- `Percent::decode`: the two characters behind a percent sign make up a byte, where there are
two. -/
def decode : List Char → List Char
  | '%' :: c :: d :: l => Char.ofNat (strtol [c, d] % 256).toNat :: decode l
  | '+' :: l => ' ' :: decode l
  | chr :: l => chr :: decode l
  | [] => []

/-! ## Round trip -/

/-- A byte is read back from its two digits. -/
theorem strtol_hexChars (byte : UInt8) :
    Char.ofNat (strtol [hexChars.getD (byte >>> 4).toNat '0', hexChars.getD
      (byte &&& 15).toNat '0'] % 256).toNat =
      Char.ofNat byte.toNat := by
  obtain ⟨n, hn, rfl⟩ : ∃ n < 256, byte = UInt8.ofNat n :=
    ⟨_, byte.toNat_lt, UInt8.ofNat_toNat.symm⟩
  revert n
  decide +kernel

/-- Neither digit, nor what stands for itself, is one of the characters with a meaning of their
own. -/
theorem isUnreserved_ne {chr c : Char} (h : isUnreserved chr = true) (hc : isUnreserved c = false) :
    chr ≠ c := by
  rintro rfl
  rw [h] at hc
  cases hc

theorem isUnreserved_hexChars (n : Nat) : isUnreserved (hexChars.getD n '0') = true := by
  have hdigits : ∀ n < 16, isUnreserved (hexChars.getD n '0') = true := by decide
  by_cases hn : n < 16
  · exact hdigits n hn
  · rw [List.getD_eq_getElem?_getD, List.getElem?_eq_none (show hexChars.length ≤
      n from Nat.le_of_not_lt hn)]
    decide

/-- What is encoded is unreserved, but for the percent signs. -/
theorem mem_encode {value : List Char} {c : Char} (h : c ∈ encode value) :
    c = '%' ∨ isUnreserved c = true := by
  obtain ⟨chr, -, hc⟩ := List.mem_flatMap.1 h
  unfold encodeChar at hc
  split_ifs at hc with hu
  · obtain rfl := List.mem_singleton.1 hc
    exact .inr hu
  · simp only [List.mem_cons, List.not_mem_nil, or_false] at hc
    rcases hc with rfl | rfl | rfl
    · exact .inl rfl
    · exact .inr (isUnreserved_hexChars _)
    · exact .inr (isUnreserved_hexChars _)

theorem decode_cons {chr : Char} (h : isUnreserved chr = true) (l : List Char) :
    decode (chr :: l) = chr :: decode l := by
  have hpercent : chr ≠ '%' := isUnreserved_ne h (by decide)
  have hplus : chr ≠ '+' := isUnreserved_ne h (by decide)
  rw [decode.eq_3]
  · exact fun c d l' he _ => hpercent he
  · exact hplus

/-- A character is read back, whatever stands behind it. -/
theorem decode_encodeChar {chr : Char} (h : chr.toNat < 256) (l : List Char) :
    decode (encodeChar chr ++ l) = chr :: decode l := by
  unfold encodeChar
  split_ifs with hu
  · exact decode_cons hu l
  · have hbyte : (UInt8.ofNat chr.toNat).toNat = chr.toNat := by
      rw [UInt8.toNat_ofNat', Nat.mod_eq_of_lt h]
    show decode ('%' :: _ :: _ :: l) = _
    rw [decode, strtol_hexChars, hbyte, Char.ofNat_toNat]

/-- **What was encoded is decoded**, every byte of it. -/
theorem decode_encode {value : List Char} (h : ∀ c ∈ value, c.toNat < 256) :
    decode (encode value) = value := by
  induction value with
  | nil => rfl
  | cons c l ih =>
    unfold encode at ih ⊢
    rw [List.flatMap_cons, decode_encodeChar (h c List.mem_cons_self), ih fun d hd =>
      h d (List.mem_cons_of_mem c hd)]

end Percent

/-! ## Query strings -/

namespace QueryString

/-- The fields as `create` comes to them. -/
def written (fields : List (String × String)) : List Char :=
  ['&'].intercalate (fields.map fun field => field.1.toList ++ '=' :: Percent.encode field.2.toList)

/-- `QueryString::create`, where `walk` is the order in which the multimap is walked. -/
def create (walk : CaseInsensitiveMultimap → CaseInsensitiveMultimap)
    (fields : CaseInsensitiveMultimap) : List Char :=
  written (walk fields)

/-- What is put into the result for a name and a value, if there was one. -/
def field (name : List Char) (value : Option (List Char)) : CaseInsensitiveMultimap :=
  if name = [] then [] else [(.ofList name, .ofList (Percent.decode (value.getD [])))]

/-- The loop of `QueryString::parse`, with what has been read of a name and, behind an equals sign,
of its value. -/
def parseLoop : List Char → List Char → Option (List Char) → CaseInsensitiveMultimap
  | [], name, value => field name value
  | c :: l, name, value =>
    if c = '&' then field name value ++ parseLoop l [] none
    else
      match value with
      | some v => parseLoop l name (some (v ++ [c]))
      | none => if c = '=' then parseLoop l name (some []) else parseLoop l (name ++ [c]) none

/-- `QueryString::parse`. -/
def parse (queryString : List Char) : CaseInsensitiveMultimap := parseLoop queryString [] none

/-- A name that can stand in a query string as it is. -/
def Plain (name : String) : Prop := name ≠ "" ∧ '&' ∉ name.toList ∧ '=' ∉ name.toList

/-! ## What is accepted, and what is read back -/

theorem plain_field {name : List Char} {value : Option (List Char)} (h : '&' ∉ name ∧ '=' ∉ name)
    {f : String × String} (hf : f ∈ field name value) : Plain f.1 := by
  unfold field at hf
  split_ifs at hf with hname
  · cases hf
  · obtain rfl := List.mem_singleton.1 hf
    refine ⟨fun he => hname ?_, ?_, ?_⟩
    · have := congrArg String.toList he
      rwa [String.toList_ofList] at this
    · rw [String.toList_ofList]
      exact h.1
    · rw [String.toList_ofList]
      exact h.2

theorem plain_parseLoop {l name : List Char} {value : Option (List Char)}
    (h : '&' ∉ name ∧ '=' ∉ name) {f : String × String} (hf : f ∈ parseLoop l name value) :
    Plain f.1 := by
  induction l generalizing name value with
  | nil => exact plain_field h hf
  | cons c l ih =>
    have hnext : f ∈ field name value ++ parseLoop l [] none → Plain f.1 := fun hf =>
      (List.mem_append.1 hf).elim (plain_field h) (ih ⟨List.not_mem_nil, List.not_mem_nil⟩)
    by_cases hc : c = '&'
    · cases value <;> exact hnext (by rwa [parseLoop, if_pos hc] at hf)
    · cases value with
      | some v =>
        rw [parseLoop, if_neg hc] at hf
        exact ih h hf
      | none =>
        rw [parseLoop, if_neg hc] at hf
        split_ifs at hf with he
        · exact ih h hf
        · refine ih ⟨?_, ?_⟩ hf
          · simp [h.1, Ne.symm hc]
          · simp [h.2, Ne.symm he]

/-- **Every name that is accepted is plain.** -/
theorem plain_of_mem_parse {l : List Char} {f : String × String} (hf : f ∈ parse l) : Plain f.1 :=
  plain_parseLoop ⟨List.not_mem_nil, List.not_mem_nil⟩ hf

/-- A value is read up to its end. -/
theorem parseLoop_value {v : List Char} (hv : '&' ∉ v) (l name w : List Char) :
    parseLoop (v ++ l) name (some w) = parseLoop l name (some (w ++ v)) := by
  induction v generalizing w with
  | nil => rw [List.nil_append, List.append_nil]
  | cons c v ih =>
    obtain ⟨hc, hv⟩ := not_or.1 (List.mem_cons.not.1 hv)
    rw [List.cons_append, parseLoop, if_neg (Ne.symm hc), ih hv, List.append_assoc,
      List.singleton_append]

/-- A name is read up to its equals sign. -/
theorem parseLoop_name {n : List Char} (hn : '&' ∉ n ∧ '=' ∉ n) (l name : List Char) :
    parseLoop (n ++ '=' :: l) name none = parseLoop l (name ++ n) (some []) := by
  induction n generalizing name with
  | nil => rw [List.nil_append, List.append_nil, parseLoop, if_neg (by decide)]; exact if_pos rfl
  | cons c n ih =>
    obtain ⟨hc, hn₁⟩ := not_or.1 (List.mem_cons.not.1 hn.1)
    obtain ⟨hc', hn₂⟩ := not_or.1 (List.mem_cons.not.1 hn.2)
    rw [List.cons_append, parseLoop, if_neg (Ne.symm hc), if_neg (Ne.symm hc'),
      ih ⟨hn₁, hn₂⟩, List.append_assoc,
      List.singleton_append]

/-- The field that a name and its encoded value make up. -/
theorem field_encode {f : String × String} (hn : f.1 ≠ "") (hv : IsBytes f.2) :
    field f.1.toList (some (Percent.encode f.2.toList)) = [f] := by
  have hname : f.1.toList ≠ [] := fun he => hn (String.toList_eq_nil_iff.1 he)
  rw [field, if_neg hname, Option.getD_some, Percent.decode_encode hv, String.ofList_toList,
    String.ofList_toList]

theorem notMem_encode {c : Char} (hc : Percent.isUnreserved c = false) (hne : c ≠ '%')
    (value : List Char) :
    c ∉ Percent.encode value := by
  intro hmem
  rcases Percent.mem_encode hmem with h | h
  · exact hne h
  · rw [h] at hc
    cases hc

theorem written_cons_cons (f g : String × String) (fields : List (String × String)) :
    written (f :: g :: fields) =
    f.1.toList ++ '=' :: (Percent.encode f.2.toList ++ '&' :: written (g :: fields)) := by
  unfold written
  rw [List.map_cons, List.map_cons, List.intercalate_cons_cons]
  simp

/-- **Fields with plain names are read as they were written.** -/
theorem parse_written {fields : List (String × String)} (hn : ∀ f ∈ fields, Plain f.1)
    (hv : ∀ f ∈ fields, IsBytes f.2) : parse (written fields) = fields := by
  induction fields with
  | nil => rfl
  | cons f fields ih =>
    obtain ⟨hne, hname⟩ := hn f List.mem_cons_self
    have hvalue := notMem_encode (c := '&') (by decide) (by decide) f.2.toList
    have hfield := field_encode hne (hv f List.mem_cons_self)
    have hrest := ih (fun g hg => hn g (List.mem_cons_of_mem f hg)) fun g hg =>
      hv g (List.mem_cons_of_mem f hg)
    cases fields with
    | nil =>
      unfold parse written
      rw [List.map_singleton, List.intercalate_singleton, parseLoop_name hname,
        ← List.append_nil (Percent.encode _),
        parseLoop_value hvalue]
      exact hfield
    | cons g fields =>
      unfold parse at hrest ⊢
      rw [written_cons_cons, parseLoop_name hname, parseLoop_value hvalue,
        parseLoop, if_pos rfl, hrest]
      exact congrArg (· ++ _) hfield

/-- **A query string gives the fields back** that it was made from, in whatever order they were
walked, exactly when every name is plain. -/
theorem parse_create_iff {walk : CaseInsensitiveMultimap → CaseInsensitiveMultimap}
    (hwalk : ∀ fields, (walk fields).Perm fields) {fields : CaseInsensitiveMultimap}
    (hv : ∀ f ∈ fields, IsBytes f.2) :
    (parse (create walk fields)).Perm fields ↔ ∀ f ∈ fields, Plain f.1 := by
  constructor
  · exact fun h f hf => plain_of_mem_parse (h.mem_iff.2 hf)
  · intro hn
    have hmem : ∀ {f}, f ∈ walk fields → f ∈ fields := fun hf => (hwalk fields).mem_iff.1 hf
    rw [create, parse_written (fun f hf => hn f (hmem hf)) fun f hf => hv f (hmem hf)]
    exact hwalk fields

/-- A value with the characters that separate fields, walked behind the other one. -/
theorem parse_create_iff_separators :
    (parse (create List.reverse [("a", "1&b=2"), ("c", "")])).Perm [("a", "1&b=2"), ("c", "")] := by
  refine (parse_create_iff (fun fields => List.reverse_perm fields) ?_).2 ?_
  · intro f hf
    simp only [List.mem_cons, List.not_mem_nil, or_false] at hf
    rcases hf with rfl | rfl
    · exact (show textOf (bytesOf "1&b=2") = "1&b=2" by decide) ▸ isBytes_textOf _
    · exact nofun
  · unfold Plain
    decide

end QueryString

end CppFrame.SimpleWeb
