import CppFrame.SimpleWeb.Frame

/-!
# Requests, responses and their header fields

`HttpHeader::parse`, `RequestMessage::parse` and `ResponseMessage::parse` of `utility.hpp`, with the
comparison and the hash of header names. A `std::istream` is the list of the characters that can
still be read from it; a parser returns what it has made of them, and what is left.

A header is read as it was written (`HttpHeader.parse_print`), and what follows it is left in the
stream, where the readers of frames find it.
-/

namespace CppFrame.SimpleWeb

/-! ## Names of header fields -/

/-- `case_insensitive_equal`, in the C locale. -/
def caseInsensitiveEqual (str₁ str₂ : String) : Bool :=
  str₁.toList.length == str₂.toList.length &&
    (str₁.toList.zip str₂.toList).all fun c => c.1.toLower == c.2.toLower

/-- `CaseInsensitiveHash`; `hash` is `std::hash<int>`. -/
def caseInsensitiveHash (hash : Int → UInt64) (str : String) : UInt64 :=
  str.toList.foldl
    (fun (h : UInt64) c => h ^^^ (hash c.toLower.toNat + 0x9e3779b9 + (h <<< (6 : UInt64)) +
    (h >>> (2 : UInt64)))) 0

theorem caseInsensitiveEqual_iff {a b : String} :
    caseInsensitiveEqual a b = true ↔ a.toList.map Char.toLower = b.toList.map Char.toLower := by
  unfold caseInsensitiveEqual
  rw [Bool.and_eq_true, beq_iff_eq]
  generalize a.toList = l, b.toList = l'
  induction l generalizing l' with
  | nil => cases l' <;> simp
  | cons c l ih =>
    cases l' with
    | nil => simp
    | cons c' l' =>
      have := ih l'
      simp only [List.length_cons, Nat.add_right_cancel_iff, List.zip_cons_cons,
        List.all_cons, Bool.and_eq_true,
        beq_iff_eq, List.map_cons, List.cons.injEq] at this ⊢
      tauto

/-- **Equal names have the same hash**, as an `unordered_multimap` relies on. -/
theorem caseInsensitiveHash_eq (hash : Int → UInt64) {a b : String}
    (h : caseInsensitiveEqual a b = true) :
    caseInsensitiveHash hash a = caseInsensitiveHash hash b := by
  have hfold : ∀ (f : UInt64 → Char → UInt64) (l l' : List Char) (h₀ : UInt64),
      l.map Char.toLower = l'.map Char.toLower →
      l.foldl (fun h c => f h c.toLower) h₀ = l'.foldl (fun h c => f h c.toLower) h₀ := by
    intro f l
    induction l with
    | nil =>
      intro l' h₀ hl
      obtain rfl := List.map_eq_nil_iff.1 hl.symm
      rfl
    | cons c l ih =>
      intro l' h₀ hl
      obtain ⟨c', l', rfl, hc, hl⟩ := List.map_eq_cons_iff.1 hl.symm
      rw [List.foldl_cons, List.foldl_cons, hc]
      exact ih l' _ hl.symm
  exact hfold (fun h c => h ^^^ (hash c.toNat + 0x9e3779b9 + (h <<< (6 : UInt64)) +
    (h >>> (2 : UInt64)))) _ _ 0
    (caseInsensitiveEqual_iff.1 h)

/-- `CaseInsensitiveMultimap`, an `unordered_multimap`: its fields in the order in which they were
put in. In which order they are walked is a parameter (`walk`) of the functions that walk them, and
no result depends on it; which of several equal names is found first is not promised either, and
`find` is used where one name is equal. -/
abbrev CaseInsensitiveMultimap := List (String × String)

/-- `find`. -/
def CaseInsensitiveMultimap.find (header : CaseInsensitiveMultimap) (name : String) :
    Option String :=
  (List.find? (fun field => caseInsensitiveEqual field.1 name) header).map Prod.snd

/-! ## Lines -/

/-- `find` of a character and the two parts around it. -/
def cut (c : Char) : List Char → Option (List Char × List Char)
  | [] => none
  | d :: l => if d = c then some ([], l) else (cut c l).map fun r => (d :: r.1, r.2)

theorem cut_append {c : Char} {l : List Char} (h : c ∉ l) (r : List Char) :
    cut c (l ++ c :: r) = some (l, r) := by
  induction l with
  | nil => exact if_pos rfl
  | cons d l ih =>
    obtain ⟨hd, hl⟩ := not_or.1 (List.mem_cons.not.1 h)
    rw [List.cons_append, cut, if_neg (Ne.symm hd), ih hl]
    rfl

theorem cut_eq_none {c : Char} {l : List Char} (h : c ∉ l) : cut c l = none := by
  induction l with
  | nil => rfl
  | cons d l ih =>
    obtain ⟨hd, hl⟩ := not_or.1 (List.mem_cons.not.1 h)
    rw [cut, if_neg (Ne.symm hd), ih hl]
    rfl

/-- `getline`: there is no line where nothing is left. -/
def getline (stream : List Char) : Option (List Char × List Char) :=
  if stream = [] then none else some ((cut '\n' stream).getD (stream, []))

theorem getline_append {l : List Char} (h : '\n' ∉ l) (r : List Char) :
    getline (l ++ '\n' :: r) = some (l, r) := by
  unfold getline
  rw [if_neg (by simp), cut_append h]
  rfl

theorem length_of_getline {stream l r : List Char} (h : getline stream = some (l, r)) :
    r.length < stream.length := by
  have hcut : ∀ {s : List Char} {x y}, cut '\n' s = some (x, y) → y.length < s.length := by
    intro s
    induction s with
    | nil => exact nofun
    | cons d s ih =>
      intro x y hs
      unfold cut at hs
      split_ifs at hs with hd
      · cases hs
        exact Nat.lt_succ_self _
      · obtain ⟨r, hr, he⟩ := Option.map_eq_some_iff.1 hs
        cases he
        exact (ih (x := r.1) (y := r.2) hr).trans (Nat.lt_succ_self _)
  unfold getline at h
  split_ifs at h with hs
  cases hc : cut '\n' stream with
  | none =>
    rw [hc] at h
    cases h
    exact List.length_pos_iff.2 hs
  | some x =>
    rw [hc] at h
    cases h
    exact hcut hc

/-! ## Header fields -/

/-- The loop over the blanks in front of a value. -/
def skipBlanks : List Char → List Char
  | ' ' :: c :: l => skipBlanks (c :: l)
  | l => l

/-- The value without the carriage return at the end of its line. -/
def dropReturn (l : List Char) : List Char := if l.getLast? = some '\r' then l.dropLast else l

/-- What a line with a colon adds to the header. -/
def fieldOf (name value : List Char) : CaseInsensitiveMultimap :=
  let value := skipBlanks value
  if value = [] then [] else [(.ofList name, .ofList (dropReturn value))]

/-- `HttpHeader::parse`, with a bound on the rounds that is never reached. -/
def HttpHeader.parseLines : Nat → List Char → CaseInsensitiveMultimap × List Char
  | 0, stream => ([], stream)
  | n + 1, stream =>
    match getline stream with
    | none => ([], stream)
    | some (line, stream) =>
      match cut ':' line with
      | none => ([], stream)
      | some (name, value) =>
        let r := HttpHeader.parseLines n stream
        (fieldOf name value ++ r.1, r.2)

/-- `HttpHeader::parse`. -/
def HttpHeader.parse (stream : List Char) : CaseInsensitiveMultimap × List Char :=
  HttpHeader.parseLines stream.length stream

/-- The bound does not matter where it is large enough. -/
theorem HttpHeader.parseLines_eq {n m : Nat} {stream : List Char} (hn : stream.length ≤ n)
    (hm : stream.length ≤ m) :
    parseLines n stream = parseLines m stream := by
  induction n generalizing m stream with
  | zero =>
    obtain rfl := List.length_eq_zero_iff.1 (Nat.le_zero.1 hn)
    cases m <;> rfl
  | succ n ih =>
    cases m with
    | zero =>
      obtain rfl := List.length_eq_zero_iff.1 (Nat.le_zero.1 hm)
      rfl
    | succ m =>
      unfold parseLines
      cases hg : getline stream with
      | none => rfl
      | some x =>
        obtain ⟨line, rest⟩ := x
        have hlt := length_of_getline hg
        dsimp only
        cases cut ':' line with
        | none => rfl
        | some y => simp only [ih (show rest.length ≤ n by omega) (show rest.length ≤ m by omega)]

/-! ## Header fields as they are written -/

/-- A field as `upgrade` and `write_handshake` write it. -/
def printField (field : String × String) : List Char :=
  (field.1 ++ ": " ++ field.2 ++ "\r\n").toList

/-- A field that stands on its own line, with the value behind the blank. -/
structure Printable (field : String × String) : Prop where
  name_colon : ':' ∉ field.1.toList
  name_newline : '\n' ∉ field.1.toList
  value_newline : '\n' ∉ field.2.toList
  value_blank : field.2.toList.head? ≠ some ' '

instance (field : String × String) : Decidable (Printable field) :=
  decidable_of_iff (':' ∉ field.1.toList ∧ '\n' ∉ field.1.toList ∧ '\n' ∉ field.2.toList ∧
    field.2.toList.head? ≠ some ' ')
    ⟨fun h => ⟨h.1, h.2.1, h.2.2.1, h.2.2.2⟩, fun h =>
    ⟨h.name_colon, h.name_newline, h.value_newline, h.value_blank⟩⟩

theorem skipBlanks_of_head {l : List Char} (h : l.head? ≠ some ' ') : skipBlanks l = l := by
  match l with
  | [] => rfl
  | [c] =>
    unfold skipBlanks
    split
    · rename_i he
      cases he
    · rfl
  | c :: d :: l =>
    have hc : c ≠ ' ' := fun e => h (by rw [e]; rfl)
    unfold skipBlanks
    split
    · rename_i he
      cases he
      exact absurd rfl hc
    · rfl

theorem HttpHeader.parse_line {name value : List Char} (hn : '\n' ∉ name) (hc : ':' ∉ name)
    (hv : '\n' ∉ value) (stream : List Char) :
    parse (name ++ ':' :: value ++ '\n' :: stream) =
      (fieldOf name value ++ (parse stream).1, (parse stream).2) := by
  have hline : '\n' ∉ name ++ ':' :: value := by
    simp only [List.mem_append, List.mem_cons, hn, hv, or_false, false_or]
    decide
  have hlen : (name ++ ':' :: value ++ '\n' :: stream).length = (name ++ ':' :: value).length +
      stream.length + 1 := by
    rw [List.length_append, List.length_cons, Nat.add_assoc]
  unfold parse
  rw [hlen, parseLines, getline_append hline]
  dsimp only
  rw [cut_append hc]
  dsimp only
  rw [parseLines_eq (show stream.length ≤ _ by omega) le_rfl]

theorem printField_eq (field : String × String) : printField field =
    field.1.toList ++ ':' :: (' ' :: (field.2.toList ++ ['\r'])) ++ ['\n'] := by
  unfold printField
  simp [String.toList_append]

theorem Printable.fieldOf {field : String × String} (h : Printable field) :
    SimpleWeb.fieldOf field.1.toList (' ' :: (field.2.toList ++ ['\r'])) = [field] := by
  have hskip : skipBlanks (' ' :: (field.2.toList ++ ['\r'])) = field.2.toList ++ ['\r'] := by
    have hhead : (field.2.toList ++ ['\r']).head? ≠ some ' ' := by
      cases hv : field.2.toList with
      | nil => decide
      | cons c l =>
        rw [List.cons_append, List.head?_cons, ← List.head?_cons (l := l), ← hv]
        exact h.value_blank
    obtain ⟨c, l, hl⟩ :=
      List.exists_cons_of_ne_nil (List.append_ne_nil_of_right_ne_nil field.2.toList
      (List.cons_ne_nil '\r' []))
    rw [hl] at hhead ⊢
    rw [skipBlanks, skipBlanks_of_head hhead]
  unfold SimpleWeb.fieldOf dropReturn
  rw [hskip]
  simp

/-- **A header is read as it was written**, and what stands behind it is left. -/
theorem HttpHeader.parse_print {fields : CaseInsensitiveMultimap}
    (h : ∀ field ∈ fields, Printable field) (rest : List Char) :
    parse (fields.flatMap printField ++ '\r' :: '\n' :: rest) = (fields, rest) := by
  induction fields with
  | nil =>
    unfold parse
    show parseLines (rest.length + 1 + 1) (['\r'] ++ '\n' :: rest) = _
    rw [parseLines, getline_append (by decide)]
    rfl
  | cons field fields ih =>
    have hfield := h field List.mem_cons_self
    have hvalue : '\n' ∉ ' ' :: (field.2.toList ++ ['\r']) := by
      simp only [List.mem_cons, List.mem_append, hfield.value_newline,
        List.not_mem_nil, or_false, false_or]
      decide
    rw [List.flatMap_cons, printField_eq, List.append_assoc, List.append_assoc,
      List.singleton_append,
      parse_line hfield.name_newline hfield.name_colon hvalue,
      ih fun f hf => h f (List.mem_cons_of_mem field hf), hfield.fieldOf]
    rfl

/-! ## Requests -/

/-- What `RequestMessage::parse` sets. -/
structure RequestMessage where
  method : String
  path : String
  queryString : String
  version : String
  header : CaseInsensitiveMultimap
  deriving DecidableEq

/-- `RequestMessage::parse`, and what is left of the stream. -/
def RequestMessage.parse (stream : List Char) : Option (RequestMessage × List Char) :=
  (getline stream).bind fun (line, stream) =>
  (cut ' ' line).bind fun (method, afterMethod) =>
  (cut ' ' afterMethod).bind fun (target, afterTarget) =>
  let pathAndQuery := (cut '?' target).getD (target, [])
  (cut '/' afterTarget).bind fun (protocol, version) =>
  if protocol = "HTTP".toList then
    let header := HttpHeader.parse stream
    some (⟨.ofList method, .ofList pathAndQuery.1, .ofList pathAndQuery.2, .ofList version.dropLast,
      header.1⟩, header.2)
  else none

/-- A request as it is written, up to the end of its header. -/
def RequestMessage.print (method target version : String) (header : CaseInsensitiveMultimap) :
    List Char :=
  (method ++ " " ++ target ++ " HTTP/" ++ version ++ "\r\n").toList ++
    header.flatMap printField ++ ['\r', '\n']

/-- **A request is read as it was written.** The target is cut at its first question mark. -/
theorem RequestMessage.parse_print {method path query version : String}
    {header : CaseInsensitiveMultimap} (hmethod : ' ' ∉ method.toList ∧ '\n' ∉ method.toList)
    (hpath : ' ' ∉ path.toList ∧ '\n' ∉ path.toList ∧ '?' ∉ path.toList)
    (hquery : ' ' ∉ query.toList ∧ '\n' ∉ query.toList) (hversion : '\n' ∉ version.toList)
    (hheader : ∀ field ∈ header, Printable field) (rest : List Char) :
    parse (print method (if query = "" then path else path ++ "?" ++ query)
      version header ++ rest) =
      some (⟨method, path, query, version, header⟩, rest) := by
  generalize htarget : (if query = "" then path else path ++ "?" ++ query) = target
  have hspace : ' ' ∉ target.toList ∧ '\n' ∉ target.toList := by
    rw [← htarget]
    split_ifs
    · exact ⟨hpath.1, hpath.2.1⟩
    · simp [String.toList_append, hpath.1, hpath.2.1, hquery.1, hquery.2]
  have hcut : (cut '?' target.toList).getD (target.toList, []) = (path.toList, query.toList) := by
    rw [← htarget]
    split_ifs with hq
    · rw [cut_eq_none hpath.2.2, hq]
      rfl
    · rw [String.toList_append, String.toList_append, List.append_assoc]
      show (cut '?' (path.toList ++ '?' :: query.toList)).getD _ = _
      rw [cut_append hpath.2.2]
      rfl
  have hline : '\n' ∉
      method.toList ++ ' ' ::
      (target.toList ++ ' ' :: ("HTTP".toList ++ '/' :: (version.toList ++ ['\r']))) := by
    simp [hmethod.2, hspace.2, hversion]
  have hprint : print method target version header ++ rest =
      method.toList ++ ' ' ::
      (target.toList ++ ' ' :: ("HTTP".toList ++ '/' :: (version.toList ++ ['\r']))) ++
        '\n' :: (header.flatMap printField ++ '\r' :: '\n' :: rest) := by
    unfold print
    simp [String.toList_append]
  unfold parse
  rw [hprint, getline_append hline]
  simp only [Option.bind_some]
  rw [cut_append hmethod.1]
  simp only [Option.bind_some]
  rw [cut_append hspace.1]
  simp only [Option.bind_some]
  rw [cut_append (show '/' ∉ "HTTP".toList by decide), hcut]
  simp only [Option.bind_some, if_true, HttpHeader.parse_print hheader, String.ofList_toList,
    List.dropLast_concat]

/-! ## Responses -/

/-- What `ResponseMessage::parse` sets. -/
structure ResponseMessage where
  version : String
  statusCode : String
  header : CaseInsensitiveMultimap
  deriving DecidableEq

/-- `ResponseMessage::parse`, and what is left of the stream. -/
def ResponseMessage.parse (stream : List Char) : Option (ResponseMessage × List Char) :=
  (getline stream).bind fun (line, stream) =>
  (cut ' ' line).bind fun (version, statusCode) =>
  if 5 < line.length then
    let version := if version.length < 5 then line.drop 5 else version.drop 5
    if statusCode ≠ [] then
      let header := HttpHeader.parse stream
      some (⟨.ofList version, .ofList (dropReturn statusCode), header.1⟩, header.2)
    else none
  else none

/-- A response as `write_handshake` writes it, up to the end of its header. -/
def ResponseMessage.print (version statusCode : String) (header : CaseInsensitiveMultimap) :
    List Char :=
  ("HTTP/" ++ version ++ " " ++ statusCode ++ "\r\n").toList ++
    header.flatMap printField ++ ['\r', '\n']

/-- **A response is read as it was written.** -/
theorem ResponseMessage.parse_print {version statusCode : String} {header : CaseInsensitiveMultimap}
    (hversion : ' ' ∉ version.toList ∧ '\n' ∉ version.toList) (hstatus : '\n' ∉ statusCode.toList)
    (hheader : ∀ field ∈ header, Printable field) (rest : List Char) :
    parse (print version statusCode header ++ rest) =
      some (⟨version, statusCode, header⟩, rest) := by
  have hspace : ' ' ∉ "HTTP/".toList ++ version.toList := by simp [hversion.1]
  have hline : '\n' ∉ "HTTP/".toList ++ version.toList ++ ' ' :: (statusCode.toList ++ ['\r']) := by
    simp [hversion.2, hstatus]
  have hprint : print version statusCode header ++ rest =
      "HTTP/".toList ++ version.toList ++ ' ' :: (statusCode.toList ++ ['\r']) ++
        '\n' :: (header.flatMap printField ++ '\r' :: '\n' :: rest) := by
    unfold print
    simp [String.toList_append]
  have hlen : 5 <
      ("HTTP/".toList ++ version.toList ++ ' ' :: (statusCode.toList ++ ['\r'])).length := by
    simp only [List.length_append, List.length_cons]
    have : "HTTP/".toList.length = 5 := rfl
    omega
  have hname : ¬ ("HTTP/".toList ++ version.toList).length < 5 := by
    rw [List.length_append]
    have : "HTTP/".toList.length = 5 := rfl
    omega
  unfold parse
  rw [hprint, getline_append hline]
  simp only [Option.bind_some]
  rw [cut_append hspace]
  simp only [Option.bind_some]
  rw [if_pos hlen, if_pos (List.append_ne_nil_of_right_ne_nil _ (List.cons_ne_nil _ _)),
    if_neg hname,
    HttpHeader.parse_print hheader]
  have hdrop : ("HTTP/".toList ++ version.toList).drop 5 = version.toList := rfl
  simp only [hdrop, dropReturn, List.getLast?_concat, if_true, List.dropLast_concat,
    String.ofList_toList]

/-! ## The end of a header -/

/-- What stands behind the first empty line, where `async_read_until` ends. -/
def behindBlankLine : List Char → Option (List Char)
  | [] => none
  | c :: l => if c = '\r' ∧ ['\n', '\r', '\n'] <+: l then some (l.drop 3) else behindBlankLine l

theorem behindBlankLine_blank (rest : List Char) :
    behindBlankLine ('\r' :: '\n' :: '\r' :: '\n' :: rest) = some rest :=
  if_pos ⟨rfl, rest, rfl⟩

/-- The characters of a line are passed over. -/
theorem behindBlankLine_line {x : List Char} (hx : '\n' ∉ x) (l : List Char) :
    behindBlankLine (x ++ '\r' :: '\n' :: l) = behindBlankLine ('\r' :: '\n' :: l) := by
  induction x with
  | nil => rfl
  | cons c x ih =>
    obtain ⟨-, hx⟩ := not_or.1 (List.mem_cons.not.1 hx)
    rw [List.cons_append, behindBlankLine, if_neg, ih hx]
    rintro ⟨-, t, ht⟩
    cases x with
    | nil => cases ht
    | cons d x =>
      obtain ⟨rfl, -⟩ := List.cons.inj ht
      exact hx List.mem_cons_self

/-- The end of a line is passed over, where the next one is not empty. -/
theorem behindBlankLine_next {y : List Char} (hy : '\n' ∉ y) (hne : y ≠ []) (l : List Char) :
    behindBlankLine ('\r' :: '\n' :: (y ++ '\r' :: '\n' :: l)) =
      behindBlankLine ('\r' :: '\n' :: l) := by
  rw [behindBlankLine, if_neg, behindBlankLine, if_neg (fun h => absurd h.1 (by decide)),
    behindBlankLine_line hy]
  rintro ⟨-, t, ht⟩
  match y, hne with
  | [c], _ =>
    injection ht with _ ht
    injection ht with _ ht
    cases ht
  | c :: d :: y, _ =>
    injection ht with _ ht
    injection ht with _ ht
    injection ht with hd _
    exact hy (by rw [← hd]; simp)

/-- **The header ends where it was ended.** -/
theorem behindBlankLine_print {x : List Char} (hx : '\n' ∉ x) {fields : CaseInsensitiveMultimap}
    (h : ∀ field ∈ fields, Printable field) (rest : List Char) :
    behindBlankLine (x ++ '\r' :: '\n' :: (fields.flatMap printField ++ '\r' :: '\n' :: rest)) =
      some rest := by
  rw [behindBlankLine_line hx]
  clear hx x
  induction fields with
  | nil => exact behindBlankLine_blank rest
  | cons field fields ih =>
    have hfield := h field List.mem_cons_self
    have hline : '\n' ∉ field.1.toList ++ ':' :: ' ' :: field.2.toList := by
      simp [hfield.name_newline, hfield.value_newline]
    have hcons : (field :: fields).flatMap printField ++ '\r' :: '\n' :: rest =
        (field.1.toList ++ ':' :: ' ' :: field.2.toList) ++
          '\r' :: '\n' :: (fields.flatMap printField ++ '\r' :: '\n' :: rest) := by
      rw [List.flatMap_cons, printField_eq]
      simp
    rw [hcons, behindBlankLine_next hline (by simp)]
    exact ih fun f hf => h f (List.mem_cons_of_mem field hf)

end CppFrame.SimpleWeb
