import CppFrame.Db.Authentication

/-!
# The form of a first message

Which messages lead to `verify_token`, and with what. A message has the form
`user-crypto-token-type`, but `explode` drops empty pieces, so that there may be more separators,
and `std::stoi` reads a number at the beginning of the first piece and stops after it. `Credential`
is what is accepted (`verifyToken_called_iff`), by the relation `Number` for what `std::stoi` reads
(`stoi_eq_some_iff`).
-/

namespace CppFrame.Db

/-! ## Numbers -/

/-- The value of some digits. -/
def digitsValue (digits : List Char) : Int := (Nat.ofDigitChars 10 digits 0 : Nat)

/-- A text begins with the number `n`, after white space and a sign, and `n` is an `int`. -/
def Number (text : List Char) (n : Int) : Prop :=
  ∃ blanks sgn digits rest, text = blanks ++ sgn ++ digits ++ rest ∧
    (∀ c ∈ blanks, isSpace c = true) ∧ (sgn = [] ∨ sgn = ['+'] ∨ sgn = ['-']) ∧
    digits ≠ [] ∧ (∀ c ∈ digits, c.isDigit = true) ∧ (∀ c ∈ rest.head?, c.isDigit = false) ∧
    n = (if sgn = ['-'] then -digitsValue digits else digitsValue digits) ∧ -2 ^ 31 ≤ n ∧ n < 2 ^ 31

/-- The sign of a text, and what follows it. -/
theorem sign_eq (l : List Char) :
    ∃ sgn, l = sgn ++ (sign l).2 ∧ (sgn = [] ∨ sgn = ['+'] ∨ sgn = ['-']) ∧
    ((sign l).1 = true ↔ sgn = ['-']) := by
  unfold sign
  split
  · exact ⟨['-'], rfl, .inr (.inr rfl), iff_of_true rfl rfl⟩
  · exact ⟨['+'], rfl, .inr (.inl rfl), iff_of_false Bool.false_ne_true (by decide)⟩
  · exact ⟨[], rfl, .inl rfl, iff_of_false Bool.false_ne_true (by decide)⟩

theorem sign_append {sgn l : List Char} (hs : sgn = [] ∨ sgn = ['+'] ∨ sgn = ['-'])
    (hl : ∀ c ∈ l.head?, c.isDigit = true) : sign (sgn ++ l) = (decide (sgn = ['-']), l) := by
  rcases hs with rfl | rfl | rfl
  · cases l with
    | nil => rfl
    | cons c l =>
      have hc := hl c rfl
      unfold sign
      rw [List.nil_append]
      split
      · rename_i h
        cases h
        exact absurd hc (by decide)
      · rename_i h
        cases h
        exact absurd hc (by decide)
      · rfl
  · rfl
  · rfl

/-- What follows a text whose characters have a property, where the next one does not. -/
theorem takeWhile_append_of_head {p : Char → Bool} {l rest : List Char} (hl : ∀ c ∈ l, p c = true)
    (hrest : ∀ c ∈ rest.head?, p c = false) : (l ++ rest).takeWhile p = l := by
  rw [List.takeWhile_append_of_pos hl]
  cases rest with
  | nil => exact List.append_nil l
  | cons c rest =>
    rw [List.takeWhile_cons, hrest c rfl]
    exact List.append_nil l

theorem dropWhile_append_of_head {p : Char → Bool} {l rest : List Char} (hl : ∀ c ∈ l, p c = true)
    (hrest : ∀ c ∈ rest.head?, p c = false) : (l ++ rest).dropWhile p = rest := by
  rw [List.dropWhile_append_of_pos hl]
  cases rest with
  | nil => rfl
  | cons c rest =>
    rw [List.dropWhile_cons, hrest c rfl]
    rfl

theorem head?_dropWhile {p : Char → Bool} (l : List Char) :
    ∀ c ∈ (l.dropWhile p).head?, p c = false := by
  intro c hc
  have h := List.head?_dropWhile_not p l
  rw [Option.mem_def.1 hc] at h
  exact h

/-- The sign and the digits at the beginning of a text. -/
theorem number_of_stoi {s : String} {n : Int} (h : stoi s = some n) : Number s.toList n := by
  unfold stoi at h
  dsimp only at h
  split_ifs at h with hneg hc hc
  all_goals
    cases h
    obtain ⟨sgn, hsgn, hs, hneg'⟩ := sign_eq (s.toList.dropWhile isSpace)
    refine ⟨s.toList.takeWhile isSpace, sgn,
      (sign (s.toList.dropWhile isSpace)).2.takeWhile Char.isDigit,
      (sign (s.toList.dropWhile isSpace)).2.dropWhile Char.isDigit, ?_,
      fun c hc => List.mem_takeWhile_imp hc, hs, hc.1, fun c hc => List.mem_takeWhile_imp hc,
      head?_dropWhile _, ?_, hc.2⟩
    · rw [List.append_assoc, List.takeWhile_append_dropWhile, List.append_assoc, ← hsgn,
        List.takeWhile_append_dropWhile]
  · rw [if_pos (hneg'.1 hneg)]
    rfl
  · rw [if_neg fun hs => hneg (hneg'.2 hs)]
    rfl

theorem stoi_of_number {s : String} {n : Int} (h : Number s.toList n) : stoi s = some n := by
  obtain ⟨blanks, sgn, digits, rest, hl, hblanks, hs, hne, hdigits, hrest, hn, hle, hlt⟩ := h
  have hhead : ∀ c ∈ (digits ++ rest).head?, c.isDigit = true := by
    cases digits with
    | nil => exact absurd rfl hne
    | cons d ds =>
      rintro c ⟨⟩
      exact hdigits d List.mem_cons_self
  have hspace : ∀ c ∈ (sgn ++ (digits ++ rest)).head?, isSpace c = false := by
    rcases hs with rfl | rfl | rfl
    · exact fun c hc => not_isSpace_of_isDigit (hhead c hc)
    · rintro c ⟨⟩
      rfl
    · rintro c ⟨⟩
      rfl
  have hdrop : s.toList.dropWhile isSpace = sgn ++ (digits ++ rest) := by
    rw [hl, List.append_assoc, List.append_assoc]
    exact dropWhile_append_of_head hblanks hspace
  unfold stoi
  rw [hdrop, sign_append hs hhead]
  dsimp only
  rw [takeWhile_append_of_head hdigits hrest]
  have hvalue : (if decide (sgn = ['-']) = true then
      -digitsValue digits else digitsValue digits) = n := by
    rw [hn]
    simp only [decide_eq_true_eq]
  exact (if_pos ⟨hne, hvalue.symm ▸ hle, hvalue.symm ▸ hlt⟩).trans (congrArg some hvalue)

/-- **What `std::stoi` reads.** -/
theorem stoi_eq_some_iff (s : String) (n : Int) : stoi s = some n ↔ Number s.toList n :=
  ⟨number_of_stoi, stoi_of_number⟩

/-! ## The calls -/

/-- A program that asks the database, with the queries made so far. -/
abbrev Asking := StateM (List (String × List Param))

/-- A database that answers by all that was asked. -/
def record (answers : List (String × List Param) → Option String) (query : String)
    (params : List Param) :
    Asking (Option String) := fun asked =>
  (answers (asked ++ [(query, params)]), asked ++ [(query, params)])

/-- What a message makes `from_first_wss_message` ask. -/
def asked (answers : List (String × List Param) → Option String) (message : String) :
    List (String × List Param) := (Auth.fromFirstWssMessage (record answers) message []).2

/-- What `verify_token` asks, by its arguments. -/
def lookupOf (user : Int) (token type : String) : String × List Param :=
  (sessionQuery, sessionParams user token type)

/-- A message that leads to `verify_token`, with its arguments: its non-empty pieces are four, and
the first one begins with a number. -/
def Credential (message : String) (user : Int) (token type : String) : Prop :=
  ∃ first crypto, fields message = [first, crypto, token, type] ∧ Number first.toList user

/-- A message of the form `user-crypto-token-type` and no other: three separators, no empty field,
and digits only for the user. -/
def Strict (message : String) (user : Int) (token type : String) : Prop :=
  ∃ first crypto, message.toList =
      first.toList ++ '-' :: (crypto.toList ++ '-' :: (token.toList ++ '-' :: type.toList)) ∧
    (∀ field ∈ [first, crypto, token, type], field ≠ "" ∧ '-' ∉ field.toList) ∧
    (∀ c ∈ first.toList, c.isDigit = true) ∧ user = digitsValue first.toList ∧ user < 2 ^ 31

variable {answers : List (String × List Param) → Option String} {message token type : String}
  {user : Int}

theorem credentials_eq_some_iff :
    credentials message = some (user, token, type) ↔ Credential message user token type := by
  unfold credentials Credential
  constructor
  · intro h
    split at h
    · rename_i first crypto token' type' hf
      obtain ⟨userID, hu, h⟩ := Option.map_eq_some_iff.1 h
      cases h
      exact ⟨first, crypto, hf, (stoi_eq_some_iff _ _).1 hu⟩
    · cases h
  · rintro ⟨first, crypto, hf, hn⟩
    rw [hf]
    dsimp only
    rw [(stoi_eq_some_iff _ _).2 hn]
    rfl

/-- A query is recorded, and what comes after it may make no more. -/
theorem record_bind {α : Type} {f : Option String → Asking α}
    (hf : ∀ answer asked, (f answer asked).2 = asked)
    (answers : List (String × List Param) → Option String) (query : String) (params : List Param)
    (asked : List (String × List Param)) :
    ((record answers query params >>= f) asked).2 = asked ++ [(query, params)] := hf _ _

theorem record_verifyToken (answers : List (String × List Param) → Option String) (user : Int)
    (token type : String) (asked : List (String × List Param)) : ∃ verified,
    Auth.verifyToken (record answers) user token type asked =
      (verified, asked ++ [lookupOf user token type]) := by
  refine ⟨(Auth.verifyToken (record answers) user token type asked).1, Prod.ext rfl ?_⟩
  refine record_bind (fun answer asked => ?_) answers _ _ asked
  cases answer <;> rfl

theorem record_getName (answers : List (String × List Param) → Option String) (user : Int)
    (type : String) (asked : List (String × List Param)) :
    ∃ more, (Auth.getName (record answers) user type asked).2 = asked ++ more := by
  unfold Auth.getName
  by_cases htype : type = "admin" ∨ type = "agent"
  · simp only [if_pos htype]
    refine ⟨_, record_bind (fun answer asked => ?_) answers _ _ asked⟩
    cases answer <;> rfl
  · simp only [if_neg htype]
    exact ⟨[], (List.append_nil _).symm⟩

/-- The first query is that of `verify_token`. -/
theorem head?_asked (answers : List (String × List Param) → Option String) (message : String) :
    (asked answers message).head? = (credentials message).map fun c =>
      lookupOf c.1 c.2.1 c.2.2 := by
  rw [asked, fromFirstWssMessage_of_credentials]
  cases credentials message with
  | none => rfl
  | some c =>
    obtain ⟨user, token, type⟩ := c
    obtain ⟨verified, hv⟩ := record_verifyToken answers user token type []
    have hrun : ∀ f : Bool →
      Asking String, ((Auth.verifyToken (record answers) user token type >>= f) []).2 =
        (f verified [lookupOf user token type]).2 := by
      intro f
      have hbind : (Auth.verifyToken (record answers) user token type >>= f) [] =
          f (Auth.verifyToken (record answers) user token type []).1
            (Auth.verifyToken (record answers) user token type []).2 := rfl
      rw [hbind, hv]
      rfl
    dsimp only
    rw [hrun]
    cases verified with
    | false => rfl
    | true =>
      obtain ⟨more, hmore⟩ := record_getName answers user type [lookupOf user token type]
      rw [if_pos rfl, hmore]
      rfl

theorem lookupOf_inj {user' : Int} {token' type' : String}
    (h : lookupOf user token type = lookupOf user' token' type') :
    (user, token, type) = (user', token', type') := by
  cases h
  rfl

/-- The fields of a message of the exact form. -/
theorem fields_of_strict {first crypto : String} (hm : message.toList =
      first.toList ++ '-' :: (crypto.toList ++ '-' :: (token.toList ++ '-' :: type.toList)))
    (hfields : ∀ field ∈ [first, crypto, token, type], field ≠ "" ∧ '-' ∉ field.toList) :
    fields message = [first, crypto, token, type] := by
  have hsep : ∀ field ∈ [first, crypto, token, type], '-' ∉ field.toList :=
    fun field hf => (hfields field hf).2
  unfold fields keptPieces
  rw [hm, List.splitOn_append_cons_self_of_not_mem (hsep first (by simp)),
    List.splitOn_append_cons_self_of_not_mem (hsep crypto (by simp)),
    List.splitOn_append_cons_self_of_not_mem (hsep token (by simp)),
    List.splitOn_eq_singleton (hsep type (by simp))]
  simp only [List.map_cons, List.map_nil, String.ofList_toList]
  refine List.filter_eq_self.2 fun field hf => ?_
  simpa using (hfields field hf).1

theorem digitsValue_nonneg (digits : List Char) : 0 ≤ digitsValue digits := Int.natCast_nonneg _

/-- A message of the exact form is accepted. -/
theorem Strict.credential (h : Strict message user token type) :
    Credential message user token type := by
  obtain ⟨first, crypto, hm, hfields, hdigits, rfl, hlt⟩ := h
  have hne : first.toList ≠ [] :=
    fun he => (hfields first (by simp)).1 (String.toList_eq_nil_iff.1 he)
  have hle : -2 ^ 31 ≤ digitsValue first.toList := by
    have := digitsValue_nonneg first.toList
    omega
  exact ⟨first, crypto, fields_of_strict hm hfields, [], [], first.toList,
    [], by simp, by simp, .inl rfl, hne,
    hdigits, by simp, rfl, hle, hlt⟩

/-- **The credential parser.** `verify_token` is called with `user`, `token` and `type` exactly
where the message has these credentials, and nothing is asked where it has none. Messages with other
credentials lead to other calls. A message of the exact form is one with credentials. -/
theorem verifyToken_called_iff (answers : List (String × List Param) → Option String)
    (message : String) :
    (∀ user token type, (asked answers message).head? = some (lookupOf user token type) ↔
      Credential message user token type) ∧
    (asked answers message ≠ [] ↔ ∃ user token type, Credential message user token type) ∧
    (∀ answers' message' user token type user' token' type',
      Credential message user token type → Credential message' user' token' type' →
      (user, token, type) ≠ (user', token', type') →
      (asked answers message).head? ≠ (asked answers' message').head?) ∧
    ∀ user token type, Strict message user token type → Credential message user token type := by
  have hiff : ∀ user token type, (asked answers message).head? = some (lookupOf user token type) ↔
      Credential message user token type := by
    intro user token type
    rw [← credentials_eq_some_iff, head?_asked]
    constructor
    · intro h
      obtain ⟨c, hc, hl⟩ := Option.map_eq_some_iff.1 h
      rw [hc]
      exact congrArg some (lookupOf_inj hl)
    · intro h
      rw [h]
      rfl
  refine ⟨hiff, ⟨fun h => ?_, ?_⟩, ?_, fun user token type h => h.credential⟩
  · cases hc : credentials message with
    | none =>
      have := head?_asked answers message
      rw [hc] at this
      exact absurd (List.head?_eq_none_iff.1 this) h
    | some c => exact ⟨c.1, c.2.1, c.2.2, credentials_eq_some_iff.1 hc⟩
  · rintro ⟨user, token, type, hc⟩ hnil
    have h := (hiff user token type).2 hc
    rw [hnil] at h
    cases h
  · intro answers' message' user token type user' token' type' hc hc' hne h
    rw [head?_asked, head?_asked, credentials_eq_some_iff.2 hc, credentials_eq_some_iff.2 hc'] at h
    exact hne (lookupOf_inj (Option.some.inj h))

/-- More than the exact form is accepted. -/
theorem junk_accepted :
    (asked (fun _ => none) "5x-c-t-admin").head? = some (lookupOf 5 "t" "admin") ∧
    ¬ ∃ user token type, Strict "5x-c-t-admin" user token type := by
  constructor
  · rw [head?_asked]
    decide
  · rintro ⟨user, token, type, first, crypto, hm, hfields, hdigits, -, -⟩
    have hf := fields_of_strict hm hfields
    have hfirst : first = "5x" := by
      have h : fields "5x-c-t-admin" = ["5x", "c", "t", "admin"] := by decide
      rw [h] at hf
      exact (List.cons.inj hf).1.symm
    rw [hfirst] at hdigits
    exact absurd (hdigits 'x' (by decide)) (by decide)

end CppFrame.Db
