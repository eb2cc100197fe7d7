import CppFrame.Db.Param
import CppFrame.Helper
import Mathlib.Algebra.Group.Int.Defs

/-!
# Authentication by the first message

`Auth` of `src/include/db/auth.hpp`. A message `user-crypto-token-type` is checked against the
sessions, and its sender is named after the table that `type` names. The database is asked through
`getValue` (`Core::get_value`), in a monad that the caller chooses: what the queries do to it is
left open here.

A name begins with the number of the user unless the type is `admin`
(`fourth_field_of_name`).
-/

namespace CppFrame.Db

/-! ## Numbers -/

/-- The sign of a number, and what follows. -/
def sign : List Char → Bool × List Char
  | '-' :: l => (true, l)
  | '+' :: l => (false, l)
  | l => (false, l)

/-- `std::stoi`: the number at the beginning, after white space and a sign. It throws (`none`) where
there is no digit, or the number is no `int`. -/
def stoi (s : String) : Option Int :=
  let r := sign (s.toList.dropWhile isSpace)
  let digits := r.2.takeWhile Char.isDigit
  let n : Int := Nat.ofDigitChars 10 digits 0
  let n := if r.1 then -n else n
  if digits ≠ [] ∧ -2 ^ 31 ≤ n ∧ n < 2 ^ 31 then some n else none

/-! ## The functions of `Auth` -/

namespace Auth

variable {m : Type → Type} [Monad m] (getValue : String → List Param → m (Option String))

/-- `verify_token`: there is a session whose id is a number. -/
def verifyToken (user : Int) (token type : String) : m Bool := do
  let pUser := (default : Param).setInt user false
  let pToken := (default : Param).setString token false
  let pType := (default : Param).setString type false
  match ← getValue "SELECT id AS value FROM usr_sess WHERE usr = ? AND token = ? AND type = ?"
      [pUser, pToken, pType] with
  | some value => return (stoi value).isSome
  | none => return false

/-- `get_name`. -/
def getName (user : Int) (type : String) : m String := do
  let pUser := (default : Param).setInt user false
  if type = "admin" ∨ type = "agent" then
    match ← getValue ("SELECT CONCAT(fname, ' ' ,LEFT(lname,1)) FROM " ++ type ++
      " WHERE id = ?") [pUser] with
    | some value => return if type = "agent" then toString user ++ ": " ++ value else value
    | none => return ""
  else return ""

/-- `from_first_wss_message`. The rounds are enough for `explode` to end (`explode_singleton`). -/
def fromFirstWssMessage (message : String) : m String := do
  match explode "-" message true (message.length + 1) with
  | .ok [user, _, token, type] =>
    match stoi user with
    | some userID =>
      if ← verifyToken getValue userID token type then getName getValue userID type else return ""
    | none => return ""
  | _ => return ""

end Auth

/-! ## The fields of a message -/

/-- The non-empty fields between the `-` of a message. -/
def fields (message : String) : List String :=
  keptPieces true ((message.toList.splitOn '-').map String.ofList)

theorem explode_eq_fields (message : String) :
    explode "-" message true (message.length + 1) = .ok (fields message) :=
  explode_singleton rfl message true

/-- What `verify_token` is called with, where a message leads to a call. -/
def credentials (message : String) : Option (Int × String × String) :=
  match fields message with
  | [user, _, token, type] => (stoi user).map fun userID => (userID, token, type)
  | _ => none

/-- The type is the fourth field. -/
theorem fourth_field_of_credentials {message : String} {user : Int} {token type : String}
    (h : credentials message = some (user, token, type)) : (fields message)[3]? = some type := by
  unfold credentials at h
  split at h
  · rename_i hf
    obtain ⟨userID, -, h⟩ := Option.map_eq_some_iff.1 h
    cases h
    rw [hf]
    rfl
  · cases h

/-- `from_first_wss_message`, in whatever monad the queries run. -/
theorem fromFirstWssMessage_of_credentials {m : Type → Type} [Monad m]
    (getValue : String → List Param → m (Option String)) (message : String) :
    Auth.fromFirstWssMessage getValue message =
      match credentials message with
      | some (user, token, type) => do
        if ← Auth.verifyToken getValue user token type then
          Auth.getName getValue user type else return ""
      | none => return "" := by
  unfold Auth.fromFirstWssMessage credentials
  rw [explode_eq_fields]
  match fields message with
  | [] => rfl
  | [_] => rfl
  | [_, _] => rfl
  | [_, _, _] => rfl
  | [user, _, token, type] =>
    dsimp only
    cases stoi user with
    | none => rfl
    | some userID => rfl
  | _ :: _ :: _ :: _ :: _ :: _ => rfl

/-! ## Names -/

/-- A number begins with a digit or a sign. -/
theorem head_toString (n : Int) :
    ∃ c l, (toString n).toList = c :: l ∧ (c.isDigit = true ∨ c = '-') := by
  cases n with
  | ofNat n =>
    obtain ⟨c, l, hl⟩ := List.exists_cons_of_ne_nil (Nat.toDigits_ne_nil (n := n) (b := 10))
    have hc : c.isDigit = true :=
      Nat.isDigit_of_mem_toDigits (by decide) (Nat.le_refl 10) (hl ▸ List.mem_cons_self)
    exact ⟨c, l, (Nat.toList_repr).trans hl, .inl hc⟩
  | negSucc n => exact ⟨'-', _, String.toList_append, .inr rfl⟩

/-- A database that answers every query. -/
abbrev Answers := String → List Param → Option String

variable {answers : Answers}

/-- The query of `get_name` for agents. -/
def agentName (answers : Answers) (user : Int) : Option String :=
  answers ("SELECT CONCAT(fname, ' ' ,LEFT(lname,1)) FROM " ++ "agent" ++ " WHERE id = ?")
    [(default : Param).setInt user false]

theorem getName_agent (user : Int) : Auth.getName (m := Id) answers user "agent" =
    match agentName answers user with
    | some value => toString user ++ ": " ++ value
    | none => "" := rfl

theorem getName_of_ne {user : Int} {type : String} (h₁ : type ≠ "admin") (h₂ : type ≠ "agent") :
    Auth.getName (m := Id) answers user type = "" := by
  unfold Auth.getName
  rw [if_neg (by simp [h₁, h₂])]
  rfl

/-- A name is that of an `admin`, or it begins like a number. -/
theorem type_of_getName {user : Int} {type : String} {c : Char} {l : List Char}
    (h : (Auth.getName (m := Id) answers user type : String).toList = c :: l) :
    type = "admin" ∨ c.isDigit = true ∨ c = '-' := by
  by_cases h₁ : type = "admin"
  · exact .inl h₁
  right
  by_cases h₂ : type = "agent"
  · subst h₂
    rw [getName_agent] at h
    split at h
    · obtain ⟨c', l', hn, hc'⟩ := head_toString user
      rw [String.toList_append, String.toList_append, hn, List.cons_append, List.cons_append] at h
      exact (List.cons.inj h).1 ▸ hc'
    · cases h
  · rw [getName_of_ne h₁ h₂] at h
    cases h

/-- Whether `verify_token` finds a session. -/
def verified (answers : Answers) (user : Int) (token type : String) : Bool :=
  Auth.verifyToken (m := Id) answers user token type

/-- A message with credentials gives a name where they are those of a session. -/
theorem fromFirstWssMessage_of_some {message : String} {user : Int} {token type : String}
    (h : credentials message = some (user, token, type)) :
    Auth.fromFirstWssMessage (m := Id) answers message =
      if verified answers user token type then Auth.getName (m := Id)
        answers user type else "" := by
  rw [fromFirstWssMessage_of_credentials, h]
  rfl

theorem fromFirstWssMessage_of_none {message : String} (h : credentials message = none) :
    Auth.fromFirstWssMessage (m := Id) answers message = "" := by
  rw [fromFirstWssMessage_of_credentials, h]
  rfl

/-- **Only an `admin` has a name that begins with a letter.** -/
theorem fourth_field_of_name {message : String} {c : Char} {l : List Char}
    (h : (Auth.fromFirstWssMessage (m := Id) answers message : String).toList = c :: l)
    (hc : c.isDigit = false) (hs : c ≠ '-') : (fields message)[3]? = some "admin" := by
  cases hcred : credentials message with
  | none =>
    rw [fromFirstWssMessage_of_none hcred] at h
    cases h
  | some credential =>
    obtain ⟨user, token, type⟩ := credential
    rw [fromFirstWssMessage_of_some hcred] at h
    split_ifs at h with hv
    · rcases type_of_getName h with rfl | hd | hd
      · exact fourth_field_of_credentials hcred
      · rw [hc] at hd
        cases hd
      · exact absurd hd hs
    · cases h

end CppFrame.Db
