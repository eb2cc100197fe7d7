/-!
# Parameters

`Param` of `lib/jahan/db/param.hpp`: a parameter of a query, with its type.
-/

namespace CppFrame.Db

inductive Param.Types
  | integer
  | string
  | unset
  deriving DecidableEq

/-- A parameter of a query. -/
structure Param where
  type : Param.Types
  isNull : Bool
  intVal : Int
  strVal : String
  deriving DecidableEq

/-- A parameter before it is set. -/
instance : Inhabited Param := ⟨⟨.unset, false, 0, ""⟩⟩

def Param.setInt (val : Int) (nullValue : Bool) (p : Param) : Param :=
  { p with intVal := val, isNull := nullValue, type := .integer }

def Param.setString (val : String) (nullValue : Bool) (p : Param) : Param :=
  { p with strVal := val, isNull := nullValue, type := .string }

end CppFrame.Db
