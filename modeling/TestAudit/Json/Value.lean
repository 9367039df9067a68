import TestAudit.Numeric.Binary64

namespace TestAudit.Json

/-!
# JSON values

Integers are kept apart from numbers with a fraction or an exponent: integers
are exact and unbounded, the others are binary64 values. The members of an
object stay in the order in which their names first appeared.
-/

/-- A JSON value. -/
inductive Value where
  | null
  | boolean (holds : Bool)
  | integer (number : Int)
  | real (number : Binary64)
  | string (text : Text)
  | array (items : List Value)
  | object (members : List (Text × Value))
  deriving Repr

/-- Sets a member: a known name keeps its place and takes the new value, a new name goes last. -/
def setMember {α : Type} (name : Text) (value : α) : List (Text × α) → List (Text × α)
  | [] => [(name, value)]
  | (other, old) :: members =>
      if other = name then
        (name, value) :: members
      else
        (other, old) :: setMember name value members

/-- The members that remain when each name keeps its first place and its last value. -/
def mergeMembers {α : Type} (members : List (Text × α)) : List (Text × α) :=
  members.foldl (fun merged (name, value) => setMember name value merged) []

namespace Value

/-- A member of an object; a member that is absent, or sought in another value, is null. -/
def member (value : Value) (name : Text) : Value :=
  match value with
  | .object members => (members.lookup name).getD .null
  | _ => .null

/-- The name of the kind of a value, as messages give it. -/
def kindName : Value → Text
  | .null => "NoneType"
  | .boolean _ => "bool"
  | .integer _ => "int"
  | .real _ => "float"
  | .string _ => "str"
  | .array _ => "list"
  | .object _ => "dict"

end Value

end TestAudit.Json
