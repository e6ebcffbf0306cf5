import Collocation.Double.Basic
import Collocation.Keyed.Dictionary

/-!
# JSON values

Numbers that are written without a point and an exponent are whole as long as sixty-four bits hold
them; all others are doubles. The members of an object are a list: those of a value that was read as
a payload are in the order of their names, those of a written record in the order of its fields.
-/

set_option autoImplicit false

namespace Collocation

/-- A JSON value without parts. -/
inductive Scalar where
  | null
  | bool (value : Bool)
  | integer (value : Int)
  | double (value : Double)
  | string (value : String)
deriving DecidableEq

/-- A JSON value. The members of an object have an order. -/
inductive Json where
  | scalar (value : Scalar)
  | array (items : List Json)
  | object (members : List (String × Json))

namespace Json

abbrev null : Json := .scalar .null
abbrev bool (value : Bool) : Json := .scalar (.bool value)
abbrev integer (value : Int) : Json := .scalar (.integer value)
abbrev double (value : Double) : Json := .scalar (.double value)
abbrev string (value : String) : Json := .scalar (.string value)

/-- A value, or nothing. -/
def option {α : Type} (write : α → Json) : Option α → Json
  | none => null
  | some value => write value

/-- A member that is left out for nothing. -/
def member? {α : Type} (name : String) (write : α → Json) : Option α → List (String × Json)
  | none => []
  | some value => [(name, write value)]

/-- The member of an object of the given name. -/
def get? : Json → String → Option Json
  | object members, name => findEntry name members
  | _, _ => none

mutual

/-- Equality of values, member by member. -/
def beq : Json → Json → Bool
  | .scalar a, .scalar b => a = b
  | .array a, .array b => beqItems a b
  | .object a, .object b => beqMembers a b
  | _, _ => false

def beqItems : List Json → List Json → Bool
  | [], [] => true
  | a :: as, b :: bs => beq a b && beqItems as bs
  | _, _ => false

def beqMembers : List (String × Json) → List (String × Json) → Bool
  | [], [] => true
  | (name, a) :: as, (name', b) :: bs => name = name' && beq a b && beqMembers as bs
  | _, _ => false

end

end Json

end Collocation
