import Collocation.Json.Record
import Collocation.Tree

/-!
# Trees as documents

A point with its matches is an object that has the members of the point and, if there are any, the
matches in one member more.
-/

set_option autoImplicit false

namespace Collocation

open Json

variable {α : Type}

mutual

/-- A tree whose values are written as members of objects. -/
def Tree.toJson (members : α → List (String × Json)) : Tree α → Json
  | .node value [] => .object (members value)
  | .node value (child :: children) =>
    .object (members value ++
      [("matches", .array (child.toJson members :: Forest.toJsons members children))])

def Forest.toJsons (members : α → List (String × Json)) : Forest α → List Json
  | [] => []
  | tree :: trees => tree.toJson members :: Forest.toJsons members trees

end

def Forest.toJson (members : α → List (String × Json)) (trees : Forest α) : Json :=
  .array (Forest.toJsons members trees)

/-- A tree of so many levels at most. -/
def readTreeWithin (names : List String) (fields : Record → Located α) : Nat → Reader (Tree α)
  | 0 => fun _ _ => .error .malformed
  | levels + 1 =>
    readRecord names fun record =>
      Tree.node
        <$> fields record
        <*> record.defaulted "matches" (readList (readTreeWithin names fields levels)) []

/-- A tree, of as many levels as may be entered. The last of the named fields is `matches`. -/
def readTree (names : List String) (fields : Record → Located α) : Reader (Tree α) :=
  fun setting draft => readTreeWithin names fields (setting.levels + 1) setting draft

end Collocation
