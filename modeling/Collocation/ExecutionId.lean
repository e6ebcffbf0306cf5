import Collocation.Failure

/-!
# Ids of executions as texts

The id of an execution is read from a uuid in any of its forms, with blanks around it.
-/

set_option autoImplicit false

namespace Collocation

/-- The id of an execution that a text writes. -/
def parseExecutionId (text : String) : Except Failure Uuid :=
  match Uuid.parse? (Text.trim text.toList) with
  | some id => .ok id
  | none => .error (.invalidExecutionId text)

end Collocation
