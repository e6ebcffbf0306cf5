import Collocation.Json.Basic
import Collocation.Uuid.Text

/-!
# Writing scalars of the domain
-/

set_option autoImplicit false

namespace Collocation.Json

def ofDouble (x : Double) : Json :=
  if x.isFinite then .double x else .null

def ofInt64 (n : Int64) : Json := .integer n.toInt

def ofUuid (id : Uuid) : Json := .string id.text

def ofStrings (strings : List String) : Json := .array (strings.map .string)

end Collocation.Json
