/-!
# What is wrong with a JSON document
-/

set_option autoImplicit false

namespace Collocation.Json

/-- Why a document has not the shape that was asked for. -/
inductive Fault where
  /-- The text is not JSON, or nests too deeply, or has a scalar without a value. -/
  | malformed
  /-- A value of another type, or out of range. -/
  | mismatch
  | missingField (name : String)
  | duplicateField (name : String)
  | unknownVariant (name : String) (known : List String)
  | invalidTimestamp (text : String)
deriving DecidableEq

namespace Fault

/-- Names in backquotes: two with "or" between them, more after "one of". -/
def expected : List String → String
  | [] => "there are no variants"
  | [a] => "expected " ++ quoted a
  | [a, b] => "expected " ++ quoted a ++ " or " ++ quoted b
  | names => "expected one of " ++ ", ".intercalate (names.map quoted)
where
  quoted (name : String) : String := "\x60" ++ name ++ "\x60"

/-- The wording of faults that say what they found. -/
def wording? : Fault → Option String
  | malformed => none
  | mismatch => none
  | missingField name => some ("missing field " ++ expected.quoted name)
  | duplicateField name => some ("duplicate field " ++ expected.quoted name)
  | unknownVariant name known =>
    some ("unknown variant " ++ expected.quoted name ++ ", " ++ expected known)
  | invalidTimestamp text => some ("Invalid timestamp: " ++ text)

/-- Whether the text is at fault, and not what it says. -/
def isMalformed : Fault → Bool
  | malformed => true
  | _ => false

end Fault

end Collocation.Json
