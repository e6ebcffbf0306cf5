import Collocation.Double.Text
import Collocation.Keyed.Dictionary
import Collocation.Text.Visible
import Collocation.Time.Text
import Collocation.Uuid.Text

/-!
# Column values

The values that a column of a stored row can hold, and how messages speak of them.
-/

set_option autoImplicit false

namespace Collocation

/-- The types of columns. -/
inductive ColumnType where
  | null
  | boolean
  | bigint
  | double
  | text
  | uuid
  | timestamp
  | doubleMap
deriving DecidableEq

def ColumnType.name : ColumnType → String
  | null => "null"
  | boolean => "boolean"
  | bigint => "bigint"
  | double => "double"
  | text => "text"
  | uuid => "uuid"
  | timestamp => "timestamp"
  | doubleMap => "map<text, double>"

/-- What a column of a row holds. -/
inductive ColumnValue where
  | null
  | bool (value : Bool)
  | int (value : Int64)
  | double (value : Double)
  | text (value : String)
  | uuid (value : Uuid)
  | timestamp (value : Instant)
  | doubleMap (values : Dictionary Double)
deriving DecidableEq

namespace ColumnValue

def type : ColumnValue → ColumnType
  | null => .null
  | bool _ => .boolean
  | int _ => .bigint
  | double _ => .double
  | text _ => .text
  | uuid _ => .uuid
  | timestamp _ => .timestamp
  | doubleMap _ => .doubleMap

/-- A value, or null for nothing. -/
def ofOption {α : Type} (wrap : α → ColumnValue) : Option α → ColumnValue
  | none => null
  | some value => wrap value

/-- Equality of what values say: doubles are compared as numbers. -/
def sameValue : ColumnValue → ColumnValue → Bool
  | double x, double y => x.sameValue y
  | doubleMap a, doubleMap b =>
    a.entries.length == b.entries.length &&
      (a.entries.zip b.entries).all fun (x, y) => x.1 == y.1 && x.2.sameValue y.2
  | a, b => a = b

/-- Whether every double of a value is a finite number. -/
def isFinite : ColumnValue → Bool
  | double x => x.isFinite
  | doubleMap values => values.entries.all fun entry => entry.2.isFinite
  | _ => true

/-! ## In messages -/

/-- A character of a quoted text in a message: the quote, the backslash and the usual controls have
a letter behind a backslash, other characters that show nothing by themselves their number in
braces. -/
def messageChar (c : Char) : List Char :=
  if c = '"' then ['\\', '"']
  else if c = '\\' then ['\\', '\\']
  else if c = '\n' then ['\\', 'n']
  else if c = '\r' then ['\\', 'r']
  else if c = '\t' then ['\\', 't']
  else if c.toNat = 0 then ['\\', '0']
  else if Text.isVisible c then [c]
  else '\\' :: 'u' :: '\x7b' :: (Nat.toDigits 16 c.toNat ++ ['\x7d'])

def quoted (s : String) : String :=
  "\"" ++ String.ofList (s.toList.flatMap messageChar) ++ "\""

def doubleText (x : Double) : String :=
  String.ofList (Double.messageLayout.text x)

/-- How a message shows a value. -/
def describe : ColumnValue → String
  | null => "Null"
  | bool value => "Bool(" ++ (if value then "true" else "false") ++ ")"
  | int value => "Int(" ++ toString value.toInt ++ ")"
  | double value => "Double(" ++ doubleText value ++ ")"
  | text value => "Text(" ++ quoted value ++ ")"
  | uuid value => "Uuid(" ++ value.text ++ ")"
  | timestamp value => "Timestamp(" ++ value.text ++ ")"
  | doubleMap values =>
    "DoubleMap(\x7b" ++
      ", ".intercalate (values.entries.map fun entry =>
        quoted entry.1 ++ ": " ++ doubleText entry.2) ++
      "\x7d)"

end ColumnValue

end Collocation
