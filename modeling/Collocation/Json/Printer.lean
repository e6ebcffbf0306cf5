import Collocation.Double.Text
import Collocation.Json.Basic
import Collocation.Uuid.Text

/-!
# Texts of JSON values

A value is written compactly or, for people, in lines with an indent of two spaces. Both writers put
a text in front of what follows it.
-/

set_option autoImplicit false

namespace Collocation.Json

/-! ## Quoted strings -/

/-- A character inside quotes. The quote, the backslash and what lies below the space are written
with a backslash; all else stands for itself. -/
def escape (c : Char) : List Char :=
  if c = '"' then ['\\', '"']
  else if c = '\\' then ['\\', '\\']
  else if c = '\x08' then ['\\', 'b']
  else if c = '\x0c' then ['\\', 'f']
  else if c = '\n' then ['\\', 'n']
  else if c = '\r' then ['\\', 'r']
  else if c = '\t' then ['\\', 't']
  else if c.toNat < 32 then ['\\', 'u', '0', '0', hexDigit (c.toNat / 16), hexDigit (c.toNat % 16)]
  else [c]

/-- A string in quotes, in front of what follows. -/
def quoteOnto (s : String) (rest : List Char) : List Char :=
  '"' :: s.toList.foldr (fun c text => escape c ++ text) ('"' :: rest)

/-! ## Scalars -/

def integerChars (n : Int) : List Char :=
  if n < 0 then '-' :: Nat.toDigits 10 n.natAbs else Nat.toDigits 10 n.natAbs

def scalarOnto (value : Scalar) (rest : List Char) : List Char :=
  match value with
  | .null => 'n' :: 'u' :: 'l' :: 'l' :: rest
  | .bool true => 't' :: 'r' :: 'u' :: 'e' :: rest
  | .bool false => 'f' :: 'a' :: 'l' :: 's' :: 'e' :: rest
  | .integer n => integerChars n ++ rest
  | .double x => Double.jsonLayout.text x ++ rest
  | .string s => quoteOnto s rest

/-! ## Compact texts -/

mutual

/-- The compact text of a value, in front of what follows. -/
def compactOnto : Json → List Char → List Char
  | .scalar value, rest => scalarOnto value rest
  | .array [], rest => '[' :: ']' :: rest
  | .array (item :: items), rest => '[' :: compactOnto item (itemsOnto items (']' :: rest))
  | .object [], rest => '\x7b' :: '\x7d' :: rest
  | .object ((name, value) :: members), rest =>
    '\x7b' :: quoteOnto name (':' :: compactOnto value (membersOnto members ('\x7d' :: rest)))

/-- The items of an array after the first. -/
def itemsOnto : List Json → List Char → List Char
  | [], rest => rest
  | item :: items, rest => ',' :: compactOnto item (itemsOnto items rest)

/-- The members of an object after the first. -/
def membersOnto : List (String × Json) → List Char → List Char
  | [], rest => rest
  | (name, value) :: members, rest =>
    ',' :: quoteOnto name (':' :: compactOnto value (membersOnto members rest))

end

/-- The compact text of a value. -/
def compact (value : Json) : String :=
  String.ofList (compactOnto value [])

/-! ## Texts in lines -/

/-- The end of a line, and the indent of the next. -/
def newlineOnto (depth : Nat) (rest : List Char) : List Char :=
  '\n' :: (List.replicate (2 * depth) ' ' ++ rest)

mutual

/-- The text of a value in lines, in front of what follows. -/
def linesOnto (depth : Nat) : Json → List Char → List Char
  | .scalar value, rest => scalarOnto value rest
  | .array [], rest => '[' :: ']' :: rest
  | .array (item :: items), rest =>
    '[' :: newlineOnto (depth + 1) (linesOnto (depth + 1) item
      (itemLinesOnto (depth + 1) items (newlineOnto depth (']' :: rest))))
  | .object [], rest => '\x7b' :: '\x7d' :: rest
  | .object ((name, value) :: members), rest =>
    '\x7b' :: newlineOnto (depth + 1) (quoteOnto name (':' :: ' ' :: linesOnto (depth + 1) value
      (memberLinesOnto (depth + 1) members (newlineOnto depth ('\x7d' :: rest)))))

def itemLinesOnto (depth : Nat) : List Json → List Char → List Char
  | [], rest => rest
  | item :: items, rest =>
    ',' :: newlineOnto depth (linesOnto depth item (itemLinesOnto depth items rest))

def memberLinesOnto (depth : Nat) : List (String × Json) → List Char → List Char
  | [], rest => rest
  | (name, value) :: members, rest =>
    ',' :: newlineOnto depth (quoteOnto name (':' :: ' ' :: linesOnto depth value
      (memberLinesOnto depth members rest)))

end

/-- The text of a value in lines. -/
def lines (value : Json) : String :=
  String.ofList (linesOnto 0 value [])

example : compact (.object [("a", .array [.integer (-1), .null]), ("b\n", .object [])]) =
    "\x7b\"a\":[-1,null],\"b\\n\":\x7b\x7d\x7d" := by decide +kernel

end Collocation.Json
