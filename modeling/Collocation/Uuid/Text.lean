import Collocation.Text.Blank
import Collocation.Uuid.Basic

/-!
# Texts of identifiers

The text of a uuid is its thirty-two lower-case hexadecimal digits in five groups. It is read in
either case of the digits, and in three more forms: without the hyphens, in braces, and as a URN.
-/

set_option autoImplicit false

namespace Collocation

/-- The lower-case hexadecimal digits. -/
def hexDigits : List Char :=
  ['0', '1', '2', '3', '4', '5', '6', '7', '8', '9', 'a', 'b', 'c', 'd', 'e', 'f']

/-- The digit of a number below sixteen. -/
def hexDigit (n : Nat) : Char :=
  hexDigits.getD n '0'

/-- The number of a hexadecimal digit in either case. -/
def hexValue (c : Char) : Option Nat :=
  hexDigits.findIdx? (· == c.toLower)

/-- The number that hexadecimal digits write. -/
def hexNumber (digits : List Char) : Option Nat :=
  (digits.mapM hexValue).map fun values => values.foldl (fun n value => 16 * n + value) 0

namespace Uuid

/-- The thirty-two digits of a uuid. -/
def digits (id : Uuid) : List Char :=
  (List.range 32).map fun i => hexDigit (id.number.val / Nat.pow 16 (31 - i) % 16)

/-- Thirty-two digits in groups of eight, four, four, four and twelve. -/
def group (digits : List Char) : List Char :=
  digits.take 8 ++ '-' :: (digits.drop 8).take 4 ++ '-' :: (digits.drop 12).take 4 ++
    '-' :: (digits.drop 16).take 4 ++ '-' :: digits.drop 20

def chars (id : Uuid) : List Char :=
  group id.digits

def text (id : Uuid) : String :=
  String.ofList id.chars

/-- The digits of five groups of eight, four, four, four and twelve characters. -/
def ungroup (text : List Char) : Option (List Char) :=
  let digits := text.take 8 ++ (text.drop 9).take 4 ++ (text.drop 14).take 4 ++
    (text.drop 19).take 4 ++ text.drop 24
  if digits.length = 32 ∧ text = group digits then some digits else none

/-- The uuid of thirty-two hexadecimal digits. -/
def ofDigits? (digits : List Char) : Option Uuid :=
  if digits.length = 32 then (hexNumber digits).map ofNat else none

def ofGroups? (text : List Char) : Option Uuid :=
  (ungroup text).bind ofDigits?

/-- What braces enclose. -/
def unbrace? : List Char → Option (List Char)
  | '\x7b' :: rest =>
    if rest.getLast? = some '\x7d' then some rest.dropLast else none
  | _ => none

/-- What follows `urn:uuid:`, a prefix in any case. -/
def unprefix? (text : List Char) : Option (List Char) :=
  if (text.take 9).map Char.toLower = ['u', 'r', 'n', ':', 'u', 'u', 'i', 'd', ':'] then
    some (text.drop 9)
  else none

/-- The uuid of a text in one of the four forms. -/
def parse? (text : List Char) : Option Uuid :=
  (ofGroups? text).or <| (ofDigits? text).or <|
    ((unbrace? text).bind ofGroups?).or ((unprefix? text).bind ofGroups?)

example : (ofNat 0x123456789abcdef).text = "00000000-0000-0000-0123-456789abcdef" := by
  decide +kernel

end Uuid

end Collocation
