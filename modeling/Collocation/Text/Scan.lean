import Collocation.Text.Blank

/-!
# Scanning a text from the left

Each scanner takes what it is after from the front of a text and returns the rest, or fails.
-/

set_option autoImplicit false

namespace Collocation.Text

/-- The rest of a text that begins with `c`. -/
def skip (c : Char) : List Char → Option (List Char)
  | [] => none
  | d :: rest => if d = c then some rest else none

/-- The digits in front of a text, and the rest. -/
def spanDigits (text : List Char) : List Char × List Char :=
  (text.takeWhile Char.isDigit, text.dropWhile Char.isDigit)

/-- The number written by decimal digits. -/
def number (digits : List Char) : Nat :=
  Nat.ofDigitChars 10 digits 0

/-- A number of exactly `count` digits. -/
def exactly (count : Nat) (text : List Char) : Option (Nat × List Char) :=
  let digits := text.take count
  if digits.length = count ∧ digits.all Char.isDigit then some (number digits, text.drop count)
  else none

/-- A number of one digit at least, of which no more than `count` are read. -/
def upTo (count : Nat) (text : List Char) : Option (Nat × List Char) :=
  let digits := (text.take count).takeWhile Char.isDigit
  if digits.isEmpty then none else some (number digits, text.drop digits.length)

/-- A number of one digit at least, read to its end. -/
def whole (text : List Char) : Option (Nat × List Char) :=
  match spanDigits text with
  | ([], _) => none
  | (digits, rest) => some (number digits, rest)

/-- A number in decimal digits, with zeros in front of it up to the given width. -/
def padded (width n : Nat) : List Char :=
  let digits := Nat.toDigits 10 n
  List.replicate (width - digits.length) '0' ++ digits

/-- The digits at the head of a text and the rest of it make up the text. -/
theorem spanDigits_append (text : List Char) :
    (spanDigits text).1 ++ (spanDigits text).2 = text :=
  List.takeWhile_append_dropWhile

/-- The digits of a number are read as this number. -/
theorem number_toDigits (n : Nat) : number (Nat.toDigits 10 n) = n :=
  Nat.ofDigitChars_ten_toDigits

/-- The digits of a number with zeros in front are read as this number. -/
theorem number_padded (width n : Nat) : number (padded width n) = n := by
  simp only [number, padded, Nat.ofDigitChars_append, Nat.ofDigitChars_replicate_zero, Nat.mul_zero]
  exact Nat.ofDigitChars_ten_toDigits

end Collocation.Text
