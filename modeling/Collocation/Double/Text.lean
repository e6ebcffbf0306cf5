import Collocation.Double.Round

/-!
# Decimal texts of doubles

A finite double is exactly a whole number of some power of ten. From that number the module takes
the fewest digits that still lie among the reals nearest to the double, and the digits of a fixed
count of places. How digits are laid out is said by one record for each kind of text.
-/

set_option autoImplicit false

namespace Collocation.Double

/-! ## The exact decimal -/

/-- What a unit of the significand is in the units of `decimal`. -/
def unit (x : Double) : Nat :=
  if 0 ≤ x.exponent then Nat.pow 2 x.exponent.toNat else Nat.pow 5 (-x.exponent).toNat

/-- The power of ten that `decimal` counts. -/
def power (x : Double) : Int :=
  min x.exponent 0

/-- The size of a finite double, as a count of `10 ^ x.power`. -/
def decimal (x : Double) : Nat :=
  x.significand * x.unit

/-! ## The fewest digits -/

/-- Four times the lower end of the reals that round to a double, in the units of `decimal`. Below
a power of two the doubles lie twice as close. -/
def lowerEnd (x : Double) : Nat :=
  (4 * x.significand - (if x.fraction = 0 ∧ 1 < x.exponentField then 1 else 2)) * x.unit

/-- Four times the upper end of the reals that round to a double. -/
def upperEnd (x : Double) : Nat :=
  (4 * x.significand + 2) * x.unit

/-- Whether a count of `10 ^ x.power` rounds to the double. The ends do for even significands. -/
def covers (x : Double) (count : Nat) : Bool :=
  if x.significand % 2 = 0 then
    x.lowerEnd ≤ 4 * count && 4 * count ≤ x.upperEnd
  else
    x.lowerEnd < 4 * count && 4 * count < x.upperEnd

/-- The multiple of `step` that rounds to the double and is nearest to it, as a count of steps. Only
the two neighbours of the double can be that multiple; between two equally near ones the double is
an exact half. -/
def onGrid (halves : Halves) (x : Double) (step : Nat) : Option Nat :=
  let below := x.decimal / step
  match x.covers (below * step), x.covers ((below + 1) * step) with
  | true, true => some (roundDiv halves x.decimal step)
  | true, false => some below
  | false, true => some (below + 1)
  | false, false => none

/-- The shortest decimal that rounds to a finite double: its digits as a number, and the power of
ten that they count. Grids are tried from the coarsest, that of one digit, to the finest. -/
def shortest (halves : Halves) (x : Double) : Nat × Int :=
  let length := (Nat.toDigits 10 x.decimal).length
  let found := (List.range' 1 (min length 17)).findSome? fun digits =>
    (x.onGrid halves (Nat.pow 10 (length - digits))).map fun count => (count, length - digits)
  match found with
  | some (count, dropped) => (count, x.power + dropped)
  | none => (x.decimal, x.power)

/-! ## Layout -/

/-- How doubles are written: which way halves go where two texts are equally short and near, which
exponents are written by position, whether a positive exponent has a sign, and what is written for
what has no digits. -/
structure Layout where
  halves : Halves
  lowest : Int
  highest : Int
  plus : Bool
  nan : List Char
  infinite : List Char

/-- Digits without the zeros behind them; of nothing but zeros one stays. -/
def significant (digits : List Char) : List Char :=
  match (digits.reverse.dropWhile (· == '0')).reverse with
  | [] => ['0']
  | kept => kept

/-- The digits of a positive number whose first digit counts `10 ^ exponent`. A point is written
always, with one digit at least on both sides of it, unless an exponent follows a single digit. -/
def Layout.place (layout : Layout) (digits : List Char) (exponent : Int) : List Char :=
  if layout.lowest ≤ exponent ∧ exponent ≤ layout.highest then
    if exponent < 0 then
      '0' :: '.' :: (List.replicate (-exponent - 1).toNat '0' ++ digits)
    else
      let before := exponent.toNat + 1
      let after := digits.drop before
      digits.take before ++ List.replicate (before - digits.length) '0' ++
        '.' :: (if after.isEmpty then ['0'] else after)
  else
    let mantissa := match digits with
      | first :: second :: more => first :: '.' :: second :: more
      | few => few
    let sign := if exponent < 0 then ['-'] else if layout.plus then ['+'] else []
    mantissa ++ 'e' :: sign ++ Nat.toDigits 10 exponent.natAbs

/-- The text of a double: its fewest digits in the given layout. -/
def Layout.text (layout : Layout) (x : Double) : List Char :=
  let sign := if x.isNegative then ['-'] else []
  if x.isNaN then layout.nan
  else if !x.isFinite then sign ++ layout.infinite
  else if x.isZero then sign ++ ['0', '.', '0']
  else
    let (count, power) := x.shortest layout.halves
    let digits := Nat.toDigits 10 count
    sign ++ layout.place (significant digits) (power + digits.length - 1)

/-- In JSON, halves go to the even digit, exponents from -5 to 15 are written by position, others
always have a sign, and what is not finite is written as nothing. -/
def jsonLayout : Layout :=
  ⟨.toEven, -5, 15, true, ['n', 'u', 'l', 'l'], ['n', 'u', 'l', 'l']⟩

/-- In messages, halves go up, exponents from -4 to 15 are written by position, and a positive one
has no sign. -/
def messageLayout : Layout :=
  ⟨.up, -4, 15, false, ['N', 'a', 'N'], ['i', 'n', 'f']⟩

/-! ## Fixed places -/

/-- A double with the given count of decimal places, rounded from its exact value to the nearest;
an exact half goes to the even neighbour. The sign of what is rounded to zero stays. -/
def fixed (places : Nat) (x : Double) : List Char :=
  if x.isNaN then ['N', 'a', 'N']
  else
    let sign := if x.isNegative then ['-'] else []
    if !x.isFinite then sign ++ ['i', 'n', 'f']
    else
      let shift := x.power + places
      let count := roundDiv .toEven (x.decimal * Nat.pow 10 shift.toNat) (Nat.pow 10 (-shift).toNat)
      let after := Nat.toDigits 10 (count % Nat.pow 10 places)
      sign ++ Nat.toDigits 10 (count / Nat.pow 10 places) ++
        '.' :: (List.replicate (places - after.length) '0' ++ after)

example : String.ofList (jsonLayout.text (nearest false 1 10)) = "0.1" := by decide +kernel
example : String.ofList (jsonLayout.text (ofInt 10000000000000000)) = "1e+16" := by decide +kernel
example : String.ofList (jsonLayout.text (ofInt (-1200000000000000))) = "-1200000000000000.0" := by
  decide +kernel
example : String.ofList (jsonLayout.text ⟨1⟩) = "5e-324" := by decide +kernel
example : String.ofList (jsonLayout.text (nearest false 1 100000)) = "0.00001" := by decide +kernel
example : String.ofList (messageLayout.text (nearest false 1 100000)) = "1e-5" := by decide +kernel
example : String.ofList (jsonLayout.text (nearest false 3 10)) = "0.3" := by decide +kernel
example : String.ofList (jsonLayout.text (nearest false 1 33554432)) = "2.9802322387695312e-8" := by
  decide +kernel
example : String.ofList (messageLayout.text (nearest false 1 33554432)) =
    "2.9802322387695313e-8" := by
  decide +kernel
example : String.ofList (fixed 3 (nearest true 1 10000)) = "-0.000" := by decide +kernel
example : String.ofList (fixed 3 (nearest false 1 16)) = "0.062" := by decide +kernel

end Collocation.Double
