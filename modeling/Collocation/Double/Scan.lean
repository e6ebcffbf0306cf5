import Collocation.Double.Round

/-!
# Reading a double

A decimal is read from as many of its leading digits as sixty-four bits hold. They are then scaled
by one power of ten, itself rounded to a double, in double arithmetic; so a decimal of seventeen
digits may come out as a neighbour of the nearest double. Digits that do not fit only count for the
power.
-/

set_option autoImplicit false

namespace Collocation

/-- The digits that were read so far, as a number of sixty-four bits, and the power of ten that it
counts. -/
structure Mantissa where
  value : Nat := 0
  power : Int := 0
deriving DecidableEq

namespace Mantissa

/-- Whether one more digit fits. -/
def fits (m : Mantissa) (digit : Nat) : Bool :=
  10 * m.value + digit < UInt64.size

/-- The digits in front of the point. From the first that does not fit on, none is taken. -/
def ofWhole (digits : List Nat) : Mantissa :=
  digits.foldl (fun m digit =>
    if m.power = 0 ∧ m.fits digit then { m with value := 10 * m.value + digit }
    else { m with power := m.power + 1 }) {}

/-- The digits behind the point, until one does not fit. -/
def addFraction (m : Mantissa) : List Nat → Mantissa
  | [] => m
  | digit :: digits =>
    if m.fits digit then
      addFraction ⟨10 * m.value + digit, m.power - 1⟩ digits
    else m

end Mantissa

namespace Double

/-- A double times a power of ten, of which only those up to 308 exist; lower powers are taken in
steps. What becomes too large for a double is no number. -/
def scale (x : Double) (power : Int) : Option Double :=
  if power.natAbs ≤ 308 then
    if 0 ≤ power then
      let y := x.mul (ofNat (Nat.pow 10 power.natAbs))
      if y.isFinite then some y else none
    else some (x.div (ofNat (Nat.pow 10 power.natAbs)))
  else if x.isZero then some x
  else if 0 ≤ power then none
  else scale (x.div (ofNat (Nat.pow 10 308))) (power + 308)
termination_by power.natAbs
decreasing_by omega

/-- The double of a mantissa and a sign. -/
def ofMantissa (negative : Bool) (m : Mantissa) : Option Double :=
  ((ofNat m.value).scale m.power).map fun x => if negative then x.neg else x

end Double

end Collocation
