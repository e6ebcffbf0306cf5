import Collocation.Double.Basic

/-!
# Rounding to the nearest double

A quotient of two whole numbers has a nearest double; of two that are equally near, the one with an
even significand is taken. Sums are not needed here: products, quotients and whole numbers are
rounded from their exact values.
-/

set_option autoImplicit false

namespace Collocation

/-- Which of its two neighbours an exact half is rounded to. -/
inductive Halves where
  | toEven
  | up
deriving DecidableEq

/-- Whether the half above `q` is rounded down to it. -/
def Halves.isDown (halves : Halves) (q : Nat) : Bool :=
  halves = .toEven && q % 2 = 0

/-- The whole number nearest to `num / den`. -/
def roundDiv (halves : Halves) (num den : Nat) : Nat :=
  let q := num / den
  let r := num % den
  if 2 * r < den ∨ (2 * r = den ∧ halves.isDown q) then q else q + 1

namespace Double

/-- The largest `k` with `2 ^ k ≤ num / den`, for positive `num` and `den`. -/
def floorLog2 (num den : Nat) : Int :=
  let guess : Int := num.log2 - den.log2
  if den * Nat.pow 2 guess.toNat ≤ num * Nat.pow 2 (-guess).toNat then guess else guess - 1

/-- The bits, without the sign, of the double nearest to `num / den`. What is too large for every
double becomes infinite. -/
def nearestBits (num den : Nat) : Nat :=
  if num = 0 then 0 else
    let e : Int := max (floorLog2 num den - 52) (-1074)
    let q := roundDiv .toEven (num * Nat.pow 2 (-e).toNat) (den * Nat.pow 2 e.toNat)
    min ((e + 1074).toNat * hiddenBit + q) infiniteBits

/-- The double nearest to `± num / den`. -/
def nearest (negative : Bool) (num den : Nat) : Double :=
  ofBits negative (nearestBits num den)

/-- The double nearest to a whole number. -/
def ofInt (n : Int) : Double :=
  nearest (n < 0) n.natAbs 1

def ofNat (n : Nat) : Double :=
  nearest false n 1

/-- The numerator and the denominator of the size of a finite double. -/
def ratio (x : Double) : Nat × Nat :=
  (x.significand * Nat.pow 2 x.exponent.toNat, Nat.pow 2 (-x.exponent).toNat)

/-- The rounded product of two finite doubles. -/
def mul (x y : Double) : Double :=
  nearest (x.isNegative != y.isNegative) (x.ratio.1 * y.ratio.1) (x.ratio.2 * y.ratio.2)

/-- The rounded quotient of two finite doubles, the second of them not zero. -/
def div (x y : Double) : Double :=
  nearest (x.isNegative != y.isNegative) (x.ratio.1 * y.ratio.2) (x.ratio.2 * y.ratio.1)

example : ofInt 1 = ⟨0x3FF0000000000000⟩ := by decide +kernel
example : ofInt (-3) = ⟨0xC008000000000000⟩ := by decide +kernel
example : nearest false 1 10 = ⟨0x3FB999999999999A⟩ := by decide +kernel
example : nearest false 1 (2 ^ 1074) = ⟨1⟩ := by decide +kernel
example : nearest false 1 (2 ^ 1075) = zero := by decide +kernel
example : nearest true (2 ^ 1024) 1 = infinity true := by decide +kernel

end Double

end Collocation
