/-!
# Double-precision numbers

A double is held as its sixty-four bits. A finite one is `± significand · 2 ^ exponent`, both of
them whole numbers, so that everything said about it is exact arithmetic.
-/

set_option autoImplicit false

namespace Collocation

/-- A double-precision binary number, given by its bits. Equality is equality of the bits; the
comparison of values is `Double.sameValue`. -/
structure Double where
  bits : UInt64
deriving DecidableEq, Inhabited

namespace Double

/-- What the lowest bit of the exponent field counts, fifty-two bits up. -/
def hiddenBit : Nat := Nat.pow 2 52

/-- What the highest bit counts, which is that of the sign. -/
def signBit : Nat := Nat.pow 2 63

/-- The exponent field of what is not finite: all of its eleven bits are set. -/
def maxField : Nat := 2047

/-- The eleven bits of the exponent field. -/
def exponentField (x : Double) : Nat :=
  x.bits.toNat / hiddenBit % (maxField + 1)

/-- The fifty-two bits below the exponent field. -/
def fraction (x : Double) : Nat :=
  x.bits.toNat % hiddenBit

/-- Whether the sign bit is set, as it is for `-0.0` too. -/
def isNegative (x : Double) : Bool :=
  signBit ≤ x.bits.toNat

def isFinite (x : Double) : Bool :=
  x.exponentField != maxField

def isNaN (x : Double) : Bool :=
  !x.isFinite && x.fraction != 0

def isZero (x : Double) : Bool :=
  x.exponentField == 0 && x.fraction == 0

/-- The whole number in front of the power of two. -/
def significand (x : Double) : Nat :=
  if x.exponentField = 0 then x.fraction else hiddenBit + x.fraction

/-- The exponent of the power of two behind the significand. -/
def exponent (x : Double) : Int :=
  (max x.exponentField 1 : Nat) - 1075

/-- The bits of the infinities, without the sign. -/
def infiniteBits : Nat :=
  maxField * hiddenBit

/-- The double of a sign and of the sixty-three bits below it. -/
def ofBits (negative : Bool) (magnitude : Nat) : Double :=
  ⟨UInt64.ofNat (if negative then signBit + magnitude else magnitude)⟩

def infinity (negative : Bool) : Double :=
  ofBits negative infiniteBits

def nan : Double :=
  ofBits false (infiniteBits + hiddenBit / 2)

def zero : Double :=
  ofBits false 0

/-- The number of the same size and the other sign. -/
def neg (x : Double) : Double :=
  ofBits (!x.isNegative) (x.bits.toNat % signBit)

/-- Two doubles have the same value when they are the same number: the zeros of both signs do, and
what is not a number has the value of nothing, itself included. -/
def sameValue (x y : Double) : Bool :=
  !x.isNaN && !y.isNaN && (x == y || (x.isZero && y.isZero))

end Double

end Collocation
