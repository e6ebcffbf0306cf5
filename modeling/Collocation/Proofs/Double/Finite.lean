import Collocation.Double.Scan
import Mathlib.Data.Nat.Init

/-!
# Doubles that are read are finite

What is written by a whole number of sixty-four bits and a power of ten becomes a finite double, or
none. The whole number is below `2 ^ 64`, and so is what comes of it when it is divided by powers of
ten; only when it is multiplied can it become too large, and then it is refused.
-/

set_option autoImplicit false

namespace Collocation

/-- A quotient is rounded to one of the two whole numbers about it. -/
theorem roundDiv_bounds (halves : Halves) (num den : Nat) :
    num / den ≤ roundDiv halves num den ∧ roundDiv halves num den ≤ num / den + 1 := by
  simp only [roundDiv]
  split <;> omega

namespace Double

/-! ## Powers of two above a quotient -/

/-- The quotient of two whole numbers is less than a power of two. -/
def Below (num den : Nat) (exponent : Int) : Prop :=
  num * Nat.pow 2 (-exponent).toNat < den * Nat.pow 2 exponent.toNat

/-- The exponent may be parted in any way into one on each side. -/
theorem below_iff {num den : Nat} {exponent : Int} (left right : Nat)
    (h : (right : Int) - left = exponent) :
    Below num den exponent ↔ num * Nat.pow 2 left < den * Nat.pow 2 right := by
  obtain ⟨more, rfl, rfl⟩ : ∃ more, left = (-exponent).toNat + more ∧
      right = exponent.toNat + more :=
    ⟨left - (-exponent).toNat, by omega, by omega⟩
  have hAdd (n : Nat) : Nat.pow 2 (n + more) = Nat.pow 2 n * Nat.pow 2 more := Nat.pow_add ..
  have hPos : 0 < Nat.pow 2 more := Nat.pow_pos (by decide)
  rw [Below, hAdd, hAdd, ← Nat.mul_assoc, ← Nat.mul_assoc, Nat.mul_lt_mul_right hPos]

/-- What is below a power of two is below a larger one. -/
theorem Below.mono {num den : Nat} {exponent larger : Int} (h : Below num den exponent)
    (hLe : exponent ≤ larger) : Below num den larger := by
  have hPow : Nat.pow 2 exponent.toNat ≤ Nat.pow 2 (exponent.toNat + (larger - exponent).toNat) :=
    Nat.pow_le_pow_right (by decide) (Nat.le_add_right _ _)
  rw [below_iff (-exponent).toNat (exponent.toNat + (larger - exponent).toNat) (by omega)]
  exact Nat.lt_of_lt_of_le h (Nat.mul_le_mul_left den hPow)

/-- Where the exponent is a natural number, the power stands on the side of the denominator. -/
theorem below_natCast {num den : Nat} (k : Nat) : Below num den k ↔ num < den * Nat.pow 2 k := by
  have hZero : num * Nat.pow 2 0 = num := Nat.mul_one num
  rw [below_iff 0 k (by omega), hZero]

/-- A quotient is below the power of two that follows its binary logarithm. -/
theorem below_floorLog2 {num den : Nat} (hDen : 0 < den) :
    Below num den (floorLog2 num den + 1) := by
  have hUpper : num < Nat.pow 2 (num.log2 + 1) := Nat.lt_log2_self
  have hLower : Nat.pow 2 den.log2 ≤ den := Nat.log2_self_le (Nat.ne_of_gt hDen)
  simp only [floorLog2]
  split
  · rw [below_iff den.log2 (num.log2 + 1) (by omega), Nat.mul_comm den]
    exact Nat.mul_lt_mul_of_lt_of_le hUpper hLower hDen
  · next h =>
    rw [Int.sub_add_cancel]
    exact Nat.not_le.1 h

/-- A quotient is not below the power of its binary logarithm. -/
theorem not_below_floorLog2 {num den : Nat} (hNum : 0 < num) :
    ¬ Below num den (floorLog2 num den) := by
  have hUpper : den < Nat.pow 2 (den.log2 + 1) := Nat.lt_log2_self
  have hLower : Nat.pow 2 num.log2 ≤ num := Nat.log2_self_le (Nat.ne_of_gt hNum)
  simp only [floorLog2]
  split
  · next h => exact Nat.not_lt.2 h
  · rw [below_iff (den.log2 + 1) num.log2 (by omega), Nat.mul_comm num]
    exact Nat.not_lt.2 (Nat.mul_le_mul (Nat.le_of_lt hUpper) hLower)

/-- The logarithm lies below the exponents of all larger powers. -/
theorem floorLog2_lt_iff {num den : Nat} (hNum : 0 < num) (hDen : 0 < den) {exponent : Int} :
    floorLog2 num den < exponent ↔ Below num den exponent :=
  ⟨fun h => (below_floorLog2 hDen).mono h, fun h => Int.not_le.1 fun hLe =>
    not_below_floorLog2 hNum (h.mono hLe)⟩

/-! ## The nearest double -/

/-- The hidden bit as a number. -/
theorem hiddenBit_eq : hiddenBit = 4503599627370496 := by decide

/-- The bits of infinity, by the hidden bit: all exponents, and no fraction. -/
theorem infiniteBits_eq : infiniteBits = 2047 * hiddenBit := rfl

/-- The bits of the double nearest to a quotient, from the power of two below it. -/
theorem nearestBits_bounds {num den : Nat} (hNum : 0 < num) (hDen : 0 < den) (k : Nat) :
    (Below num den k → nearestBits num den ≤ (k + 1023) * hiddenBit) ∧
      (¬ Below num den k → k ≤ 1023 → (k + 1023) * hiddenBit ≤ nearestBits num den) := by
  rw [← floorLog2_lt_iff hNum hDen, nearestBits, if_neg (Nat.ne_of_gt hNum)]
  have hBelow : Below num den (floorLog2 num den + 1) := below_floorLog2 hDen
  have hNot : ¬ Below num den (floorLog2 num den) := not_below_floorLog2 hNum
  generalize floorLog2 num den = log at hBelow hNot ⊢
  simp only
  obtain ⟨e, he⟩ : ∃ e, e = max (log - 52) (-1074) := ⟨_, rfl⟩
  rw [← he]
  obtain ⟨hDown, hUp⟩ := roundDiv_bounds .toEven (num * Nat.pow 2 (-e).toNat)
    (den * Nat.pow 2 e.toNat)
  have hDenPos : 0 < den * Nat.pow 2 e.toNat := Nat.mul_pos hDen (Nat.pow_pos (by decide))
  -- The significand has fifty-three bits, and all of them if the double is not too small.
  have hQuotient : num * Nat.pow 2 (-e).toNat / (den * Nat.pow 2 e.toNat) < 2 * hiddenBit := by
    have h := (below_iff (-e).toNat (e.toNat + 53) (by omega)).1
      (hBelow.mono (by omega : _ ≤ e + 53))
    refine Nat.div_lt_of_lt_mul (Nat.lt_of_lt_of_eq h ?_)
    have hAdd : Nat.pow 2 (e.toNat + 53) = Nat.pow 2 e.toNat * Nat.pow 2 53 := Nat.pow_add ..
    rw [hAdd, ← Nat.mul_assoc]
    rfl
  have hFull : 0 ≤ log → hiddenBit ≤ num * Nat.pow 2 (-e).toNat / (den * Nat.pow 2 e.toNat) := by
    intro hLog
    rw [below_iff (-e).toNat (e.toNat + 52) (by omega), Nat.not_lt] at hNot
    refine (Nat.le_div_iff_mul_le hDenPos).2 (Nat.le_trans (Nat.le_of_eq ?_) hNot)
    have hAdd : Nat.pow 2 (e.toNat + 52) = Nat.pow 2 e.toNat * Nat.pow 2 52 := Nat.pow_add ..
    rw [hAdd]
    change hiddenBit * (den * Nat.pow 2 e.toNat) = den * (Nat.pow 2 e.toNat * hiddenBit)
    ac_rfl
  rw [infiniteBits_eq]
  rw [hiddenBit_eq] at hQuotient hFull ⊢
  generalize num * Nat.pow 2 (-e).toNat / (den * Nat.pow 2 e.toNat) = quotient at *
  omega

/-! ## Sizes -/

/-- The bits of a double without that of its sign. -/
def magnitude (x : Double) : Nat :=
  x.bits.toNat % signBit

/-- The bit of the sign, by the hidden bit. -/
theorem signBit_eq : signBit = 2048 * hiddenBit := by decide

/-- The exponent of a double is its size without the bits of the fraction. -/
theorem exponentField_eq (x : Double) : x.exponentField = x.magnitude / hiddenBit := by
  rw [exponentField, magnitude, signBit_eq, hiddenBit_eq, maxField]
  omega

/-- The size of a double is what its bits say without the sign. -/
theorem magnitude_ofBits {negative : Bool} {bits : Nat} (h : bits < signBit) :
    (ofBits negative bits).magnitude = bits := by
  rw [signBit_eq, hiddenBit_eq] at h
  simp only [magnitude, ofBits, UInt64.toNat_ofNat', signBit_eq, hiddenBit_eq]
  cases negative <;> simp <;> omega

/-- What lies below the infinities is finite. -/
theorem isFinite_iff_magnitude {x : Double} :
    x.isFinite = true ↔ x.magnitude < infiniteBits := by
  have hSize : x.magnitude < signBit := Nat.mod_lt _ (by decide)
  rw [isFinite, exponentField_eq, bne_iff_ne, infiniteBits_eq, maxField]
  rw [signBit_eq, hiddenBit_eq] at hSize
  rw [hiddenBit_eq]
  omega

/-- The negative of a double is finite just if the double is. -/
theorem isFinite_neg {x : Double} : x.neg.isFinite = x.isFinite := by
  have hMagnitude : x.neg.magnitude = x.magnitude := magnitude_ofBits (Nat.mod_lt _ (by decide))
  rw [Bool.eq_iff_iff, isFinite_iff_magnitude, isFinite_iff_magnitude, hMagnitude]

/-- The magnitude of the double nearest to a quotient. -/
theorem magnitude_nearest (negative : Bool) (num den : Nat) :
    (nearest negative num den).magnitude = nearestBits num den := by
  refine magnitude_ofBits ?_
  have hInfinite : infiniteBits < signBit := by decide
  rw [nearestBits]
  split
  · decide
  · exact Nat.lt_of_le_of_lt (Nat.min_le_right _ _) hInfinite

/-- The size of a double is at most `2 ^ 64`. -/
def Moderate (x : Double) : Prop :=
  x.magnitude ≤ 1087 * hiddenBit

/-- A moderate double is finite. -/
theorem Moderate.isFinite {x : Double} (h : x.Moderate) : x.isFinite = true := by
  rw [isFinite_iff_magnitude, infiniteBits_eq]
  rw [Moderate] at h
  rw [hiddenBit_eq] at h ⊢
  omega

/-- What is nearest to a quotient below 2 ^ 64 is moderate. -/
theorem moderate_nearest {negative : Bool} {num den : Nat} (hDen : 0 < den)
    (h : Below num den (64 : Nat)) : (nearest negative num den).Moderate := by
  rw [Moderate, magnitude_nearest]
  rcases Nat.eq_zero_or_pos num with rfl | hNum
  · exact Nat.zero_le _
  · exact (nearestBits_bounds hNum hDen 64).1 h

/-- A word of sixty-four bits is below 2 ^ 64. -/
theorem below_word {n : Nat} (h : n < UInt64.size) : Below n 1 (64 : Nat) := by
  rw [below_natCast]
  change n < 1 * UInt64.size
  rwa [Nat.one_mul]

/-- A word as a double is moderate. -/
theorem moderate_ofNat {n : Nat} (h : n < UInt64.size) : (ofNat n).Moderate :=
  moderate_nearest Nat.one_pos (below_word h)

/-- A whole number of sixty-four bits is a finite double. -/
theorem isFinite_ofInt {n : Int} (h : n.natAbs < UInt64.size) : (ofInt n).isFinite = true :=
  (moderate_nearest Nat.one_pos (below_word h)).isFinite

/-! ## Quotients -/

/-- The denominator of a double as a quotient is positive. -/
theorem ratio_pos (x : Double) : 0 < x.ratio.2 :=
  Nat.pow_pos (by decide)

/-- A moderate double is a quotient below 2 ^ 65. -/
theorem Moderate.below_ratio {x : Double} (h : x.Moderate) :
    Below x.ratio.1 x.ratio.2 (65 : Nat) := by
  have hField := x.exponentField_eq
  have hFraction : x.fraction < hiddenBit := Nat.mod_lt _ (by decide)
  rw [Moderate] at h
  rw [hiddenBit_eq] at h hField hFraction
  have hSignificand : x.significand < Nat.pow 2 53 := by
    change x.significand < 9007199254740992
    rw [significand, hiddenBit_eq]
    split <;> omega
  have hExponent : 53 + x.exponent.toNat ≤ (-x.exponent).toNat + 65 := by
    rw [exponent]
    omega
  rw [below_natCast, ratio]
  calc x.significand * Nat.pow 2 x.exponent.toNat
      < Nat.pow 2 53 * Nat.pow 2 x.exponent.toNat :=
        Nat.mul_lt_mul_of_pos_right hSignificand (Nat.pow_pos (by decide))
    _ = Nat.pow 2 (53 + x.exponent.toNat) := (Nat.pow_add ..).symm
    _ ≤ Nat.pow 2 ((-x.exponent).toNat + 65) := Nat.pow_le_pow_right (by decide) hExponent
    _ = Nat.pow 2 (-x.exponent).toNat * Nat.pow 2 65 := Nat.pow_add ..

/-- From two on, the significand of a double is no less than what its exponent divides it by. -/
theorem not_below_ratio {x : Double} (h : 1024 * hiddenBit ≤ x.magnitude) :
    ¬ Below x.ratio.1 x.ratio.2 (1 : Nat) := by
  have hField := x.exponentField_eq
  rw [hiddenBit_eq] at h hField
  have hSignificand : Nat.pow 2 52 ≤ x.significand := by
    change 4503599627370496 ≤ x.significand
    rw [significand, hiddenBit_eq]
    split <;> omega
  have hExponent : (-x.exponent).toNat + 1 ≤ 52 + x.exponent.toNat := by
    rw [exponent]
    omega
  rw [below_natCast, Nat.not_lt, ratio]
  calc Nat.pow 2 (-x.exponent).toNat * Nat.pow 2 1
      = Nat.pow 2 ((-x.exponent).toNat + 1) := (Nat.pow_add ..).symm
    _ ≤ Nat.pow 2 (52 + x.exponent.toNat) := Nat.pow_le_pow_right (by decide) hExponent
    _ = Nat.pow 2 52 * Nat.pow 2 x.exponent.toNat := Nat.pow_add ..
    _ ≤ x.significand * Nat.pow 2 x.exponent.toNat := Nat.mul_le_mul_right _ hSignificand

/-- Divided by two or more, a double of moderate size is one still. -/
theorem Moderate.div {x y : Double} (hx : x.Moderate) (hy : 1024 * hiddenBit ≤ y.magnitude) :
    (x.div y).Moderate := by
  have hBelow := (below_natCast 65).1 hx.below_ratio
  have hNot := not_below_ratio hy
  rw [below_natCast, Nat.not_lt] at hNot
  have hxPos := x.ratio_pos
  have hyPos := y.ratio_pos
  have hNumPos : 0 < y.ratio.1 := Nat.lt_of_lt_of_le (Nat.mul_pos hyPos (by decide)) hNot
  refine moderate_nearest (Nat.mul_pos hxPos hNumPos) ((below_natCast 64).2 ?_)
  calc x.ratio.1 * y.ratio.2
      < x.ratio.2 * Nat.pow 2 65 * y.ratio.2 := Nat.mul_lt_mul_of_pos_right hBelow hyPos
    _ = x.ratio.2 * (y.ratio.2 * Nat.pow 2 1) * Nat.pow 2 64 := by
      have hPow : Nat.pow 2 65 = Nat.pow 2 1 * Nat.pow 2 64 := by decide
      rw [hPow]
      ac_rfl
    _ ≤ x.ratio.2 * y.ratio.1 * Nat.pow 2 64 :=
      Nat.mul_le_mul_right _ (Nat.mul_le_mul_left _ hNot)

/-- A power of ten is two or more, but for the power of zero. -/
theorem le_magnitude_ofNat {power : Nat} (h : 0 < power) :
    1024 * hiddenBit ≤ (ofNat (Nat.pow 10 power)).magnitude := by
  rw [ofNat, magnitude_nearest]
  have hTen : Nat.pow 10 1 ≤ Nat.pow 10 power := Nat.pow_le_pow_right (Nat.succ_pos 9) h
  have hPos : 0 < Nat.pow 10 power := Nat.lt_of_lt_of_le (by decide) hTen
  refine (nearestBits_bounds hPos Nat.one_pos 1).2 ?_ (by decide)
  rw [below_natCast, Nat.not_lt]
  exact Nat.le_trans (by decide) hTen

/-! ## Decimals -/

/-- Scaled by a power of ten, a double of moderate size is finite, if it is anything. -/
theorem isFinite_of_scale {x y : Double} {power : Int} (hx : x.Moderate)
    (h : x.scale power = some y) : y.isFinite = true := by
  fun_induction scale x power with
  | case1 _ _ _ _ _ hFinite => exact Option.some.inj h ▸ hFinite
  | case2 | case5 => cases h
  | case3 x power _ hNegative =>
    cases h
    exact (hx.div (le_magnitude_ofNat (by omega))).isFinite
  | case4 =>
    cases h
    exact hx.isFinite
  | case6 x power _ _ _ ih =>
    refine ih ?_ h
    generalize hLimit : 308 = limit
    exact hx.div (le_magnitude_ofNat (by omega))

end Double

namespace Mantissa

/-- A mantissa that is a word stays one when the digits of a fraction are added, as no more are than
fit. -/
theorem value_addFraction {m : Mantissa} (h : m.value < UInt64.size) (digits : List Nat) :
    (m.addFraction digits).value < UInt64.size := by
  induction digits generalizing m with
  | nil => exact h
  | cons digit digits ih =>
    rw [addFraction]
    split
    · next hFits => exact ih (of_decide_eq_true hFits)
    · exact h

/-- The digits of a whole part make a mantissa that is a word. -/
theorem value_ofWhole (digits : List Nat) : (ofWhole digits).value < UInt64.size := by
  have hFold (m : Mantissa) (h : m.value < UInt64.size) :
      (digits.foldl (fun m digit =>
        if m.power = 0 ∧ m.fits digit then { m with value := 10 * m.value + digit }
        else { m with power := m.power + 1 }) m).value < UInt64.size := by
    induction digits generalizing m with
    | nil => exact h
    | cons digit digits ih =>
      rw [List.foldl_cons]
      apply ih
      split
      · next hFits => exact of_decide_eq_true hFits.2
      · exact h
  exact hFold {} (by decide)

end Mantissa

/-- The double of a mantissa is finite, if there is one. -/
theorem Double.isFinite_of_ofMantissa {negative : Bool} {m : Mantissa} {x : Double}
    (hValue : m.value < UInt64.size) (h : ofMantissa negative m = some x) : x.isFinite = true := by
  obtain ⟨y, hScale, rfl⟩ := Option.map_eq_some_iff.1 h
  have hFinite := isFinite_of_scale (moderate_ofNat hValue) hScale
  split
  · rw [isFinite_neg, hFinite]
  · exact hFinite

end Collocation
