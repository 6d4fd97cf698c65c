import LoxLexer.Number.Power

/-!
# Binary64 numbers

The value of a number literal is an IEEE 754 binary64 number, kept as its sixty-four bits. This
module reads the bits (sign, significand, scale) and rounds an exact ratio of two natural numbers
to the nearest such number.

* A finite number is `significand * 2 ^ scale`, with its sign.
* `Binary64.ofRatio` rounds to nearest, ties to even, in exact natural arithmetic. The bits of a
  magnitude, read as a number, grow with the magnitude, so the rounded count of steps is the
  encoding itself.
* `Binary64.same` is the comparison of the standard: a NaN differs from everything, and the two
  zeros agree.
-/

namespace LoxLexer

/-- A binary64 number, kept as its bits. -/
structure Binary64 where
  /-- Sign, eleven bits of exponent and fifty-two bits of fraction, from the top down. -/
  bits : UInt64
deriving DecidableEq, Inhabited

namespace Binary64

/-! ## Reading the bits -/

/-- Whether the sign bit is set. -/
def isNegative (x : Binary64) : Bool :=
  twoTo 63 ≤ x.bits.toNat

/-- The eleven exponent bits. -/
def exponentField (x : Binary64) : Nat :=
  x.bits.toNat / twoTo 52 % twoTo 11

/-- The fifty-two fraction bits. -/
def fractionField (x : Binary64) : Nat :=
  x.bits.toNat % twoTo 52

/-- Whether the number is neither infinite nor a NaN. -/
def isFinite (x : Binary64) : Bool :=
  x.exponentField != 2047

/-- Whether the bits stand for no number. -/
def isNaN (x : Binary64) : Bool :=
  x.exponentField == 2047 && x.fractionField != 0

/-- Whether the number is one of the two zeros. -/
def isZero (x : Binary64) : Bool :=
  x.exponentField == 0 && x.fractionField == 0

/-- The whole number that a finite number is a multiple of a power of two of. -/
def significand (x : Binary64) : Nat :=
  if x.exponentField = 0 then x.fractionField else twoTo 52 + x.fractionField

/-- The power of two that goes with `significand`. -/
def scale (x : Binary64) : Int :=
  (max x.exponentField 1 : Nat) - 1075

/-- The magnitude of a finite number as a ratio of two natural numbers, the second positive. -/
def ratio (x : Binary64) : Nat × Nat :=
  if 0 ≤ x.scale then (x.significand * twoTo x.scale.toNat, 1)
  else (x.significand, twoTo (-x.scale).toNat)

/-- Whether a finite number is a whole number. -/
def isIntegral (x : Binary64) : Bool :=
  x.isFinite && x.ratio.1 % x.ratio.2 == 0

/-- Equality of numbers: a NaN equals nothing, and zero equals minus zero. -/
def same (x y : Binary64) : Bool :=
  !x.isNaN && !y.isNaN && (x == y || (x.isZero && y.isZero))

/-! ## Making numbers -/

/-- The number with these magnitude bits and this sign. -/
def ofMagnitude (negative : Bool) (magnitude : Nat) : Binary64 :=
  ⟨UInt64.ofNat (magnitude + if negative then twoTo 63 else 0)⟩

/-- The magnitude bits of infinity; those of every finite number are below. -/
def infinityMagnitude : Nat := 2047 * twoTo 52

/-- Positive zero. -/
def zero : Binary64 := ofMagnitude false 0

/-- Positive infinity. -/
def infinity : Binary64 := ofMagnitude false infinityMagnitude

/-- The number with its sign changed. -/
def neg (x : Binary64) : Binary64 :=
  ofMagnitude (!x.isNegative) (x.bits.toNat % twoTo 63)

/-- A quotient of natural numbers rounded to the nearest whole number, a tie to the even one. -/
def roundQuotient (num den : Nat) : Nat :=
  let q := num / den
  let r := num % den
  if 2 * r < den || (2 * r == den && q % 2 == 0) then q else q + 1

/-- The least scale, not below that of the smallest numbers, at which the positive ratio `num / den`
has no more than fifty-three binary digits before the point. -/
def scaleOfRatio (num den : Nat) : Int :=
  let k : Int := (num.log2 : Int) - den.log2
  let below : Bool :=
    if 0 ≤ k then num < den * twoTo k.toNat else num * twoTo (-k).toNat < den
  max (if below then k - 53 else k - 52) (-1074)

/-- The nearest number to `num / den`, a tie going to the even significand; what is too large
becomes infinite. -/
def ofRatio (num den : Nat) : Binary64 :=
  if num = 0 then zero
  else
    let s := scaleOfRatio num den
    let steps :=
      if 0 ≤ s then roundQuotient num (den * twoTo s.toNat)
      else roundQuotient (num * twoTo (-s).toNat) den
    ofMagnitude false (min ((s + 1074).toNat * twoTo 52 + steps) infinityMagnitude)

/-- The nearest number to a natural number. -/
def ofNat (n : Nat) : Binary64 :=
  ofRatio n 1

/-- The nearest number to `m * 10 ^ e`. A magnitude that is plainly too large or too small to have
a number of its own near it is decided without forming the power. -/
def ofDecimal (m : Nat) (e : Int) : Binary64 :=
  if m = 0 then zero
  else if 310 ≤ e then infinity
  else if (m.log2 : Int) + 1 + 3 * e < -1075 then zero
  else if 0 ≤ e then ofRatio (m * tenTo e.toNat) 1
  else ofRatio m (tenTo (-e).toNat)

/-- The product of two finite magnitudes, rounded once. -/
def mul (x y : Binary64) : Binary64 :=
  ofRatio (x.ratio.1 * y.ratio.1) (x.ratio.2 * y.ratio.2)

/-- The quotient of two finite magnitudes, rounded once; the second is not zero. -/
def div (x y : Binary64) : Binary64 :=
  ofRatio (x.ratio.1 * y.ratio.2) (x.ratio.2 * y.ratio.1)

/-! ## Small facts -/

theorem ratio_den_pos (x : Binary64) : 0 < x.ratio.2 := by
  unfold ratio
  split
  · exact Nat.one_pos
  · exact twoTo_pos _

/-- Equality of numbers is symmetric. -/
theorem same_comm (x y : Binary64) : x.same y = y.same x := by
  have h : (x == y) = (y == x) := by
    rw [Bool.eq_iff_iff, beq_iff_eq, beq_iff_eq]
    exact eq_comm
  simp only [same, h]
  cases x.isNaN <;> cases y.isNaN <;> cases x.isZero <;> cases y.isZero <;> simp

/-- A number equals itself exactly if it is no NaN. -/
theorem same_self (x : Binary64) : x.same x = !x.isNaN := by
  simp [same]

end Binary64

end LoxLexer
