import Mathlib.Algebra.Ring.Nat
import LoxLexer.Number.Binary64

/-!
# The bits of numbers

What the sixty-four bits say, in terms of the number that they are. The fields are quotients and remainders
of it, and so are the questions that are asked of them.

* `Binary64.isFinite_iff`, `Binary64.isNaN_eq_false_iff`, `Binary64.isNegative_eq_false_iff`: the questions.
* `Binary64.toNat_bits_ofMagnitude`, `Binary64.eq_of_toNat_bits_eq`: a number is told by its bits.
-/

namespace LoxLexer.Binary64

theorem exponentField_eq (x : Binary64) : x.exponentField = x.bits.toNat / 2 ^ 52 % 2 ^ 11 := rfl

theorem fractionField_eq (x : Binary64) : x.fractionField = x.bits.toNat % 2 ^ 52 := rfl

theorem infinityMagnitude_eq : infinityMagnitude = 2047 * 2 ^ 52 := rfl

theorem isFinite_iff (x : Binary64) : x.isFinite = true ↔ x.exponentField ≠ 2047 :=
  bne_iff_ne

theorem isNaN_eq_false_iff (x : Binary64) :
    x.isNaN = false ↔ (x.exponentField = 2047 → x.fractionField = 0) := by
  simp [isNaN]

theorem isNegative_eq_false_iff (x : Binary64) : x.isNegative = false ↔ x.bits.toNat < 2 ^ 63 := by
  rw [isNegative, decide_eq_false_iff_not, Nat.not_le]
  rfl

theorem significand_lt (x : Binary64) : x.significand < 2 ^ 53 := by
  have hfraction : x.fractionField < 2 ^ 52 := Nat.mod_lt _ (by decide)
  have h52 : twoTo 52 = 2 ^ 52 := rfl
  unfold significand
  split <;> omega

/-- The bits of a magnitude are the magnitude. -/
theorem toNat_bits_ofMagnitude {m : Nat} (h : m ≤ infinityMagnitude) :
    (ofMagnitude false m).bits.toNat = m := by
  rw [infinityMagnitude_eq] at h
  show (UInt64.ofNat (m + 0)).toNat = m
  rw [Nat.add_zero, UInt64.toNat_ofNat']
  apply Nat.mod_eq_of_lt
  omega

theorem eq_of_toNat_bits_eq {x y : Binary64} (h : x.bits.toNat = y.bits.toNat) : x = y := by
  cases x
  cases y
  exact congrArg mk (UInt64.toNat_inj.mp h)

end LoxLexer.Binary64
