import LoxLexer.Text.Alphabet
import LoxLexer.Number.Shortest

/-!
# Number styles

How a binary64 number is written. A style says how the shortest digits break a tie, which exponents
are written out in places, whether a whole number shows all its digits, and what stands for what is
not finite. Two styles are in use: `NumberStyle.listing` for token listings and `NumberStyle.json`
for JSON.

* `NumberStyle.digitsOf_injective`: a natural number is told by its digits.
-/

namespace LoxLexer

/-- The decisions that fix how a number is written. -/
structure NumberStyle where
  /-- Which digits are shortest where two are equally near. -/
  tie : Tie
  /-- Whether a number with this scientific exponent is written out in places. -/
  positional : Int → Bool
  /-- Whether a whole number shows its own digits rather than the shortest ones. -/
  exactWhole : Bool
  /-- The text of infinity, before which minus infinity has its sign. -/
  infinity : String
  /-- The text of minus infinity. -/
  minusInfinity : String
  /-- The text of a NaN. -/
  nan : String

namespace NumberStyle

/-- Numbers in a token listing are always written out in places, and whole numbers exactly. -/
def listing : NumberStyle where
  tie := .up
  positional _ := true
  exactWhole := true
  infinity := "inf"
  minusInfinity := "-inf"
  nan := "NaN"

/-- Numbers in JSON are written out in places from `0.00001` up to sixteen digits before the point.
What is not finite has no JSON number and is written `null`. -/
def json : NumberStyle where
  tie := .even
  positional e := decide (-5 ≤ e ∧ e ≤ 15)
  exactWhole := false
  infinity := "null"
  minusInfinity := "null"
  nan := "null"

/-- The digits of a natural number. -/
def digitsOf (n : Nat) : List Char :=
  (toString n).toList

/-- A decimal written out in places, with at least one digit on each side of the point. -/
def inPlaces (d : Decimal) : List Char :=
  let ds := digitsOf d.digits
  if 0 ≤ d.exponent then ds ++ List.replicate d.exponent.toNat '0' ++ ['.', '0']
  else
    let places := (-d.exponent).toNat
    if places < ds.length then ds.take (ds.length - places) ++ '.' :: ds.drop (ds.length - places)
    else '0' :: '.' :: (List.replicate (places - ds.length) '0' ++ ds)

/-- A decimal with one digit before the point and a signed exponent. -/
def scientific (d : Decimal) : List Char :=
  let ds := digitsOf d.digits
  let e : Int := d.exponent + ds.length - 1
  ds.take 1 ++ (if ds.length = 1 then [] else '.' :: ds.drop 1)
    ++ ['e', if e < 0 then '-' else '+'] ++ digitsOf e.natAbs

/-- The scientific exponent of a decimal: the place of its first digit. -/
def leadingPlace (d : Decimal) : Int :=
  d.exponent + (digitsOf d.digits).length - 1

/-- The text of the magnitude of a finite number. -/
def writeMagnitude (style : NumberStyle) (x : Binary64) : List Char :=
  if style.exactWhole && x.isIntegral then inPlaces ⟨x.ratio.1 / x.ratio.2, 0⟩
  else
    let d := x.shortest style.tie
    if style.positional (leadingPlace d) then inPlaces d else scientific d

/-- The text of a number. -/
def write (style : NumberStyle) (x : Binary64) : String :=
  if x.isNaN then style.nan
  else if !x.isFinite then if x.isNegative then style.minusInfinity else style.infinity
  else String.ofList ((if x.isNegative then ['-'] else []) ++ style.writeMagnitude x)

/-! ## Small facts -/

theorem isDigit_of_mem_digitsOf {n : Nat} {c : Char} (h : c ∈ digitsOf n) : isDigit c = true := by
  rw [digitsOf, Nat.toString_eq_ofList_toDigits, String.toList_ofList] at h
  exact Nat.isDigit_of_mem_toDigits (by decide) (by decide) h

/-- Digits are read back as the number they were written for. -/
theorem digitsOf_injective {m n : Nat} (h : digitsOf m = digitsOf n) : m = n := by
  rw [digitsOf, digitsOf, Nat.toString_eq_ofList_toDigits, Nat.toString_eq_ofList_toDigits,
    String.toList_ofList, String.toList_ofList] at h
  rw [← Nat.ofDigitChars_ten_toDigits (n := m), h, Nat.ofDigitChars_ten_toDigits]

end NumberStyle

end LoxLexer
