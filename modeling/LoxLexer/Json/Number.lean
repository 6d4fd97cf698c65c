import LoxLexer.Json.Scalar

/-!
# Values of JSON numbers

A number without point and exponent is a whole number as long as it fits sixty-four bits, signed or
unsigned. All others are binary64 numbers, reached by a short cut that need not be the nearest: the
digits are gathered into a significand of sixty-four bits, which is then scaled by powers of ten that
are themselves rounded.

* A digit that does not fit the significand ends the gathering in its part of the number; digits of
  the whole part that are left out still count as places.
* A number that comes out infinite is out of range.
-/

namespace LoxLexer.Json

/-- The value of a JSON number. -/
inductive Number where
  | whole (n : Int)
  | float (x : Binary64)
deriving DecidableEq

/-- How a number is named in a message. -/
def Number.found : Number → Found
  | whole n => .whole n
  | float x => .float x

/-- Gather digits into a significand for as long as it stays below `2 ^ 64`: the significand and the
digits that are left out. -/
def gather (acc : Nat) : List Char → Nat × List Char
  | [] => (acc, [])
  | c :: cs =>
    if 10 * acc + digitValue c < twoTo 64 then gather (10 * acc + digitValue c) cs else (acc, c :: cs)

/-- A binary64 number times a power of ten, in steps of at most `10 ^ 308`, each of them rounded.
There is no value if a step up ends in infinity. -/
def scaleByTen (x : Binary64) (e : Int) : Option Binary64 :=
  if 308 < e then if x.isZero then some x else none
  else if 0 ≤ e then
    let y := x.mul (Binary64.ofDecimal 1 e)
    if y.isFinite then some y else none
  else if -308 ≤ e then some (x.div (Binary64.ofDecimal 1 (-e)))
  else if x.isZero then some x
  else scaleByTen (x.div (Binary64.ofDecimal 1 308)) (e + 308)
termination_by (-e).toNat
decreasing_by omega

/-- The digits of an exponent after the one that takes it past the greatest exponent, if one does. -/
def beyondGreatest? (acc : Nat) : List Char → Option (List Char)
  | [] => none
  | c :: cs =>
    if twoTo 31 ≤ 10 * acc + digitValue c then some cs
    else beyondGreatest? (10 * acc + digitValue c) cs

namespace Number

/-- The significand of a numeral and the power of ten that goes with it, before its exponent. -/
def significandOf (n : Numeral) : Nat × Int :=
  let (m, left) := gather 0 n.whole
  let fraction := n.fraction.getD []
  let (m, leftInFraction) := gather m fraction
  (m, (left.length : Int) - (fraction.length - leftInFraction.length : Int))

/-- The magnitude of a numeral as a binary64 number, if it is in range. -/
def magnitudeOf? (n : Numeral) : Option Binary64 :=
  let (m, e) := significandOf n
  match n.exponent with
  | none => scaleByTen (.ofNat m) e
  | some x =>
    if (beyondGreatest? 0 x.digits).isSome then
      if m != 0 && x.sign != some '-' then none else some .zero
    else scaleByTen (.ofNat m) (e + x.value)

/-- Whether a numeral is to be a whole number: it has neither point nor exponent, and all its digits
fit the significand. -/
def isWhole (n : Numeral) : Bool :=
  n.fraction.isNone && n.exponent.isNone && (gather 0 n.whole).2.isEmpty

/-- The value of a numeral, if it is in range. Minus zero is no whole number, and neither is what lies
below `-2 ^ 63`. -/
def ofNumeral? (negative : Bool) (n : Numeral) : Option Number :=
  let m := (gather 0 n.whole).1
  if isWhole n && !negative then some (.whole m)
  else if isWhole n && m != 0 && m ≤ twoTo 63 then some (.whole (-m))
  else (magnitudeOf? n).map fun x => .float (if negative then x.neg else x)

/-- How many bytes are left where a numeral is found to be out of range: those after it, and the
digits of its exponent after the one that settles it. -/
def leftOutOfRange (n : Numeral) (rest : List Char) : Nat :=
  byteSize rest
    + ((n.exponent.bind fun x => beyondGreatest? 0 x.digits).map List.length).getD 0

end Number

/-- A number, whose minus sign, if it has one, has been read. -/
def readNumber (negative : Bool) (cs : List Char) : Read Number :=
  match readNumeral .endOfValue cs with
  | .error f => .error f
  | .ok (n, rest) =>
    match Number.ofNumeral? negative n with
    | none => .error (.placed .numberOutOfRange (Number.leftOutOfRange n rest))
    | some x => .ok (x, rest)

end LoxLexer.Json
