import LoxLexer.Number.Binary64

/-!
# Shortest decimal digits

The shortest decimal of a binary64 number is the one with the fewest digits that still rounds to
the number, and the nearest such one. All arithmetic is exact: the reals that round to a number are
those between the middles of the gaps to its two neighbours, and the middles themselves belong to
them exactly if the significand is even.

The search goes through the decimal grids from coarse to fine. If any point of a grid lies in the
interval, then so does one of the number's two neighbours on that grid, so two tests a grid suffice.
-/

namespace LoxLexer

/-- A decimal number `digits * 10 ^ exponent`. -/
structure Decimal where
  digits : Nat
  exponent : Int
deriving DecidableEq

/-- Where the middle between two decimals goes. -/
inductive Tie where
  /-- To the larger one. -/
  | up
  /-- To the one with the even last digit. -/
  | even
deriving DecidableEq

namespace Binary64

/-- The interval of reals that round to a finite number, in quarters of its last binary place: the
lower end, the number itself and the upper end. Below a power of two the gap is half as wide. -/
def quarters (x : Binary64) : Nat × Nat × Nat :=
  let m := 4 * x.significand
  let lower := if x.fractionField = 0 && 1 < x.exponentField then m - 1 else m - 2
  (lower, m, m + 2)

/-- Comparison of `a` quarters of the last binary place of `x` with `d * 10 ^ p`. -/
def compareQuarters (x : Binary64) (a : Nat) (d : Nat) (p : Int) : Ordering :=
  let s := x.scale - 2
  compare (a * twoTo s.toNat * tenTo (-p).toNat) (d * tenTo p.toNat * twoTo (-s).toNat)

/-- Whether the decimal `d * 10 ^ p` rounds to `x`. -/
def roundsHere (x : Binary64) (d : Nat) (p : Int) : Bool :=
  let (lower, _, upper) := x.quarters
  let inclusive := x.significand % 2 == 0
  let below := x.compareQuarters lower d p
  let above := x.compareQuarters upper d p
  (below == .lt || (inclusive && below == .eq)) && (above == .gt || (inclusive && above == .eq))

/-- The largest `d` for which `d * 10 ^ p` is no more than the magnitude of `x`. -/
def floorAt (x : Binary64) (p : Int) : Nat :=
  (x.ratio.1 * tenTo (-p).toNat) / (x.ratio.2 * tenTo p.toNat)

/-- The nearer of `d * 10 ^ p` and the next point of the grid, for `x` between the two. -/
def nearerAt (tie : Tie) (x : Binary64) (d : Nat) (p : Int) : Nat :=
  -- twice the magnitude against the sum of the two points
  match x.compareQuarters (2 * (4 * x.significand)) (2 * d + 1) p with
  | .lt => d
  | .gt => d + 1
  | .eq => if tie = .even && d % 2 == 0 then d else d + 1

/-- The point of the grid of `10 ^ p` that stands for `x`, if one rounds to it. -/
def pointAt? (tie : Tie) (x : Binary64) (p : Int) : Option Nat :=
  let d := x.floorAt p
  match x.roundsHere d p, x.roundsHere (d + 1) p with
  | true, true => some (x.nearerAt tie d p)
  | true, false => some d
  | false, true => some (d + 1)
  | false, false => none

/-- The first hit on the grids `10 ^ p`, `10 ^ (p - 1)`, and so on, over `n` grids. -/
def searchFrom (tie : Tie) (x : Binary64) (p : Int) : Nat → Decimal
  | 0 => ⟨x.floorAt p, p⟩
  | n + 1 =>
    match x.pointAt? tie p with
    | some d => ⟨d, p⟩
    | none => searchFrom tie x (p - 1) n

/-- A power of ten above the magnitude of `x` and all that rounds to it: `30103 / 100000` is just
above the logarithm of two. -/
def gridAbove (x : Binary64) : Int :=
  ((x.significand.log2 : Int) + 2 + x.scale) * 30103 / 100000 + 1

/-- The shortest decimal that rounds to the magnitude of a finite number, and the nearest of those.
Seventeen digits always suffice, and the first grid is at most two places above the first digit. -/
def shortest (tie : Tie) (x : Binary64) : Decimal :=
  if x.significand = 0 then ⟨0, 0⟩ else searchFrom tie x x.gridAbove 22

end Binary64

end LoxLexer
