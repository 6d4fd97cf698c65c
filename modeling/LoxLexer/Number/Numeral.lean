import LoxLexer.Text.Alphabet
import LoxLexer.Number.Binary64

/-!
# Decimal numerals

A numeral is a run of digits, then perhaps a point with further digits (or none), then perhaps an
exponent: a letter `e`, a sign or none, and at least one digit. `Numeral.read` takes the longest
numeral at the front of a text that begins with a digit and hands back what it leaves over, and
`Numeral.value` is the binary64 number nearest to it.

* `Numeral.read_append`: the text of the numeral and what is left over are the text read.
* An exponent without digits is not part of a numeral: `2.5e-` reads as `2.5`.
-/

namespace LoxLexer

/-- An exponent as it is written. -/
structure Exponent where
  /-- The letter, `e` or `E`. -/
  letter : Char
  /-- The sign, if one is written. -/
  sign : Option Char
  /-- The digits. -/
  digits : List Char
deriving DecidableEq

namespace Exponent

/-- The exponent as text. -/
def text (x : Exponent) : List Char :=
  x.letter :: (x.sign.toList ++ x.digits)

/-- The exponent as a number. -/
def value (x : Exponent) : Int :=
  if x.sign = some '-' then -(digitsValue 0 x.digits : Int) else digitsValue 0 x.digits

/-- A sign at the front of a text, and the text after it. -/
def readSign : List Char → Option Char × List Char
  | [] => (none, [])
  | c :: cs => if c == '+' || c == '-' then (some c, cs) else (none, c :: cs)

/-- An exponent at the front of a text, if there is a complete one. -/
def read? : List Char → Option (Exponent × List Char)
  | [] => none
  | c :: cs =>
    if c == 'e' || c == 'E' then
      let (sign, rest) := readSign cs
      if (rest.takeWhile isDigit).isEmpty then none
      else some (⟨c, sign, rest.takeWhile isDigit⟩, rest.dropWhile isDigit)
    else none

theorem readSign_append (cs : List Char) : (readSign cs).1.toList ++ (readSign cs).2 = cs := by
  cases cs with
  | nil => rfl
  | cons c cs => by_cases h : c = '+' ∨ c = '-' <;> simp [readSign, h]

theorem text_append_of_read? {cs rest : List Char} {x : Exponent}
    (h : read? cs = some (x, rest)) : x.text ++ rest = cs := by
  cases cs with
  | nil => simp [read?] at h
  | cons c cs =>
    have hs := readSign_append cs
    by_cases hc : c = 'e' ∨ c = 'E' <;> simp [read?, hc] at h
    obtain ⟨_, rfl, rfl⟩ := h
    simp only [text, List.cons_append, List.append_assoc, List.takeWhile_append_dropWhile, hs]

end Exponent

/-- A decimal numeral as it is written. -/
structure Numeral where
  /-- The digits before the point. -/
  whole : List Char
  /-- The digits after the point, if there is a point. -/
  fraction : Option (List Char)
  /-- The exponent, if there is one. -/
  exponent : Option Exponent
deriving DecidableEq

namespace Numeral

/-- The numeral as text. -/
def text (n : Numeral) : List Char :=
  n.whole ++ (match n.fraction with | none => [] | some ds => '.' :: ds)
    ++ (match n.exponent with | none => [] | some x => x.text)

/-- The binary64 number nearest to the numeral. -/
def value (n : Numeral) : Binary64 :=
  let fraction := n.fraction.getD []
  let exponent := match n.exponent with | none => 0 | some x => x.value
  Binary64.ofDecimal (digitsValue (digitsValue 0 n.whole) fraction) (exponent - fraction.length)

/-- A point and the digits after it at the front of a text, if there is a point. -/
def readFraction : List Char → Option (List Char) × List Char
  | '.' :: cs => (some (cs.takeWhile isDigit), cs.dropWhile isDigit)
  | cs => (none, cs)

/-- The longest numeral at the front of a text, and the text after it. Where the text begins with
no digit, the numeral has no digits before the point. -/
def read (cs : List Char) : Numeral × List Char :=
  let (fraction, rest) := readFraction (cs.dropWhile isDigit)
  match Exponent.read? rest with
  | none => (⟨cs.takeWhile isDigit, fraction, none⟩, rest)
  | some (x, rest) => (⟨cs.takeWhile isDigit, fraction, some x⟩, rest)

theorem readFraction_append (cs : List Char) :
    (match (readFraction cs).1 with | none => [] | some ds => '.' :: ds) ++ (readFraction cs).2
      = cs := by
  fun_cases readFraction cs with
  | case1 cs => simp [List.takeWhile_append_dropWhile]
  | case2 => rfl

/-- Reading a numeral loses nothing: its text and what is left over are the text read. -/
theorem read_append (cs : List Char) : (read cs).1.text ++ (read cs).2 = cs := by
  have hf := readFraction_append (cs.dropWhile isDigit)
  have hw : cs.takeWhile isDigit ++ cs.dropWhile isDigit = cs := List.takeWhile_append_dropWhile
  simp only [read]
  split
  · simp only [text, List.append_nil, List.append_assoc, hf, hw]
  · next h =>
    have hx := Exponent.text_append_of_read? h
    simp only [text, List.append_assoc, hx, hf, hw]

end Numeral

end LoxLexer
