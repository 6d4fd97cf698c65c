/-!
# The alphabet of Lox

Which characters begin or continue a lexeme. Every class lies within ASCII: a character beyond it
is in none of them, whatever the character is used for elsewhere.
-/

namespace LoxLexer

/-- A decimal digit, `0` to `9`. -/
def isDigit (c : Char) : Bool :=
  '0' ≤ c && c ≤ '9'

/-- A character that can begin a word. The range runs from capital `A` to small `z`, and so takes
in the six characters `[`, `\`, `]`, `^`, `_` and the backtick, which lie between the alphabets. -/
def isWordStart (c : Char) : Bool :=
  'A' ≤ c && c ≤ 'z'

/-- A character that can continue a word: one that can begin it, or a digit. -/
def isWordPart (c : Char) : Bool :=
  isWordStart c || isDigit c

/-- The four characters that separate lexemes: space, tab, carriage return and line feed. -/
def isBlank (c : Char) : Bool :=
  c == ' ' || c == '\t' || c == '\r' || c == '\n'

/-- The value of a digit, and zero for any other character. -/
def digitValue (c : Char) : Nat :=
  if isDigit c then c.toNat - '0'.toNat else 0

/-- The number that a run of digits spells, read from the left after the digits of `acc`. -/
def digitsValue (acc : Nat) (ds : List Char) : Nat :=
  ds.foldl (fun n c => 10 * n + digitValue c) acc

/-! ## Small facts -/

theorem isWordPart_of_isWordStart {c : Char} (h : isWordStart c = true) : isWordPart c = true := by
  simp [isWordPart, h]

theorem isWordPart_of_isDigit {c : Char} (h : isDigit c = true) : isWordPart c = true := by
  simp [isWordPart, h]

/-- No digit begins a word. -/
theorem isWordStart_eq_false_of_isDigit {c : Char} (h : isDigit c = true) :
    isWordStart c = false := by
  simp only [isDigit, isWordStart, Bool.and_eq_true, decide_eq_true_eq, Bool.and_eq_false_iff,
    decide_eq_false_iff_not] at h ⊢
  exact Or.inl fun hA => absurd (Char.le_trans hA h.2) (by decide)

theorem isBlank_iff {c : Char} : isBlank c = true ↔ c = ' ' ∨ c = '\t' ∨ c = '\r' ∨ c = '\n' := by
  simp only [isBlank, Bool.or_eq_true, beq_iff_eq, or_assoc]

end LoxLexer
