import LoxLexer.Number.Numeral

/-!
# Number lexemes

The text that a number token takes up after its first digit. It is read one character at a time, and
the phase that reading has come to decides whether the lexeme goes on with the next character:

| phase | digit | `+` `-` | `.` | `e` `E` |
|---|---|---|---|---|
| `start` | `whole` | `whole` | `fraction` | |
| `whole` | `whole` | | `fraction` | |
| `fraction` | `fraction` | | | `letter` |
| `letter` | `exponent` | `exponent` | | |
| `exponent` | `exponent` | | | |

Where the table has no entry the lexeme ends before the character. A number lexeme can be longer than
the numeral that it begins with: in `1+2` the numeral is `1`, in `2.5e-` it is `2.5`. The value of the
token is that of the numeral.
-/

namespace LoxLexer.NumberLexeme

/-- Whether a character can begin a run of digits, which may have a sign. -/
def beginsRun (c : Char) : Bool :=
  isDigit c || c == '+' || c == '-'

/-- Whether a character is the letter of an exponent. -/
def isLetter (c : Char) : Bool :=
  c == 'e' || c == 'E'

/-- How far a number lexeme has come. -/
inductive Phase where
  /-- After the first digit. -/
  | start
  /-- Before the point. -/
  | whole
  /-- After the point. -/
  | fraction
  /-- After the letter of the exponent. -/
  | letter
  /-- After the first digit, or the sign, of the exponent. -/
  | exponent
deriving DecidableEq

/-- The phase after one more character, if the lexeme goes on with it. -/
def Phase.next? : Phase → Char → Option Phase
  | start, c => if beginsRun c then some whole else if c == '.' then some fraction else none
  | whole, c => if isDigit c then some whole else if c == '.' then some fraction else none
  | fraction, c => if isDigit c then some fraction else if isLetter c then some letter else none
  | letter, c => if beginsRun c then some exponent else none
  | exponent, c => if isDigit c then some exponent else none

/-- What a lexeme in some phase goes on with at the front of a text, and the text after it. -/
def Phase.split (p : Phase) : List Char → List Char × List Char
  | [] => ([], [])
  | c :: cs =>
    match p.next? c with
    | none => ([], c :: cs)
    | some q =>
      let (more, rest) := q.split cs
      (c :: more, rest)

/-- What a number lexeme takes up after its first digit, and the text after it. -/
def split (cs : List Char) : List Char × List Char :=
  Phase.start.split cs

/-- The value of a number lexeme: that of the numeral it begins with. -/
def value (lexeme : List Char) : Binary64 :=
  (Numeral.read lexeme).1.value

/-! ## Nothing is lost -/

theorem Phase.split_append (p : Phase) (cs : List Char) :
    (p.split cs).1 ++ (p.split cs).2 = cs := by
  induction cs generalizing p with
  | nil => rfl
  | cons c cs ih =>
    simp only [Phase.split]
    split
    · rfl
    · next q _ => exact congrArg (c :: ·) (ih q)

/-- A number lexeme and what follows it are the text that was split. -/
theorem split_append (cs : List Char) : (split cs).1 ++ (split cs).2 = cs :=
  Phase.start.split_append cs

end LoxLexer.NumberLexeme
