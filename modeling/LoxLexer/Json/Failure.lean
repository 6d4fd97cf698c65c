import LoxLexer.Text.Alphabet
import LoxLexer.Text.Visible
import LoxLexer.Number.Style

/-!
# What can go wrong in JSON

Reading JSON stops at the first thing that is wrong. A failure is a cause with a place, and the place
is kept as the number of bytes that are left of the text: the reading functions see only what is
left, and so can name the place without counting from the start. `lineAndColumn` turns a place into
the line and the column that a message names.

Some causes come to light only once a whole value has been read (a member given twice, a list too
short, a name that is refused). They are kept without a place, with the text at which reading could
go on; whoever reads the enclosing bracket goes on to its end and puts the place there.
-/

namespace LoxLexer.Json

/-! ## §1 Causes -/

/-- What was found where something else was expected. -/
inductive Found where
  | null
  | boolean (b : Bool)
  | whole (n : Int)
  | float (x : Binary64)
  | string (s : String)
  | list
  | record
deriving DecidableEq

/-- How a value is named in a message. -/
def Found.text : Found → String
  | null => "null"
  | boolean b => "boolean `" ++ (if b then "true" else "false") ++ "`"
  | whole n => "integer `" ++ toString n ++ "`"
  | float x => "floating point `" ++ NumberStyle.json.write x ++ "`"
  | string s => "string " ++ Visible.quoted s
  | list => "sequence"
  | record => "map"

/-- Why a text is refused. -/
inductive Cause where
  | endOfValue | endOfList | endOfRecord | endOfString
  | expectedColon | expectedInList | expectedInRecord | expectedLiteral | expectedValue
  | invalidEscape | invalidNumber | numberOutOfRange | controlCharacter
  | nameNotString | loneSurrogate | cutSurrogate | trailingComma | trailingCharacters
  | wrongType (found : Found) (expected : String)
  | wrongLength (length : Nat) (expected : String)
  | duplicateMember (name : String)
  /-- A value that its reader has reasons of its own to refuse. -/
  | refused (reason : String)
deriving DecidableEq

/-- The wording of a cause. -/
def Cause.text : Cause → String
  | endOfValue => "EOF while parsing a value"
  | endOfList => "EOF while parsing a list"
  | endOfRecord => "EOF while parsing an object"
  | endOfString => "EOF while parsing a string"
  | expectedColon => "expected `:`"
  | expectedInList => "expected `,` or `]`"
  | expectedInRecord => "expected `,` or `\x7d`"
  | expectedLiteral => "expected ident"
  | expectedValue => "expected value"
  | invalidEscape => "invalid escape"
  | invalidNumber => "invalid number"
  | numberOutOfRange => "number out of range"
  | controlCharacter => "control character (\\u0000-\\u001F) found while parsing a string"
  | nameNotString => "key must be a string"
  | loneSurrogate => "lone leading surrogate in hex escape"
  | cutSurrogate => "unexpected end of hex escape"
  | trailingComma => "trailing comma"
  | trailingCharacters => "trailing characters"
  | wrongType found expected => "invalid type: " ++ found.text ++ ", expected " ++ expected
  | wrongLength n expected => "invalid length " ++ toString n ++ ", expected " ++ expected
  | duplicateMember name => "duplicate field `" ++ name ++ "`"
  | refused reason => reason

/-! ## §2 Places -/

/-- The number of bytes that a text takes up in UTF-8. -/
def byteSize : List Char → Nat
  | [] => 0
  | c :: cs => c.utf8Size + byteSize cs

/-- The line and the column of the place `p` bytes into a text, for a text that goes on at a given
line and column. The line counts the line feeds before the place, the column the bytes after the last
of them. -/
def lineAndColumnFrom (line column : Nat) : List Char → Nat → Nat × Nat
  | [], _ => (line, column)
  | c :: cs, p =>
    if p = 0 then (line, column)
    else if c = '\n' then lineAndColumnFrom (line + 1) 0 cs (p - 1)
    else if p < c.utf8Size then (line, column + p)
    else lineAndColumnFrom line (column + c.utf8Size) cs (p - c.utf8Size)

/-- The line, from one, and the column, from zero, of the place `p` bytes into a text. -/
def lineAndColumn (text : List Char) (p : Nat) : Nat × Nat :=
  lineAndColumnFrom 1 0 text p

/-- A reason to stop reading. -/
inductive Failure where
  /-- A cause at the place where so many bytes are left. -/
  | placed (cause : Cause) (left : Nat)
  /-- A cause whose place is the end of the enclosing bracket, and the text to look for it in. -/
  | unplaced (cause : Cause) (rest : List Char)
deriving DecidableEq

namespace Failure

/-- A cause at the beginning of what is left. -/
def here (cause : Cause) (rest : List Char) : Failure :=
  placed cause (byteSize rest)

/-- A cause just after the next byte, or at the end if there is none. -/
def next (cause : Cause) (rest : List Char) : Failure :=
  placed cause (byteSize rest - 1)

/-- The cause of a failure. -/
def cause : Failure → Cause
  | placed c _ => c
  | unplaced c _ => c

/-- How many bytes are left at the place of a failure. -/
def left : Failure → Nat
  | placed _ n => n
  | unplaced _ rest => byteSize rest

/-- The failure as a message about the text it arose in. -/
def message (text : List Char) (f : Failure) : String :=
  let (line, column) := lineAndColumn text (byteSize text - f.left)
  f.cause.text ++ " at line " ++ toString line ++ " column " ++ toString column

end Failure

/-- What reading gives: a value with the text after it, or a failure. -/
abbrev Read (α : Type) := Except Failure (α × List Char)

end LoxLexer.Json
