import LoxLexer.Diagnostic.Template

/-!
# Diagnostics

What can be wrong with a source text, how it is worded, and the diagnostics that say so. A `Fault`
is the cause; a `Message` is a code with a template; a `Diagnostic` is a message with its arguments
filled in, and with the file and the line it is about, as far as they are known.
-/

namespace LoxLexer

/-- A diagnostic code with the template of its text. -/
structure Message where
  code : Nat
  template : String
deriving DecidableEq

namespace Message

/-- A character that begins no token. No quote follows the character. -/
def unexpectedCharacter : Message := ⟨1001, "Unexpected character '\x7b0\x7d"⟩

/-- A string without its closing quote. -/
def unterminatedString : Message := ⟨1002, "unterminated string."⟩

/-- A digit that neither goes on as a number nor ends the source. -/
def invalidNumberFormat : Message := ⟨1003, "invalid number format"⟩

end Message

/-- What is wrong with a span of source text. -/
inductive Fault where
  | unexpectedCharacter (c : Char)
  /-- A string that is not closed, or that is empty. -/
  | unterminatedString
  | invalidNumberFormat
deriving DecidableEq

namespace Fault

/-- The message for a fault. -/
def message : Fault → Message
  | unexpectedCharacter _ => .unexpectedCharacter
  | unterminatedString => .unterminatedString
  | invalidNumberFormat => .invalidNumberFormat

/-- The arguments of the message. -/
def arguments : Fault → List String
  | unexpectedCharacter c => [String.singleton c]
  | unterminatedString => []
  | invalidNumberFormat => []

/-- The wording of a fault. -/
def text (f : Fault) : String :=
  Template.fill f.message.template f.arguments

end Fault

/-- A diagnostic. -/
structure Diagnostic where
  /-- The file that the source came from. -/
  file : Option String
  /-- The line of the source, counted from one. -/
  line : Option Nat
  code : Nat
  /-- The wording. -/
  message : String
deriving DecidableEq

namespace Diagnostic

/-- A diagnostic about no place in particular. -/
def ofMessage (m : Message) (args : List String) : Diagnostic :=
  ⟨none, none, m.code, Template.fill m.template args⟩

/-- A diagnostic about a line. -/
def atLine (line : Nat) (m : Message) (args : List String) : Diagnostic :=
  { ofMessage m args with line := some line }

/-- The diagnostic for a fault in a line. -/
def ofFault (line : Nat) (f : Fault) : Diagnostic :=
  atLine line f.message f.arguments

/-- The file and the line of a diagnostic, as far as they are known, with what goes around them. -/
def place (d : Diagnostic) : String :=
  (match d.file with | none => "" | some f => f ++ ": ")
    ++ (match d.line with | none => "" | some n => "[line " ++ toString n ++ "] ")

/-- The diagnostic as text. -/
def text (d : Diagnostic) : String :=
  d.place ++ "error LOX" ++ toString d.code ++ ": " ++ d.message

/-- The same diagnostic about a file. -/
def withFile (file : String) (d : Diagnostic) : Diagnostic :=
  { d with file := some file }

/-- The order of reports: without a file before any file, files by their text, and then lines, of
which a missing one counts as zero. -/
def notAfter (a b : Diagnostic) : Bool :=
  match a.file, b.file with
  | none, some _ => true
  | some _, none => false
  | none, none => a.line.getD 0 ≤ b.line.getD 0
  | some f, some g => f < g || (f == g && a.line.getD 0 ≤ b.line.getD 0)

/-- The diagnostics in the order of reports, those that are equal in it as they were. -/
def sorted (ds : List Diagnostic) : List Diagnostic :=
  ds.mergeSort notAfter

end Diagnostic

end LoxLexer
