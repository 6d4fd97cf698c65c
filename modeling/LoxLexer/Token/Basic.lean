import LoxLexer.Token.Kind
import LoxLexer.Number.Style

/-!
# Tokens

A token has a kind, the source text that it was read from, the value of a string or number literal,
and a line. Tokens compare by their parts, and number literals as numbers do, so that a token whose
literal is a NaN is not equal to itself.
-/

namespace LoxLexer

/-- The value of a string or number token. -/
inductive Literal where
  /-- The text between the quotes. -/
  | text (s : String)
  | number (x : Binary64)
deriving DecidableEq

namespace Literal

/-- The literal as a listing shows it. -/
def listed : Literal → String
  | text s => s
  | number x => NumberStyle.listing.write x

/-- Whether two literals are equal: texts as texts, numbers as numbers, and never one of each. -/
def same : Literal → Literal → Bool
  | text s, text t => s == t
  | number x, number y => x.same y
  | _, _ => false

end Literal

/-- Whether two optional literals are equal. -/
def sameLiteral : Option Literal → Option Literal → Bool
  | none, none => true
  | some a, some b => a.same b
  | _, _ => false

/-- A token. -/
structure Token where
  kind : Kind
  /-- The source text of the token. -/
  lexeme : String
  /-- The value of a string or a number. -/
  literal : Option Literal
  /-- The line that reading had come to at the end of the token, counted from one. -/
  line : Nat
deriving DecidableEq

namespace Token

/-- The literal as a listing shows it, `null` where there is none. -/
def literalText (t : Token) : String :=
  match t.literal with
  | none => "null"
  | some l => l.listed

/-- The token as a listing shows it: kind, lexeme and literal with a space between. -/
def text (t : Token) : String :=
  t.kind.name ++ " " ++ t.lexeme ++ " " ++ t.literalText

/-- Whether two tokens are equal. -/
def same (s t : Token) : Bool :=
  s.kind == t.kind && s.lexeme == t.lexeme && sameLiteral s.literal t.literal && s.line == t.line

/-- The token that stands for the end of a source that ends on this line. -/
def endOfSource (line : Nat) : Token :=
  ⟨.eof, "", none, line⟩

end Token

end LoxLexer
