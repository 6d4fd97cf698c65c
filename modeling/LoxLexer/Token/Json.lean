import LoxLexer.Token.Basic
import LoxLexer.Json.Layout

/-!
# Tokens as JSON

A token is a record of its kind's name, its lexeme, its literal and its line. The literal is a bare
string or number; where there is none, or where the number is not finite, it is `null`.
-/

namespace LoxLexer

open Json (Layout quoted)

/-- A literal as JSON. -/
def Literal.json : Literal → String
  | text s => quoted s
  | number x => NumberStyle.json.write x

namespace Token

/-- The literal of a token as JSON. -/
def literalJson (t : Token) : String :=
  match t.literal with
  | none => "null"
  | some l => l.json

/-- A token as JSON, `depth` brackets deep. -/
def json (layout : Layout) (depth : Nat) (t : Token) : String :=
  layout.record depth
    [("kind", quoted t.kind.name), ("lexeme", quoted t.lexeme), ("literal", t.literalJson),
     ("line", toString t.line)]

/-- A list of tokens as JSON. -/
def listJson (layout : Layout) (ts : List Token) : String :=
  layout.list 0 (ts.map (json layout 1))

end Token

end LoxLexer
