/-!
# Styled text

Text in pieces, each with the styles it has on a terminal that shows colours. A piece with styles is
written as their codes, its text and the code that ends all styles; a piece without any is just its
text. Where colours are not shown, every piece is just its text.
-/

namespace LoxLexer.Command

/-- A style of text on a terminal. -/
inductive Style where
  | red | cyan | bold
deriving DecidableEq

/-- The code that begins a style. -/
def Style.code : Style → String
  | red => "\x1b[31m"
  | cyan => "\x1b[36m"
  | bold => "\x1b[1m"

/-- The code that ends all styles. -/
def endOfStyles : String := "\x1b[0m"

/-- A piece of text with its styles. -/
structure Piece where
  styles : List Style
  text : String
deriving DecidableEq

/-- A piece without styles. -/
def Piece.bare (s : String) : Piece := ⟨[], s⟩

/-- A piece with its codes. -/
def Piece.coded (p : Piece) : String :=
  if p.styles.isEmpty then p.text
  else String.join (p.styles.map Style.code) ++ p.text ++ endOfStyles

/-- Text in pieces. -/
abbrev Styled := List Piece

namespace Styled

/-- The text alone. -/
def plain (s : Styled) : String :=
  String.join (s.map Piece.text)

/-- The text with codes. -/
def coded (s : Styled) : String :=
  String.join (s.map Piece.coded)

/-- The text as it is written, with or without colours. -/
def render (colour : Bool) (s : Styled) : String :=
  if colour then s.coded else s.plain

end Styled

end LoxLexer.Command
