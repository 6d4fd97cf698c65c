import LoxLexer.Text.Hidden

/-!
# Visible text

Text quoted for a reader: a quote, a backslash, the tab and the two line ends are escaped by a letter,
and any character that shows nothing of its own by its code point in braces.
-/

namespace LoxLexer.Visible

/-- The digits of a code point, in base sixteen and small letters. -/
def codePoint (c : Char) : List Char :=
  Nat.toDigits 16 c.toNat

/-- A character as it stands in a quoted text. -/
def escape (c : Char) : List Char :=
  if c = '\x00' then ['\\', '0']
  else if c = '\t' then ['\\', 't']
  else if c = '\r' then ['\\', 'r']
  else if c = '\n' then ['\\', 'n']
  else if c = '\\' then ['\\', '\\']
  else if c = '"' then ['\\', '"']
  else if Hidden.isHidden c then '\\' :: 'u' :: '{' :: (codePoint c ++ ['}'])
  else [c]

/-- A text between quotes. -/
def quoted (s : String) : String :=
  String.ofList ('"' :: (s.toList.flatMap escape ++ ['"']))

end LoxLexer.Visible
