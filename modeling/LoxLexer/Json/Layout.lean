/-!
# JSON text

Writing JSON: quoted strings, and lists and records of values already written, in one of two
layouts. The compact layout has no blanks. The pretty layout puts each item on a line of its own,
two spaces further in than the bracket that holds it, and writes an empty list as `[]`.

A string escapes the quote, the backslash and the characters below the space, five of which have a
letter of their own; all else stands for itself.
-/

namespace LoxLexer.Json

/-! ## §1 Strings -/

/-- A hexadecimal digit, in small letters. -/
def hexDigit (n : Nat) : Char :=
  if n < 10 then Char.ofNat ('0'.toNat + n) else Char.ofNat ('a'.toNat + (n - 10))

/-- A character as it stands in a quoted string. -/
def escape (c : Char) : List Char :=
  if c = '"' then ['\\', '"']
  else if c = '\\' then ['\\', '\\']
  else if c = '\x08' then ['\\', 'b']
  else if c = '\x0c' then ['\\', 'f']
  else if c = '\n' then ['\\', 'n']
  else if c = '\r' then ['\\', 'r']
  else if c = '\t' then ['\\', 't']
  else if c.toNat < 32 then ['\\', 'u', '0', '0', hexDigit (c.toNat / 16), hexDigit (c.toNat % 16)]
  else [c]

/-- A string between quotes. -/
def quoted (s : String) : String :=
  String.ofList ('"' :: (s.toList.flatMap escape ++ ['"']))

/-! ## §2 Lists and records -/

/-- How lists and records are laid out. -/
inductive Layout where
  | compact
  | pretty
deriving DecidableEq

namespace Layout

/-- The start of a line that is `depth` brackets deep. -/
def newLine (depth : Nat) : String :=
  String.ofList ('\n' :: List.replicate (2 * depth) ' ')

/-- Items between brackets that are themselves `depth` brackets deep. -/
def bracketed (layout : Layout) (depth : Nat) (opening closing : String) (items : List String) :
    String :=
  match layout, items with
  | _, [] => opening ++ closing
  | compact, _ => opening ++ ",".intercalate items ++ closing
  | pretty, _ =>
    opening ++ newLine (depth + 1) ++ ("," ++ newLine (depth + 1)).intercalate items
      ++ newLine depth ++ closing

/-- A list of written values. -/
def list (layout : Layout) (depth : Nat) (items : List String) : String :=
  layout.bracketed depth "[" "]" items

/-- A member of a record: its name and its written value. -/
def member (layout : Layout) (name value : String) : String :=
  quoted name ++ (match layout with | compact => ":" | pretty => ": ") ++ value

/-- A record of named written values. -/
def record (layout : Layout) (depth : Nat) (members : List (String × String)) : String :=
  layout.bracketed depth "\x7b" "\x7d" (members.map fun m => layout.member m.1 m.2)

end Layout

end LoxLexer.Json
