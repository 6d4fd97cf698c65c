import LoxLexer.Config.Text
import LoxLexer.File.Error

/-!
# Options files

Loading the options file at a path, and all that can be wrong with options: a file that cannot be
read, a text that is refused, and a format that has no such name.
-/

namespace LoxLexer

/-- What can be wrong with options. -/
inductive ConfigError where
  | unreadable (path : String) (e : ReadError)
  /-- A text that is refused, with the failure that reading it came to. -/
  | invalid (text : String) (f : Json.Failure)
  /-- A name, in small letters, that no format has. -/
  | unknownFormat (name : String)
deriving DecidableEq

/-- The wording of what is wrong with options. -/
def ConfigError.text : ConfigError → String
  | unreadable path e => "failed to read '" ++ path ++ "': " ++ e.text
  | invalid text f => "invalid config: " ++ f.message text.toList
  | unknownFormat name => OutputFormat.unknownName name

namespace Config

/-- The name under which an options file is looked for in the working directory. -/
def fileName : String := "rlox.json"

/-- The content of the options file with a text. -/
def parse (text : String) : Except ConfigError Config :=
  match read text with
  | .ok c => .ok c
  | .error f => .error (.invalid text f)

/-- The content of the options file at a path. -/
def load (files : Files) (path : String) : Except ConfigError Config :=
  match files.readText path with
  | .error e => .error (.unreadable path e)
  | .ok text => parse text

end Config

/-- The format with a name, or what is wrong with the name, which is then given in small letters. -/
def OutputFormat.parse (name : String) : Except ConfigError OutputFormat :=
  match ofName? name with
  | some f => .ok f
  | none => .error (.unknownFormat (lower name))

end LoxLexer
