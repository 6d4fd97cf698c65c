/-!
# Options

What a user can choose: the output format, colours, the prompt, and whether the end of the source is
listed. Each choice can be left open. Options from several places are merged field by field, the
earlier place going first, and what is still open at the end takes its default.

* `Options.or_assoc`: merging does not depend on how it is bracketed.
-/

namespace LoxLexer

/-- How tokens are written. -/
inductive OutputFormat where
  /-- A line for each token. -/
  | text
  /-- A JSON list of tokens. -/
  | json
deriving DecidableEq

namespace OutputFormat

/-- The name of a format. -/
def name : OutputFormat → String
  | text => "text"
  | json => "json"

/-- The small letters of a text, in which only the letters of ASCII have another case. -/
def lower (s : String) : String :=
  String.ofList (s.toList.map Char.toLower)

/-- The format with a name, in letters of either case. -/
def ofName? (s : String) : Option OutputFormat :=
  if lower s = "text" then some text
  else if lower s = "json" then some json
  else none

/-- Why a name in small letters is refused. -/
def unknownName (name : String) : String :=
  "unknown output format '" ++ name ++ "' (expected 'text' or 'json')"

theorem ofName?_name (f : OutputFormat) : ofName? f.name = some f := by
  cases f <;> decide

end OutputFormat

/-- Options, each of which may be left open. -/
structure Options where
  format : Option OutputFormat
  /-- Colours on a terminal. -/
  pretty : Option Bool
  /-- What is written before each line that is read. -/
  prompt : Option String
  /-- Whether the end of the source is listed. -/
  showEof : Option Bool
deriving DecidableEq

/-- Options with nothing left open. -/
structure Settings where
  format : OutputFormat
  pretty : Bool
  prompt : String
  showEof : Bool
deriving DecidableEq

namespace Options

/-- Options that leave everything open. -/
def unset : Options :=
  ⟨none, none, none, none⟩

/-- The first options, with what they leave open taken from the second. -/
def or (a b : Options) : Options :=
  ⟨a.format.or b.format, a.pretty.or b.pretty, a.prompt.or b.prompt, a.showEof.or b.showEof⟩

/-- The options with a default for what is open. -/
def settings (o : Options) : Settings :=
  ⟨o.format.getD .text, o.pretty.getD true, o.prompt.getD "> ", o.showEof.getD false⟩

theorem or_assoc (a b c : Options) : (a.or b).or c = a.or (b.or c) := by
  simp [or, Option.or_assoc]

end Options

/-- What an options file holds. -/
structure Config where
  options : Option Options
deriving DecidableEq

/-- The options of a file, open throughout if it has none. -/
def Config.optionsOrUnset (c : Config) : Options :=
  c.options.getD .unset

end LoxLexer
