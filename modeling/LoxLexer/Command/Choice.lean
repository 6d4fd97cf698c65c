/-!
# Command-line options

The options that the command knows: two that take a value and four that stand alone, each with a
name after two dashes and some with a letter after one.

* `Choice.ofName?`, `Choice.ofLetter?`: the option with a given name or letter.
-/

namespace LoxLexer.Command

/-- The options that take a value. -/
inductive Valued where
  /-- The output format, by name. -/
  | format
  /-- The path of an options file. -/
  | config
deriving DecidableEq

/-- The options that stand alone. -/
inductive Flag where
  | showEof | noPretty | version | help
deriving DecidableEq

/-- An option. -/
inductive Choice where
  | valued (o : Valued)
  | flag (f : Flag)
deriving DecidableEq

namespace Choice

/-- All options, in the order in which they are described. -/
def all : List Choice :=
  [valued .format, valued .config, flag .showEof, flag .noPretty, flag .version, flag .help]

/-- The name of an option, which follows two dashes. -/
def name : Choice → String
  | valued .format => "format"
  | valued .config => "config"
  | flag .showEof => "show-eof"
  | flag .noPretty => "no-pretty"
  | flag .version => "version"
  | flag .help => "help"

/-- The letter of an option, which follows one dash. -/
def letter? : Choice → Option Char
  | valued .config => some 'c'
  | flag .version => some 'v'
  | flag .help => some 'h'
  | _ => none

/-- What an option is called where it is described: its name, with a stand-in for its value. -/
def title : Choice → String
  | valued .format => "--format <FORMAT>"
  | valued .config => "--config <PATH>"
  | flag f => "--" ++ (flag f).name

/-- The option with a name. -/
def ofName? (s : String) : Option Choice :=
  all.find? (·.name == s)

/-- The option with a letter. -/
def ofLetter? (c : Char) : Option Choice :=
  all.find? (·.letter? == some c)

theorem ofName?_name (o : Choice) : ofName? o.name = some o := by
  cases o with
  | valued v => cases v <;> decide
  | flag f => cases f <;> decide

theorem name_eq_of_ofName? {s : String} {o : Choice} (h : ofName? s = some o) : o.name = s := by
  simpa using List.find?_some h

end Choice

end LoxLexer.Command
