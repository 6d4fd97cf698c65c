import LoxLexer.Command.Argument
import LoxLexer.Command.Similar
import LoxLexer.Text.Terminal

/-!
# Usage texts

The help, the version, and the wording of refused arguments. A refusal ends with how the command is
used, and with where to find help. After an unknown name the usage shows what is given so far, and
after an unwanted value the option that stands alone; otherwise it shows that there are options. Of
an argument that is shown, nothing is written that a terminal would obey.
-/

namespace LoxLexer.Command

/-- The name of the command. -/
def commandName : String := "rlox"

/-- The version, on a line of its own. -/
def versionLine : String :=
  commandName ++ " Version 0.1.0\n"

/-- A line on how the command is used. -/
def usageLine (rest : String) : String :=
  "Usage: " ++ commandName ++ " " ++ rest ++ "\n"

/-- How the command is used in general. -/
def generalUsageLine : String :=
  usageLine "[OPTIONS] [FILE]"

/-- Options that are shown, each once and with a space after it. -/
def optionsShown (shown : List Choice) : String :=
  String.join (shown.eraseDups.map fun o => o.title ++ " ")

/-- How the command is used with what has been said and some more options. -/
def usageLineAfter (said : List Said) (more : List Choice) : String :=
  if said.isEmpty && more.isEmpty then generalUsageLine
  else
    usageLine (optionsShown (said.filterMap Said.choice? ++ more)
      ++ (if said.any (·.file?.isSome) then "<FILE>" else "[FILE]"))

/-- All that can be said, help apart, as one choice. -/
def alternatives : String :=
  "<FILE" ++ String.join ((Choice.all.filter (· != .flag .help)).map fun o => "|" ++ o.title) ++ ">"

/-- How the command is used with an option that stands alone. Once something has been taken in, all
that can be said is shown instead; help is no part of that. -/
def usageLineOfFlag (f : Flag) (begun : Bool) : String :=
  if begun then usageLine ((if f = .help then optionsShown [.flag f] else "") ++ alternatives)
  else usageLine (optionsShown [.flag f] ++ "[FILE]")

/-- The options as they are described in the help. -/
def optionLines : List String :=
  ["      --format <FORMAT>  Output format: text or json\n",
   "  -c, --config <PATH>    Path to rlox.json\n",
   "      --show-eof         Print a trailing EOF token after the scanned tokens\n",
   "      --no-pretty        Disable colored diagnostics\n",
   "  -v, --version          Print the version\n",
   "  -h, --help             Print help\n"]

/-- The help. -/
def helpText : String :=
  commandName ++ " - A scanner for the Lox language\n\n" ++ generalUsageLine
    ++ "\nArguments:\n"
    ++ "  [FILE]  Source file to scan. Starts an interactive prompt when omitted\n"
    ++ "\nOptions:\n" ++ String.join optionLines

/-- Where to find help. -/
def helpHint : String :=
  "For more information, try '--help'.\n"

/-- What may help against an argument that is unknown: to put it after the separator. -/
def separatorTip (argument : String) : String :=
  let shown := Terminal.shown argument
  "  tip: to pass '" ++ shown ++ "' as a value, use '-- " ++ shown ++ "'\n"

/-- What may help against a name that is unknown: the option with a similar name. -/
def similarTip (o : Choice) : String :=
  "  tip: a similar argument exists: '--" ++ o.name ++ "'\n"

/-- The option whose name is most like an unknown one. -/
def similarChoice? (name : String) : Option Choice :=
  (Similar.closest? name (Choice.all.map Choice.name)).bind Choice.ofName?

namespace ArgumentError

/-- What is wrong, without what may help. -/
def reason : ArgumentError → String
  | unknownName name _ => "unexpected argument '" ++ Terminal.shown ("--" ++ name) ++ "' found"
  | unknownLetter c =>
    "unexpected argument '" ++ Terminal.shown ("-" ++ String.singleton c) ++ "' found"
  | extraFile path => "unexpected argument '" ++ Terminal.shown path ++ "' found"
  | repeated o => "the argument '" ++ o.title ++ "' cannot be used multiple times"
  | missingValue o =>
    "a value is required for '" ++ (Choice.valued o).title ++ "' but none was supplied"
  | unwantedValue f value _ =>
    "unexpected value '" ++ Terminal.shown value ++ "' for '" ++ (Choice.flag f).title
      ++ "' found; no more were expected"

/-- What may help, each part with an empty line after it. -/
def advice : ArgumentError → String
  | unknownName name said =>
    match similarChoice? name with
    | some o => similarTip o ++ "\n" ++ usageLineAfter said [o] ++ "\n"
    | none => separatorTip ("--" ++ name) ++ "\n" ++ usageLineAfter said [] ++ "\n"
  | unknownLetter c =>
    separatorTip ("-" ++ String.singleton c) ++ "\n" ++ generalUsageLine ++ "\n"
  | extraFile _ => generalUsageLine ++ "\n"
  | repeated _ => generalUsageLine ++ "\n"
  | missingValue _ => ""
  | unwantedValue f _ begun => usageLineOfFlag f begun ++ "\n"

/-- The wording of refused arguments. -/
def text (e : ArgumentError) : String :=
  "error: " ++ e.reason ++ "\n\n" ++ e.advice ++ helpHint

end ArgumentError

end LoxLexer.Command
