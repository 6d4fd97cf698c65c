import LoxLexer.Session
import LoxLexer.Token.Json
import LoxLexer.Command.Script

/-!
# Runs

What the command does when it is called. The options come first: those of the options file, which the
arguments override. Then a source file is scanned as a whole, or lines are read at a prompt and each
is scanned by itself. In a file, the tokens are listed before the diagnostics, and the run fails if
there are any; at the prompt, faults are reported before the tokens of their line, and the run goes
on.

* `turn`, `promptEnd`: what is done for a line at the prompt, and at the end of the lines.
* `run`: what can be seen of a call with given arguments in given surroundings.
-/

namespace LoxLexer.Command

/-! ## §1 Options -/

/-- The options that arguments give, with a format that is known by its name. -/
def Invocation.options (i : Invocation) (format : Option OutputFormat) : Options where
  format := format
  pretty := if i.noPretty then some false else none
  prompt := none
  showEof := if i.showEof then some true else none

/-- The content of the options file: the one that is asked for, or else the one in the working
directory, if there is one. -/
def Invocation.loadConfig (i : Invocation) (files : Files) : Except ConfigError Config :=
  match i.config with
  | some path => Config.load files path
  | none => if files.has Config.fileName then Config.load files Config.fileName else .ok ⟨none⟩

/-- The format that arguments give. -/
def Invocation.parseFormat (i : Invocation) : Except ConfigError (Option OutputFormat) :=
  match i.format with
  | none => .ok none
  | some name =>
    match OutputFormat.parse name with
    | .ok f => .ok (some f)
    | .error e => .error e

/-- The settings of a run. -/
def Invocation.settings (i : Invocation) (files : Files) : Except ConfigError Settings :=
  match i.loadConfig files with
  | .error e => .error e
  | .ok config =>
    match i.parseFormat with
    | .error e => .error e
    | .ok format => .ok ((i.options format).or config.optionsOrUnset).settings

/-! ## §2 Token listings -/

/-- What is listed: tokens, and the end of their source if it is wanted. -/
def listed (s : Settings) (ts : List Token) (line : Nat) : List Token :=
  ts ++ if s.showEof then [Token.endOfSource line] else []

/-- Tokens as text: each on a line of its own, or a list as JSON. -/
def listing (format : OutputFormat) (ts : List Token) : String :=
  match format with
  | .text => String.join (ts.map fun t => t.text ++ "\n")
  | .json => Token.listJson .pretty ts ++ "\n"

/-- The reason why a text cannot be printed where there is no room. -/
def noRoom : String := "No space left on device (os error 28)"

/-- What happens if a listing cannot be printed. Of an empty list as JSON only the end of the line
is noticed. -/
def listingError (format : OutputFormat) (ts : List Token) : RunError :=
  if format = .json ∧ ts ≠ [] then .listing noRoom else .output noRoom

/-- Print a listing. -/
def printListing (s : Settings) (ts : List Token) (line : Nat) : Action :=
  let ts := listed s ts line
  .print (listing s.format ts) (.broken (listingError s.format ts))

/-! ## §3 Files and prompts -/

/-- The diagnostics of a source file, in the order in which they are shown. -/
def fileDiagnostics (path source : String) : List Diagnostic :=
  Diagnostic.sorted ((diagnostics source).map (Diagnostic.withFile path))

/-- What is done for a source file. -/
def fileScript (s : Settings) (path source : String) : Script :=
  let complaints := (fileDiagnostics path source).map fun d =>
    Action.complain s.pretty (Complaint.ofDiagnostic d)
  let count := (reports source).length
  let listing := printListing s (tokens source) (lastLine source)
  if count = 0 then ⟨listing :: complaints, .exit 0⟩
  else ⟨listing :: (complaints ++ [.complain s.pretty (Complaint.ofCount count)]), .exit 65⟩

/-- The lines of a text in bytes, each with the line feed that ends it. -/
def splitLines : List UInt8 → List (List UInt8)
  | [] => []
  | b :: bs =>
    if b = 10 then [b] :: splitLines bs
    else
      match splitLines bs with
      | [] => [[b]]
      | line :: lines => (b :: line) :: lines

/-- A line without the line feeds and carriage returns at its end. -/
def trimLine (s : String) : String :=
  String.ofList (s.toList.reverse.dropWhile (fun c => c == '\n' || c == '\r')).reverse

/-- Print the prompt. -/
def printPrompt (s : Settings) : Action :=
  .print s.prompt (.broken (.output noRoom))

/-- What is done for a line at the prompt. -/
def lineActions (s : Settings) (line : String) : List Action :=
  let source := trimLine line
  (reports source).map (fun r => .complain s.pretty (Complaint.ofReport r))
    ++ [printListing s (tokens source) (lastLine source)]

/-- How a run ends at a line that is no text. -/
def endAtNoText : Ending :=
  .broken (.output ReadError.notText.text)

/-- What a line comes to. -/
inductive Turn where
  /-- Some things are done, and then the prompt is printed again. -/
  | goOn (as : List Action)
  | stop (s : Script)

/-- What is done for the bytes of a line. The prompt ends at the first line that is no text. -/
def turn (s : Settings) (line : List UInt8) : Turn :=
  match decode line with
  | none => .stop (.ends endAtNoText)
  | some text => .goOn (lineActions s text)

/-- What is done from a line on, given what is done after it if the prompt goes on. -/
def Turn.script (rest : Script) : Turn → Script
  | goOn as => rest.after as
  | stop s => s

/-- The end of a prompt: the line that the last prompt is on is ended. -/
def promptEnd : Script :=
  ⟨[.print "\n" (.crashed .lastLine noRoom)], .exit 0⟩

/-- What is done for lines at the prompt, which is printed before each of them and once more. -/
def promptScript (s : Settings) : List (List UInt8) → Script
  | [] => promptEnd.after [printPrompt s]
  | line :: lines => ((turn s line).script (promptScript s lines)).after [printPrompt s]

/-! ## §4 The whole command -/

/-- What a run comes to. -/
inductive Plan where
  /-- A script that needs no lines. -/
  | script (s : Script)
  /-- A prompt. -/
  | prompt (s : Settings)
deriving DecidableEq

/-- What is done for an invocation. -/
def Invocation.plan (i : Invocation) (files : Files) : Plan :=
  if i.version then .script ⟨[.print versionLine (.crashed .version noRoom)], .exit 0⟩
  else
    match i.settings files with
    | .error e => .script (.ends (.broken (.options e)))
    | .ok s =>
      match i.file with
      | none => .prompt s
      | some path =>
        match files.readText path with
        | .error e => .script (.ends (.broken (.unreadableSource path e)))
        | .ok source => .script (fileScript s path source)

/-- What is done for some arguments. -/
def plan (args : List String) (files : Files) : Plan :=
  match parse args with
  | .error .help => .script ⟨[.print helpText (.exit 0)], .exit 0⟩
  | .error (.refused e) => .script (.ends (.refused e))
  | .ok i => i.plan files

/-- The script of a plan, with the bytes of standard input. -/
def Plan.toScript (input : List UInt8) : Plan → Script
  | script s => s
  | prompt s => promptScript s (splitLines input)

/-- The paths of the files that an invocation may have to read. -/
def Invocation.paths (i : Invocation) : List String :=
  i.config.getD Config.fileName :: i.file.toList

/-- What a run meets with. -/
structure Surroundings where
  files : Files
  /-- The bytes of standard input. -/
  input : List UInt8
  /-- Whether standard error is a terminal. -/
  errorsToTerminal : Bool
  /-- Whether standard output has no room for any text. -/
  outputFull : Bool
  /-- What the runtime would say about a crash. -/
  crash : Unchecked → Crash

/-- What can be seen of a run. -/
def run (w : Surroundings) (args : List String) : Result :=
  let s := (plan args w.files).toScript w.input
  (if w.outputFull then s.onFull else s).result w.errorsToTerminal w.crash

end LoxLexer.Command
