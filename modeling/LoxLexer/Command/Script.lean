import LoxLexer.Config.File
import LoxLexer.Command.Complaint
import LoxLexer.Command.Usage

/-!
# Scripts

What a run of the command does, written down beforehand: texts printed to standard output, complaints
written to standard error, and how the run ends. A script is made without regard to where its texts
go. `Script.onFull` is what is left of it where standard output takes no text at all, and
`Script.result` is what can be seen of it.

Two texts are printed without asking whether that went well. If it did not, the run crashes, and a crash
has a report of its own, in which the runtime says where it happened. A script only knows the message.
-/

namespace LoxLexer.Command

/-! ## §1 Endings -/

/-- Why a run is broken off. -/
inductive RunError where
  | options (e : ConfigError)
  | unreadableSource (path : String) (e : ReadError)
  /-- The output cannot be written, or the lines to read cannot be read. -/
  | output (reason : String)
  /-- The output cannot be written, and it is a list of tokens as JSON. -/
  | listing (reason : String)
deriving DecidableEq

namespace RunError

/-- The wording of an error. -/
def text : RunError → String
  | options e => e.text
  | unreadableSource path e => "could not read '" ++ path ++ "': " ++ e.text
  | output reason => "failed to write output: " ++ reason
  | listing reason => "failed to serialize tokens: " ++ reason

/-- The exit code of an error. -/
def code : RunError → Nat
  | options _ => 64
  | unreadableSource .. => 66
  | output _ => 74
  | listing _ => 74

end RunError

/-- The texts that are printed without asking whether that went well. -/
inductive Unchecked where
  | version
  /-- The end of the line that the last prompt is on. -/
  | lastLine
deriving DecidableEq

/-- What the runtime adds to the message of a crash. -/
structure Crash where
  /-- The number of the main thread. -/
  thread : Nat
  /-- The place in the code. -/
  place : String
  /-- What follows the message: the calls that led to the place, or how to get them. -/
  trail : String
deriving Inhabited

/-- The report on a crash. -/
def Crash.report (c : Crash) (message : String) : String :=
  "\nthread 'main' (" ++ toString c.thread ++ ") panicked at " ++ c.place ++ ":\n" ++ message ++ "\n"
    ++ c.trail

/-- How a run ends. -/
inductive Ending where
  | exit (code : Nat)
  /-- The arguments are refused. -/
  | refused (e : ArgumentError)
  /-- The run is broken off. -/
  | broken (e : RunError)
  /-- The run crashes at a text that cannot be printed. -/
  | crashed (text : Unchecked) (reason : String)
deriving DecidableEq

namespace Ending

/-- The exit code. -/
def code : Ending → Nat
  | exit n => n
  | refused _ => 2
  | broken e => e.code
  | crashed .. => 101

/-- What is written to standard error at the end, with what the runtime has to say about a crash. -/
def complaint (crash : Unchecked → Crash) : Ending → Styled
  | exit _ => []
  | refused e => [.bare e.text]
  | broken e => Complaint.ofError e.text
  | crashed text reason => [.bare ((crash text).report ("failed printing to stdout: " ++ reason))]

end Ending

/-! ## §2 Scripts -/

/-- One thing that a run does. -/
inductive Action where
  /-- Print a text; if it cannot be printed, the run ends in the way given. -/
  | print (text : String) (otherwise : Ending)
  /-- Write a complaint, in colours if they are wanted and can be shown. -/
  | complain (pretty : Bool) (s : Styled)
deriving DecidableEq

namespace Action

/-- What is printed. -/
def printed? : Action → Option String
  | print s _ => some s
  | complain .. => none

/-- What is written to standard error, which shows colours if it is a terminal. -/
def written? (terminal : Bool) : Action → Option String
  | print .. => none
  | complain pretty s => some (s.render (pretty && terminal))

end Action

/-- What a run does, and how it ends. -/
structure Script where
  actions : List Action
  ending : Ending
deriving DecidableEq

/-- What can be seen of a run. -/
structure Result where
  code : Nat
  /-- All that is printed to standard output. -/
  output : String
  /-- All that is written to standard error. -/
  errors : String
deriving DecidableEq

namespace Script

/-- A script that does nothing but end. -/
def ends (e : Ending) : Script := ⟨[], e⟩

/-- A script with more done before it. -/
def after (before : List Action) (s : Script) : Script :=
  { s with actions := before ++ s.actions }

/-- What is left of actions if no text can be printed: the first text that is not empty ends the
run. -/
def cut (ending : Ending) : List Action → Script
  | [] => ends ending
  | .print s otherwise :: rest => if s = "" then cut ending rest else ends otherwise
  | .complain pretty s :: rest => (cut ending rest).after [.complain pretty s]

/-- What is left of a script if no text can be printed. -/
def onFull (s : Script) : Script :=
  cut s.ending s.actions

/-- What can be seen of a script where standard error is or is not a terminal. -/
def result (terminal : Bool) (crash : Unchecked → Crash) (s : Script) : Result where
  code := s.ending.code
  output := String.join (s.actions.filterMap Action.printed?)
  errors := String.join (s.actions.filterMap (Action.written? terminal))
    ++ (s.ending.complaint crash).render terminal

end Script

end LoxLexer.Command
