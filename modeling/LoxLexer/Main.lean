import LoxLexer.Command.Run

/-!
# The program

Reads the files that an invocation may need, works out what is to be done, and does it. At the prompt
each line is read, and its turn is done, before the next one is asked for.
-/

namespace LoxLexer.Command

/-- Why a file cannot be read, from what the system says. -/
def readErrorOf : IO.Error → ReadError
  | .noFileOrDirectory .. => .notFound
  | .inappropriateType _ code _ => if code = 21 then .isDirectory else .notDirectory
  | .invalidArgument _ code _ => if code = 22 then .nulInName else .nameTooLong
  | .permissionDenied .. => .other "Permission denied (os error 13)"
  | e => .other (toString e)

/-- The bytes of a file. -/
def readFile (path : String) : IO (Except ReadError (List UInt8)) := do
  try
    return .ok (← IO.FS.readBinFile path).data.toList
  catch e => return .error (readErrorOf e)

/-- The files at some paths. -/
def readFiles (paths : List String) : IO Files := do
  let table ← paths.mapM fun path => do return (path, ← readFile path)
  return fun path =>
    match table.find? (·.1 == path) with
    | some e => e.2
    | none => .error .notFound

/-- Write a text, and say whether that went well. -/
def send (stream : IO.FS.Stream) (s : String) : IO Bool := do
  try
    stream.putStr s
    stream.flush
    return true
  catch _ => return false

/-- Do what is to be done. If a text cannot be printed, say how the run ends. -/
def perform (terminal : Bool) : List Action → IO (Option Ending)
  | [] => return none
  | .print s otherwise :: rest => do
    if ← send (← IO.getStdout) s then perform terminal rest else return some otherwise
  | .complain pretty s :: rest => do
    let _ ← send (← IO.getStderr) (s.render (pretty && terminal))
    perform terminal rest

/-- What there is to say about a crash: where it happened, but not by which calls. -/
def crashHere : IO (Unchecked → Crash) := do
  let thread ← IO.getTID
  return fun _ => ⟨thread.toNat, "LoxLexer.Command.perform", ""⟩

/-- End a run, and give its exit code. -/
def finish (terminal : Bool) (e : Ending) : IO UInt32 := do
  let _ ← send (← IO.getStderr) ((e.complaint (← crashHere)).render terminal)
  return UInt32.ofNat e.code

/-- Go through a script. -/
def play (terminal : Bool) (s : Script) : IO UInt32 := do
  match ← perform terminal s.actions with
  | some e => finish terminal e
  | none => finish terminal s.ending

/-- The bytes of a line from standard input, its line feed included, after the bytes already read,
the last of which comes first. At the end of the input there are none. -/
partial def readLine (read : List UInt8) : IO (List UInt8) := do
  match (← (← IO.getStdin).read 1).data.toList with
  | [] => return read.reverse
  | b :: _ => if b = 10 then return (b :: read).reverse else readLine (b :: read)

/-- Ask for lines until there are no more, or until a line ends the prompt. -/
partial def converse (terminal : Bool) (s : Settings) : IO UInt32 := do
  match ← perform terminal [printPrompt s] with
  | some e => finish terminal e
  | none =>
    match ← readLine [] with
    | [] => play terminal promptEnd
    | line =>
      match turn s line with
      | .stop script => play terminal script
      | .goOn as =>
        match ← perform terminal as with
        | some e => finish terminal e
        | none => converse terminal s

end LoxLexer.Command

open LoxLexer.Command in
/-- Run the command. -/
def main (args : List String) : IO UInt32 := do
  let terminal ← (← IO.getStderr).isTty
  let paths := match parse args with
    | .ok i => i.paths
    | .error _ => []
  match plan args (← readFiles paths) with
  | .script s => play terminal s
  | .prompt s => converse terminal s
