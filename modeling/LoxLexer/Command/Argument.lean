import LoxLexer.Command.Choice

/-!
# Command-line arguments

A single argument is a name with or without a value, a cluster of letters, the separator `--`, or
plain text; a lone dash and the empty text are plain. Arguments are taken in from the left. What
they say is kept in order, and at the end is gathered into an `Invocation`.

A file is *held* first, and so is an option whose value may still be in the next argument or that
has just got it from there. What is held is taken in when the next thing that is known comes up, or
at the end. Something unknown is refused at once, before what is held.

* `Progress.settle`: take in what is held.
* `parse`: the invocation that arguments make up, or why there is none.
-/

namespace LoxLexer.Command

/-! ## §1 One argument -/

/-- The form of an argument. -/
inductive Argument where
  /-- Two dashes and nothing else: whatever follows is a file. -/
  | separator
  | named (name : String) (value : Option String)
  | letters (cs : List Char)
  | plain (s : String)
deriving DecidableEq

namespace Argument

/-- The text before the first equals sign, and the text after it, if there is one. -/
def splitValue : List Char → List Char × Option (List Char)
  | [] => ([], none)
  | c :: cs =>
    if c = '=' then ([], some cs) else (c :: (splitValue cs).1, (splitValue cs).2)

/-- The form of an argument with these characters. -/
def ofChars : List Char → Argument
  | ['-', '-'] => separator
  | '-' :: '-' :: cs =>
    named (String.ofList (splitValue cs).1) ((splitValue cs).2.map String.ofList)
  | ['-'] => plain "-"
  | '-' :: cs => letters cs
  | cs => plain (String.ofList cs)

/-- The form of an argument. -/
def of (s : String) : Argument :=
  ofChars s.toList

end Argument

/-! ## §2 What arguments say -/

/-- One thing that arguments say. -/
inductive Said where
  | file (path : String)
  | value (o : Valued) (s : String)
  | flag (f : Flag)
deriving DecidableEq

namespace Said

/-- The option that is meant, if it is no file. -/
def choice? : Said → Option Choice
  | file _ => none
  | value o _ => some (.valued o)
  | flag f => some (.flag f)

/-- The file that is meant. -/
def file? : Said → Option String
  | file path => some path
  | _ => none

/-- The value that is given to an option. -/
def value? (o : Valued) : Said → Option String
  | value p s => if p = o then some s else none
  | _ => none

end Said

/-- Why arguments are refused. -/
inductive ArgumentError where
  /-- A name that no option has, after what else has been said. -/
  | unknownName (name : String) (said : List Said)
  | unknownLetter (c : Char)
  /-- A second file. -/
  | extraFile (path : String)
  | repeated (o : Choice)
  | missingValue (o : Valued)
  /-- A value for an option that stands alone. It matters whether something has been taken in by
  then. -/
  | unwantedValue (f : Flag) (value : String) (begun : Bool)
deriving DecidableEq

/-- Where taking in arguments stops short. -/
inductive Stop where
  /-- Help is asked for, which nothing that follows can change. -/
  | help
  | refused (e : ArgumentError)
deriving DecidableEq

/-- What has come up without being taken in. -/
inductive Held where
  /-- An option, with its value if that has come up too. -/
  | choice (o : Valued) (value : Option String)
  | file (path : String)
deriving DecidableEq

/-- How far arguments have been taken in. -/
structure Progress where
  /-- What has been said and taken in, in order. -/
  said : List Said
  /-- What is held. -/
  held : Option Held
deriving DecidableEq

namespace Progress

/-- Nothing taken in yet. -/
def start : Progress := ⟨[], none⟩

/-- Whether an option has been given. -/
def has (p : Progress) (o : Choice) : Bool :=
  p.said.any fun s => s.choice? == some o

/-- Add one more thing, of an option that has not been given before. -/
def add (p : Progress) (s : Said) (o : Choice) : Except Stop Progress :=
  if p.has o then .error (.refused (.repeated o)) else .ok { p with said := p.said ++ [s] }

/-- Whether a file has been given. -/
def hasFile (p : Progress) : Bool :=
  match p.held with
  | some (.file _) => true
  | _ => p.said.any (·.file?.isSome)

/-- Take in what is held. -/
def settle (p : Progress) : Except Stop Progress :=
  match p.held with
  | none => .ok p
  | some (.choice o none) => .error (.refused (.missingValue o))
  | some (.choice o (some s)) => ({ p with held := none } : Progress).add (.value o s) (.valued o)
  | some (.file path) => .ok ⟨p.said ++ [.file path], none⟩

/-- What is said by the time that something is refused, including what is held if it is complete. An
option given twice is left out altogether. -/
def saidSoFar (p : Progress) : List Said :=
  match p.held with
  | none | some (.choice _ none) => p.said
  | some (.choice o (some s)) =>
    if p.has (.valued o) then p.said.filter fun t => t.choice? != some (.valued o)
    else p.said ++ [.value o s]
  | some (.file path) => p.said ++ [.file path]

/-- Take in an option with a value that is part of the same argument. -/
def setValue (p : Progress) (o : Valued) (s : String) : Except Stop Progress :=
  match p.settle with
  | .ok q => q.add (.value o s) (.valued o)
  | .error e => .error e

/-- Hold an option whose value is still to come. -/
def hold (p : Progress) (o : Valued) : Except Stop Progress :=
  match p.settle with
  | .ok q => .ok { q with held := some (.choice o none) }
  | .error e => .error e

/-- Take in an option that stands alone. -/
def setFlag (p : Progress) (f : Flag) : Except Stop Progress :=
  match p.settle with
  | .ok q => if f = .help then .error .help else q.add (.flag f) (.flag f)
  | .error e => .error e

/-- Hold a file, unless there is one already. -/
def holdFile (p : Progress) (path : String) : Except Stop Progress :=
  if p.hasFile then .error (.refused (.extraFile path))
  else
    match p.settle with
    | .ok q => .ok { q with held := some (.file path) }
    | .error e => .error e

/-- Take in plain text: the value of the option that waits for one, or else a file. -/
def addPlain (p : Progress) (s : String) : Except Stop Progress :=
  match p.held with
  | some (.choice o none) => .ok { p with held := some (.choice o (some s)) }
  | _ => p.holdFile s

/-- Take in a name, with the value that follows it in the same argument. -/
def addNamed (p : Progress) (name : String) (value : Option String) : Except Stop Progress :=
  match Choice.ofName? name, value with
  | none, _ => .error (.refused (.unknownName name p.saidSoFar))
  | some (.valued o), none => p.hold o
  | some (.valued o), some s => p.setValue o s
  | some (.flag f), none => p.setFlag f
  | some (.flag f), some s => .error (.refused (.unwantedValue f s (!p.said.isEmpty)))

/-- Take in a cluster of letters. Once a letter takes a value, the rest of the cluster, after an
equals sign if there is one, is the value. -/
def addLetters (p : Progress) : List Char → Except Stop Progress
  | [] => .ok p
  | c :: cs =>
    match Choice.ofLetter? c with
    | none => .error (.refused (.unknownLetter c))
    | some (.flag f) =>
      match p.setFlag f with
      | .ok q => q.addLetters cs
      | .error e => .error e
    | some (.valued o) =>
      match cs with
      | [] => p.hold o
      | '=' :: value => p.setValue o (String.ofList value)
      | value => p.setValue o (String.ofList value)

/-- Take in files, which is all that follows a separator. -/
def addFiles (p : Progress) : List String → Except Stop Progress
  | [] => .ok p
  | path :: paths =>
    match p.holdFile path with
    | .ok q => q.addFiles paths
    | .error e => .error e

/-- Take in one argument other than the separator. -/
def addOne (p : Progress) : Argument → Except Stop Progress
  | .separator => .ok p
  | .named name value => p.addNamed name value
  | .letters cs => p.addLetters cs
  | .plain s => p.addPlain s

/-- Take in arguments. -/
def addAll (p : Progress) : List String → Except Stop Progress
  | [] => .ok p
  | a :: args =>
    if Argument.of a = .separator then p.addFiles args
    else
      match p.addOne (Argument.of a) with
      | .ok q => q.addAll args
      | .error e => .error e

end Progress

/-! ## §3 The invocation -/

/-- What a run of the command is asked to do. -/
structure Invocation where
  /-- The source file; without one, lines are read at a prompt. -/
  file : Option String
  /-- The name of the output format. -/
  format : Option String
  /-- The path of the options file. -/
  config : Option String
  showEof : Bool
  noPretty : Bool
  /-- Only the version is asked for. -/
  version : Bool
deriving DecidableEq

/-- What has been said, gathered. -/
def Invocation.ofSaid (said : List Said) : Invocation where
  file := said.findSome? Said.file?
  format := said.findSome? (Said.value? .format)
  config := said.findSome? (Said.value? .config)
  showEof := said.contains (.flag .showEof)
  noPretty := said.contains (.flag .noPretty)
  version := said.contains (.flag .version)

/-- The invocation that arguments make up. -/
def parse (args : List String) : Except Stop Invocation :=
  match Progress.start.addAll args with
  | .error e => .error e
  | .ok p =>
    match p.settle with
    | .error e => .error e
    | .ok q => .ok (Invocation.ofSaid q.said)

end LoxLexer.Command
