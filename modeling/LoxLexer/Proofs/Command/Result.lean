import LoxLexer.Command.Run

/-!
# What can be seen of a call

A call that is accepted comes down to a script for a source file or to the lines of a prompt. What can be
seen of a script are two texts, which its actions put together piece by piece, and the code at its end.

* `Accepted.run_prompt_eq`, `Accepted.run_file_eq`: the script of an accepted call.
* `Script.result_eq`: the two texts, from the texts of the actions.
* `promptScript_cons_of_text`, `promptScript_cons_of_noText`: the two ways in which a line can go.
-/

namespace LoxLexer.Command

/-! ## §1 Calls that scan -/

/-- **A call that scans**: its arguments are accepted and do not ask for the version, and its options
lead to settings. -/
structure Accepted (w : Surroundings) (args : List String) (i : Invocation) (s : Settings) :
    Prop where
  parsed : parse args = .ok i
  version : i.version = false
  settings : i.settings w.files = .ok s

namespace Accepted

variable {w : Surroundings} {args : List String} {i : Invocation} {s : Settings}

/-- Without a file a call comes down to a prompt. -/
theorem plan_prompt (h : Accepted w args i s) (hfile : i.file = none) :
    plan args w.files = .prompt s := by
  simp only [plan, h.parsed, Invocation.plan, h.version, h.settings, hfile]
  rfl

/-- With a file that is a text a call comes down to its script. -/
theorem plan_file (h : Accepted w args i s) {path source : String} (hfile : i.file = some path)
    (hread : w.files path = .ok (encode source)) :
    plan args w.files = .script (fileScript s path source) := by
  have htext : w.files.readText path = .ok source := by
    rw [Files.readText, hread]
    simp only [decode_encode]
  simp only [plan, h.parsed, Invocation.plan, h.version, h.settings, hfile, htext]
  rfl

/-- Without a file the lines of the input are scanned. -/
theorem run_prompt_eq (h : Accepted w args i s) (hfile : i.file = none)
    (hfull : w.outputFull = false) :
    run w args = (promptScript s (splitLines w.input)).result w.errorsToTerminal w.crash := by
  rw [run, h.plan_prompt hfile, hfull]
  rfl

/-- With a file that is a text the text is scanned. -/
theorem run_file_eq (h : Accepted w args i s) {path source : String} (hfile : i.file = some path)
    (hread : w.files path = .ok (encode source)) (hfull : w.outputFull = false) :
    run w args = (fileScript s path source).result w.errorsToTerminal w.crash := by
  rw [run, h.plan_file hfile hread, hfull]
  rfl

end Accepted

/-! ## §2 The texts of actions -/

/-- What actions print. -/
def outputOf (as : List Action) : String :=
  String.join (as.filterMap Action.printed?)

/-- What actions write to standard error. -/
def errorsOf (terminal : Bool) (as : List Action) : String :=
  String.join (as.filterMap (Action.written? terminal))

variable {α : Type} (terminal : Bool) (crash : Unchecked → Crash) (as bs : List Action)

theorem Script.result_eq (s : Script) :
    s.result terminal crash =
      ⟨s.ending.code, outputOf s.actions,
        errorsOf terminal s.actions ++ (s.ending.complaint crash).render terminal⟩ := rfl

theorem outputOf_append : outputOf (as ++ bs) = outputOf as ++ outputOf bs := by
  rw [outputOf, List.filterMap_append, String.join_append]
  rfl

theorem errorsOf_append :
    errorsOf terminal (as ++ bs) = errorsOf terminal as ++ errorsOf terminal bs := by
  rw [errorsOf, List.filterMap_append, String.join_append]
  rfl

theorem outputOf_cons_print (text : String) (otherwise : Ending) :
    outputOf (.print text otherwise :: as) = text ++ outputOf as :=
  String.join_cons

theorem errorsOf_cons_print (text : String) (otherwise : Ending) :
    errorsOf terminal (.print text otherwise :: as) = errorsOf terminal as := rfl

theorem outputOf_cons_complain (pretty : Bool) (c : Styled) :
    outputOf (.complain pretty c :: as) = outputOf as := rfl

/-- A complaint that is not shown on a terminal is written without colours. -/
theorem errorsOf_cons_complain (pretty : Bool) (c : Styled) :
    errorsOf false (.complain pretty c :: as) = c.plain ++ errorsOf false as := by
  have hrender : c.render (pretty && false) = c.plain := by
    rw [Bool.and_false]
    rfl
  rw [← hrender]
  exact String.join_cons

/-- Complaints print nothing. -/
theorem outputOf_map_complain (pretty : Bool) (f : α → Styled) (xs : List α) :
    outputOf (xs.map fun x => .complain pretty (f x)) = "" := by
  induction xs with
  | nil => rfl
  | cons x xs ih => exact ih

/-- Complaints are written one after the other. -/
theorem errorsOf_map_complain (pretty : Bool) (f : α → Styled) (xs : List α) :
    errorsOf false (xs.map fun x => .complain pretty (f x)) =
      String.join (xs.map fun x => (f x).plain) := by
  induction xs with
  | nil => rfl
  | cons x xs ih =>
    rw [List.map_cons, errorsOf_cons_complain, ih, List.map_cons, String.join_cons]

/-- A text without styles is written as it is, in colours or not. -/
theorem Styled.render_singleton (colour : Bool) (text : String) :
    Styled.render colour [.bare text] = text := by
  cases colour <;> exact String.empty_append

/-- What is done before a script comes first in both texts. -/
theorem Script.result_after (s : Script) :
    (s.after as).result terminal crash =
      ⟨(s.result terminal crash).code, outputOf as ++ (s.result terminal crash).output,
        errorsOf terminal as ++ (s.result terminal crash).errors⟩ := by
  rw [result_eq, result_eq, after, outputOf_append, errorsOf_append, String.append_assoc]

/-! ## §3 Lines at the prompt -/

section

variable (s : Settings) {line : List UInt8} (lines : List (List UInt8))

/-- A line that is a text comes before what is done for the other lines. -/
theorem promptScript_cons_of_text {text : String} (h : decode line = some text) :
    promptScript s (line :: lines) =
      (promptScript s lines).after (printPrompt s :: lineActions s text) := by
  rw [promptScript, turn, h]
  rfl

/-- Nothing is done for the lines after one that is no text. -/
theorem promptScript_cons_of_noText (h : decode line = none) :
    promptScript s (line :: lines) = ⟨[printPrompt s], endAtNoText⟩ := by
  rw [promptScript, turn, h]
  rfl

end

end LoxLexer.Command
