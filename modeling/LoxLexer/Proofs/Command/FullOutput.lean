import LoxLexer.Proofs.Command.Exit

/-!
# Output without room

Where standard output has no room, a call goes as far as the first text that it has to print. A call that
prints nothing does not notice. One that asks whether its output could be written is broken off with the
error that says so. Two texts are printed without asking: the version, and the end of the line that the
last prompt is on, which comes to light where nothing has been printed before it. A call that cannot print
one of these crashes.

* `Script.result_onFull`: a script that prints nothing does not need room.
* `ending_onFull_promptScript`: where a prompt is broken off.
* `Unasked`, `Crashed`: the calls that print without asking, and what they come to.
* `BrokenOff`: what the others come to.
* `run_outputFull`: all calls.
-/

namespace LoxLexer.Command

/-! ## §1 Scripts without room -/

namespace Script

variable (e : Ending) (as : List Action)

theorem ending_cut_print (text : String) (otherwise : Ending) :
    (cut e (.print text otherwise :: as)).ending = if text = "" then (cut e as).ending else otherwise := by
  rw [cut]
  split <;> rfl

theorem ending_cut_map_complain {α : Type} (pretty : Bool) (f : α → Styled) (xs : List α) :
    (cut e ((xs.map fun x => .complain pretty (f x)) ++ as)).ending = (cut e as).ending := by
  induction xs with
  | nil => rfl
  | cons x xs ih => exact ih

/-- **Nothing is printed where there is no room.** -/
theorem outputOf_cut : outputOf (cut e as).actions = "" := by
  induction as with
  | nil => rfl
  | cons a as ih =>
    cases a with
    | print text otherwise =>
      rw [cut]
      split
      · exact ih
      · rfl
    | complain pretty c => exact ih

/-- **A script that prints nothing does not need room.** -/
theorem result_onFull (s : Script) (terminal : Bool) (crash : Unchecked → Crash)
    (h : outputOf s.actions = "") : s.onFull.result terminal crash = s.result terminal crash := by
  obtain ⟨as, e⟩ := s
  have hcut : (cut e as).ending = e ∧ errorsOf terminal (cut e as).actions = errorsOf terminal as := by
    induction as with
    | nil => exact ⟨rfl, rfl⟩
    | cons a as ih =>
      cases a with
      | print text otherwise =>
        -- an empty text is no text to be printed
        rw [outputOf_cons_print, String.append_eq_empty_iff] at h
        rw [cut, if_pos h.1]
        exact ih h.2
      | complain pretty c =>
        obtain ⟨hending, herrors⟩ := ih h
        refine ⟨hending, ?_⟩
        show errorsOf terminal ([.complain pretty c] ++ (cut e as).actions) =
          errorsOf terminal ([.complain pretty c] ++ as)
        rw [errorsOf_append, errorsOf_append, herrors]
  rw [result_eq, result_eq, onFull, outputOf_cut, hcut.1, hcut.2, h]

/-- **A script that cannot print ends with the complaint of its ending.** -/
theorem result_onFull_eq (s : Script) (terminal : Bool) (crash : Unchecked → Crash) :
    s.onFull.result terminal crash =
      ⟨s.onFull.ending.code, "", errorsOf terminal s.onFull.actions ++
        (s.onFull.ending.complaint crash).render terminal⟩ := by
  rw [result_eq, onFull, outputOf_cut]

end Script

/-! ## §2 Errors without room -/

/-- The errors that say that the output cannot be written. -/
inductive Unwritten : RunError → Prop where
  | output : Unwritten (.output noRoom)
  | listing : Unwritten (.listing noRoom)

theorem unwritten_listingError (format : OutputFormat) (ts : List Token) :
    Unwritten (listingError format ts) := by
  rw [listingError]
  split
  · exact .listing
  · exact .output

theorem Unwritten.code_eq {e : RunError} (h : Unwritten e) : e.code = 74 := by
  cases h <;> rfl

theorem Unwritten.text_eq {e : RunError} (h : Unwritten e) :
    e.text = "failed to write output: No space left on device (os error 28)" ∨
      e.text = "failed to serialize tokens: No space left on device (os error 28)" := by
  cases h with
  | output => exact .inl (by decide)
  | listing => exact .inr (by decide)

/-! ## §3 Prompts without room -/

/-- The tokens that are listed for a line. -/
def lineTokens (s : Settings) (line : String) : List Token :=
  listed s (tokens (trimLine line)) (lastLine (trimLine line))

/-- **A prompt that shows nothing**: neither a text before each line nor a listing. -/
structure ShowsNothing (s : Settings) (lines : List (List UInt8)) : Prop where
  prompt : s.prompt = ""
  listings : ∀ line ∈ lines, ∃ text, decode line = some text ∧ listing s.format (lineTokens s text) = ""

variable {s : Settings} {line : List UInt8} {lines : List (List UInt8)} {text : String}

theorem showsNothing_cons (hline : decode line = some text) :
    ShowsNothing s (line :: lines) ↔
      listing s.format (lineTokens s text) = "" ∧ ShowsNothing s lines := by
  constructor
  · intro h
    obtain ⟨text', htext', hempty⟩ := h.listings line List.mem_cons_self
    obtain rfl : text = text' := Option.some.inj (hline.symm.trans htext')
    exact ⟨hempty, h.prompt, fun l hl => h.listings l (List.mem_cons_of_mem line hl)⟩
  · intro h
    refine ⟨h.2.prompt, List.forall_mem_cons.mpr ⟨⟨text, hline, h.1⟩, h.2.listings⟩⟩

theorem outputOf_promptScript_cons (hline : decode line = some text) :
    outputOf (promptScript s (line :: lines)).actions =
      s.prompt ++ (listing s.format (lineTokens s text) ++ outputOf (promptScript s lines).actions) := by
  rw [promptScript_cons_of_text s lines hline]
  show outputOf (printPrompt s :: lineActions s text ++ (promptScript s lines).actions) = _
  rw [outputOf_append, printPrompt, outputOf_cons_print, lineActions, outputOf_append,
    outputOf_map_complain, printListing, outputOf_cons_print, lineTokens]
  simp [outputOf, String.append_assoc]

/-- A line is passed only if nothing is printed for it. -/
theorem ending_onFull_cons (hline : decode line = some text) :
    (promptScript s (line :: lines)).onFull.ending =
      if s.prompt = "" then
        if listing s.format (lineTokens s text) = "" then (promptScript s lines).onFull.ending
        else .broken (listingError s.format (lineTokens s text))
      else .broken (.output noRoom) := by
  rw [promptScript_cons_of_text s lines hline, Script.onFull]
  show (Script.cut _ (printPrompt s :: lineActions s text ++ (promptScript s lines).actions)).ending = _
  rw [lineActions, List.cons_append, List.append_assoc, printPrompt, Script.ending_cut_print,
    Script.ending_cut_map_complain, printListing]
  show (if _ then (Script.cut _ (.print _ _ :: _)).ending else _) = _
  rw [Script.ending_cut_print]
  rfl

/-- A prompt that shows nothing still ends the line that its last prompt is on. -/
theorem ShowsNothing.outputOf_eq (h : ShowsNothing s lines) :
    outputOf (promptScript s lines).actions = "\n" := by
  have hprompt := h.prompt
  induction lines with
  | nil =>
    show outputOf [.print s.prompt _, .print "\n" _] = "\n"
    rw [outputOf_cons_print, hprompt]
    rfl
  | cons line lines ih =>
    obtain ⟨text, hline, hempty⟩ := h.listings line List.mem_cons_self
    rw [outputOf_promptScript_cons hline, hprompt, hempty, ih ((showsNothing_cons hline).mp h).2]
    rfl

/-- **Where a prompt is broken off**: at the first text that is printed for it. This is noticed unless
it is the end of the last line. -/
theorem ending_onFull_promptScript (hout : outputOf (promptScript s lines).actions ≠ "") :
    (ShowsNothing s lines ∧ (promptScript s lines).onFull.ending = .crashed .lastLine noRoom) ∨
      (¬ ShowsNothing s lines ∧
        ∃ e, Unwritten e ∧ (promptScript s lines).onFull.ending = .broken e) := by
  by_cases hprompt : s.prompt = ""
  · -- on the lines up to the first one that lists something
    induction lines with
    | nil =>
      refine .inl ⟨⟨hprompt, by simp⟩, ?_⟩
      show (Script.cut _ (.print s.prompt _ :: _)).ending = _
      rw [Script.ending_cut_print, if_pos hprompt]
      rfl
    | cons line lines ih =>
      cases hline : decode line with
      | none =>
        -- nothing is printed before a line that is no text
        rw [promptScript_cons_of_noText s lines hline] at hout
        exact absurd (show outputOf [printPrompt s] = "" by simp [outputOf, printPrompt,
          Action.printed?, hprompt]) hout
      | some text =>
        rw [ending_onFull_cons hline, if_pos hprompt, showsNothing_cons hline]
        by_cases hempty : listing s.format (lineTokens s text) = ""
        · rw [outputOf_promptScript_cons hline, hprompt, hempty] at hout
          simpa only [hempty, if_true, true_and] using ih (by simpa using hout)
        · rw [if_neg hempty]
          exact .inr ⟨fun h => hempty h.1, _, unwritten_listingError _ _, rfl⟩
  · refine .inr ⟨fun h => hprompt h.prompt, _, .output, ?_⟩
    -- the first prompt is printed in any case
    have hscript : ∃ e as, promptScript s lines = ⟨printPrompt s :: as, e⟩ := by
      cases lines with
      | nil => exact ⟨_, _, rfl⟩
      | cons line lines => exact ⟨_, _, rfl⟩
    obtain ⟨e, as, hscript⟩ := hscript
    rw [hscript]
    show (Script.cut e (.print s.prompt _ :: as)).ending = _
    rw [Script.ending_cut_print, if_neg hprompt]

/-! ## §4 Calls without room -/

/-- **Calls that print only what they do not ask about**, with the first of it: the version, or a line feed
at the end of a prompt that shows nothing else. -/
inductive Unasked (i : Invocation) (w : Surroundings) : Unchecked → Prop where
  | version (h : i.version = true) : Unasked i w .version
  | prompt {s : Settings} {lines : List (List UInt8)} (hversion : i.version = false)
      (hfile : i.file = none) (hsettings : i.settings w.files = .ok s)
      (hlines : InputLines w.input lines) (hnothing : ShowsNothing s lines) : Unasked i w .lastLine

/-- **Calls that crash**: with code 101, and with the report on the crash at the end of what is written to
standard error. -/
structure Crashed (crash : Crash) (r : Result) : Prop where
  code : r.code = 101
  output : r.output = ""
  errors : ∃ before, r.errors = before ++ ("\nthread 'main' (" ++ toString crash.thread ++
    ") panicked at " ++ crash.place ++
    ":\nfailed printing to stdout: No space left on device (os error 28)\n" ++ crash.trail)

/-- **Calls that are broken off in order**: with code 74, and with an error at the end of what is written
to standard error that says that there is no room. -/
structure BrokenOff (terminal : Bool) (r : Result) : Prop where
  code : r.code = 74
  output : r.output = ""
  errors : ∃ before message, r.errors = before ++ errorLine terminal message ∧
    (message = "failed to write output: No space left on device (os error 28)" ∨
      message = "failed to serialize tokens: No space left on device (os error 28)")

theorem Unwritten.brokenOff {e : RunError} (he : Unwritten e) {s : Script}
    (h : s.onFull.ending = .broken e) (terminal : Bool) (crash : Unchecked → Crash) :
    BrokenOff terminal (s.onFull.result terminal crash) := by
  rw [s.result_onFull_eq terminal crash, h]
  refine ⟨he.code_eq, rfl, errorsOf terminal s.onFull.actions, e.text, ?_, he.text_eq⟩
  rw [← render_ofError]
  rfl

/-- A text that is not asked about and cannot be printed is a crash. -/
theorem crashed_of_ending {s : Script} {text : Unchecked}
    (h : s.onFull.ending = .crashed text noRoom) (terminal : Bool) (crash : Unchecked → Crash) :
    Crashed (crash text) (s.onFull.result terminal crash) := by
  rw [s.result_onFull_eq terminal crash, h]
  refine ⟨rfl, rfl, errorsOf terminal s.onFull.actions, ?_⟩
  have hmessage : ":\nfailed printing to stdout: No space left on device (os error 28)\n" =
      ":\n" ++ (("failed printing to stdout: " ++ noRoom) ++ "\n") := rfl
  -- a report has no colours
  show _ ++ Styled.render terminal (Ending.complaint crash (.crashed text noRoom)) = _
  rw [Ending.complaint, Styled.render_singleton]
  unfold Crash.report
  simp only [hmessage, String.append_assoc]

variable {w : Surroundings} {args : List String} {i : Invocation}

/-- A listing of a file that cannot be printed breaks off the call. -/
theorem ending_onFull_fileScript {path source : String}
    (hout : outputOf (fileScript s path source).actions ≠ "") :
    ∃ e, Unwritten e ∧ (fileScript s path source).onFull.ending = .broken e := by
  have houtput : outputOf (fileScript s path source).actions =
      listing s.format (listed s (tokens source) (lastLine source)) :=
    congrArg Result.output (result_fileScript s path source default)
  obtain ⟨complaints, -, hscript⟩ := fileScript_eq s path source
  refine ⟨listingError s.format (listed s (tokens source) (lastLine source)),
    unwritten_listingError _ _, ?_⟩
  rw [hscript, Script.onFull, printListing, Script.ending_cut_print, if_neg (houtput ▸ hout)]

/-- A call that cannot print what it does not ask about ends there. -/
theorem Unasked.ending_eq {text : Unchecked} (hargs : parse args = .ok i) (h : Unasked i w text) :
    outputOf ((plan args w.files).toScript w.input).actions ≠ "" ∧
      ((plan args w.files).toScript w.input).onFull.ending = .crashed text noRoom := by
  cases h with
  | version h =>
    have hplan : plan args w.files = .script ⟨[.print versionLine (.crashed .version noRoom)], .exit 0⟩ := by
      simp only [plan, hargs, Invocation.plan, h, if_true]
    rw [hplan, Plan.toScript]
    exact ⟨by decide, by decide⟩
  | @prompt s lines hversion hfile hsettings hlines hnothing =>
    have hcall : Accepted w args i s := ⟨hargs, hversion, hsettings⟩
    have hout : outputOf (promptScript s lines).actions ≠ "" := by
      rw [hnothing.outputOf_eq]
      decide
    rw [hcall.plan_prompt hfile, Plan.toScript, splitLines_eq_iff.mpr hlines]
    rcases ending_onFull_promptScript hout with ⟨-, hending⟩ | ⟨hnot, -⟩
    · exact ⟨hout, hending⟩
    · exact absurd hnothing hnot

/-- All other calls that print something are broken off in order. -/
theorem brokenOff_run (hargs : parse args = .ok i) (h : ∀ text, ¬ Unasked i w text)
    (hout : (run { w with outputFull := false } args).output ≠ "") :
    BrokenOff w.errorsToTerminal (run { w with outputFull := true } args) := by
  have hversion : i.version = false := Bool.eq_false_iff.mpr fun hv => h _ (.version hv)
  rcases accepted_or_refused (w := w) hargs hversion with ⟨s, hcall, hsource⟩ | ⟨code, message, hrefused⟩
  · cases hfile : i.file with
    | none =>
      rw [run, hcall.plan_prompt hfile] at hout ⊢
      rcases ending_onFull_promptScript hout with ⟨hnothing, -⟩ | ⟨-, e, he, hending⟩
      · exact absurd (.prompt hversion hfile hcall.settings (inputLines_splitLines w.input) hnothing)
          (h .lastLine)
      · exact he.brokenOff hending w.errorsToTerminal w.crash
    | some path =>
      obtain ⟨source, hread⟩ := hsource path hfile
      rw [run, hcall.plan_file hfile hread] at hout ⊢
      obtain ⟨e, he, hending⟩ := ending_onFull_fileScript hout
      exact he.brokenOff hending w.errorsToTerminal w.crash
  · -- a refusal prints nothing
    rw [hrefused.run_eq (w := { w with outputFull := false }) hargs hversion] at hout
    exact absurd rfl hout

/-- **Calls without room for their output.** Let the arguments be accepted without a call for help.

* A call that prints nothing is the same without room.
* A call that prints something is broken off in order, unless it does not ask whether what it prints
  could be printed.
* In this case it crashes, with code 101 and the report on the crash. -/
theorem run_outputFull {args : List String} {i : Invocation} (hargs : parse args = .ok i)
    (w : Surroundings) :
    let good := run { w with outputFull := false } args
    let full := run { w with outputFull := true } args
    (good.output = "" → full = good) ∧
      (good.output ≠ "" → (∀ text, ¬ Unasked i w text) → BrokenOff w.errorsToTerminal full) ∧
      (∀ text, Unasked i w text → good.output ≠ "" ∧ Crashed (w.crash text) full) := by
  refine ⟨fun h => Script.result_onFull _ _ _ h, fun hout h => brokenOff_run hargs h hout, ?_⟩
  intro text h
  obtain ⟨hout, hending⟩ := h.ending_eq hargs
  exact ⟨hout, crashed_of_ending hending _ _⟩

/-- An empty file needs room for its listing as JSON only, and the version needs it without asking. -/
theorem run_outputFull_each_way :
    let crash : Crash := ⟨4, "stdio.rs:1168:9", ""⟩
    let w : Bool → Surroundings := fun full =>
      ⟨fun path => if path = "a.lox" then .ok (encode "") else .error .notFound, [], false, full,
        fun _ => crash⟩
    run (w true) ["a.lox"] = run (w false) ["a.lox"] ∧
      BrokenOff false (run (w true) ["--format=json", "a.lox"]) ∧
      Crashed crash (run (w true) ["--version"]) := by
  intro crash w
  have hjson : Accepted (w false) ["--format=json", "a.lox"]
      ⟨some "a.lox", some "json", none, false, false, false⟩ ⟨.json, true, "> ", false⟩ := ⟨rfl, rfl, rfl⟩
  have htext : Accepted (w false) ["a.lox"]
      ⟨some "a.lox", none, none, false, false, false⟩ ⟨.text, true, "> ", false⟩ := ⟨rfl, rfl, rfl⟩
  have hversion : parse ["--version"] = .ok ⟨none, none, none, false, false, true⟩ := rfl
  have hread : (w false).files "a.lox" = .ok (encode "") := rfl
  have htokens : tokens "" = [] := by cbv
  have hnot : ∀ text,
      ¬ Unasked ⟨some "a.lox", some "json", none, false, false, false⟩ (w false) text := by
    intro text h
    cases h with
    | version h => cases h
    | prompt hversion hfile => cases hfile
  obtain ⟨hsame, -⟩ := run_outputFull htext.parsed (w false)
  obtain ⟨-, hbroken, -⟩ := run_outputFull hjson.parsed (w false)
  obtain ⟨-, -, hcrashed⟩ := run_outputFull hversion (w false)
  refine ⟨hsame ?_, hbroken ?_ hnot, (hcrashed .version (.version rfl)).2⟩
  · rw [htext.run_file_eq rfl hread rfl, result_fileScript, htokens]
    decide
  · rw [hjson.run_file_eq rfl hread rfl, result_fileScript, htokens]
    decide

/-- The version is printed without asking, and so its call is not broken off in order. -/
theorem run_version_outputFull :
    let w : Bool → Surroundings := fun full =>
      ⟨fun _ => .error .notFound, [], false, full, fun _ => ⟨4, "stdio.rs:1168:9", ""⟩⟩
    (run (w false) ["--version"]).output = "rlox Version 0.1.0\n" ∧
      run (w true) ["--version"] = ⟨101, "", "\nthread 'main' (4) panicked at stdio.rs:1168:9:\n" ++
        "failed printing to stdout: No space left on device (os error 28)\n"⟩ ∧
      ¬ BrokenOff false (run (w true) ["--version"]) := by
  intro w
  have hfull : run (w true) ["--version"] = ⟨101, "",
      "\nthread 'main' (4) panicked at stdio.rs:1168:9:\n" ++
        "failed printing to stdout: No space left on device (os error 28)\n"⟩ := by decide
  refine ⟨by decide, hfull, ?_⟩
  intro h
  have h74 := h.code
  rw [hfull] at h74
  cases h74

end LoxLexer.Command
