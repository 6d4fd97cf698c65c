import LoxLexer.Proofs.Scan.Faults
import LoxLexer.Proofs.Command.InputLines
import LoxLexer.Proofs.Command.Rendering
import LoxLexer.Proofs.Command.Result

/-!
# Sessions at the prompt

A session at the prompt is nothing but its lines, one after the other. For each line the prompt is
printed, the faults of the line are reported and its tokens are listed, all as if the line were the only
one. The session ends with one more prompt, at the end of the input or at the first line that is no text.

* `result_promptScript_append`: lines that are texts come first, whatever is done for the others.
* `promptScript_append_newline`: a line feed at the end of the last line makes no difference.
* `run_prompt`: what can be seen of a call without a file.
-/

namespace LoxLexer.Command

/-! ## §1 One line -/

/-- What is printed for a source at the prompt: the listing of its tokens, and of its end, which is on
the first line. -/
def lineOutput (s : Settings) (source : String) : String :=
  rendering s.format (tokens source ++ if s.showEof then [⟨.eof, "", none, 1⟩] else [])

/-- What is reported for a source at the prompt. All of it is about the first line. -/
def lineReports (source : String) : String :=
  String.join ((diagnostics source).map fun d => "[line 1] error: " ++ d.message ++ "\n")

theorem line_of_newline_not_mem {source : String} (h : '\n' ∉ source.toList) {d : Diagnostic}
    (hd : d ∈ diagnostics source) : d.line = some 1 := by
  obtain ⟨n, hn, hline⟩ := exists_line_of_mem_diagnostics hd
  rw [lineFeeds, List.count_eq_zero.mpr h] at hn
  rw [hline, Nat.le_zero.mp hn]

theorem outputOf_lineActions (s : Settings) {line : String} (h : '\n' ∉ (trimLine line).toList) :
    outputOf (lineActions s line) = lineOutput s (trimLine line) := by
  have hlast : lastLine (trimLine line) = 1 := by
    rw [lastLine_eq, lineFeeds, List.count_eq_zero.mpr h]
  rw [lineActions, outputOf_append, outputOf_map_complain, printListing, outputOf_cons_print, hlast,
    listing_eq_rendering]
  exact String.empty_append.trans String.append_empty

theorem errorsOf_lineActions (s : Settings) {line : String} (h : '\n' ∉ (trimLine line).toList) :
    errorsOf false (lineActions s line) = lineReports (trimLine line) := by
  have hfirst : "[line " ++ toString 1 ++ "] error: " = "[line 1] error: " := by decide
  have hreports : (diagnostics (trimLine line)).map (fun d =>
      (Complaint.ofReport ⟨d.line.getD 0, d.message⟩).plain) =
        (diagnostics (trimLine line)).map fun d => "[line 1] error: " ++ d.message ++ "\n" := by
    apply List.map_congr_left
    intro d hd
    rw [Complaint.plain_ofReport, line_of_newline_not_mem h hd, Option.getD_some, hfirst]
  rw [lineActions, errorsOf_append, errorsOf_map_complain, printListing, errorsOf_cons_print,
    reports_eq_map, List.map_map]
  simp only [Function.comp_def, hreports]
  exact String.append_empty

/-! ## §2 All lines -/

variable (s : Settings) (crash : Unchecked → Crash)

/-- **Lines that are texts come first**, each by itself, whatever is done for the lines after them. -/
theorem result_promptScript_append {texts : List String}
    (h : ∀ t ∈ texts, '\n' ∉ (trimLine t).toList) (rest : List (List UInt8)) :
    (promptScript s (texts.map encode ++ rest)).result false crash =
      { code := ((promptScript s rest).result false crash).code
        output := String.join (texts.map fun t => s.prompt ++ lineOutput s (trimLine t)) ++
          ((promptScript s rest).result false crash).output
        errors := String.join (texts.map fun t => lineReports (trimLine t)) ++
          ((promptScript s rest).result false crash).errors } := by
  -- on the lines that are texts; no line leaves anything behind for the next one
  induction texts with
  | nil =>
    simp only [List.map_nil, List.nil_append, String.join_nil, String.empty_append]
  | cons t texts ih =>
    have ht := h t List.mem_cons_self
    rw [List.map_cons, List.cons_append, promptScript_cons_of_text s _ (decode_encode t),
      Script.result_after,
      ih fun u hu => h u (List.mem_cons_of_mem t hu), printPrompt, outputOf_cons_print,
      errorsOf_cons_print, outputOf_lineActions s ht, errorsOf_lineActions s ht]
    simp only [List.map_cons, String.join_cons, String.append_assoc]

/-- A line feed at the end of a line goes with its end. -/
theorem lineActions_append_newline (line : String) :
    lineActions s (line ++ "\n") = lineActions s line := by
  rw [lineActions, trimLine_append_newline, ← lineActions]

/-- A line spells a text exactly if it does without its line feed. -/
theorem turn_append_newline (line : List UInt8) : turn s (line ++ [10]) = turn s line := by
  rw [turn, turn, decode_append_newline]
  cases decode line with
  | none => rfl
  | some text => exact congrArg Turn.goOn (lineActions_append_newline s text)

/-- **A line feed at the end of the last line makes no difference.** -/
theorem promptScript_append_newline (before : List (List UInt8)) (last : List UInt8) :
    promptScript s (before ++ [last ++ [10]]) = promptScript s (before ++ [last]) := by
  induction before with
  | nil => simp only [List.nil_append, promptScript, turn_append_newline]
  | cons line before ih =>
    rw [List.cons_append, List.cons_append, promptScript, promptScript, ih]

/-- After the last line the prompt is printed once more, and its line is ended. -/
theorem result_promptScript_nil :
    (promptScript s []).result false crash = ⟨0, s.prompt ++ "\n", ""⟩ := by
  rw [promptScript, Script.result_after, printPrompt, outputOf_cons_print, errorsOf_cons_print]
  have hend : promptEnd.result false crash = ⟨0, "\n", ""⟩ := rfl
  rw [hend]
  simp [outputOf, errorsOf]

/-- A line that is no text ends everything, once the prompt is printed. -/
theorem result_promptScript_of_noText {line : List UInt8} (h : decode line = none)
    (rest : List (List UInt8)) :
    (promptScript s (line :: rest)).result false crash =
      ⟨74, s.prompt, "error: failed to write output: stream did not contain valid UTF-8\n"⟩ := by
  rw [promptScript_cons_of_noText s rest h, Script.result_eq, printPrompt, outputOf_cons_print,
    errorsOf_cons_print]
  have hcomplaint : (endAtNoText.complaint crash).render false =
      "error: failed to write output: stream did not contain valid UTF-8\n" :=
    Complaint.plain_ofError _
  rw [hcomplaint]
  simp [outputOf, errorsOf, endAtNoText, Ending.code, RunError.code]

/-! ## §3 The whole call -/

/-- **A call without a file.** Where standard output can be written and standard error is not a terminal,
the input is cut after each line feed, and each line is scanned by itself, without the line feeds and
carriage returns at its end. If all lines are texts, their listings are printed with the prompt before
each of them and once more, their faults are reported in their order, and the exit code is 0. Otherwise
all of this is done for the lines before the first one that is no text, and then the session is broken
off after one more prompt, with exit code 74. A missing line feed at the end of the input makes no
difference. -/
theorem run_prompt {w : Surroundings} {args : List String} {i : Invocation} {s : Settings}
    (hcall : Accepted w args i s) (hfile : i.file = none) (hfull : w.outputFull = false)
    (hterminal : w.errorsToTerminal = false) :
    (∃! lines, InputLines w.input lines) ∧
    (∀ texts : List String, InputLines w.input (texts.map encode) →
      run w args =
        { code := 0
          output := String.join (texts.map fun t => s.prompt ++ lineOutput s (trimLine t)) ++
            s.prompt ++ "\n"
          errors := String.join (texts.map fun t => lineReports (trimLine t)) }) ∧
    (∀ (texts : List String) (bad : List UInt8) (after : List (List UInt8)),
      InputLines w.input (texts.map encode ++ bad :: after) → (∀ t, encode t ≠ bad) →
      run w args =
        { code := 74
          output := String.join (texts.map fun t => s.prompt ++ lineOutput s (trimLine t)) ++ s.prompt
          errors := String.join (texts.map fun t => lineReports (trimLine t)) ++
            "error: failed to write output: stream did not contain valid UTF-8\n" }) ∧
    (w.input ≠ [] → w.input.getLast? ≠ some 10 →
      run { w with input := w.input ++ [10] } args = run w args) := by
  have hrun := hcall.run_prompt_eq hfile hfull
  rw [hterminal] at hrun
  refine ⟨?_, ?_, ?_, ?_⟩
  · refine ⟨splitLines w.input, inputLines_splitLines w.input, ?_⟩
    intro lines hlines
    exact (splitLines_eq_iff.mpr hlines).symm
  · intro texts hlines
    have htrim : ∀ t ∈ texts, '\n' ∉ (trimLine t).toList := fun t ht =>
      newline_not_mem_trimLine hlines (List.mem_map_of_mem ht)
    have hresult := result_promptScript_append s w.crash htrim []
    rw [List.append_nil, result_promptScript_nil] at hresult
    rw [hrun, splitLines_eq_iff.mpr hlines, hresult]
    simp only [String.append_empty, String.append_assoc]
  · intro texts bad after hlines hbad
    have htrim : ∀ t ∈ texts, '\n' ∉ (trimLine t).toList := fun t ht =>
      newline_not_mem_trimLine hlines (List.mem_append_left _ (List.mem_map_of_mem ht))
    rw [hrun, splitLines_eq_iff.mpr hlines, result_promptScript_append s w.crash htrim,
      result_promptScript_of_noText s w.crash (decode_eq_none_iff.mpr hbad)]
  · -- the line feed that is added ends the last line and begins no other
    intro hne hend
    obtain ⟨before, last, hlines, hmore⟩ :=
      (inputLines_splitLines w.input).exists_append_newline hne hend
    have hcall' : Accepted { w with input := w.input ++ [10] } args i s :=
      ⟨hcall.parsed, hcall.version, hcall.settings⟩
    rw [hrun, hlines, hcall'.run_prompt_eq hfile hfull, splitLines_eq_iff.mpr hmore,
      promptScript_append_newline]
    simp only [hterminal]

/-- A session as text of two lines and a third that is no text. The fault on the second line is reported as
one on line 1, and the third line, which has no line feed, ends the session. And a session as JSON of two
lines, the second of which has no tokens. -/
theorem run_prompt_both_formats :
    let session : List UInt8 → Surroundings := fun input =>
      ⟨fun _ => .error .notFound, input, false, false, default⟩
    run (session (encode "x\r\n" ++ encode "# y\n" ++ [255])) ["--show-eof"] =
        ⟨74, "> IDENTIFIER x null\nEOF  null\n> IDENTIFIER y null\nEOF  null\n> ",
          "[line 1] error: Unexpected character '#\n" ++
          "error: failed to write output: stream did not contain valid UTF-8\n"⟩ ∧
      run (session (encode "7\n" ++ encode "\n")) ["--format=json"] =
        ⟨0, "> [\n  \x7b\n    \"kind\": \"NUMBER\",\n    \"lexeme\": \"7\",\n    \"literal\": 7.0,\n" ++
          "    \"line\": 1\n  \x7d\n]\n> []\n> \n", ""⟩ := by
  intro session
  have htext : Accepted (session (encode "x\r\n" ++ encode "# y\n" ++ [255])) ["--show-eof"]
      ⟨none, none, none, true, false, false⟩ ⟨.text, true, "> ", true⟩ := ⟨rfl, rfl, rfl⟩
  have hjson : Accepted (session (encode "7\n" ++ encode "\n")) ["--format=json"]
      ⟨none, some "json", none, false, false, false⟩ ⟨.json, true, "> ", false⟩ := ⟨rfl, rfl, rfl⟩
  have hlines : InputLines (encode "x\r\n" ++ encode "# y\n" ++ [255])
      (["x\r\n", "# y\n"].map encode ++ [[255]]) := splitLines_eq_iff.mp (by decide)
  have hlines' : InputLines (encode "7\n" ++ encode "\n") (["7\n", "\n"].map encode) :=
    splitLines_eq_iff.mp (by decide)
  have hbad : ∀ t, encode t ≠ [255] := decode_eq_none_iff.mp (by decide)
  have htrim : trimLine "x\r\n" = "x" ∧ trimLine "# y\n" = "# y" ∧ trimLine "7\n" = "7" ∧
      trimLine "\n" = "" := by decide
  have hword : placedSpans 1 "x".toList = [⟨⟨['x'], .token .identifier none⟩, 1⟩] := by cbv
  have hfault : placedSpans 1 "# y".toList =
      [⟨⟨['#'], .fault (.unexpectedCharacter '#')⟩, 1⟩, ⟨⟨[' '], .skipped⟩, 1⟩,
        ⟨⟨['y'], .token .identifier none⟩, 1⟩] := by cbv
  have hnumber : placedSpans 1 "7".toList =
      [⟨⟨['7'], .token .number (some (.number ⟨0x401c000000000000⟩))⟩, 1⟩] := by decide +kernel
  have hnothing : placedSpans 1 "".toList = [] := by cbv
  obtain ⟨-, -, hbroken, -⟩ := run_prompt htext rfl rfl rfl
  obtain ⟨-, hended, -, -⟩ := run_prompt hjson rfl rfl rfl
  constructor
  · rw [hbroken _ _ _ hlines hbad]
    simp only [List.map_cons, List.map_nil, htrim, lineOutput, lineReports, tokens, diagnostics, hword,
      hfault]
    rfl
  · rw [hended _ hlines']
    simp only [List.map_cons, List.map_nil, htrim, lineOutput, lineReports, tokens, diagnostics,
      hnumber, hnothing]
    decide +kernel

end LoxLexer.Command
