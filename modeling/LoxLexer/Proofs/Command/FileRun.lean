import LoxLexer.Proofs.Scan.Faults
import LoxLexer.Proofs.Command.Rendering
import LoxLexer.Proofs.Command.Result

/-!
# Scanning a file

A call with a file prints the listing of the tokens of its text and writes the diagnostics of the text,
each once, with their number at the end. The number and the exit code come from the reports that were
made while the scan went on, the lines that are written from the diagnostics that were kept, and these
have been given the file and then sorted. Neither makes a difference: there are as many reports as
diagnostics, and since lines never decrease during a scan, the diagnostics are sorted as they come.

* `fileDiagnostics_eq_map`: sorting changes nothing.
* `run_file`: what can be seen of a call with a file.
-/

namespace LoxLexer.Command

/-! ## §1 Two channels -/

theorem notAfter_withFile {d e : Diagnostic} (h : d.line.getD 0 ≤ e.line.getD 0) (path : String) :
    (d.withFile path).notAfter (e.withFile path) = true := by
  simp [Diagnostic.notAfter, Diagnostic.withFile, h]

/-- **Sorting changes nothing**: the diagnostics of a file are shown in the order in which the scan finds
them. -/
theorem fileDiagnostics_eq_map (path source : String) :
    fileDiagnostics path source = (diagnostics source).map (Diagnostic.withFile path) := by
  have hlines : (diagnostics source).Pairwise fun d e => d.line.getD 0 ≤ e.line.getD 0 :=
    (pairwise_line_faultsOf 1 _).map _ fun f g hfg => hfg
  apply List.mergeSort_of_pairwise
  exact hlines.map _ fun d e hde => notAfter_withFile hde path

theorem length_reports (source : String) :
    (reports source).length = (diagnostics source).length := by
  rw [reports_eq_map, List.length_map]

/-- A diagnostic of a file as it is shown. -/
theorem text_withFile {d : Diagnostic} {line : Nat} (h : d.line = some line) (path : String) :
    (d.withFile path).text =
      path ++ ": [line " ++ toString line ++ "] error LOX" ++ toString d.code ++ ": " ++ d.message := by
  rw [← String.toList_inj]
  simp [Diagnostic.text, Diagnostic.place, Diagnostic.withFile, h]

/-! ## §2 The whole call -/

/-- What is seen of the script for a file where standard error is not a terminal. -/
theorem result_fileScript (s : Settings) (path source : String) (crash : Unchecked → Crash) :
    (fileScript s path source).result false crash =
      { code := if (diagnostics source).length = 0 then 0 else 65
        output := listing s.format (listed s (tokens source) (lastLine source))
        errors :=
          if (diagnostics source).length = 0 then ""
          else String.join ((diagnostics source).map fun d => (d.withFile path).text ++ "\n") ++
            (Complaint.ofCount (diagnostics source).length).plain } := by
  have hcomplaints : errorsOf false ((fileDiagnostics path source).map fun d =>
      .complain s.pretty (Complaint.ofDiagnostic d)) =
        String.join ((diagnostics source).map fun d => (d.withFile path).text ++ "\n") := by
    rw [errorsOf_map_complain, fileDiagnostics_eq_map, List.map_map]
    simp only [Function.comp_def, Complaint.plain_ofDiagnostic]
  unfold fileScript
  simp only [length_reports]
  -- with no diagnostics nothing is written to standard error, not even their number
  split
  · next hnone =>
    rw [List.length_eq_zero_iff.mp hnone, List.map_nil] at hcomplaints
    rw [Script.result_eq, printListing, outputOf_cons_print, outputOf_map_complain,
      errorsOf_cons_print, hcomplaints, String.append_empty]
    rfl
  · rw [Script.result_eq, printListing, outputOf_cons_print, outputOf_append, outputOf_map_complain,
      errorsOf_cons_print, errorsOf_append, hcomplaints, errorsOf_cons_complain,
      outputOf_cons_complain]
    simp [outputOf, errorsOf, Ending.complaint, Styled.render, Styled.plain, Ending.code]

/-- **A call with a file.** Where standard output can be written and standard error is not a terminal,
the listing of the tokens of the text in their order is printed, with the end of the text after them if that
is wanted. As text it is their lines, as JSON it is the list of their records. Standard error stays empty if
there are no diagnostics. Otherwise it has each of them once, in the order in which the scan finds them, on
a line with the path, and then an empty line and their number. The exit code is 65 if there are any, and 0
if there are none. -/
theorem run_file {w : Surroundings} {args : List String} {i : Invocation} {s : Settings}
    {path source : String} (hcall : Accepted w args i s) (hfile : i.file = some path)
    (hread : w.files path = .ok (encode source)) (hfull : w.outputFull = false)
    (hterminal : w.errorsToTerminal = false) :
    run w args =
      { code := if (diagnostics source).length = 0 then 0 else 65
        output := rendering s.format (tokens source ++
          if s.showEof then [⟨.eof, "", none, 1 + lineFeeds source.toList⟩] else [])
        errors :=
          if (diagnostics source).length = 0 then ""
          else String.join ((diagnostics source).map fun d => (d.withFile path).text ++ "\n") ++
            ("\nFound " ++ toString (diagnostics source).length ++ " error" ++
              (if (diagnostics source).length = 1 then "" else "s") ++ ".\n") } ∧
    ∀ d ∈ diagnostics source, ∃ line, d.line = some line ∧
      (d.withFile path).text = path ++ ": [line " ++ toString line ++ "] error LOX" ++
        toString d.code ++ ": " ++ d.message := by
  constructor
  · rw [hcall.run_file_eq hfile hread hfull, hterminal, result_fileScript, Complaint.plain_ofCount,
      listing_eq_rendering, listed, lastLine_eq]
    rfl
  · intro d hd
    obtain ⟨n, -, hline⟩ := exists_line_of_mem_diagnostics hd
    exact ⟨1 + n, hline, text_withFile hline path⟩

/-- A file with a wrong character on its first line and an open string that begins on the second, listed as
text; and a file with a string over two lines and a number, listed as JSON. -/
theorem run_file_both_formats :
    let files : Files := fun path =>
      if path = "main.lox" then .ok (encode "x # y\n\"open")
      else if path = "data.lox" then .ok (encode "\"\\\n\" 2.50")
      else .error .notFound
    run ⟨files, [], false, false, default⟩ ["--show-eof", "main.lox"] =
        ⟨65, "IDENTIFIER x null\nIDENTIFIER y null\nEOF  null\n",
          "main.lox: [line 1] error LOX1001: Unexpected character '#\n" ++
          "main.lox: [line 2] error LOX1002: unterminated string.\n\nFound 2 errors.\n"⟩ ∧
      run ⟨files, [], false, false, default⟩ ["--format=JSON", "data.lox"] =
        ⟨0, "[\n  \x7b\n    \"kind\": \"STRING\",\n    \"lexeme\": \"\\\"\\\\\\n\\\"\",\n" ++
          "    \"literal\": \"\\\\\\n\",\n    \"line\": 2\n  \x7d,\n" ++
          "  \x7b\n    \"kind\": \"NUMBER\",\n    \"lexeme\": \"2.50\",\n" ++
          "    \"literal\": 2.5,\n    \"line\": 2\n  \x7d\n]\n", ""⟩ := by
  intro files
  have htext : Accepted ⟨files, [], false, false, default⟩ ["--show-eof", "main.lox"]
      ⟨some "main.lox", none, none, true, false, false⟩ ⟨.text, true, "> ", true⟩ := ⟨rfl, rfl, rfl⟩
  have hjson : Accepted ⟨files, [], false, false, default⟩ ["--format=JSON", "data.lox"]
      ⟨some "data.lox", some "JSON", none, false, false, false⟩ ⟨.json, true, "> ", false⟩ :=
    ⟨rfl, rfl, rfl⟩
  have hspans : placedSpans 1 "x # y\n\"open".toList =
      [⟨⟨['x'], .token .identifier none⟩, 1⟩, ⟨⟨[' '], .skipped⟩, 1⟩,
        ⟨⟨['#'], .fault (.unexpectedCharacter '#')⟩, 1⟩, ⟨⟨[' '], .skipped⟩, 1⟩,
        ⟨⟨['y'], .token .identifier none⟩, 1⟩, ⟨⟨['\n'], .skipped⟩, 2⟩,
        ⟨⟨"\"open".toList, .fault .unterminatedString⟩, 2⟩] := by cbv
  have hspans' : placedSpans 1 "\"\\\n\" 2.50".toList =
      [⟨⟨['"', '\\', '\n', '"'], .token .string (some (.text "\\\n"))⟩, 2⟩, ⟨⟨[' '], .skipped⟩, 2⟩,
        ⟨⟨['2', '.', '5', '0'], .token .number (some (.number ⟨0x4004000000000000⟩))⟩, 2⟩] := by
    decide +kernel
  have hread : files "main.lox" = .ok (encode "x # y\n\"open") := rfl
  have hread' : files "data.lox" = .ok (encode "\"\\\n\" 2.50") := rfl
  obtain ⟨hrun, -⟩ := run_file htext rfl hread rfl rfl
  obtain ⟨hrun', -⟩ := run_file hjson rfl hread' rfl rfl
  constructor
  · rw [hrun, tokens, diagnostics, hspans]
    rfl
  · rw [hrun', tokens, diagnostics, hspans']
    decide +kernel

end LoxLexer.Command
