import LoxLexer.Command.Styled
import LoxLexer.Diagnostic.Bus

/-!
# Complaints

What is written to standard error, a line or two at a time: a diagnostic of a file, a report at the
prompt, the number of errors in a file, and the error that ends a run.

* `plain_ofDiagnostic`, `plain_ofReport`, `plain_ofCount`, `plain_ofError`: complaints without colours.
-/

namespace LoxLexer.Command.Complaint

/-- The word that marks an error. -/
def errorWord : Piece := ⟨[.bold, .red], "error"⟩

/-- A line number between brackets. -/
def lineMark (line : Nat) : Piece := ⟨[.cyan], "[line " ++ toString line ++ "]"⟩

/-- A diagnostic on a line of its own. -/
def ofDiagnostic (d : Diagnostic) : Styled :=
  (match d.file with | none => [] | some f => [⟨[.cyan], f⟩, .bare ": "])
    ++ (match d.line with | none => [] | some n => [lineMark n, .bare " "])
    ++ [errorWord, .bare " ", ⟨[.cyan], "LOX" ++ toString d.code⟩, .bare (": " ++ d.message ++ "\n")]

/-- A report on a line of its own. -/
def ofReport (r : Report) : Styled :=
  [lineMark r.line, .bare " ", errorWord, .bare (": " ++ r.message ++ "\n")]

/-- The number of errors, after an empty line. -/
def ofCount (n : Nat) : Styled :=
  [.bare "\n", ⟨[.red], "Found " ++ toString n ++ " error" ++ (if n = 1 then "" else "s") ++ "."⟩,
    .bare "\n"]

/-- The error that ends a run. -/
def ofError (message : String) : Styled :=
  [errorWord, .bare (": " ++ message ++ "\n")]

theorem plain_ofDiagnostic (d : Diagnostic) : (ofDiagnostic d).plain = d.text ++ "\n" := by
  obtain ⟨file, line, code, message⟩ := d
  rw [← String.toList_inj]
  cases file <;> cases line <;>
    simp [ofDiagnostic, Styled.plain, lineMark, errorWord, Piece.bare, Diagnostic.text,
      Diagnostic.place, String.join]

theorem plain_ofReport (r : Report) :
    (ofReport r).plain = "[line " ++ toString r.line ++ "] error: " ++ r.message ++ "\n" := by
  rw [← String.toList_inj]
  simp [ofReport, Styled.plain, lineMark, errorWord, Piece.bare]

theorem plain_ofCount (n : Nat) :
    (ofCount n).plain =
      "\nFound " ++ toString n ++ " error" ++ (if n = 1 then "" else "s") ++ ".\n" := by
  rw [← String.toList_inj]
  simp [ofCount, Styled.plain, Piece.bare]

theorem plain_ofError (message : String) :
    (ofError message).plain = "error: " ++ message ++ "\n" := by
  rw [← String.toList_inj]
  simp [ofError, Styled.plain, errorWord, Piece.bare]

end LoxLexer.Command.Complaint
