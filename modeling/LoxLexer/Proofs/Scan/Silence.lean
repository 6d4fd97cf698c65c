import LoxLexer.Proofs.Scan.Lines

/-!
# Spans that leave no trace

A scan says nothing of the spans that stand for nothing. What it hands out comes from the other spans,
together with the line that each of them is on, and so two sources have the same tokens and the same
diagnostics if the spans that are kept of them are the same.

* `keptOf`: the spans that stand for something, with their lines.
* `keptOf_place_skipped`: a span that stands for nothing matters for the lines after it alone.
* `Reads.of_stops`: where a kept span ends before some character, it ends before every blank and before
  a slash as well.
-/

namespace LoxLexer

/-! ## §1 Kept spans -/

/-- The spans that stand for something. -/
def keptOf (ps : List PlacedSpan) : List PlacedSpan :=
  ps.filter fun p => p.span.outcome ≠ .skipped

theorem tokensOf_keptOf (ps : List PlacedSpan) : tokensOf (keptOf ps) = tokensOf ps := by
  rw [tokensOf, tokensOf, keptOf, List.filterMap_filter]
  apply List.filterMap_congr
  intro p _
  rcases p with ⟨⟨text, outcome⟩, line⟩
  cases outcome <;> rfl

theorem diagnosticsOf_keptOf (ps : List PlacedSpan) : diagnosticsOf (keptOf ps) = diagnosticsOf ps := by
  rw [diagnosticsOf, diagnosticsOf, faultsOf, faultsOf, keptOf, List.filterMap_filter]
  congr 1
  apply List.filterMap_congr
  intro p _
  rcases p with ⟨⟨text, outcome⟩, line⟩
  cases outcome <;> rfl

theorem keptOf_append (ps qs : List PlacedSpan) : keptOf (ps ++ qs) = keptOf ps ++ keptOf qs :=
  List.filter_append _ _

/-- **Sources of which the same spans are kept** have the same tokens and the same diagnostics. -/
theorem scan_eq_of_keptOf_eq {source source' : String}
    (h : keptOf (placedSpans 1 source.toList) = keptOf (placedSpans 1 source'.toList)) :
    tokens source = tokens source' ∧ diagnostics source = diagnostics source' := by
  constructor
  · rw [tokens, tokens, ← tokensOf_keptOf, h, tokensOf_keptOf]
  · rw [diagnostics, diagnostics, ← diagnosticsOf_keptOf, h, diagnosticsOf_keptOf]

theorem keptOf_place_skipped {line : Nat} {s : Span} {ss : List Span} (h : s.outcome = .skipped) :
    keptOf (place line (s :: ss)) = keptOf (place (line + s.newLines) ss) := by
  rw [place, keptOf, List.filter_cons_of_neg (by simpa using h), ← keptOf]

theorem keptOf_place_cons {line : Nat} {s : Span} {ss : List Span} (h : s.outcome ≠ .skipped) :
    keptOf (place line (s :: ss)) =
      ⟨s, line + s.newLines⟩ :: keptOf (place (line + s.newLines) ss) := by
  rw [place, keptOf, List.filter_cons_of_pos (by simpa using h), ← keptOf]

theorem keptOf_place_singleton {line : Nat} {s : Span} (h : s.outcome = .skipped) :
    keptOf (place line [s]) = [] := by
  rw [keptOf_place_skipped h]
  rfl

theorem keptOf_place_append (line : Nat) (ss ss' : List Span) :
    keptOf (place line (ss ++ ss')) = keptOf (place line ss) ++ keptOf (place (lineAfter line ss) ss') := by
  rw [place_append, keptOf_append]

/-- The kept spans of a text that begins with a silent span are those of what follows it. -/
theorem keptOf_placedSpans_of_silent {text cs : List Char} (h : Silent text cs.head?) (line : Nat) :
    keptOf (placedSpans line (text ++ cs)) = keptOf (placedSpans (line + lineFeeds text) cs) := by
  have hreads : Reads text .skipped cs.head? := .silent h
  rw [placedSpans, hreads.spans_append, keptOf_place_skipped rfl, hreads.newLines_eq, ← placedSpans]

theorem keptOf_placedSpans_blank {c : Char} (hc : isBlank c = true) (line : Nat) (cs : List Char) :
    keptOf (placedSpans line (c :: cs)) = keptOf (placedSpans (line + lineFeeds [c]) cs) :=
  keptOf_placedSpans_of_silent (.blank hc) line

/-- The kept spans of a text that begins with a kept span are this one and those of what follows it. -/
theorem keptOf_placedSpans_of_reads {text cs : List Char} {o : Outcome} (h : Reads text o cs.head?)
    (ho : o ≠ .skipped) (line : Nat) :
    keptOf (placedSpans line (text ++ cs)) =
      ⟨⟨text, o⟩, line + lineFeeds text⟩ :: keptOf (placedSpans (line + lineFeeds text) cs) := by
  rw [placedSpans, h.spans_append, keptOf_place_cons ho, h.newLines_eq, ← placedSpans]

/-- Where the first spans of a text end, as many lines have been read as they have line feeds. -/
theorem lineAfter_of_spans_eq {cs : List Char} {before after : List Span}
    (h : spans cs = before ++ after) (line : Nat) :
    lineAfter line before = line + lineFeeds (textOf before) := by
  apply lineAfter_eq_add
  intro s hs
  have hmem : s ∈ spans cs := by
    rw [h]
    exact List.mem_append_left after hs
  exact newLines_eq_of_mem_spans hmem

/-! ## §2 Where a kept span may end -/

/-- A digit before a character that no lexeme goes on with is no number. -/
theorem Faulty.loneDigit_of_stops {d c : Char} (hd : isDigit d = true) (hc : Lexeme.Stops c) :
    Faulty [d] .invalidNumberFormat (some c) := by
  apply Faulty.loneDigit
  apply NumberLexeme.endsAt_cons_iff.mpr
  refine ⟨hd, .start, rfl, ?_⟩
  intro e he
  rw [← Option.some.inj he]
  exact hc.number _

/-- A kept span that is followed by some character ends in the same way before any character that no
lexeme goes on with. -/
theorem Reads.of_stops {text : List Char} {o : Outcome} {c c' : Char} (h : Reads text o (some c))
    (ho : o ≠ .skipped) (hc' : Lexeme.Stops c') : Reads text o (some c') := by
  cases h with
  | silent h => exact absurd rfl ho
  | faulty h =>
    apply Reads.faulty
    cases h with
    | unexpected hc => exact .unexpected hc
    | emptyString => exact .emptyString
    | loneDigit hd =>
      -- a digit that is not continued by the one character is not continued by the other
      obtain ⟨hdigit, -⟩ := NumberLexeme.endsAt_cons_iff.mp hd
      exact .loneDigit_of_stops hdigit hc'
  | lexeme l h =>
    exact .lexeme l (Lexeme.endsAt_of_stops (Lexeme.not_isLoneDigit_of_endsAt h) hc')

end LoxLexer
