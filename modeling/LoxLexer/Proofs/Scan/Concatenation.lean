import LoxLexer.Proofs.Scan.Lines

/-!
# Scanning one text after another

Reading looks one character past a span. When a text is continued, only its last span can therefore
come out differently, and a last span that ends by itself cannot: then the scan of the whole is the
scan of the first text followed by that of the second, further down.

* `spans_append_of_last`: all spans but the last one stay.
* `spans_append_of_selfDelimiting`: after a span that ends by itself all spans stay.
* `scan_append`: the same for tokens, diagnostics and lines.
-/

namespace LoxLexer

/-! ## §1 Spans that end by themselves -/

/-- The texts of spans that end where they do whatever follows. -/
inductive SelfDelimiting : List Char → Prop where
  | blank {c : Char} (hc : isBlank c = true) : SelfDelimiting [c]
  | mark (m : Mark) : SelfDelimiting [m.char]
  | operator (o : Operator) : SelfDelimiting [o.char, '=']
  | unexpected {c : Char} (hc : Unexpected c) : SelfDelimiting [c]
  | string {body : List Char} (hbody : '"' ∉ body) : SelfDelimiting ('"' :: (body ++ ['"']))

theorem SelfDelimiting.exists_reads {text : List Char} (h : SelfDelimiting text) :
    ∃ o, ∀ next, Reads text o next := by
  cases h with
  | blank hc => exact ⟨_, fun _ => .silent (.blank hc)⟩
  | mark m => exact ⟨_, fun _ => .lexeme (.mark m) trivial⟩
  | operator o => exact ⟨_, fun _ => .lexeme (.operator o true) trivial⟩
  | unexpected hc => exact ⟨_, fun _ => .faulty (.unexpected hc)⟩
  | @string body hbody =>
    -- an empty string is a fault, but it ends at its quote like any other
    by_cases hnil : body = []
    · subst hnil
      exact ⟨_, fun _ => .faulty .emptyString⟩
    · exact ⟨_, fun _ => .lexeme (.string body hnil hbody) trivial⟩

/-- A span that ends by itself has the same outcome before any character. -/
theorem Reads.of_selfDelimiting {text : List Char} {o : Outcome} {next : Option Char}
    (h : Reads text o next) (hself : SelfDelimiting text) (next' : Option Char) :
    Reads text o next' := by
  obtain ⟨o', ho'⟩ := hself.exists_reads
  rw [h.outcome_unique (ho' next)]
  exact ho' next'

/-! ## §2 Spans of a continued text -/

/-- **All spans but the last one stay** when a text is continued. -/
theorem spans_append_of_last {cs ds : List Char} {init : List Span} {last : Span}
    (h : spans cs = init ++ [last]) : spans (cs ++ ds) = init ++ spans (last.text ++ ds) := by
  obtain ⟨hchain, htext⟩ := spans_eq_iff.mp h
  have hne : last.text ≠ [] := hchain.reads.text_ne_nil
  rw [spans_eq_iff]
  constructor
  · -- the character after `init` is the first one of the last span, with or without `ds`
    refine hchain.replace_tail ?_ (chain_spans _)
    obtain ⟨c, more, hc⟩ := List.exists_cons_of_ne_nil hne
    rw [textOf_spans, textOf_cons, textOf_nil, hc]
    rfl
  · rw [textOf_append, textOf_spans, ← htext, textOf_append, textOf_cons, textOf_nil,
      List.append_nil, List.append_assoc]

/-- **All spans stay** when the last one ends by itself. -/
theorem spans_append_of_selfDelimiting {cs ds : List Char} {last : Span}
    (h : (spans cs).getLast? = some last) (hself : SelfDelimiting last.text) :
    spans (cs ++ ds) = spans cs ++ spans ds := by
  obtain ⟨init, hinit⟩ := List.getLast?_eq_some_iff.mp h
  have hreads : Reads last.text last.outcome ds.head? :=
    (hinit ▸ chain_spans cs).reads.of_selfDelimiting hself _
  rw [spans_append_of_last hinit, hreads.spans_append, hinit, List.append_assoc,
    List.singleton_append]

/-! ## §3 Lines further down -/

/-- The same span, that many lines further down. -/
def PlacedSpan.lower (n : Nat) (p : PlacedSpan) : PlacedSpan :=
  { p with line := p.line + n }

/-- The same token, that many lines further down. -/
def Token.lower (n : Nat) (t : Token) : Token :=
  { t with line := t.line + n }

/-- The same diagnostic, that many lines further down. -/
def Diagnostic.lower (n : Nat) (d : Diagnostic) : Diagnostic :=
  { d with line := d.line.map (· + n) }

theorem place_add (line n : Nat) (ss : List Span) :
    place (line + n) ss = (place line ss).map (PlacedSpan.lower n) := by
  induction ss generalizing line with
  | nil => rfl
  | cons s ss ih =>
    rw [place, place, List.map_cons, Nat.add_right_comm, ih]
    rfl

theorem tokensOf_lower (n : Nat) (ps : List PlacedSpan) :
    tokensOf (ps.map (PlacedSpan.lower n)) = (tokensOf ps).map (Token.lower n) := by
  rw [tokensOf, tokensOf, List.filterMap_map, List.map_filterMap]
  refine List.filterMap_congr fun p _ => ?_
  rcases p with ⟨⟨text, outcome⟩, line⟩
  cases outcome <;> rfl

theorem diagnosticsOf_lower (n : Nat) (ps : List PlacedSpan) :
    diagnosticsOf (ps.map (PlacedSpan.lower n)) = (diagnosticsOf ps).map (Diagnostic.lower n) := by
  rw [diagnosticsOf, diagnosticsOf, faultsOf, faultsOf, List.filterMap_map, List.map_map,
    List.map_filterMap, List.map_filterMap]
  refine List.filterMap_congr fun p _ => ?_
  rcases p with ⟨⟨text, outcome⟩, line⟩
  cases outcome <;> rfl

/-- The spans of two texts, the second of which is not continued by the first one. -/
theorem placedSpans_append (line : Nat) {cs ds : List Char}
    (h : spans (cs ++ ds) = spans cs ++ spans ds) :
    placedSpans line (cs ++ ds) =
      placedSpans line cs ++ (placedSpans line ds).map (PlacedSpan.lower (lineFeeds cs)) := by
  rw [placedSpans, h, place_append, lineAfter_spans, place_add, ← placedSpans, ← placedSpans]

/-! ## §4 Scans -/

theorem dropLast_placedSpans_isPrefix (line : Nat) (cs ds : List Char) :
    (placedSpans line cs).dropLast <+: placedSpans line (cs ++ ds) := by
  rcases List.eq_nil_or_concat (spans cs) with hnil | ⟨init, last, hlast⟩
  · rw [placedSpans, hnil]
    exact List.nil_prefix
  · rw [List.concat_eq_append] at hlast
    rw [placedSpans, placedSpans, spans_append_of_last hlast, hlast, place_append, place_append]
    simp [place]

/-- **One character of look-ahead.** When a text is continued, all its spans but the last stay, with
their tokens, diagnostics and lines. If the last one ends by itself, the scan of the whole is the scan of
the first text, and after it that of the second, as many lines further down as the first has line
feeds. -/
theorem scan_append (a b : String) :
    (placedSpans 1 a.toList).dropLast <+: placedSpans 1 (a ++ b).toList ∧
    tokensOf (placedSpans 1 a.toList).dropLast <+: tokens (a ++ b) ∧
    diagnosticsOf (placedSpans 1 a.toList).dropLast <+: diagnostics (a ++ b) ∧
    ∀ last, (spans a.toList).getLast? = some last → SelfDelimiting last.text →
      tokens (a ++ b) = tokens a ++ (tokens b).map (Token.lower (lineFeeds a.toList)) ∧
      diagnostics (a ++ b) =
        diagnostics a ++ (diagnostics b).map (Diagnostic.lower (lineFeeds a.toList)) := by
  have hinit := dropLast_placedSpans_isPrefix 1 a.toList b.toList
  rw [← String.toList_append] at hinit
  -- tokens and diagnostics are found span by span, so that what holds of spans holds of them
  refine ⟨hinit, ?_, ?_, fun last hlast hself => ?_⟩
  · obtain ⟨tail, htail⟩ := hinit
    rw [tokens, ← htail, tokensOf_append]
    exact List.prefix_append _ _
  · obtain ⟨tail, htail⟩ := hinit
    rw [diagnostics, ← htail, diagnosticsOf_append]
    exact List.prefix_append _ _
  · -- the spans of `b` are cut as if `a` were not there, and only their lines know of it
    have hspans : spans (a.toList ++ b.toList) = spans a.toList ++ spans b.toList :=
      spans_append_of_selfDelimiting hlast hself
    have hplaced := placedSpans_append 1 hspans
    rw [← String.toList_append] at hplaced
    constructor
    · rw [tokens, hplaced, tokensOf_append, tokensOf_lower]
      rfl
    · rw [diagnostics, hplaced, diagnosticsOf_append, diagnosticsOf_lower]
      rfl

/-- A word after a string that ends on the second line is on that line. -/
theorem scan_append_string_word :
    (spans "\"x\n\"".toList).getLast? =
        some ⟨"\"x\n\"".toList, .token .string (some (.text "x\n"))⟩ ∧
      SelfDelimiting "\"x\n\"".toList ∧
      tokens ("\"x\n\"" ++ "y") = tokens "\"x\n\"" ++ [⟨.identifier, "y", none, 2⟩] ∧
      diagnostics ("\"x\n\"" ++ "y") = [] := by
  have hlast : (spans "\"x\n\"".toList).getLast? =
      some ⟨"\"x\n\"".toList, .token .string (some (.text "x\n"))⟩ := by cbv
  have hself : SelfDelimiting "\"x\n\"".toList := .string (show '"' ∉ ['x', '\n'] by decide)
  have hword : (tokens "y").map (Token.lower 1) = [⟨.identifier, "y", none, 2⟩] := by cbv
  obtain ⟨-, -, -, hall⟩ := scan_append "\"x\n\"" "y"
  obtain ⟨htokens, hdiag⟩ := hall _ hlast hself
  exact ⟨hlast, hself, htokens.trans (congrArg _ hword), hdiag.trans (by cbv)⟩

end LoxLexer
