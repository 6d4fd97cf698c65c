import LoxLexer.Proofs.Scan.Lines

/-!
# Diagnostics are exactly the errors of a source

What is wrong with a source is said here by its characters alone: a character that begins nothing, a
string that is empty or not closed, and a digit that is not continued. A scan has one diagnostic for each
span at which one of these is found, and no other.

## Main Results

* `errorAt_iff`: errors, as the characters show them, are the faults of the rules of spans.
* `diagnostics_exact`: the diagnostics of a scan, span by span.
-/

namespace LoxLexer

/-! ## §1 Errors by their characters -/

/-- **An error at the front of a text**: the text of its span, its code and its wording. -/
inductive ErrorAt : List Char → List Char → Nat → String → Prop where
  /-- A character that begins nothing. No quote follows it in the wording. -/
  | unexpected {c : Char} {rest : List Char} (hc : Unexpected c) :
      ErrorAt (c :: rest) [c] 1001 ("Unexpected character '" ++ String.singleton c)
  | emptyString {rest : List Char} :
      ErrorAt ('"' :: '"' :: rest) ['"', '"'] 1002 "unterminated string."
  | openString {body : List Char} (hbody : '"' ∉ body) :
      ErrorAt ('"' :: body) ('"' :: body) 1002 "unterminated string."
  | loneDigit {d c : Char} {rest : List Char} (hd : isDigit d = true) (hdigit : isDigit c = false)
      (hdot : c ≠ '.') (hplus : c ≠ '+') (hminus : c ≠ '-') :
      ErrorAt (d :: c :: rest) [d] 1003 "invalid number format"

/-- A digit is not continued by a character other than a digit, a point and a sign. -/
theorem NumberLexeme.endsAt_singleton_iff {d c : Char} :
    EndsAt [d] (some c) ↔
      isDigit d = true ∧ isDigit c = false ∧ c ≠ '.' ∧ c ≠ '+' ∧ c ≠ '-' := by
  have hstep : Phase.start.next? c = none ↔
      isDigit c = false ∧ c ≠ '.' ∧ c ≠ '+' ∧ c ≠ '-' := by
    simp only [Phase.next?, beginsRun]
    by_cases hd : isDigit c = true <;> by_cases hdot : c = '.' <;> simp_all
  rw [endsAt_cons_iff]
  constructor
  · rintro ⟨hd, q, hq, hstop⟩
    obtain rfl : Phase.start = q := Option.some.inj hq
    exact ⟨hd, hstep.mp (hstop c rfl)⟩
  · rintro ⟨hd, hc⟩
    refine ⟨hd, Phase.start, rfl, ?_⟩
    intro e he
    rw [← Option.some.inj he]
    exact hstep.mpr hc

theorem Fault.text_unexpectedCharacter (c : Char) :
    (Fault.unexpectedCharacter c).text = "Unexpected character '" ++ String.singleton c := by
  have htemplate : Message.unexpectedCharacter.template =
      "Unexpected character '" ++ String.ofList (Template.hole 0) := by decide
  rw [Fault.text, Fault.message, Fault.arguments, htemplate]
  exact Template.fill_hole (by decide) _

/-- **Errors are faults.** What the characters at the front of a text show is what the rules of spans
say, and the other way round. -/
theorem errorAt_iff {text spanText : List Char} {code : Nat} {message : String} :
    ErrorAt text spanText code message ↔ ∃ f rest, text = spanText ++ rest ∧
      Faulty spanText f rest.head? ∧ f.message.code = code ∧ f.text = message := by
  constructor
  · -- what is left of the text gives the character after the span, or none
    intro h
    cases h with
    | @unexpected c rest hc =>
      exact ⟨_, rest, rfl, .unexpected hc, rfl, Fault.text_unexpectedCharacter c⟩
    | @emptyString rest => exact ⟨_, rest, rfl, .emptyString, rfl, Template.fill_nil _⟩
    | openString hbody =>
      exact ⟨_, [], (List.append_nil _).symm, .openString hbody, rfl, Template.fill_nil _⟩
    | @loneDigit d c rest hd hdigit hdot hplus hminus =>
      have hends := NumberLexeme.endsAt_singleton_iff.mpr ⟨hd, hdigit, hdot, hplus, hminus⟩
      exact ⟨_, c :: rest, rfl, .loneDigit hends, rfl, Template.fill_nil _⟩
  · rintro ⟨f, rest, rfl, hf, rfl, rfl⟩
    generalize hnext : rest.head? = next at hf
    cases hf with
    | @unexpected c _ hc =>
      rw [Fault.text_unexpectedCharacter]
      exact .unexpected hc
    | emptyString =>
      rw [Fault.text, Fault.arguments, Template.fill_nil]
      exact .emptyString
    | openString hbody =>
      -- no character follows, so that nothing is left
      rw [List.head?_eq_none_iff.mp hnext, List.append_nil, Fault.text, Fault.arguments,
        Template.fill_nil]
      exact .openString hbody
    | loneDigit hends =>
      obtain ⟨hd, hdigit, hdot, hplus, hminus⟩ := NumberLexeme.endsAt_singleton_iff.mp hends
      obtain ⟨cs, rfl⟩ := List.head?_eq_some_iff.mp hnext
      rw [Fault.text, Fault.arguments, Template.fill_nil]
      exact .loneDigit hd hdigit hdot hplus hminus

/-! ## §2 Errors and spans -/

/-- A text begins with one span only. -/
theorem Reads.eq_of_append_eq {t t' rest rest' : List Char} {o o' : Outcome}
    (h : Reads t o rest.head?) (h' : Reads t' o' rest'.head?) (happ : t ++ rest = t' ++ rest') :
    t = t' ∧ o = o' := by
  have hspans := h.spans_append
  rw [happ, h'.spans_append] at hspans
  obtain ⟨rfl, rfl⟩ := Span.mk.inj (List.cons.inj hspans).1
  exact ⟨rfl, rfl⟩

/-- A span has the diagnostic of the error at its place, or none if there is no error. -/
theorem diagnosticsOf_of_reads {p : PlacedSpan} {rest : List Char}
    (h : Reads p.span.text p.span.outcome rest.head?) :
    (∃ code message, ErrorAt (p.span.text ++ rest) p.span.text code message ∧
        diagnosticsOf [p] = [⟨none, some p.line, code, message⟩]) ∨
      (diagnosticsOf [p] = [] ∧
        ∀ text code message, ¬ ErrorAt (p.span.text ++ rest) text code message) := by
  -- an error would be the fault of a span that begins here, and `p` is the only one
  have hnone : (∀ f, p.span.outcome ≠ .fault f) →
      ∀ text code message, ¬ ErrorAt (p.span.text ++ rest) text code message := by
    intro hnot text code message herror
    obtain ⟨f, rest', happ, hf, -⟩ := errorAt_iff.mp herror
    exact hnot f (h.eq_of_append_eq (.faulty hf) happ).2
  rcases p with ⟨⟨text, outcome⟩, line⟩
  cases outcome with
  | token kind literal => exact .inr ⟨rfl, hnone fun f => Outcome.noConfusion⟩
  | skipped => exact .inr ⟨rfl, hnone fun f => Outcome.noConfusion⟩
  | fault f =>
    left
    cases h with
    | faulty hf => exact ⟨_, _, errorAt_iff.mpr ⟨f, rest, rfl, hf, rfl, rfl⟩, rfl⟩

/-! ## §3 Reports

A fault is reported while the scan goes on, and its diagnostic is kept until the scan is over.
-/

/-- **Reports tell what diagnostics keep**: their lines and their wordings, in the same order. -/
theorem reports_eq_map (source : String) :
    reports source = (diagnostics source).map fun d => ⟨d.line.getD 0, d.message⟩ := by
  rw [reports, reportsOf, diagnostics, diagnosticsOf, List.map_map]
  rfl

/-! ## §4 Scans -/

/-- **Diagnostics are exactly the errors of a source.** They come in the order of the spans. A span has
a diagnostic exactly if there is an error at its place, which then takes up this span: it has the code
and the wording of the error, and no file. The scan goes on after every span with the text that it has
left, and only a string that is not closed leaves nothing. -/
theorem diagnostics_exact (source : String) :
    (Session.start source).scan.2.pending =
      (placedSpans 1 source.toList).flatMap (fun p => diagnosticsOf [p]) ∧
    (∀ d ∈ (Session.start source).scan.2.pending, d.file = none) ∧
    ∀ before p after, placedSpans 1 source.toList = before ++ p :: after →
      source.toList = placedText before ++ placedText (p :: after) ∧
      ((∃ code message, ErrorAt (placedText (p :: after)) p.span.text code message ∧
          diagnosticsOf [p] = [⟨none, some p.line, code, message⟩]) ∨
        (diagnosticsOf [p] = [] ∧
          ∀ text code message, ¬ ErrorAt (placedText (p :: after)) text code message)) ∧
      (∀ body, p.span.text = '"' :: body → '"' ∉ body → after = []) ∧
      placedText (p :: after) = p.span.text ++ placedText after ∧
      after = placedSpans p.line (placedText after) := by
  refine ⟨diagnosticsOf_eq_flatMap _, ?_, ?_⟩
  · intro d hd
    obtain ⟨f, -, rfl⟩ := List.mem_map.mp hd
    rfl
  · intro before p after h
    obtain ⟨hreads, hafter⟩ := reads_of_placedSpans h
    refine ⟨?_, diagnosticsOf_of_reads hreads, ?_, rfl, hafter⟩
    · exact placedText_append_of_placedSpans h
    · intro body hbody hquote
      rw [hbody] at hreads
      rw [hafter, List.head?_eq_none_iff.mp (hreads.next_eq_none_of_open hquote), placedSpans, spans]
      rfl

/-- The empty string takes up both its quotes, and the scan goes on with the NUL after them. -/
theorem diagnostics_exact_empty_string :
    ∃ p after, placedSpans 1 "\"\"\x00".toList = [] ++ p :: after ∧ p.span.text = ['"', '"'] ∧
      diagnosticsOf [p] = [⟨none, some 1, 1002, "unterminated string."⟩] ∧
      after = placedSpans 1 ['\x00'] := by
  have h : placedSpans 1 "\"\"\x00".toList =
      [] ++ ⟨⟨['"', '"'], .fault .unterminatedString⟩, 1⟩ ::
        [⟨⟨['\x00'], .fault (.unexpectedCharacter '\x00')⟩, 1⟩] := by cbv
  obtain ⟨-, -, hspans⟩ := diagnostics_exact "\"\"\x00"
  obtain ⟨-, herror, -, -, hafter⟩ := hspans _ _ _ h
  refine ⟨_, _, h, rfl, ?_, hafter⟩
  rcases herror with ⟨code, message, herror, hdiag⟩ | ⟨-, hnone⟩
  · cases herror with
    | emptyString => exact hdiag
  · exact absurd ErrorAt.emptyString (hnone _ _ _)

end LoxLexer
