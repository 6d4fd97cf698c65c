import LoxLexer.Proofs.Scan.Tiling

/-!
# Numbers are longest matches

A span that begins with a digit takes up the longest text of the number grammar at its place. It is a
number, with the one exception of a digit that is not continued although the source goes on: that is a
fault, and the scan goes on with the next character.

* `Reads.of_digit`: the rules leave a first digit these two outcomes only.
* `number_longest_match`: longest match and outcome, for every such span of every source.
-/

namespace LoxLexer

/-- The rules for a span that begins with a digit. -/
theorem Reads.of_digit {text : List Char} {o : Outcome} {next : Option Char} {d : Char}
    (h : Reads text o next) (hhead : text.head? = some d) (hd : isDigit d = true) :
    NumberLexeme.EndsAt text next ∧
      o = if text = [d] ∧ next ≠ none then .fault .invalidNumberFormat
        else .token .number (some (.number (NumberLexeme.value text))) := by
  obtain ⟨more, rfl⟩ := List.head?_eq_some_iff.mp hhead
  rw [← Option.head?_toList (o := next)] at h
  -- the reader finds what the rules say, and at a digit it looks for a number
  have hstep : Step.number d (more ++ next.toList) = ⟨more, next.toList, o⟩ := by
    rw [← Step.of_digit hd]
    exact Step.of_eq_of_reads h
  have hends := NumberLexeme.endsAt_split hd (more ++ next.toList)
  rcases hsplit : NumberLexeme.split (more ++ next.toList) with ⟨taken, left⟩
  rw [hsplit] at hends
  rw [Step.number, hsplit] at hstep
  obtain ⟨rfl, hleft, houtcome⟩ := Step.mk.inj hstep
  obtain rfl : left = next.toList := hleft
  rw [Option.head?_toList] at hends
  refine ⟨hends, ?_⟩
  rw [← houtcome]
  cases taken with
  | nil => cases next <;> simp
  | cons c taken => simp

/-- **Number recognition is longest match with one exception.** A span that begins with a digit `d` is
the longest text `M` of the number grammar at its place, and the scan goes on after it. If `M` is `d`
alone and a character follows, the span brings about no token but the diagnostic for a wrong number;
otherwise it brings about the number token with the text `M`, and no diagnostic. -/
theorem number_longest_match {source : String} {before after : List PlacedSpan} {p : PlacedSpan}
    {d : Char} (h : placedSpans 1 source.toList = before ++ p :: after)
    (hhead : p.span.text.head? = some d) (hd : isDigit d = true) :
    ∃ M, NumberLexeme.IsLongestPrefix NumberLexeme.grammar (placedText (p :: after)) M ∧
      p.span.text = M ∧
      (M = [d] ∧ placedText (p :: after) ≠ [d] →
        tokensOf [p] = [] ∧
        diagnosticsOf [p] = [⟨none, some p.line, 1003, "invalid number format"⟩] ∧
        ∃ c cs, placedText (p :: after) = d :: c :: cs ∧ after = placedSpans p.line (c :: cs)) ∧
      (¬ (M = [d] ∧ placedText (p :: after) ≠ [d]) →
        tokensOf [p] =
          [⟨.number, String.ofList M, some (.number (NumberLexeme.value M)), p.line⟩] ∧
        diagnosticsOf [p] = [] ∧ after = placedSpans p.line (placedText after)) := by
  obtain ⟨hreads, hafter⟩ := reads_of_placedSpans h
  obtain ⟨hends, houtcome⟩ := hreads.of_digit hhead hd
  have htext : placedText (p :: after) = p.span.text ++ placedText after := rfl
  -- a character follows the span exactly if the text is more than the digit
  have hfollows : p.span.text = [d] →
      (placedText (p :: after) ≠ [d] ↔ (placedText after).head? ≠ none) := by
    intro hone
    rw [htext, hone]
    cases placedText after <;> simp
  refine ⟨p.span.text, htext ▸ NumberLexeme.longest_of_endsAt hends, rfl, ?_, ?_⟩
  · rintro ⟨hone, hmore⟩
    have hnext := (hfollows hone).mp hmore
    rw [if_pos ⟨hone, hnext⟩] at houtcome
    refine ⟨by simp [tokensOf, PlacedSpan.token?, houtcome], ?_, ?_⟩
    · simp [diagnosticsOf, faultsOf, PlacedSpan.fault?, houtcome, Diagnostic.ofFault,
        Diagnostic.atLine, Diagnostic.ofMessage, Fault.message, Fault.arguments,
        Message.invalidNumberFormat, Template.fill_nil]
    · obtain ⟨c, hc⟩ := Option.ne_none_iff_exists'.mp hnext
      obtain ⟨cs, hcs⟩ := List.head?_eq_some_iff.mp hc
      exact ⟨c, cs, by rw [htext, hone, hcs]; rfl, by rw [← hcs]; exact hafter⟩
  · intro hnot
    have hcond : ¬ (p.span.text = [d] ∧ (placedText after).head? ≠ none) := by
      rintro ⟨hone, hnext⟩
      exact hnot ⟨hone, (hfollows hone).mpr hnext⟩
    rw [if_neg hcond] at houtcome
    refine ⟨by simp [tokensOf, PlacedSpan.token?, houtcome], ?_, hafter⟩
    simp [diagnosticsOf, faultsOf, PlacedSpan.fault?, houtcome]

/-- In `7x` the digit is not continued, and the scan goes on with the `x`. -/
theorem number_longest_match_digit_word :
    ∃ p after, placedSpans 1 "7x".toList = [] ++ p :: after ∧ p.span.text.head? = some '7' ∧
      isDigit '7' = true ∧
      NumberLexeme.IsLongestPrefix NumberLexeme.grammar ['7', 'x'] ['7'] ∧ tokensOf [p] = [] ∧
      diagnosticsOf [p] = [⟨none, some 1, 1003, "invalid number format"⟩] ∧
      after = placedSpans 1 ['x'] := by
  have h : placedSpans 1 "7x".toList =
      [] ++ ⟨⟨['7'], .fault .invalidNumberFormat⟩, 1⟩ ::
        [⟨⟨['x'], .token .identifier none⟩, 1⟩] := by cbv
  obtain ⟨M, hM, rfl, hlone, -⟩ := number_longest_match h rfl (by decide)
  obtain ⟨htokens, hdiag, c, cs, hrest, hafter⟩ := hlone ⟨rfl, by decide⟩
  obtain ⟨rfl, rfl⟩ := List.cons.inj (List.cons.inj hrest).2
  exact ⟨_, _, h, rfl, by decide, hM, htokens, hdiag, hafter⟩

end LoxLexer
