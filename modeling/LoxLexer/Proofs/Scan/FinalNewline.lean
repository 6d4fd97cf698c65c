import LoxLexer.Proofs.Command.InputLines
import LoxLexer.Proofs.Scan.Concatenation
import LoxLexer.Proofs.Scan.Silence

/-!
# The line feed at the end of a source

A line that is typed at the prompt is scanned without its end, and the same line of a file is scanned with
it. The last span then meets a blank where there was nothing. A number of a single digit is the one span
that can tell the two apart: at the end of a text it is a number, and before a blank it is a fault. Strings
that are left open are set aside, as they take the line feed up.

* `Reads.atEnd`: what the span at the end of a text can be.
* `keptOf_append_blanks`, `keptOf_append_blanks_of_digit`: what is kept of a text with blanks after it.
* `scan_append_newline`: the tokens and the diagnostics of a source with a line feed at its end.
-/

namespace LoxLexer

/-! ## §1 The last span -/

/-- A string that is left open: no second quote follows the first one. -/
def Span.IsOpenString (s : Span) : Prop :=
  ∃ body, '"' ∉ body ∧ s.text = '"' :: body

/-- **A source ends in a lone digit**: its last span is a number of one character, with this token. -/
def EndsInDigit (source : String) (t : Token) : Prop :=
  ∃ p, (placedSpans 1 source.toList).getLast? = some p ∧ p.token? = some t ∧
    t.kind = .number ∧ t.lexeme.length = 1

/-- The span of a digit at the end of a text. -/
def digitSpan (d : Char) : Span :=
  ⟨[d], .token .number (some (.number (NumberLexeme.value [d])))⟩

/-- **What the span at the end of a text can be.** The first two kinds depend on the end, the third one may
go on and stand for nothing all the same, and the fourth one ends there before a blank as well. -/
inductive AtEnd : Span → Prop where
  | openString {body : List Char} (hbody : '"' ∉ body) :
      AtEnd ⟨'"' :: body, .fault .unterminatedString⟩
  | digit {d : Char} (hd : isDigit d = true) : AtEnd (digitSpan d)
  | silent {text : List Char} (h : Silent text none) : AtEnd ⟨text, .skipped⟩
  | kept {text : List Char} {o : Outcome} (ho : o ≠ .skipped)
      (h : ∀ c, Lexeme.Stops c → Reads text o (some c)) : AtEnd ⟨text, o⟩

theorem Reads.atEnd {text : List Char} {o : Outcome} (h : Reads text o none) : AtEnd ⟨text, o⟩ := by
  cases h with
  | silent h => exact .silent h
  | faulty h =>
    cases h with
    | openString hbody => exact .openString hbody
    | unexpected hc => exact .kept Outcome.noConfusion fun c _ => .faulty (.unexpected hc)
    | emptyString => exact .kept Outcome.noConfusion fun c _ => .faulty .emptyString
  | lexeme l _ =>
    by_cases hl : l.IsLoneDigit
    · -- such a lexeme is a number, and its one character begins it
      cases l with
      | number digits hmem =>
        obtain ⟨d, rfl⟩ := List.length_eq_one_iff.mp hl
        exact .digit (NumberLexeme.cons_mem_grammar.mp hmem).1
      | _ => exact absurd hl id
    · apply AtEnd.kept Outcome.noConfusion
      intro c hc
      exact .lexeme l (Lexeme.endsAt_of_stops hl hc)

variable {cs w : List Char} {init : List Span} {last : Span}

theorem placedSpans_of_last (h : spans cs = init ++ [last]) (line : Nat) :
    placedSpans line cs = place line init ++ [⟨last, lineAfter line init + last.newLines⟩] := by
  rw [placedSpans, h, place_append, place, place]

theorem reads_of_last (h : spans cs = init ++ [last]) : Reads last.text last.outcome none := by
  have hchain := chain_spans cs
  rw [h] at hchain
  exact hchain.reads

/-- The text of a number is one of the number grammar, and tells the literal. -/
theorem Reads.mem_grammar {text : List Char} {literal : Option Literal} {next : Option Char}
    (h : Reads text (.token .number literal) next) :
    text ∈ NumberLexeme.grammar ∧ literal = some (.number (NumberLexeme.value text)) := by
  generalize ho : Outcome.token .number literal = o at h
  cases h with
  | silent h => cases ho
  | faulty h => cases ho
  | lexeme l h =>
    obtain ⟨hkind, rfl⟩ := Outcome.token.inj ho
    exact l.mem_grammar_of_kind hkind.symm

theorem endsInDigit_iff {source : String} {t : Token} :
    EndsInDigit source t ↔ ∃ init d, spans source.toList = init ++ [digitSpan d] ∧
      PlacedSpan.token? ⟨digitSpan d, lineAfter 1 init + (digitSpan d).newLines⟩ = some t := by
  constructor
  · rintro ⟨p, hp, ht, hkind, hlength⟩
    rcases List.eq_nil_or_concat (spans source.toList) with hnil | ⟨init, last, hlast⟩
    · rw [placedSpans, hnil] at hp
      cases hp
    · rw [List.concat_eq_append] at hlast
      rw [placedSpans_of_last hlast, List.getLast?_concat] at hp
      obtain rfl := Option.some.inj hp
      obtain ⟨text, o⟩ := last
      have hreads : Reads text o none := reads_of_last hlast
      cases o with
      | fault f => cases ht
      | skipped => cases ht
      | token kind literal =>
        -- the kind tells the literal, and the length leaves one character
        obtain rfl := Option.some.inj ht
        obtain rfl : kind = .number := hkind
        obtain ⟨-, rfl⟩ := hreads.mem_grammar
        have hone : text.length = 1 := by simpa using hlength
        obtain ⟨d, rfl⟩ := List.length_eq_one_iff.mp hone
        exact ⟨init, d, hlast, rfl⟩
  · rintro ⟨init, d, hlast, ht⟩
    refine ⟨_, ?_, ht, ?_⟩
    · rw [placedSpans_of_last hlast]
      exact List.getLast?_concat
    · obtain rfl := Option.some.inj ht
      exact ⟨rfl, String.length_ofList⟩

/-! ## §2 Blanks at the end -/

theorem keptOf_placedSpans_blanks (hw : ∀ c ∈ w, isBlank c = true) (line : Nat) :
    keptOf (placedSpans line w) = [] := by
  induction w generalizing line with
  | nil =>
    rw [placedSpans, spans]
    rfl
  | cons c w ih =>
    rw [keptOf_placedSpans_blank (hw c List.mem_cons_self)]
    apply ih
    intro d hd
    exact hw d (List.mem_cons_of_mem c hd)

/-- Blanks after a span that stands for nothing stand for nothing with it. -/
theorem Silent.keptOf_append_blanks {text : List Char} (h : Silent text none)
    (hw : ∀ c ∈ w, isBlank c = true) (line : Nat) : keptOf (placedSpans line (text ++ w)) = [] := by
  cases h with
  | blank hc =>
    rw [List.singleton_append, keptOf_placedSpans_blank hc]
    exact keptOf_placedSpans_blanks hw _
  | slash _ =>
    have hslash : Silent ['/'] w.head? := by
      apply Silent.slash
      intro hhead
      exact absurd (hw '/' (List.mem_of_head? hhead)) (by decide)
    rw [keptOf_placedSpans_of_silent hslash]
    exact keptOf_placedSpans_blanks hw _
  | @comment body _ hbody _ =>
    -- the comment takes up the blanks before the first line feed
    have hcomment : Silent ('/' :: '/' :: (body ++ w.takeWhile (· != '\n')))
        (w.dropWhile (· != '\n')).head? := by
      apply Silent.comment
      · rw [List.mem_append, not_or]
        exact ⟨hbody, not_mem_takeWhile_ne '\n' w⟩
      · intro c hc
        exact eq_of_mem_head?_dropWhile_ne hc
    have htext : '/' :: '/' :: body ++ w =
        '/' :: '/' :: (body ++ w.takeWhile (· != '\n')) ++ w.dropWhile (· != '\n') := by
      simp [List.takeWhile_append_dropWhile]
    rw [htext, keptOf_placedSpans_of_silent hcomment]
    apply keptOf_placedSpans_blanks
    intro c hc
    exact hw c ((List.dropWhile_suffix _).mem hc)

/-- Blanks after a kept span leave it as it is before each of them. -/
theorem Reads.keptOf_append_blanks {text : List Char} {o : Outcome}
    (h : ∀ c, Lexeme.Stops c → Reads text o (some c)) (ho : o ≠ .skipped) (hne : w ≠ [])
    (hw : ∀ c ∈ w, isBlank c = true) (line : Nat) :
    keptOf (placedSpans line (text ++ w)) = [⟨⟨text, o⟩, line + lineFeeds text⟩] := by
  obtain ⟨c, more, rfl⟩ := List.exists_cons_of_ne_nil hne
  have hreads : Reads text o (c :: more).head? := by
    apply h
    exact Lexeme.stops_of_isBlank (hw c List.mem_cons_self)
  rw [keptOf_placedSpans_of_reads hreads ho, keptOf_placedSpans_blanks hw]

/-- The spans before the last one stay, and the last one is read again with what follows. -/
theorem keptOf_append_of_last (h : spans cs = init ++ [last]) (w : List Char) (line : Nat) :
    keptOf (placedSpans line (cs ++ w)) =
      keptOf (place line init) ++ keptOf (placedSpans (lineAfter line init) (last.text ++ w)) := by
  rw [placedSpans, spans_append_of_last h, keptOf_place_append, placedSpans]

/-- **Blanks after a text** leave what is kept of it, if it ends neither in an open string nor in a lone
digit. -/
theorem keptOf_append_blanks (hopen : ∀ last ∈ (spans cs).getLast?, ¬ last.IsOpenString)
    (hdigit : ∀ init d, spans cs ≠ init ++ [digitSpan d]) (hne : w ≠ [])
    (hw : ∀ c ∈ w, isBlank c = true) (line : Nat) :
    keptOf (placedSpans line (cs ++ w)) = keptOf (placedSpans line cs) := by
  rcases List.eq_nil_or_concat (spans cs) with hnil | ⟨init, last, hlast⟩
  · have hcs : cs = [] := by rw [← textOf_spans cs, hnil, textOf_nil]
    rw [placedSpans, placedSpans, hnil, hcs, List.nil_append, ← placedSpans]
    exact keptOf_placedSpans_blanks hw line
  · rw [List.concat_eq_append] at hlast
    obtain ⟨text, o⟩ := last
    have hreads : Reads text o none := reads_of_last hlast
    rw [keptOf_append_of_last hlast, placedSpans_of_last hlast, keptOf_append]
    congr 1
    cases hreads.atEnd with
    | @openString body hbody =>
      rw [hlast, List.getLast?_concat] at hopen
      exact absurd ⟨body, hbody, rfl⟩ (hopen _ rfl)
    | @digit d hd => exact absurd hlast (hdigit init d)
    | silent h =>
      rw [h.keptOf_append_blanks hw]
      rfl
    | kept ho h =>
      have hlines := (h '/' Lexeme.stops_slash).newLines_eq
      rw [Reads.keptOf_append_blanks h ho hne hw, hlines]
      simp [keptOf, ho]

/-- **Blanks after a lone digit** make a fault of it. -/
theorem keptOf_append_blanks_of_digit {d : Char} (h : spans cs = init ++ [digitSpan d]) (hne : w ≠ [])
    (hw : ∀ c ∈ w, isBlank c = true) (line : Nat) :
    keptOf (placedSpans line (cs ++ w)) = keptOf (place line init) ++
      [⟨⟨[d], .fault .invalidNumberFormat⟩, lineAfter line init + (digitSpan d).newLines⟩] := by
  have hreads := reads_of_last h
  have hlines : (digitSpan d).newLines = lineFeeds [d] := hreads.newLines_eq
  have hd : isDigit d = true := (NumberLexeme.cons_mem_grammar.mp hreads.mem_grammar.1).1
  have hfault : ∀ c, Lexeme.Stops c → Reads [d] (.fault .invalidNumberFormat) (some c) := by
    intro c hc
    exact .faulty (.loneDigit_of_stops hd hc)
  rw [keptOf_append_of_last h, hlines]
  congr 1
  exact Reads.keptOf_append_blanks hfault Outcome.noConfusion hne hw _

/-! ## §3 Scans -/

variable {s : String} {t : Token}

/-- **A lone digit at the end** is a token that becomes a fault. -/
theorem EndsInDigit.scan_append_blanks (h : EndsInDigit s t) {w : String} (hne : w ≠ "")
    (hw : ∀ c ∈ w.toList, isBlank c = true) :
    tokens s = tokens (s ++ w) ++ [t] ∧
      diagnostics (s ++ w) = diagnostics s ++ [⟨none, some t.line, 1003, "invalid number format"⟩] := by
  obtain ⟨init, d, hlast, ht⟩ := endsInDigit_iff.mp h
  obtain rfl := Option.some.inj ht
  have hplaced := placedSpans_of_last hlast 1
  have hkept := keptOf_append_blanks_of_digit hlast (mt String.toList_eq_nil_iff.mp hne) hw 1
  rw [← String.toList_append] at hkept
  have htext : Template.fill "invalid number format" [] = "invalid number format" := Template.fill_nil _
  refine ⟨?_, ?_⟩
  · rw [tokens, tokens, ← tokensOf_keptOf (placedSpans 1 (s ++ w).toList), hkept, hplaced,
      tokensOf_append, tokensOf_append, tokensOf_keptOf]
    simp [tokensOf, PlacedSpan.token?, digitSpan]
  · rw [diagnostics, diagnostics, ← diagnosticsOf_keptOf (placedSpans 1 (s ++ w).toList), hkept, hplaced,
      diagnosticsOf_append, diagnosticsOf_append, diagnosticsOf_keptOf]
    simp [diagnosticsOf, faultsOf, PlacedSpan.fault?, digitSpan, Diagnostic.ofFault, Diagnostic.atLine,
      Diagnostic.ofMessage, Fault.message, Fault.arguments, Message.invalidNumberFormat, htext]

/-- At all other ends blanks change nothing. -/
theorem scan_append_blanks (hopen : ∀ last ∈ (spans s.toList).getLast?, ¬ last.IsOpenString)
    (hdigit : ∀ t, ¬ EndsInDigit s t) {w : String} (hne : w ≠ "")
    (hw : ∀ c ∈ w.toList, isBlank c = true) :
    tokens (s ++ w) = tokens s ∧ diagnostics (s ++ w) = diagnostics s := by
  apply scan_eq_of_keptOf_eq
  rw [String.toList_append]
  apply keptOf_append_blanks hopen _ (mt String.toList_eq_nil_iff.mp hne) hw
  intro init d hlast
  exact hdigit _ (endsInDigit_iff.mpr ⟨init, d, hlast, rfl⟩)

/-- **The line feed at the end of a source** matters in one case only. If the source does not end in a
string that is left open, its tokens and its diagnostics stay the same with a line feed after it, unless it
ends in a number of a single digit. Then this number is no token any more, and a diagnostic on its line says
so. What ends a line of a file makes no difference, be it a line feed or more than that, so that this is all
that can tell a line at the prompt, which is scanned without its end, from the same line of a file. -/
theorem scan_append_newline (s : String)
    (hopen : ∀ last ∈ (spans s.toList).getLast?, ¬ last.IsOpenString) :
    (tokens (s ++ "\n") = tokens s ∧ diagnostics (s ++ "\n") = diagnostics s ↔
        ∀ t, ¬ EndsInDigit s t) ∧
      (∀ t, EndsInDigit s t → tokens s = tokens (s ++ "\n") ++ [t] ∧
        diagnostics (s ++ "\n") =
          diagnostics s ++ [⟨none, some t.line, 1003, "invalid number format"⟩]) ∧
      ∀ line, Command.trimLine line = s → line ≠ s →
        tokens line = tokens (s ++ "\n") ∧ diagnostics line = diagnostics (s ++ "\n") := by
  have hblank : ∀ c, c = '\n' ∨ c = '\r' → isBlank c = true := by
    intro c hc
    rcases hc with rfl | rfl <;> rfl
  have hline : ∀ c ∈ "\n".toList, isBlank c = true := by
    intro c hc
    exact hblank c (.inl (List.mem_singleton.mp hc))
  have hne : "\n" ≠ "" := by decide
  refine ⟨?_, ?_, ?_⟩
  · constructor
    · rintro ⟨htokens, -⟩ t ht
      obtain ⟨hlast, -⟩ := ht.scan_append_blanks hne hline
      rw [htokens] at hlast
      exact List.cons_ne_nil t [] (List.self_eq_append_right.mp hlast)
    · intro hdigit
      exact scan_append_blanks hopen hdigit hne hline
  · intro t ht
    exact ht.scan_append_blanks hne hline
  · intro line htrim hchanged
    -- the line is the source with blanks after it, which do what the line feed does
    obtain ⟨ending, rfl, hending, -⟩ := Command.trimLine_eq_iff.mp htrim
    have hne' : ending ≠ "" := by
      rintro rfl
      exact hchanged String.append_empty
    have hending' : ∀ c ∈ ending.toList, isBlank c = true := fun c hc => hblank c (hending c hc)
    by_cases hdigit : ∃ t, EndsInDigit s t
    · obtain ⟨t, ht⟩ := hdigit
      obtain ⟨htokens, hdiag⟩ := ht.scan_append_blanks hne hline
      obtain ⟨htokens', hdiag'⟩ := ht.scan_append_blanks hne' hending'
      refine ⟨?_, hdiag'.trans hdiag.symm⟩
      exact List.append_cancel_right (htokens'.symm.trans htokens)
    · have hnone : ∀ t, ¬ EndsInDigit s t := not_exists.mp hdigit
      obtain ⟨htokens, hdiag⟩ := scan_append_blanks hopen hnone hne hline
      obtain ⟨htokens', hdiag'⟩ := scan_append_blanks hopen hnone hne' hending'
      exact ⟨htokens'.trans htokens.symm, hdiag'.trans hdiag.symm⟩

/-- A digit on the second line, before a line feed and before a carriage return and a line feed. -/
theorem scan_append_newline_second_line :
    let s := "x\n7"
    let t : Token := ⟨.number, "7", some (.number ⟨0x401C000000000000⟩), 2⟩
    (∀ last ∈ (spans s.toList).getLast?, ¬ last.IsOpenString) ∧ EndsInDigit s t ∧
      Command.trimLine (s ++ "\r\n") = s ∧ tokens s = [⟨.identifier, "x", none, 1⟩, t] ∧
      tokens (s ++ "\r\n") = [⟨.identifier, "x", none, 1⟩] ∧
      diagnostics (s ++ "\r\n") = [⟨none, some 2, 1003, "invalid number format"⟩] := by
  intro s t
  have hspans : spans s.toList =
      [⟨['x'], .token .identifier none⟩, ⟨['\n'], .skipped⟩, digitSpan '7'] := by decide +kernel
  have hopen : ∀ last ∈ (spans s.toList).getLast?, ¬ last.IsOpenString := by
    rw [hspans]
    intro last hlast
    obtain rfl := Option.some.inj hlast
    rintro ⟨body, -, hbody⟩
    exact absurd (List.cons.inj hbody).1 (by decide)
  have hdigit : EndsInDigit s t := by
    apply endsInDigit_iff.mpr
    exact ⟨[⟨['x'], .token .identifier none⟩, ⟨['\n'], .skipped⟩], '7', hspans, by decide +kernel⟩
  have htokens : tokens s = [⟨.identifier, "x", none, 1⟩, t] := by decide +kernel
  have hnone : diagnostics s = [] := by
    rw [diagnostics, placedSpans, hspans]
    rfl
  have htrim : Command.trimLine (s ++ "\r\n") = s :=
    Command.trimLine_eq_iff.mpr ⟨"\r\n", rfl, by simp, by simp [s]⟩
  obtain ⟨-, hbefore, hends⟩ := scan_append_newline s hopen
  obtain ⟨hlast, hdiag⟩ := hbefore t hdigit
  obtain ⟨htokens', hdiag'⟩ := hends (s ++ "\r\n") htrim (by decide)
  rw [htokens] at hlast
  rw [hnone] at hdiag
  refine ⟨hopen, hdigit, htrim, htokens, ?_, hdiag'.trans hdiag⟩
  rw [htokens']
  exact List.append_cancel_right hlast.symm

end LoxLexer
