import LoxLexer.Proofs.Scan.Tiling
import LoxLexer.Session

/-!
# Lines

The line of a token or a diagnostic is one more than the number of line feeds in the source up to the
end of its span. Reading does not count them all: it goes on by a line at a line feed between lexemes
and at each line feed of a string. What has to be shown is that no line feed can stand anywhere else.

## Main Results

* `Reads.newLines_eq`: a span takes reading on by as many lines as it has line feeds.
* `line_of_placedSpans`: the line of a span, from the text up to its end.
* `pairwise_line_place`: lines never decrease.
* `lines_exact`: all of this for the tokens and diagnostics of a scan.
-/

namespace LoxLexer

/-! ## §1 Where a line feed can stand -/

namespace Reads

variable {text : List Char} {o : Outcome} {next : Option Char}

/-- Spans that begin neither with a line feed nor as a string have no line feed. -/
theorem newline_not_mem (h : Reads text o next) (hline : text.head? ≠ some '\n')
    (hquote : text.head? ≠ some '"') : '\n' ∉ text := by
  -- most rules read one character, which is then the first one
  have hone : ∀ {c}, text = [c] → '\n' ∉ text := by
    rintro c rfl hmem
    exact hline (congrArg some (List.mem_singleton.mp hmem).symm)
  cases h with
  | silent h =>
    cases h with
    | blank hc => exact hone rfl
    | slash hnext => exact hone rfl
    | comment hbody hnext => simpa using hbody
  | faulty h =>
    cases h with
    | unexpected hc => exact hone rfl
    | emptyString => exact absurd rfl hquote
    | openString hbody => exact absurd rfl hquote
    | loneDigit hd => exact hone rfl
  | lexeme l h =>
    have hkind : l.kind ≠ .string := by
      intro hkind
      obtain ⟨body, -, htext⟩ := l.exists_body hkind
      rw [htext] at hquote
      exact hquote rfl
    exact l.not_mem_text_of_isBlank hkind (by decide)

/-- A span that begins with a line feed is the line feed alone. -/
theorem eq_nil_of_newline {more : List Char} (h : Reads ('\n' :: more) o next) : more = [] := by
  rw [← Option.head?_toList (o := next)] at h
  have hstep : Step.single .skipped (more ++ next.toList) = ⟨more, next.toList, o⟩ :=
    Step.of_eq_of_reads h
  exact (Step.mk.inj hstep).1.symm

/-- **A span takes reading on by as many lines as it has line feeds.** -/
theorem newLines_eq (h : Reads text o next) : Span.newLines ⟨text, o⟩ = lineFeeds text := by
  obtain ⟨c, more, rfl⟩ := List.exists_cons_of_ne_nil h.text_ne_nil
  -- the two places at which lines are counted, and after them all others
  by_cases hline : c = '\n'
  · subst hline
    rw [h.eq_nil_of_newline]
    rfl
  by_cases hquote : c = '"'
  · subst hquote
    exact (List.count_cons_of_ne (by decide)).symm
  have hzero : lineFeeds (c :: more) = 0 := by
    apply List.count_eq_zero.mpr
    apply h.newline_not_mem
    · simpa using hline
    · simpa using hquote
  rw [hzero, Span.newLines]
  split
  · next hc => exact absurd (List.cons.inj hc).1 hline
  · next hc => exact absurd (List.cons.inj hc).1 hquote
  · rfl

/-- A string without a second quote goes on to the end of the text. -/
theorem next_eq_none_of_open {body : List Char} (h : Reads ('"' :: body) o next)
    (hbody : '"' ∉ body) : next = none := by
  rw [← Option.head?_toList (o := next)] at h
  have hstep : Step.string (body ++ next.toList) = ⟨body, next.toList, o⟩ := Step.of_eq_of_reads h
  unfold Step.string at hstep
  split at hstep
  · have hrest : [] = next.toList := (Step.mk.inj hstep).2.1
    exact Option.toList_eq_nil_iff.mp hrest.symm
  · next q rest hdrop =>
    -- the reader has found a second quote, and it belongs to the span
    obtain rfl : q = '"' := eq_of_mem_head?_dropWhile_ne (l := body ++ next.toList) (by rw [hdrop]; rfl)
    have hmore := (Step.mk.inj hstep).1
    rw [← hmore] at hbody
    exact absurd (List.mem_append_right _ List.mem_cons_self) hbody

end Reads

/-! ## §2 The count -/

theorem newLines_eq_of_mem_spans {cs : List Char} {s : Span} (h : s ∈ spans cs) :
    s.newLines = lineFeeds s.text := by
  obtain ⟨before, after, hspans⟩ := List.append_of_mem h
  have hchain := chain_spans cs
  rw [hspans] at hchain
  exact hchain.reads.newLines_eq

theorem lineAfter_eq_add {ss : List Span} (h : ∀ s ∈ ss, s.newLines = lineFeeds s.text)
    (line : Nat) : lineAfter line ss = line + lineFeeds (textOf ss) := by
  induction ss generalizing line with
  | nil => rfl
  | cons s ss ih =>
    rw [lineAfter_cons, ih fun t ht => h t (List.mem_cons_of_mem s ht), h s List.mem_cons_self,
      textOf_cons, lineFeeds_append, Nat.add_assoc]

/-- At its end a text is on the line after as many line feeds as it has. -/
theorem lineAfter_spans (line : Nat) (cs : List Char) :
    lineAfter line (spans cs) = line + lineFeeds cs := by
  rw [lineAfter_eq_add fun s hs => newLines_eq_of_mem_spans hs, textOf_spans]

theorem lastLine_eq (source : String) : lastLine source = 1 + lineFeeds source.toList :=
  lineAfter_spans 1 source.toList

theorem line_eq_lineAfter {line : Nat} {ss : List Span} {before after : List PlacedSpan}
    {p : PlacedSpan} (h : place line ss = before ++ p :: after) :
    p.line = lineAfter line ((before ++ [p]).map PlacedSpan.span) := by
  -- on the spans before `p`, each of which moves the line that the next one begins on
  induction before generalizing line ss with
  | nil =>
    cases ss with
    | nil => exact absurd h (List.cons_ne_nil _ _).symm
    | cons s ss =>
      obtain ⟨rfl, -⟩ := List.cons.inj h
      rfl
  | cons q before ih =>
    cases ss with
    | nil => exact absurd h (List.cons_ne_nil _ _).symm
    | cons s ss =>
      obtain ⟨rfl, hrest⟩ := List.cons.inj h
      exact ih hrest

theorem placedText_append_of_placedSpans {line : Nat} {cs : List Char}
    {before after : List PlacedSpan} (h : placedSpans line cs = before ++ after) :
    cs = placedText before ++ placedText after := by
  rw [placedText, placedText, ← textOf_append, ← List.map_append, ← h, placedSpans, map_span_place,
    textOf_spans]

/-- **The line of a span** counts the line feeds of the text up to its end. -/
theorem line_of_placedSpans {line : Nat} {cs : List Char} {before after : List PlacedSpan}
    {p : PlacedSpan} (h : placedSpans line cs = before ++ p :: after) :
    p.line = line + lineFeeds (placedText (before ++ [p])) := by
  have hspans : spans cs =
      (before ++ [p]).map PlacedSpan.span ++ after.map PlacedSpan.span := by
    rw [← map_span_place line (spans cs), ← placedSpans, h, ← List.map_append, List.append_assoc,
      List.singleton_append]
  rw [line_eq_lineAfter h, lineAfter_eq_add, placedText]
  -- it remains that the spans up to `p` count their own line feeds
  intro s hs
  have hmem : s ∈ spans cs := by
    rw [hspans]
    exact List.mem_append_left _ hs
  exact newLines_eq_of_mem_spans hmem

/-! ## §3 The order of lines -/

theorem le_line_of_mem_place {line : Nat} {ss : List Span} {p : PlacedSpan}
    (h : p ∈ place line ss) : line ≤ p.line := by
  induction ss generalizing line with
  | nil => exact absurd h List.not_mem_nil
  | cons s ss ih =>
    rcases List.mem_cons.mp h with rfl | h
    · exact Nat.le_add_right line _
    · exact (Nat.le_add_right line _).trans (ih h)

/-- **Lines never decrease** from one span to the next. -/
theorem pairwise_line_place (line : Nat) (ss : List Span) :
    (place line ss).Pairwise fun p q => p.line ≤ q.line := by
  induction ss generalizing line with
  | nil => exact .nil
  | cons s ss ih => exact .cons (fun p hp => le_line_of_mem_place hp) (ih _)

theorem line_of_mem_token? {p : PlacedSpan} {t : Token} (h : t ∈ p.token?) : t.line = p.line := by
  rcases p with ⟨⟨text, outcome⟩, line⟩
  cases outcome with
  | token kind literal =>
    obtain rfl := Option.some.inj h
    rfl
  | fault f => exact absurd h (Option.not_mem_none t)
  | skipped => exact absurd h (Option.not_mem_none t)

theorem line_of_mem_fault? {p : PlacedSpan} {f : Nat × Fault} (h : f ∈ p.fault?) :
    f.1 = p.line := by
  rcases p with ⟨⟨text, outcome⟩, line⟩
  cases outcome with
  | token kind literal => exact absurd h (Option.not_mem_none f)
  | fault g =>
    obtain rfl := Option.some.inj h
    rfl
  | skipped => exact absurd h (Option.not_mem_none f)

theorem line_of_mem_tokensOf {p : PlacedSpan} {t : Token} (h : t ∈ tokensOf [p]) :
    t.line = p.line := by
  obtain ⟨q, hq, ht⟩ := List.mem_filterMap.mp h
  obtain rfl := List.mem_singleton.mp hq
  exact line_of_mem_token? ht

theorem line_of_mem_diagnosticsOf {p : PlacedSpan} {d : Diagnostic} (h : d ∈ diagnosticsOf [p]) :
    d.line = some p.line := by
  obtain ⟨f, hmem, rfl⟩ := List.mem_map.mp h
  obtain ⟨q, hq, hf⟩ := List.mem_filterMap.mp hmem
  obtain rfl := List.mem_singleton.mp hq
  exact congrArg some (line_of_mem_fault? hf)

theorem pairwise_line_tokens (source : String) :
    (tokens source).Pairwise fun t u => t.line ≤ u.line := by
  apply List.Pairwise.filterMap _ _ (pairwise_line_place 1 _)
  intro p q hpq t ht u hu
  rw [line_of_mem_token? ht, line_of_mem_token? hu]
  exact hpq

theorem pairwise_line_faultsOf (line : Nat) (ss : List Span) :
    (faultsOf (place line ss)).Pairwise fun f g => f.1 ≤ g.1 := by
  apply List.Pairwise.filterMap _ _ (pairwise_line_place line ss)
  intro p q hpq f hf g hg
  rw [line_of_mem_fault? hf, line_of_mem_fault? hg]
  exact hpq

/-- Every diagnostic has a line, which is no later than the last one. -/
theorem exists_line_of_mem_diagnostics {source : String} {d : Diagnostic}
    (h : d ∈ diagnostics source) : ∃ n ≤ lineFeeds source.toList, d.line = some (1 + n) := by
  rw [diagnostics, diagnosticsOf_eq_flatMap] at h
  obtain ⟨p, hp, hd⟩ := List.mem_flatMap.mp h
  obtain ⟨before, after, hspans⟩ := List.append_of_mem hp
  refine ⟨lineFeeds (placedText (before ++ [p])), ?_, ?_⟩
  · rw [List.append_cons] at hspans
    rw [placedText_append_of_placedSpans hspans, lineFeeds_append]
    exact Nat.le_add_right _ _
  · rw [line_of_mem_diagnosticsOf hd, line_of_placedSpans hspans]

/-! ## §4 Scans -/

/-- **Exact line accounting.** At its end a scan is on the line after as many line feeds as the source
has. Every token and every diagnostic is on the line after as many as there are up to the end of its
span, which for a string that is not closed is the end of the source. Hence the lines of the tokens never
decrease, nor do those of the diagnostics. -/
theorem lines_exact (source : String) :
    (Session.start source).scan.2.line = 1 + lineFeeds source.toList ∧
    (∀ before p after, placedSpans 1 source.toList = before ++ p :: after →
      source.toList = placedText (before ++ [p]) ++ placedText after ∧
      (∀ t ∈ tokensOf [p], t.line = 1 + lineFeeds (placedText (before ++ [p]))) ∧
      (∀ d ∈ diagnosticsOf [p], d.line = some (1 + lineFeeds (placedText (before ++ [p])))) ∧
      (∀ body, p.span.text = '"' :: body → '"' ∉ body →
        p.line = (Session.start source).scan.2.line)) ∧
    (Session.start source).scan.1.tokens =
      (placedSpans 1 source.toList).flatMap (fun p => tokensOf [p]) ∧
    (Session.start source).scan.2.pending =
      (placedSpans 1 source.toList).flatMap (fun p => diagnosticsOf [p]) ∧
    (tokens source).Pairwise (fun t u => t.line ≤ u.line) ∧
    (diagnostics source).Pairwise fun d e => ∃ m n, d.line = some m ∧ e.line = some n ∧ m ≤ n := by
  have hend : (Session.start source).scan.2.line = 1 + lineFeeds source.toList := lastLine_eq source
  refine ⟨hend, ?_, tokensOf_eq_flatMap _, diagnosticsOf_eq_flatMap _, pairwise_line_tokens source, ?_⟩
  · intro before p after h
    have hline := line_of_placedSpans h
    have hcut : placedSpans 1 source.toList = (before ++ [p]) ++ after := by
      rw [h, List.append_assoc, List.singleton_append]
    have htext : source.toList = placedText (before ++ [p]) ++ placedText after :=
      placedText_append_of_placedSpans hcut
    refine ⟨htext, ?_, ?_, ?_⟩
    · intro t ht
      rw [line_of_mem_tokensOf ht, hline]
    · intro d hd
      rw [line_of_mem_diagnosticsOf hd, hline]
    · intro body hbody hquote
      -- nothing follows the span, so that its text ends where the source does
      have hreads := (reads_of_placedSpans h).1
      rw [hbody] at hreads
      have hafter := List.head?_eq_none_iff.mp (hreads.next_eq_none_of_open hquote)
      rw [hafter, List.append_nil] at htext
      rw [hend, hline, ← htext]
  · apply List.Pairwise.map _ _ (pairwise_line_faultsOf 1 _)
    intro f g hfg
    exact ⟨f.1, g.1, rfl, rfl, hfg⟩

/-- A string over two lines, a wrong character on the third, and a string that is still open on the
fourth. -/
theorem lines_exact_open_string :
    ∃ before p, placedSpans 1 "\"a\nb\"\n# \"c\n".toList = before ++ p :: [] ∧
      p.span.text = "\"c\n".toList ∧ p.line = 4 ∧
      (tokens "\"a\nb\"\n# \"c\n").map Token.line = [2] ∧
      (diagnostics "\"a\nb\"\n# \"c\n").map Diagnostic.line = [some 3, some 4] := by
  have h : placedSpans 1 "\"a\nb\"\n# \"c\n".toList =
      [⟨⟨"\"a\nb\"".toList, .token .string (some (.text "a\nb"))⟩, 2⟩, ⟨⟨['\n'], .skipped⟩, 3⟩,
        ⟨⟨['#'], .fault (.unexpectedCharacter '#')⟩, 3⟩, ⟨⟨[' '], .skipped⟩, 3⟩] ++
        ⟨⟨"\"c\n".toList, .fault .unterminatedString⟩, 4⟩ :: [] := by cbv
  obtain ⟨hend, hspans, -⟩ := lines_exact "\"a\nb\"\n# \"c\n"
  obtain ⟨-, -, -, hopen⟩ := hspans _ _ _ h
  have hline := (hopen ['c', '\n'] (by decide) (by decide)).trans hend
  refine ⟨_, _, h, rfl, hline.trans (by decide), ?_, ?_⟩
  · rw [tokens, h]
    rfl
  · rw [diagnostics, h]
    rfl

end LoxLexer
