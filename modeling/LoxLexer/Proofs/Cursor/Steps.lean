import LoxLexer.Proofs.Cursor.Positions
import LoxLexer.Proofs.Cursor.Ahead
import LoxLexer.Proofs.Scan.Lines

/-!
# Steps of a cursor

What holds of a cursor whenever it is used is more than that its positions are good: it stands in its source
where a span ends, or within a span, it has made what the spans before stand for, and ahead of it are all
the others. From this follows that no step slips, and every step keeps it.

* `Cursor.Keeps`: what every state keeps.
* `Cursor.Within.read`, `Cursor.Within.settled`: a character of a token, and the end of the token.
* `Cursor.keeps_stepComment` and its companions: the loops.
* `Cursor.keeps_beginWith`: the beginning of a token.
* `Cursor.keeps_step`: every step.
-/

namespace LoxLexer.Cursor

variable {source : String} {n : Nat} {r s : Cursor} {before text rest : List Char} {done : List Span}
  {ahead : Step} {c : Char}

/-! ## §1 What every state keeps -/

/-- The tokens and the diagnostics are those of these spans. -/
structure Gathered (r : Cursor) (done : List Span) : Prop where
  tokens_eq : r.tokens = tokensOf (place 1 done)
  diagnostics_eq : r.diagnostics = diagnosticsOf (place 1 done)

/-- **Within a token**: the cursor stands where some text of it has been read, on the line after the line
feeds up to there, and has made what the spans before it stand for; together with what is ahead that text is
the next span of the source. -/
structure Within (source : String) (done : List Span) (before text rest : List Char) (ahead : Step)
    (r : Cursor) : Prop where
  stands : At source before text rest r
  spans_eq : spans source.toList = done ++ ⟨text ++ ahead.more, ahead.outcome⟩ :: spans ahead.rest
  gathered : Gathered r done
  line_eq : r.line = 1 + lineFeeds (before ++ text)

/-- **What every state keeps**, after so many tokens have been begun: the cursor is between two tokens, and
the spans of the source are those before it and those of the rest; or it is within a token, and what it is
in the middle of settles what is ahead. -/
inductive Keeps (source : String) : Nat → Cursor → Prop where
  | next {r : Cursor} {before text rest : List Char} {done : List Span} (hat : At source before text rest r)
      (htask : r.task = .next) (hspans : spans source.toList = done ++ spans rest)
      (hdone : Gathered r done) (hline : r.line = 1 + lineFeeds (before ++ text)) :
      Keeps source done.length r
  | loop {r : Cursor} {before text rest : List Char} {done : List Span}
      (h : Within source done before text rest (r.task.ahead text rest) r) (htask : r.task ≠ .next)
      (hquote : r.task = .string → text.head? = some '"') : Keeps source (done.length + 1) r

theorem keeps_initial (source : String) : Keeps source 0 initial := by
  have hat : At source [] [] source.toList initial := ⟨rfl, rfl, rfl⟩
  have hspans : spans source.toList = [] ++ spans source.toList := rfl
  exact .next hat rfl hspans ⟨rfl, rfl⟩ rfl

/-! ## §2 Within a token -/

theorem lineFeeds_singleton (c : Char) : lineFeeds [c] = if c = '\n' then 1 else 0 := by
  rw [lineFeeds, List.count_singleton]
  simp only [beq_iff_eq]

/-- What the end of a token leaves behind. -/
def settle (text : List Char) (r : Cursor) : Outcome → Cursor
  | .skipped => r.between
  | .token kind literal =>
    { r with tokens := r.tokens ++ [⟨kind, String.ofList text, literal, r.line⟩], task := .next }
  | .fault f => addFault f r

/-- The end of a token moves nothing. -/
theorem settle_eq (text : List Char) (r : Cursor) (o : Outcome) :
    (settle text r o).start = r.start ∧ (settle text r o).current = r.current ∧
      (settle text r o).line = r.line ∧ (settle text r o).task = .next := by
  cases o <;> exact ⟨rfl, rfl, rfl, rfl⟩

theorem Gathered.settle {o : Outcome} (h : Gathered r done)
    (hplace : place 1 (done ++ [⟨text, o⟩]) = place 1 done ++ [⟨⟨text, o⟩, r.line⟩]) :
    Gathered (settle text r o) (done ++ [⟨text, o⟩]) := by
  constructor
  · rw [hplace, tokensOf_append, ← h.tokens_eq]
    cases o with
    | token kind literal => rfl
    | skipped => exact (List.append_nil _).symm
    | fault f => exact (List.append_nil _).symm
  · rw [hplace, diagnosticsOf_append, ← h.diagnostics_eq]
    cases o with
    | fault f => rfl
    | skipped => exact (List.append_nil _).symm
    | token kind literal => exact (List.append_nil _).symm

namespace Within

/-- What is ahead is what is settled by what the cursor is in the middle of. -/
theorem looped {t : Task} (h : Within source done before text rest (t.ahead text rest) r)
    (htask : t ≠ .next) (hquote : t = .string → text.head? = some '"') :
    Keeps source (done.length + 1) { r with task := t } := by
  have hat : At source before text rest { r with task := t } := h.stands.of_eq rfl rfl
  exact .loop ⟨hat, h.spans_eq, ⟨h.gathered.tokens_eq, h.gathered.diagnostics_eq⟩, h.line_eq⟩ htask hquote

/-- A character that was ahead is read. -/
theorem read (h : Within source done before text (c :: rest) (ahead.cons c) r) :
    Within source done before (text ++ [c]) rest ahead
      { r with current := r.current + c, line := r.line + lineFeeds [c] } where
  stands := h.stands.advance_eq.2.of_eq rfl rfl
  spans_eq := by rw [h.spans_eq, Step.cons, List.append_assoc, List.singleton_append]
  gathered := ⟨h.gathered.tokens_eq, h.gathered.diagnostics_eq⟩
  line_eq := by
    show r.line + lineFeeds [c] = _
    rw [h.line_eq, ← List.append_assoc, lineFeeds_append _ [c], Nat.add_assoc]

theorem read_of_ne (h : Within source done before text (c :: rest) (ahead.cons c) r) (hc : c ≠ '\n') :
    Within source done before (text ++ [c]) rest ahead { r with current := r.current + c } := by
  have hread := h.read
  rwa [lineFeeds_singleton, if_neg hc] at hread

theorem spans_cut {o : Outcome} (h : Within source done before text rest ⟨[], rest, o⟩ r) :
    spans source.toList = (done ++ [⟨text, o⟩]) ++ spans rest := by
  rw [h.spans_eq, List.append_nil, List.append_assoc, List.singleton_append]

/-- The line of a token that has nothing ahead of it. -/
theorem place_eq {o : Outcome} (h : Within source done before text rest ⟨[], rest, o⟩ r) :
    place 1 (done ++ [⟨text, o⟩]) = place 1 done ++ [⟨⟨text, o⟩, r.line⟩] := by
  -- the spans so far have the text so far, and so they end on the line that the cursor is on
  have htext : textOf (done ++ [⟨text, o⟩]) = before ++ text := by
    have htext := textOf_spans source.toList
    rw [h.spans_cut, textOf_append, textOf_spans, h.stands.source_eq'] at htext
    exact List.append_cancel_right htext
  have hlines : ∀ s ∈ done ++ [⟨text, o⟩], s.newLines = lineFeeds s.text := by
    intro s hs
    have hmem : s ∈ spans source.toList := by
      rw [h.spans_cut]
      exact List.mem_append_left _ hs
    exact newLines_eq_of_mem_spans hmem
  have hline := lineAfter_eq_add hlines 1
  rw [htext, ← h.line_eq, lineAfter, List.foldl_append] at hline
  rw [place_append, ← hline]
  rfl

/-- **A token that has nothing ahead of it is settled.** Its span is the last one so far. -/
theorem settled {o : Outcome} (h : Within source done before text rest ⟨[], rest, o⟩ r) :
    Keeps source (done.length + 1) (settle text r o) := by
  have hlength : (done ++ [Span.mk text o]).length = done.length + 1 := List.length_append
  obtain ⟨hstart, hcurrent, hline, htask⟩ := settle_eq text r o
  rw [← hlength]
  exact .next (h.stands.of_eq hstart hcurrent) htask h.spans_cut (h.gathered.settle h.place_eq)
    (hline.trans h.line_eq)

end Within

/-! ## §3 Loops -/

theorem keeps_stepComment (h : Keeps source n r) (hloop : r.task = .comment) :
    ∃ s, stepComment source r = .ok s ∧ Keeps source n s := by
  cases h with
  | next _ htask => exact absurd (hloop.symm.trans htask) (by decide)
  | @loop _ before text rest done h _ _ =>
    rw [hloop] at h
    by_cases hend : rest.head?.getD '\n' = '\n'
    · -- the line is at its end, or the text, where a NUL is seen and only the end itself stops the loop
      rw [Task.ahead_comment_end hend] at h
      refine ⟨_, ?_, h.settled⟩
      rw [stepComment, h.stands.peek_eq, h.stands.atEnd_eq]
      cases rest with
      | nil => rfl
      | cons c rest =>
        obtain rfl : c = '\n' := hend
        rfl
    · cases rest with
      | nil => exact absurd rfl hend
      | cons c rest =>
        have hc : c ≠ '\n' := hend
        rw [Task.ahead_comment_cons hc] at h
        refine ⟨_, ?_, (h.read_of_ne hc).looped (by decide) (by simp)⟩
        rw [stepComment, h.stands.peek_cons, ok_bind, if_pos ⟨hc, h.stands.atEnd_eq⟩,
          h.stands.advance_eq.1, ← hloop]
        rfl

theorem keeps_stepWord (h : Keeps source n r) (hloop : r.task = .word) :
    ∃ s, stepWord source r = .ok s ∧ Keeps source n s := by
  cases h with
  | next _ htask => exact absurd (hloop.symm.trans htask) (by decide)
  | @loop _ before text rest done h _ _ =>
    rw [hloop] at h
    by_cases hend : ∀ c ∈ rest.head?, isWordPart c = false
    · -- the NUL that is seen at the end of the text is no part of a word either
      have hpeek : isWordPart (rest.head?.getD '\x00') = false := by
        cases rest with
        | nil => rfl
        | cons c rest => exact hend c rfl
      rw [Task.ahead_word_end hend] at h
      refine ⟨_, ?_, h.settled⟩
      rw [stepWord, h.stands.peek_eq, ok_bind, if_neg (Bool.eq_false_iff.mp hpeek), h.stands.lexeme_eq]
      exact h.stands.addToken_eq _ _
    · cases rest with
      | nil => exact absurd (fun c hc => absurd hc (Option.not_mem_none c)) hend
      | cons c rest =>
        have hc : isWordPart c = true := by
          by_contra hc
          exact hend fun d hd => Option.some.inj hd ▸ Bool.eq_false_iff.mpr hc
        have hfeed : c ≠ '\n' := by
          rintro rfl
          exact absurd hc (by decide)
        rw [Task.ahead_word_cons hc] at h
        refine ⟨_, ?_, (h.read_of_ne hfeed).looped (by decide) (by simp)⟩
        rw [stepWord, h.stands.peek_cons, ok_bind, if_pos hc, h.stands.advance_eq.1, ← hloop]
        rfl

/-- A second quote is read, and what lies between the two is the value. The first one has to be a character
of one byte, for the slice to begin behind it. -/
theorem endString_quote {body : List Char} (hat : At source before ('"' :: body) ('"' :: rest) r) :
    endString source r = .ok (settle ('"' :: body ++ ['"']) { r with current := r.current + '"' }
      (if body.isEmpty then .fault .unterminatedString
        else .token .string (some (.text (String.ofList body))))) := by
  obtain ⟨hadvance, hread⟩ := hat.advance_eq
  have hempty : (String.ofList body).isEmpty = body.isEmpty := by
    rw [Bool.eq_iff_iff, String.isEmpty_iff, List.isEmpty_iff, String.ofList_eq_empty_iff]
  rw [endString, if_neg (by simp [hat.atEnd_eq]), hadvance, ok_bind]
  dsimp only
  rw [hread.slice_body, ok_bind, hempty]
  cases body with
  | nil => rfl
  | cons d body => exact hread.addToken_eq _ _

theorem keeps_stepString (h : Keeps source n r) (hloop : r.task = .string) :
    ∃ s, stepString source r = .ok s ∧ Keeps source n s := by
  cases h with
  | next _ htask => exact absurd (hloop.symm.trans htask) (by decide)
  | @loop _ before text rest done h _ hquote =>
    obtain ⟨body, rfl⟩ := List.head?_eq_some_iff.mp (hquote hloop)
    rw [hloop] at h
    cases rest with
    | nil =>
      -- the text ends before a second quote
      rw [Task.ahead_string_nil] at h
      refine ⟨_, ?_, h.settled⟩
      rw [stepString, h.stands.peek_eq, ok_bind, endString, h.stands.atEnd_eq]
      rfl
    | cons c rest =>
      by_cases hc : c = '"'
      · subst hc
        rw [Task.ahead_string_quote] at h
        refine ⟨_, ?_, (h.read_of_ne (by decide)).settled⟩
        rw [stepString, h.stands.peek_cons, ok_bind, if_neg (by simp)]
        exact endString_quote h.stands
      · have hat : At source before ('"' :: body) (c :: rest) { r with line := r.line + lineFeeds [c] } :=
          h.stands.of_eq rfl rfl
        have hcount : (if c = '\n' then r.line + 1 else r.line) = r.line + lineFeeds [c] := by
          rw [lineFeeds_singleton]
          split <;> rfl
        rw [Task.ahead_string_cons (List.cons_ne_nil _ _) hc] at h
        refine ⟨_, ?_, h.read.looped (by decide) fun _ => rfl⟩
        rw [stepString, h.stands.peek_cons, ok_bind, if_pos ⟨hc, h.stands.atEnd_eq⟩, hcount,
          hat.advance_eq.1, ← hloop]
        rfl

/-- The end of a number whose state is terminal, or whose text is at its end. -/
theorem endNumber_eq (hat : At source before text rest r) {t : NumberLexeme.State}
    (hend : r.atEnd source = true ∨ t.isTerminal = true) :
    ∃ o, endNumber source t r = .ok (settle text r o) ∧ t.ahead text rest = ⟨[], rest, o⟩ := by
  have htoken (ht : t ≠ .failed) : endNumber source t r =
      .ok (settle text r (.token .number (some (.number (NumberLexeme.value text))))) := by
    rw [endNumber, if_neg ht, hat.lexeme_eq, ok_bind, String.toList_ofList]
    exact hat.addToken_eq _ _
  cases t with
  | reading p =>
    have hrest : rest = [] := by
      rw [hat.atEnd_eq, List.isEmpty_iff] at hend
      exact hend.resolve_right Bool.false_ne_true
    subst hrest
    exact ⟨_, htoken (by simp), NumberLexeme.State.ahead_nil p text⟩
  | ended => exact ⟨_, htoken (by simp), rfl⟩
  | failed => exact ⟨.fault .invalidNumberFormat, rfl, rfl⟩

section
variable {p q : NumberLexeme.Phase}

theorem stepNumber_of_some (hat : At source before text (c :: rest) r) (hnext : p.next? c = some q) :
    stepNumber source (.reading p) r = .ok { r with
      current := r.current + c, task := .number (if rest.isEmpty then .ended else .reading q) } := by
  obtain ⟨hadvance, hat'⟩ := hat.advance_eq
  have hstep : NumberLexeme.State.step (.reading p) c = (.reading q, true) := by
    rw [NumberLexeme.State.step, hnext]
  rw [stepNumber, if_pos ⟨hat.atEnd_eq, rfl⟩, hat.peek_cons, ok_bind, hstep]
  show (advance source r >>= _) = _
  rw [hadvance, ok_bind]
  dsimp only
  rw [hat'.atEnd_eq]
  rfl

theorem stepNumber_of_none (hat : At source before text (c :: rest) r) (hnext : p.next? c = none) :
    stepNumber source (.reading p) r =
      .ok { r with task := .number (if p = .start then .failed else .ended) } := by
  have hstep : NumberLexeme.State.step (.reading p) c = (if p = .start then .failed else .ended, false) := by
    rw [NumberLexeme.State.step, hnext]
  rw [stepNumber, if_pos ⟨hat.atEnd_eq, rfl⟩, hat.peek_cons, ok_bind, hstep]
  rfl

end

theorem keeps_stepNumber {t : NumberLexeme.State} (h : Keeps source n r) (hloop : r.task = .number t) :
    ∃ s, stepNumber source t r = .ok s ∧ Keeps source n s := by
  cases h with
  | next _ htask => exact absurd (hloop.symm.trans htask) (by simp)
  | @loop _ before text rest done h _ _ =>
    rw [hloop, Task.ahead_number] at h
    by_cases hend : r.atEnd source = true ∨ t.isTerminal = true
    · obtain ⟨o, hstep, hahead⟩ := endNumber_eq h.stands hend
      rw [hahead] at h
      refine ⟨_, ?_, h.settled⟩
      rw [stepNumber, if_neg, hstep]
      rintro ⟨hr, ht⟩
      simp [hr, ht] at hend
    · cases rest with
      | nil => exact absurd (.inl h.stands.atEnd_eq) hend
      | cons c rest =>
        cases t with
        | ended => exact absurd (.inr rfl) hend
        | failed => exact absurd (.inr rfl) hend
        | reading p =>
          cases hnext : p.next? c with
          | some q =>
            have hc : c ≠ '\n' := by
              rintro rfl
              have hnone : p.next? '\n' = none := by cases p <;> rfl
              rw [hnone] at hnext
              cases hnext
            -- if this was the last character the state is terminal at once, with the same ahead
            refine ⟨_, stepNumber_of_some h.stands hnext, ?_⟩
            rw [NumberLexeme.State.ahead_cons hnext, ← NumberLexeme.State.ahead_ite_isEmpty,
              ← Task.ahead_number] at h
            exact (h.read_of_ne hc).looped (by simp) (by simp)
          | none =>
            -- no character is read, and the same stays ahead
            refine ⟨_, stepNumber_of_none h.stands hnext, ?_⟩
            rw [NumberLexeme.State.ahead_terminal hnext, ← Task.ahead_number] at h
            exact h.looped (by simp) (by simp)

/-! ## §4 The beginning of a token -/

theorem keeps_beginSlash (h : Within source done before ['/'] rest (Step.of '/' rest) r) :
    ∃ s, beginSlash source r = .ok s ∧ Keeps source (done.length + 1) s := by
  by_cases hrest : rest.head? = some '/'
  · obtain ⟨rest, rfl⟩ := List.head?_eq_some_iff.mp hrest
    rw [Step.of_comment] at h
    refine ⟨_, ?_, (h.read_of_ne (by decide)).looped (by simp) (by simp)⟩
    rw [beginSlash, h.stands.matchChar_of_eq]
    rfl
  · rw [Step.of_slash hrest] at h
    refine ⟨_, ?_, h.settled⟩
    rw [beginSlash, h.stands.matchChar_of_ne hrest]
    rfl

theorem keeps_beginOperator {o : Operator}
    (h : Within source done before [o.char] rest (Step.operator o rest) r) :
    ∃ s, beginOperator source o r = .ok s ∧ Keeps source (done.length + 1) s := by
  by_cases hrest : rest.head? = some '='
  · obtain ⟨rest, rfl⟩ := List.head?_eq_some_iff.mp hrest
    rw [Step.operator_of_eq] at h
    have hread := h.read_of_ne (by decide)
    refine ⟨_, ?_, hread.settled⟩
    rw [beginOperator, h.stands.matchChar_of_eq]
    exact hread.stands.addToken_eq _ _
  · rw [Step.operator_of_ne hrest] at h
    refine ⟨_, ?_, h.settled⟩
    rw [beginOperator, h.stands.matchChar_of_ne hrest]
    exact h.stands.addToken_eq _ _

theorem keeps_beginSymbol (h : Within source done before [c] rest (Step.symbol c rest) r) :
    ∃ s, beginSymbol source c r = .ok s ∧ Keeps source (done.length + 1) s := by
  rw [Step.symbol] at h
  rw [beginSymbol]
  cases hmark : Mark.ofChar? c with
  | some m =>
    rw [hmark] at h
    exact ⟨_, h.stands.addToken_eq _ _, h.settled⟩
  | none =>
    rw [hmark] at h
    cases hoperator : Operator.ofChar? c with
    | some o =>
      rw [hoperator] at h
      obtain rfl := Operator.ofChar?_eq_some_iff.mp hoperator
      exact keeps_beginOperator h
    | none =>
      rw [hoperator] at h
      exact ⟨_, rfl, h.settled⟩

/-- **A token is begun**, whichever class its first character is in. The line is that after the character. -/
theorem keeps_beginWith
    (h : Within source done before [c] rest (Step.of c rest) { r with line := r.line + lineFeeds [c] }) :
    ∃ s, beginWith source c r = .ok s ∧ Keeps source (done.length + 1) s := by
  -- the classes in the order in which they are tried
  by_cases hfeed : c = '\n'
  · subst hfeed
    exact ⟨_, rfl, h.settled⟩
  rw [lineFeeds_singleton, if_neg hfeed] at h
  by_cases hblank : isBlank c = true
  · rw [Step.of, if_pos hblank] at h
    refine ⟨_, ?_, h.settled⟩
    rw [beginWith, if_neg hfeed, if_pos hblank]
    rfl
  by_cases hslash : c = '/'
  · subst hslash
    exact keeps_beginSlash h
  by_cases hquote : c = '"'
  · subst hquote
    rw [Step.of_quote] at h
    exact ⟨_, rfl, h.looped (by simp) fun _ => rfl⟩
  by_cases hdigit : isDigit c = true
  · rw [Step.of_number hdigit] at h
    refine ⟨_, ?_, h.looped (by simp) (by simp)⟩
    rw [beginWith, if_neg hfeed, if_neg hblank, if_neg hslash, if_neg hquote, if_pos hdigit]
    rfl
  by_cases hletter : isWordStart c = true
  · rw [Step.of_letter hletter] at h
    refine ⟨_, ?_, h.looped (by simp) (by simp)⟩
    rw [beginWith, if_neg hfeed, if_neg hblank, if_neg hslash, if_neg hquote, if_neg hdigit,
      if_pos hletter]
    rfl
  rw [Step.of, if_neg hblank, if_neg hslash, if_neg hquote, if_neg hdigit, if_neg hletter] at h
  rw [beginWith, if_neg hfeed, if_neg hblank, if_neg hslash, if_neg hquote, if_neg hdigit,
    if_neg hletter]
  exact keeps_beginSymbol h

theorem keeps_beginToken (h : Keeps source n r) (htask : r.task = .next) (hend : r.atEnd source = false) :
    ∃ s, beginToken source r = .ok s ∧ Keeps source (n + 1) s := by
  cases h with
  | loop _ hloop => exact absurd htask hloop
  | @next _ before text rest done hat _ hspans hdone hline =>
    cases rest with
    | nil => exact absurd hend (by simp [hat.atEnd_eq])
    | cons c rest =>
      -- the cursor is within a token of which nothing has been read, and its first character is ahead
      have hwithin : Within source done (before ++ text) [] (c :: rest) ((Step.of c rest).cons c)
          { r with start := r.current } := by
        refine ⟨hat.restart, ?_, ⟨hdone.tokens_eq, hdone.diagnostics_eq⟩, ?_⟩
        · rw [hspans, spans]
          rfl
        · rw [List.append_nil]
          exact hline
      obtain ⟨s, hs, hkeeps⟩ : ∃ s, beginWith source c { r with
          start := r.current, current := r.current + c } = .ok s ∧ Keeps source (done.length + 1) s :=
        keeps_beginWith hwithin.read
      refine ⟨s, ?_, hkeeps⟩
      rw [beginToken, hwithin.stands.advance_eq.1]
      exact hs

/-- **A step goes well from every state that keeps what states keep**, and the next state keeps it, too. -/
theorem keeps_step (h : Keeps source n r) (hmore : r.isFinished source = false) :
    ∃ s, step source r = .ok s ∧ Keeps source (if r.task = .next then n + 1 else n) s := by
  cases htask : r.task with
  | next =>
    have hend : r.atEnd source = false := by simpa [isFinished, htask] using hmore
    rw [step, htask, if_pos rfl]
    exact keeps_beginToken h htask hend
  | comment =>
    rw [step, htask]
    exact keeps_stepComment h htask
  | string =>
    rw [step, htask]
    exact keeps_stepString h htask
  | number t =>
    rw [step, htask]
    exact keeps_stepNumber h htask
  | word =>
    rw [step, htask]
    exact keeps_stepWord h htask

end LoxLexer.Cursor
